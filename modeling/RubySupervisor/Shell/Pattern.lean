import RubySupervisor.Shell.Script

/-!
# Patterns

A pattern describes whole byte strings: a star stands for any bytes, a question mark for one byte,
brackets for one byte of a set. Bytes that were quoted stand for themselves.
-/

namespace RubySupervisor.Shell

/-- A string of bytes. -/
abbrev Bytes := List UInt8

/-- The byte of an ASCII character. -/
def byte (c : Char) : UInt8 := UInt8.ofNat c.toNat

/-- The bytes of a text. -/
def bytesOf (s : String) : Bytes := s.toUTF8.toList

namespace Pattern

/-- One element of a pattern. -/
inductive Element where
  | exactly (b : UInt8)
  | anyByte
  | anyBytes
  /-- A byte of a set of ranges, or of none of them. -/
  | oneOf (negated : Bool) (ranges : List (UInt8 × UInt8))
  deriving DecidableEq, Repr

/-- The bytes of a class. -/
def classRanges : String → List (UInt8 × UInt8)
  | "digit" => [(byte '0', byte '9')]
  | "upper" => [(byte 'A', byte 'Z')]
  | "lower" => [(byte 'a', byte 'z')]
  | "alpha" => [(byte 'A', byte 'Z'), (byte 'a', byte 'z')]
  | "alnum" => [(byte '0', byte '9'), (byte 'A', byte 'Z'), (byte 'a', byte 'z')]
  | "xdigit" => [(byte '0', byte '9'), (byte 'A', byte 'F'), (byte 'a', byte 'f')]
  | "blank" => [(9, 9), (32, 32)]
  | "space" => [(9, 13), (32, 32)]
  | "cntrl" => [(0, 31), (127, 127)]
  | "print" => [(32, 126)]
  | "graph" => [(33, 126)]
  | "punct" => [(33, 47), (58, 64), (91, 96), (123, 126)]
  | _ => []

/-- The class at the front of a text: its ranges and what follows it. -/
def class? (s : Bytes) : Option (List (UInt8 × UInt8) × Bytes) :=
  if !(bytesOf "[:").isPrefixOf s then none
  else
    let name := (s.drop 2).takeWhile (fun b => byte 'a' ≤ b && b ≤ byte 'z')
    let rest := s.drop (2 + name.length)
    if (bytesOf ":]").isPrefixOf rest then
      some (classRanges (String.ofList (name.map (fun b => Char.ofNat b.toNat))), rest.drop 2)
    else none

/-- The ranges of a set up to its closing bracket. -/
def ranges : (fuel : Nat) → Bytes → Option (List (UInt8 × UInt8) × Bytes)
  | 0, _ => none
  | fuel + 1, s =>
    match class? s, s with
    | some (found, rest), _ => (ranges fuel rest).map (fun more => (found ++ more.1, more.2))
    | none, [] => none
    | none, low :: dash :: high :: rest =>
      if low = byte ']' then some ([], dash :: high :: rest)
      else if dash = byte '-' ∧ high ≠ byte ']' then
        (ranges fuel rest).map (fun found => ((low, high) :: found.1, found.2))
      else
        (ranges fuel (dash :: high :: rest)).map
          (fun found => ((low, low) :: found.1, found.2))
    | none, low :: rest =>
      if low = byte ']' then some ([], rest)
      else (ranges fuel rest).map (fun found => ((low, low) :: found.1, found.2))

/-- The set behind an opening bracket. A closing bracket at its start belongs to the set. -/
def set? (negation : List UInt8) (s : Bytes) : Option (Element × Bytes) :=
  let (negated, s) := match s with
    | c :: rest => if negation.contains c then (true, rest) else (false, s)
    | [] => (false, s)
  match s with
  | c :: rest =>
    if c = byte ']' then
      (ranges (rest.length + 1) rest).map
        (fun found => (.oneOf negated ((c, c) :: found.1), found.2))
    else (ranges (s.length + 1) s).map (fun found => (.oneOf negated found.1, found.2))
  | [] => none

/-- The elements of a pattern; the flag of a byte says whether it was quoted. -/
def elements : (fuel : Nat) → List (UInt8 × Bool) → List Element
  | 0, _ => []
  | _, [] => []
  | fuel + 1, (b, quoted) :: rest =>
    if quoted then .exactly b :: elements fuel rest
    else if b = byte '*' then .anyBytes :: elements fuel rest
    else if b = byte '?' then .anyByte :: elements fuel rest
    else if b = byte '[' then
      match set? [byte '!', byte '^'] (rest.map Prod.fst) with
      | some (element, after) =>
        element :: elements fuel (rest.drop (rest.length - after.length))
      | none => .exactly b :: elements fuel rest
    else .exactly b :: elements fuel rest

/-- The pattern of bytes with their quoting. -/
def ofBytes (s : List (UInt8 × Bool)) : List Element := elements (s.length + 1) s

/-- Whether a byte fits an element that stands for one byte. -/
def Element.fits : Element → UInt8 → Bool
  | exactly b, c => b = c
  | anyByte, _ => true
  | anyBytes, _ => false
  | oneOf negated ranges, c => negated != ranges.any (fun r => r.1 ≤ c && c ≤ r.2)

/-- Whether a pattern describes a byte string. -/
def isMatch : List Element → Bytes → Bool
  | [], s => s.isEmpty
  | .anyBytes :: rest, s => isMatch rest s || (match s with
    | [] => false
    | _ :: tail => isMatch (.anyBytes :: rest) tail)
  | _ :: _, [] => false
  | element :: rest, c :: tail => element.fits c && isMatch rest tail
termination_by elements s => (elements.length, s.length)

/-- The numbers of bytes that may be cut from a value, in the order in which they are tried. -/
def cuts (longest : Bool) (n : Nat) : List Nat :=
  let ascending := List.range (n + 1)
  if longest then ascending.reverse else ascending

/-- A value without what a pattern describes at one of its ends. -/
def trim (t : Trimming) (pattern : List Element) (s : Bytes) : Bytes :=
  if t.front then
    match (cuts t.longest s.length).find? (fun n => isMatch pattern (s.take n)) with
    | some n => s.drop n
    | none => s
  else
    match (cuts t.longest s.length).find? (fun n => isMatch pattern (s.drop (s.length - n))) with
    | some n => s.take (s.length - n)
    | none => s

end Pattern

end RubySupervisor.Shell
