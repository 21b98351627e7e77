import RubySupervisor.Json.Number

/-!
# Reading documents

The reader accepts one value between blanks, nested at most 127 deep. Members are first kept as
written, in their order and with repetitions, because a record read from a document may refuse a
repeated member; the canonical value keeps the last of them.
-/

namespace RubySupervisor.Json

open Text (literal? hexValue?)

/-- The blanks of a document. -/
def isSpace (c : Char) : Bool := c == ' ' || c == '\n' || c == '\t' || c == '\r'

/-- The text from its first character that is no blank. -/
def skipSpace (s : List Char) : List Char := s.dropWhile isSpace

/-- Four hexadecimal digits. -/
def codeUnit? : List Char → Option (Nat × List Char)
  | a :: b :: c :: d :: rest => do
    let a ← hexValue? a
    let b ← hexValue? b
    let c ← hexValue? c
    let d ← hexValue? d
    return (((a * 16 + b) * 16 + c) * 16 + d, rest)
  | _ => none

/-- The character of an escape after `\u`: a code unit, or a pair of surrogates. -/
def unicodeEscape? (s : List Char) : Option (Char × List Char) := do
  let (first, rest) ← codeUnit? s
  if 0xDC00 ≤ first && first ≤ 0xDFFF then none
  else if 0xD800 ≤ first && first ≤ 0xDBFF then
    let rest ← literal? ['\\', 'u'] rest
    let (second, rest) ← codeUnit? rest
    if 0xDC00 ≤ second && second ≤ 0xDFFF then
      return (Char.ofNat (0x10000 + (first - 0xD800) * 0x400 + (second - 0xDC00)), rest)
    else none
  else return (Char.ofNat first, rest)

/-- The characters up to the closing quote, escapes resolved, and what follows the quote. Each
step reads at least one character, so the fuel may be the length of the text. -/
def textBody? : (fuel : Nat) → List Char → Option (List Char × List Char)
  | 0, _ => none
  | _ + 1, [] => none
  | _ + 1, '"' :: rest => some ([], rest)
  | fuel + 1, '\\' :: rest => do
    let (c, rest) ← match rest with
      | '"' :: rest => some ('"', rest)
      | '\\' :: rest => some ('\\', rest)
      | '/' :: rest => some ('/', rest)
      | 'b' :: rest => some ('\x08', rest)
      | 'f' :: rest => some ('\x0c', rest)
      | 'n' :: rest => some ('\n', rest)
      | 'r' :: rest => some ('\r', rest)
      | 't' :: rest => some ('\t', rest)
      | 'u' :: rest => unicodeEscape? rest
      | _ => none
    let (body, rest) ← textBody? fuel rest
    return (c :: body, rest)
  | fuel + 1, c :: rest =>
    if c.toNat < 0x20 then none
    else (textBody? fuel rest).map (fun (body, rest) => (c :: body, rest))

/-- A text at the front, from its opening quote on. -/
def quotedText? : List Char → Option (String × List Char)
  | '"' :: rest =>
    (textBody? (rest.length + 1) rest).map (fun (body, rest) => (String.ofList body, rest))
  | _ => none

mutual
/-- A value at the front of the text, with at most `depth` levels of nesting. -/
def value? : (fuel depth : Nat) → List Char → Option (Json × List Char)
  | 0, _, _ => none
  | fuel + 1, depth, s =>
    match skipSpace s with
    | [] => none
    | 'n' :: rest => (literal? ['u', 'l', 'l'] rest).map (fun rest => (null, rest))
    | 't' :: rest => (literal? ['r', 'u', 'e'] rest).map (fun rest => (bool true, rest))
    | 'f' :: rest => (literal? ['a', 'l', 's', 'e'] rest).map (fun rest => (bool false, rest))
    | '"' :: rest =>
      (quotedText? ('"' :: rest)).map (fun (s, rest) => (text s, rest))
    | '[' :: rest =>
      match depth with
      | 0 => none
      | depth + 1 =>
        match skipSpace rest with
        | ']' :: rest => some (array [], rest)
        | rest => (itemList? fuel depth rest).map (fun (items, rest) => (array items, rest))
    | '\x7b' :: rest =>
      match depth with
      | 0 => none
      | depth + 1 =>
        match skipSpace rest with
        | '\x7d' :: rest => some (object [], rest)
        | rest => (memberList? fuel depth rest).map (fun (members, rest) => (object members, rest))
    | s => number? s

/-- Items up to the closing bracket; at least one. -/
def itemList? : (fuel depth : Nat) → List Char → Option (List Json × List Char)
  | 0, _, _ => none
  | fuel + 1, depth, s => do
    let (item, rest) ← value? fuel depth s
    match skipSpace rest with
    | ']' :: rest => some ([item], rest)
    | ',' :: rest =>
      let (more, rest) ← itemList? fuel depth rest
      return (item :: more, rest)
    | _ => none

/-- Members up to the closing brace; at least one. -/
def memberList? : (fuel depth : Nat) → List Char → Option (List (String × Json) × List Char)
  | 0, _, _ => none
  | fuel + 1, depth, s => do
    let (name, rest) ← quotedText? (skipSpace s)
    let rest ← literal? [':'] (skipSpace rest)
    let (value, rest) ← value? fuel depth rest
    match skipSpace rest with
    | '\x7d' :: rest => some ([(name, value)], rest)
    | ',' :: rest =>
      let (more, rest) ← memberList? fuel depth rest
      return ((name, value) :: more, rest)
    | _ => none
end

/-- The levels of nesting that a document may have. -/
def depthLimit : Nat := 127

/-- The value of a text, its members as written. -/
def read? (s : List Char) : Option Json := do
  let (value, rest) ← value? (2 * s.length + 2) depthLimit s
  if (skipSpace rest).isEmpty then some value else none

mutual
/-- The value with the members of every object in order, the last of each name kept. -/
def canonical : Json → Json
  | array items => array (canonicalItems items)
  | object members => object (Dict.ofPairs (canonicalMembers members))
  | j => j

/-- The canonical values of a list. -/
def canonicalItems : List Json → List Json
  | [] => []
  | item :: rest => canonical item :: canonicalItems rest

/-- Members with canonical values. -/
def canonicalMembers : List (String × Json) → List (String × Json)
  | [] => []
  | (name, value) :: rest => (name, canonical value) :: canonicalMembers rest
end

/-- The value that a text writes. -/
def parse? (s : String) : Option Json := (read? s.toList).map canonical

end RubySupervisor.Json
