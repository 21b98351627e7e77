import RubySupervisor.Shell.Pattern

/-!
# Expressions

The expressions of searches and stream editors: bytes, sets, repetitions, groups, alternatives and
places in a line. A match begins as early as possible and is as long as possible.

Where an expression can end is a list, without the repetition of a place, so that the effort stays
polynomial. What a greedy reader prefers comes first.
-/

namespace RubySupervisor.Shell

/-- What a text can be searched for. -/
inductive Expression where
  | nothing
  | one (element : Pattern.Element)
  /-- The start of a line. -/
  | start
  /-- The end of a line. -/
  | finish
  /-- A place where these are the answers to whether a word's byte is before and behind it. -/
  | edge (allowed : List (Bool × Bool))
  | group (number : Nat) (inside : Expression)
  | both (first second : Expression)
  | either (first second : Expression)
  | repeated (inside : Expression) (least : Nat) (most : Option Nat)
  /-- What a group has matched. -/
  | again (number : Nat)
  deriving Repr

namespace Expression

/-- A place in a line. -/
structure Spot where
  place : Nat
  before : Option UInt8
  rest : Bytes
  /-- What the groups have matched, the last one first. -/
  groups : List (Nat × Bytes)

namespace Spot

/-- The spot behind a number of bytes. -/
def advance (s : Spot) (n : Nat) : Spot :=
  { s with
    place := s.place + n
    before := (s.rest.take n).getLast?.orElse (fun () => s.before)
    rest := s.rest.drop n }

/-- The spots without those at whose place there is one before them. -/
def distinct : List Spot → List Spot
  | [] => []
  | [only] => [only]
  | spots =>
    let most := spots.foldl (fun n s => max n s.place) 0
    (spots.foldl (fun (sofar : List Spot × Array Bool) s =>
      if (sofar.2[s.place]?).getD false then sofar
      else (s :: sofar.1, sofar.2.setIfInBounds s.place true))
      ([], Array.replicate (most + 1) false)).1.reverse

/-- The spots that some rounds of steps lead to, those of more rounds first. -/
def rounds (steps : Spot → List Spot) : (fuel : Nat) → (least : Nat) → (most : Option Nat) →
    (reached accepted : List Spot) → List Spot
  | 0, _, _, _, accepted => accepted
  | fuel + 1, least, most, reached, accepted =>
    let accepted := if least = 0 then reached ++ accepted else accepted
    if reached.isEmpty || most = some 0 then accepted
    else
      let next := reached.flatMap fun s =>
        (steps s).filter (fun t => 0 < least || s.place < t.place)
      rounds steps fuel (least - 1) (most.map (· - 1)) (distinct next) accepted

end Spot

/-- Whether a byte belongs to words. -/
def isWordByte (b : UInt8) : Bool :=
  byte 'a' ≤ b && b ≤ byte 'z' || byte 'A' ≤ b && b ≤ byte 'Z' || byte '0' ≤ b && b ≤ byte '9'
    || b = byte '_'

/-- Where an expression that begins at a spot can end. -/
def ends : Expression → Spot → List Spot
  | nothing, s => [s]
  | one element, s =>
    match s.rest with
    | c :: rest =>
      if element.fits c then [{ s with place := s.place + 1, before := some c, rest }] else []
    | [] => []
  | start, s => if s.before.isNone then [s] else []
  | finish, s => if s.rest.isEmpty then [s] else []
  | edge allowed, s =>
    if allowed.contains (s.before.any isWordByte, s.rest.head?.any isWordByte) then [s] else []
  | group number inside, s =>
    (inside.ends s).map fun t =>
      { t with groups := (number, s.rest.take (t.place - s.place)) :: t.groups }
  | both first second, s => Spot.distinct ((first.ends s).flatMap second.ends)
  | either first second, s => Spot.distinct (first.ends s ++ second.ends s)
  | repeated inside least most, s =>
    Spot.distinct (Spot.rounds inside.ends (s.rest.length + least + 2) least most [s] [])
  | again number, s =>
    let text := (s.groups.lookup number).getD []
    if text.isPrefixOf s.rest then [s.advance text.length] else []

/-- A match: what stands before it, what it takes, what stands behind it, and its groups. -/
structure Found where
  before : Bytes
  taken : Bytes
  after : Bytes
  groups : List (Nat × Bytes)

/-- The first match in a text that follows a byte, or that is the start of a line. -/
def findAfter? (expression : Expression) : Option UInt8 → Bytes → Option Found
  | before, s =>
    let longest := (expression.ends ⟨0, before, s, []⟩).foldl (fun (best : Option Spot) t =>
      if best.any (t.place ≤ ·.place) then best else some t) none
    match longest with
    | some t => some ⟨[], s.take t.place, t.rest, t.groups⟩
    | none =>
      match s with
      | [] => none
      | c :: tail =>
        (findAfter? expression (some c) tail).map
          (fun found => { found with before := c :: found.before })

/-- The first match in a line. -/
def find? (expression : Expression) (line : Bytes) : Option Found :=
  expression.findAfter? none line

/-- The matches of a line that take something, one after another. -/
def findAll (expression : Expression) : (fuel : Nat) → Option UInt8 → Bytes → List Bytes
  | 0, _, _ => []
  | fuel + 1, before, s =>
    match expression.findAfter? before s with
    | none => []
    | some found =>
      match found.taken.getLast?, found.after with
      | none, [] => []
      | none, c :: rest => findAll expression fuel (some c) rest
      | last, after => found.taken :: findAll expression fuel last after

/-- A replacement with the match and its groups put in. -/
def replacement (found : Found) : Bytes → Bytes
  | [] => []
  | [c] => if c = byte '&' then found.taken else [c]
  | c :: d :: rest =>
    if c = byte '&' then found.taken ++ replacement found (d :: rest)
    else if c = byte '\\' then
      if byte '0' = d then found.taken ++ replacement found rest
      else if byte '1' ≤ d ∧ d ≤ byte '9' then
        (found.groups.lookup (d.toNat - 48)).getD [] ++ replacement found rest
      else if d = byte 'n' then byte '\n' :: replacement found rest
      else if d = byte 't' then byte '\t' :: replacement found rest
      else d :: replacement found rest
    else c :: replacement found (d :: rest)

/-- A text with matches replaced: the one of a number, and those behind it if every one is. Right
behind a match there is none that takes nothing. -/
def substituteAfter (expression : Expression) (by_ : Bytes) (every : Bool) :
    (fuel : Nat) → (occurrence : Nat) → (isBehind : Bool) → Option UInt8 → Bytes → Bytes
  | 0, _, _, _, s => s
  | fuel + 1, occurrence, isBehind, before, s =>
    match expression.findAfter? before s with
    | none => s
    | some found =>
      if isBehind && found.before.isEmpty && found.taken.isEmpty then
        match s with
        | [] => []
        | c :: tail => c :: substituteAfter expression by_ every fuel occurrence false (some c) tail
      else
        let isCounted := occurrence ≤ 1
        let new := if isCounted then replacement found by_ else found.taken
        let rest :=
          if isCounted && !every then found.after
          else
            match found.taken.getLast?, found.after with
            | none, [] => []
            | none, c :: tail =>
              c :: substituteAfter expression by_ every fuel (occurrence - 1) false (some c) tail
            | last, after =>
              substituteAfter expression by_ every fuel (occurrence - 1) true last after
        found.before ++ new ++ rest

/-- A line with matches replaced. -/
def substitute (expression : Expression) (by_ : Bytes) (occurrence : Nat) (every : Bool)
    (line : Bytes) : Bytes :=
  expression.substituteAfter by_ every (line.length + 2) occurrence false none line

/-- The expression that does not tell the cases of letters apart. -/
def ignoringCase : Expression → Expression
  | one (.exactly b) => one (.oneOf false (casesOf (b, b)))
  | one (.oneOf negated ranges) => one (.oneOf negated (ranges.flatMap casesOf))
  | group number inside => group number inside.ignoringCase
  | both first second => both first.ignoringCase second.ignoringCase
  | either first second => either first.ignoringCase second.ignoringCase
  | repeated inside least most => repeated inside.ignoringCase least most
  | other => other
where
  /-- A range with the letters of the other case. -/
  casesOf (range : UInt8 × UInt8) : List (UInt8 × UInt8) :=
    let (low, high) := range
    let clipped (a z shift : UInt8) : List (UInt8 × UInt8) :=
      if max low a ≤ min high z then [(max low a + shift, min high z + shift)] else []
    range :: (clipped (byte 'A') (byte 'Z') 32 ++ clipped (byte 'a') (byte 'z') 224)

/-- Whether an expression has groups. -/
def hasGroup : Expression → Bool
  | group .. => true
  | both first second => first.hasGroup || second.hasGroup
  | either first second => first.hasGroup || second.hasGroup
  | repeated inside .. => inside.hasGroup
  | _ => false

/-- The expression of the bytes themselves. -/
def literally (s : Bytes) : Expression :=
  s.foldr (fun b rest => both (one (.exactly b)) rest) nothing

/-- An expression for whole lines. -/
def wholeLine (expression : Expression) : Expression := both start (both expression finish)

/-- An expression for whole words. -/
def wholeWords (expression : Expression) : Expression :=
  both (edge [(false, false), (false, true)])
    (both expression (edge [(false, false), (true, false)]))

/-- A part of a written expression. -/
inductive Token where
  | single (expression : Expression)
  | times (least : Nat) (most : Option Nat)
  | opening
  | closing
  | bar

/-- The bounds of a repetition up to its closing brace. -/
def bounds? (extended : Bool) (s : Bytes) : Option (Token × Bytes) :=
  let isDigit (b : UInt8) : Bool := byte '0' ≤ b && b ≤ byte '9'
  let number (digits : Bytes) : Nat := digits.foldl (fun n b => n * 10 + (b.toNat - 48)) 0
  let least := s.takeWhile isDigit
  let (isRange, after) := match s.dropWhile isDigit with
    | c :: rest => if c = byte ',' then (true, rest) else (false, c :: rest)
    | [] => (false, [])
  let most := after.takeWhile isDigit
  let closing := bytesOf (if extended then "\x7d" else "\\\x7d")
  let rest := after.dropWhile isDigit
  if !closing.isPrefixOf rest || !isRange && least.isEmpty then none
  else
    let most? := if !isRange then some (number least)
      else if most.isEmpty then none else some (number most)
    some (.times (number least) most?, rest.drop closing.length)

/-- What a letter behind a backslash stands for. -/
def escapes : List (Char × Expression) :=
  let word : List (UInt8 × UInt8) :=
    [(byte 'a', byte 'z'), (byte 'A', byte 'Z'), (byte '0', byte '9'), (byte '_', byte '_')]
  let blank : List (UInt8 × UInt8) := [(9, 13), (32, 32)]
  [('w', one (.oneOf false word)), ('W', one (.oneOf true word)), ('s', one (.oneOf false blank)),
    ('S', one (.oneOf true blank)), ('b', edge [(false, true), (true, false)]),
    ('B', edge [(false, false), (true, true)]), ('<', edge [(false, true)]),
    ('>', edge [(true, false)]), ('n', one (.exactly 10)), ('t', one (.exactly 9)),
    ('r', one (.exactly 13))]

/-- What an operator stands for; extended expressions write it without a backslash. -/
def operators : List (Char × Token) :=
  [('(', .opening), (')', .closing), ('|', .bar), ('+', .times 1 none), ('?', .times 0 (some 1))]

/-- The tokens of a written expression. A star at the start of a branch stands for itself. -/
def tokens (extended : Bool) : (fuel : Nat) → (isFresh : Bool) → Bytes → List Token
  | 0, _, _ => []
  | _, _, [] => []
  | fuel + 1, isFresh, c :: rest =>
    let exactly (b : UInt8) (rest : Bytes) : List Token :=
      .single (one (.exactly b)) :: tokens extended fuel false rest
    let operator (c : UInt8) (rest : Bytes) : Option (List Token) :=
      if c = byte '\x7b' then
        if isFresh then none
        else (bounds? extended rest).map (fun found => found.1 :: tokens extended fuel false found.2)
      else
        (operators.lookup (Char.ofNat c.toNat)).map fun token =>
          token :: tokens extended fuel (c = byte '(' || c = byte '|') rest
    let closes (rest : Bytes) : Bool :=
      rest.isEmpty || (bytesOf "\\)").isPrefixOf rest || (bytesOf "\\|").isPrefixOf rest
    if c = byte '\\' then
      match rest with
      | [] => exactly c []
      | d :: rest =>
        match if extended then none else operator d rest, escapes.lookup (Char.ofNat d.toNat) with
        | some found, _ => found
        | none, some expression => .single expression :: tokens extended fuel false rest
        | none, none =>
          if byte '1' ≤ d && d ≤ byte '9' then
            .single (again (d.toNat - 48)) :: tokens extended fuel false rest
          else exactly d rest
    else if c = byte '.' then .single (one .anyByte) :: tokens extended fuel false rest
    else if c = byte '*' then
      if isFresh then exactly c rest else .times 0 none :: tokens extended fuel false rest
    else if c = byte '^' && (extended || isFresh) then
      .single start :: tokens extended fuel true rest
    else if c = byte '$' && (extended || closes rest) then
      .single finish :: tokens extended fuel false rest
    else if c = byte '[' then
      match Pattern.set? [byte '^'] rest with
      | some (element, rest) => .single (one element) :: tokens extended fuel false rest
      | none => exactly c rest
    else
      match if extended then operator c rest else none with
      | some found => found
      | none => exactly c rest

/-- Expressions in a row, the last one first. -/
def inRow (parts : List Expression) : Expression :=
  parts.foldl (fun rest part => if rest matches nothing then part else both part rest) nothing

/-- Reads tokens up to the end of a group: the expression, the number of groups so far, and the
tokens from that end on. -/
def ofTokens : (fuel : Nat) → (sofar : List Expression) → (groups : Nat) → List Token →
    Expression × Nat × List Token
  | 0, sofar, groups, rest => (inRow sofar, groups, rest)
  | _, sofar, groups, [] => (inRow sofar, groups, [])
  | fuel + 1, sofar, groups, token :: rest =>
    match token, sofar with
    | .closing, _ => (inRow sofar, groups, token :: rest)
    | .bar, _ =>
      let (other, groups, rest) := ofTokens fuel [] groups rest
      (either (inRow sofar) other, groups, rest)
    | .opening, _ =>
      let (inside, count, rest) := ofTokens fuel [] (groups + 1) rest
      ofTokens fuel (group (groups + 1) inside :: sofar) count (rest.drop 1)
    | .times least most, last :: others =>
      ofTokens fuel (repeated last least most :: others) groups rest
    | .times .., [] => ofTokens fuel [] groups rest
    | .single expression, _ => ofTokens fuel (expression :: sofar) groups rest

/-- The expression that a byte string writes. -/
def ofBytes (extended : Bool) (s : Bytes) : Expression :=
  let tokens := tokens extended (s.length + 1) true s
  (ofTokens (tokens.length + 1) [] 0 tokens).1

end Expression

end RubySupervisor.Shell
