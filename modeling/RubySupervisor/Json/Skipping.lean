import RubySupervisor.Json.Parser
import RubySupervisor.Json.Record

/-!
# Records amid members that no one asks for

A record is read from a text without building the values of other members. These are only passed
over: their form must be that of a value, but they may be nested to any depth, their numbers may
have any size, and an escape in their texts need not stand for a character.
-/

namespace RubySupervisor.Json

open Text (literal? hexValue? isAsciiDigit)

/-- What follows the closing quote of a text. -/
def skipText? : (fuel : Nat) → List Char → Option (List Char)
  | 0, _ => none
  | _ + 1, [] => none
  | _ + 1, '"' :: rest => some rest
  | fuel + 1, '\\' :: 'u' :: rest => (codeUnit? rest).bind (fun unit => skipText? fuel unit.2)
  | fuel + 1, '\\' :: c :: rest =>
    if "\"\\/bfnrt".toList.contains c then skipText? fuel rest else none
  | fuel + 1, c :: rest => if c.toNat < 0x20 || c = '\\' then none else skipText? fuel rest

/-- What follows a non-empty run of digits. -/
def skipDigits? (s : List Char) : Option (List Char) := (Text.run? isAsciiDigit s).map Prod.snd

/-- What follows an exponent, if there is one. -/
def skipExponent? : List Char → Option (List Char)
  | [] => some []
  | c :: rest =>
    if c = 'e' || c = 'E' then
      match rest with
      | '+' :: rest => skipDigits? rest
      | '-' :: rest => skipDigits? rest
      | rest => skipDigits? rest
    else some (c :: rest)

/-- What follows a number without its sign. -/
def skipNumber? (s : List Char) : Option (List Char) := do
  let (digits, rest) ← Text.run? isAsciiDigit s
  if digits.head? = some '0' ∧ digits.length ≠ 1 then none
  else
    match rest with
    | '.' :: rest => skipExponent? (← skipDigits? rest)
    | rest => skipExponent? rest

/-- What follows a value that is no array and no object. -/
def skipScalar? : List Char → Option (List Char)
  | 'n' :: rest => literal? ['u', 'l', 'l'] rest
  | 't' :: rest => literal? ['r', 'u', 'e'] rest
  | 'f' :: rest => literal? ['a', 'l', 's', 'e'] rest
  | '"' :: rest => skipText? (rest.length + 1) rest
  | '-' :: rest => skipNumber? rest
  | s => skipNumber? s

/-- What follows the name of a member and its colon. -/
def skipName? (s : List Char) : Option (List Char) :=
  match skipSpace s with
  | '"' :: rest => do literal? [':'] (skipSpace (← skipText? (rest.length + 1) rest))
  | _ => none

/-- A value that has been begun and not yet ended. -/
inductive Enclosing where
  | array
  | object
  deriving DecidableEq, Repr

mutual
/-- What follows a value and the ends of everything that encloses it, the innermost first. -/
def skipValue? : (fuel : Nat) → List Enclosing → List Char → Option (List Char)
  | 0, _, _ => none
  | fuel + 1, enclosing, s =>
    match skipSpace s with
    | '[' :: rest =>
      match skipSpace rest with
      | ']' :: rest => skipEnclosing? fuel enclosing rest
      | rest => skipValue? fuel (.array :: enclosing) rest
    | '\x7b' :: rest =>
      match skipSpace rest with
      | '\x7d' :: rest => skipEnclosing? fuel enclosing rest
      | rest => do skipValue? fuel (.object :: enclosing) (← skipName? rest)
    | s => do skipEnclosing? fuel enclosing (← skipScalar? s)

/-- What follows the rest of everything that encloses a value. -/
def skipEnclosing? : (fuel : Nat) → List Enclosing → List Char → Option (List Char)
  | 0, _, _ => none
  | _ + 1, [], s => some s
  | fuel + 1, .array :: enclosing, s =>
    match skipSpace s with
    | ',' :: rest => skipValue? fuel (.array :: enclosing) rest
    | ']' :: rest => skipEnclosing? fuel enclosing rest
    | _ => none
  | fuel + 1, .object :: enclosing, s =>
    match skipSpace s with
    | ',' :: rest => do skipValue? fuel (.object :: enclosing) (← skipName? rest)
    | '\x7d' :: rest => skipEnclosing? fuel enclosing rest
    | _ => none
end

/-- The value of a member that is asked for, or nothing, and what follows it. -/
def memberValue? (asked : Bool) (s : List Char) : Option (Option Json × List Char) :=
  if asked then
    (value? (2 * s.length + 2) depthLimit s).map (fun (value, rest) => (some value, rest))
  else (skipValue? (2 * s.length + 2) [] s).map (fun rest => (none, rest))

/-- The members with given names up to the closing brace, and what follows; at least one member
of any name. -/
def askedMembers? (names : List String) :
    (fuel : Nat) → List Char → Option (List (String × Json) × List Char)
  | 0, _ => none
  | fuel + 1, s => do
    let (name, rest) ← quotedText? (skipSpace s)
    let rest ← literal? [':'] (skipSpace rest)
    let (value, rest) ← memberValue? (names.contains name) rest
    let found := value.toList.map (fun value => (name, value))
    match skipSpace rest with
    | '\x7d' :: rest => some (found, rest)
    | ',' :: rest =>
      let (more, rest) ← askedMembers? names fuel rest
      return (found ++ more, rest)
    | _ => none

/-- The record with the given field names that a text writes as an object. -/
def Record.read? (names : List String) (s : List Char) : Option Record :=
  match skipSpace s with
  | '\x7b' :: rest => do
    let (fields, rest) ←
      match skipSpace rest with
      | '\x7d' :: rest => some ([], rest)
      | rest => askedMembers? names (rest.length + 1) rest
    if (skipSpace rest).isEmpty && distinct (fields.map Prod.fst) then some ⟨false, fields⟩
    else none
  | _ => none

end RubySupervisor.Json
