import RubySupervisor.Json.Value
import RubySupervisor.Decimal.Shortest

/-!
# Writing documents

A document is written either compactly, without any blank, or spread over lines with two spaces
for each level. Both forms escape the quote, the backslash and the control characters of a text
and leave every other character as it is.
-/

namespace RubySupervisor.Json

open Text (hexChars)

/-- One character of a text inside quotes. -/
def writtenChar (c : Char) : List Char :=
  match c with
  | '"' => ['\\', '"']
  | '\\' => ['\\', '\\']
  | '\x08' => ['\\', 'b']
  | '\x0c' => ['\\', 'f']
  | '\n' => ['\\', 'n']
  | '\r' => ['\\', 'r']
  | '\t' => ['\\', 't']
  | c =>
    if c.toNat < 0x20 then
      let digits := hexChars c.toNat
      ['\\', 'u'] ++ List.replicate (4 - digits.length) '0' ++ digits
    else [c]

/-- The characters of a text inside quotes. -/
def writtenText (s : List Char) : List Char := s.flatMap writtenChar

/-- A text with its quotes. -/
def quotedText (s : String) : List Char := '"' :: writtenText s.toList ++ ['"']

mutual
/-- The compact form of a value. -/
def compactChars : Json → List Char
  | null => ['n', 'u', 'l', 'l']
  | bool true => ['t', 'r', 'u', 'e']
  | bool false => ['f', 'a', 'l', 's', 'e']
  | int n => (Text.intText n).toList
  | real x => x.text.toList
  | text s => quotedText s
  | array items => '[' :: compactItems items ++ [']']
  | object members => '\x7b' :: compactMembers members ++ ['\x7d']

/-- The compact forms of items between commas. -/
def compactItems : List Json → List Char
  | [] => []
  | [item] => compactChars item
  | item :: rest => compactChars item ++ ',' :: compactItems rest

/-- The compact forms of members between commas. -/
def compactMembers : List (String × Json) → List Char
  | [] => []
  | [(name, value)] => quotedText name ++ ':' :: compactChars value
  | (name, value) :: rest =>
    quotedText name ++ ':' :: compactChars value ++ ',' :: compactMembers rest
end

/-- The text of a value without any blank. -/
def compact (j : Json) : String := String.ofList (compactChars j)

/-- A line end and the blanks of a level. -/
def lineStart (level : Nat) : List Char := '\n' :: List.replicate (2 * level) ' '

mutual
/-- The form of a value at a level, one item or member a line. -/
def prettyChars (level : Nat) : Json → List Char
  | array [] => ['[', ']']
  | array items => '[' :: prettyItems (level + 1) items ++ lineStart level ++ [']']
  | object [] => ['\x7b', '\x7d']
  | object members =>
    '\x7b' :: prettyMembers (level + 1) members ++ lineStart level ++ ['\x7d']
  | null => ['n', 'u', 'l', 'l']
  | bool true => ['t', 'r', 'u', 'e']
  | bool false => ['f', 'a', 'l', 's', 'e']
  | int n => (Text.intText n).toList
  | real x => x.text.toList
  | text s => quotedText s

/-- Items, each on a line of its own. -/
def prettyItems (level : Nat) : List Json → List Char
  | [] => []
  | [item] => lineStart level ++ prettyChars level item
  | item :: rest => lineStart level ++ prettyChars level item ++ ',' :: prettyItems level rest

/-- Members, each on a line of its own. -/
def prettyMembers (level : Nat) : List (String × Json) → List Char
  | [] => []
  | [(name, value)] => lineStart level ++ quotedText name ++ ':' :: ' ' :: prettyChars level value
  | (name, value) :: rest =>
    lineStart level ++ quotedText name ++ ':' :: ' ' :: prettyChars level value ++
      ',' :: prettyMembers level rest
end

/-- The text of a value spread over lines. -/
def pretty (j : Json) : String := String.ofList (prettyChars 0 j)

end RubySupervisor.Json
