import RubySupervisor.Toml.DateTime
import RubySupervisor.Toml.Value
import RubySupervisor.Toml.Text

/-!
# Reading settings documents

A document is a sequence of headers and assignments, one a line, with comments. Fractions and
arrays of tables are refused, since no setting is one of them.
-/

namespace RubySupervisor.Toml

/-- The text after a comment at its front, up to the line end. -/
def skipComment (s : List Char) : List Char :=
  match s with
  | '#' :: rest => rest.dropWhile isPrintable
  | _ => s

/-- What follows the end of a line, before which only blanks and a comment stand. -/
def closeLine? (s : List Char) : Option (List Char) :=
  match skipComment (skipSpace s) with
  | [] => some []
  | s => (lineEnd? s).map Prod.snd

/-- The text after blanks, comments and line ends. -/
def skipFiller : (fuel : Nat) → List Char → List Char
  | 0, s => s
  | fuel + 1, s =>
    let s := skipComment (skipSpace s)
    match lineEnd? s with
    | some (_, rest) => skipFiller fuel rest
    | none => s

/-- The characters of a bare key. -/
def isKeyChar (c : Char) : Bool := Text.isAsciiAlphanumeric c || c == '_' || c == '-'

/-- One part of a key. -/
def keyPart? (s : List Char) : Option (String × List Char) :=
  match s with
  | '"' :: _ => shortText? s
  | '\'' :: _ => shortText? s
  | _ => (Text.run? isKeyChar s).map (fun r => (String.ofList r.1, r.2))

/-- A key: parts between dots. -/
def key? : (fuel : Nat) → List Char → Option (List String × List Char)
  | 0, _ => none
  | fuel + 1, s => do
    let (part, rest) ← keyPart? s
    match skipSpace rest with
    | '.' :: rest => do
      let (parts, rest) ← key? fuel (skipSpace rest)
      return (part :: parts, rest)
    | rest => return ([part], rest)

/-- A truth value, an integer, or a date or time. -/
def word? (s : List Char) : Option (Toml × List Char) :=
  let word := s.takeWhile isWordChar
  let rest := s.drop word.length
  if word = "true".toList then some (.boolean true, rest)
  else if word = "false".toList then some (.boolean false, rest)
  else
    match integer? word with
    | some n => some (.integer n, rest)
    | none => (dateTime? s).map (fun r => (.dateTime r.1, r.2))

/-- A text. -/
def textValue? (s : List Char) : Option (Toml × List Char) :=
  (anyText? s).map (fun r => (.text r.1, r.2))

mutual
/-- A value at the front of the text. -/
def value? : (fuel : Nat) → List Char → Option (Toml × List Char)
  | 0, _ => none
  | fuel + 1, s =>
    match s with
    | '"' :: _ => textValue? s
    | '\'' :: _ => textValue? s
    | '[' :: rest => (items? fuel rest).map (fun r => (.array r.1, r.2))
    | '\x7b' :: rest =>
      (tableBody? fuel [] rest).map (fun r => (.table (finishedEntries r.1), r.2))
    | _ => word? s

/-- The items of an array after its opening bracket or a comma. -/
def items? : (fuel : Nat) → List Char → Option (List Toml × List Char)
  | 0, _ => none
  | fuel + 1, s =>
    match skipFiller s.length s with
    | ']' :: rest => some ([], rest)
    | s => do
      let (item, rest) ← value? fuel s
      match skipFiller rest.length rest with
      | ',' :: rest => do
        let (items, rest) ← items? fuel rest
        return (item :: items, rest)
      | ']' :: rest => return ([item], rest)
      | _ => none

/-- The entries of a table between braces after its opening brace or a comma. Lines may end
anywhere between its tokens. -/
def tableBody? : (fuel : Nat) → Nodes → List Char → Option (Nodes × List Char)
  | 0, _, _ => none
  | fuel + 1, nodes, s =>
    match skipFiller s.length s with
    | '\x7d' :: rest => some (nodes, rest)
    | s => do
      let (path, rest) ← key? s.length s
      match skipFiller rest.length rest with
      | '=' :: rest => do
        let (v, rest) ← value? fuel (skipFiller rest.length rest)
        let nodes ← nodes.define v path
        match skipFiller rest.length rest with
        | ',' :: rest => tableBody? fuel nodes rest
        | '\x7d' :: rest => return (nodes, rest)
        | _ => none
      | _ => none
end

/-- The lines of a document; `header` names the table that assignments go into. -/
def lines? : (fuel : Nat) → (header : List String) → Nodes → List Char → Option Nodes
  | 0, _, _, _ => none
  | fuel + 1, header, nodes, s =>
    match skipSpace s with
    | [] => some nodes
    | '[' :: rest => do
      let (path, rest) ← key? rest.length (skipSpace rest)
      match rest with
      | ']' :: rest => do
        let nodes ← nodes.openTable path
        lines? fuel path nodes (← closeLine? rest)
      | _ => none
    | s =>
      match closeLine? s with
      | some rest => lines? fuel header nodes rest
      | none => do
        let (path, rest) ← key? s.length s
        match rest with
        | '=' :: rest => do
          let (v, rest) ← value? (rest.length + 1) (skipSpace rest)
          let nodes ← nodes.inside (Nodes.define v path) header
          lines? fuel header nodes (← closeLine? rest)
        | _ => none

/-- The text without a byte order mark at its front. -/
def dropMark (s : List Char) : List Char :=
  match s with
  | '\ufeff' :: rest => rest
  | _ => s

/-- The entries of a document. -/
def parse? (source : String) : Option (List (String × Toml)) :=
  let s := dropMark source.toList
  (lines? (s.length + 1) [] [] s).map finishedEntries

end RubySupervisor.Toml
