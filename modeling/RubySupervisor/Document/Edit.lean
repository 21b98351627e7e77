import RubySupervisor.Json.Record

/-!
# Places, edits and lenses of a document

The parts of a document that a server talks about: positions and ranges, text edits, and code
lenses with the command behind them. Reading takes the members of a document value and drops
unknown ones; writing leaves out what is absent.
-/

namespace RubySupervisor

/-- A line and a character, both from zero. -/
structure Position where
  line : Nat
  character : Nat
  deriving DecidableEq, Repr, Inhabited

/-- Two positions, the end not included. -/
structure Range where
  start : Position
  stop : Position
  deriving DecidableEq, Repr, Inhabited

/-- A new text for a range. -/
structure TextEdit where
  range : Range
  newText : String
  deriving DecidableEq, Repr

/-- The command behind a code lens. -/
structure LensCommand where
  title : String
  command : String
  arguments : Option (List Json)
  deriving DecidableEq, Repr

/-- A command shown at a range of a document. -/
structure CodeLens where
  range : Range
  command : Option LensCommand
  data : Option Json
  deriving DecidableEq, Repr

/-- An integer that fits in 32 bits without sign. -/
def Json.word32? (j : Json) : Option Nat :=
  (j.intBetween? 0 4294967295).map Int.toNat

namespace Position

/-- The position that a value describes. -/
def ofJson? (j : Json) : Option Position := do
  let r ← Json.Record.ofJson? ["line", "character"] j
  return ⟨← r.required "line" Json.word32?, ← r.required "character" Json.word32?⟩

/-- The position as a value. -/
def toJson (p : Position) : Json :=
  .object [("character", .int p.character), ("line", .int p.line)]

end Position

namespace Range

/-- The range that a value describes. -/
def ofJson? (j : Json) : Option Range := do
  let r ← Json.Record.ofJson? ["start", "end"] j
  return ⟨← r.required "start" Position.ofJson?, ← r.required "end" Position.ofJson?⟩

/-- The range as a value. -/
def toJson (r : Range) : Json := .object [("end", r.stop.toJson), ("start", r.start.toJson)]

end Range

namespace TextEdit

/-- The edit that a value describes. -/
def ofJson? (j : Json) : Option TextEdit := do
  let r ← Json.Record.ofJson? ["range", "newText"] j
  return ⟨← r.required "range" Range.ofJson?, ← r.required "newText" Json.text?⟩

/-- The edit as a value. -/
def toJson (e : TextEdit) : Json :=
  .object [("newText", .text e.newText), ("range", e.range.toJson)]

end TextEdit

namespace LensCommand

/-- The command that a value describes. -/
def ofJson? (j : Json) : Option LensCommand := do
  let r ← Json.Record.ofJson? ["title", "command", "arguments"] j
  return {
    title := ← r.required "title" Json.text?
    command := ← r.required "command" Json.text?
    arguments := ← r.optional "arguments" Json.items? }

/-- The command as a value. -/
def toJson (c : LensCommand) : Json :=
  .object ((c.arguments.map (fun items => ("arguments", Json.array items))).toList
    ++ [("command", .text c.command), ("title", .text c.title)])

end LensCommand

namespace CodeLens

/-- The lens that a value describes. -/
def ofJson? (j : Json) : Option CodeLens := do
  let r ← Json.Record.ofJson? ["range", "command", "data"] j
  return {
    range := ← r.required "range" Range.ofJson?
    command := ← r.optional "command" LensCommand.ofJson?
    data := ← r.optional "data" some }

/-- The lens as a value. -/
def toJson (l : CodeLens) : Json :=
  .object ((l.command.map (fun command => ("command", command.toJson))).toList
    ++ (l.data.map (fun data => ("data", data))).toList ++ [("range", l.range.toJson)])

end CodeLens

end RubySupervisor
