import RubySupervisor.Document.Edit
import RubySupervisor.Document.UriReference

/-!
# Questions about a document

What an editor asks a server about a document: for the hover at a place, and for the edits after
typing a character there. Reading drops the members that no question has; the names of further
formatting preferences are free.
-/

namespace RubySupervisor

/-- A place in a document. -/
structure DocumentPlace where
  uri : String
  position : Position
  deriving DecidableEq, Repr

/-- The mark under which progress is reported. -/
inductive ProgressToken where
  | number (n : Int)
  | name (s : String)
  deriving DecidableEq, Repr

/-- The question for the hover at a place. -/
structure HoverQuery where
  place : DocumentPlace
  progress : Option ProgressToken
  deriving DecidableEq, Repr

/-- How an editor formats a document. -/
structure FormattingStyle where
  tabSize : Nat
  insertSpaces : Bool
  trimTrailingWhitespace : Option Bool
  insertFinalNewline : Option Bool
  trimFinalNewlines : Option Bool
  /-- Preferences with names of their own. -/
  further : List (String × Json)
  deriving DecidableEq

/-- The question for the edits after typing a character at a place. -/
structure TypingQuery where
  place : DocumentPlace
  typed : String
  style : FormattingStyle
  deriving DecidableEq

/-- The document that a value refers to. -/
def documentOf? (j : Json) : Option String := do
  (← Json.Record.ofJson? ["uri"] j).required "uri" UriReference.ofJson?

/-- The value that refers to a document. -/
def documentJson (uri : String) : Json := .object [("uri", .text uri)]

/-- The document that is closed, from the report of it. -/
def closedDocumentOf? (j : Json) : Option String := do
  (← Json.Record.ofJson? ["textDocument"] j).required "textDocument" documentOf?

/-- The report that a document is closed. -/
def closedDocumentJson (uri : String) : Json := .object [("textDocument", documentJson uri)]

namespace DocumentPlace

/-- The place that an object names. -/
def ofJson? (j : Json) : Option DocumentPlace := do
  let r ← Json.Record.byName? ["textDocument", "position"] j
  return ⟨← r.required "textDocument" documentOf?, ← r.required "position" Position.ofJson?⟩

/-- The members of an object that name the place. -/
def members (p : DocumentPlace) : List (String × Json) :=
  [("position", p.position.toJson), ("textDocument", documentJson p.uri)]

end DocumentPlace

namespace ProgressToken

/-- The mark that a value is: a text, or an integer of 32 bits. -/
def ofJson? : Json → Option ProgressToken
  | .text s => some (name s)
  | j => (j.intBetween? (-2147483648) 2147483647).map number

/-- The mark as a value. -/
def toJson : ProgressToken → Json
  | number n => .int n
  | name s => .text s

end ProgressToken

namespace HoverQuery

/-- The question that an object writes. -/
def ofJson? (j : Json) : Option HoverQuery := do
  let r ← Json.Record.byName? ["workDoneToken"] j
  return ⟨← DocumentPlace.ofJson? j, ← r.optional "workDoneToken" ProgressToken.ofJson?⟩

/-- The question as a value. -/
def toJson (q : HoverQuery) : Json :=
  .object (q.place.members
    ++ (q.progress.map (fun token => ("workDoneToken", token.toJson))).toList)

end HoverQuery

namespace FormattingStyle

/-- The names of the preferences that every editor knows. -/
def names : List String :=
  ["tabSize", "insertSpaces", "trimTrailingWhitespace", "insertFinalNewline", "trimFinalNewlines"]

/-- Whether a value can be a preference: a truth value, an integer of 32 bits or a text. -/
def isPreference : Json → Bool
  | .bool _ => true
  | j => (ProgressToken.ofJson? j).isSome

/-- The style that an object writes. -/
def ofJson? (j : Json) : Option FormattingStyle := do
  let r ← Json.Record.byName? names j
  let further := ((j.members?).getD []).filter (fun member => !names.contains member.1)
  if !further.all (fun member => isPreference member.2) then none
  return {
    tabSize := ← r.required "tabSize" Json.word32?
    insertSpaces := ← r.required "insertSpaces" Json.bool?
    trimTrailingWhitespace := ← r.optional "trimTrailingWhitespace" Json.bool?
    insertFinalNewline := ← r.optional "insertFinalNewline" Json.bool?
    trimFinalNewlines := ← r.optional "trimFinalNewlines" Json.bool?
    further }

/-- The style as a value. -/
def toJson (s : FormattingStyle) : Json :=
  let known (name : String) (flag : Option Bool) : List (String × Json) :=
    (flag.map (fun b => (name, Json.bool b))).toList
  .ofMembers ([("tabSize", .int s.tabSize), ("insertSpaces", .bool s.insertSpaces)]
    ++ known "trimTrailingWhitespace" s.trimTrailingWhitespace
    ++ known "insertFinalNewline" s.insertFinalNewline
    ++ known "trimFinalNewlines" s.trimFinalNewlines ++ s.further)

end FormattingStyle

namespace TypingQuery

/-- The question that an object writes. -/
def ofJson? (j : Json) : Option TypingQuery := do
  let r ← Json.Record.byName? ["ch", "options"] j
  return {
    place := ← DocumentPlace.ofJson? j
    typed := ← r.required "ch" Json.text?
    style := ← r.required "options" FormattingStyle.ofJson? }

/-- The question as a value. -/
def toJson (q : TypingQuery) : Json :=
  .object ([("ch", .text q.typed), ("options", q.style.toJson)] ++ q.place.members)

end TypingQuery

end RubySupervisor
