import RubySupervisor.Document.Hover
import RubySupervisor.Document.Query
import RubySupervisor.Session.Client

/-!
# Documents of a running session

Requests about a document whose answers the session works on before handing them out: formatting
while typing, code lenses, hovers and syntax trees.
-/

namespace RubySupervisor

namespace Json

/-- A value that may be `null`. -/
def nullable {α : Type} (decode : Json → Option α) : Json → Option (Option α)
  | null => some none
  | j => (decode j).map some

end Json

namespace CursorAnchor

/-- The text of the edit that marks where the cursor goes. -/
def mark : String := "$0"

/-- The first edit that marks the cursor, and the other edits in their order. -/
def take? : List TextEdit → Option (TextEdit × List TextEdit)
  | [] => none
  | edit :: rest =>
    if edit.newText = mark then some (edit, rest)
    else (take? rest).map (fun taken => (taken.1, edit :: taken.2))

/-- Applies edits that mark the cursor, and then inserts the mark as a snippet, which places it.
Edits without a mark are left to the caller. -/
def place {σ : Type} (uri : String) (edits : List TextEdit) :
    Task σ (Option (List TextEdit)) := do
  match take? edits with
  | none => return some edits
  | some (anchor, others) =>
    let _applied : Bool ← Task.ask (.applyEdits uri others)
    Task.ask (.insertSnippet uri anchor.newText anchor.range)
    return none

end CursorAnchor

namespace CodeLens

/-- Whether the lens describes a test. -/
def describesTest (l : CodeLens) : Bool :=
  ((l.data.bind (fun data => data.member? "type")).bind Json.text?) = some "test"

end CodeLens

namespace Session

/-- Asks for the edits after typing a character, and places the cursor if they mark it. -/
def onTypeFormatting (c : SessionContext) (query : TypingQuery) :
    Task Session (Except ServerError (Option (List TextEdit))) := do
  match ← requestAs c "textDocument/onTypeFormatting" query.toJson
      (Json.nullable (Json.listOf? TextEdit.ofJson?)) with
  | .error error => return .error error
  | .ok none => return .ok none
  | .ok (some edits) => return .ok (← CursorAnchor.place query.place.uri edits)

/-- Asks for the code lenses of a document. -/
def codeLenses (c : SessionContext) (uri : String) :
    Task Session (Except ServerError (Option (List CodeLens))) :=
  requestAs c "textDocument/codeLens"
    (.object [("textDocument", documentJson uri)])
    (Json.nullable (Json.listOf? CodeLens.ofJson?))

/-- Asks for the hover at a place of a document. -/
def hover (c : SessionContext) (query : HoverQuery) :
    Task Session (Except ServerError (Option Hover)) :=
  requestAs c "textDocument/hover" query.toJson (Json.nullable Hover.ofJson?)

/-- Tells the server that a document is closed. -/
def closeDocument (c : SessionContext) (uri : String) : Task Session (Except ServerError Unit) :=
  notify c "textDocument/didClose" (closedDocumentJson uri)

/-- Asks for the syntax tree of a document, or of a range of it. -/
def syntaxTree (c : SessionContext) (uri : String) (range : Option Range) :
    Task Session (Except ServerError (Option String)) := do
  let params : Json := .object [
    ("range", (range.map Range.toJson).getD .null),
    ("textDocument", documentJson uri)]
  match ← request c "rubyLsp/textDocument/showSyntaxTree" params with
  | .error error => return .error error
  | .ok result => return .ok ((result.member? "ast").bind Json.text?)

end Session

end RubySupervisor
