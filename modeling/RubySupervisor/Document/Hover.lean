import RubySupervisor.Document.Edit

/-!
# Hover texts

What a server says about a place of a document: one marked text, several of them, or markup. The
first form that fits a value is taken.
-/

namespace RubySupervisor

/-- A plain text, or code in a language. -/
inductive MarkedText where
  | plain (s : String)
  | code (language value : String)
  deriving DecidableEq, Repr

/-- The contents of a hover. -/
inductive HoverContents where
  | one (text : MarkedText)
  | many (texts : List MarkedText)
  | markup (kind value : String)
  deriving DecidableEq, Repr

/-- A hover with the range that it is about. -/
structure Hover where
  contents : HoverContents
  range : Option Range
  deriving DecidableEq, Repr

namespace MarkedText

/-- The marked text that a value describes. -/
def ofJson? : Json → Option MarkedText
  | .text s => some (plain s)
  | j => do
    let r ← Json.Record.ofJson? ["language", "value"] j
    return code (← r.required "language" Json.text?) (← r.required "value" Json.text?)

/-- The marked text as a value. -/
def toJson : MarkedText → Json
  | plain s => .text s
  | code language value => .object [("language", .text language), ("value", .text value)]

end MarkedText

namespace HoverContents

/-- The kinds of markup. -/
def markupKinds : List String := ["plaintext", "markdown"]

/-- The markup that a value describes. -/
def markupOf? (j : Json) : Option HoverContents := do
  let r ← Json.Record.ofJson? ["kind", "value"] j
  let kind ← r.required "kind" Json.variant?
  if markupKinds.contains kind then return markup kind (← r.required "value" Json.text?) else none

/-- The contents that a value describes. -/
def ofJson? (j : Json) : Option HoverContents :=
  (MarkedText.ofJson? j).map one
    <|> (Json.listOf? MarkedText.ofJson? j).map many
    <|> markupOf? j

/-- The contents as a value. -/
def toJson : HoverContents → Json
  | one text => text.toJson
  | many texts => .array (texts.map MarkedText.toJson)
  | markup kind value => .object [("kind", .text kind), ("value", .text value)]

end HoverContents

namespace Hover

/-- The hover that a value describes. -/
def ofJson? (j : Json) : Option Hover := do
  let r ← Json.Record.ofJson? ["contents", "range"] j
  return {
    contents := ← r.required "contents" HoverContents.ofJson?
    range := ← r.optional "range" Range.ofJson? }

/-- The hover as a value. -/
def toJson (h : Hover) : Json :=
  .object (("contents", h.contents.toJson)
    :: (h.range.map (fun range => ("range", range.toJson))).toList)

end Hover

end RubySupervisor
