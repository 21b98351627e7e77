import RubySupervisor.Json.Value

/-!
# Fields with defaults

Reading a loosely written object: a field that is absent, `null` or of another kind counts as the
empty value of its kind.
-/

namespace RubySupervisor.Json

/-- A field that is present and not `null`. -/
def field? (j : Json) (name : String) : Option Json :=
  match j.member? name with
  | some null => none
  | other => other

/-- An optional text. -/
def textAt? (j : Json) (name : String) : Option String := (j.field? name).bind text?

/-- A text, empty where it is absent. -/
def textAt (j : Json) (name : String) : String := (j.textAt? name).getD ""

/-- A truth value with the value that it has where it is absent. -/
def boolAt (j : Json) (name : String) (absent : Bool := false) : Bool :=
  ((j.field? name).bind bool?).getD absent

/-- An optional natural number. -/
def natAt? (j : Json) (name : String) : Option Nat := (j.field? name).bind nat?

/-- A natural number with the value that it has where it is absent. -/
def natAt (j : Json) (name : String) (absent : Nat := 0) : Nat := (j.natAt? name).getD absent

/-- The items of an array, none where it is absent. -/
def itemsAt (j : Json) (name : String) : List Json := ((j.field? name).bind items?).getD []

/-- The texts of an array. -/
def textsAt (j : Json) (name : String) : List String := (j.itemsAt name).filterMap text?

/-- The members of an object, none where it is absent. -/
def membersAt (j : Json) (name : String) : List (String × Json) :=
  ((j.field? name).bind members?).getD []

/-- The texts of an object under their names. -/
def dictAt (j : Json) (name : String) : Dict String :=
  Dict.ofPairs ((j.membersAt name).filterMap fun member =>
    member.2.text?.map (fun s => (member.1, s)))

/-- An optional value, `null` where it is absent. -/
def ofOption {α : Type} (encode : α → Json) : Option α → Json
  | some a => encode a
  | none => null

/-- A natural number as a value. -/
def ofNat (n : Nat) : Json := int n

/-- An array of texts. -/
def ofTexts (items : List String) : Json := array (items.map text)

/-- An object of texts. -/
def ofDict (d : Dict String) : Json := object (d.mapValues text)

end RubySupervisor.Json
