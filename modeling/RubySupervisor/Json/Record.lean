import RubySupervisor.Json.Value

/-!
# Records in documents

A record is written as an object with named fields or as an array of the fields in order. Members
that are no field do not count; a repeated field and a surplus item are refused. A field with a
default may be absent everywhere, an optional field only in an object.
-/

namespace RubySupervisor.Json

/-- The fields of a record as a document gives them. -/
structure Record where
  /-- Whether the record was written as an array. -/
  positional : Bool
  fields : List (String × Json)

namespace Record

/-- Whether a list of names has no repetition. -/
def distinct : List String → Bool
  | [] => true
  | name :: rest => !rest.contains name && distinct rest

/-- The record with the given field names that a value writes. -/
def ofJson? (names : List String) : Json → Option Record
  | object members =>
    let fields := members.filter (fun member => names.contains member.1)
    if distinct (fields.map Prod.fst) then some ⟨false, fields⟩ else none
  | array items =>
    if items.length ≤ names.length then some ⟨true, names.zip items⟩ else none
  | _ => none

/-- The record with the given field names that an object writes. A record with parts that share its
object is written in no other way. -/
def byName? (names : List String) : Json → Option Record
  | object members => ofJson? names (object members)
  | _ => none

/-- The value of a field, if the document gives one. -/
def field? (r : Record) (name : String) : Option Json :=
  (r.fields.find? (fun field => field.1 = name)).map Prod.snd

variable {α : Type}

/-- A field that must be present. -/
def required (r : Record) (name : String) (decode : Json → Option α) : Option α :=
  (r.field? name).bind decode

/-- A field that may be absent from an object, or `null`. -/
def optional (r : Record) (name : String) (decode : Json → Option α) : Option (Option α) :=
  match r.field? name with
  | none => if r.positional then none else some none
  | some null => some none
  | some j => (decode j).map some

/-- A field that may be absent, or `null`. -/
def optionalOrAbsent (r : Record) (name : String) (decode : Json → Option α) : Option (Option α) :=
  match r.field? name with
  | none => some none
  | some null => some none
  | some j => (decode j).map some

/-- A field with a default. -/
def defaulted (r : Record) (name : String) (absent : α) (decode : Json → Option α) : Option α :=
  match r.field? name with
  | none => some absent
  | some j => decode j

end Record

/-- A list of values of one kind. -/
def listOf? {α : Type} (decode : Json → Option α) : Json → Option (List α)
  | array items => items.mapM decode
  | _ => none

/-- An object with values of one kind. -/
def dictOf? {α : Type} (decode : Json → Option α) : Json → Option (Dict α)
  | object members =>
    (members.mapM (fun member : String × Json =>
      (decode member.2).map (fun a => (member.1, a)))).map Dict.ofPairs
  | _ => none

/-- The name of a bare variant: its text, or an object with that one name and the value `null`. -/
def variant? : Json → Option String
  | text s => some s
  | object [(name, null)] => some name
  | _ => none

/-- An integer from `low` to `high`. -/
def intBetween? (low high : Int) : Json → Option Int
  | int n => if low ≤ n ∧ n ≤ high then some n else none
  | _ => none

end RubySupervisor.Json
