import RubySupervisor.Json.Record

/-!
# Shapes of values

A shape says which values are accepted where a value of some kind is due. It is read like the
records of documents: unknown members do not count, an optional field may be absent or `null`, and
a record that is written as an array has every field in order.
-/

namespace RubySupervisor.Json

/-- What a value has to look like. -/
inductive Shape where
  | anything
  | truth
  | text
  /-- An integer between two bounds. -/
  | integer (low high : Int)
  /-- A name out of a list. -/
  | nameOf (names : List String)
  | list (item : Shape)
  /-- A record of named fields, each of which may be optional. A record that is told by its names,
  because it has parts of its own or is one of several alternatives, is not written as an array. -/
  | record (byName : Bool) (fields : List (String × Bool × Shape))
  | either (shapes : List Shape)

namespace Shape

/-- A field that must be there. -/
def due (name : String) (shape : Shape) : String × Bool × Shape := (name, false, shape)

/-- A field that may be absent. -/
def may (name : String) (shape : Shape) : String × Bool × Shape := (name, true, shape)

mutual

/-- Whether a value has a shape. -/
def admits : Shape → Json → Bool
  | anything, _ => true
  | truth, j => j.bool?.isSome
  | text, j => j.text?.isSome
  | integer low high, j => (intBetween? low high j).isSome
  | nameOf names, j => (variant? j).any names.contains
  | list item, j => (j.items?).any (fun items => items.all (admits item))
  | record byName fields, j =>
    match j with
    | .object members => admitsMembers fields members
    | .array items => !byName && admitsItems fields items
    | _ => false
  | either shapes, j => admitsOne shapes j

/-- Whether the members of an object fill fields. -/
def admitsMembers : List (String × Bool × Shape) → List (String × Json) → Bool
  | [], _ => true
  | (name, optional, shape) :: fields, members =>
    (match members.find? (fun member => member.1 = name) with
      | none => optional
      | some (_, .null) => optional || admits shape .null
      | some (_, j) => admits shape j) && admitsMembers fields members

/-- Whether items fill fields one after another. -/
def admitsItems : List (String × Bool × Shape) → List Json → Bool
  | [], items => items.isEmpty
  | _ :: _, [] => false
  | (_, optional, shape) :: fields, j :: items =>
    ((j = .null && optional) || admits shape j) && admitsItems fields items

/-- Whether a value has one of several shapes. -/
def admitsOne : List Shape → Json → Bool
  | [], _ => false
  | shape :: shapes, j => admits shape j || admitsOne shapes j

end

end Shape

end RubySupervisor.Json
