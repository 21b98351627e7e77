import RubySupervisor.Decimal.Binary64
import RubySupervisor.Dict

/-!
# Document values

The values that messages, stored state and settings of the protocol are made of. Integers are
those that fit in 64 bits with or without sign; every other number is a double. An object keeps
its members in ascending order of their names, each name once.
-/

namespace RubySupervisor

open Decimal (Binary64)

/-- A document value. -/
inductive Json where
  | null
  | bool (b : Bool)
  | int (n : Int)
  | real (x : Binary64)
  | text (s : String)
  | array (items : List Json)
  | object (members : List (String × Json))
  deriving Repr, Inhabited

namespace Json

mutual
/-- Equality of values, member by member. -/
def same : Json → Json → Bool
  | null, null => true
  | bool a, bool b => a == b
  | int a, int b => a == b
  | real a, real b => a == b
  | text a, text b => a == b
  | array a, array b => sameItems a b
  | object a, object b => sameMembers a b
  | _, _ => false

/-- Equality of lists of values. -/
def sameItems : List Json → List Json → Bool
  | [], [] => true
  | a :: as, b :: bs => same a b && sameItems as bs
  | _, _ => false

/-- Equality of lists of members. -/
def sameMembers : List (String × Json) → List (String × Json) → Bool
  | [], [] => true
  | (n, a) :: as, (m, b) :: bs => n == m && same a b && sameMembers as bs
  | _, _ => false
end

mutual
theorem same_iff : ∀ {a b : Json}, same a b = true ↔ a = b := by
  intro a b
  match a, b with
  | null, b => cases b <;> simp [same]
  | bool a, b => cases b <;> simp [same]
  | int a, b => cases b <;> simp [same]
  | real a, b => cases b <;> simp [same]
  | text a, b => cases b <;> simp [same]
  | array a, array b => simp [same, sameItems_iff]
  | array a, null => simp [same]
  | array a, bool _ => simp [same]
  | array a, int _ => simp [same]
  | array a, real _ => simp [same]
  | array a, text _ => simp [same]
  | array a, object _ => simp [same]
  | object a, object b => simp [same, sameMembers_iff]
  | object a, null => simp [same]
  | object a, bool _ => simp [same]
  | object a, int _ => simp [same]
  | object a, real _ => simp [same]
  | object a, text _ => simp [same]
  | object a, array _ => simp [same]

theorem sameItems_iff : ∀ {a b : List Json}, sameItems a b = true ↔ a = b := by
  intro a b
  match a, b with
  | [], [] => simp [sameItems]
  | [], _ :: _ => simp [sameItems]
  | _ :: _, [] => simp [sameItems]
  | a :: as, b :: bs => simp [sameItems, same_iff, sameItems_iff]

theorem sameMembers_iff : ∀ {a b : List (String × Json)}, sameMembers a b = true ↔ a = b := by
  intro a b
  match a, b with
  | [], [] => simp [sameMembers]
  | [], _ :: _ => simp [sameMembers]
  | _ :: _, [] => simp [sameMembers]
  | (n, a) :: as, (m, b) :: bs => simp [sameMembers, same_iff, sameMembers_iff]
end

instance : DecidableEq Json := fun _ _ => decidable_of_iff _ same_iff

/-- The member of an object with a name; nothing for other values. -/
def member? (j : Json) (name : String) : Option Json :=
  match j with
  | object members => Dict.find? members name
  | _ => none

/-- The member of an object with a name, `null` where there is none. -/
def member (j : Json) (name : String) : Json := (j.member? name).getD null

/-- The object of a list of members in any order. -/
def ofMembers (members : List (String × Json)) : Json := object (Dict.ofPairs members)

mutual
/-- The value with every text and every name in it changed. -/
def mapTexts (f : String → String) : Json → Json
  | text s => text (f s)
  | array items => array (mapItems f items)
  | object members => ofMembers (mapMembers f members)
  | null => null
  | bool b => bool b
  | int n => int n
  | real x => real x

/-- Values with every text in them changed. -/
def mapItems (f : String → String) : List Json → List Json
  | [] => []
  | j :: rest => mapTexts f j :: mapItems f rest

/-- Members with every text and every name in them changed. -/
def mapMembers (f : String → String) : List (String × Json) → List (String × Json)
  | [] => []
  | (name, j) :: rest => (f name, mapTexts f j) :: mapMembers f rest
end

/-- The text of a value that is a text. -/
def text? : Json → Option String
  | text s => some s
  | _ => none

/-- The truth value of a value that is one. -/
def bool? : Json → Option Bool
  | bool b => some b
  | _ => none

/-- The integer of a value that is one. -/
def int? : Json → Option Int
  | int n => some n
  | _ => none

/-- The natural number of a value that is one. -/
def nat? : Json → Option Nat
  | int (.ofNat n) => some n
  | _ => none

/-- The items of a value that is an array. -/
def items? : Json → Option (List Json)
  | array items => some items
  | _ => none

/-- The members of a value that is an object. -/
def members? : Json → Option (List (String × Json))
  | object members => some members
  | _ => none

/-- The value of an optional text. -/
def ofText? : Option String → Json
  | some s => text s
  | none => null

end Json

end RubySupervisor
