/-!
# Scanning from the left

Small recognisers on a list of characters: a literal at the front, a run of characters of a
class, and the first position at which a recogniser succeeds.
-/

namespace RubySupervisor.Text

/-- What follows a literal at the front of the text. -/
def literal? : List Char → List Char → Option (List Char)
  | [], s => some s
  | _ :: _, [] => none
  | p :: ps, c :: cs => if p = c then literal? ps cs else none

/-- A non-empty run of characters of a class at the front of the text, and what follows it. -/
def run? (p : Char → Bool) (s : List Char) : Option (List Char × List Char) :=
  let run := s.takeWhile p
  if run.isEmpty then none else some (run, s.dropWhile p)

/-- The answer of a recogniser at the first position where it has one. -/
def firstMatch? {α : Type} (f : List Char → Option α) : List Char → Option α
  | [] => f []
  | c :: rest =>
    match f (c :: rest) with
    | some a => some a
    | none => firstMatch? f rest

/-- The text before and after the first occurrence of a literal. -/
def cutFirst? (mark : List Char) : List Char → Option (List Char × List Char)
  | [] => if mark.isEmpty then some ([], []) else none
  | c :: rest =>
    match literal? mark (c :: rest) with
    | some after => some ([], after)
    | none => (cutFirst? mark rest).map (fun cut => (c :: cut.1, cut.2))

/-- The text before and after the last occurrence of a literal. -/
def cutLast? (mark : List Char) : List Char → Option (List Char × List Char)
  | [] => if mark.isEmpty then some ([], []) else none
  | c :: rest =>
    match cutLast? mark rest with
    | some cut => some (c :: cut.1, cut.2)
    | none => (literal? mark (c :: rest)).map (fun after => ([], after))

/-- The text with every occurrence of a literal replaced, from the left; `fuel` bounds their
number. -/
def replacedUpTo (mark new : List Char) : (fuel : Nat) → List Char → List Char
  | 0, s => s
  | fuel + 1, s =>
    match cutFirst? mark s with
    | none => s
    | some (before, after) => before ++ new ++ replacedUpTo mark new fuel after

/-- The text with every occurrence of a literal replaced, from the left. -/
def replaced (mark new s : String) : String :=
  if mark = "" then s
  else String.ofList (replacedUpTo mark.toList new.toList s.length s.toList)

/-- Whether a literal occurs in the text. -/
def occurs (mark s : String) : Bool := (cutFirst? mark.toList s.toList).isSome

/-- Whether the text begins with a literal. -/
def startsWith (s mark : String) : Bool := (literal? mark.toList s.toList).isSome

/-- Whether the text ends with a literal. -/
def endsWith (s mark : String) : Bool := (literal? mark.toList.reverse s.toList.reverse).isSome

theorem literal?_append (p s : List Char) : literal? p (p ++ s) = some s := by
  induction p with
  | nil => cases s <;> rfl
  | cons c p ih => simp [literal?, ih]

theorem literal?_eq_some_iff {p s rest : List Char} : literal? p s = some rest ↔ s = p ++ rest := by
  induction p generalizing s with
  | nil => cases s <;> simp [literal?, eq_comm]
  | cons c p ih =>
    cases s with
    | nil => simp [literal?]
    | cons d s =>
      by_cases h : c = d
      · subst h; simp [literal?, ih]
      · simp [literal?, h, Ne.symm h]

theorem startsWith_iff {s mark : String} :
    startsWith s mark = true ↔ mark.toList <+: s.toList := by
  rw [startsWith, Option.isSome_iff_exists]
  exact exists_congr fun rest => literal?_eq_some_iff.trans eq_comm

theorem endsWith_iff {s mark : String} : endsWith s mark = true ↔ mark.toList <:+ s.toList := by
  rw [endsWith, Option.isSome_iff_exists, ← List.reverse_prefix]
  exact exists_congr fun rest => literal?_eq_some_iff.trans eq_comm

end RubySupervisor.Text
