import RubySupervisor.Text.Blank
import RubySupervisor.Text.Digit

/-!
# Ruby versions

The numeric part of a version text: `major.minor`, an optional patch, and whatever follows the
first dash ignored. A version with a patch is complete.
-/

namespace RubySupervisor

/-- The numbers of a version. -/
structure RubyVersion where
  major : Nat
  minor : Nat
  patch : Option Nat
  deriving DecidableEq, Repr

namespace RubyVersion

/-- One number of a version: a 32-bit numeral with an optional plus sign. -/
def number? (s : List Char) : Option Nat := Text.unsigned? (Nat.pow 2 32) s

/-- Reads `major.minor[.patch][-suffix]`; what follows a third number and its dot is ignored. -/
def parse? (s : String) : Option RubyVersion :=
  let numeric := s.toList.takeWhile (· != '-')
  match Text.splitChars (· == '.') numeric with
  | major :: minor :: [] => do
    return ⟨← number? major, ← number? minor, none⟩
  | major :: minor :: patch :: _ => do
    return ⟨← number? major, ← number? minor, some (← number? patch)⟩
  | _ => none

/-- Whether the version is `major.minor` or later. -/
def atLeast (v : RubyVersion) (major minor : Nat) : Bool :=
  major < v.major || (v.major = major && minor ≤ v.minor)

/-- The order of versions: number by number, a missing patch before every patch. -/
def order (v w : RubyVersion) : Ordering :=
  (compare v.major w.major).then <| (compare v.minor w.minor).then <|
    match v.patch, w.patch with
    | none, none => .eq
    | none, some _ => .lt
    | some _, none => .gt
    | some p, some q => compare p q

/-- Whether a version text has major, minor and patch. -/
def isComplete (s : String) : Bool := ((parse? s).bind (·.patch)).isSome

end RubyVersion

end RubySupervisor
