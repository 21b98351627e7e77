/-!
# Finite double-precision numbers

A finite double is a sign, a significand below 2^53 and a power of two. Rounding takes a quotient
of natural numbers to the nearest double, ties to the even significand; what is too large for a
double has no result. The operations that reading a document number needs, product and quotient,
are the exact ones followed by one rounding.
-/

namespace RubySupervisor.Decimal

/-- A finite double: `significand * 2 ^ (shift - 1074)`, negated if `negative`. The significand is
below 2^53, and at least 2^52 unless the shift is zero. -/
structure Binary64 where
  negative : Bool
  significand : Nat
  shift : Nat
  deriving DecidableEq, Repr, Inhabited

namespace Binary64

/-- Zero, with the sign bit clear. -/
def zero : Binary64 := ⟨false, 0, 0⟩

/-- The quotient of two natural numbers rounded to the nearest integer, ties to even. -/
def roundQuotient (num den : Nat) : Nat :=
  let q := num / den
  let r := num % den
  if 2 * r < den then q
  else if den < 2 * r then q + 1
  else if q % 2 = 0 then q else q + 1

/-- The least shift for which the quotient `num / den`, scaled by 2^1074, stays below 2^53 before
rounding; found from the binary lengths of both. -/
def fittingShift (num den : Nat) : Nat :=
  let scaled := num * Nat.pow 2 1074
  let guess := scaled.log2 - den.log2 - 53
  if scaled < den * Nat.pow 2 (guess + 53) then guess
  else guess + 1

/-- The double nearest to `num / den`, or none beyond the largest double. -/
def ofQuotient? (negative : Bool) (num den : Nat) : Option Binary64 :=
  let shift := fittingShift num den
  let significand := roundQuotient (num * Nat.pow 2 1074) (den * Nat.pow 2 shift)
  let rounded : Binary64 :=
    if significand = Nat.pow 2 53 then ⟨negative, Nat.pow 2 52, shift + 1⟩ else ⟨negative, significand, shift⟩
  if rounded.shift ≤ 2045 then some rounded else none

/-- The double nearest to a natural number. -/
def ofNat? (n : Nat) : Option Binary64 := ofQuotient? false n 1

/-- The product, rounded once. -/
def mul? (a b : Binary64) : Option Binary64 :=
  ofQuotient? (a.negative != b.negative)
    (a.significand * b.significand * Nat.pow 2 (a.shift + b.shift)) (Nat.pow 2 2148)

/-- The quotient by a number other than zero, rounded once. -/
def div? (a b : Binary64) : Option Binary64 :=
  ofQuotient? (a.negative != b.negative)
    (a.significand * Nat.pow 2 a.shift) (b.significand * Nat.pow 2 b.shift)

/-- The same number with the opposite sign. -/
def neg (a : Binary64) : Binary64 := { a with negative := !a.negative }

/-- Whether the number is zero of either sign. -/
def isZero (a : Binary64) : Bool := a.significand = 0

/-- The double nearest to a power of ten, or none beyond the largest double. -/
def powerOfTen? (n : Nat) : Option Binary64 := if n ≤ 308 then ofNat? (Nat.pow 10 n) else none

example : ofNat? 1 = some ⟨false, Nat.pow 2 52, 1022⟩ := by decide +kernel
example : ofQuotient? false 5 (Nat.pow 10 324) = some ⟨false, 1, 0⟩ := by decide +kernel

end Binary64

end RubySupervisor.Decimal
