import RubySupervisor.Decimal.Binary64
import RubySupervisor.Text.Digit

/-!
# Decimals with a number of places

A quotient of natural numbers is written with so many digits behind the point, or with so many
digits and a power of ten. The last digit is the nearest one, and of two that are equally near the
even one.
-/

namespace RubySupervisor.Decimal

/-- Digits with a point in front of the last ones; it may be kept even if none follow. -/
def pointed (digits : List Char) (places : Nat) (keeps : Bool) : List Char :=
  let filled := List.replicate (places + 1 - digits.length) '0' ++ digits
  let whole := filled.take (filled.length - places)
  if places = 0 && !keeps then whole else whole ++ '.' :: filled.drop (filled.length - places)

theorem length_pointed (digits : List Char) (places : Nat) (keeps : Bool)
    (h : places < digits.length) :
    (pointed digits places keeps).length
      = digits.length + (if places = 0 && !keeps then 0 else 1) := by
  have : places + 1 - digits.length = 0 := by omega
  unfold pointed
  cases keeps <;> by_cases hp : places = 0 <;> simp [this, hp] <;> omega

/-- A quotient with digits behind the point. -/
def fixed (num den places : Nat) (keeps : Bool) : List Char :=
  pointed (Nat.toDigits 10 (Binary64.roundQuotient (num * Nat.pow 10 places) den)) places keeps

/-- The power of ten of the first digit of a positive quotient. -/
def magnitude (num den : Nat) : Int :=
  if den ≤ num then ((Nat.toDigits 10 (num / den)).length : Int) - 1
  else - ((Nat.toDigits 10 ((den - 1) / num)).length : Int)

/-- The digits of a quotient, one and `places` others, and the power of ten of the first one. -/
def rounded (num den places : Nat) : List Char × Int :=
  if num = 0 then (List.replicate (places + 1) '0', 0)
  else
    let power := magnitude num den
    let shift := (places : Int) - power
    let digits := Nat.toDigits 10
      (Binary64.roundQuotient (num * Nat.pow 10 shift.toNat) (den * Nat.pow 10 (-shift).toNat))
    if digits.length = places + 2 then (digits.take (places + 1), power + 1) else (digits, power)

/-- A power of ten as it stands behind digits, with a sign and two digits at least. -/
def powerText (power : Int) : List Char :=
  let digits := Nat.toDigits 10 power.natAbs
  (if power < 0 then ['e', '-'] else ['e', '+'])
    ++ List.replicate (2 - digits.length) '0' ++ digits

/-- A quotient with a power of ten. -/
def scientific (num den places : Nat) (keeps : Bool) : List Char :=
  let (digits, power) := rounded num den places
  pointed digits places keeps ++ powerText power

/-- A quotient with as many digits as are asked for, with a power of ten if it is large or small.
Zeros at the end are left out unless they are to be kept. -/
def general (num den precision : Nat) (keeps : Bool) : List Char :=
  let precision := max precision 1
  let (digits, power) := rounded num den (precision - 1)
  let stripped (s : List Char) : List Char :=
    if keeps || !s.contains '.' then s
    else (((s.reverse).dropWhile (· = '0')).dropWhile (· = '.')).reverse
  if power < -4 ∨ (precision : Int) ≤ power then
    stripped (pointed digits (precision - 1) keeps) ++ powerText power
  else stripped (fixed num den ((precision : Int) - 1 - power).toNat keeps)

example : fixed 5 2 0 false = ['2'] := by decide +kernel
example : scientific 999999 100 2 false = "1.00e+04".toList := by decide +kernel
example : general 1 100000 6 false = "1e-05".toList := by decide +kernel

end RubySupervisor.Decimal
