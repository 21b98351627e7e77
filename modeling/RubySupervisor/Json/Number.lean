import RubySupervisor.Json.Value
import RubySupervisor.Text.Scan
import RubySupervisor.Text.Digit

/-!
# Numbers of a document

A numeral without fraction and exponent that fits in 64 bits is an integer. Every other number
is a double, computed from the leading digits that fit in 64 bits and a power of ten with one
rounding for each: the significand is rounded, then multiplied or divided by the rounded power.
A number beyond the largest double is refused.
-/

namespace RubySupervisor.Json

open Decimal (Binary64)
open Text (isAsciiDigit digitValue)

/-- The first number that an unsigned 64-bit word cannot hold. -/
def wordLimit : Nat := Nat.pow 2 64

/-- Reads digits while the number they form fits in a word; the rest of the digits are counted. -/
def leadingDigits : (value : Nat) → List Char → Nat × Nat
  | value, [] => (value, 0)
  | value, c :: rest =>
    let next := value * 10 + digitValue c
    if next < wordLimit then leadingDigits next rest else (value, rest.length + 1)

/-- Reads fraction digits while the number fits in a word, and counts those that were taken. -/
def fractionDigits : (value taken : Nat) → List Char → Nat × Nat
  | value, taken, [] => (value, taken)
  | value, taken, c :: rest =>
    let next := value * 10 + digitValue c
    if next < wordLimit then fractionDigits next (taken + 1) rest else (value, taken)

/-- Divides by 10^308 until the exponent is at least -308, or the number is zero. -/
def descend : (fuel : Nat) → Binary64 → Nat → Option (Binary64 × Nat)
  | 0, x, exponent => some (x, exponent)
  | fuel + 1, x, exponent =>
    if exponent ≤ 308 then some (x, exponent)
    else if x.isZero then some (x, 0)
    else do
      let step ← Binary64.powerOfTen? 308
      descend fuel (← x.div? step) (exponent - 308)

/-- The double of a significand and a power of ten. -/
def scaled? (significand : Nat) (exponent : Int) : Option Binary64 := do
  let x ← Binary64.ofNat? significand
  if 0 ≤ exponent then
    if x.isZero && 308 < exponent then some x
    else x.mul? (← Binary64.powerOfTen? exponent.toNat)
  else
    let (x, exponent) ← descend 4 x (-exponent).toNat
    if 308 < exponent then some Binary64.zero
    else x.div? (← Binary64.powerOfTen? exponent)

/-- The greatest exponent that is kept; larger ones stand at this bound. -/
def exponentLimit : Int := 2147483647

/-- An exponent after `e` or `E`: its value, and what follows. -/
def exponent? (s : List Char) : Option (Int × List Char) :=
  let (negative, s) := match s with
    | '-' :: rest => (true, rest)
    | '+' :: rest => (false, rest)
    | _ => (false, s)
  (Text.run? isAsciiDigit s).map fun (digits, rest) =>
    let n : Int := Text.digitsValue digits
    (if negative then -n else n, rest)

/-- The double of a sign, a significand and two exponents; an exponent beyond its limit makes zero
or is refused. -/
def real? (negative : Bool) (significand : Nat) (starting written : Int) : Option Json := do
  let signed (x : Binary64) : Json := real (if negative then x.neg else x)
  if exponentLimit < written.natAbs then
    if significand ≠ 0 ∧ 0 < written then none else some (signed Binary64.zero)
  else
    let total := starting + written
    let total := if total < -exponentLimit then -exponentLimit else min total exponentLimit
    (scaled? significand total).map signed

/-- The exponent part of a number, zero when there is none. -/
def optionalExponent? (s : List Char) : Option (Int × List Char) :=
  match s with
  | 'e' :: rest => exponent? rest
  | 'E' :: rest => exponent? rest
  | _ => some (0, s)

/-- Whether a number goes on with a fraction or an exponent. -/
def continuesAsReal : List Char → Bool
  | '.' :: _ => true
  | 'e' :: _ => true
  | 'E' :: _ => true
  | _ => false

/-- A number at the front of the text, after its sign. -/
def unsignedNumber? (negative : Bool) (s : List Char) : Option (Json × List Char) := do
  let (digits, rest) ← Text.run? isAsciiDigit s
  if digits.head? = some '0' ∧ digits.length ≠ 1 then none
  else
    let (significand, dropped) := leadingDigits 0 digits
    if dropped = 0 && !continuesAsReal rest then
      if negative then
        if significand = 0 || Nat.pow 2 63 < significand then
          return (← real? true significand 0 0, rest)
        else return (int (-significand), rest)
      else return (int significand, rest)
    else
      match rest with
      | '.' :: afterPoint =>
        let (fraction, afterFraction) ← Text.run? isAsciiDigit afterPoint
        let (significand, taken) := fractionDigits significand 0 fraction
        let (written, rest) ← optionalExponent? afterFraction
        return (← real? negative significand (dropped - taken) written, rest)
      | _ =>
        let (written, rest) ← optionalExponent? rest
        return (← real? negative significand dropped written, rest)

/-- A number at the front of the text. -/
def number? : List Char → Option (Json × List Char)
  | '-' :: rest => unsignedNumber? true rest
  | s => unsignedNumber? false s

end RubySupervisor.Json
