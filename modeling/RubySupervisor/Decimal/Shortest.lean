import RubySupervisor.Decimal.Binary64
import RubySupervisor.Text.Digit

/-!
# The shortest decimal of a double

The digits of a double are the fewest that lie in its rounding interval, and among those the
nearest to the double. The interval reaches half-way to both neighbours and contains its ends
exactly when the significand is even.
-/

namespace RubySupervisor.Decimal

/-- Digits and an exponent: `digits * 10 ^ exponent`. -/
structure Scaled where
  digits : Nat
  exponent : Int
  deriving DecidableEq, Repr

namespace Shortest

/-- A positive double and its interval as fractions over one denominator. -/
structure Interval where
  value : Nat
  low : Nat
  high : Nat
  denominator : Nat
  closed : Bool

/-- The rounding interval of a positive double. Below a power of two the neighbour is half as far
away, except at the smallest shift. -/
def interval (x : Binary64) : Interval :=
  let scale := Nat.pow 2 x.shift
  let value := 4 * x.significand * scale
  let below := if x.significand = Nat.pow 2 52 ∧ x.shift ≠ 0 then 1 else 2
  { value
    low := value - below * scale
    high := value + 2 * scale
    denominator := 4 * Nat.pow 2 1074
    closed := x.significand % 2 = 0 }

/-- Whether `digits * 10 ^ exponent`, given as a numerator and a denominator, lies in the
interval. -/
def Interval.contains (i : Interval) (num den : Nat) : Bool :=
  let n := num * i.denominator
  if i.closed then i.low * den ≤ n && n ≤ i.high * den
  else i.low * den < n && n < i.high * den

/-- The number of decimal digits of a natural number, one for zero. -/
def digitCount (n : Nat) : Nat := (Nat.toDigits 10 n).length

/-- The exponent of the leading decimal digit of `num / den`. -/
def leadingExponent (num den : Nat) : Int :=
  if den ≤ num then (digitCount (num / den) : Int) - 1
  else - (digitCount ((den - 1) / num) : Int)

/-- The nearest of the two grid points around the value that lie in the interval, for the grid of
multiples of a power of ten; an exact tie takes the even one. -/
def onGrid? (i : Interval) (exponent : Int) : Option Scaled :=
  let up := Nat.pow 10 exponent.toNat
  let down := Nat.pow 10 (-exponent).toNat
  let num := i.value * down
  let den := i.denominator * up
  let floor := num / den
  let remainder := num % den
  let inside (d : Nat) : Bool := i.contains (d * up) down
  let lower := inside floor && floor != 0
  let upper := inside (floor + 1)
  if lower && upper then
    if 2 * remainder < den || (2 * remainder = den && floor % 2 = 0) then some ⟨floor, exponent⟩
    else some ⟨floor + 1, exponent⟩
  else if lower then some ⟨floor, exponent⟩
  else if upper then some ⟨floor + 1, exponent⟩
  else none

/-- The first of the grids with one digit, two digits and so on that meets the interval. -/
def search (i : Interval) (leading : Int) : (count fuel : Nat) → Scaled
  | count, 0 => (onGrid? i (leading - count)).getD ⟨0, 0⟩
  | count, fuel + 1 =>
    match onGrid? i (leading - count) with
    | some s => s
    | none => search i leading (count + 1) fuel

/-- The digits without zeros at their end, the exponent raised to match. -/
def dropZeros : (fuel : Nat) → Scaled → Scaled
  | 0, s => s
  | fuel + 1, s =>
    if s.digits ≠ 0 ∧ s.digits % 10 = 0 then dropZeros fuel ⟨s.digits / 10, s.exponent + 1⟩ else s

/-- The shortest decimal of a positive double; seventeen digits always suffice. -/
def ofPositive (x : Binary64) : Scaled :=
  let i := interval x
  dropZeros 20 (search i (leadingExponent i.value i.denominator) 0 17)

end Shortest

/-- The text of a double in a document: positional with at least one fraction digit while the
decimal exponent is from -5 to 15, otherwise scientific with a signed exponent. -/
def Binary64.text (x : Binary64) : String :=
  let sign := if x.negative then ['-'] else []
  let body : List Char :=
    if x.isZero then ['0', '.', '0']
    else
      let s := Shortest.ofPositive x
      let digits := Nat.toDigits 10 s.digits
      let point : Int := digits.length + s.exponent
      if -5 < point && point ≤ 16 then
        if 0 ≤ s.exponent then digits ++ List.replicate s.exponent.toNat '0' ++ ['.', '0']
        else if 0 < point then
          digits.take point.toNat ++ ['.'] ++ digits.drop point.toNat
        else ['0', '.'] ++ List.replicate (-point).toNat '0' ++ digits
      else
        let exponent := point - 1
        let mantissa := match digits with
          | [d] => [d]
          | d :: rest => d :: '.' :: rest
          | [] => []
        mantissa ++ ['e', if 0 ≤ exponent then '+' else '-'] ++ Nat.toDigits 10 exponent.natAbs
  String.ofList (sign ++ body)

end RubySupervisor.Decimal
