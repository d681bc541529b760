import SchemaForge.Number.Binary64

/-! The shortest decimal of a double: the fewest digits that read back as the same number, and of those
the nearest to it. The numbers that read back form an interval, whose ends belong to it when the
significand is even, so each length of decimal is decided by its two neighbours of the value. -/
namespace SchemaForge

/-- The decimal number `significand * 10 ^ exponent`. -/
structure Decimal where
  significand : Nat
  exponent : Int
deriving DecidableEq

namespace Decimal

/-- Moves the zeros at the end of the significand into the exponent. The first argument bounds their
number. -/
def stripZeros : Nat → Decimal → Decimal
  | 0, d => d
  | count + 1, d =>
      if d.significand % 10 = 0 then stripZeros count ⟨d.significand / 10, d.exponent + 1⟩ else d

def digits (d : Decimal) : List Char :=
  Nat.toDigits 10 d.significand

/-- The number of places that the decimal point stands to the right of the first digit's left side:
the decimal is `0.ddd * 10 ^ point`. -/
def point (d : Decimal) : Int :=
  d.exponent + d.digits.length

end Decimal

/-- Which of two equally near decimals of the same length is taken. -/
inductive TieRule where
  | toEven
  | up
deriving DecidableEq

namespace Binary64

/-- The interval of numbers that round to a positive count of steps, in quarters of a step. -/
structure RoundingInterval where
  lower : Nat
  value : Nat
  upper : Nat
  closed : Bool

/-- The gap below a power of two is half the gap above it, except at the least exponent. -/
def roundingInterval (steps : Nat) : RoundingInterval :=
  let lost := lostBits steps
  let grain := 1 <<< lost
  let significand := steps / grain
  let below := if significand = 1 <<< 52 ∧ 0 < lost then grain else 2 * grain
  { lower := 4 * steps - below
    value := 4 * steps
    upper := 4 * steps + 2 * grain
    closed := significand % 2 == 0 }

/-- The number lies in the interval, both given as multiples of the same unit. -/
def RoundingInterval.holds (interval : RoundingInterval) (factor candidate : Nat) : Bool :=
  if interval.closed then
    decide (interval.lower * factor ≤ candidate) && decide (candidate ≤ interval.upper * factor)
  else
    decide (interval.lower * factor < candidate) && decide (candidate < interval.upper * factor)

/-- The number of zeros after the decimal point of a fraction below one. The first argument bounds it. -/
def leadingZeros : Nat → Nat → Nat → Nat
  | 0, _, _ => 0
  | bound + 1, numerator, denominator =>
      if denominator ≤ numerator * 10 then 0
      else leadingZeros bound (numerator * 10) denominator + 1

/-- The place of the decimal point of a positive fraction: it is at least `10 ^ (point - 1)` and below
`10 ^ point`. -/
def decimalPoint (numerator denominator : Nat) : Int :=
  if denominator ≤ numerator then (Nat.toDigits 10 (numerator / denominator)).length
  else -(leadingZeros 400 numerator denominator : Int)

/-- A decimal of the given number of digits that lies in the interval, the nearest one if both
neighbours of the value do. -/
def decimalOfLength? (tie : TieRule) (interval : RoundingInterval) (length : Nat) : Option Decimal :=
  let unit := 4 * stepsInOne
  let exponent : Int := decimalPoint interval.value unit - length
  let factor := Nat.pow 10 (-exponent).toNat
  let grid := unit * Nat.pow 10 exponent.toNat
  let below := interval.value * factor / grid
  let remainder := interval.value * factor % grid
  let takeBelow : Option Decimal := some ⟨below, exponent⟩
  let takeAbove : Option Decimal := some ((⟨below + 1, exponent⟩ : Decimal).stripZeros length)
  match interval.holds factor (below * grid), interval.holds factor ((below + 1) * grid) with
  | true, false => takeBelow
  | false, true => takeAbove
  | false, false => none
  | true, true =>
      if 2 * remainder < grid then takeBelow
      else if grid < 2 * remainder then takeAbove
      else match tie with
        | .up => takeAbove
        | .toEven => if below % 2 = 0 then takeBelow else takeAbove

/-- The shortest decimal of a positive count of steps. Seventeen digits always suffice. -/
def shortest (tie : TieRule) (steps : Nat) : Decimal :=
  let interval := roundingInterval steps
  ((List.range 17).findSome? fun shorter => decimalOfLength? tie interval (shorter + 1)).getD ⟨0, 0⟩

end Binary64

end SchemaForge
