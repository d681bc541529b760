import SchemaForge.Json.Basic
import SchemaForge.Number.Numeral

/-! Reading the numbers of a JSON document. The digits are gathered into a significand of at most 64
bits. A number with a fraction or an exponent, or with more digits than fit, becomes a double: the
significand is rounded to a double and scaled by one power of ten, each step rounding on its own. A
number beyond the range of doubles is refused. -/
namespace SchemaForge.JsonNumber

def maxSignificand : Nat := 1 <<< 64 - 1

/-- The greatest exponent of ten that is read digit by digit. -/
def maxExponent : Nat := 1 <<< 31 - 1

/-- Digits gathered so far, and the number of digits that were left out or came after the point. -/
structure Gathered where
  significand : Nat
  exponent : Int

/-- Another digit fits into the significand. -/
def Gathered.fits (gathered : Gathered) (digit : Char) : Bool :=
  decide (10 * gathered.significand + digitValue digit ≤ maxSignificand)

def Gathered.push (gathered : Gathered) (digit : Char) : Gathered :=
  { gathered with significand := 10 * gathered.significand + digitValue digit }

/-- Gathers the digits before the point. From the first digit that does not fit, digits only count in
the exponent. -/
def gatherWhole (gathered : Gathered) : List Char → Gathered
  | [] => gathered
  | digit :: rest =>
      if gathered.fits digit then gatherWhole (gathered.push digit) rest
      else { gathered with exponent := gathered.exponent + (rest.length + 1) }

/-- Gathers the digits after the point up to the first one that does not fit. -/
def gatherFraction (gathered : Gathered) : List Char → Gathered
  | [] => gathered
  | digit :: rest =>
      if gathered.fits digit then
        let next := gathered.push digit
        gatherFraction { next with exponent := next.exponent - 1 } rest
      else gathered

def powerOfTen (exponent : Nat) : Binary64 :=
  Binary64.ofNat (Nat.pow 10 exponent)

/-- The significand scaled by a power of ten. A power below `10 ^ (-308)` is reached in several
divisions, whose number the first argument bounds. -/
def scale : Nat → Binary64 → Int → Option Binary64
  | 0, value, _ => some value
  | bound + 1, value, exponent =>
      if exponent.natAbs ≤ 308 then
        if 0 ≤ exponent then
          match value.scaleUp (powerOfTen exponent.natAbs) with
          | .infinite _ => none
          | product => some product
        else some (value.scaleDown (powerOfTen exponent.natAbs))
      else if value.sameValue (.finite false 0) then some value
      else if 0 ≤ exponent then none
      else scale bound (value.scaleDown (powerOfTen 308)) (exponent + 308)

/-- The double of the gathered digits times a further power of ten. -/
def Gathered.toReal? (gathered : Gathered) (negative : Bool) (exponent : Int) : Option JsonNumber :=
  (scale 8 (Binary64.ofNat gathered.significand) (gathered.exponent + exponent)).map fun value =>
    .real (if negative then value.neg else value)

/-- The number of the parts of a number text: sign, digits before the point, digits after it if there
is one, and sign and digits of the exponent if there is one. -/
def ofParts? (negative : Bool) (whole : List Char) (fraction : Option (List Char))
    (exponent : Option (Bool × List Char)) : Option JsonNumber :=
  let gathered := gatherWhole ⟨0, 0⟩ whole
  let withFraction := gatherFraction gathered (fraction.getD [])
  match fraction, exponent with
  | none, none =>
      if gathered.exponent ≠ 0 then gathered.toReal? negative 0
      else if !negative then some (.integer gathered.significand)
      else if gathered.significand = 0 ∨ 1 <<< 63 < gathered.significand then
        some (.real (Binary64.ofNat gathered.significand).neg)
      else some (.integer (-(gathered.significand : Int)))
  | _, none => withFraction.toReal? negative 0
  | _, some (negativeExponent, digits) =>
      let value := digitsValue digits
      if value ≤ maxExponent then
        withFraction.toReal? negative (if negativeExponent then -(value : Int) else value)
      else if withFraction.significand ≠ 0 ∧ !negativeExponent then none
      else some (.real (.finite negative 0))

end SchemaForge.JsonNumber
