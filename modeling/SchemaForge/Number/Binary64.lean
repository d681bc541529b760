/-! Double-precision numbers with exact arithmetic. Every finite double is a whole number of steps of
`2 ^ (-1074)`, so rounding, comparing and printing are computations on natural numbers. -/
namespace SchemaForge

/-- A double-precision number. A finite one is `steps * 2 ^ (-1074)` with a sign, which also zero has. -/
inductive Binary64 where
  | finite (negative : Bool) (steps : Nat)
  | infinite (negative : Bool)
  | nan
deriving DecidableEq

namespace Binary64

def stepsInOne : Nat := 1 <<< 1074

/-- The least number of steps that is out of range, `2 ^ 1024`. -/
def stepsOutOfRange : Nat := 1 <<< 2098

/-- The quotient rounded to the nearest whole number, a half to the even neighbour. -/
def roundQuotient (numerator denominator : Nat) : Nat :=
  let quotient := numerator / denominator
  let remainder := numerator % denominator
  if 2 * remainder < denominator then quotient
  else if denominator < 2 * remainder then quotient + 1
  else quotient + quotient % 2

/-- The number of low bits that a count of steps loses, since only 53 significant bits are kept. -/
def lostBits (steps : Nat) : Nat :=
  steps.log2 - 52

/-- The quotient rounded to a count of steps with at most 53 significant bits. -/
def roundSteps (numerator denominator : Nat) : Nat :=
  let grain := 1 <<< lostBits (numerator / denominator)
  roundQuotient numerator (denominator * grain) * grain

/-- The number that a rounded count of steps stands for. Out of range it is infinite. -/
def ofSteps (negative : Bool) (steps : Nat) : Binary64 :=
  if steps < stepsOutOfRange then .finite negative steps else .infinite negative

/-- The number nearest to a fraction, which is taken with the given sign. -/
def ofFraction (negative : Bool) (numerator denominator : Nat) : Binary64 :=
  ofSteps negative (roundSteps (numerator * stepsInOne) denominator)

def ofNat (n : Nat) : Binary64 :=
  ofFraction false n 1

def ofInt (n : Int) : Binary64 :=
  ofFraction (decide (n < 0)) n.natAbs 1

def neg : Binary64 → Binary64
  | .finite negative steps => .finite (!negative) steps
  | .infinite negative => .infinite (!negative)
  | .nan => .nan

/-- The rounded product of two finite numbers, not a number otherwise. -/
def scaleUp : Binary64 → Binary64 → Binary64
  | .finite n a, .finite m b => ofSteps (n != m) (roundSteps (a * b) stepsInOne)
  | _, _ => .nan

/-- The rounded quotient of two finite numbers, not a number otherwise. -/
def scaleDown : Binary64 → Binary64 → Binary64
  | .finite n a, .finite m b => ofSteps (n != m) (roundSteps (a * stepsInOne) b)
  | _, _ => .nan

/-- The two numbers have the same value: both zeros are equal, and what is not a number equals nothing. -/
def sameValue : Binary64 → Binary64 → Bool
  | .finite n a, .finite m b => a == b && (n == m || a == 0)
  | .infinite n, .infinite m => n == m
  | _, _ => false

/-- The magnitude of a finite number without a fractional part. -/
def wholeMagnitude? : Binary64 → Option Nat
  | .finite _ steps => if steps % stepsInOne = 0 then some (steps / stepsInOne) else none
  | _ => none

end Binary64

end SchemaForge
