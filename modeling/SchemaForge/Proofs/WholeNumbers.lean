import Mathlib.Algebra.Group.Nat.Defs
import Mathlib.Data.List.TakeWhile
import SchemaForge.Number.Numeral

/-! Whole numbers below `2 ^ 53` are doubles, so their digits are read without rounding. -/
namespace SchemaForge

namespace Binary64

/-- A division without a remainder needs no rounding. -/
theorem roundQuotient_of_dvd {numerator denominator : Nat} (hPositive : 0 < denominator)
    (hDivides : denominator ∣ numerator) :
    roundQuotient numerator denominator = numerator / denominator := by
  have hRemainder : numerator % denominator = 0 := Nat.mod_eq_zero_of_dvd hDivides
  simp [roundQuotient, hRemainder, hPositive]

theorem lostBits_le {steps low : Nat} (hBound : steps < 1 <<< (53 + low)) : lostBits steps ≤ low := by
  by_cases hZero : steps = 0
  · simp [lostBits, hZero]
  · rw [Nat.one_shiftLeft] at hBound
    have hLog : steps.log2 < 53 + low := (Nat.log2_lt hZero).mpr hBound
    simp only [lostBits]
    omega

/-- A count of steps with at most 53 significant bits is kept. -/
theorem roundSteps_of_significant {steps low : Nat} (hBound : steps < 1 <<< (53 + low))
    (hDivides : 1 <<< low ∣ steps) : roundSteps steps 1 = steps := by
  have hGrain : 1 <<< lostBits steps ∣ steps := by
    refine Nat.dvd_trans ?_ hDivides
    rw [Nat.one_shiftLeft, Nat.one_shiftLeft]
    exact Nat.pow_dvd_pow 2 (lostBits_le hBound)
  have hPositive : 0 < 1 <<< lostBits steps := by
    rw [Nat.one_shiftLeft]
    exact Nat.two_pow_pos _
  simp only [roundSteps, Nat.div_one, Nat.one_mul]
  rw [roundQuotient_of_dvd hPositive hGrain, Nat.div_mul_cancel hGrain]

/-- A whole number below the bound stays below it when both are scaled. -/
theorem scaled_lt {n : Nat} (low high : Nat) (hHigh : 53 + low ≤ high) (hBound : n < 2 ^ 53) :
    n * 1 <<< low < 1 <<< high := by
  rw [Nat.one_shiftLeft, Nat.one_shiftLeft]
  refine Nat.lt_of_lt_of_le ?_ (Nat.pow_le_pow_right (by decide) hHigh)
  rw [Nat.pow_add]
  exact Nat.mul_lt_mul_of_pos_right hBound (Nat.two_pow_pos low)

/-- A whole number in this range is represented exactly. -/
theorem ofFraction_whole {n : Nat} (negative : Bool) (hBound : n < 2 ^ 53) :
    ofFraction negative n 1 = .finite negative (n * stepsInOne) := by
  have hRange : n * stepsInOne < stepsOutOfRange := scaled_lt 1074 2098 (by decide) hBound
  have hExact : roundSteps (n * stepsInOne) 1 = n * stepsInOne :=
    roundSteps_of_significant (scaled_lt 1074 _ (Nat.le_refl _) hBound) (Nat.dvd_mul_left _ _)
  rw [ofFraction, hExact, ofSteps, if_pos hRange]

end Binary64

/-- Digits are read back as the number they were written for. -/
theorem digitsValue_toDigits (n : Nat) : digitsValue (Nat.toDigits 10 n) = n :=
  Nat.ofDigitChars_toDigits (by decide) (by decide)

theorem all_isDigit_toDigits (n : Nat) : (Nat.toDigits 10 n).all Char.isDigit = true :=
  List.all_eq_true.mpr fun _ hMem => Nat.isDigit_of_mem_toDigits (by decide) (by decide) hMem

namespace Binary64

theorem ofDecimal_toDigits {n : Nat} (negative : Bool) (hBound : n < 2 ^ 53) :
    ofDecimal negative (Nat.toDigits 10 n) 0 = .finite negative (n * stepsInOne) := by
  have hLength : ¬ ((Nat.toDigits 10 n).length : Int) + 0 < -400 := by omega
  rw [ofDecimal, digitsValue_toDigits, if_neg hLength]
  by_cases hZero : n = 0
  · simp [hZero]
  · simpa [hZero] using ofFraction_whole negative hBound

/-- The digits of a whole number below `2 ^ 53` are read as that number. -/
theorem ofUnsignedText?_toDigits {n : Nat} (negative : Bool) (hBound : n < 2 ^ 53) :
    ofUnsignedText? negative (Nat.toDigits 10 n) = some (.finite negative (n * stepsInOne)) := by
  have hWhole : (Nat.toDigits 10 n).takeWhile Char.isDigit = Nat.toDigits 10 n :=
    List.takeWhile_eq_self_iff.mpr (List.all_eq_true.mp (all_isDigit_toDigits n))
  have hRest : (Nat.toDigits 10 n).dropWhile Char.isDigit = [] :=
    List.dropWhile_eq_nil_iff.mpr (List.all_eq_true.mp (all_isDigit_toDigits n))
  have hSome : (Nat.toDigits 10 n).isEmpty = false := by
    simp [Nat.toDigits_ne_nil]
  simp [ofUnsignedText?, hWhole, hRest, hSome, exponentPart?, ofDecimal_toDigits negative hBound]

end Binary64

end SchemaForge
