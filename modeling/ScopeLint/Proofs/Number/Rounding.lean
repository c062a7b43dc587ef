import Mathlib.Data.Rat.Floor
import Mathlib.Tactic.FieldSimp
import Mathlib.Tactic.Linarith
import Mathlib.Tactic.NormNum
import Mathlib.Tactic.Positivity
import ScopeLint.Number.Nearest

/-!
Rounding a positive ratio. The rounded quotient is the natural within one half of it, the
binary order is its logarithm rounded down, and both are said of rational numbers here.
-/

set_option autoImplicit false

namespace ScopeLint

/-- A power with an integer exponent as the ratio of naturals that the algorithms use. -/
theorem zpow_eq_ratio (base : Nat) (positive : 0 < base) (exponent : Int) :
    (base : ℚ) ^ exponent = (base ^ exponent.toNat : Nat) / (base ^ (-exponent).toNat : Nat) := by
  have nonzero : (base : ℚ) ≠ 0 := by positivity
  rcases exponent.eq_nat_or_neg with ⟨size, rfl | rfl⟩
  · have noDivisor : (-(size : Int)).toNat = 0 := by omega
    rw [noDivisor, Int.toNat_natCast, pow_zero, Nat.cast_one, div_one, zpow_natCast,
      Nat.cast_pow]
  · have noDividend : (-(size : Int)).toNat = 0 := by omega
    rw [noDividend, neg_neg, Int.toNat_natCast, pow_zero, Nat.cast_one, zpow_neg,
      zpow_natCast, Nat.cast_pow, one_div]

theorem two_zpow_eq (exponent : Int) :
    (2 : ℚ) ^ exponent = (twoTo exponent.toNat : ℚ) / (twoTo (-exponent).toNat : ℚ) := by
  have ratio := zpow_eq_ratio 2 (by decide) exponent
  rw [Nat.cast_ofNat] at ratio
  exact ratio

theorem ten_zpow_eq (exponent : Int) :
    (10 : ℚ) ^ exponent = (tenTo exponent.toNat : ℚ) / (tenTo (-exponent).toNat : ℚ) := by
  have ratio := zpow_eq_ratio 10 (by decide) exponent
  rw [Nat.cast_ofNat] at ratio
  exact ratio

theorem twoTo_pos (exponent : Nat) : 0 < twoTo exponent :=
  Nat.pow_pos (by decide)

theorem tenTo_pos (exponent : Nat) : 0 < tenTo exponent :=
  Nat.pow_pos (by decide)

theorem two_zpow_pos (exponent : Int) : (0 : ℚ) < 2 ^ exponent :=
  zpow_pos (by norm_num) exponent

theorem ten_zpow_pos (exponent : Int) : (0 : ℚ) < 10 ^ exponent :=
  zpow_pos (by norm_num) exponent

/-! ### The rounded quotient -/

/-- A natural within one half of a quotient is what it rounds to, if the distance is less
than one half or the natural is even. -/
theorem roundedQuotient_eq_of_mul {dividend divisor rounded : Nat} (positive : 0 < divisor)
    (above : 2 * rounded * divisor ≤ 2 * dividend + divisor)
    (below : 2 * dividend ≤ (2 * rounded + 1) * divisor)
    (evenAtTie : rounded % 2 = 0 ∨
      2 * rounded * divisor < 2 * dividend + divisor ∧
        2 * dividend < (2 * rounded + 1) * divisor) :
    roundedQuotient dividend divisor = rounded := by
  have split := Nat.div_add_mod dividend divisor
  have small := Nat.mod_lt dividend positive
  unfold roundedQuotient
  generalize dividend / divisor = quotient at split ⊢
  generalize dividend % divisor = remainder at split small ⊢
  subst split
  -- The natural is the quotient itself or the one above it.
  have atLeast : quotient ≤ rounded := by
    by_contra less
    have : (2 * rounded + 2) * divisor ≤ 2 * (divisor * quotient) := by nlinarith
    nlinarith
  have atMost : rounded ≤ quotient + 1 := by
    by_contra more
    have : 2 * (divisor * (quotient + 2)) ≤ 2 * rounded * divisor := by nlinarith
    nlinarith
  have cases : rounded = quotient ∨ rounded = quotient + 1 := by omega
  rcases cases with rfl | rfl
  · have half : 2 * remainder ≤ divisor := by nlinarith
    have strict : rounded % 2 = 0 ∨ 2 * remainder < divisor := by
      rcases evenAtTie with even | ⟨_, less⟩
      · exact .inl even
      · exact .inr (by nlinarith)
    rcases Nat.lt_or_eq_of_le half with less | tie
    · simp only [Nat.compare_eq_lt.mpr less]
    · simp only [Nat.compare_eq_eq.mpr tie]
      omega
  · have half : divisor ≤ 2 * remainder := by nlinarith
    have strict : (quotient + 1) % 2 = 0 ∨ divisor < 2 * remainder := by
      rcases evenAtTie with even | ⟨less, _⟩
      · exact .inl even
      · exact .inr (by nlinarith)
    rcases Nat.lt_or_eq_of_le half with less | tie
    · simp only [Nat.compare_eq_gt.mpr less]
    · simp only [Nat.compare_eq_eq.mpr tie.symm]
      omega

theorem roundedQuotient_eq {dividend divisor rounded : Nat} (positive : 0 < divisor)
    (above : (rounded : ℚ) - 1 / 2 ≤ dividend / divisor)
    (below : (dividend / divisor : ℚ) ≤ rounded + 1 / 2)
    (evenAtTie : rounded % 2 = 0 ∨
      (rounded : ℚ) - 1 / 2 < dividend / divisor ∧
        (dividend / divisor : ℚ) < rounded + 1 / 2) :
    roundedQuotient dividend divisor = rounded := by
  have scale : (0 : ℚ) < divisor := by exact_mod_cast positive
  refine roundedQuotient_eq_of_mul positive ?_ ?_ ?_
  · rw [le_div_iff₀ scale] at above
    have : (2 * rounded * divisor : ℚ) ≤ 2 * dividend + divisor := by linarith
    exact_mod_cast this
  · rw [div_le_iff₀ scale] at below
    have : (2 * dividend : ℚ) ≤ (2 * rounded + 1) * divisor := by linarith
    exact_mod_cast this
  · refine evenAtTie.imp_right fun ⟨strictAbove, strictBelow⟩ => ⟨?_, ?_⟩
    · rw [lt_div_iff₀ scale] at strictAbove
      have : (2 * rounded * divisor : ℚ) < 2 * dividend + divisor := by linarith
      exact_mod_cast this
    · rw [div_lt_iff₀ scale] at strictBelow
      have : (2 * dividend : ℚ) < (2 * rounded + 1) * divisor := by linarith
      exact_mod_cast this

/-- A ratio up to a natural does not round to more than it. -/
theorem roundedQuotient_le {dividend divisor bound : Nat} (positive : 0 < divisor)
    (atMost : dividend ≤ divisor * bound) : roundedQuotient dividend divisor ≤ bound := by
  have split := Nat.div_add_mod dividend divisor
  have small := Nat.mod_lt dividend positive
  simp only [roundedQuotient]
  generalize dividend / divisor = quotient at split ⊢
  generalize dividend % divisor = remainder at split small ⊢
  subst split
  rcases Nat.lt_or_ge quotient bound with less | more
  · split <;> omega
  · have covered : divisor * bound ≤ divisor * quotient := Nat.mul_le_mul_left divisor more
    have exact : remainder = 0 := by omega
    have same : divisor * quotient ≤ divisor * bound := by omega
    simp only [exact, Nat.mul_zero, Nat.compare_eq_lt.mpr positive]
    exact Nat.le_of_mul_le_mul_left same positive

/-- A ratio from a natural on does not round to less than it. -/
theorem le_roundedQuotient {dividend divisor bound : Nat} (positive : 0 < divisor)
    (atLeast : divisor * bound ≤ dividend) : bound ≤ roundedQuotient dividend divisor := by
  have quotient : bound ≤ dividend / divisor := by
    rw [Nat.le_div_iff_mul_le positive, Nat.mul_comm]
    exact atLeast
  simp only [roundedQuotient]
  split <;> omega

theorem roundedQuotient_mono {first second divisor : Nat} (positive : 0 < divisor)
    (less : first ≤ second) : roundedQuotient first divisor ≤ roundedQuotient second divisor := by
  have firstSplit := Nat.div_add_mod first divisor
  have secondSplit := Nat.div_add_mod second divisor
  rcases (Nat.div_le_div_right less : first / divisor ≤ second / divisor).eq_or_lt with
    same | smaller
  · have remainders : first % divisor ≤ second % divisor := by
      rw [same] at firstSplit
      omega
    simp only [roundedQuotient, same, Nat.compare_eq_ite_lt]
    split_ifs <;> simp only <;> omega
  · calc roundedQuotient first divisor
        ≤ first / divisor + 1 := by
          refine roundedQuotient_le positive ?_
          have bound := Nat.mod_lt first positive
          rw [Nat.mul_succ]
          omega
      _ ≤ second / divisor := smaller
      _ ≤ roundedQuotient second divisor := by
          refine le_roundedQuotient positive ?_
          omega

/-- Rounding sees a quotient and not the two numbers. -/
theorem roundedQuotient_mul_right (dividend divisor : Nat) {factor : Nat} (positive : 0 < factor) :
    roundedQuotient (dividend * factor) (divisor * factor) = roundedQuotient dividend divisor := by
  have compared : compare (2 * (dividend % divisor * factor)) (divisor * factor) =
      compare (2 * (dividend % divisor)) divisor := by
    rw [← Nat.mul_assoc]
    generalize 2 * (dividend % divisor) = double
    rcases Nat.lt_trichotomy double divisor with less | rfl | more
    · rw [Nat.compare_eq_lt.mpr less,
        Nat.compare_eq_lt.mpr (Nat.mul_lt_mul_of_pos_right less positive)]
    · rw [Nat.compare_eq_eq.mpr rfl, Nat.compare_eq_eq.mpr rfl]
    · rw [Nat.compare_eq_gt.mpr more,
        Nat.compare_eq_gt.mpr (Nat.mul_lt_mul_of_pos_right more positive)]
  simp only [roundedQuotient, Nat.mul_div_mul_right _ _ positive, Nat.mul_mod_mul_right, compared]

/-! ### The binary order -/

private theorem two_zpow_le_ratio_iff (dividend : Nat) {divisor : Nat} (positive : 0 < divisor)
    (exponent : Int) :
    (2 : ℚ) ^ exponent ≤ dividend / divisor ↔
      divisor * twoTo exponent.toNat ≤ dividend * twoTo (-exponent).toNat := by
  have scale : (0 : ℚ) < divisor := by exact_mod_cast positive
  have denominator : (0 : ℚ) < twoTo (-exponent).toNat := by exact_mod_cast twoTo_pos _
  rw [two_zpow_eq, div_le_div_iff₀ denominator scale, mul_comm (twoTo exponent.toNat : ℚ)]
  exact_mod_cast Iff.rfl

private theorem ratio_bounds_of_log {dividend divisor : Nat} (dividendPos : 0 < dividend)
    (divisorPos : 0 < divisor) :
    (2 : ℚ) ^ ((dividend.log2 : Int) - divisor.log2 - 1) ≤ dividend / divisor ∧
      (dividend / divisor : ℚ) < 2 ^ ((dividend.log2 : Int) - divisor.log2 + 1) := by
  have dividendLow : (2 : ℚ) ^ (dividend.log2 : Int) ≤ dividend := by
    rw [zpow_natCast]
    exact_mod_cast Nat.log2_self_le dividendPos.ne'
  have dividendHigh : (dividend : ℚ) < 2 ^ ((dividend.log2 : Int) + 1) := by
    have bound := @Nat.lt_log2_self dividend
    rw [← Int.natCast_succ, zpow_natCast]
    exact_mod_cast bound
  have divisorLow : (2 : ℚ) ^ (divisor.log2 : Int) ≤ divisor := by
    rw [zpow_natCast]
    exact_mod_cast Nat.log2_self_le divisorPos.ne'
  have divisorHigh : (divisor : ℚ) < 2 ^ ((divisor.log2 : Int) + 1) := by
    have bound := @Nat.lt_log2_self divisor
    rw [← Int.natCast_succ, zpow_natCast]
    exact_mod_cast bound
  have scale : (0 : ℚ) < divisor := by exact_mod_cast divisorPos
  have two : (2 : ℚ) ≠ 0 := by norm_num
  constructor
  · rw [le_div_iff₀ scale]
    calc (2 : ℚ) ^ ((dividend.log2 : Int) - divisor.log2 - 1) * divisor
        ≤ 2 ^ ((dividend.log2 : Int) - divisor.log2 - 1) * 2 ^ ((divisor.log2 : Int) + 1) :=
          mul_le_mul_of_nonneg_left divisorHigh.le (two_zpow_pos _).le
      _ = 2 ^ (dividend.log2 : Int) := by
          rw [← zpow_add₀ two]
          congr 1
          omega
      _ ≤ dividend := dividendLow
  · rw [div_lt_iff₀ scale]
    calc (dividend : ℚ)
        < 2 ^ ((dividend.log2 : Int) + 1) := dividendHigh
      _ = 2 ^ ((dividend.log2 : Int) - divisor.log2 + 1) * 2 ^ (divisor.log2 : Int) := by
          rw [← zpow_add₀ two]
          congr 1
          omega
      _ ≤ 2 ^ ((dividend.log2 : Int) - divisor.log2 + 1) * divisor :=
          mul_le_mul_of_nonneg_left divisorLow (two_zpow_pos _).le

/-- The binary order is the largest exponent whose power of two does not exceed the ratio. -/
theorem le_binaryOrder_iff {dividend divisor : Nat} (dividendPos : 0 < dividend)
    (divisorPos : 0 < divisor) (exponent : Int) :
    exponent ≤ binaryOrder dividend divisor ↔ (2 : ℚ) ^ exponent ≤ dividend / divisor := by
  rcases ratio_bounds_of_log dividendPos divisorPos with ⟨low, high⟩
  have guessed := two_zpow_le_ratio_iff dividend divisorPos
    ((dividend.log2 : Int) - divisor.log2)
  have monotone {left right : Int} (less : left ≤ right) : (2 : ℚ) ^ left ≤ 2 ^ right :=
    zpow_le_zpow_right₀ (by norm_num) less
  simp only [binaryOrder]
  split
  next tooLarge =>
      have above : (dividend / divisor : ℚ) < 2 ^ ((dividend.log2 : Int) - divisor.log2) := by
        rw [← not_le, guessed, not_le]
        exact tooLarge
      constructor
      · intro bound
        exact (monotone bound).trans low
      · intro bound
        by_contra more
        have : (dividend.log2 : Int) - divisor.log2 ≤ exponent := by omega
        exact absurd (above.trans_le (monotone this)) bound.not_gt
  next fits =>
      have under : (2 : ℚ) ^ ((dividend.log2 : Int) - divisor.log2) ≤ dividend / divisor := by
        rw [guessed]
        omega
      constructor
      · intro bound
        exact (monotone bound).trans under
      · intro bound
        by_contra more
        have : (dividend.log2 : Int) - divisor.log2 + 1 ≤ exponent := by omega
        exact absurd (high.trans_le (monotone this)) bound.not_gt

/-- For a power that is a natural the comparison is one of naturals. -/
theorem natCast_le_binaryOrder_iff {dividend divisor : Nat} (dividendPos : 0 < dividend)
    (divisorPos : 0 < divisor) (exponent : Nat) :
    (exponent : Int) ≤ binaryOrder dividend divisor ↔ divisor * twoTo exponent ≤ dividend := by
  have noScale : (-(exponent : Int)).toNat = 0 := by omega
  have one : twoTo 0 = 1 := rfl
  rw [le_binaryOrder_iff dividendPos divisorPos, two_zpow_le_ratio_iff dividend divisorPos,
    Int.toNat_natCast, noScale, one, Nat.mul_one]

theorem binaryOrder_mul_right {dividend divisor factor : Nat} (dividendPos : 0 < dividend)
    (divisorPos : 0 < divisor) (positive : 0 < factor) :
    binaryOrder (dividend * factor) (divisor * factor) = binaryOrder dividend divisor := by
  have nonzero : (factor : ℚ) ≠ 0 := by exact_mod_cast positive.ne'
  have sameRatio : ((dividend * factor : Nat) : ℚ) / (divisor * factor : Nat) =
      dividend / divisor := by
    rw [Nat.cast_mul, Nat.cast_mul, mul_div_mul_right _ _ nonzero]
  have compared (exponent : Int) : exponent ≤ binaryOrder (dividend * factor) (divisor * factor) ↔
      exponent ≤ binaryOrder dividend divisor := by
    rw [le_binaryOrder_iff (Nat.mul_pos dividendPos positive) (Nat.mul_pos divisorPos positive),
      le_binaryOrder_iff dividendPos divisorPos, sameRatio]
  exact Int.le_antisymm ((compared _).mp (Int.le_refl _)) ((compared _).mpr (Int.le_refl _))

end ScopeLint
