import ScopeLint.Proofs.Number.Nearest

/-!
Bounds of what a ratio rounds to. A ratio up to a power of two does not round beyond that power.
A ratio is out of range from the middle between the greatest finite value and the power of two
above it, because that power has the even significand of the two.
-/

set_option autoImplicit false

namespace ScopeLint

/-- A quotient rounds to less than an even bound if it is less than one half below it. -/
theorem roundedQuotient_lt_iff {dividend divisor bound : Nat} (positive : 0 < divisor)
    (even : bound % 2 = 0) :
    roundedQuotient dividend divisor < bound ↔
      2 * dividend + divisor < 2 * (divisor * bound) := by
  have split := Nat.div_add_mod dividend divisor
  have small := Nat.mod_lt dividend positive
  unfold roundedQuotient
  generalize dividend / divisor = quotient at split ⊢
  generalize dividend % divisor = remainder at split small ⊢
  subst split
  have atMost (steps : Nat) (less : quotient + steps ≤ bound) :
      divisor * quotient + divisor * steps ≤ divisor * bound := by
    rw [← Nat.mul_add]
    exact Nat.mul_le_mul_left divisor less
  have atLeast (steps : Nat) (more : bound ≤ quotient + steps) :
      divisor * bound ≤ divisor * quotient + divisor * steps := by
    rw [← Nat.mul_add]
    exact Nat.mul_le_mul_left divisor more
  -- With the remainder and the parity of the bound, steps of whole divisors decide.
  rcases Nat.lt_trichotomy (2 * remainder) divisor with less | tie | greater
  · simp only [Nat.compare_eq_lt.mpr less]
    have above := atMost 1
    have under := atLeast 0
    omega
  · simp only [Nat.compare_eq_eq.mpr tie]
    have above := atMost 2
    have under := atLeast 1
    omega
  · simp only [Nat.compare_eq_gt.mpr greater]
    have above := atMost 2
    have under := atLeast 1
    omega

namespace Binary64

theorem twoTo_add (first second : Nat) : twoTo (first + second) = twoTo first * twoTo second :=
  Nat.pow_add 2 first second

theorem twoTo_le {first second : Nat} (less : first ≤ second) : twoTo first ≤ twoTo second :=
  Nat.pow_le_pow_right (by decide) less

theorem tenTo_le {first second : Nat} (less : first ≤ second) : tenTo first ≤ tenTo second :=
  Nat.pow_le_pow_right (by decide) less

/-- Rounding sees a ratio and not the two numbers. -/
theorem nearestMagnitude_mul_right {dividend divisor factor : Nat} (dividendPos : 0 < dividend)
    (divisorPos : 0 < divisor) (positive : 0 < factor) :
    nearestMagnitude (dividend * factor) (divisor * factor) =
      nearestMagnitude dividend divisor := by
  simp only [nearestMagnitude, binaryOrder_mul_right dividendPos divisorPos positive]
  rw [Nat.mul_right_comm dividend, Nat.mul_right_comm divisor,
    roundedQuotient_mul_right _ _ positive]

section Bounds

variable {dividend divisor : Nat}

/-- The significand that is rounded has as many places as the ratio has above its scale. -/
theorem roundedOnScale_le (divisorPos : 0 < divisor) (scale : Int) (places : Nat)
    (atMost : (dividend / divisor : ℚ) ≤ 2 ^ (scale + places)) :
    roundedQuotient (dividend * twoTo (-scale).toNat) (divisor * twoTo scale.toNat) ≤
      twoTo places := by
  have positive : 0 < divisor * twoTo scale.toNat := Nat.mul_pos divisorPos (twoTo_pos _)
  have denominator : (0 : ℚ) < (divisor * twoTo scale.toNat : Nat) := by exact_mod_cast positive
  refine roundedQuotient_le positive ?_
  rw [zpow_add₀ (by norm_num : (2 : ℚ) ≠ 0), mul_comm, ← div_le_iff₀ (two_zpow_pos scale),
    ratio_on_scale dividend divisorPos, div_le_iff₀ denominator, zpow_natCast] at atMost
  rw [Nat.mul_comm (divisor * _)]
  exact_mod_cast atMost

theorem le_roundedOnScale (divisorPos : 0 < divisor) (scale : Int) (places : Nat)
    (atLeast : (2 : ℚ) ^ (scale + places) ≤ dividend / divisor) :
    twoTo places ≤
      roundedQuotient (dividend * twoTo (-scale).toNat) (divisor * twoTo scale.toNat) := by
  have positive : 0 < divisor * twoTo scale.toNat := Nat.mul_pos divisorPos (twoTo_pos _)
  have denominator : (0 : ℚ) < (divisor * twoTo scale.toNat : Nat) := by exact_mod_cast positive
  refine le_roundedQuotient positive ?_
  rw [zpow_add₀ (by norm_num : (2 : ℚ) ≠ 0), mul_comm, ← le_div_iff₀ (two_zpow_pos scale),
    ratio_on_scale dividend divisorPos, le_div_iff₀ denominator, zpow_natCast] at atLeast
  rw [Nat.mul_comm (divisor * _)]
  exact_mod_cast atLeast

/-- A ratio up to a power of two does not round beyond that power. -/
theorem nearestMagnitude_le {exponent : Nat} (dividendPos : 0 < dividend)
    (divisorPos : 0 < divisor) (atMost : dividend ≤ divisor * twoTo exponent) :
    nearestMagnitude dividend divisor ≤ (exponent + 1023) * twoTo 52 := by
  have positive : (0 : ℚ) < divisor := by exact_mod_cast divisorPos
  have ratio : (dividend / divisor : ℚ) ≤ 2 ^ (exponent : Int) := by
    rw [div_le_iff₀ positive, zpow_natCast, mul_comm]
    exact_mod_cast atMost
  have order : ¬binaryOrder dividend divisor + 1 ≤ binaryOrder dividend divisor := by omega
  rw [le_binaryOrder_iff dividendPos divisorPos, not_le] at order
  have orderLe : binaryOrder dividend divisor ≤ exponent := by
    have low := (le_binaryOrder_iff dividendPos divisorPos _).mp (Int.le_refl _)
    exact (zpow_le_zpow_iff_right₀ (by norm_num)).mp (low.trans ratio)
  simp only [nearestMagnitude]
  generalize binaryOrder dividend divisor = found at order orderLe ⊢
  rcases orderLe.eq_or_lt with isTop | less
  · have scale : max (found - 52) (-1074) = (exponent : Int) - 52 := by omega
    have same : (exponent : Int) - 52 + (52 : Nat) = exponent := by omega
    rw [scale]
    have rounded := roundedOnScale_le divisorPos (exponent - 52) 52 (by rwa [same])
    rw [twoTo_fiftyTwo] at rounded ⊢
    omega
  · have rounded := roundedOnScale_le divisorPos (max (found - 52) (-1074)) 53
      (order.le.trans (zpow_le_zpow_right₀ (by norm_num) (by omega)))
    rw [twoTo_fiftyThree] at rounded
    rw [twoTo_fiftyTwo]
    omega

/-- A ratio from a power of two on does not round below that power. -/
theorem le_nearestMagnitude {exponent : Nat} (dividendPos : 0 < dividend)
    (divisorPos : 0 < divisor) (atLeast : divisor * twoTo exponent ≤ dividend) :
    (exponent + 1023) * twoTo 52 ≤ nearestMagnitude dividend divisor := by
  have orderGe := (natCast_le_binaryOrder_iff dividendPos divisorPos exponent).mpr atLeast
  have ratio := (le_binaryOrder_iff dividendPos divisorPos _).mp (Int.le_refl _)
  simp only [nearestMagnitude]
  generalize binaryOrder dividend divisor = order at orderGe ratio ⊢
  have same : max (order - 52) (-1074) + (52 : Nat) = order := by omega
  have place : exponent + 1022 ≤ (max (order - 52) (-1074) + 1074).toNat := by omega
  calc (exponent + 1022 + 1) * twoTo 52
      = (exponent + 1022) * twoTo 52 + twoTo 52 := Nat.succ_mul _ _
    _ ≤ _ := Nat.add_le_add (Nat.mul_le_mul_right _ place)
        (le_roundedOnScale divisorPos (max (order - 52) (-1074)) 52 (by rwa [same]))

end Bounds

/-! ### Out of range -/

/-- The middle between the greatest finite value and the power of two above it: half a unit
below `2 ^ 1024`, where the units are `2 ^ 971`. -/
def overflow : Nat :=
  (twoTo 54 - 1) * twoTo 970

theorem twoTo_fiftyFour : twoTo 54 = 18014398509481984 :=
  rfl

/-- A ratio is in range exactly below the bound. -/
theorem nearestMagnitude_lt_infinity_iff {dividend divisor : Nat} (dividendPos : 0 < dividend)
    (divisorPos : 0 < divisor) :
    nearestMagnitude dividend divisor < infinity ↔ dividend < divisor * overflow := by
  have decided := natCast_le_binaryOrder_iff dividendPos divisorPos
  -- The exponent of half a unit gets a name, because its power is too large to be computed.
  obtain ⟨low, isLow⟩ : ∃ low, low = 970 := ⟨970, rfl⟩
  have bound : divisor * overflow = 18014398509481983 * (divisor * twoTo low) := by
    rw [isLow, overflow, twoTo_fiftyFour, Nat.mul_left_comm]
  have powers (places : Nat) : divisor * twoTo (low + places) =
      twoTo places * (divisor * twoTo low) := by
    rw [twoTo_add, Nat.mul_comm (twoTo low), Nat.mul_left_comm]
  rw [bound, infinity_eq]
  rcases Int.lt_trichotomy (binaryOrder dividend divisor) (low + 53 : Nat) with less | isTop | more
  · have under : dividend < divisor * twoTo (low + 53) := by
      rw [← Nat.not_le, ← decided]
      omega
    have rounded := nearestMagnitude_le dividendPos divisorPos under.le
    rw [powers, twoTo_fiftyThree] at under
    rw [twoTo_fiftyTwo] at rounded
    omega
  · have place : (max ((low + 53 : Nat) - 52 : Int) (-1074) + 1074).toNat = low + 1075 := by omega
    have up : (-max ((low + 53 : Nat) - 52 : Int) (-1074)).toNat = 0 := by omega
    have down : (max ((low + 53 : Nat) - 52 : Int) (-1074)).toNat = low + 1 := by omega
    have one : twoTo 0 = 1 := rfl
    have two : twoTo 1 = 2 := rfl
    have rounded := @roundedQuotient_lt_iff dividend (divisor * twoTo (low + 1)) 9007199254740992
      (Nat.mul_pos divisorPos (twoTo_pos _)) (by decide)
    simp only [nearestMagnitude, isTop, place, up, down, one, Nat.mul_one, twoTo_fiftyTwo]
    rw [powers, two] at rounded ⊢
    omega
  · have above : divisor * twoTo (low + 54) ≤ dividend := by
      rw [← decided]
      omega
    have rounded := le_nearestMagnitude dividendPos divisorPos above
    rw [powers, twoTo_fiftyFour] at above
    rw [twoTo_fiftyTwo] at rounded
    omega

end Binary64

end ScopeLint
