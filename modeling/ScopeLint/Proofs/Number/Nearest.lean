import Mathlib.Tactic.Ring
import ScopeLint.Number.Shortest
import ScopeLint.Proofs.Number.Rounding

/-!
Reading a decimal gives back a value whenever the decimal lies in the interval of the reals
that round to it, whatever digits and exponent it is written with.
-/

set_option autoImplicit false

namespace ScopeLint

namespace Binary64

/-! ### The fields of a value -/

theorem twoTo_fiftyTwo : twoTo 52 = 4503599627370496 :=
  rfl

theorem twoTo_fiftyThree : twoTo 53 = 9007199254740992 :=
  rfl

theorem twoTo_sixtyThree : twoTo 63 = 9223372036854775808 :=
  rfl

theorem infinity_eq : infinity = 9218868437227405312 :=
  rfl

theorem ofMagnitude_magnitude (value : Binary64) :
    ofMagnitude value.negative value.magnitude = value := by
  have range := value.bits.toNat_lt
  have whole : value.magnitude + (if value.negative = true then twoTo 63 else 0) =
      value.bits.toNat := by
    simp only [magnitude, negative, decide_eq_true_eq, twoTo_sixtyThree]
    split <;> omega
  rw [ofMagnitude, whole, UInt64.ofNat_toNat]

theorem magnitude_ofMagnitude {negative : Bool} {magnitude : Nat}
    (finite : magnitude < infinity) : (ofMagnitude negative magnitude).magnitude = magnitude := by
  rw [infinity_eq] at finite
  unfold ofMagnitude Binary64.magnitude
  rw [twoTo_sixtyThree, UInt64.toNat_ofNat']
  cases negative with
  | false =>
      simp only [Bool.false_eq_true, if_false]
      omega
  | true =>
      simp only [if_true]
      omega

theorem magnitude_eq (value : Binary64) :
    value.magnitude = (value.scale + 1074).toNat * twoTo 52 + value.significand := by
  simp only [scale, significand, twoTo_fiftyTwo]
  split <;> omega

theorem scale_ge (value : Binary64) : -1074 ≤ value.scale := by
  simp only [scale]
  omega

theorem scale_le {value : Binary64} (finite : value.isFinite = true) : value.scale ≤ 971 := by
  rw [isFinite, decide_eq_true_eq, infinity_eq] at finite
  simp only [scale, twoTo_fiftyTwo]
  omega

theorem significand_le (value : Binary64) : value.significand ≤ twoTo 53 - 1 := by
  simp only [significand, twoTo_fiftyTwo, twoTo_fiftyThree]
  split <;> omega

theorem significand_add_one_le (value : Binary64) :
    (value.significand : ℚ) + 1 ≤ 2 ^ (53 : Int) := by
  have bound := value.significand_le
  rw [twoTo_fiftyThree] at bound
  have : value.significand + 1 ≤ 2 ^ 53 := by omega
  exact_mod_cast this

theorem significand_pos {value : Binary64} (nonzero : value.isZero = false) :
    0 < value.significand := by
  rw [isZero, beq_eq_false_iff_ne] at nonzero
  simp only [significand, twoTo_fiftyTwo]
  split <;> omega

/-- Above the least scale the leading bit is set, and the value is above the least normal one. -/
theorem leading_of_scale {value : Binary64} (above : -1074 < value.scale) :
    twoTo 52 ≤ value.significand ∧ twoTo 53 ≤ value.magnitude := by
  simp only [scale, twoTo_fiftyTwo] at above
  simp only [significand, twoTo_fiftyTwo, twoTo_fiftyThree]
  split <;> omega

/-- The fields of a normal value stand side by side in its magnitude. -/
theorem fields_of_magnitude {value : Binary64} {place rest : Nat} (normal : 0 < place)
    (small : rest < twoTo 52) (isMagnitude : value.magnitude = twoTo 52 * place + rest) :
    value.significand = rest + twoTo 52 ∧ value.scale = place - 1075 := by
  have least : twoTo 52 ≤ value.magnitude := by
    rw [isMagnitude]
    exact Nat.le_add_right_of_le (Nat.le_mul_of_pos_right _ normal)
  constructor
  · rw [significand, if_neg (Nat.not_lt.mpr least), isMagnitude, Nat.mul_add_mod,
      Nat.mod_eq_of_lt small]
  · rw [scale, isMagnitude, Nat.mul_add_div (by decide), Nat.div_eq_of_lt small, Nat.add_zero,
      Nat.max_eq_left normal]

/-! ### The reals that round to a value -/

def Interval.Holds (bounds : Interval) (point : ℚ) : Prop :=
  if bounds.closed = true then bounds.lower ≤ point ∧ point ≤ bounds.upper
  else bounds.lower < point ∧ point < bounds.upper

theorem Interval.contains_iff (bounds : Interval) (point : Nat) {unit : Nat}
    (positive : 0 < unit) :
    bounds.contains point unit = true ↔ bounds.Holds ((point : ℚ) / unit) := by
  have scale : (0 : ℚ) < unit := by exact_mod_cast positive
  unfold contains Holds
  rw [le_div_iff₀ scale, div_le_iff₀ scale, lt_div_iff₀ scale, div_lt_iff₀ scale]
  split
  · rw [Bool.and_eq_true, decide_eq_true_eq, decide_eq_true_eq]
    exact_mod_cast Iff.rfl
  · rw [Bool.and_eq_true, decide_eq_true_eq, decide_eq_true_eq]
    exact_mod_cast Iff.rfl

/-- The ends included, so that a bound need not know whether the interval is closed. -/
theorem Interval.Holds.bounds {bounds : Interval} {point : ℚ} (holds : bounds.Holds point) :
    bounds.lower ≤ point ∧ point ≤ bounds.upper := by
  unfold Holds at holds
  split at holds
  · exact holds
  · exact ⟨holds.1.le, holds.2.le⟩

/-- A rational that a positive value is the nearest to. -/
def RoundsFrom (value : Binary64) (point : ℚ) : Prop :=
  value.interval.Holds (point / 2 ^ (value.scale - 2))

theorem quarters_eq (point : ℚ) (scale : Int) :
    point / 2 ^ (scale - 2) = 4 * (point / 2 ^ scale) := by
  rw [zpow_sub₀ (by norm_num : (2 : ℚ) ≠ 0)]
  have nonzero := (two_zpow_pos scale).ne'
  field_simp
  norm_num

/-- Counted in units of the last place the distance is at most one half, and less if the
significand is odd. -/
theorem RoundsFrom.distance {value : Binary64} {point : ℚ} (nonzero : value.isZero = false)
    (rounds : value.RoundsFrom point) :
    (value.significand : ℚ) - 1 / 2 ≤ point / 2 ^ value.scale ∧
      point / 2 ^ value.scale ≤ value.significand + 1 / 2 ∧
      (value.significand % 2 = 0 ∨
        (value.significand : ℚ) - 1 / 2 < point / 2 ^ value.scale ∧
          point / 2 ^ value.scale < value.significand + 1 / 2) := by
  have positive := significand_pos nonzero
  unfold RoundsFrom at rounds
  rw [quarters_eq] at rounds
  generalize point / 2 ^ value.scale = place at rounds ⊢
  have lower : (4 * value.significand - 2 : ℚ) ≤ value.interval.lower := by
    have less : 4 * value.significand ≤ value.interval.lower + 2 := by
      simp only [interval]
      split <;> omega
    have : (4 * value.significand : ℚ) ≤ value.interval.lower + 2 := by exact_mod_cast less
    linarith
  have upper : (value.interval.upper : ℚ) = 4 * value.significand + 2 := by
    simp only [interval, Nat.cast_add, Nat.cast_mul, Nat.cast_ofNat]
  rcases rounds.bounds with ⟨above, below⟩
  refine ⟨by linarith, by linarith, ?_⟩
  by_cases even : value.significand % 2 = 0
  · exact .inl even
  · have opened : value.interval.closed = false := beq_eq_false_iff_ne.mpr even
    simp only [Interval.Holds, opened, Bool.false_eq_true, if_false] at rounds
    exact .inr ⟨by linarith [rounds.1], by linarith [rounds.2]⟩

/-- Below a power of two the distance is at most one quarter. -/
theorem RoundsFrom.narrow {value : Binary64} {point : ℚ} (rounds : value.RoundsFrom point)
    (power : value.significand = twoTo 52) (normal : twoTo 53 ≤ value.magnitude) :
    (value.significand : ℚ) - 1 / 4 ≤ point / 2 ^ value.scale := by
  unfold RoundsFrom at rounds
  rw [quarters_eq] at rounds
  have lower : value.interval.lower = 4 * value.significand - 1 := by
    simp only [interval, power, normal, beq_self_eq_true, decide_true, Bool.and_self, if_true]
  have positive : 1 ≤ 4 * value.significand := by
    rw [power, twoTo_fiftyTwo]
    omega
  have bound := rounds.bounds.1
  rw [lower, Nat.cast_sub positive] at bound
  push_cast at bound
  linarith

/-! ### Rounding to a magnitude -/

/-- A ratio in units of a scale is the ratio of the naturals that are rounded. -/
theorem ratio_on_scale (dividend : Nat) {divisor : Nat} (divisorPos : 0 < divisor) (scale : Int) :
    (dividend / divisor / 2 ^ scale : ℚ) =
      (dividend * twoTo (-scale).toNat : Nat) / (divisor * twoTo scale.toNat : Nat) := by
  have up : (twoTo (-scale).toNat : ℚ) ≠ 0 := by exact_mod_cast (twoTo_pos _).ne'
  have down : (twoTo scale.toNat : ℚ) ≠ 0 := by exact_mod_cast (twoTo_pos _).ne'
  have divisorNe : (divisor : ℚ) ≠ 0 := by exact_mod_cast divisorPos.ne'
  rw [two_zpow_eq, Nat.cast_mul, Nat.cast_mul]
  field_simp

private theorem nearestMagnitude_of_scale {dividend divisor : Nat} {scale : Int}
    (significand : Nat) (divisorPos : 0 < divisor)
    (chosen : max (binaryOrder dividend divisor - 52) (-1074) = scale)
    (above : (significand : ℚ) - 1 / 2 ≤ dividend / divisor / 2 ^ scale)
    (below : (dividend / divisor / 2 ^ scale : ℚ) ≤ significand + 1 / 2)
    (evenAtTie : significand % 2 = 0 ∨
      (significand : ℚ) - 1 / 2 < dividend / divisor / 2 ^ scale ∧
        (dividend / divisor / 2 ^ scale : ℚ) < significand + 1 / 2) :
    nearestMagnitude dividend divisor = (scale + 1074).toNat * twoTo 52 + significand := by
  rw [ratio_on_scale dividend divisorPos] at above below evenAtTie
  unfold nearestMagnitude
  simp only [chosen]
  rw [roundedQuotient_eq (Nat.mul_pos divisorPos (twoTo_pos _)) above below evenAtTie]

private theorem le_binaryOrder_of_place {dividend divisor : Nat} {scale : Int}
    (dividendPos : 0 < dividend) (divisorPos : 0 < divisor) (order : Int) :
    scale + order ≤ binaryOrder dividend divisor ↔
      (2 : ℚ) ^ order ≤ dividend / divisor / 2 ^ scale := by
  rw [le_binaryOrder_iff dividendPos divisorPos, le_div_iff₀ (two_zpow_pos scale),
    ← zpow_add₀ (by norm_num : (2 : ℚ) ≠ 0), add_comm order]

/-- Below a power of two the ratio lies in the finer binade, and is rounded up to the power. -/
private theorem nearestMagnitude_eq_of_below {value : Binary64} {dividend divisor : Nat}
    (dividendPos : 0 < dividend) (divisorPos : 0 < divisor) (nonzero : value.isZero = false)
    (rounds : value.RoundsFrom (dividend / divisor)) (fine : -1074 < value.scale)
    (short : (dividend / divisor / 2 ^ value.scale : ℚ) < 2 ^ (52 : Int)) :
    nearestMagnitude dividend divisor = value.magnitude := by
  rcases rounds.distance nonzero with ⟨above, _, _⟩
  rcases leading_of_scale fine with ⟨leading, normal⟩
  have ceiling : (2 : ℚ) ^ (52 : Int) = 4503599627370496 := by norm_num
  have power : value.significand = twoTo 52 := by
    have : (value.significand : ℚ) < 4503599627370496 + 1 := by linarith
    have : value.significand < 4503599627370496 + 1 := by exact_mod_cast this
    rw [twoTo_fiftyTwo] at leading ⊢
    omega
  have close := rounds.narrow power normal
  have significandEq : (value.significand : ℚ) = 4503599627370496 := by
    rw [power, twoTo_fiftyTwo]
    norm_num
  have order : value.scale + 51 ≤ binaryOrder dividend divisor := by
    rw [le_binaryOrder_of_place dividendPos divisorPos]
    refine le_trans ?_ close
    rw [significandEq]
    norm_num
  have notAbove : ¬ value.scale + 52 ≤ binaryOrder dividend divisor := by
    rw [le_binaryOrder_of_place dividendPos divisorPos]
    exact short.not_ge
  have chosen : max (binaryOrder dividend divisor - 52) (-1074) = value.scale - 1 := by omega
  have doubled : (dividend / divisor / 2 ^ (value.scale - 1) : ℚ) =
      2 * (dividend / divisor / 2 ^ value.scale) := by
    rw [zpow_sub_one₀ (by norm_num : (2 : ℚ) ≠ 0)]
    have := (two_zpow_pos value.scale).ne'
    field_simp
  have carried : ((twoTo 53 : Nat) : ℚ) = 9007199254740992 := by
    rw [twoTo_fiftyThree]
    norm_num
  rw [nearestMagnitude_of_scale (twoTo 53) divisorPos chosen
    (by rw [doubled, carried]; linarith) (by rw [doubled, carried]; linarith)
    (.inl (by decide)), magnitude_eq, power, twoTo_fiftyTwo, twoTo_fiftyThree]
  omega

theorem nearestMagnitude_eq {value : Binary64} {dividend divisor : Nat}
    (dividendPos : 0 < dividend) (divisorPos : 0 < divisor) (nonzero : value.isZero = false)
    (rounds : value.RoundsFrom (dividend / divisor)) :
    nearestMagnitude dividend divisor = value.magnitude := by
  rcases rounds.distance nonzero with ⟨above, below, evenAtTie⟩
  have least := value.scale_ge
  have largest := value.significand_add_one_le
  have belowBinade : ¬ value.scale + 53 ≤ binaryOrder dividend divisor := by
    rw [le_binaryOrder_of_place dividendPos divisorPos]
    linarith
  by_cases inBinade : value.scale + 52 ≤ binaryOrder dividend divisor ∨ value.scale = -1074
  · have chosen : max (binaryOrder dividend divisor - 52) (-1074) = value.scale := by omega
    rw [nearestMagnitude_of_scale value.significand divisorPos chosen above below evenAtTie,
      ← magnitude_eq]
  · apply nearestMagnitude_eq_of_below dividendPos divisorPos nonzero rounds
    · omega
    · rw [← not_le, ← le_binaryOrder_of_place dividendPos divisorPos]
      omega

/-! ### Reading a decimal -/

theorem toDigits_bounds {digits : Nat} (positive : 0 < digits) :
    (10 : ℚ) ^ (((Nat.toDigits 10 digits).length : Int) - 1) ≤ digits ∧
      (digits : ℚ) < 10 ^ ((Nat.toDigits 10 digits).length : Int) := by
  have someDigit : 0 < (Nat.toDigits 10 digits).length := Nat.length_toDigits_pos
  have below := (Nat.length_toDigits_le_iff (by decide) someDigit).mp
    (Nat.le_refl (Nat.toDigits 10 digits).length)
  have above : 10 ^ ((Nat.toDigits 10 digits).length - 1) ≤ digits := by
    rcases Nat.eq_or_lt_of_le someDigit with single | several
    · rw [← single]
      exact positive
    · have shorter : 0 < (Nat.toDigits 10 digits).length - 1 := by omega
      rw [← not_lt, ← Nat.length_toDigits_le_iff (by decide) shorter]
      omega
  constructor
  · rw [← Nat.cast_pred someDigit, zpow_natCast]
    exact_mod_cast above
  · rw [zpow_natCast]
    exact_mod_cast below

private theorem two_pow_le_ten_pow (small large : Nat) (few : small ≤ 3 * large) :
    (2 : ℚ) ^ (small : Int) ≤ 10 ^ (large : Int) := by
  rw [zpow_natCast, zpow_natCast]
  calc (2 : ℚ) ^ small ≤ 2 ^ (3 * large) := pow_le_pow_right₀ (by norm_num) few
    _ = (2 ^ 3) ^ large := pow_mul 2 3 large
    _ ≤ 10 ^ large := pow_le_pow_left₀ (by norm_num) (by norm_num) large

/-- The reals that round to a positive finite value are far from zero and from infinity. -/
theorem RoundsFrom.bounds {value : Binary64} {point : ℚ} (finite : value.isFinite = true)
    (nonzero : value.isZero = false) (rounds : value.RoundsFrom point) :
    (2 : ℚ) ^ (-1075 : Int) ≤ point ∧ point < (2 : ℚ) ^ (1024 : Int) := by
  rcases rounds.distance nonzero with ⟨above, below, _⟩
  have unit := two_zpow_pos value.scale
  have least : (1 : ℚ) ≤ value.significand := by exact_mod_cast significand_pos nonzero
  have greatest := value.significand_add_one_le
  have two : (2 : ℚ) ≠ 0 := by norm_num
  constructor
  · calc (2 : ℚ) ^ (-1075 : Int) = 2 ^ (-1 : Int) * 2 ^ (-1074 : Int) := by
          rw [← zpow_add₀ two]
          norm_num
      _ ≤ 2 ^ (-1 : Int) * 2 ^ value.scale :=
          mul_le_mul_of_nonneg_left
            (zpow_le_zpow_right₀ (by norm_num) value.scale_ge) (by norm_num)
      _ ≤ point := by
          rw [← le_div_iff₀ unit, zpow_neg_one]
          linarith
  · calc point < (2 : ℚ) ^ (53 : Int) * 2 ^ value.scale := by
          rw [← div_lt_iff₀ unit]
          linarith
      _ ≤ 2 ^ (53 : Int) * 2 ^ (971 : Int) :=
          mul_le_mul_of_nonneg_left
            (zpow_le_zpow_right₀ (by norm_num) (scale_le finite)) (by norm_num)
      _ = 2 ^ (1024 : Int) := by
          rw [← zpow_add₀ two]
          norm_num

/-- A decimal near such a value is not among those that are settled unrounded. -/
theorem RoundsFrom.order {value : Binary64} {digits : Nat} {exponent : Int}
    (finite : value.isFinite = true) (nonzero : value.isZero = false)
    (rounds : value.RoundsFrom (digits * 10 ^ exponent)) :
    0 < digits ∧ -400 ≤ exponent + (Nat.toDigits 10 digits).length ∧
      exponent + (Nat.toDigits 10 digits).length ≤ 400 := by
  rcases rounds.bounds finite nonzero with ⟨low, high⟩
  have positive : 0 < digits := by
    rw [Nat.pos_iff_ne_zero]
    rintro rfl
    rw [Nat.cast_zero, zero_mul] at low
    exact absurd (two_zpow_pos (-1075)) low.not_gt
  have ten : (10 : ℚ) ≠ 0 := by norm_num
  rcases toDigits_bounds positive with ⟨leading, bounded⟩
  generalize ((Nat.toDigits 10 digits).length : Int) = count at leading bounded ⊢
  refine ⟨positive, ?_, ?_⟩
  · have wide : (10 : ℚ) ^ (-401 : Int) < 10 ^ (exponent + count) := by
      calc (10 : ℚ) ^ (-401 : Int) ≤ 2 ^ (-1075 : Int) := by
            rw [zpow_neg, zpow_neg]
            exact inv_anti₀ (two_zpow_pos 1075) (two_pow_le_ten_pow 1075 401 (by decide))
        _ ≤ digits * 10 ^ exponent := low
        _ < 10 ^ count * 10 ^ exponent :=
            mul_lt_mul_of_pos_right bounded (ten_zpow_pos exponent)
        _ = 10 ^ (exponent + count) := by rw [← zpow_add₀ ten, add_comm]
    have := (zpow_lt_zpow_iff_right₀ (by norm_num)).mp wide
    omega
  · have wide : (10 : ℚ) ^ (exponent + count - 1) < 10 ^ (400 : Int) := by
      calc (10 : ℚ) ^ (exponent + count - 1) = 10 ^ (count - 1) * 10 ^ exponent := by
            rw [← zpow_add₀ ten]
            congr 1
            omega
        _ ≤ digits * 10 ^ exponent :=
            mul_le_mul_of_nonneg_right leading (ten_zpow_pos exponent).le
        _ < 2 ^ (1024 : Int) := high
        _ ≤ 10 ^ (400 : Int) := two_pow_le_ten_pow 1024 400 (by decide)
    have := (zpow_lt_zpow_iff_right₀ (by norm_num)).mp wide
    omega

theorem ofDecimal?_eq {value : Binary64} {digits : Nat} {exponent : Int}
    (finite : value.isFinite = true) (nonzero : value.isZero = false)
    (rounds : value.RoundsFrom (digits * 10 ^ exponent)) :
    ofDecimal? value.negative digits exponent = some value := by
  rcases rounds.order finite nonzero with ⟨positive, notTiny, notHuge⟩
  have ratio : (digits * 10 ^ exponent : ℚ) =
      (digits * tenTo exponent.toNat : Nat) / (tenTo (-exponent).toNat : Nat) := by
    rw [ten_zpow_eq, Nat.cast_mul, mul_div_assoc]
  rw [ratio] at rounds
  have nearest := nearestMagnitude_eq (Nat.mul_pos positive (tenTo_pos _)) (tenTo_pos _) nonzero
    rounds
  have inRange : value.magnitude < infinity := of_decide_eq_true finite
  simp only [ofDecimal?]
  rw [if_neg (by omega), if_neg (by omega), nearest, if_pos inRange, ofMagnitude_magnitude]

theorem ofDecimal?_zero {value : Binary64} (zero : value.isZero = true) (exponent : Int) :
    ofDecimal? value.negative 0 exponent = some value := by
  have noMagnitude : value.magnitude = 0 := beq_iff_eq.mp zero
  simp only [ofDecimal?, true_or, if_true]
  rw [← noMagnitude, ofMagnitude_magnitude]

end Binary64

end ScopeLint
