import Mathlib.Data.Nat.Cast.Order.Field
import ScopeLint.Proofs.Number.Nearest

/-!
The shortest decimal of a value rounds to that value. A grid whose step is below a quarter of
the last place always holds such a decimal, and the search comes to one with its last grid.
-/

set_option autoImplicit false

namespace ScopeLint.Binary64

/-- Counting points and the value on one scale is the comparison of rationals. -/
theorem contains_grid_iff (value : Binary64) (digits : Nat) (grid : Int) :
    value.interval.contains
        (digits * (tenTo grid.toNat * twoTo (-(value.scale - 2)).toNat))
        (twoTo (value.scale - 2).toNat * tenTo (-grid).toNat) = true ↔
      value.RoundsFrom (digits * 10 ^ grid) := by
  rw [Interval.contains_iff _ _ (Nat.mul_pos (twoTo_pos _) (tenTo_pos _)), RoundsFrom]
  have onScale : ((digits * (tenTo grid.toNat * twoTo (-(value.scale - 2)).toNat) : Nat) : ℚ) /
      (twoTo (value.scale - 2).toNat * tenTo (-grid).toNat : Nat) =
      digits * 10 ^ grid / 2 ^ (value.scale - 2) := by
    have up : (twoTo (value.scale - 2).toNat : ℚ) ≠ 0 := by exact_mod_cast (twoTo_pos _).ne'
    have down : (twoTo (-(value.scale - 2)).toNat : ℚ) ≠ 0 := by
      exact_mod_cast (twoTo_pos _).ne'
    have fine : (tenTo (-grid).toNat : ℚ) ≠ 0 := by exact_mod_cast (tenTo_pos _).ne'
    rw [ten_zpow_eq, two_zpow_eq, Nat.cast_mul, Nat.cast_mul, Nat.cast_mul]
    field_simp
  rw [onScale]

theorem roundsFrom_of_onGrid? {tie : Tie} {value : Binary64} {grid : Int} {digits : Nat}
    (offered : onGrid? tie value grid = some digits) :
    value.RoundsFrom (digits * 10 ^ grid) := by
  rw [← contains_grid_iff]
  simp only [onGrid?] at offered
  generalize tenTo grid.toNat * twoTo (-(value.scale - 2)).toNat = step at offered ⊢
  generalize twoTo (value.scale - 2).toNat * tenTo (-grid).toNat = unit at offered ⊢
  generalize value.interval.centre * unit / step = below at offered
  cases lower : value.interval.contains (below * step) unit with
  | false =>
      cases upper : value.interval.contains ((below + 1) * step) unit with
      | false => simp only [lower, upper, reduceCtorEq] at offered
      | true =>
          simp only [lower, upper, Option.some.injEq] at offered
          rw [← offered, upper]
  | true =>
      cases upper : value.interval.contains ((below + 1) * step) unit with
      | false =>
          simp only [lower, upper, Option.some.injEq] at offered
          rw [← offered, lower]
      | true =>
          simp only [lower, upper] at offered
          have neighbour : digits = below ∨ digits = below + 1 := by
            split at offered
            · exact .inl (Option.some.inj offered).symm
            · exact .inr (Option.some.inj offered).symm
            · exact .inr (Option.some.inj offered).symm
            · have := Option.some.inj offered
              omega
          rcases neighbour with rfl | rfl
          · exact lower
          · exact upper

/-- A grid finer than a quarter of the last place has a point just below the value. -/
theorem onGrid?_isSome {value : Binary64} (tie : Tie) {grid : Int}
    (nonzero : value.isZero = false) (fine : (10 : ℚ) ^ grid < 2 ^ (value.scale - 2)) :
    (onGrid? tie value grid).isSome = true := by
  have positive := significand_pos nonzero
  have shortStep : tenTo grid.toNat * twoTo (-(value.scale - 2)).toNat <
      twoTo (value.scale - 2).toNat * tenTo (-grid).toNat := by
    have down : (0 : ℚ) < twoTo (-(value.scale - 2)).toNat := by exact_mod_cast twoTo_pos _
    have narrow : (0 : ℚ) < tenTo (-grid).toNat := by exact_mod_cast tenTo_pos _
    rw [ten_zpow_eq, two_zpow_eq, div_lt_div_iff₀ narrow down] at fine
    exact_mod_cast fine
  have stepPos : 0 < tenTo grid.toNat * twoTo (-(value.scale - 2)).toNat :=
    Nat.mul_pos (tenTo_pos _) (twoTo_pos _)
  simp only [onGrid?]
  generalize tenTo grid.toNat * twoTo (-(value.scale - 2)).toNat = step at shortStep stepPos ⊢
  generalize twoTo (value.scale - 2).toNat * tenTo (-grid).toNat = unit at shortStep ⊢
  have split := Nat.div_add_mod (value.interval.centre * unit) step
  have small := Nat.mod_lt (value.interval.centre * unit) stepPos
  generalize value.interval.centre * unit / step = below at split ⊢
  have lowerEnd : (value.interval.lower + 1) * unit ≤ value.interval.centre * unit := by
    refine Nat.mul_le_mul_right unit ?_
    simp only [interval]
    split <;> omega
  have upperEnd : (value.interval.centre + 1) * unit ≤ value.interval.upper * unit := by
    refine Nat.mul_le_mul_right unit ?_
    simp only [interval]
    omega
  rw [Nat.add_mul, Nat.one_mul] at lowerEnd upperEnd
  rw [Nat.mul_comm step below] at split
  have inside : value.interval.contains (below * step) unit = true := by
    unfold Interval.contains
    split
    · simp only [Bool.and_eq_true, decide_eq_true_eq]
      omega
    · simp only [Bool.and_eq_true, decide_eq_true_eq]
      omega
  rw [inside]
  cases value.interval.contains ((below + 1) * step) unit with
  | false => rfl
  | true =>
      simp only
      split <;> rfl

/-! ### The search -/

/-- A search that comes to a grid with a point stops at a grid with a point. -/
theorem onGrid?_searchGrids {tie : Tie} {value : Binary64} {count : Nat} {grid : Int}
    (rounds : Nat) (reached : rounds < count)
    (found : (onGrid? tie value (grid - rounds)).isSome = true) :
    onGrid? tie value (searchGrids tie value count grid).exponent =
      some (searchGrids tie value count grid).digits := by
  induction count generalizing rounds grid with
  | zero => exact absurd reached (Nat.not_lt_zero rounds)
  | succ count ih =>
      unfold searchGrids
      cases here : onGrid? tie value grid with
      | some digits => exact here
      | none =>
          cases rounds with
          | zero =>
              rw [Nat.cast_zero, sub_zero, here] at found
              exact nomatch found
          | succ rounds =>
              refine ih rounds (by omega) ?_
              rw [← found]
              congr 2
              omega

/-- The search starts at most one grid above the leading digit of the value. -/
theorem ten_zpow_coarsestGrid_le {value : Binary64} (nonzero : value.isZero = false) :
    (10 : ℚ) ^ (value.coarsestGrid - 1) ≤ value.significand * 2 ^ value.scale := by
  have positive := significand_pos nonzero
  have dividendPos : 0 < value.significand * twoTo value.scale.toNat :=
    Nat.mul_pos positive (twoTo_pos _)
  have divisorPos : 0 < twoTo (-value.scale).toNat := twoTo_pos _
  have ratio : (value.significand * 2 ^ value.scale : ℚ) =
      (value.significand * twoTo value.scale.toNat : Nat) / (twoTo (-value.scale).toNat : Nat) := by
    rw [two_zpow_eq, Nat.cast_mul, mul_div_assoc]
  rw [ratio]
  simp only [coarsestGrid]
  generalize value.significand * twoTo value.scale.toNat = dividend at dividendPos ⊢
  generalize twoTo (-value.scale).toNat = divisor at divisorPos ⊢
  have dividendQ : (0 : ℚ) < dividend := by exact_mod_cast dividendPos
  have divisorQ : (0 : ℚ) < divisor := by exact_mod_cast divisorPos
  split
  next whole =>
      have quotientPos : 0 < dividend / divisor := Nat.div_pos whole divisorPos
      refine (toDigits_bounds quotientPos).1.trans ?_
      exact Nat.cast_div_le
  next =>
      have quotientPos : 0 < divisor / dividend := Nat.div_pos (by omega) dividendPos
      have bound := (toDigits_bounds quotientPos).2
      generalize (Nat.toDigits 10 (divisor / dividend)).length = count at bound ⊢
      have inverse : (divisor / dividend : ℚ) < 10 ^ (count : Int) := by
        rw [zpow_natCast] at bound ⊢
        have : divisor / dividend < 10 ^ count := by exact_mod_cast bound
        rw [Nat.div_lt_iff_lt_mul dividendPos] at this
        rw [div_lt_iff₀ dividendQ]
        exact_mod_cast this
      have negated : 1 - (count : Int) - 1 = -count := by omega
      rw [negated, zpow_neg, ← inv_div]
      exact inv_anti₀ (div_pos divisorQ dividendQ) inverse.le

/-- Seventeen digits suffice: the last grid of the search is fine enough. -/
theorem onGrid?_shortest {value : Binary64} (tie : Tie) (nonzero : value.isZero = false) :
    onGrid? tie value (value.shortest tie).exponent = some (value.shortest tie).digits := by
  refine onGrid?_searchGrids 18 (by decide) (onGrid?_isSome tie nonzero ?_)
  have bound := ten_zpow_coarsestGrid_le nonzero
  have unit := two_zpow_pos value.scale
  have few : (value.significand : ℚ) ≤ 9007199254740991 := by
    have := value.significand_le
    rw [twoTo_fiftyThree] at this
    exact_mod_cast this
  have ten : (10 : ℚ) ≠ 0 := by norm_num
  calc (10 : ℚ) ^ (value.coarsestGrid - (18 : Nat))
      = 10 ^ (value.coarsestGrid - 1) * 10 ^ (-17 : Int) := by
        rw [← zpow_add₀ ten]
        congr 1
        omega
    _ ≤ value.significand * 2 ^ value.scale * 10 ^ (-17 : Int) :=
        mul_le_mul_of_nonneg_right bound (by norm_num)
    _ ≤ 9007199254740991 * 2 ^ value.scale * 10 ^ (-17 : Int) :=
        mul_le_mul_of_nonneg_right (mul_le_mul_of_nonneg_right few unit.le) (by norm_num)
    _ < 2 ^ value.scale / 4 := by
        norm_num
        linarith
    _ = 2 ^ (value.scale - 2) := by
        rw [zpow_sub₀ (by norm_num : (2 : ℚ) ≠ 0)]
        norm_num

theorem roundsFrom_shortest {value : Binary64} (tie : Tie) (nonzero : value.isZero = false) :
    value.RoundsFrom
      ((value.shortest tie).digits * 10 ^ (value.shortest tie).exponent) :=
  roundsFrom_of_onGrid? (onGrid?_shortest tie nonzero)

end ScopeLint.Binary64
