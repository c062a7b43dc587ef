import ScopeLint.Number.Scaling
import ScopeLint.Proofs.Number.Overflow

/-!
What rounded arithmetic gives for a decimal. Digits of 64 bits never leave the range by a
division, and leave it by a multiplication exactly when the product of the two rounded factors
does. Where both factors are exact, only one rounding is left, and the result is the value
nearest to the decimal.
-/

set_option autoImplicit false

namespace ScopeLint.Binary64

theorem divisor_pos (value : Binary64) : 0 < value.divisor :=
  twoTo_pos _

theorem isFinite_ofMagnitude {negative : Bool} {magnitude : Nat} (finite : magnitude < infinity) :
    (ofMagnitude negative magnitude).isFinite = true := by
  rw [isFinite, magnitude_ofMagnitude finite, decide_eq_true_eq]
  exact finite

theorem magnitude_ofRatio {dividend : Nat} (positive : 0 < dividend) (divisor : Nat) :
    (ofRatio dividend divisor).magnitude = min (nearestMagnitude dividend divisor) infinity := by
  rw [ofRatio, if_neg positive.ne']
  rcases Nat.lt_or_eq_of_le (Nat.min_le_right (nearestMagnitude dividend divisor) infinity) with
    inRange | same
  · exact magnitude_ofMagnitude inRange
  · rw [same]
    decide

theorem isFinite_ofRatio_iff {dividend : Nat} (positive : 0 < dividend) (divisor : Nat) :
    (ofRatio dividend divisor).isFinite = true ↔ nearestMagnitude dividend divisor < infinity := by
  rw [isFinite, magnitude_ofRatio positive, decide_eq_true_eq, min_lt_iff]
  exact or_iff_left (Nat.lt_irrefl _)

/-- Rounding sees a ratio and not the two numbers. -/
theorem ofRatio_congr {dividend divisor dividend' divisor' : Nat} (positive : 0 < divisor)
    (positive' : 0 < divisor') (same : dividend * divisor' = dividend' * divisor) :
    ofRatio dividend divisor = ofRatio dividend' divisor' := by
  unfold ofRatio
  rcases Nat.eq_zero_or_pos dividend with rfl | dividendPos
  · have zero : dividend' = 0 := by
      rw [Nat.zero_mul] at same
      exact (Nat.mul_eq_zero.mp same.symm).resolve_right positive.ne'
    rw [zero, if_pos rfl, if_pos rfl]
  · have dividendPos' : 0 < dividend' := by
      refine Nat.pos_of_mul_pos_right (b := divisor) ?_
      rw [← same]
      exact Nat.mul_pos dividendPos positive'
    rw [if_neg dividendPos.ne', if_neg dividendPos'.ne',
      ← nearestMagnitude_mul_right dividendPos positive positive', same,
      Nat.mul_comm divisor, nearestMagnitude_mul_right dividendPos' positive' positive]

/-! ### Bounds -/

/-- A value up to a power of two. -/
def AtMost (exponent : Nat) (value : Binary64) : Prop :=
  value.magnitude ≤ (exponent + 1023) * twoTo 52

section Bounds

variable {exponent : Nat} {value : Binary64}

theorem AtMost.isFinite (atMost : value.AtMost exponent) (inRange : exponent < 1024) :
    value.isFinite = true := by
  rw [AtMost, twoTo_fiftyTwo] at atMost
  rw [Binary64.isFinite, decide_eq_true_eq, infinity_eq]
  omega

theorem AtMost.dividend_le (atMost : value.AtMost exponent) :
    value.dividend ≤ value.divisor * twoTo exponent := by
  have scaled (places : Nat) (few : value.significand ≤ twoTo places)
      (inside : value.scale + places ≤ exponent) :
      value.dividend ≤ value.divisor * twoTo exponent := by
    calc value.significand * twoTo value.scale.toNat
        ≤ twoTo places * twoTo value.scale.toNat := Nat.mul_le_mul_right _ few
      _ = twoTo (places + value.scale.toNat) := (twoTo_add _ _).symm
      _ ≤ twoTo ((-value.scale).toNat + exponent) := twoTo_le (by omega)
      _ = value.divisor * twoTo exponent := twoTo_add _ _
  rcases Nat.eq_or_lt_of_le atMost with top | below
  · have isMagnitude := (top.trans (Nat.mul_comm _ _)).trans (Nat.add_zero _).symm
    obtain ⟨isSignificand, isScale⟩ :=
      fields_of_magnitude (Nat.succ_pos _) (twoTo_pos 52) isMagnitude
    refine scaled 52 (by rw [isSignificand, Nat.zero_add]) ?_
    rw [isScale]
    omega
  · rw [twoTo_fiftyTwo] at below
    refine scaled 53 (value.significand_le.trans (Nat.sub_le _ _)) ?_
    simp only [scale, twoTo_fiftyTwo]
    omega

theorem atMost_ofRatio {dividend divisor : Nat} (positive : 0 < divisor)
    (atMost : dividend ≤ divisor * twoTo exponent) :
    (ofRatio dividend divisor).AtMost exponent := by
  unfold AtMost
  rcases Nat.eq_zero_or_pos dividend with rfl | dividendPos
  · rw [ofRatio, if_pos rfl, magnitude_ofMagnitude (by decide)]
    exact Nat.zero_le _
  · rw [magnitude_ofRatio dividendPos]
    exact (Nat.min_le_left _ _).trans (nearestMagnitude_le dividendPos positive atMost)

theorem atMost_ofNatural {number : Nat} (atMost : number ≤ twoTo exponent) :
    (ofNatural number).AtMost exponent :=
  atMost_ofRatio Nat.one_pos (by rwa [Nat.one_mul])

/-- Dividing by one or more does not go beyond a bound. -/
theorem AtMost.dividedBy (atMost : value.AtMost exponent) {other : Binary64}
    (large : other.divisor ≤ other.dividend) : (value.dividedBy other).AtMost exponent := by
  have positive : 0 < other.dividend := other.divisor_pos.trans_le large
  refine atMost_ofRatio (Nat.mul_pos value.divisor_pos positive) ?_
  calc value.dividend * other.divisor
      ≤ value.divisor * twoTo exponent * other.dividend :=
        Nat.mul_le_mul atMost.dividend_le large
    _ = value.divisor * other.dividend * twoTo exponent := Nat.mul_right_comm _ _ _

end Bounds

theorem divisor_le_powerOfTen :
    ∀ exponent ≤ greatestPower, (powerOfTen exponent).divisor ≤ (powerOfTen exponent).dividend := by
  decide +kernel

theorem AtMost.shrink {exponent : Nat} {value : Binary64} (atMost : value.AtMost exponent)
    (rounds : Nat) : (value.shrink rounds).AtMost exponent := by
  induction rounds generalizing value with
  | zero => exact atMost
  | succ rounds ih =>
      unfold Binary64.shrink
      split
      · exact atMost
      · exact ih (atMost.dividedBy (divisor_le_powerOfTen _ (Nat.le_refl _)))

/-- Digits of 64 bits are scaled to a finite value or to none. -/
theorem isFinite_of_scaled? {digits : Nat} {exponent : Int} {value : Binary64}
    (few : digits ≤ twoTo 64) (isScaled : scaled? digits exponent = some value) :
    value.isFinite = true := by
  unfold scaled? at isScaled
  split at isScaled
  next =>
      rw [← Option.some.inj isScaled]
      refine (((atMost_ofNatural few).shrink _).dividedBy (divisor_le_powerOfTen _ ?_)).isFinite
        (by decide)
      have bound := Nat.lt_div_mul_add (a := exponent.natAbs - 1) (show 0 < greatestPower by decide)
      omega
  next =>
      split at isScaled
      next =>
          simp only at isScaled
          split at isScaled
          next finite =>
              rw [← Option.some.inj isScaled]
              exact finite
          next => exact nomatch isScaled
      next =>
          split at isScaled
          next =>
              rw [← Option.some.inj isScaled]
              exact isFinite_ofMagnitude (by decide)
          next => exact nomatch isScaled

/-! ### Naturals -/

theorem roundedQuotient_one (dividend : Nat) : roundedQuotient dividend 1 = dividend := by
  simp only [roundedQuotient, Nat.mod_one, Nat.mul_zero, Nat.compare_eq_lt.mpr Nat.one_pos,
    Nat.div_one]

theorem binaryOrder_one {number : Nat} (positive : 0 < number) :
    binaryOrder number 1 = number.log2 := by
  have under := Nat.log2_self_le positive.ne'
  have above := @Nat.lt_log2_self number
  have decided := natCast_le_binaryOrder_iff positive Nat.one_pos
  have low := (decided number.log2).mpr (by rwa [Nat.one_mul])
  have high : ¬((number.log2 + 1 : Nat) : Int) ≤ binaryOrder number 1 := by
    rw [decided, Nat.one_mul]
    exact above.not_ge
  omega

theorem nearestMagnitude_mono {first second : Nat} (positive : 0 < first)
    (less : first ≤ second) : nearestMagnitude first 1 ≤ nearestMagnitude second 1 := by
  have secondPos := positive.trans_le less
  have under := Nat.log2_self_le positive.ne'
  have orders : first.log2 ≤ second.log2 := (Nat.le_log2 secondPos.ne').mpr (under.trans less)
  rcases orders.eq_or_lt with same | smaller
  · simp only [nearestMagnitude, binaryOrder_one positive, binaryOrder_one secondPos, same]
    apply Nat.add_le_add_left
    exact roundedQuotient_mono (Nat.mul_pos Nat.one_pos (twoTo_pos _))
      (Nat.mul_le_mul_right _ less)
  · calc nearestMagnitude first 1
        ≤ (first.log2 + 1 + 1023) * twoTo 52 := by
          apply nearestMagnitude_le positive Nat.one_pos
          rw [Nat.one_mul]
          exact Nat.lt_log2_self.le
      _ ≤ (second.log2 + 1023) * twoTo 52 := Nat.mul_le_mul_right _ (by omega)
      _ ≤ nearestMagnitude second 1 := by
          apply le_nearestMagnitude secondPos Nat.one_pos
          rw [Nat.one_mul]
          exact Nat.log2_self_le secondPos.ne'

theorem dividend_mul_divisor_le {value other : Binary64}
    (less : value.magnitude ≤ other.magnitude) :
    value.dividend * other.divisor ≤ other.dividend * value.divisor := by
  have place := value.magnitude_eq
  have otherPlace := other.magnitude_eq
  have few := value.significand_le
  have least := value.scale_ge
  have otherLeast := other.scale_ge
  rw [twoTo_fiftyTwo] at place otherPlace
  rw [twoTo_fiftyThree] at few
  -- Both sides are a significand times a power of two.
  rw [dividend, divisor, dividend, divisor, Nat.mul_assoc, Nat.mul_assoc, ← twoTo_add, ← twoTo_add]
  rcases Int.lt_trichotomy value.scale other.scale with below | same | above
  · have many := (leading_of_scale (least.trans_lt below)).1
    calc value.significand * twoTo (value.scale.toNat + (-other.scale).toNat)
        ≤ twoTo 53 * twoTo (value.scale.toNat + (-other.scale).toNat) :=
          Nat.mul_le_mul_right _ (value.significand_le.trans (Nat.sub_le _ _))
      _ = twoTo 52 * twoTo (value.scale.toNat + (-other.scale).toNat + 1) := by
          rw [← twoTo_add, ← twoTo_add]
          exact congrArg twoTo (by omega)
      _ ≤ other.significand * twoTo (other.scale.toNat + (-value.scale).toNat) :=
          Nat.mul_le_mul many (twoTo_le (by omega))
  · rw [same] at place ⊢
    exact Nat.mul_le_mul_right _ (by omega)
  · have many := (leading_of_scale (otherLeast.trans_lt above)).1
    have otherFew := other.significand_le
    rw [twoTo_fiftyTwo] at many
    rw [twoTo_fiftyThree] at otherFew
    omega

theorem ofNatural_mono {first second : Nat} (positive : 0 < first) (less : first ≤ second) :
    (ofNatural first).dividend * (ofNatural second).divisor ≤
      (ofNatural second).dividend * (ofNatural first).divisor := by
  apply dividend_mul_divisor_le
  rw [ofNatural, ofNatural, magnitude_ofRatio positive, magnitude_ofRatio (positive.trans_le less)]
  exact min_le_min_right _ (nearestMagnitude_mono positive less)

/-! ### Out of range -/

/-- The product of two values is out of range exactly from the bound on. -/
theorem isFinite_times_iff {left right : Binary64} (leftPos : 0 < left.dividend)
    (rightPos : 0 < right.dividend) :
    (left.times right).isFinite = true ↔
      left.dividend * right.dividend < left.divisor * right.divisor * overflow := by
  have positive := Nat.mul_pos leftPos rightPos
  have divisorPos := Nat.mul_pos left.divisor_pos right.divisor_pos
  exact (isFinite_ofRatio_iff positive _).trans
    (nearestMagnitude_lt_infinity_iff positive divisorPos)

theorem dividend_ofNatural_pos {number : Nat} (positive : 0 < number) :
    0 < (ofNatural number).dividend := by
  have bound := le_nearestMagnitude positive Nat.one_pos (by rwa [Nat.one_mul] : 1 * twoTo 0 ≤ _)
  refine Nat.mul_pos (significand_pos ?_) (twoTo_pos _)
  rw [isZero, beq_eq_false_iff_ne, ofNatural, magnitude_ofRatio positive]
  rw [twoTo_fiftyTwo] at bound
  rw [infinity_eq]
  omega

/-- Digits and a power of ten whose product, all three of them rounded, is out of range. -/
def Overflows (digits places : Nat) : Prop :=
  greatestPower < places ∨
    (ofNatural digits).divisor * (powerOfTen places).divisor * overflow ≤
      (ofNatural digits).dividend * (powerOfTen places).dividend

theorem Overflows.mono {first second places : Nat} (overflows : Overflows first places)
    (less : first ≤ second) : Overflows second places := by
  refine overflows.imp_right fun large => ?_
  have positive : 0 < first := by
    by_contra none
    have noDividend : (ofNatural 0).dividend = 0 := by decide +kernel
    rw [Nat.eq_zero_of_not_pos none, noDividend, Nat.zero_mul] at large
    have divisors := Nat.mul_pos (ofNatural 0).divisor_pos (powerOfTen places).divisor_pos
    have bound : 0 < overflow := by decide +kernel
    exact (Nat.mul_pos divisors bound).not_ge large
  have grown := ofNatural_mono positive less
  refine Nat.le_of_mul_le_mul_right ?_ (ofNatural first).divisor_pos
  generalize ofNatural first = low at large grown ⊢
  generalize ofNatural second = high at grown ⊢
  generalize powerOfTen places = power at large ⊢
  calc high.divisor * power.divisor * overflow * low.divisor
      = low.divisor * power.divisor * overflow * high.divisor := by ring
    _ ≤ low.dividend * power.dividend * high.divisor := Nat.mul_le_mul_right _ large
    _ = low.dividend * high.divisor * power.dividend := Nat.mul_right_comm _ _ _
    _ ≤ high.dividend * low.divisor * power.dividend := Nat.mul_le_mul_right _ grown
    _ = high.dividend * power.dividend * low.divisor := Nat.mul_right_comm _ _ _

/-- Scaling by a natural power of ten has a result exactly where the product is in range. -/
theorem scaled?_natCast {digits : Nat} (positive : 0 < digits) (places : Nat) :
    (Overflows digits places → scaled? digits places = none) ∧
      (¬Overflows digits places →
        scaled? digits places = some ((ofNatural digits).times (powerOfTen places))) := by
  have noMinus : ¬(places : Int) < 0 := by omega
  have inRange : ((ofNatural digits).times (powerOfTen places)).isFinite = true ↔ _ :=
    isFinite_times_iff (dividend_ofNatural_pos positive)
      (dividend_ofNatural_pos (Nat.pow_pos (by decide)))
  rw [scaled?, if_neg noMinus, Int.toNat_natCast, if_neg positive.ne', Overflows, ← Nat.not_lt,
    ← inRange]
  by_cases tooLarge : greatestPower < places
  · rw [if_neg (Nat.not_le.mpr tooLarge)]
    exact ⟨fun _ => rfl, fun no => absurd (.inl tooLarge) no⟩
  · rw [if_pos (Nat.not_lt.mp tooLarge)]
    by_cases finite : ((ofNatural digits).times (powerOfTen places)).isFinite = true
    · exact ⟨fun beyond => absurd finite (beyond.resolve_left tooLarge), fun _ => if_pos finite⟩
    · exact ⟨fun _ => if_neg finite, fun no => absurd (.inr finite) no⟩

/-! ### Exact factors -/

/-- A value that is a natural. -/
def Is (value : Binary64) (number : Nat) : Prop :=
  value.dividend = number * value.divisor

/-- A natural of at most 53 places has exactly 53 when it is shifted: a leading one and a rest. -/
theorem exists_shifted {number : Nat} (positive : 0 < number) (few : number < twoTo 53) :
    number.log2 ≤ 52 ∧ ∃ rest < twoTo 52, number * twoTo (52 - number.log2) = twoTo 52 + rest := by
  have short : number.log2 ≤ 52 := Nat.le_of_lt_succ ((Nat.log2_lt positive.ne').mpr few)
  have under := Nat.log2_self_le positive.ne'
  have above := @Nat.lt_log2_self number
  generalize number.log2 = places at short under above ⊢
  have up : twoTo places * twoTo (52 - places) = twoTo 52 := by
    rw [← twoTo_add, Nat.add_sub_cancel' short]
  have low : twoTo 52 ≤ number * twoTo (52 - places) := by
    rw [← up]
    exact Nat.mul_le_mul_right _ under
  have high : number * twoTo (52 - places) < twoTo 52 + twoTo 52 := by
    calc number * twoTo (52 - places)
        < twoTo (places + 1) * twoTo (52 - places) :=
          Nat.mul_lt_mul_of_pos_right above (twoTo_pos _)
      _ = twoTo 52 + twoTo 52 := by
          rw [twoTo_add, Nat.mul_right_comm, up]
          rfl
  obtain ⟨rest, isRest⟩ := Nat.exists_eq_add_of_le low
  rw [isRest] at high
  exact ⟨short, rest, Nat.lt_of_add_lt_add_left high, isRest⟩

/-- Such a natural is not rounded: its rest is the fraction, and its order the exponent. -/
theorem nearestMagnitude_of_shifted {number rest : Nat} (positive : 0 < number)
    (short : number.log2 ≤ 52) (shifted : number * twoTo (52 - number.log2) = twoTo 52 + rest) :
    nearestMagnitude number 1 = twoTo 52 * (number.log2 + 1023) + rest := by
  have order := binaryOrder_one positive
  generalize number.log2 = places at order short shifted ⊢
  have scale : max ((places : Int) - 52) (-1074) = places - 52 := by omega
  have place : ((places : Int) - 52 + 1074).toNat = places + 1022 := by omega
  have down : (-((places : Int) - 52)).toNat = 52 - places := by omega
  have noScale : ((places : Int) - 52).toNat = 0 := by omega
  have one : twoTo 0 = 1 := rfl
  simp only [nearestMagnitude, order, scale, place, down, noScale, one, Nat.mul_one,
    roundedQuotient_one, shifted]
  rw [Nat.mul_comm, ← Nat.add_assoc, ← Nat.mul_succ]

/-- A natural of at most 53 places is a value. -/
theorem ofNatural_is {number : Nat} (few : number < twoTo 53) : (ofNatural number).Is number := by
  rcases Nat.eq_zero_or_pos number with rfl | positive
  · unfold Is
    decide +kernel
  obtain ⟨short, rest, restLess, shifted⟩ := exists_shifted positive few
  have inRange : nearestMagnitude number 1 < infinity := by
    rw [nearestMagnitude_lt_infinity_iff positive Nat.one_pos, Nat.one_mul]
    exact few.trans (by decide +kernel)
  have isMagnitude := magnitude_ofRatio positive 1
  rw [Nat.min_eq_left inRange.le, nearestMagnitude_of_shifted positive short shifted]
    at isMagnitude
  obtain ⟨isSignificand, isScale⟩ := fields_of_magnitude (Nat.succ_pos _) restLess isMagnitude
  have noScale : (ofRatio number 1).scale.toNat = 0 := by omega
  have down : (-(ofRatio number 1).scale).toNat = 52 - number.log2 := by omega
  rw [Is, dividend, divisor, ofNatural, noScale, down, isSignificand, shifted]
  exact (Nat.mul_one _).trans (Nat.add_comm _ _)

theorem powerOfTen_is : ∀ exponent ≤ 22, (powerOfTen exponent).Is (tenTo exponent) := by
  unfold Is
  decide +kernel

section Exact

variable {left right : Binary64} {first second : Nat}

theorem Is.times (isLeft : left.Is first) (isRight : right.Is second) :
    left.times right = ofRatio (first * second) 1 := by
  refine ofRatio_congr (Nat.mul_pos left.divisor_pos right.divisor_pos) Nat.one_pos ?_
  rw [isLeft, isRight]
  ring

theorem Is.dividedBy (isLeft : left.Is first) (isRight : right.Is second) (positive : 0 < second) :
    left.dividedBy right = ofRatio first second := by
  have nonzero : 0 < right.dividend := by
    rw [isRight]
    exact Nat.mul_pos positive right.divisor_pos
  refine ofRatio_congr (Nat.mul_pos left.divisor_pos nonzero) positive ?_
  rw [isLeft, isRight]
  ring

end Exact

/-- The sign of a decimal takes no part in its rounding. -/
theorem map_ofDecimal? (negative : Bool) (digits : Nat) (exponent : Int) :
    (ofDecimal? false digits exponent).map (fun size => ofMagnitude negative size.magnitude) =
      ofDecimal? negative digits exponent := by
  simp only [ofDecimal?]
  split
  next => rw [Option.map_some, magnitude_ofMagnitude (by decide)]
  next =>
      split
      next => rfl
      next =>
          split
          next inRange => rw [Option.map_some, magnitude_ofMagnitude inRange]
          next => rfl

/-- Of a decimal that is not too long the nearest value is the rounded ratio. -/
theorem ofDecimal?_eq_ofRatio {digits : Nat} {exponent : Int} (few : digits < twoTo 53)
    (small : exponent.natAbs ≤ 22) :
    ofDecimal? false digits exponent =
      let value := ofRatio (digits * tenTo exponent.toNat) (tenTo (-exponent).toNat)
      if value.isFinite then some value else none := by
  have short : (Nat.toDigits 10 digits).length ≤ 16 :=
    (Nat.length_toDigits_le_iff (by decide) (by decide)).mpr (few.trans (by decide))
  simp only [ofDecimal?]
  rcases Nat.eq_zero_or_pos digits with rfl | positive
  · rw [if_pos (.inl rfl), Nat.zero_mul, ofRatio, if_pos rfl,
      if_pos (isFinite_ofMagnitude (by decide))]
  · rw [if_neg (by omega), if_neg (by omega)]
    have dividendPos := Nat.mul_pos positive (tenTo_pos exponent.toNat)
    have finite := isFinite_ofRatio_iff dividendPos (tenTo (-exponent).toNat)
    split
    next inRange =>
        rw [if_pos (finite.mpr inRange), ofRatio, if_neg dividendPos.ne',
          Nat.min_eq_left inRange.le]
    next beyond => rw [if_neg (mt finite.mp beyond)]

/-- With few digits and a small power of ten the only rounding is that of the decimal. -/
theorem scaled?_eq_ofDecimal? {digits : Nat} {exponent : Int} (few : digits < twoTo 53)
    (small : exponent.natAbs ≤ 22) :
    scaled? digits exponent = ofDecimal? false digits exponent := by
  have isDigits := ofNatural_is few
  have one : tenTo 0 = 1 := rfl
  rw [ofDecimal?_eq_ofRatio few small, scaled?]
  split
  next below =>
      have noRounds : (exponent.natAbs - 1) / greatestPower = 0 :=
        Nat.div_eq_of_lt (lt_of_le_of_lt (by omega) (by decide : 22 < greatestPower))
      have up : exponent.toNat = 0 := by omega
      have down : (-exponent).toNat = exponent.natAbs := by omega
      have atMost : (ofRatio digits (tenTo exponent.natAbs)).AtMost 53 :=
        atMost_ofRatio (tenTo_pos _) (few.le.trans (Nat.le_mul_of_pos_left _ (tenTo_pos _)))
      simp only [noRounds, shrink, Nat.zero_mul, Nat.sub_zero, up, down, one, Nat.mul_one,
        isDigits.dividedBy (powerOfTen_is _ small) (tenTo_pos _), atMost.isFinite (by decide),
        if_true]
  next notBelow =>
      have up : exponent.toNat ≤ 22 := by omega
      have down : (-exponent).toNat = 0 := by omega
      simp only [up.trans (by decide : 22 ≤ greatestPower), if_true, down, one,
        isDigits.times (powerOfTen_is _ up)]

end ScopeLint.Binary64
