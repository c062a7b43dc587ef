import ScopeLint.Json.Quantity
import ScopeLint.Proofs.Json.Numeral
import ScopeLint.Proofs.Number.Scaling

/-!
What numbers are converted to. Every real that a number is converted to is finite. An integer
within 64 bits is kept; of any other integer, the digits that fit 64 bits are scaled by the
power of ten of the digits left over. A number with few digits and a small power of ten is
converted to the real nearest to it.
-/

set_option autoImplicit false

namespace ScopeLint.Json

/-! ### Digits of 64 bits -/

/-- What is gathered are the first digits, as many as fit 64 bits. -/
structure Gathered (number : Nat) (digits taken : List Char) : Prop where
  split : taken ++ (gatherDigits number digits).2 = digits
  value : (gatherDigits number digits).1 = Nat.ofDigitChars 10 taken number
  fits : number < twoTo 64 → (gatherDigits number digits).1 < twoTo 64
  full : ∀ next rest, (gatherDigits number digits).2 = next :: rest →
    twoTo 64 ≤ Nat.ofDigitChars 10 (taken ++ [next]) number

section Gathered

variable {number : Nat} {digit : Char} {digits taken : List Char}

theorem Gathered.longer (longerFits : 10 * number + (digit.toNat - '0'.toNat) < twoTo 64)
    (gathered : Gathered (10 * number + (digit.toNat - '0'.toNat)) digits taken) :
    Gathered number (digit :: digits) (digit :: taken) where
  split := by rw [gatherDigits, if_pos longerFits, List.cons_append, gathered.split]
  value := by rw [gatherDigits, if_pos longerFits, gathered.value, Nat.ofDigitChars_cons]
  fits _ := by
    rw [gatherDigits, if_pos longerFits]
    exact gathered.fits longerFits
  full next rest left := by
    rw [gatherDigits, if_pos longerFits] at left
    rw [List.cons_append, Nat.ofDigitChars_cons]
    exact gathered.full next rest left

theorem Gathered.stopped (beyond : ¬10 * number + (digit.toNat - '0'.toNat) < twoTo 64) :
    Gathered number (digit :: digits) [] where
  split := by rw [gatherDigits, if_neg beyond, List.nil_append]
  value := by rw [gatherDigits, if_neg beyond, Nat.ofDigitChars_nil]
  fits numberFits := by
    rw [gatherDigits, if_neg beyond]
    exact numberFits
  full next rest left := by
    rw [gatherDigits, if_neg beyond] at left
    rw [(List.cons.inj left).1.symm, List.nil_append, Nat.ofDigitChars_cons, Nat.ofDigitChars_nil]
    exact Nat.not_lt.mp beyond

end Gathered

theorem exists_gathered (number : Nat) (digits : List Char) :
    ∃ taken, Gathered number digits taken := by
  induction digits generalizing number with
  | nil => exact ⟨[], rfl, rfl, id, nofun⟩
  | cons digit digits ih =>
      by_cases fits : 10 * number + (digit.toNat - '0'.toNat) < twoTo 64
      · obtain ⟨taken, gathered⟩ := ih (10 * number + (digit.toNat - '0'.toNat))
        exact ⟨digit :: taken, gathered.longer fits⟩
      · exact ⟨[], .stopped fits⟩

theorem gatherDigits_lt {number : Nat} (fits : number < twoTo 64) (digits : List Char) :
    (gatherDigits number digits).1 < twoTo 64 := by
  obtain ⟨taken, gathered⟩ := exists_gathered number digits
  exact gathered.fits fits

/-- More digits do not make a number smaller. -/
theorem le_ofDigitChars (digits : List Char) (number : Nat) :
    10 ^ digits.length * number ≤ Nat.ofDigitChars 10 digits number := by
  rw [Nat.ofDigitChars_eq_ofDigitChars_zero]
  exact Nat.le_add_right _ _

theorem gatherDigits_of_lt {number : Nat} {digits : List Char}
    (few : Nat.ofDigitChars 10 digits number < twoTo 64) :
    gatherDigits number digits = (Nat.ofDigitChars 10 digits number, []) := by
  obtain ⟨taken, split, value, _, full⟩ := exists_gathered number digits
  cases left : (gatherDigits number digits).2 with
  | nil =>
      rw [left, List.append_nil] at split
      rw [split] at value
      exact Prod.ext value left
  | cons next rest =>
      have above := full next rest left
      have grown := le_ofDigitChars rest (Nat.ofDigitChars 10 (taken ++ [next]) number)
      have positive : 0 < 10 ^ rest.length := Nat.pow_pos (by decide)
      rw [← Nat.ofDigitChars_append, List.append_assoc, List.singleton_append, ← left, split]
        at grown
      have atLeast := Nat.le_mul_of_pos_left (Nat.ofDigitChars 10 (taken ++ [next]) number) positive
      omega

theorem ofDigitChars_lt {digits : List Char} (allDigits : ∀ char ∈ digits, char.isDigit = true) :
    Nat.ofDigitChars 10 digits 0 < 10 ^ digits.length := by
  induction digits with
  | nil => exact Nat.one_pos
  | cons digit digits ih =>
      rw [List.forall_mem_cons] at allDigits
      have small := (digitChar_of_isDigit allDigits.1).1
      have rest := ih allDigits.2
      rw [Nat.ofDigitChars_cons, Nat.mul_zero, Nat.zero_add,
        Nat.ofDigitChars_eq_ofDigitChars_zero, List.length_cons, Nat.pow_succ]
      calc 10 ^ digits.length * (digit.toNat - '0'.toNat) + Nat.ofDigitChars 10 digits 0
          < 10 ^ digits.length * (digit.toNat - '0'.toNat) + 10 ^ digits.length :=
            Nat.add_lt_add_left rest _
        _ = 10 ^ digits.length * (digit.toNat - '0'.toNat + 1) := (Nat.mul_succ _ _).symm
        _ ≤ 10 ^ digits.length * 10 := Nat.mul_le_mul_left _ small

/-! ### Integers -/

/-- The leading digits of a natural that fit 64 bits, as many as there are, and the number of
digits left over. -/
structure LeadingDigits (size lead left : Nat) : Prop where
  fits : lead < twoTo 64
  quotient : size / tenTo left = lead
  full : ∀ fewer < left, twoTo 64 ≤ size / tenTo fewer

theorem leadingDigits_gatherDigits (size : Nat) :
    LeadingDigits size (gatherDigits 0 (Nat.toDigits 10 size)).1
      (gatherDigits 0 (Nat.toDigits 10 size)).2.length := by
  obtain ⟨taken, split, value, fits, full⟩ := exists_gathered 0 (Nat.toDigits 10 size)
  have whole := @Nat.ofDigitChars_ten_toDigits size
  have allDigits := @isDigit_of_mem_decimal size
  generalize Nat.toDigits 10 size = digits at split value fits full whole allDigits ⊢
  generalize (gatherDigits 0 digits).1 = lead at value fits ⊢
  generalize (gatherDigits 0 digits).2 = left at split full ⊢
  subst split
  refine ⟨fits (by decide), ?_, ?_⟩
  · have small := ofDigitChars_lt fun char isLeft =>
      allDigits char (List.mem_append_right taken isLeft)
    rw [← whole, Nat.ofDigitChars_append, ← value, Nat.ofDigitChars_eq_ofDigitChars_zero]
    change (10 ^ left.length * lead + _) / 10 ^ left.length = lead
    rw [Nat.mul_add_div (Nat.pow_pos (by decide)), Nat.div_eq_of_lt small, Nat.add_zero]
  · intro fewer less
    cases left with
    | nil => exact absurd less (Nat.not_lt_zero fewer)
    | cons next rest =>
        have above := full next rest rfl
        have grown := le_ofDigitChars rest (Nat.ofDigitChars 10 (taken ++ [next]) 0)
        rw [← Nat.ofDigitChars_append, List.append_assoc, List.singleton_append, whole] at grown
        have shorter : 10 ^ fewer ≤ 10 ^ rest.length :=
          Nat.pow_le_pow_right (by decide) (Nat.le_of_lt_succ less)
        refine above.trans ((Nat.le_div_iff_mul_le (Nat.pow_pos (by decide))).mpr ?_)
        rw [Nat.mul_comm]
        exact (Nat.mul_le_mul_right _ shorter).trans grown

theorem LeadingDigits.le_size {size lead left : Nat} (leads : LeadingDigits size lead left) :
    lead * tenTo left ≤ size := by
  rw [← leads.quotient]
  exact Nat.div_mul_le_self size (tenTo left)

theorem LeadingDigits.size_lt {size lead left : Nat} (leads : LeadingDigits size lead left) :
    size < (lead + 1) * tenTo left := by
  rw [← leads.quotient, Nat.succ_mul]
  exact Nat.lt_div_mul_add (tenTo_pos left)

/-- Where a digit is left over, one more digit would not have fitted. -/
theorem LeadingDigits.le_lead {size lead left : Nat} (leads : LeadingDigits size lead left)
    (leftOver : 0 < left) : 1844674407370955161 ≤ lead := by
  have wide := leads.full (left - 1) (Nat.sub_lt leftOver Nat.one_pos)
  have whole : tenTo (left - 1 + 1) = tenTo (left - 1) * 10 := rfl
  rw [Nat.sub_add_cancel leftOver] at whole
  rw [← leads.quotient, whole, ← Nat.div_div_eq_div_mul]
  exact le_of_eq_of_le (by decide) (Nat.div_le_div_right wide)

theorem LeadingDigits.lead_pos {size lead left : Nat} (leads : LeadingDigits size lead left)
    (positive : 0 < size) : 0 < lead := by
  rcases Nat.eq_zero_or_pos left with rfl | leftOver
  · have one : tenTo 0 = 1 := rfl
    rw [← leads.quotient, one, Nat.div_one]
    exact positive
  · exact (by decide : 0 < 1844674407370955161).trans_le (leads.le_lead leftOver)

/-- The integers from here on are out of range when their leading digits are scaled, though the
first of them have a nearest real. -/
def scalingBound : Nat :=
  17976931348623156225 * tenTo 289

example : scalingBound < twoTo 1024 - twoTo 971 := by
  decide +kernel

/-- How many digits are left over decides, and the leading digits where that is 289. -/
theorem LeadingDigits.overflows_iff {size lead left : Nat} (leads : LeadingDigits size lead left) :
    Binary64.Overflows lead left ↔ scalingBound ≤ size := by
  have fits := leads.fits
  rcases Nat.lt_trichotomy left 289 with few | rfl | many
  · have inRange : ∀ places < 289, ¬Binary64.Overflows (twoTo 64 - 1) places ∧
        twoTo 64 * tenTo places ≤ scalingBound := by
      unfold Binary64.Overflows
      decide +kernel
    obtain ⟨noOverflow, small⟩ := inRange left few
    have less := leads.size_lt.trans_le ((Nat.mul_le_mul_right _ fits).trans small)
    exact iff_of_false (fun overflows => noOverflow (overflows.mono (Nat.le_pred_of_lt fits)))
      less.not_ge
  · have first : Binary64.Overflows 17976931348623156225 289 ∧
        ¬Binary64.Overflows 17976931348623156224 289 := by
      unfold Binary64.Overflows
      decide +kernel
    rw [scalingBound, ← Nat.le_div_iff_mul_le (tenTo_pos 289), leads.quotient]
    refine ⟨fun overflows => ?_, fun atLeast => first.1.mono atLeast⟩
    by_contra less
    exact first.2 (overflows.mono (Nat.le_of_lt_succ (Nat.not_le.mp less)))
  · have atLeast := leads.le_lead (Nat.zero_lt_of_lt many)
    have large : scalingBound ≤ size := by
      have base : scalingBound ≤ 1844674407370955161 * tenTo 290 := by decide +kernel
      have powers : tenTo 290 ≤ tenTo left := Binary64.tenTo_le many
      exact base.trans ((Nat.mul_le_mul atLeast powers).trans leads.le_size)
    have outOfRange : ∀ places ≤ Binary64.greatestPower, 289 < places →
        Binary64.Overflows 1844674407370955161 places := by
      unfold Binary64.Overflows
      decide +kernel
    refine iff_of_true ?_ large
    by_cases beyond : Binary64.greatestPower < left
    · exact .inl beyond
    · exact (outOfRange left (Nat.not_lt.mp beyond) many).mono atLeast

/-- A number that is kept as an integer: digits alone, and no minus before a zero. -/
structure IsInteger (numeral : Numeral) (value : Int) : Prop where
  noFraction : numeral.fraction = []
  noExponent : numeral.exponent = none
  sign : decide (value < 0) = numeral.negative
  size : value.natAbs = Nat.ofDigitChars 10 numeral.whole 0
  fits : value.natAbs < twoTo 64

theorem isInteger_of_integer? {numeral : Numeral} {value : Int}
    (isInteger : numeral.integer? = some value) : IsInteger numeral value := by
  have wide : twoTo 63 < twoTo 64 := by decide
  simp only [Numeral.integer?] at isInteger
  generalize size : Nat.ofDigitChars 10 numeral.whole 0 = digits at isInteger
  split at isInteger
  next bare =>
      split at isInteger
      next negative =>
          split at isInteger
          next bounds =>
              cases isInteger
              refine ⟨bare.1, bare.2, ?_, ?_, ?_⟩
              · rw [negative, decide_eq_true_eq]
                omega
              · rw [Int.natAbs_neg, Int.natAbs_natCast, size]
              · omega
          next => exact nomatch isInteger
      next notNegative =>
          split at isInteger
          next bound =>
              cases isInteger
              refine ⟨bare.1, bare.2, ?_, ?_, ?_⟩
              · rw [Bool.eq_false_iff.mpr notNegative, decide_eq_false_iff_not]
                omega
              · rw [Int.natAbs_natCast, size]
              · omega
          next => exact nomatch isInteger
  next => exact nomatch isInteger

theorem isInteger_of_quantity? {numeral : Numeral} {value : Int}
    (isQuantity : numeral.quantity? = some (.integer value)) : IsInteger numeral value := by
  unfold Numeral.quantity? at isQuantity
  split at isQuantity
  next isInteger =>
      cases isQuantity
      exact isInteger_of_integer? isInteger
  next =>
      obtain ⟨_, _, impossible⟩ := Option.map_eq_some_iff.mp isQuantity
      exact nomatch impossible

/-- An integer within 64 bits, signed or unsigned, is kept. -/
theorem quantity?_int {number : Int} (least : -(twoTo 63 : Int) ≤ number)
    (greatest : number < (twoTo 64 : Int)) :
    Numeral.quantity? ⟨decide (number < 0), Nat.toDigits 10 number.natAbs, [], none⟩ =
      some (.integer number) := by
  simp only [Numeral.quantity?, Numeral.integer?, and_self, if_true,
    Nat.ofDigitChars_ten_toDigits, decide_eq_true_eq]
  by_cases negative : number < 0
  · have size : 0 < number.natAbs ∧ number.natAbs ≤ twoTo 63 := by omega
    have same : -(number.natAbs : Int) = number := by omega
    rw [if_pos negative, if_pos size, same]
  · have size : number.natAbs < twoTo 64 := by omega
    have same : (number.natAbs : Int) = number := by omega
    rw [if_neg negative, if_pos size, same]

/-- Any other integer is converted to a real: its leading digits times the power of ten of the
digits left over, as long as that is in range. -/
theorem quantity?_beyond {number : Int}
    (beyond : ¬(-(twoTo 63 : Int) ≤ number ∧ number < (twoTo 64 : Int))) :
    ∃ lead left, LeadingDigits number.natAbs lead left ∧
      Numeral.quantity? ⟨decide (number < 0), Nat.toDigits 10 number.natAbs, [], none⟩ =
        if scalingBound ≤ number.natAbs then none
        else some (.real (.ofMagnitude (decide (number < 0))
          ((Binary64.ofNatural lead).times (Binary64.powerOfTen left)).magnitude)) := by
  have leads := leadingDigits_gatherDigits number.natAbs
  refine ⟨_, _, leads, ?_⟩
  have noInteger : Numeral.integer?
      ⟨decide (number < 0), Nat.toDigits 10 number.natAbs, [], none⟩ = none := by
    simp only [Numeral.integer?, and_self, if_true, Nat.ofDigitChars_ten_toDigits,
      decide_eq_true_eq]
    by_cases negative : number < 0
    · rw [if_pos negative, if_neg (by omega)]
    · rw [if_neg negative, if_neg (by omega)]
  have small : (0 : Int).natAbs < twoTo 31 := by decide
  have places (left : List Char) :
      (left.length : Int) + ([] : List Char).length - ([] : List Char).length + 0 =
        left.length := by
    rw [List.length_nil]
    omega
  simp only [Numeral.quantity?, noInteger, Numeral.real?, Numeral.gathered, gatherDigits,
    Option.getD_none, small, if_true, places, Option.map_map]
  have wide := twoTo_pos 64
  have scaled := Binary64.scaled?_natCast (leads.lead_pos (by omega))
    (gatherDigits 0 (Nat.toDigits 10 number.natAbs)).2.length
  rw [leads.overflows_iff] at scaled
  by_cases large : scalingBound ≤ number.natAbs
  · rw [if_pos large, scaled.1 large]
    rfl
  · rw [if_neg large, scaled.2 large]
    rfl

/-! ### Reals -/

theorem gathered_lt (numeral : Numeral) : numeral.gathered.1 < twoTo 64 :=
  gatherDigits_lt (gatherDigits_lt (by decide) numeral.whole) numeral.fraction

theorem isFinite_of_real? {numeral : Numeral} {value : Binary64}
    (isReal : numeral.real? = some value) : value.isFinite = true := by
  have few := gathered_lt numeral
  unfold Numeral.real? at isReal
  obtain ⟨size, isSize, rfl⟩ := Option.map_eq_some_iff.mp isReal
  refine Binary64.isFinite_ofMagnitude (of_decide_eq_true (?_ : size.isFinite = true))
  split at isSize
  next => exact Binary64.isFinite_of_scaled? few.le isSize
  next =>
      split at isSize
      next => exact nomatch isSize
      next =>
          rw [← Option.some.inj isSize]
          exact Binary64.isFinite_ofMagnitude (by decide)

theorem isFinite_of_quantity? {numeral : Numeral} {quantity : Quantity}
    (isQuantity : numeral.quantity? = some quantity) : quantity.toReal.isFinite = true := by
  unfold Numeral.quantity? at isQuantity
  split at isQuantity
  next number isInteger =>
      cases isQuantity
      have few := (isInteger_of_integer? isInteger).fits
      exact Binary64.isFinite_ofMagnitude
        (of_decide_eq_true ((Binary64.atMost_ofNatural few.le).isFinite (by decide)))
  next =>
      obtain ⟨value, isReal, rfl⟩ := Option.map_eq_some_iff.mp isQuantity
      exact isFinite_of_real? isReal

/-- The real nearest to a number as it is written. -/
def Numeral.nearest? (numeral : Numeral) : Option Binary64 :=
  Binary64.ofDecimal? numeral.negative
    (Nat.ofDigitChars 10 (numeral.whole ++ numeral.fraction) 0)
    (numeral.exponent.getD 0 - numeral.fraction.length)

/-- A number of few digits and of a small power of ten. -/
structure Numeral.IsShort (numeral : Numeral) : Prop where
  digits : Nat.ofDigitChars 10 (numeral.whole ++ numeral.fraction) 0 < twoTo 53
  places : (numeral.exponent.getD 0 - numeral.fraction.length).natAbs ≤ 22
  exponent : (numeral.exponent.getD 0).natAbs < twoTo 31

theorem Numeral.IsShort.gathered_eq {numeral : Numeral} (short : numeral.IsShort) :
    numeral.gathered = (Nat.ofDigitChars 10 (numeral.whole ++ numeral.fraction) 0,
      -(numeral.fraction.length : Int)) := by
  have few := short.digits.trans (by decide : twoTo 53 < twoTo 64)
  rw [Nat.ofDigitChars_append] at few ⊢
  have wholeFew : Nat.ofDigitChars 10 numeral.whole 0 < twoTo 64 :=
    ((Nat.le_mul_of_pos_left _ (Nat.pow_pos (by decide))).trans
      (le_ofDigitChars numeral.fraction _)).trans_lt few
  simp only [Numeral.gathered, gatherDigits_of_lt wholeFew, gatherDigits_of_lt few,
    List.length_nil]
  exact congrArg _ (by omega)

/-- A short number is converted to the real nearest to it. -/
theorem Numeral.IsShort.real?_eq_nearest? {numeral : Numeral} (short : numeral.IsShort) :
    numeral.real? = numeral.nearest? := by
  have places : -(numeral.fraction.length : Int) + numeral.exponent.getD 0 =
      numeral.exponent.getD 0 - numeral.fraction.length := by omega
  simp only [Numeral.real?, short.gathered_eq, short.exponent, if_true, places, Numeral.nearest?,
    Binary64.scaled?_eq_ofDecimal? short.digits short.places, Binary64.map_ofDecimal?]

/-- The real nearest to what is written for a real is the real itself. -/
theorem Denotes.nearest?_eq {numeral : Numeral} {value : Binary64} (denotes : Denotes numeral value)
    (finite : value.isFinite = true) : numeral.nearest? = some value := by
  rw [Numeral.nearest?, denotes.sign]
  cases zero : value.isZero with
  | true =>
      rw [denotes.digits_zero zero]
      exact Binary64.ofDecimal?_zero zero _
  | false => exact Binary64.ofDecimal?_eq finite zero (denotes.rounds zero)

theorem Denotes.quantity?_eq {numeral : Numeral} {value : Binary64}
    (denotes : Denotes numeral value) (finite : value.isFinite = true) (short : numeral.IsShort) :
    numeral.quantity? = some (.real value) := by
  have noInteger : numeral.integer? = none := if_neg denotes.marked
  rw [Numeral.quantity?, noInteger, short.real?_eq_nearest?, denotes.nearest?_eq finite]
  rfl

end ScopeLint.Json
