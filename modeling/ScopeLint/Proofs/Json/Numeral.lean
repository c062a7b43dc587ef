import ScopeLint.Json.Basic
import ScopeLint.Proofs.Json.Digits
import ScopeLint.Proofs.Number.Shortest

/-!
Numbers are scanned as they were written. What is written for an integer or a finite real is a
number of the grammar, and the decimal that is written for a real rounds to it.
-/

set_option autoImplicit false

namespace ScopeLint.Json

/-! ### Decimal digits -/

theorem isDigit_of_mem_decimal {number : Nat} (char : Char)
    (isMember : char ∈ Nat.toDigits 10 number) : char.isDigit = true :=
  Nat.isDigit_of_mem_toDigits (by decide) (by decide) isMember

theorem digitChar_of_isDigit {char : Char} (isDigit : char.isDigit = true) :
    char.toNat - '0'.toNat < 10 ∧ Nat.digitChar (char.toNat - '0'.toNat) = char := by
  have digit : ∀ value < 10, Nat.digitChar value = Char.ofNat (value + '0'.toNat) := by decide
  have bounds : '0'.toNat ≤ char.toNat ∧ char.toNat ≤ '9'.toNat := by
    simpa [Char.isDigit, UInt32.le_iff_toNat_le] using isDigit
  have nine : '9'.toNat = '0'.toNat + 9 := by decide
  have small : char.toNat - '0'.toNat < 10 := by omega
  refine ⟨small, ?_⟩
  rw [digit _ small, Nat.sub_add_cancel bounds.1, Char.ofNat_toNat]

/-- A positive number has no leading zero. -/
theorem head?_toDigits_ne_zero {number : Nat} (positive : 0 < number) :
    (Nat.toDigits 10 number).head? ≠ some '0' := by
  induction number using Nat.strongRecOn with
  | ind number ih =>
      by_cases small : number < 10
      · rw [Nat.toDigits_of_lt_base small, List.head?_cons]
        intro isZero
        have := Nat.digitChar_eq_zero.mp (Option.some.inj isZero)
        omega
      · rw [Nat.toDigits_of_base_le (by decide) (by omega),
          List.head?_append_of_ne_nil _ Nat.toDigits_ne_nil]
        exact ih (number / 10) (by omega) (by omega)

theorem isWhole_toDigits (number : Nat) : IsWhole (Nat.toDigits 10 number) where
  nonempty := Nat.toDigits_ne_nil
  allDigits := isDigit_of_mem_decimal
  noLeadingZero := by
    intro isZero
    cases number with
    | zero => exact Nat.toDigits_zero 10
    | succ number => exact absurd isZero (head?_toDigits_ne_zero (Nat.succ_pos number))

/-- The first digits of a number, and more digits after them, stand before a point too. -/
theorem IsWhole.ofDigits {number : Nat} (positive : 0 < number) {digits : List Char}
    (nonempty : digits ≠ []) (sameHead : digits.head? = (Nat.toDigits 10 number).head?)
    (allDigits : ∀ char ∈ digits, char.isDigit = true) : IsWhole digits where
  nonempty := nonempty
  allDigits := allDigits
  noLeadingZero := by
    intro isZero
    rw [sameHead] at isZero
    exact absurd isZero (head?_toDigits_ne_zero positive)

/-! ### Integers -/

theorem toString_int_toList (number : Int) :
    (toString number).toList =
      signChars (decide (number < 0)) ++ Nat.toDigits 10 number.natAbs := by
  cases number with
  | ofNat size =>
      have notNegative : ¬ Int.ofNat size < 0 := by
        have : Int.ofNat size = (size : Int) := rfl
        omega
      change (Nat.repr size).toList = _
      rw [Nat.toList_repr, decide_eq_false notNegative]
      rfl
  | negSucc size =>
      have negative : Int.negSucc size < 0 := Int.negSucc_lt_zero size
      change ("-" ++ Nat.repr (size + 1)).toList = _
      rw [String.toList_append, Nat.toList_repr, decide_eq_true negative]
      rfl

theorem spellsNumeral_int (number : Int) :
    SpellsNumeral ⟨decide (number < 0), Nat.toDigits 10 number.natAbs, [], none⟩
      (toString number).toList := by
  have spells : SpellsNumeral ⟨decide (number < 0), Nat.toDigits 10 number.natAbs, [], none⟩ _ :=
    .mk (isWhole_toDigits number.natAbs) .none .none
  rw [List.nil_append, List.append_nil] at spells
  rw [toString_int_toList]
  exact spells

theorem scanNumeral?_int (number : Int) {rest : List Char} (ends : NumberEnds rest) :
    scanNumeral? ((toString number).toList ++ rest) =
      some (⟨decide (number < 0), Nat.toDigits 10 number.natAbs, [], none⟩, rest) :=
  scanNumeral?_spelled (spellsNumeral_int number) ends

/-- The sign of an exponent, which a format may leave out where it is positive. -/
def exponentSign (signed : Bool) (order : Int) : List Char :=
  if order < 0 then ['-'] else if signed = true then ['+'] else []

def exponentChars (signed : Bool) (order : Int) : List Char :=
  'e' :: exponentSign signed order ++ Nat.toDigits 10 order.natAbs

theorem spellsExponent_exponentChars (signed : Bool) (order : Int) :
    SpellsExponent (some order) (exponentChars signed order) := by
  have isMark : 'e' = 'e' ∨ 'e' = 'E' := .inl rfl
  have nonempty : Nat.toDigits 10 order.natAbs ≠ [] := Nat.toDigits_ne_nil
  have value := Nat.ofDigitChars_ten_toDigits (n := order.natAbs)
  unfold exponentChars exponentSign
  split
  next below =>
      have spells := SpellsExponent.minus isMark nonempty isDigit_of_mem_decimal
      have negated : -(order.natAbs : Int) = order := by omega
      rw [value, negated] at spells
      exact spells
  next notBelow =>
      have same : (order.natAbs : Int) = order := by omega
      split
      next =>
          have spells := SpellsExponent.plus isMark nonempty isDigit_of_mem_decimal
          rw [value, same] at spells
          exact spells
      next =>
          have spells := SpellsExponent.unsigned isMark nonempty isDigit_of_mem_decimal
          rw [value, same] at spells
          exact spells

/-! ### Reals -/

/-- The decimal that stands in digits with a point among them and an exponent. -/
def decimalOf (whole fraction : List Char) (exponent : Int) : ℚ :=
  Nat.ofDigitChars 10 (whole ++ fraction) 0 * 10 ^ (exponent - fraction.length)

/-- A number that is written for a value: no integer, of its sign, and near enough to it. -/
structure Denotes (numeral : Numeral) (value : Binary64) : Prop where
  sign : numeral.negative = value.negative
  marked : ¬(numeral.fraction = [] ∧ numeral.exponent = none)
  digits_zero : value.isZero = true → Nat.ofDigitChars 10 (numeral.whole ++ numeral.fraction) 0 = 0
  rounds : value.isZero = false →
    value.RoundsFrom (decimalOf numeral.whole numeral.fraction (numeral.exponent.getD 0))

/-- Digits around a point that spell a decimal. -/
structure SpellsPlain (decimal : ℚ) (whole fraction : List Char) : Prop where
  isWhole : IsWhole whole
  nonempty : fraction ≠ []
  allDigits : ∀ char ∈ fraction, char.isDigit = true
  decimal_eq : decimalOf whole fraction 0 = decimal

private theorem isDigit_of_mem_zeros {count : Nat} (char : Char)
    (isMember : char ∈ List.replicate count '0') : char.isDigit = true := by
  rw [List.eq_of_mem_replicate isMember]
  rfl

private theorem spellsPlain_whole {digits : Nat} (positive : 0 < digits) (count : Nat) :
    SpellsPlain (digits * 10 ^ (count : Int))
      (Nat.toDigits 10 digits ++ List.replicate count '0') ['0'] where
  isWhole := by
    apply IsWhole.ofDigits positive
    · exact List.append_ne_nil_of_left_ne_nil Nat.toDigits_ne_nil _
    · exact List.head?_append_of_ne_nil _ Nat.toDigits_ne_nil
    · intro char isMember
      rcases List.mem_append.mp isMember with isDigit | isZero
      · exact isDigit_of_mem_decimal char isDigit
      · exact isDigit_of_mem_zeros char isZero
  nonempty := List.cons_ne_nil _ _
  allDigits := isWhole_zero.allDigits
  decimal_eq := by
    have asTenth : ['0'] = List.replicate 1 '0' := rfl
    rw [decimalOf, asTenth, Nat.ofDigitChars_append, Nat.ofDigitChars_append,
      Nat.ofDigitChars_ten_toDigits, Nat.ofDigitChars_replicate_zero,
      Nat.ofDigitChars_replicate_zero, List.length_replicate]
    push_cast
    rw [zpow_natCast]
    norm_num
    ring

private theorem spellsPlain_inside {digits point : Nat} (positive : 0 < digits)
    (someBefore : 0 < point) (someAfter : point < (Nat.toDigits 10 digits).length) :
    SpellsPlain (digits * 10 ^ ((point : Int) - (Nat.toDigits 10 digits).length))
      ((Nat.toDigits 10 digits).take point) ((Nat.toDigits 10 digits).drop point) where
  isWhole := by
    apply IsWhole.ofDigits positive
    · rw [Ne, List.take_eq_nil_iff, not_or]
      exact ⟨someBefore.ne', Nat.toDigits_ne_nil⟩
    · rw [List.head?_take, if_neg someBefore.ne']
    · intro char isMember
      exact isDigit_of_mem_decimal char (List.mem_of_mem_take isMember)
  nonempty := by
    rw [Ne, List.drop_eq_nil_iff]
    omega
  allDigits := by
    intro char isMember
    exact isDigit_of_mem_decimal char (List.mem_of_mem_drop isMember)
  decimal_eq := by
    have places : (0 : Int) - ((Nat.toDigits 10 digits).drop point).length =
        point - (Nat.toDigits 10 digits).length := by
      rw [List.length_drop]
      omega
    rw [decimalOf, List.take_append_drop, Nat.ofDigitChars_ten_toDigits, places]

private theorem spellsPlain_small (digits count : Nat) :
    SpellsPlain (digits * 10 ^ (-((count : Int) + (Nat.toDigits 10 digits).length))) ['0']
      (List.replicate count '0' ++ Nat.toDigits 10 digits) where
  isWhole := isWhole_zero
  nonempty := List.append_ne_nil_of_right_ne_nil _ Nat.toDigits_ne_nil
  allDigits := by
    intro char isMember
    rcases List.mem_append.mp isMember with isZero | isDigit
    · exact isDigit_of_mem_zeros char isZero
    · exact isDigit_of_mem_decimal char isDigit
  decimal_eq := by
    have asZeros : ['0'] = List.replicate 1 '0' := rfl
    have places : (0 : Int) - (List.replicate count '0' ++ Nat.toDigits 10 digits).length =
        -((count : Int) + (Nat.toDigits 10 digits).length) := by
      rw [List.length_append, List.length_replicate]
      omega
    rw [decimalOf, places, asZeros, Nat.ofDigitChars_append, Nat.ofDigitChars_append,
      Nat.ofDigitChars_replicate_zero, Nat.ofDigitChars_replicate_zero, Nat.mul_zero,
      Nat.ofDigitChars_ten_toDigits]

theorem plainNotation_parts {digits : Nat} (positive : 0 < digits) (exponent : Int) :
    ∃ whole fraction,
      plainNotation (Nat.toDigits 10 digits) exponent = whole ++ '.' :: fraction ∧
        SpellsPlain (digits * 10 ^ exponent) whole fraction := by
  simp only [plainNotation]
  split
  next upward =>
      rcases Int.eq_ofNat_of_zero_le upward with ⟨count, rfl⟩
      exact ⟨_, _, rfl, spellsPlain_whole positive count⟩
  next =>
      split
      next =>
          refine ⟨_, _, rfl, ?_⟩
          have spells := @spellsPlain_inside digits
            ((Nat.toDigits 10 digits).length + exponent).toNat positive (by omega) (by omega)
          have places : ((((Nat.toDigits 10 digits).length + exponent).toNat : Nat) : Int) -
              (Nat.toDigits 10 digits).length = exponent := by omega
          rw [places] at spells
          exact spells
      next =>
          refine ⟨['0'], _, rfl, ?_⟩
          have spells := spellsPlain_small digits
            (-((Nat.toDigits 10 digits).length + exponent)).toNat
          have places : -(((-((Nat.toDigits 10 digits).length + exponent)).toNat : Int) +
              (Nat.toDigits 10 digits).length) = exponent := by omega
          rw [places] at spells
          exact spells

theorem spellsFraction_of_allDigits {fraction : List Char} (allDigits : AllDigits fraction) :
    SpellsFraction fraction (if fraction = [] then [] else '.' :: fraction) := by
  split
  next isEmpty =>
      rw [isEmpty]
      exact .none
  next nonempty => exact .some nonempty allDigits

theorem exponentNotation_parts (signed : Bool) {digits : Nat} (positive : 0 < digits)
    (order : Int) :
    ∃ whole fraction, exponentNotation signed (Nat.toDigits 10 digits) order =
        whole ++ ((if fraction = [] then [] else '.' :: fraction) ++
          exponentChars signed order) ∧
      IsWhole whole ∧ (∀ char ∈ fraction, char.isDigit = true) ∧
      decimalOf whole fraction order =
        digits * 10 ^ (order - (Nat.toDigits 10 digits).length + 1) := by
  have someDigit : 0 < (Nat.toDigits 10 digits).length := Nat.length_toDigits_pos
  refine ⟨(Nat.toDigits 10 digits).take 1, (Nat.toDigits 10 digits).drop 1, ?_, ?_, ?_, ?_⟩
  · unfold exponentNotation exponentChars exponentSign
    simp only [List.drop_eq_nil_iff, List.append_assoc, List.cons_append]
  · refine .ofDigits positive ?_ ?_ ?_
    · rw [Ne, List.take_eq_nil_iff, not_or]
      exact ⟨Nat.one_ne_zero, Nat.toDigits_ne_nil⟩
    · rw [List.head?_take, if_neg Nat.one_ne_zero]
    · intro char isMember
      exact isDigit_of_mem_decimal char (List.mem_of_mem_take isMember)
  · intro char isMember
    exact isDigit_of_mem_decimal char (List.mem_of_mem_drop isMember)
  · have places : order - ((Nat.toDigits 10 digits).drop 1).length =
        order - (Nat.toDigits 10 digits).length + 1 := by
      rw [List.length_drop]
      omega
    rw [decimalOf, List.take_append_drop, Nat.ofDigitChars_ten_toDigits, places]

/-- Every finite value is written as a number that denotes it, in any format. -/
theorem spellsNumeral_finiteChars (format : FloatFormat) {value : Binary64}
    (finite : value.isFinite = true) :
    ∃ numeral, SpellsNumeral numeral (format.finiteChars value) ∧ Denotes numeral value := by
  unfold FloatFormat.finiteChars
  cases zero : value.isZero with
  | true =>
      have spells : SpellsNumeral ⟨value.negative, ['0'], ['0'], none⟩ _ :=
        .mk isWhole_zero (.some isWhole_zero.nonempty isWhole_zero.allDigits) .none
      exact ⟨_, spells, rfl, fun both => List.cons_ne_nil _ _ both.1, fun _ => rfl,
        fun nonzero => absurd (zero.symm.trans nonzero) (by decide)⟩
  | false =>
      have notZero (isZero : value.isZero = true) : False :=
        Bool.false_ne_true (zero.symm.trans isZero)
      have rounds := Binary64.roundsFrom_shortest format.tie zero
      have positive := (rounds.order finite zero).1
      generalize value.shortest format.tie = decimal at rounds positive
      simp only [Bool.false_eq_true, if_false]
      split
      next =>
          rcases plainNotation_parts positive decimal.exponent with
            ⟨whole, fraction, written, spells⟩
          refine ⟨⟨value.negative, whole, fraction, none⟩, ?_, rfl,
            fun both => spells.nonempty both.1, fun isZero => (notZero isZero).elim, fun _ => ?_⟩
          · have spelled : SpellsNumeral ⟨value.negative, whole, fraction, none⟩ _ :=
              .mk spells.isWhole (.some spells.nonempty spells.allDigits) .none
            rw [List.append_nil] at spelled
            rw [written]
            exact spelled
          · rw [← spells.decimal_eq] at rounds
            exact rounds
      next =>
          obtain ⟨whole, fraction, written, isWhole, allDigits, same⟩ :=
            exponentNotation_parts format.signedExponent positive
              ((Nat.toDigits 10 decimal.digits).length + decimal.exponent - 1)
          have places : ((Nat.toDigits 10 decimal.digits).length + decimal.exponent - 1) -
              (Nat.toDigits 10 decimal.digits).length + 1 = decimal.exponent := by omega
          rw [places] at same
          generalize ((Nat.toDigits 10 decimal.digits).length : Int) + decimal.exponent - 1 =
            order at written same ⊢
          refine ⟨⟨value.negative, whole, fraction, some order⟩, ?_, rfl,
            fun both => Option.some_ne_none _ both.2, fun isZero => (notZero isZero).elim,
            fun _ => ?_⟩
          · rw [written]
            exact .mk isWhole (spellsFraction_of_allDigits allDigits)
              (spellsExponent_exponentChars format.signedExponent order)
          · rw [← same] at rounds
            exact rounds

/-- What any format gives a finite value is scanned as a number that denotes the value. -/
theorem scanNumeral?_finiteChars (format : FloatFormat) {value : Binary64}
    (finite : value.isFinite = true) {rest : List Char} (ends : NumberEnds rest) :
    ∃ numeral, scanNumeral? (format.finiteChars value ++ rest) = some (numeral, rest) ∧
      Denotes numeral value := by
  obtain ⟨numeral, spells, denotes⟩ := spellsNumeral_finiteChars format finite
  exact ⟨numeral, scanNumeral?_spelled spells ends, denotes⟩

end ScopeLint.Json
