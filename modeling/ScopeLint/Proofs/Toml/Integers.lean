import ScopeLint.Proofs.Json.Numeral
import ScopeLint.Proofs.Toml.Grammar

/-!
An integer is read in each of its spellings. What may follow a value on its line goes on with no
digit, and neither a date nor a time begins like an integer: there a mark stands after the first
digits.
-/

set_option autoImplicit false

namespace ScopeLint.Toml

/-! ### What follows a value -/

/-- With these a blank, a comment or a line end begins. -/
def valueEnds : List Char :=
  [' ', '\t', '#', '\n', '\r']

/-- The text that may stand after a value, which may also be over. -/
def EndsValue (text : List Char) : Prop :=
  ∀ char ∈ text.head?, char ∈ valueEnds

theorem EndsValue.not_cons {char : Char} {rest : List Char} (ends : EndsValue (char :: rest))
    (other : char ∉ valueEnds) : False :=
  other (ends char rfl)

theorem eq_false_of_valueEnds {isOne : Char → Bool} (none : valueEnds.any isOne = false)
    {char : Char} (isEnd : char ∈ valueEnds) : isOne char = false :=
  Bool.eq_false_iff.mpr (List.any_eq_false.mp none char isEnd)

/-! ### Digits -/

section Digits

variable {isDigit : Char → Bool}

theorem SpellsDigits.exists_cons {digits text : List Char}
    (spelled : SpellsDigits isDigit digits text) :
    ∃ char, isDigit char = true ∧ digits.head? = some char ∧ text.head? = some char := by
  cases spelled with
  | one digit => exact ⟨_, digit, rfl, rfl⟩
  | cons digit => exact ⟨_, digit, rfl, rfl⟩
  | separated digit => exact ⟨_, digit, rfl, rfl⟩

theorem SpellsDigits.mem_text {digits text : List Char}
    (spelled : SpellsDigits isDigit digits text) {char : Char} (member : char ∈ text) :
    isDigit char = true ∨ char = '_' := by
  induction spelled with
  | one digit =>
      rw [List.mem_singleton.mp member]
      exact .inl digit
  | cons digit others ih =>
      rcases List.mem_cons.mp member with rfl | member
      · exact .inl digit
      · exact ih member
  | separated digit others ih =>
      rcases List.mem_cons.mp member with rfl | member
      · exact .inl digit
      rcases List.mem_cons.mp member with rfl | member
      · exact .inr rfl
      · exact ih member

theorem scanMoreDigits?_digit {char : Char} (digit : isDigit char = true) (rest : List Char) :
    scanMoreDigits? isDigit (char :: rest) =
      (scanMoreDigits? isDigit rest).map fun (more, rest) => (char :: more, rest) := by
  rw [scanMoreDigits?.eq_def]
  exact if_pos digit

/-- An underscore before a digit is passed over. -/
theorem scanMoreDigits?_separator {char : Char} (noDigit : isDigit '_' = false)
    (digit : isDigit char = true) (rest : List Char) :
    scanMoreDigits? isDigit ('_' :: char :: rest) = scanMoreDigits? isDigit (char :: rest) := by
  rw [scanMoreDigits?_digit digit, scanMoreDigits?.eq_def]
  simp only [noDigit, digit, Bool.false_eq_true, if_false, if_true]

theorem scanMoreDigits?_stops {rest : List Char}
    (stops : valueEnds.any isDigit = false)
    (ends : EndsValue rest) : scanMoreDigits? isDigit rest = some ([], rest) := by
  cases rest with
  | nil => rfl
  | cons char rest =>
      have isEnd := ends char rfl
      have noUnderscore : char ≠ '_' := by
        rintro rfl
        exact absurd isEnd (by decide)
      rw [scanMoreDigits?.eq_def]
      simp only [eq_false_of_valueEnds stops isEnd, noUnderscore, Bool.false_eq_true, if_false]

theorem scanDigits?_spelled {digits text rest : List Char}
    (spelled : SpellsDigits isDigit digits text) (noDigit : isDigit '_' = false)
    (stops : valueEnds.any isDigit = false)
    (ends : EndsValue rest) : scanDigits? isDigit (text ++ rest) = some (digits, rest) := by
  have more : scanMoreDigits? isDigit (text ++ rest) = some (digits, rest) := by
    induction spelled with
    | one digit =>
        rw [List.singleton_append, scanMoreDigits?_digit digit,
          scanMoreDigits?_stops stops ends]
        rfl
    | cons digit others ih =>
        rw [List.cons_append, scanMoreDigits?_digit digit, ih]
        rfl
    | separated digit others ih =>
        obtain ⟨next, nextDigit, -, isFirst⟩ := others.exists_cons
        obtain ⟨later, rfl⟩ := List.head?_eq_some_iff.mp isFirst
        rw [List.cons_append, List.cons_append, scanMoreDigits?_digit digit, List.cons_append,
          scanMoreDigits?_separator noDigit nextDigit, ← List.cons_append, ih]
        rfl
  obtain ⟨first, digit, -, isFirst⟩ := spelled.exists_cons
  obtain ⟨later, rfl⟩ := List.head?_eq_some_iff.mp isFirst
  rw [List.cons_append, scanMoreDigits?_digit digit] at more
  rw [List.cons_append, scanDigits?, if_pos digit, more]

theorem spellsDigits_self {digits : List Char} (nonempty : digits ≠ [])
    (allDigits : ∀ char ∈ digits, isDigit char = true) :
    SpellsDigits isDigit digits digits := by
  induction digits with
  | nil => exact absurd rfl nonempty
  | cons char digits ih =>
      obtain ⟨digit, others⟩ := List.forall_mem_cons.mp allDigits
      cases digits with
      | nil => exact .one digit
      | cons next digits => exact .cons digit (ih (List.cons_ne_nil _ _) others)

end Digits

/-- The plain way to write a number: its decimal digits, without leading zeros. -/
theorem spellsInteger_toDigits (number : Nat) :
    SpellsInteger number (Nat.toDigits 10 number) := by
  have isWhole := Json.isWhole_toDigits number
  have spelled := SpellsInteger.unsigned
    ⟨spellsDigits_self isWhole.nonempty isWhole.allDigits, isWhole.noLeadingZero⟩
  rw [Nat.ofDigitChars_ten_toDigits] at spelled
  exact spelled

/-! ### Decimal integers -/

theorem fitsInteger_iff (value : Int) : fitsInteger value = true ↔
    -9223372036854775808 ≤ value ∧ value ≤ 9223372036854775807 := by
  simp only [fitsInteger, Bool.and_eq_true, decide_eq_true_iff]

theorem SpellsDecimal.exists_cons {digits text : List Char}
    (spelled : SpellsDecimal digits text) :
    ∃ char rest, char.isDigit = true ∧ text = char :: rest := by
  obtain ⟨char, digit, -, isFirst⟩ := spelled.spelled.exists_cons
  obtain ⟨rest, rfl⟩ := List.head?_eq_some_iff.mp isFirst
  exact ⟨char, rest, digit, rfl⟩

theorem SpellsDecimal.isDigit_of_append {digits text rest more : List Char} {char : Char}
    (spelled : SpellsDecimal digits text) (same : text ++ rest = char :: more) :
    char.isDigit = true := by
  obtain ⟨first, later, digit, rfl⟩ := spelled.exists_cons
  rw [List.cons_append] at same
  rw [← (List.cons.inj same).1]
  exact digit

theorem SpellsDecimal.eq_zero {digits rest : List Char}
    (spelled : SpellsDecimal digits ('0' :: rest)) : digits = ['0'] ∧ rest = [] := by
  obtain ⟨char, -, isDigits, isText⟩ := spelled.spelled.exists_cons
  cases isText
  have alone := spelled.noLeadingZero isDigits
  refine ⟨alone, ?_⟩
  rw [alone] at spelled
  cases spelled.spelled with
  | one => rfl
  | cons digit others => cases others
  | separated digit others => cases others

theorem scanDecimal?_spelled {digits text rest : List Char} (spelled : SpellsDecimal digits text)
    (ends : EndsValue rest) : scanDecimal? (text ++ rest) = some (digits, rest) := by
  obtain ⟨char, later, digit, rfl⟩ := spelled.exists_cons
  by_cases isZero : char = '0'
  · subst isZero
    obtain ⟨rfl, rfl⟩ := spelled.eq_zero
    rfl
  · have scanned := scanDigits?_spelled spelled.spelled rfl rfl ends
    rw [scanDecimal?.eq_def]
    split
    next same => exact absurd (List.cons.inj same).1 isZero
    next => exact scanned

theorem EndsValue.scanFraction? {text : List Char} (ends : EndsValue text) :
    scanFraction? text = some ([], text) := by
  unfold Toml.scanFraction?
  split
  next => exact (ends.not_cons (by decide)).elim
  next => rfl

theorem EndsValue.scanExponent? {text : List Char} (ends : EndsValue text) :
    scanExponent? text = some (none, text) := by
  cases text with
  | nil => rfl
  | cons char rest =>
      have noMark : ¬(char = 'e' ∨ char = 'E') := by
        rintro (rfl | rfl) <;> exact ends.not_cons (by decide)
      exact if_neg noMark

theorem scanSigned?_spelled {negative : Bool} {digits text rest : List Char}
    (spelled : SpellsDecimal digits text) (ends : EndsValue rest) {value : Int}
    (isValue : value = if negative = true then -(Nat.ofDigitChars 10 digits 0 : Int)
      else Nat.ofDigitChars 10 digits 0)
    (fits : fitsInteger value = true) :
    scanSigned? negative (text ++ rest) = some (.integer value, rest) := by
  have scanned := scanDecimal?_spelled spelled ends
  have unsigned : scanUnsigned? negative (text ++ rest) = some (.integer value, rest) := by
    unfold scanUnsigned?
    simp only [scanned, ends.scanFraction?, ends.scanExponent?, and_self, if_true, ← isValue, fits]
  have noSpecial : scanSpecial? (text ++ rest) = none := by
    unfold scanSpecial?
    split
    next same => exact absurd (spelled.isDigit_of_append same) (by decide)
    next same => exact absurd (spelled.isDigit_of_append same) (by decide)
    next => rfl
  rw [scanSigned?, noSpecial, unsigned]
  rfl

/-! ### All integers -/

theorem scanRadix?_spelled {base : Nat} {digits text rest : List Char}
    (spelled : SpellsDigits (fun char => (digitOf? base char).isSome) digits text)
    (ends : EndsValue rest) (fits : fitsInteger (valueIn base digits) = true) :
    scanRadix? base (text ++ rest) = some (.integer (valueIn base digits), rest) := by
  have scanned := scanDigits?_spelled spelled rfl rfl ends
  unfold scanRadix?
  unfold digitOf? at scanned
  simp only [scanned]
  exact if_pos fits

/-- A decimal integer without a sign is not taken for one that announces its base. -/
theorem scanNumber?_unsigned {digits text rest : List Char} (spelled : SpellsDecimal digits text)
    (ends : EndsValue rest) : scanNumber? (text ++ rest) = scanSigned? false (text ++ rest) := by
  have noBase {letter : Char} {more : List Char} (same : text ++ rest = '0' :: letter :: more)
      (isLetter : letter ∉ valueEnds) : False := by
    obtain ⟨char, later, -, rfl⟩ := spelled.exists_cons
    rw [List.cons_append] at same
    obtain ⟨rfl, isRest⟩ := List.cons.inj same
    rw [spelled.eq_zero.2, List.nil_append] at isRest
    exact (isRest ▸ ends).not_cons isLetter
  unfold scanNumber?
  split
  next same => exact absurd (spelled.isDigit_of_append same) (by decide)
  next same => exact absurd (spelled.isDigit_of_append same) (by decide)
  next same => exact (noBase same (by decide)).elim
  next same => exact (noBase same (by decide)).elim
  next same => exact (noBase same (by decide)).elim
  next => rfl

theorem scanNumber?_spelled {value : Int} {text rest : List Char}
    (spelled : SpellsInteger value text) (fits : fitsInteger value = true)
    (ends : EndsValue rest) : scanNumber? (text ++ rest) = some (.integer value, rest) := by
  cases spelled with
  | unsigned spelled =>
      rw [scanNumber?_unsigned spelled ends]
      exact scanSigned?_spelled spelled ends rfl fits
  | plus spelled => exact scanSigned?_spelled spelled ends rfl fits
  | minus spelled => exact scanSigned?_spelled spelled ends rfl fits
  | based isBase spelled =>
      rw [List.cons_append, List.cons_append]
      unfold baseOf? at isBase
      split at isBase
      next =>
          cases isBase
          exact scanRadix?_spelled spelled ends fits
      next =>
          cases isBase
          exact scanRadix?_spelled spelled ends fits
      next =>
          cases isBase
          exact scanRadix?_spelled spelled ends fits
      next => cases isBase

/-! ### No dates and times -/

/-- A text that begins with digits and a mark after them. -/
def LeadsTo (mark : Char) (text : List Char) : Prop :=
  ∃ digits rest, digits ≠ [] ∧ (∀ char ∈ digits, char.isDigit = true) ∧
    text = digits ++ mark :: rest

theorem leadsTo_of_scanField? {digits least greatest value : Nat} {mark : Char}
    {text rest : List Char} (positive : digits ≠ 0)
    (scanned : scanField? digits least greatest text = some (value, mark :: rest)) :
    LeadsTo mark text := by
  unfold scanField? at scanned
  dsimp only at scanned
  split at scanned
  next isField =>
      obtain ⟨long, allDigits, -, -⟩ := isField
      refine ⟨text.take digits, rest, ?_, List.all_eq_true.mp allDigits, ?_⟩
      · intro none
        rw [none] at long
        exact positive long.symm
      · rw [← (Prod.mk.inj (Option.some.inj scanned)).2, List.take_append_drop]
  next => cases scanned

theorem startsDate_eq_false {text : List Char} (noDate : ¬LeadsTo '-' text) :
    startsDate text = false := by
  unfold startsDate
  split
  next scanned => exact absurd (leadsTo_of_scanField? (by decide) scanned) noDate
  next => rfl

theorem startsTime_eq_false {text : List Char} (noTime : ¬LeadsTo ':' text) :
    startsTime text = false := by
  unfold startsTime
  split
  next scanned => exact absurd (leadsTo_of_scanField? (by decide) scanned) noTime
  next => rfl

theorem not_leadsTo_of_noDigit {char mark : Char} {text : List Char}
    (noDigit : char.isDigit = false) : ¬LeadsTo mark (char :: text) := by
  rintro ⟨digits, rest, nonempty, allDigits, same⟩
  obtain ⟨first, later, rfl⟩ := List.exists_cons_of_ne_nil nonempty
  have digit := allDigits first List.mem_cons_self
  rw [← (List.cons.inj same).1, noDigit] at digit
  exact nomatch digit

/-- The mark would have to stand in the value itself, or to follow it. -/
theorem not_leadsTo_of_notMem {mark : Char} {text rest : List Char} (notMem : mark ∉ text)
    (notEnd : mark ∉ valueEnds) (ends : EndsValue rest) :
    ¬LeadsTo mark (text ++ rest) := by
  rintro ⟨digits, later, -, allDigits, same⟩
  rcases List.append_eq_append_iff.mp same with ⟨more, rfl, isRest⟩ | ⟨more, rfl, isLater⟩
  · cases more with
    | nil =>
        rw [List.nil_append] at isRest
        exact (isRest ▸ ends).not_cons notEnd
    | cons char more =>
        have digit := allDigits char (List.mem_append_right _ List.mem_cons_self)
        have isEnd : char ∈ valueEnds := ends char (by rw [isRest]; rfl)
        have noDigit : char.isDigit = false := eq_false_of_valueEnds rfl isEnd
        rw [noDigit] at digit
        exact nomatch digit
  · cases more with
    | nil =>
        rw [List.nil_append] at isLater
        exact (isLater ▸ ends).not_cons notEnd
    | cons char more =>
        rw [(List.cons.inj isLater).1] at notMem
        exact notMem (List.mem_append_right _ List.mem_cons_self)

theorem SpellsInteger.not_leadsTo {value : Int} {text rest : List Char}
    (spelled : SpellsInteger value text) (ends : EndsValue rest) {mark : Char}
    (isMark : mark = '-' ∨ mark = ':') : ¬LeadsTo mark (text ++ rest) := by
  have notEnd : mark ∉ valueEnds := by
    rcases isMark with rfl | rfl <;> decide
  have noUnderscore : mark ≠ '_' := by
    rcases isMark with rfl | rfl <;> decide
  cases spelled with
  | unsigned spelled =>
      have noDigit : mark.isDigit ≠ true := by
        rcases isMark with rfl | rfl <;> decide
      exact not_leadsTo_of_notMem
        (fun member => (spelled.spelled.mem_text member).elim noDigit noUnderscore) notEnd ends
  | plus => exact not_leadsTo_of_noDigit rfl
  | minus => exact not_leadsTo_of_noDigit rfl
  | @based letter base digits text isBase spelled =>
      have noZero : mark ≠ '0' := by
        rcases isMark with rfl | rfl <;> decide
      have noLetter : mark ≠ letter := by
        rintro rfl
        rcases isMark with rfl | rfl <;> exact nomatch isBase
      have noDigit : (digitOf? base mark).isSome ≠ true := by
        have noValue : Text.hexValue? mark = none := by
          rcases isMark with rfl | rfl <;> rfl
        rw [digitOf?, noValue]
        exact Bool.false_ne_true
      have noMark : mark ∉ text := fun member =>
        (spelled.mem_text member).elim noDigit noUnderscore
      exact not_leadsTo_of_notMem
        (List.not_mem_cons_of_ne_of_not_mem noZero
          (List.not_mem_cons_of_ne_of_not_mem noLetter noMark)) notEnd ends

theorem scanScalar?_spelled {value : Int} {text rest : List Char}
    (spelled : SpellsInteger value text) (fits : fitsInteger value = true)
    (ends : EndsValue rest) : scanScalar? (text ++ rest) = some (.integer value, rest) := by
  rw [scanScalar?, startsDate_eq_false (spelled.not_leadsTo ends (.inl rfl)),
    startsTime_eq_false (spelled.not_leadsTo ends (.inr rfl))]
  exact scanNumber?_spelled spelled fits ends

end ScopeLint.Toml
