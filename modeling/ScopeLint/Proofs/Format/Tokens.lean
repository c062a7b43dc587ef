import ScopeLint.Proofs.Format.Scalar
import ScopeLint.Proofs.Format.Spelling
import ScopeLint.Proofs.Json.Skipping

/-!
The readers of scalars, keys and colons accept exactly their spellings. An integer has one
spelling, its plain decimal: every number with a point, an exponent or a minus before a zero is
taken for a real.
-/

set_option autoImplicit false

namespace ScopeLint.Json

/-! ### Plain decimals -/

/-- A whole number has one decimal. -/
theorem toDigits_ofDigitChars {digits : List Char} (whole : IsWhole digits) :
    Nat.toDigits 10 (Nat.ofDigitChars 10 digits 0) = digits := by
  induction digits using List.reverseRecOn with
  | nil => exact absurd rfl whole.nonempty
  | append_singleton digits last ih =>
      have lastDigit := whole.allDigits last (List.mem_append_right _ List.mem_cons_self)
      obtain ⟨small, same⟩ := digitChar_of_isDigit lastDigit
      rw [Nat.ofDigitChars_append, Nat.ofDigitChars_cons, Nat.ofDigitChars_nil]
      by_cases alone : digits = []
      · rw [alone, Nat.ofDigitChars_nil, Nat.mul_zero, Nat.zero_add,
          Nat.toDigits_of_lt_base small, same, List.nil_append]
      · have noZero : digits.head? ≠ some '0' := by
          intro isZero
          have single := whole.noLeadingZero (by rw [List.head?_append_of_ne_nil _ alone, isZero])
          rcases List.append_eq_singleton_iff.mp single with ⟨isEmpty, _⟩ | ⟨_, impossible⟩
          · exact alone isEmpty
          · exact absurd impossible (List.cons_ne_nil _ _)
        have shorter := ih ⟨alone,
          fun char isMember => whole.allDigits char (List.mem_append_left _ isMember),
          fun isZero => absurd isZero noZero⟩
        have positive : 0 < Nat.ofDigitChars 10 digits 0 := by
          refine Nat.pos_of_ne_zero fun isZero => noZero ?_
          rw [isZero] at shorter
          rw [← shorter]
          rfl
        rw [← Nat.toDigits_append_toDigits (by decide) positive small, shorter,
          Nat.toDigits_of_lt_base small, same]

end ScopeLint.Json

namespace ScopeLint.Format

open Json (Blank NumberEnds SpellsString SpellsNumeral skipBlanks skipBlanks_append)

/-- A text that a reader has gone over: blanks, a core for which something holds, and the rest. -/
def Taken (holds : List Char → Prop) (text rest : List Char) : Prop :=
  ∃ before core, Blank before ∧ holds core ∧ text = before ++ (core ++ rest)

theorem taken_of_skipBlanks {holds : List Char → Prop} {text core rest : List Char}
    (skipped : skipBlanks text = core ++ rest) (isHeld : holds core) : Taken holds text rest := by
  obtain ⟨before, isText, blankBefore⟩ := Json.exists_blank_of_skipBlanks skipped
  exact ⟨before, core, blankBefore, isHeld, isText⟩

theorem Taken.imp {holds weaker : List Char → Prop} {text rest : List Char}
    (taken : Taken holds text rest) (implies : ∀ core, holds core → weaker core) :
    Taken weaker text rest := by
  rcases taken with ⟨before, core, blankBefore, isHeld, isText⟩
  exact ⟨before, core, blankBefore, implies core isHeld, isText⟩

/-- Blanks in front of a value that is not the wanted one change nothing. -/
theorem mismatch_blank {α : Type} {blank : List Char} (isBlank : Blank blank) (wanted : String)
    (text : List Char) : (mismatch wanted (blank ++ text) : Except ReadError α) =
      mismatch wanted text := by
  unfold mismatch describe
  rw [skipBlanks_append isBlank]

theorem startsNumber_blank {blank : List Char} (isBlank : Blank blank) (text : List Char) :
    startsNumber (blank ++ text) = startsNumber text := by
  unfold startsNumber
  rw [skipBlanks_append isBlank]

/-! ### Strings and words -/

theorem spelled_of_readText {wanted value : String} {text rest : List Char}
    (isRead : readText wanted text = .ok (value, rest)) :
    Taken (SpellsString value) text rest := by
  unfold readText at isRead
  split at isRead
  next others isQuote =>
      split at isRead
      next => exact nomatch isRead
      next scanned =>
          cases isRead
          obtain ⟨core, spells, isText⟩ := Json.scanString?_eq_some_iff.mp scanned
          exact taken_of_skipBlanks (isQuote.trans isText) spells
  next => exact absurd isRead (mismatch_ne_ok _ _ _)

theorem readText_spelled {wanted value : String} {core : List Char}
    (spells : SpellsString value core) (rest : List Char) :
    readText wanted (core ++ rest) = .ok (value, rest) := by
  obtain ⟨tail, isText, scanned⟩ := spells.scanned rest
  have notBlank : Json.isBlank '"' = false := by decide
  rw [readText, isText, Json.skipBlanks_cons notBlank]
  simp only [scanned]

theorem readText_blank {blank : List Char} (isBlank : Blank blank) (wanted : String)
    (text : List Char) : readText wanted (blank ++ text) = readText wanted text := by
  simp only [readText, skipBlanks_append isBlank]

theorem spelled_of_readCharacter {value : Char} {text rest : List Char}
    (isRead : readCharacter text = .ok (value, rest)) :
    Taken (SpellsString (String.singleton value)) text rest := by
  unfold readCharacter at isRead
  split at isRead
  next => exact nomatch isRead
  next found left textRead =>
      split at isRead
      next char isSingle =>
          cases isRead
          have same : found = String.singleton value := by
            rw [← String.toList_inj, isSingle, String.toList_singleton]
          rw [← same]
          exact spelled_of_readText textRead
      next => exact nomatch isRead

theorem readCharacter_spelled {value : Char} {core : List Char}
    (spells : SpellsString (String.singleton value) core) (rest : List Char) :
    readCharacter (core ++ rest) = .ok (value, rest) := by
  simp only [readCharacter, readText_spelled spells, String.toList_singleton]

theorem word_of_readWord {α : Type} {tail text rest : List Char} {value found : α}
    (isRead : readWord tail value text = .ok (found, rest)) :
    found = value ∧ text = tail ++ rest := by
  unfold readWord at isRead
  split at isRead
  next => exact nomatch isRead
  next scanned =>
      cases isRead
      exact ⟨rfl, Json.eq_of_scanWord? scanned⟩

theorem spelled_of_readTruth {value : Bool} {text rest : List Char}
    (isRead : readTruth text = .ok (value, rest)) :
    Taken (fun core => core = truthText value) text rest := by
  unfold readTruth at isRead
  split at isRead
  next isFirst =>
      rcases word_of_readWord isRead with ⟨rfl, rfl⟩
      exact taken_of_skipBlanks isFirst rfl
  next isFirst =>
      rcases word_of_readWord isRead with ⟨rfl, rfl⟩
      exact taken_of_skipBlanks isFirst rfl
  next => exact absurd isRead (mismatch_ne_ok _ _ _)

theorem readTruth_spelled (value : Bool) (rest : List Char) :
    readTruth (truthText value ++ rest) = .ok (value, rest) := by
  cases value with
  | true => rfl
  | false => rfl

theorem spelled_of_readNull {text rest : List Char} (isRead : readNull text = .ok ((), rest)) :
    Taken (fun core => core = nullText) text rest := by
  unfold readNull at isRead
  split at isRead
  next isFirst =>
      rcases word_of_readWord isRead with ⟨_, rfl⟩
      exact taken_of_skipBlanks isFirst rfl
  next => exact absurd isRead (mismatch_ne_ok _ _ _)

theorem spelled_of_readKey {key : String} {text rest : List Char}
    (isRead : readKey text = .ok (key, rest)) : Taken (SpellsString key) text rest := by
  unfold readKey at isRead
  split at isRead
  next others isQuote =>
      split at isRead
      next => exact nomatch isRead
      next scanned =>
          cases isRead
          obtain ⟨core, spells, isText⟩ := Json.scanString?_eq_some_iff.mp scanned
          exact taken_of_skipBlanks (isQuote.trans isText) spells
  next => exact nomatch isRead

theorem readKey_spelled {key : String} {blank core : List Char} (isBlank : Blank blank)
    (spells : SpellsString key core) (rest : List Char) :
    readKey (blank ++ (core ++ rest)) = .ok (key, rest) := by
  obtain ⟨tail, isText, scanned⟩ := spells.scanned rest
  have notBlank : Json.isBlank '"' = false := by decide
  rw [readKey, isText, Json.skipBlanks_spelled isBlank notBlank]
  simp only [scanned]

theorem blank_of_readColon {text rest : List Char} (isRead : readColon text = .ok ((), rest)) :
    ∃ before, Blank before ∧ text = before ++ ':' :: rest := by
  unfold readColon at isRead
  split at isRead
  next isFirst =>
      cases isRead
      obtain ⟨before, isText, blankBefore⟩ := Json.exists_blank_of_skipBlanks isFirst
      exact ⟨before, blankBefore, isText⟩
  next => exact nomatch isRead

theorem readColon_blank {blank : List Char} (isBlank : Blank blank) (rest : List Char) :
    readColon (blank ++ ':' :: rest) = .ok ((), rest) := by
  have notBlank : Json.isBlank ':' = false := by decide
  simp only [readColon, Json.skipBlanks_spelled isBlank notBlank]

/-! ### Numbers -/

theorem integer_text_eq {numeral : Json.Numeral} {value : Int} {core : List Char}
    (isInteger : Json.IsInteger numeral value) (spells : SpellsNumeral numeral core) :
    core = (toString value).toList := by
  rcases numeral with ⟨negative, whole, fraction, exponent⟩
  rcases isInteger with ⟨noFraction, noExponent, sign, size, _⟩
  cases noFraction
  cases noExponent
  cases spells with
  | mk isWhole isFraction isExponent =>
      cases isFraction with
      | some nonempty _ => exact absurd rfl nonempty
      | none =>
          cases isExponent with
          | none =>
              rw [Json.toString_int_toList, sign, size, Json.toDigits_ofDigitChars isWhole,
                List.nil_append, List.append_nil]

theorem numeral_of_readQuantity {text rest : List Char} {quantity : Json.Quantity}
    (isRead : readQuantity (skipBlanks text) = .ok (quantity, rest)) :
    ∃ numeral, numeral.quantity? = some quantity ∧ Taken (SpellsNumeral numeral) text rest := by
  obtain ⟨numeral, scanned, isQuantity⟩ := quantity?_of_readQuantity isRead
  obtain ⟨core, isText, spells⟩ := Json.spellsNumeral_of_scanNumeral? scanned
  exact ⟨numeral, isQuantity, taken_of_skipBlanks isText spells⟩

theorem Width.toInt_of_ofInt? {width : Width} {number : Int} {value : width.Carrier}
    (isValue : width.ofInt? number = some value) : width.toInt value = number := by
  unfold ofInt? at isValue
  split at isValue
  next bounds =>
      rw [← Option.some.inj isValue]
      cases width with
      | i64 => exact Int64.toInt_ofInt_of_le bounds.1 (Int.lt_add_one_of_le bounds.2)
      | u32 =>
          simp only [least, greatest] at bounds
          simp only [toInt, ofInt, UInt32.toNat_ofNat']
          omega
      | u16 =>
          simp only [least, greatest] at bounds
          simp only [toInt, ofInt, UInt16.toNat_ofNat']
          omega
      | u8 =>
          simp only [least, greatest] at bounds
          simp only [toInt, ofInt, UInt8.toNat_ofNat']
          omega
  next => cases isValue

theorem spelled_of_readInteger {width : Width} {value : width.Carrier} {text rest : List Char}
    (isRead : readInteger width text = .ok (value, rest)) :
    Taken (fun core => core = (toString (width.toInt value)).toList) text rest := by
  unfold readInteger at isRead
  split at isRead
  next =>
      split at isRead
      next => exact nomatch isRead
      next => exact nomatch isRead
      next number left quantityRead =>
          split at isRead
          next isValue =>
              cases isRead
              obtain ⟨numeral, isQuantity, taken⟩ := numeral_of_readQuantity quantityRead
              refine taken.imp fun core spells => ?_
              rw [Width.toInt_of_ofInt? isValue]
              exact integer_text_eq (Json.isInteger_of_quantity? isQuantity) spells
          next => exact nomatch isRead
  next => exact absurd isRead (mismatch_ne_ok _ _ _)

theorem readInteger_blank {blank : List Char} (isBlank : Blank blank) (width : Width)
    (text : List Char) : readInteger width (blank ++ text) = readInteger width text := by
  rw [readInteger, startsNumber_blank isBlank, skipBlanks_append isBlank, mismatch_blank isBlank,
    readInteger]

theorem spelled_of_readReal {value : Binary64} {text rest : List Char}
    (isRead : readReal text = .ok (value, rest)) : Taken (SpellsReal value) text rest := by
  unfold readReal at isRead
  split at isRead
  next =>
      obtain ⟨quantity, quantityRead, same⟩ := Outcome.onValue_eq_ok isRead
      obtain ⟨numeral, isQuantity, taken⟩ := numeral_of_readQuantity quantityRead
      exact taken.imp fun core spells => ⟨numeral, quantity, spells, isQuantity, same⟩
  next => exact absurd isRead (mismatch_ne_ok _ _ _)

theorem readReal_spelled {value : Binary64} {core : List Char} (spells : SpellsReal value core)
    {rest : List Char} (ends : NumberEnds rest) :
    readReal (core ++ rest) = .ok (value, rest) := by
  obtain ⟨numeral, quantity, spellsNumeral, isQuantity, same⟩ := spells
  rw [readReal_of_scan (Json.scanNumeral?_spelled spellsNumeral ends), isQuantity, ← same]
  rfl

theorem readReal_blank {blank : List Char} (isBlank : Blank blank) (text : List Char) :
    readReal (blank ++ text) = readReal text := by
  rw [readReal, startsNumber_blank isBlank, skipBlanks_append isBlank, mismatch_blank isBlank,
    readReal]

end ScopeLint.Format
