import Mathlib.Data.List.Basic
import ScopeLint.Proofs.Json.Grammar

/-!
The scanner of numbers finds exactly the numbers of the grammar. It takes all the digits in
front of it, so the text after a number must not go on with a character of a number.
-/

set_option autoImplicit false

namespace ScopeLint.Json

/-! ### The ends of a number -/

def NoDigitNext (text : List Char) : Prop :=
  ∀ char, text.head? = some char → char.isDigit = false

/-- A text in front of which any number is complete. -/
def NumberEnds (text : List Char) : Prop :=
  ∀ char, text.head? = some char →
    char.isDigit = false ∧ char ≠ '.' ∧ char ≠ 'e' ∧ char ≠ 'E'

theorem NumberEnds.noDigitNext {text : List Char} (ends : NumberEnds text) :
    NoDigitNext text :=
  fun char first => (ends char first).1

theorem noDigitNext_of_head? {char : Char} {text : List Char} (first : text.head? = some char)
    (noDigit : char.isDigit = false) : NoDigitNext text := by
  intro next isFirst
  rw [first] at isFirst
  rw [← Option.some.inj isFirst]
  exact noDigit

theorem numberEnds_nil : NumberEnds [] :=
  nofun

theorem numberEnds_cons {char : Char} {rest : List Char}
    (noNumber : char.isDigit = false ∧ char ≠ '.' ∧ char ≠ 'e' ∧ char ≠ 'E') :
    NumberEnds (char :: rest) := by
  intro next isFirst
  cases isFirst
  exact noNumber

theorem ne_of_numberStart {char other : Char} (isNumber : char = '-' ∨ char.isDigit = true)
    (noNumber : other ≠ '-' ∧ other.isDigit = false) : char ≠ other := by
  rintro rfl
  rcases isNumber with isMinus | isDigit
  · exact noNumber.1 isMinus
  · rw [noNumber.2] at isDigit
    exact nomatch isDigit

theorem notBlank_of_number {char : Char} (isNumber : char = '-' ∨ char.isDigit = true) :
    isBlank char = false := by
  have differs {other : Char} (noNumber : other ≠ '-' ∧ other.isDigit = false) : char ≠ other :=
    ne_of_numberStart isNumber noNumber
  simp only [isBlank, Bool.or_eq_false_iff, decide_eq_false_iff_not]
  exact ⟨⟨⟨differs ⟨by decide, rfl⟩, differs ⟨by decide, rfl⟩⟩, differs ⟨by decide, rfl⟩⟩,
    differs ⟨by decide, rfl⟩⟩

/-! ### What is scanned is a number -/

theorem isWhole_zero : IsWhole ['0'] where
  nonempty := List.cons_ne_nil _ _
  allDigits := by
    intro char isMember
    rw [List.mem_singleton.mp isMember]
    rfl
  noLeadingZero _ := rfl

theorem digits_of_scanDigits? {text digits rest : List Char}
    (scanned : scanDigits? text = some (digits, rest)) :
    text = digits ++ rest ∧ digits ≠ [] ∧ AllDigits digits := by
  unfold scanDigits? at scanned
  split at scanned
  next => exact nomatch scanned
  next nonempty =>
      cases scanned
      exact ⟨List.takeWhile_append_dropWhile.symm, nonempty,
        List.all_eq_true.mp List.all_takeWhile⟩

theorem isWhole_of_scanWhole? {text digits rest : List Char}
    (scanned : scanWhole? text = some (digits, rest)) : text = digits ++ rest ∧ IsWhole digits := by
  cases text with
  | nil => cases scanned
  | cons char text =>
      simp only [scanWhole?] at scanned
      split at scanned
      next isZero =>
          have alone : digits = ['0'] ∧ text = rest := by
            cases text with
            | nil =>
                cases scanned
                exact ⟨rfl, rfl⟩
            | cons next text =>
                split at scanned
                next same => cases same
                next =>
                    split at scanned
                    next => cases scanned
                    next =>
                        cases scanned
                        exact ⟨rfl, rfl⟩
          rw [alone.1, alone.2, isZero]
          exact ⟨rfl, isWhole_zero⟩
      next notZero =>
          split at scanned
          next isDigit =>
              cases scanned
              refine ⟨?_, List.cons_ne_nil _ _, ?_, fun isZero => ?_⟩
              · rw [List.cons_append, List.takeWhile_append_dropWhile]
              · rw [List.forall_mem_cons]
                exact ⟨isDigit, List.all_eq_true.mp List.all_takeWhile⟩
              · exact absurd (Option.some.inj isZero) notZero
          next => cases scanned

theorem spellsFraction_of_scanFraction? {text digits rest : List Char}
    (scanned : scanFraction? text = some (digits, rest)) :
    ∃ spelled, text = spelled ++ rest ∧ SpellsFraction digits spelled := by
  unfold scanFraction? at scanned
  split at scanned
  next others =>
      rcases digits_of_scanDigits? scanned with ⟨rfl, nonempty, allDigits⟩
      exact ⟨'.' :: digits, rfl, .some nonempty allDigits⟩
  next =>
      cases scanned
      exact ⟨[], rfl, .none⟩

theorem spellsExponent_of_scanExponent? {text rest : List Char} {exponent : Option Int}
    (scanned : scanExponent? text = some (exponent, rest)) :
    ∃ spelled, text = spelled ++ rest ∧ SpellsExponent exponent spelled := by
  cases text with
  | nil =>
      cases scanned
      exact ⟨[], rfl, .none⟩
  | cons mark text =>
      rw [scanExponent?] at scanned
      split at scanned
      next isMark =>
          cases text with
          | nil => cases scanned
          | cons sign text =>
              simp only [scanSignedDigits?] at scanned
              split at scanned
              next => cases scanned
              next value others signedScanned =>
                  split at signedScanned
                  next => cases signedScanned
                  next digits _ digitsScanned =>
                      cases scanned
                      cases signedScanned
                      rcases digits_of_scanDigits? digitsScanned with
                        ⟨isText, nonempty, allDigits⟩
                      by_cases isPlus : sign = '+'
                      · subst isPlus
                        refine ⟨mark :: '+' :: digits, ?_, .plus isMark nonempty allDigits⟩
                        rw [if_pos (.inl rfl)] at isText
                        rw [isText]
                        rfl
                      · by_cases isMinus : sign = '-'
                        · subst isMinus
                          refine ⟨mark :: '-' :: digits, ?_, .minus isMark nonempty allDigits⟩
                          rw [if_pos (.inr rfl)] at isText
                          rw [isText]
                          rfl
                        · rw [if_neg (not_or.mpr ⟨isPlus, isMinus⟩)] at isText
                          rw [if_neg isMinus, isText]
                          exact ⟨mark :: digits, rfl, .unsigned isMark nonempty allDigits⟩
      next =>
          cases scanned
          exact ⟨[], rfl, .none⟩

theorem spellsNumeral_of_scanNumeral? {text rest : List Char} {numeral : Numeral}
    (scanned : scanNumeral? text = some (numeral, rest)) :
    ∃ spelled, text = spelled ++ rest ∧ SpellsNumeral numeral spelled := by
  have unsigned {negative : Bool} {text : List Char}
      (scanned : scanUnsigned? negative text = some (numeral, rest)) :
      ∃ spelled, signChars negative ++ text = spelled ++ rest ∧ SpellsNumeral numeral spelled := by
    unfold scanUnsigned? at scanned
    split at scanned
    next => exact nomatch scanned
    next whole afterWhole wholeScanned =>
        split at scanned
        next => exact nomatch scanned
        next digits afterFraction fractionScanned =>
            split at scanned
            next => exact nomatch scanned
            next exponent _ exponentScanned =>
                cases scanned
                rcases isWhole_of_scanWhole? wholeScanned with ⟨rfl, isWhole⟩
                obtain ⟨fraction, rfl, isFraction⟩ :=
                  spellsFraction_of_scanFraction? fractionScanned
                obtain ⟨spelled, rfl, isExponent⟩ :=
                  spellsExponent_of_scanExponent? exponentScanned
                refine ⟨_, ?_, .mk isWhole isFraction isExponent⟩
                simp only [List.append_assoc]
  unfold scanNumeral? at scanned
  split at scanned
  next others => exact unsigned scanned
  next => exact unsigned scanned

/-- A number begins with its sign or with a digit. -/
theorem SpellsNumeral.exists_cons {numeral : Numeral} {text : List Char}
    (spells : SpellsNumeral numeral text) :
    ∃ char others, text = char :: others ∧ (char = '-' ∨ char.isDigit = true) := by
  cases spells with
  | mk isWhole isFraction isExponent =>
      cases numeral.negative with
      | true => exact ⟨'-', _, rfl, .inl rfl⟩
      | false =>
          obtain ⟨first, others, isText⟩ := List.exists_cons_of_ne_nil isWhole.nonempty
          rw [isText]
          exact ⟨first, _, rfl, .inr (isWhole.allDigits first (isText ▸ List.mem_cons_self))⟩

theorem scanNumeral?_cons {text rest : List Char} {numeral : Numeral}
    (scanned : scanNumeral? text = some (numeral, rest)) :
    ∃ char others, text = char :: others ∧ (char = '-' ∨ char.isDigit = true) := by
  obtain ⟨spelled, rfl, spells⟩ := spellsNumeral_of_scanNumeral? scanned
  obtain ⟨char, others, rfl, isNumber⟩ := spells.exists_cons
  exact ⟨char, others ++ rest, rfl, isNumber⟩

/-! ### Numbers are scanned -/

private theorem takeWhile_of_noDigitNext {rest : List Char} (stops : NoDigitNext rest) :
    rest.takeWhile Char.isDigit = [] ∧ rest.dropWhile Char.isDigit = rest := by
  cases rest with
  | nil => exact ⟨rfl, rfl⟩
  | cons char rest =>
      have noDigit := stops char rfl
      simp only [List.takeWhile_cons, List.dropWhile_cons, noDigit, Bool.false_eq_true,
        if_false, and_self]

theorem takeWhile_digits {digits rest : List Char}
    (allDigits : ∀ char ∈ digits, char.isDigit = true) (stops : NoDigitNext rest) :
    (digits ++ rest).takeWhile Char.isDigit = digits ∧
      (digits ++ rest).dropWhile Char.isDigit = rest := by
  rcases takeWhile_of_noDigitNext stops with ⟨taken, dropped⟩
  rw [List.takeWhile_append_of_pos allDigits, List.dropWhile_append_of_pos allDigits, taken,
    dropped, List.append_nil]
  exact ⟨rfl, rfl⟩

theorem scanDigits?_append {digits rest : List Char} (nonempty : digits ≠ [])
    (allDigits : ∀ char ∈ digits, char.isDigit = true) (stops : NoDigitNext rest) :
    scanDigits? (digits ++ rest) = some (digits, rest) := by
  rcases takeWhile_digits allDigits stops with ⟨taken, dropped⟩
  unfold scanDigits?
  rw [taken, dropped]
  cases digits with
  | nil => exact absurd rfl nonempty
  | cons digit digits => rfl

theorem scanWhole?_append {digits rest : List Char} (whole : IsWhole digits)
    (stops : NoDigitNext rest) : scanWhole? (digits ++ rest) = some (digits, rest) := by
  cases digits with
  | nil => exact absurd rfl whole.nonempty
  | cons first digits =>
      unfold scanWhole?
      by_cases isZero : first = '0'
      · have alone := whole.noLeadingZero (congrArg some isZero)
        rw [alone]
        cases rest with
        | nil => rfl
        | cons next rest =>
            have noDigit := stops next rfl
            simp only [List.cons_append, List.nil_append, if_true, noDigit, Bool.false_eq_true,
              if_false]
      · have firstDigit := whole.allDigits first List.mem_cons_self
        obtain ⟨taken, dropped⟩ := takeWhile_digits
          (fun char isMember => whole.allDigits char (List.mem_cons_of_mem first isMember)) stops
        simp only [List.cons_append, isZero, if_false, firstDigit, if_true, taken, dropped]

theorem scanFraction?_none {rest : List Char} (ends : rest.head? ≠ some '.') :
    scanFraction? rest = some ([], rest) := by
  unfold scanFraction?
  split
  next => exact absurd rfl ends
  next => rfl

theorem scanExponent?_none {rest : List Char} (ends : NumberEnds rest) :
    scanExponent? rest = some (none, rest) := by
  cases rest with
  | nil => rfl
  | cons char rest =>
      rcases ends char rfl with ⟨_, _, small, large⟩
      simp only [scanExponent?, small, large, or_self, if_false]

theorem scanFraction?_append {fraction rest : List Char} (nonempty : fraction ≠ [])
    (allDigits : ∀ char ∈ fraction, char.isDigit = true) (stops : NoDigitNext rest) :
    scanFraction? ('.' :: (fraction ++ rest)) = some (fraction, rest) :=
  scanDigits?_append nonempty allDigits stops

theorem ne_sign_of_isDigit {char : Char} (isDigit : char.isDigit = true) :
    char ≠ '+' ∧ char ≠ '-' := by
  constructor
  · rintro rfl
    cases isDigit
  · rintro rfl
    cases isDigit

theorem scanNumeral?_append {negative : Bool} {whole rest : List Char}
    (isWhole : IsWhole whole) :
    scanNumeral? (signChars negative ++ (whole ++ rest)) =
      scanUnsigned? negative (whole ++ rest) := by
  cases negative with
  | true => rfl
  | false =>
      cases whole with
      | nil => exact absurd rfl isWhole.nonempty
      | cons first others =>
          have noMinus := (ne_sign_of_isDigit (isWhole.allDigits first List.mem_cons_self)).2
          simp only [signChars, Bool.false_eq_true, if_false, List.nil_append, List.cons_append]
          unfold scanNumeral?
          split
          next same => exact absurd (List.cons.inj same).1 noMinus
          next => rfl

theorem SpellsExponent.head? {exponent : Option Int} {spelled : List Char}
    (spells : SpellsExponent exponent spelled) :
    spelled = [] ∨ spelled.head? = some 'e' ∨ spelled.head? = some 'E' := by
  cases spells with
  | none => exact .inl rfl
  | unsigned isMark _ _ => exact .inr (isMark.imp (congrArg some) (congrArg some))
  | plus isMark _ _ => exact .inr (isMark.imp (congrArg some) (congrArg some))
  | minus isMark _ _ => exact .inr (isMark.imp (congrArg some) (congrArg some))

theorem scanExponent?_spelled {exponent : Option Int} {spelled rest : List Char}
    (spells : SpellsExponent exponent spelled) (ends : NumberEnds rest) :
    scanExponent? (spelled ++ rest) = some (exponent, rest) := by
  have signed {digits : List Char} (nonempty : digits ≠ []) (allDigits : AllDigits digits) :
      scanDigits? (digits ++ rest) = some (digits, rest) :=
    scanDigits?_append nonempty allDigits ends.noDigitNext
  cases spells with
  | none => exact scanExponent?_none ends
  | @unsigned mark digits isMark nonempty allDigits =>
      have digitsScanned := signed nonempty allDigits
      cases digits with
      | nil => exact absurd rfl nonempty
      | cons first digits =>
          rcases ne_sign_of_isDigit (allDigits first List.mem_cons_self) with ⟨noPlus, noMinus⟩
          rw [List.cons_append] at digitsScanned
          simp only [List.cons_append, scanExponent?, isMark, if_true, scanSignedDigits?, noPlus,
            noMinus, or_self, if_false, digitsScanned]
  | plus isMark nonempty allDigits =>
      simp only [List.cons_append, scanExponent?, isMark, if_true, scanSignedDigits?, true_or,
        signed nonempty allDigits, Char.reduceEq, if_false]
  | minus isMark nonempty allDigits =>
      simp only [List.cons_append, scanExponent?, isMark, if_true, scanSignedDigits?, or_true,
        signed nonempty allDigits]

theorem scanNumeral?_spelled {numeral : Numeral} {spelled rest : List Char}
    (spells : SpellsNumeral numeral spelled) (ends : NumberEnds rest) :
    scanNumeral? (spelled ++ rest) = some (numeral, rest) := by
  cases spells with
  | @mk fraction exponent isWhole isFraction isExponent =>
      have exponentScanned := scanExponent?_spelled isExponent ends
      -- What follows the digits is an exponent or what follows the number.
      have stops : NoDigitNext (exponent ++ rest) ∧ (exponent ++ rest).head? ≠ some '.' := by
        rcases isExponent.head? with rfl | isSmall | isLarge
        · exact ⟨ends.noDigitNext, fun isPoint => (ends '.' isPoint).2.1 rfl⟩
        · have first : (exponent ++ rest).head? = some 'e' := by
            rw [List.head?_append, isSmall, Option.some_or]
          exact ⟨noDigitNext_of_head? first rfl, by rw [first]; decide⟩
        · have first : (exponent ++ rest).head? = some 'E' := by
            rw [List.head?_append, isLarge, Option.some_or]
          exact ⟨noDigitNext_of_head? first rfl, by rw [first]; decide⟩
      rw [List.append_assoc, List.append_assoc, List.append_assoc, scanNumeral?_append isWhole]
      rcases numeral with ⟨negative, whole, digits, order⟩
      cases isFraction with
      | none =>
          simp only [List.nil_append, scanUnsigned?, scanWhole?_append isWhole stops.1,
            scanFraction?_none stops.2, exponentScanned]
      | some nonempty allDigits =>
          have point : NoDigitNext ('.' :: (digits ++ (exponent ++ rest))) :=
            noDigitNext_of_head? rfl rfl
          simp only [List.cons_append, scanUnsigned?, scanWhole?_append isWhole point,
            scanFraction?_append nonempty allDigits stops.1, exponentScanned]

end ScopeLint.Json
