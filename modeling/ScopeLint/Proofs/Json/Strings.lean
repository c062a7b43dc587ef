import ScopeLint.Json.Basic
import ScopeLint.Proofs.Json.Scanning

/-!
Strings are read as they were written: what is written for a character is one of the ways to
spell it, so a written string is one that the scanner finds.
-/

set_option autoImplicit false

namespace ScopeLint.Json

private theorem hexUnit?_control : ∀ code < 32,
    hexUnit? '0' '0' (Nat.digitChar (code / 16)) (Nat.digitChar (code % 16)) = some code := by
  decide

private theorem spellsChar_control {char : Char} (control : char.toNat < 32) :
    SpellsChar char ['\\', 'u', '0', '0', Nat.digitChar (char.toNat / 16),
      Nat.digitChar (char.toNat % 16)] := by
  have notLow : isLowSurrogate char.toNat = false := by
    simp only [isLowSurrogate, Bool.and_eq_false_iff, decide_eq_false_iff_not]
    omega
  have notHigh : isHighSurrogate char.toNat = false := by
    simp only [isHighSurrogate, Bool.and_eq_false_iff, decide_eq_false_iff_not]
    omega
  have spells := SpellsChar.unit (hexUnit?_control char.toNat control) notHigh notLow
  rw [Char.ofNat_toNat] at spells
  exact spells

theorem spellsChar_escapedChar (char : Char) : SpellsChar char (escapedChar char) := by
  have ofCode {code : Nat} (isCode : char.toNat = code) : char = Char.ofNat code := by
    rw [← isCode, Char.ofNat_toNat]
  unfold escapedChar
  split
  next isQuote =>
      rw [isQuote]
      exact .short rfl
  next notQuote =>
  split
  next isBackslash =>
      rw [isBackslash]
      exact .short rfl
  next notBackslash =>
  split
  next control =>
      split
      next isFeed =>
          rw [isFeed]
          exact .short rfl
      next =>
      split
      next isReturn =>
          rw [isReturn]
          exact .short rfl
      next =>
      split
      next isTab =>
          rw [isTab]
          exact .short rfl
      next =>
      split
      next isBackspace =>
          rw [ofCode isBackspace]
          exact .short rfl
      next =>
      split
      next isFormFeed =>
          rw [ofCode isFormFeed]
          exact .short rfl
      next => exact spellsChar_control control
  next notControl => exact .raw ⟨notQuote, notBackslash, Nat.not_lt.mp notControl⟩

theorem spellsString_stringChars (value : String) : SpellsString value (stringChars value) := by
  refine ⟨value.toList.flatMap escapedChar, ?_, rfl⟩
  induction value.toList with
  | nil => exact .nil
  | cons char chars ih => exact .cons (spellsChar_escapedChar char) ih

theorem scanString?_stringChars (value : String) (rest : List Char) :
    ∃ tail, stringChars value ++ rest = '"' :: tail ∧ scanString? tail = some (value, rest) :=
  (spellsString_stringChars value).scanned rest

end ScopeLint.Json
