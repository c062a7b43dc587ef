import ScopeLint.Format.Reader
import ScopeLint.Proofs.Json.Extent
import ScopeLint.Proofs.Json.Quantity
import ScopeLint.Proofs.Json.Strings

/-!
Scalars are read as they were written. A string ends with its own quote; a number ends where
the text no longer goes on with a character of a number.
-/

set_option autoImplicit false

namespace ScopeLint.Format

open Json (NumberEnds skipBlanks scanNumeral?)

/-! ### Integer types -/

theorem Width.toInt_bounds (width : Width) (value : width.Carrier) :
    width.least ≤ width.toInt value ∧ width.toInt value ≤ width.greatest := by
  cases width with
  | i64 => exact ⟨Int64.le_toInt value, Int64.toInt_le value⟩
  | u32 =>
      have bound := UInt32.toNat_lt value
      simp only [toInt, least, greatest]
      omega
  | u16 =>
      have bound := UInt16.toNat_lt value
      simp only [toInt, least, greatest]
      omega
  | u8 =>
      have bound := UInt8.toNat_lt value
      simp only [toInt, least, greatest]
      omega

theorem Width.ofInt_toInt (width : Width) (value : width.Carrier) :
    width.ofInt (width.toInt value) = value := by
  cases width with
  | i64 => exact Int64.ofInt_toInt value
  | u32 => exact UInt32.ofNat_toNat
  | u16 => exact UInt16.ofNat_toNat
  | u8 => exact UInt8.ofNat_toNat

theorem Width.ofInt?_toInt (width : Width) (value : width.Carrier) :
    width.ofInt? (width.toInt value) = some value := by
  rw [ofInt?, if_pos (width.toInt_bounds value), ofInt_toInt]

/-- All integer types lie within the 64 bits that the reader keeps exact. -/
theorem Width.within (width : Width) :
    -(twoTo 63 : Int) ≤ width.least ∧ width.greatest < (twoTo 64 : Int) := by
  cases width <;> decide

/-! ### Scalars -/

theorem readText_stringChars (wanted value : String) (rest : List Char) :
    readText wanted (Json.stringChars value ++ rest) = .ok (value, rest) := by
  obtain ⟨tail, written, scanned⟩ := Json.scanString?_stringChars value rest
  rw [readText, written, Json.skipBlanks_cons rfl]
  simp only [scanned]

theorem readCharacter_stringChars (value : Char) (rest : List Char) :
    readCharacter (Json.stringChars (String.singleton value) ++ rest) = .ok (value, rest) := by
  simp only [readCharacter, readText_stringChars, String.toList_singleton]

theorem readTruth_chars (value : Bool) (rest : List Char) :
    readTruth ((Json.truth value).chars ++ rest) = .ok (value, rest) := by
  cases value with
  | true => rfl
  | false => rfl

theorem startsNumber_of_scan {text rest : List Char} {numeral : Json.Numeral}
    (scanned : scanNumeral? text = some (numeral, rest)) :
    startsNumber text = true ∧ skipBlanks text = text := by
  obtain ⟨char, others, rfl, isNumber⟩ := Json.scanNumeral?_cons scanned
  have noBlanks := Json.skipBlanks_cons (Json.notBlank_of_number isNumber) others
  refine ⟨?_, noBlanks⟩
  simp only [startsNumber, noBlanks, Bool.or_eq_true, decide_eq_true_eq, isNumber]

theorem readQuantity_of_scan {text rest : List Char} {numeral : Json.Numeral}
    {quantity : Json.Quantity} (scanned : scanNumeral? text = some (numeral, rest))
    (isQuantity : numeral.quantity? = some quantity) :
    startsNumber text = true ∧ readQuantity (skipBlanks text) = .ok (quantity, rest) := by
  obtain ⟨starts, noBlanks⟩ := startsNumber_of_scan scanned
  refine ⟨starts, ?_⟩
  simp only [readQuantity, noBlanks, scanned, isQuantity]

theorem readInteger_chars (width : Width) (value : width.Carrier) {rest : List Char}
    (ends : NumberEnds rest) :
    readInteger width ((Json.integer (width.toInt value)).chars ++ rest) = .ok (value, rest) := by
  obtain ⟨least, greatest⟩ := width.toInt_bounds value
  rcases width.within with ⟨low, high⟩
  obtain ⟨starts, quantityRead⟩ := readQuantity_of_scan
    (Json.scanNumeral?_int (width.toInt value) ends)
    (Json.quantity?_int (low.trans least) (greatest.trans_lt high))
  simp only [readInteger, Json.chars, starts, if_true, quantityRead, Width.ofInt?_toInt]

/-! ### Reals -/

theorem mismatch_ne_ok {α : Type} (wanted : String) (text : List Char) (value : α) :
    mismatch wanted text ≠ .ok value := by
  unfold mismatch
  split
  · exact nofun
  · exact nofun

theorem Outcome.onValue_eq_ok {α β : Type} {make : α → β} {outcome : Outcome α} {made : β}
    {rest : List Char} (isMade : outcome.onValue make = .ok (made, rest)) :
    ∃ value, outcome = .ok (value, rest) ∧ make value = made := by
  cases outcome with
  | error problem => exact nomatch isMade
  | ok read =>
      cases isMade
      exact ⟨read.1, rfl, rfl⟩

theorem quantity?_of_readQuantity {text rest : List Char} {quantity : Json.Quantity}
    (isRead : readQuantity text = .ok (quantity, rest)) :
    ∃ numeral, scanNumeral? text = some (numeral, rest) ∧ numeral.quantity? = some quantity := by
  unfold readQuantity at isRead
  split at isRead
  next => exact nomatch isRead
  next numeral left scanned =>
      split at isRead
      next => exact nomatch isRead
      next isQuantity =>
          cases isRead
          exact ⟨numeral, scanned, isQuantity⟩

/-- What is read for a real is decided by the number that is scanned. -/
theorem readReal_of_scan {text rest : List Char} {numeral : Json.Numeral}
    (scanned : scanNumeral? text = some (numeral, rest)) :
    readReal text =
      numeral.quantity?.elim malformed fun quantity => .ok (quantity.toReal, rest) := by
  obtain ⟨starts, noBlanks⟩ := startsNumber_of_scan scanned
  rw [readReal, if_pos starts, noBlanks]
  simp only [readQuantity, scanned]
  cases numeral.quantity? with
  | none => rfl
  | some quantity => rfl

theorem isFinite_of_readReal {text rest : List Char} {value : Binary64}
    (isRead : readReal text = .ok (value, rest)) : value.isFinite = true := by
  unfold readReal at isRead
  split at isRead
  next =>
      obtain ⟨quantity, quantityRead, rfl⟩ := Outcome.onValue_eq_ok isRead
      obtain ⟨numeral, _, isQuantity⟩ := quantity?_of_readQuantity quantityRead
      exact Json.isFinite_of_quantity? isQuantity
  next => exact absurd isRead (mismatch_ne_ok _ _ _)

/-- The digits that are written for a real are read as the real itself. Numbers are converted
with several roundings, so there are finite reals of which this is not true. -/
def RealReadsBack (value : Binary64) : Prop :=
  readReal (Json.realChars value) = .ok (value, [])

instance RealReadsBack.decidable (value : Binary64) : Decidable (RealReadsBack value) :=
  inferInstanceAs (Decidable (readReal (Json.realChars value) = .ok (value, [])))

section ReadBack

variable {value : Binary64}

theorem RealReadsBack.isFinite (readsBack : RealReadsBack value) : value.isFinite = true :=
  isFinite_of_readReal readsBack

theorem readReal_chars (readsBack : RealReadsBack value) {rest : List Char}
    (ends : NumberEnds rest) : readReal ((Json.real value).chars ++ rest) = .ok (value, rest) := by
  have finite := readsBack.isFinite
  obtain ⟨numeral, spells, _⟩ := Json.spellsNumeral_finiteChars Json.realFormat finite
  have isText : Json.realChars value = Json.realFormat.finiteChars value := if_pos finite
  have alone := Json.scanNumeral?_spelled spells Json.numberEnds_nil
  rw [List.append_nil] at alone
  -- The digits spell one number, whether they stand alone or not.
  rw [RealReadsBack, isText, readReal_of_scan alone] at readsBack
  rw [Json.chars, isText, readReal_of_scan (Json.scanNumeral?_spelled spells ends)]
  cases isQuantity : numeral.quantity? with
  | none =>
      rw [isQuantity] at readsBack
      exact nomatch readsBack
  | some quantity =>
      rw [isQuantity] at readsBack
      exact congrArg (fun read => Except.ok (read, rest))
        (Prod.mk.inj (Except.ok.inj readsBack)).1

/-- Digits that are a short number are read as the real that they were written for. -/
theorem realReadsBack_of_isShort {numeral : Json.Numeral} (finite : value.isFinite = true)
    (spells : Json.SpellsNumeral numeral (Json.realChars value)) (short : numeral.IsShort) :
    RealReadsBack value := by
  have isText : Json.realChars value = Json.realFormat.finiteChars value := if_pos finite
  obtain ⟨other, scanned, denotes⟩ :=
    Json.scanNumeral?_finiteChars Json.realFormat finite Json.numberEnds_nil
  rw [← isText, Json.scanNumeral?_spelled spells Json.numberEnds_nil] at scanned
  obtain ⟨rfl, _⟩ := Prod.mk.inj (Option.some.inj scanned)
  have alone := Json.scanNumeral?_spelled spells Json.numberEnds_nil
  rw [List.append_nil] at alone
  rw [RealReadsBack, readReal_of_scan alone, denotes.quantity?_eq finite short]
  rfl

/-- The digits `1.602176634e-19` are too small a power of ten: their neighbour is read for them. -/
example : ¬RealReadsBack ⟨0x3C07A4DA290C1653⟩ := by
  decide +kernel

end ReadBack

end ScopeLint.Format
