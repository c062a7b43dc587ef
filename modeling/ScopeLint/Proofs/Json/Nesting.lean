import ScopeLint.Proofs.Json.Extent
import ScopeLint.Proofs.Json.Strings

/-!
The brackets of a written value, counted on its text. A counter goes up at an opening bracket
and down at a closing one, outside strings; the largest count that it reaches is the depth of
the value.
-/

set_option autoImplicit false

namespace ScopeLint.Json

/-- Where a character stands: outside all strings, in a string, or after a backslash in one. -/
inductive Place where
  | outside | string | escape

/-- The largest number of brackets open at once from here on, with `opened` open so far. -/
def deepest : Place → Nat → List Char → Nat
  | _, opened, [] => opened
  | .outside, opened, char :: rest =>
      if char = '"' then deepest .string opened rest
      else if char = '[' ∨ char = '\x7b' then deepest .outside (opened + 1) rest
      else if char = ']' ∨ char = '\x7d' then max opened (deepest .outside (opened - 1) rest)
      else deepest .outside opened rest
  | .string, opened, char :: rest =>
      if char = '"' then deepest .outside opened rest
      else if char = '\\' then deepest .escape opened rest
      else deepest .string opened rest
  | .escape, opened, _ :: rest => deepest .string opened rest

/-- The largest number of brackets open at once in a text. -/
def nesting (text : String) : Nat :=
  deepest .outside 0 text.toList

theorem le_deepest (place : Place) (opened : Nat) (text : List Char) :
    opened ≤ deepest place opened text := by
  induction text generalizing place opened with
  | nil => cases place <;> exact Nat.le_refl opened
  | cons char rest ih =>
      cases place with
      | outside =>
          rw [deepest]
          split
          · exact ih _ _
          · split
            · exact (Nat.le_succ opened).trans (ih _ _)
            · split
              · exact Nat.le_max_left _ _
              · exact ih _ _
      | string =>
          rw [deepest]
          split
          · exact ih _ _
          · split
            · exact ih _ _
            · exact ih _ _
      | escape => exact ih _ _

/-! ### Texts without brackets -/

/-- A character that neither opens nor closes anything. -/
def IsPlain (char : Char) : Prop :=
  char ≠ '"' ∧ ¬(char = '[' ∨ char = '\x7b') ∧ ¬(char = ']' ∨ char = '\x7d')

theorem deepest_plain {text : List Char} (plain : ∀ char ∈ text, IsPlain char) (opened : Nat)
    (rest : List Char) : deepest .outside opened (text ++ rest) = deepest .outside opened rest := by
  induction text with
  | nil => rfl
  | cons char text ih =>
      rw [List.forall_mem_cons] at plain
      rcases plain.1 with ⟨notQuote, notOpening, notClosing⟩
      rw [List.cons_append, deepest, if_neg notQuote, if_neg notOpening, if_neg notClosing]
      exact ih plain.2

theorem isPlain_of_isDigit {char : Char} (isDigit : char.isDigit = true) : IsPlain char := by
  have differs {other : Char} (noNumber : other ≠ '-' ∧ other.isDigit = false) : char ≠ other :=
    ne_of_numberStart (.inr isDigit) noNumber
  simp only [IsPlain, not_or]
  exact ⟨differs ⟨by decide, rfl⟩, ⟨differs ⟨by decide, rfl⟩, differs ⟨by decide, rfl⟩⟩,
    differs ⟨by decide, rfl⟩, differs ⟨by decide, rfl⟩⟩

private theorem isPlain_of_allDigits {digits : List Char} (allDigits : AllDigits digits) :
    ∀ char ∈ digits, IsPlain char :=
  fun char isMember => isPlain_of_isDigit (allDigits char isMember)

private theorem isPlain_of_spellsFraction {digits fraction : List Char}
    (spells : SpellsFraction digits fraction) : ∀ char ∈ fraction, IsPlain char := by
  cases spells with
  | none => exact nofun
  | some _ allDigits =>
      exact List.forall_mem_cons.mpr ⟨by simp [IsPlain], isPlain_of_allDigits allDigits⟩

private theorem isPlain_of_spellsExponent {value : Option Int} {exponent : List Char}
    (spells : SpellsExponent value exponent) : ∀ char ∈ exponent, IsPlain char := by
  have mark {mark : Char} (isMark : mark = 'e' ∨ mark = 'E') : IsPlain mark := by
    rcases isMark with rfl | rfl
    · simp [IsPlain]
    · simp [IsPlain]
  cases spells with
  | none => exact nofun
  | unsigned isMark _ allDigits =>
      exact List.forall_mem_cons.mpr ⟨mark isMark, isPlain_of_allDigits allDigits⟩
  | plus isMark _ allDigits | minus isMark _ allDigits =>
      exact List.forall_mem_cons.mpr ⟨mark isMark,
        List.forall_mem_cons.mpr ⟨by simp [IsPlain], isPlain_of_allDigits allDigits⟩⟩

theorem isPlain_of_spellsNumeral {numeral : Numeral} {text : List Char}
    (spells : SpellsNumeral numeral text) : ∀ char ∈ text, IsPlain char := by
  cases spells with
  | mk isWhole isFraction isExponent =>
      rw [List.forall_mem_append, List.forall_mem_append, List.forall_mem_append]
      refine ⟨?_, isPlain_of_allDigits isWhole.allDigits, isPlain_of_spellsFraction isFraction,
        isPlain_of_spellsExponent isExponent⟩
      cases numeral.negative <;> simp [signChars, IsPlain]

theorem isPlain_realChars (value : Binary64) : ∀ char ∈ realChars value, IsPlain char := by
  by_cases isFinite : value.isFinite = true
  · obtain ⟨numeral, spells, _⟩ := spellsNumeral_finiteChars realFormat isFinite
    rw [realChars, if_pos isFinite]
    exact isPlain_of_spellsNumeral spells
  · rw [realChars, if_neg isFinite]
    simp [IsPlain]

/-! ### Strings -/

theorem ne_quote_of_hexValue? {char : Char} {value : Nat}
    (isHex : Text.hexValue? char = some value) : char ≠ '"' ∧ char ≠ '\\' := by
  have quote : Text.hexValue? '"' = none := by decide
  have backslash : Text.hexValue? '\\' = none := by decide
  constructor
  · rintro rfl
    rw [quote] at isHex
    exact nomatch isHex
  · rintro rfl
    rw [backslash] at isHex
    exact nomatch isHex

theorem deepest_hexUnit {a b c d : Char} {unit : Nat} (isUnit : hexUnit? a b c d = some unit)
    (opened : Nat) (rest : List Char) :
    deepest .escape opened ('u' :: a :: b :: c :: d :: rest) = deepest .string opened rest := by
  unfold hexUnit? at isUnit
  split at isUnit
  next isA isB isC isD =>
      simp only [deepest, ne_quote_of_hexValue? isA, ne_quote_of_hexValue? isB,
        ne_quote_of_hexValue? isC, ne_quote_of_hexValue? isD, if_false]
  next => exact nomatch isUnit

theorem deepest_looseChar {spelled : List Char} (loose : LooseChar spelled) (opened : Nat)
    (rest : List Char) :
    deepest .string opened (spelled ++ rest) = deepest .string opened rest := by
  have backslash (rest : List Char) :
      deepest .string opened ('\\' :: rest) = deepest .escape opened rest := by
    rw [deepest, if_neg (by decide), if_pos rfl]
  cases loose with
  | raw isRaw =>
      rw [List.cons_append, deepest, if_neg isRaw.1, if_neg isRaw.2.1]
      rfl
  | short _ => exact (backslash _).trans rfl
  | unit isUnit => exact (backslash _).trans (deepest_hexUnit isUnit opened rest)

private theorem deepest_looseChars {inside : List Char} (loose : LooseChars inside)
    (opened : Nat) (rest : List Char) :
    deepest .string opened (inside ++ rest) = deepest .string opened rest := by
  induction loose with
  | nil => rfl
  | cons first others ih => rw [List.append_assoc, deepest_looseChar first, ih]

/-- Nothing inside a string counts. -/
theorem deepest_looseString {text : List Char} (loose : LooseString text) (opened : Nat)
    (rest : List Char) : deepest .outside opened (text ++ rest) = deepest .outside opened rest := by
  obtain ⟨inside, loose, rfl⟩ := loose
  rw [List.cons_append, List.append_assoc, List.cons_append, List.nil_append, deepest,
    if_pos rfl, deepest_looseChars loose, deepest, if_pos rfl]

theorem LooseChars.append {first second : List Char} (loose : LooseChars first)
    (looseAfter : LooseChars second) : LooseChars (first ++ second) := by
  induction loose with
  | nil => exact looseAfter
  | cons char others ih =>
      rw [List.append_assoc]
      exact .cons char ih

theorem LooseChar.single {text : List Char} (loose : LooseChar text) : LooseChars text := by
  rw [← List.append_nil text]
  exact .cons loose .nil

theorem SpellsChar.loose {char : Char} {text : List Char} (spells : SpellsChar char text) :
    LooseChars text := by
  cases spells with
  | raw isRaw => exact (LooseChar.raw isRaw).single
  | short isShort => exact (LooseChar.short isShort).single
  | unit isUnit _ _ => exact (LooseChar.unit isUnit).single
  | pair isHighUnit _ isLowUnit _ =>
      exact .cons (.unit isHighUnit) (LooseChar.unit isLowUnit).single

theorem SpellsChars.loose {chars text : List Char} (spells : SpellsChars chars text) :
    LooseChars text := by
  induction spells with
  | nil => exact .nil
  | cons first others ih => exact first.loose.append ih

/-- What spells a string is a string of the grammar. -/
theorem SpellsString.loose {value : String} {text : List Char} (spells : SpellsString value text) :
    LooseString text := by
  obtain ⟨inside, spells, rfl⟩ := spells
  exact ⟨inside, spells.loose, rfl⟩

theorem deepest_stringChars (value : String) (opened : Nat) (rest : List Char) :
    deepest .outside opened (stringChars value ++ rest) = deepest .outside opened rest :=
  deepest_looseString (spellsString_stringChars value).loose opened rest

/-! ### Written values -/

/-- A text that opens nothing is a value of depth zero. -/
private theorem deepest_flat {opened : Nat} {text rest : List Char}
    (same : deepest .outside opened text = deepest .outside opened rest) :
    deepest .outside opened text = max (opened + 0) (deepest .outside opened rest) := by
  rw [same, Nat.add_zero, Nat.max_eq_right (le_deepest _ _ _)]

private theorem deepest_step {char : Char} (isPlain : IsPlain char) (opened : Nat)
    (rest : List Char) :
    deepest .outside opened (char :: rest) = deepest .outside opened rest :=
  deepest_plain (List.forall_mem_singleton.mpr isPlain) opened rest

theorem deepest_closing {char : Char} (isClosing : char = ']' ∨ char = '\x7d')
    (opened : Nat) (rest : List Char) :
    deepest .outside (opened + 1) (char :: rest) =
      max (opened + 1) (deepest .outside opened rest) := by
  rcases isClosing with rfl | rfl
  · rfl
  · rfl

theorem deepest_opening {char : Char} (isOpening : char = '[' ∨ char = '\x7b')
    (opened : Nat) (rest : List Char) :
    deepest .outside opened (char :: rest) = deepest .outside (opened + 1) rest := by
  rcases isOpening with rfl | rfl
  · rfl
  · rfl

mutual

/-- A value reaches as many brackets above those already open as it is deep. -/
theorem deepest_chars (json : Json) (opened : Nat) (rest : List Char) :
    deepest .outside opened (json.chars ++ rest) =
      max (opened + json.depth) (deepest .outside opened rest) := by
  cases json with
  | null => exact deepest_flat (deepest_plain (by simp [chars, IsPlain]) opened rest)
  | truth value =>
      refine deepest_flat (deepest_plain ?_ opened rest)
      cases value <;> simp [chars, IsPlain]
  | integer value =>
      exact deepest_flat
        (deepest_plain (isPlain_of_spellsNumeral (spellsNumeral_int value)) opened rest)
  | real value => exact deepest_flat (deepest_plain (isPlain_realChars value) opened rest)
  | string value => exact deepest_flat (deepest_stringChars value opened rest)
  | array items =>
      cases items with
      | nil =>
          rw [chars, List.cons_append, deepest_opening (.inl rfl), List.cons_append,
            deepest_closing (.inl rfl), List.nil_append, depth, itemsDepth]
      | cons item items =>
          rw [chars, List.cons_append, List.cons_append, List.append_assoc,
            deepest_opening (.inl rfl), deepest_chars item, deepest_itemsChars items, depth,
            itemsDepth]
          omega
  | object members =>
      cases members with
      | nil =>
          rw [chars, List.cons_append, deepest_opening (.inr rfl), List.cons_append,
            deepest_closing (.inr rfl), List.nil_append, depth, membersDepth]
      | cons member members =>
          cases member with
          | mk key value =>
              simp only [chars, List.cons_append, List.append_assoc]
              rw [deepest_opening (.inr rfl), deepest_stringChars, deepest_step (by simp [IsPlain]),
                deepest_chars value, deepest_membersChars members, depth, membersDepth]
              omega
termination_by structural json

theorem deepest_itemsChars (items : List Json) (opened : Nat) (rest : List Char) :
    deepest .outside (opened + 1) (itemsChars items ++ rest) =
      max (opened + 1 + itemsDepth items) (deepest .outside opened rest) := by
  cases items with
  | nil => rw [itemsChars, List.cons_append, deepest_closing (.inl rfl)]; rfl
  | cons item items =>
      rw [itemsChars, List.cons_append, List.cons_append, List.append_assoc,
        deepest_step (by simp [IsPlain]), deepest_chars item, deepest_itemsChars items, itemsDepth]
      omega
termination_by structural items

theorem deepest_membersChars (members : List (String × Json)) (opened : Nat) (rest : List Char) :
    deepest .outside (opened + 1) (membersChars members ++ rest) =
      max (opened + 1 + membersDepth members) (deepest .outside opened rest) := by
  cases members with
  | nil => rw [membersChars, List.cons_append, deepest_closing (.inr rfl)]; rfl
  | cons member members =>
      cases member with
      | mk key value =>
          simp only [membersChars, List.cons_append, List.append_assoc]
          rw [deepest_step (by simp [IsPlain]), deepest_stringChars,
            deepest_step (by simp [IsPlain]), deepest_chars value, deepest_membersChars members,
            membersDepth]
          omega
termination_by structural members

end

/-- The depth of a value is what counting the brackets of its text gives. -/
theorem nesting_text (json : Json) : nesting json.text = json.depth := by
  have counted := deepest_chars json 0 []
  rw [List.append_nil, Nat.zero_add] at counted
  rw [nesting, text, String.toList_ofList, counted]
  exact Nat.max_eq_left (Nat.zero_le _)

end ScopeLint.Json
