import ScopeLint.Proofs.Json.Numeral

/-!
What a reader needs to know of a written value before it reads it: how many brackets it opens,
which reals are in it, and the character that it begins with.
-/

set_option autoImplicit false

namespace ScopeLint.Json

mutual

/-- The reals in a value, from left to right. -/
def reals : Json → List Binary64
  | null | truth _ | integer _ | string _ => []
  | real value => [value]
  | array items => itemsReals items
  | object members => membersReals members

def itemsReals : List Json → List Binary64
  | [] => []
  | item :: items => item.reals ++ itemsReals items

def membersReals : List (String × Json) → List Binary64
  | [] => []
  | (_, value) :: members => value.reals ++ membersReals members

end

/-- A value that can be read where `budget` more brackets may be open, if a reader asks of every
real that it holds. -/
structure Fits (holds : Binary64 → Prop) (budget : Nat) (json : Json) : Prop where
  depth_le : json.depth ≤ budget
  reals : ∀ value ∈ json.reals, holds value

theorem itemsDepth_le_iff {items : List Json} {budget : Nat} :
    itemsDepth items ≤ budget ↔ ∀ item ∈ items, item.depth ≤ budget := by
  induction items with
  | nil => simp only [itemsDepth, Nat.zero_le, List.not_mem_nil, false_implies, implies_true]
  | cons item items ih => rw [List.forall_mem_cons, ← ih, itemsDepth, Nat.max_le]

theorem mem_itemsReals {items : List Json} {value : Binary64} :
    value ∈ itemsReals items ↔ ∃ item ∈ items, value ∈ item.reals := by
  induction items with
  | nil => simp only [itemsReals, List.not_mem_nil, false_and, exists_false]
  | cons item items ih => rw [List.exists_mem_cons_iff, ← ih, itemsReals, List.mem_append]

theorem membersDepth_le_iff {members : List (String × Json)} {budget : Nat} :
    membersDepth members ≤ budget ↔ ∀ member ∈ members, member.2.depth ≤ budget := by
  induction members with
  | nil => simp only [membersDepth, Nat.zero_le, List.not_mem_nil, false_implies, implies_true]
  | cons member members ih => rw [List.forall_mem_cons, ← ih, membersDepth, Nat.max_le]

theorem mem_membersReals {members : List (String × Json)} {value : Binary64} :
    value ∈ membersReals members ↔ ∃ member ∈ members, value ∈ member.2.reals := by
  induction members with
  | nil => simp only [membersReals, List.not_mem_nil, false_and, exists_false]
  | cons member members ih => rw [List.exists_mem_cons_iff, ← ih, membersReals, List.mem_append]

/-- A bracket takes one from the budget and leaves the rest to what is inside it. -/
theorem exists_inside {depth budget : Nat} (shallow : depth + 1 ≤ budget) :
    ∃ inside, budget = inside + 1 ∧ depth ≤ inside := by
  cases budget with
  | zero => exact absurd shallow (Nat.not_succ_le_zero depth)
  | succ inside => exact ⟨inside, rfl, Nat.le_of_succ_le_succ shallow⟩

section Fits

variable {holds : Binary64 → Prop}

/-- An array takes one bracket and leaves the others to its items. -/
theorem fits_array_iff {items : List Json} {budget : Nat} :
    Fits holds budget (.array items) ↔
      ∃ inner, budget = inner + 1 ∧ ∀ item ∈ items, Fits holds inner item := by
  constructor
  · rintro ⟨deep, reals⟩
    obtain ⟨inner, isInner, deepInside⟩ := exists_inside deep
    have itemsDeep := itemsDepth_le_iff.mp deepInside
    exact ⟨inner, isInner, fun item isItem => ⟨itemsDeep item isItem, fun value isReal =>
      reals value (mem_itemsReals.mpr ⟨item, isItem, isReal⟩)⟩⟩
  · rintro ⟨inner, rfl, itemsFit⟩
    have itemsDeep := itemsDepth_le_iff.mpr fun item isItem => (itemsFit item isItem).depth_le
    refine ⟨Nat.succ_le_succ itemsDeep, fun value isReal => ?_⟩
    obtain ⟨item, isItem, isReal⟩ := mem_itemsReals.mp isReal
    exact (itemsFit item isItem).reals value isReal

/-- An object takes one bracket and leaves the others to the values of its members. -/
theorem fits_object_iff {members : List (String × Json)} {budget : Nat} :
    Fits holds budget (.object members) ↔
      ∃ inner, budget = inner + 1 ∧ ∀ member ∈ members, Fits holds inner member.2 := by
  constructor
  · rintro ⟨deep, reals⟩
    obtain ⟨inner, isInner, deepInside⟩ := exists_inside deep
    have membersDeep := membersDepth_le_iff.mp deepInside
    exact ⟨inner, isInner, fun member isMember => ⟨membersDeep member isMember,
      fun value isReal => reals value (mem_membersReals.mpr ⟨member, isMember, isReal⟩)⟩⟩
  · rintro ⟨inner, rfl, membersFit⟩
    have membersDeep := membersDepth_le_iff.mpr fun member isMember =>
      (membersFit member isMember).depth_le
    refine ⟨Nat.succ_le_succ membersDeep, fun value isReal => ?_⟩
    obtain ⟨member, isMember, isReal⟩ := mem_membersReals.mp isReal
    exact (membersFit member isMember).reals value isReal

theorem fits_null (budget : Nat) : Fits holds budget .null :=
  ⟨Nat.zero_le budget, nofun⟩

theorem fits_truth (budget : Nat) (value : Bool) : Fits holds budget (.truth value) :=
  ⟨Nat.zero_le budget, nofun⟩

theorem fits_integer (budget : Nat) (value : Int) : Fits holds budget (.integer value) :=
  ⟨Nat.zero_le budget, nofun⟩

theorem fits_string (budget : Nat) (value : String) : Fits holds budget (.string value) :=
  ⟨Nat.zero_le budget, nofun⟩

theorem fits_real {budget : Nat} {value : Binary64} :
    Fits holds budget (.real value) ↔ holds value :=
  ⟨fun fits => fits.reals value (List.mem_singleton_self value),
    fun isHeld => ⟨Nat.zero_le budget, List.forall_mem_singleton.mpr isHeld⟩⟩

theorem fits_tagged_iff {tag : String} {payload : Json} {budget : Nat} :
    Fits holds budget (.object [(tag, payload)]) ↔
      ∃ inner, budget = inner + 1 ∧ Fits holds inner payload := by
  rw [fits_object_iff]
  simp only [List.forall_mem_singleton]

end Fits

/-! ### The first character -/

/-- Whether null is written for a value. -/
def showsNull : Json → Bool
  | null => true
  | real value => !value.isFinite
  | _ => false

theorem showsNull_of_finite {json : Json} (finite : ∀ value ∈ json.reals, value.isFinite = true)
    (notNull : json ≠ .null) : json.showsNull = false := by
  cases json with
  | null => exact absurd rfl notNull
  | real value => rw [showsNull, finite value (List.mem_singleton_self value), Bool.not_true]
  | _ => rfl

/-- The first character of a value is never blank or a closing bracket, and tells null from all
else. -/
structure Opens (json : Json) (char : Char) : Prop where
  notBlank : isBlank char = false
  notClosing : char ≠ ']'
  notNull : json.showsNull = false → char ≠ 'n'

private theorem opens_of_number {json : Json} {char : Char}
    (isNumber : char = '-' ∨ char.isDigit = true) : Opens json char where
  notBlank := notBlank_of_number isNumber
  notClosing := ne_of_numberStart isNumber ⟨by decide, rfl⟩
  notNull _ := ne_of_numberStart isNumber ⟨by decide, rfl⟩

theorem chars_cons (json : Json) :
    ∃ char others, json.chars = char :: others ∧ Opens json char := by
  have opensWith {char : Char} (notBlank : isBlank char = false) (notClosing : char ≠ ']')
      (notNull : char ≠ 'n') : Opens json char := ⟨notBlank, notClosing, fun _ => notNull⟩
  cases json with
  | null => exact ⟨'n', _, rfl, rfl, by decide, nofun⟩
  | truth value =>
      cases value with
      | true => exact ⟨'t', _, rfl, opensWith rfl (by decide) (by decide)⟩
      | false => exact ⟨'f', _, rfl, opensWith rfl (by decide) (by decide)⟩
  | integer value =>
      obtain ⟨char, others, isText, isNumber⟩ := (spellsNumeral_int value).exists_cons
      refine ⟨char, others, ?_, opens_of_number isNumber⟩
      rw [chars, isText]
  | real value =>
      by_cases isFinite : value.isFinite = true
      · obtain ⟨numeral, spells, _⟩ := spellsNumeral_finiteChars realFormat isFinite
        obtain ⟨char, others, isText, isNumber⟩ := spells.exists_cons
        refine ⟨char, others, ?_, opens_of_number isNumber⟩
        rw [chars, realChars, if_pos isFinite, isText]
      · refine ⟨'n', ['u', 'l', 'l'], ?_, rfl, by decide, fun notNull => ?_⟩
        · rw [chars, realChars, if_neg isFinite]
        · rw [showsNull, Bool.not_eq_false'] at notNull
          exact absurd notNull isFinite
  | string value => exact ⟨'"', _, rfl, opensWith rfl (by decide) (by decide)⟩
  | array items =>
      cases items with
      | nil => exact ⟨'[', _, rfl, opensWith rfl (by decide) (by decide)⟩
      | cons item items => exact ⟨'[', _, rfl, opensWith rfl (by decide) (by decide)⟩
  | object members =>
      cases members with
      | nil => exact ⟨'{', _, rfl, opensWith rfl (by decide) (by decide)⟩
      | cons member members =>
          cases member with
          | mk key value => exact ⟨'{', _, rfl, opensWith rfl (by decide) (by decide)⟩

end ScopeLint.Json
