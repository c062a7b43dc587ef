import ScopeLint.Proofs.Format.Scalar
import ScopeLint.Proofs.Format.Written

/-!
Whatever is read can be written. However a text spells a value, what is written of the value
fits the budget of open brackets that the reader had, and its reals are finite.
-/

set_option autoImplicit false

namespace ScopeLint.Format

open Json (skipBlanks)

/-- A reader of forms gives only values that are written within a budget. -/
def Admits (read : (form : Form) → Reader form.Carrier) (budget : Nat) : Prop :=
  ∀ (form : Form) (text rest : List Char) (content : form.Carrier),
    read form text = .ok (content, rest) → (form.toJson content).Fits (·.isFinite) budget

/-- A reader for what is inside a bracket is there only where one may be opened. -/
def Inner.Admits (inner : Inner) (budget : Nat) : Prop :=
  ∀ read, inner = some read → ∃ inside, budget = inside + 1 ∧ Format.Admits read inside

/-! ### Lists -/

/-- Whatever holds of every item that is read holds of every item of the list. -/
theorem forall_of_readItems {α : Type} {item : Reader α} {holds : α → Prop}
    (ofItem : ∀ text value rest, item text = .ok (value, rest) → holds value)
    {rounds : List Char} {started : Bool} {taken values : List α} {text rest : List Char}
    (isRead : readItems item rounds started taken text = .ok (values, rest))
    (ofTaken : ∀ value ∈ taken, holds value) : ∀ value ∈ values, holds value := by
  induction rounds generalizing started taken text with
  | nil => exact nomatch isRead
  | cons _ rounds ih =>
      unfold readItems at isRead
      split at isRead
      next => exact nomatch isRead
      next char others _ =>
          split at isRead
          next =>
              cases isRead
              intro value isValue
              exact ofTaken value (List.mem_reverse.mp isValue)
          next =>
              split at isRead
              next => exact nomatch isRead
              next =>
                  split at isRead
                  next => exact nomatch isRead
                  next value tail itemRead =>
                      refine ih isRead ?_
                      rw [List.forall_mem_cons]
                      exact ⟨ofItem _ value tail itemRead, ofTaken⟩

/-! ### Records -/

def Slots.Fit (budget : Nat) : (fields : List Field) → Slots fields → Prop
  | [], () => True
  | field :: fields, (slot, slots) =>
      (∀ content, slot = some content → (field.toJson content).Fits (·.isFinite) budget) ∧
        Slots.Fit budget fields slots

theorem Slots.fit_empty (budget : Nat) (fields : List Field) :
    Slots.Fit budget fields (Slots.empty fields) := by
  induction fields with
  | nil => trivial
  | cons field fields ih => exact ⟨nofun, ih⟩

theorem Slots.fit_of_close {budget : Nat} {fields : List Field} {slots : Slots fields}
    {row : Row fields} (fit : Slots.Fit budget fields slots)
    (closed : Slots.close fields slots = .ok row) :
    ∀ entry ∈ Row.members fields row, entry.2.Fits (·.isFinite) budget := by
  induction fields with
  | nil =>
      intro entry isEntry
      cases isEntry
  | cons field fields ih =>
      cases slots with
      | mk slot slots =>
          have ofTail {content : field.Carrier} {tail : Row fields}
              (first : (field.toJson content).Fits (·.isFinite) budget)
              (tailClosed : Slots.close fields slots = .ok tail)
              (whole : (content, tail) = row) :
              ∀ entry ∈ Row.members (field :: fields) row, entry.2.Fits (·.isFinite) budget := by
            rw [← whole, Row.members, List.forall_mem_cons]
            exact ⟨first, ih fit.2 tailClosed⟩
          cases field with
          | required key shape =>
              cases slot with
              | none => simp only [close, reduceCtorEq] at closed
              | some content =>
                  simp only [close] at closed
                  cases tailClosed : Slots.close fields slots with
                  | error problem => simp only [tailClosed, Except.map, reduceCtorEq] at closed
                  | ok tail =>
                      rw [tailClosed] at closed
                      exact ofTail (fit.1 content rfl) tailClosed (Except.ok.inj closed)
          | optional key shape =>
              simp only [close] at closed
              cases tailClosed : Slots.close fields slots with
              | error problem => simp only [tailClosed, Except.map, reduceCtorEq] at closed
              | ok tail =>
                  rw [tailClosed] at closed
                  refine ofTail ?_ tailClosed (Except.ok.inj closed)
                  cases slot with
                  | none => exact Json.fits_null budget
                  | some content => exact fit.1 content rfl

section Records

variable {read : (form : Form) → Reader form.Carrier} {budget : Nat}

theorem fits_of_readField (admits : Admits read budget) {field : Field} {text rest : List Char}
    {content : field.Carrier} (isRead : readField read field text = .ok (content, rest)) :
    (field.toJson content).Fits (·.isFinite) budget := by
  cases field with
  | required key shape => exact admits (.value shape) text rest content isRead
  | optional key shape =>
      unfold readField at isRead
      simp only at isRead
      split at isRead
      next =>
          unfold readWord at isRead
          split at isRead
          next => exact nomatch isRead
          next =>
              cases isRead
              exact Json.fits_null budget
      next =>
          obtain ⟨value, valueRead, rfl⟩ := Outcome.onValue_eq_ok isRead
          exact admits (.value shape) _ rest value valueRead

theorem fit_of_readEntry (admits : Admits read budget) {key : String} {fields : List Field}
    {slots filled : Slots fields} {text rest : List Char} (fit : slots.Fit budget fields)
    (isRead : readEntry read key fields slots text = .ok (filled, rest)) :
    Slots.Fit budget fields filled := by
  induction fields with
  | nil => trivial
  | cons field fields ih =>
      cases slots with
      | mk slot slots =>
          unfold readEntry at isRead
          split at isRead
          next =>
              split at isRead
              next => exact nomatch isRead
              next =>
                  split at isRead
                  next => exact nomatch isRead
                  next =>
                      obtain ⟨content, contentRead, rfl⟩ := Outcome.onValue_eq_ok isRead
                      refine ⟨fun other same => ?_, fit.2⟩
                      rw [← Option.some.inj same]
                      exact fits_of_readField admits contentRead
          next =>
              obtain ⟨others, othersRead, rfl⟩ := Outcome.onValue_eq_ok isRead
              exact ⟨fit.1, ih fit.2 othersRead⟩

theorem fit_of_readEntries (admits : Admits read budget) {fields : List Field}
    {rounds : List Char} {started : Bool} {slots : Slots fields} {text rest : List Char}
    {row : Row fields} (fit : slots.Fit budget fields)
    (isRead : readEntries read fields rounds started slots text = .ok (row, rest)) :
    ∀ entry ∈ Row.members fields row, entry.2.Fits (·.isFinite) budget := by
  induction rounds generalizing started slots text with
  | nil => exact nomatch isRead
  | cons _ rounds ih =>
      unfold readEntries at isRead
      split at isRead
      next => exact nomatch isRead
      next =>
          split at isRead
          next =>
              split at isRead
              next => exact nomatch isRead
              next closed =>
                  cases isRead
                  exact Slots.fit_of_close fit closed
          next =>
              split at isRead
              next => exact nomatch isRead
              next =>
                  split at isRead
                  next => exact nomatch isRead
                  next =>
                      split at isRead
                      next => exact nomatch isRead
                      next entryRead =>
                          exact ih (fit_of_readEntry admits fit entryRead) isRead

theorem fit_of_readPositions (admits : Admits read budget) {title : String} {size index : Nat}
    {fields : List Field} {text rest : List Char} {row : Row fields}
    (isRead : readPositions read title size index fields text = .ok (row, rest)) :
    ∀ entry ∈ Row.members fields row, entry.2.Fits (·.isFinite) budget := by
  induction fields generalizing index text with
  | nil =>
      intro entry isEntry
      exact nomatch isEntry
  | cons field fields ih =>
      unfold readPositions at isRead
      split at isRead
      next => exact nomatch isRead
      next =>
          split at isRead
          next => exact nomatch isRead
          next =>
              split at isRead
              next => exact nomatch isRead
              next =>
                  split at isRead
                  next => exact nomatch isRead
                  next contentRead =>
                      obtain ⟨others, othersRead, rfl⟩ := Outcome.onValue_eq_ok isRead
                      rw [Row.members, List.forall_mem_cons]
                      exact ⟨fits_of_readField admits contentRead, ih othersRead⟩

end Records

/-! ### Forms -/

section Nodes

variable {inner : Inner} {budget : Nat}

theorem fits_of_readRecord (admits : inner.Admits budget) {title : String} {fields : List Field}
    {text rest : List Char} {row : Row fields}
    (isRead : readRecord inner title fields text = .ok (row, rest)) :
    (Json.object (Row.members fields row)).Fits (·.isFinite) budget := by
  unfold readRecord at isRead
  split at isRead
  next =>
      split at isRead
      next => exact nomatch isRead
      next read =>
          obtain ⟨inside, isInside, readAdmits⟩ := admits read rfl
          exact Json.fits_object_iff.mpr ⟨inside, isInside,
            fit_of_readEntries readAdmits (Slots.fit_empty inside fields) isRead⟩
  next =>
      split at isRead
      next => exact nomatch isRead
      next read =>
          obtain ⟨inside, isInside, readAdmits⟩ := admits read rfl
          exact Json.fits_object_iff.mpr ⟨inside, isInside,
            fit_of_readPositions readAdmits isRead⟩
  next => exact absurd isRead (mismatch_ne_ok _ _ _)

/-- The data of a case fits, tagged or not, if it was read inside one more bracket. -/
theorem fits_of_readPayload {read : (form : Form) → Reader form.Carrier} {inside : Nat}
    (admits : Admits read inside) (tag : String) {payload : Payload} {data : payload.Carrier}
    {text rest : List Char} (isRead : readPayload read payload text = .ok (data, rest)) :
    (payload.toJson tag data).Fits (·.isFinite) (inside + 1) := by
  cases payload with
  | nothing => exact Json.fits_string _ tag
  | one form =>
      exact Json.fits_tagged_iff.mpr ⟨inside, rfl, admits form text rest data isRead⟩
  | several title fields =>
      exact Json.fits_tagged_iff.mpr
        ⟨inside, rfl, admits (.record title fields) text rest data isRead⟩

theorem mem_of_findCase {α : Type} {tag : String} {cases : List (Case α)} {entry : Case α}
    (found : findCase tag cases = some entry) : entry ∈ cases :=
  List.mem_of_find?_eq_some found

theorem fits_of_readChoice {α : Type} {write : α → Json} {cases : List (Case α)}
    (admits : inner.Admits budget)
    (written : ∀ entry ∈ cases, ∀ data,
      write (entry.make data) = entry.payload.toJson entry.tag data)
    {text rest : List Char} {node : α}
    (isRead : readChoice inner cases text = .ok (node, rest)) :
    (write node).Fits (·.isFinite) budget := by
  unfold readChoice at isRead
  split at isRead
  next =>
      split at isRead
      next => exact nomatch isRead
      next =>
          split at isRead
          next => exact nomatch isRead
          next entry found =>
              have writtenOf := written entry (mem_of_findCase found)
              cases entry with
              | mk tag payload make part =>
                  cases payload with
                  | nothing =>
                      cases isRead
                      rw [writtenOf ()]
                      exact Json.fits_string budget tag
                  | one form => exact nomatch isRead
                  | several title fields => exact nomatch isRead
  next =>
      split at isRead
      next => exact nomatch isRead
      next read =>
          obtain ⟨inside, rfl, readAdmits⟩ := admits read rfl
          unfold readTagged at isRead
          split at isRead
          next => exact nomatch isRead
          next =>
              split at isRead
              next => exact nomatch isRead
              next entry found =>
                  split at isRead
                  next => exact nomatch isRead
                  next =>
                      split at isRead
                      next => exact nomatch isRead
                      next data _ payloadRead =>
                          split at isRead
                          next =>
                              cases isRead
                              rw [written entry (mem_of_findCase found)]
                              exact fits_of_readPayload readAdmits entry.tag payloadRead
                          next => exact nomatch isRead
  next => exact nomatch isRead

theorem fits_of_readNode {α : Type} {write : α → Json} {layout : Layout α}
    (agrees : layout.Agrees write) (admits : inner.Admits budget) {text rest : List Char}
    {node : α} (isRead : readNode inner layout text = .ok (node, rest)) :
    (write node).Fits (·.isFinite) budget := by
  cases agrees with
  | record title fields make parts keysDistinct make_parts write_make =>
      obtain ⟨row, rowRead, rfl⟩ := Outcome.onValue_eq_ok isRead
      rw [write_make]
      exact fits_of_readRecord admits rowRead
  | choice cases tagsDistinct keysDistinct covers make_part write_make =>
      exact fits_of_readChoice admits write_make isRead

theorem fits_of_readList (admits : inner.Admits budget) {item : Shape} {text rest : List Char}
    {contents : List item.Carrier}
    (isRead : readList inner item text = .ok (contents, rest)) :
    (Json.ofList item.toJson contents).Fits (·.isFinite) budget := by
  unfold readList at isRead
  split at isRead
  next =>
      split at isRead
      next => exact nomatch isRead
      next read =>
          obtain ⟨inside, isInside, readAdmits⟩ := admits read rfl
          refine Json.fits_array_iff.mpr ⟨inside, isInside, ?_⟩
          rw [List.forall_mem_map]
          exact forall_of_readItems
            (fun text content rest => readAdmits (.value item) text rest content) isRead
            (fun _ isTaken => nomatch isTaken)
  next => exact absurd isRead (mismatch_ne_ok _ _ _)

theorem admits_readWith (admits : inner.Admits budget) : Admits (readWith inner) budget := by
  intro form text rest content isRead
  cases form with
  | record title fields => exact fits_of_readRecord admits isRead
  | value shape =>
      cases shape with
      | text => exact Json.fits_string budget content
      | character => exact Json.fits_string budget (String.singleton content)
      | truth => exact Json.fits_truth budget content
      | integer width => exact Json.fits_integer budget (width.toInt content)
      | real => exact Json.fits_real.mpr (isFinite_of_readReal isRead)
      | list item => exact fits_of_readList admits isRead
      | node kind => exact fits_of_readNode kind.layout_agrees admits isRead

end Nodes

theorem admits_readForm (budget : Nat) : Admits (readForm budget) budget := by
  induction budget with
  | zero => exact admits_readWith fun _ impossible => nomatch impossible
  | succ budget ih =>
      refine admits_readWith fun read same => ⟨budget, rfl, ?_⟩
      rw [← Option.some.inj same]
      exact ih

end ScopeLint.Format
