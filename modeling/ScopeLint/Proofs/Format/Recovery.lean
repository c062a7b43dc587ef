import ScopeLint.Proofs.Format.Scalar
import ScopeLint.Proofs.Format.Written

/-!
Whatever is written is read. A written value that fits the budget of open brackets is given
back by the reader, with the text after it untouched.
-/

set_option autoImplicit false

namespace ScopeLint.Format

open Json (NumberEnds skipBlanks)

/-! ### Where an item stands -/

/-- What stands before an item: a comma, but for the first one. -/
def lead (started : Bool) : List Char :=
  if started = true then [','] else []

/-- Its comma is found there, or its own first character, and no end. -/
theorem skipBlanks_lead (started : Bool) {first closing : Char} (others : List Char)
    (notBlank : Json.isBlank first = false) (notClosing : first ≠ closing)
    (noComma : ',' ≠ closing) :
    ∃ char tail, skipBlanks (lead started ++ first :: others) = char :: tail ∧ char ≠ closing ∧
      ¬(started = true ∧ char ≠ ',') ∧
      (if started = true then tail else char :: tail) = first :: others := by
  cases started with
  | true =>
      exact ⟨',', first :: others, Json.skipBlanks_cons (by decide) _, noComma,
        fun no => no.2 rfl, rfl⟩
  | false =>
      exact ⟨first, others, Json.skipBlanks_cons notBlank _, notClosing,
        fun no => Bool.false_ne_true no.1, rfl⟩

/-! ### Lists -/

theorem itemsChars_cons (item : Json) (items : List Json) (rest : List Char) :
    Json.itemsChars (item :: items) ++ rest =
      lead true ++ (item.chars ++ (Json.itemsChars items ++ rest)) := by
  simp only [Json.itemsChars, lead, if_true, List.cons_append, List.nil_append,
    List.append_assoc]

theorem numberEnds_itemsChars (items : List Json) (rest : List Char) :
    NumberEnds (Json.itemsChars items ++ rest) := by
  cases items with
  | nil => exact Json.numberEnds_cons (by decide)
  | cons item items => exact Json.numberEnds_cons (by decide)

theorem length_lt_itemsChars (items : List Json) :
    items.length < (Json.itemsChars items).length := by
  induction items with
  | nil => exact Nat.one_pos
  | cons item items ih =>
      simp only [Json.itemsChars, List.cons_append, List.length_cons, List.length_append]
      omega

section Lists

variable {α : Type} {item : Reader α} {write : α → Json}

/-- A reader gives back a value that a writer writes. -/
def Gives (item : Reader α) (write : α → Json) (value : α) : Prop :=
  ∀ rest, NumberEnds rest → item ((write value).chars ++ rest) = .ok (value, rest)

/-- Where an item stands, its reader decides what comes next. -/
theorem readItems_lead (started : Bool) {round : Char} {rounds left : List Char}
    (isRound : rounds = round :: left) (taken : List α) (value : α) (rest : List Char) :
    (∀ problem, item ((write value).chars ++ rest) = .error problem →
      readItems item rounds started taken (lead started ++ ((write value).chars ++ rest)) =
        .error problem) ∧
    (∀ found tail, item ((write value).chars ++ rest) = .ok (found, tail) →
      readItems item rounds started taken (lead started ++ ((write value).chars ++ rest)) =
        readItems item left true (found :: taken) tail) := by
  obtain ⟨first, others, written, opens⟩ := Json.chars_cons (write value)
  rw [written, List.cons_append, isRound]
  obtain ⟨char, tail, skipped, notEnd, isComma, isItem⟩ :=
    skipBlanks_lead started (others ++ rest) opens.notBlank opens.notClosing (by decide)
  constructor
  · intro problem itemRead
    simp only [readItems, skipped, notEnd, isComma, if_false, isItem, itemRead]
  · intro found tail itemRead
    simp only [readItems, skipped, notEnd, isComma, if_false, isItem, itemRead]

theorem readItems_itemsChars {values taken : List α} {rounds rest : List Char}
    (gives : ∀ value ∈ values, Gives item write value) (enough : values.length < rounds.length) :
    readItems item rounds true taken (Json.itemsChars (values.map write) ++ rest) =
      .ok (taken.reverse ++ values, rest) := by
  induction values generalizing rounds taken with
  | nil =>
      cases rounds with
      | nil => exact absurd enough (Nat.lt_irrefl 0)
      | cons _ rounds =>
          simp (disch := decide) only [readItems, List.map_nil, Json.itemsChars, List.cons_append,
            List.nil_append, Json.skipBlanks_cons, if_true, List.append_nil]
  | cons value values ih =>
      cases rounds with
      | nil => exact absurd enough (Nat.not_lt_zero _)
      | cons round rounds =>
          rw [List.forall_mem_cons] at gives
          have enoughLeft : values.length < rounds.length := Nat.lt_of_succ_lt_succ enough
          have valueRead := gives.1 (Json.itemsChars (values.map write) ++ rest)
            (numberEnds_itemsChars _ _)
          rw [List.map_cons, itemsChars_cons,
            (readItems_lead true rfl taken value _).2 _ _ valueRead,
            ih gives.2 enoughLeft, List.reverse_cons, List.append_assoc, List.cons_append,
            List.nil_append]

theorem readItems_chars {values : List α} (gives : ∀ value ∈ values, Gives item write value)
    (rest : List Char) :
    ∃ tail, (Json.ofList write values).chars ++ rest = '[' :: tail ∧
      readItems item tail false [] tail = .ok (values, rest) := by
  cases values with
  | nil => exact ⟨']' :: rest, rfl, rfl⟩
  | cons value values =>
      rw [List.forall_mem_cons] at gives
      have valueRead := gives.1 (Json.itemsChars (values.map write) ++ rest)
        (numberEnds_itemsChars _ _)
      refine ⟨(write value).chars ++ (Json.itemsChars (values.map write) ++ rest), ?_, ?_⟩
      · simp only [Json.ofList, List.map_cons, Json.chars, List.cons_append, List.append_assoc]
      · obtain ⟨round, left, written, _⟩ := Json.chars_cons (write value)
        have isRound : (write value).chars ++ (Json.itemsChars (values.map write) ++ rest) =
            round :: (left ++ (Json.itemsChars (values.map write) ++ rest)) := by
          rw [written, List.cons_append]
        have enough : values.length <
            (left ++ (Json.itemsChars (values.map write) ++ rest)).length := by
          have bound := length_lt_itemsChars (values.map write)
          rw [List.length_map] at bound
          simp only [List.length_append]
          omega
        have firstRead := (readItems_lead false isRound [] value _).2 _ _ valueRead
        exact firstRead.trans (readItems_itemsChars gives.2 enough)

end Lists

/-! ### Records -/

/-- The slots of a record when the fields of some keys have been read. -/
def Slots.taken (keys : List String) : (fields : List Field) → Row fields → Slots fields
  | [], () => ()
  | field :: fields, (content, row) =>
      (if field.key ∈ keys then some content else none, Slots.taken keys fields row)

theorem Slots.taken_nil (fields : List Field) (row : Row fields) :
    Slots.taken [] fields row = Slots.empty fields := by
  induction fields with
  | nil => rfl
  | cons field fields ih =>
      cases row with
      | mk content row => simp only [taken, List.not_mem_nil, if_false, ih, empty]

theorem Slots.taken_cons_of_notMem {key : String} (keys : List String) {fields : List Field}
    (row : Row fields) (unknown : key ∉ fields.map Field.key) :
    Slots.taken (key :: keys) fields row = Slots.taken keys fields row := by
  induction fields with
  | nil => rfl
  | cons field fields ih =>
      cases row with
      | mk content row =>
          rw [List.map_cons, List.mem_cons, not_or] at unknown
          have differs : field.key ≠ key := fun same => unknown.1 same.symm
          simp only [taken, List.mem_cons, differs, false_or, ih row unknown.2]

theorem Slots.close_taken {keys : List String} {fields : List Field} (row : Row fields)
    (complete : ∀ field ∈ fields, field.key ∈ keys) :
    Slots.close fields (Slots.taken keys fields row) = .ok row := by
  induction fields with
  | nil => rfl
  | cons field fields ih =>
      cases row with
      | mk content row =>
          rw [List.forall_mem_cons] at complete
          have closed := ih row complete.2
          cases field with
          | required key shape =>
              simp only [taken, complete.1, if_true, close, closed, Except.map]
          | optional key shape =>
              simp only [taken, complete.1, if_true, close, closed, Except.map, Option.getD_some]

section Records

variable {inner : (form : Form) → Reader form.Carrier}

/-- Every field of a row is given back by its reader. -/
def FieldsGiven (inner : (form : Form) → Reader form.Carrier) :
    (fields : List Field) → Row fields → Prop
  | [], () => True
  | field :: fields, (content, row) =>
      Gives (readField inner field) field.toJson content ∧ FieldsGiven inner fields row

/-- A field of a row with its content. -/
inductive Row.Holds :
    (fields : List Field) → Row fields → (field : Field) → field.Carrier → Prop where
  | first {field : Field} {fields : List Field} (content : field.Carrier) (row : Row fields) :
      Holds (field :: fields) (content, row) field content
  | later {field other : Field} {fields : List Field} {content : field.Carrier}
      {row : Row fields} (value : other.Carrier) (holds : Holds fields row field content) :
      Holds (other :: fields) (value, row) field content

theorem FieldsGiven.gives {fields : List Field} {row : Row fields} {field : Field}
    {content : field.Carrier} (given : FieldsGiven inner fields row)
    (holds : Row.Holds fields row field content) :
    Gives (readField inner field) field.toJson content := by
  induction holds with
  | first content row => exact given.1
  | later value holds ih => exact ih given.2

/-- What is still to be read of a record: entries of it whose keys have not been read, one for
every such key. -/
structure Pending (keys : List String) (entries : List (String × Json)) (fields : List Field)
    (row : Row fields) : Prop where
  known : ∀ entry ∈ entries, entry ∈ Row.members fields row
  distinct : (entries.map Prod.fst).Nodup
  fresh : ∀ entry ∈ entries, entry.1 ∉ keys
  complete : ∀ field ∈ fields, field.key ∈ keys ∨ field.key ∈ entries.map Prod.fst

theorem Pending.all {fields : List Field} (row : Row fields)
    (distinct : (fields.map Field.key).Nodup) : Pending [] (Row.members fields row) fields row where
  known _ isMember := isMember
  distinct := by
    rw [Row.keys_members]
    exact distinct
  fresh _ _ := List.not_mem_nil
  complete field isField := by
    rw [Row.keys_members]
    exact .inr (List.mem_map_of_mem isField)

theorem Pending.tail {keys : List String} {entry : String × Json}
    {entries : List (String × Json)} {fields : List Field} {row : Row fields}
    (pending : Pending keys (entry :: entries) fields row) :
    Pending (entry.1 :: keys) entries fields row := by
  rcases pending with ⟨known, distinct, fresh, complete⟩
  rw [List.map_cons, List.nodup_cons] at distinct
  refine ⟨fun other isOther => known other (List.mem_cons_of_mem _ isOther), distinct.2, ?_, ?_⟩
  · intro other isOther isTaken
    rcases List.mem_cons.mp isTaken with same | isTaken
    · exact distinct.1 (same ▸ List.mem_map_of_mem isOther)
    · exact fresh other (List.mem_cons_of_mem _ isOther) isTaken
  · intro field isField
    rcases complete field isField with isTaken | isLeft
    · exact .inl (List.mem_cons_of_mem _ isTaken)
    · rcases List.mem_cons.mp isLeft with same | isLeft
      · exact .inl (same ▸ List.mem_cons_self)
      · exact .inr isLeft

theorem Outcome.onValue_onValue {α β γ : Type} (outcome : Outcome α) (first : α → β)
    (second : β → γ) :
    (outcome.onValue first).onValue second = outcome.onValue fun value => second (first value) := by
  rcases outcome with problem | ⟨value, rest⟩
  · rfl
  · rfl

/-- An entry is read by the field of its key, and what is read goes to the slot of that field. -/
theorem readEntry_colon (inner : (form : Form) → Reader form.Carrier) {fields : List Field}
    {row : Row fields} {key : String} {json : Json} {keys : List String}
    (distinct : (fields.map Field.key).Nodup)
    (known : (key, json) ∈ Row.members fields row) (fresh : key ∉ keys) :
    ∃ (field : Field) (content : field.Carrier) (place : field.Carrier → Slots fields),
      Row.Holds fields row field content ∧ json = field.toJson content ∧
      place content = Slots.taken (key :: keys) fields row ∧
      ∀ text, readEntry inner key fields (Slots.taken keys fields row) (':' :: text) =
        (readField inner field text).onValue place := by
  induction fields with
  | nil => exact nomatch known
  | cons field fields ih =>
      rcases row with ⟨content, row⟩
      rw [List.map_cons, List.nodup_cons] at distinct
      rcases List.mem_cons.mp known with isFirst | isLater
      · obtain ⟨rfl, rfl⟩ := Prod.mk.inj isFirst
        have others := Slots.taken_cons_of_notMem keys row distinct.1
        refine ⟨field, content, fun value => (some value, Slots.taken keys fields row),
          .first content row, rfl, ?_, fun text => ?_⟩
        · simp only [Slots.taken, List.mem_cons_self, if_true, others]
        · simp (disch := decide) only [readEntry, Slots.taken, fresh, if_false, if_true,
            readColon, Json.skipBlanks_cons]
      · have isKey : key ∈ fields.map Field.key := by
          rw [← Row.keys_members fields row]
          exact List.mem_map_of_mem (f := Prod.fst) isLater
        have differs : field.key ≠ key := fun same => distinct.1 (same ▸ isKey)
        obtain ⟨found, value, place, holds, isJson, placed, entryRead⟩ := ih distinct.2 isLater
        let slot := if field.key ∈ keys then some content else none
        refine ⟨found, value, fun value => (slot, place value), .later content holds, isJson, ?_,
          fun text => ?_⟩
        · simp only [slot, placed, Slots.taken, List.mem_cons, differs, false_or]
        · simp only [slot, readEntry, Slots.taken, differs, if_false, entryRead,
            Outcome.onValue_onValue]

/-- An entry fills the slot of its key and no other. -/
theorem readEntry_taken {fields : List Field} {row : Row fields} {key : String} {json : Json}
    {keys : List String} {rest : List Char} (distinct : (fields.map Field.key).Nodup)
    (given : FieldsGiven inner fields row) (known : (key, json) ∈ Row.members fields row)
    (fresh : key ∉ keys) (ends : NumberEnds rest) :
    readEntry inner key fields (Slots.taken keys fields row) (':' :: (json.chars ++ rest)) =
      .ok (Slots.taken (key :: keys) fields row, rest) := by
  obtain ⟨field, content, place, holds, rfl, placed, entryRead⟩ :=
    readEntry_colon inner distinct known fresh
  rw [entryRead, given.gives holds rest ends, Outcome.onValue, placed]

theorem membersChars_cons (key : String) (json : Json) (entries : List (String × Json))
    (rest : List Char) :
    Json.membersChars ((key, json) :: entries) ++ rest =
      lead true ++ (Json.stringChars key ++
        ':' :: (json.chars ++ (Json.membersChars entries ++ rest))) := by
  simp only [Json.membersChars, lead, if_true, List.cons_append, List.nil_append,
    List.append_assoc]

theorem numberEnds_membersChars (entries : List (String × Json)) (rest : List Char) :
    NumberEnds (Json.membersChars entries ++ rest) := by
  cases entries with
  | nil => exact Json.numberEnds_cons (by decide)
  | cons entry entries =>
      cases entry with
      | mk key json => exact Json.numberEnds_cons (by decide)

theorem length_lt_membersChars (entries : List (String × Json)) :
    entries.length < (Json.membersChars entries).length := by
  induction entries with
  | nil => exact Nat.one_pos
  | cons entry entries ih =>
      cases entry with
      | mk key json =>
          simp only [Json.membersChars, List.cons_append, List.length_cons, List.length_append]
          omega

theorem readKey_stringChars (key : String) (rest : List Char) :
    readKey (Json.stringChars key ++ rest) = .ok (key, rest) := by
  obtain ⟨tail, written, scanned⟩ := Json.scanString?_stringChars key rest
  rw [readKey, written, Json.skipBlanks_cons rfl]
  simp only [scanned]

/-- Where an entry stands, its key is read and then its value decides what comes next. -/
theorem readEntries_lead (fields : List Field) (started : Bool) {round : Char}
    {rounds left : List Char} (isRound : rounds = round :: left) (slots : Slots fields)
    (key : String) (rest : List Char) :
    (∀ problem, readEntry inner key fields slots rest = .error problem →
      readEntries inner fields rounds started slots
        (lead started ++ (Json.stringChars key ++ rest)) = .error problem) ∧
    (∀ filled tail, readEntry inner key fields slots rest = .ok (filled, tail) →
      readEntries inner fields rounds started slots
        (lead started ++ (Json.stringChars key ++ rest)) =
          readEntries inner fields left true filled tail) := by
  have keyRead := readKey_stringChars key rest
  obtain ⟨quoted, quote, _⟩ := Json.scanString?_stringChars key rest
  rw [quote] at keyRead ⊢
  have quoteFirst : Json.isBlank '"' = false ∧ '"' ≠ '\x7d' ∧ ',' ≠ '\x7d' := by decide
  obtain ⟨char, tail, skipped, notEnd, isComma, isItem⟩ :=
    skipBlanks_lead started quoted quoteFirst.1 quoteFirst.2.1 quoteFirst.2.2
  rw [isRound]
  constructor
  · intro problem entryRead
    simp only [readEntries, skipped, notEnd, isComma, if_false, isItem, keyRead, entryRead]
  · intro filled tail entryRead
    simp only [readEntries, skipped, notEnd, isComma, if_false, isItem, keyRead, entryRead]

theorem readEntries_membersChars {fields : List Field} {row : Row fields} {keys : List String}
    {entries : List (String × Json)} {rounds rest : List Char}
    (distinct : (fields.map Field.key).Nodup) (given : FieldsGiven inner fields row)
    (pending : Pending keys entries fields row) (enough : entries.length < rounds.length) :
    readEntries inner fields rounds true (Slots.taken keys fields row)
        (Json.membersChars entries ++ rest) = .ok (row, rest) := by
  induction entries generalizing keys rounds with
  | nil =>
      cases rounds with
      | nil => exact absurd enough (Nat.lt_irrefl 0)
      | cons _ rounds =>
          have complete : ∀ field ∈ fields, field.key ∈ keys := fun field isField =>
            (pending.complete field isField).resolve_right List.not_mem_nil
          simp (disch := decide) only [readEntries, Json.membersChars, List.cons_append,
            List.nil_append, Json.skipBlanks_cons, if_true, Slots.close_taken row complete]
  | cons entry entries ih =>
      cases rounds with
      | nil => exact absurd enough (Nat.not_lt_zero _)
      | cons round rounds =>
          rcases entry with ⟨key, json⟩
          have entryRead := readEntry_taken distinct given
            (pending.known _ List.mem_cons_self) (pending.fresh _ List.mem_cons_self)
            (numberEnds_membersChars entries rest)
          rw [membersChars_cons, (readEntries_lead fields true rfl _ key _).2 _ _ entryRead]
          exact ih pending.tail (Nat.lt_of_succ_lt_succ enough)

theorem readEntries_chars {fields : List Field} {row : Row fields}
    (distinct : (fields.map Field.key).Nodup) (given : FieldsGiven inner fields row)
    (rest : List Char) :
    ∃ tail, (Json.object (Row.members fields row)).chars ++ rest = '{' :: tail ∧
      readEntries inner fields tail false (Slots.empty fields) tail = .ok (row, rest) := by
  have pending := Pending.all row distinct
  rw [← Slots.taken_nil fields row]
  cases written : Row.members fields row with
  | nil =>
      rw [written] at pending
      have complete : ∀ field ∈ fields, field.key ∈ [] := fun field isField =>
        (pending.complete field isField).resolve_right List.not_mem_nil
      refine ⟨'}' :: rest, rfl, ?_⟩
      simp (disch := decide) only [readEntries, Json.skipBlanks_cons, if_true,
        Slots.close_taken row complete]
  | cons entry entries =>
      rw [written] at pending
      rcases entry with ⟨key, json⟩
      have entryRead := readEntry_taken distinct given
        (pending.known _ List.mem_cons_self) (pending.fresh _ List.mem_cons_self)
        (numberEnds_membersChars entries rest)
      refine ⟨Json.stringChars key ++ ':' :: (json.chars ++ (Json.membersChars entries ++ rest)),
        ?_, ?_⟩
      · simp only [Json.chars, List.cons_append, List.append_assoc]
      · obtain ⟨left, isRound, _⟩ := Json.scanString?_stringChars key
          (':' :: (json.chars ++ (Json.membersChars entries ++ rest)))
        have enough : entries.length < left.length := by
          have bound := length_lt_membersChars entries
          have lengths := congrArg List.length isRound
          simp only [List.length_append, List.length_cons, Json.stringChars] at lengths
          omega
        have firstRead := (readEntries_lead fields false isRound _ key _).2 _ _ entryRead
        exact firstRead.trans (readEntries_membersChars distinct given pending.tail enough)

end Records

/-! ### Forms -/

/-- A reader of forms gives back every value that is written within a budget. -/
def Recovers (read : (form : Form) → Reader form.Carrier) (budget : Nat) : Prop :=
  ∀ (form : Form) (content : form.Carrier), form.keys.Nodup →
    (form.toJson content).Fits RealReadsBack budget → Gives (read form) form.toJson content

/-- Where a bracket may still be opened, there is a reader for what is inside it. -/
def Inner.Recovers (inner : Inner) (budget : Nat) : Prop :=
  ∀ inside, budget = inside + 1 → ∃ read, inner = some read ∧ Format.Recovers read inside

theorem readField_some {read : (form : Form) → Reader form.Carrier} (key : String) {shape : Shape}
    {content : shape.Carrier} (notNull : (shape.toJson content).showsNull = false)
    (rest : List Char) :
    readField read (.optional key shape) ((shape.toJson content).chars ++ rest) =
      (read (.value shape) ((shape.toJson content).chars ++ rest)).onValue some := by
  obtain ⟨char, others, written, opens⟩ := Json.chars_cons (shape.toJson content)
  rw [written, List.cons_append]
  simp only [readField, Json.skipBlanks_cons opens.notBlank]
  split
  next same => exact absurd (List.cons.inj same).1 (opens.notNull notNull)
  next => rfl

theorem gives_readField {read : (form : Form) → Reader form.Carrier} {budget : Nat}
    (recovers : Recovers read budget) (field : Field) (content : field.Carrier)
    (fits : (field.toJson content).Fits RealReadsBack budget) :
    Gives (readField read field) field.toJson content := by
  intro rest ends
  cases field with
  | required key shape => exact recovers (.value shape) content List.nodup_nil fits rest ends
  | optional key shape =>
      cases content with
      | none => rfl
      | some content =>
          have notNull := Json.showsNull_of_finite (fun value isReal =>
            (fits.reals value isReal).isFinite) (shape.toJson_ne_null content)
          have contentRead := recovers (.value shape) content List.nodup_nil fits rest ends
          change read (.value shape) ((shape.toJson content).chars ++ rest) = _ at contentRead
          change readField read (.optional key shape) ((shape.toJson content).chars ++ rest) = _
          rw [readField_some key notNull, contentRead]
          rfl

theorem fieldsGiven {read : (form : Form) → Reader form.Carrier} {budget : Nat}
    (recovers : Recovers read budget) (fields : List Field) (row : Row fields)
    (fits : ∀ entry ∈ Row.members fields row, entry.2.Fits RealReadsBack budget) :
    FieldsGiven read fields row := by
  induction fields with
  | nil => trivial
  | cons field fields ih =>
      cases row with
      | mk content row =>
          rw [Row.members, List.forall_mem_cons] at fits
          exact ⟨gives_readField recovers field content fits.1, ih row fits.2⟩

section Nodes

variable {inner : Inner} {budget : Nat}

theorem gives_readRecord (recovers : inner.Recovers budget) (title : String)
    {fields : List Field} (row : Row fields) (distinct : (fields.map Field.key).Nodup)
    (fits : (Json.object (Row.members fields row)).Fits RealReadsBack budget) :
    Gives (readRecord inner title fields) (fun row => .object (Row.members fields row)) row := by
  intro rest _
  obtain ⟨inside, isInside, membersFit⟩ := Json.fits_object_iff.mp fits
  obtain ⟨read, rfl, readRecovers⟩ := recovers inside isInside
  obtain ⟨tail, written, entriesRead⟩ := readEntries_chars distinct
    (fieldsGiven readRecovers fields row membersFit) rest
  simp (disch := decide) only [readRecord, written, Json.skipBlanks_cons, entriesRead]

theorem findCase_of_mem {α : Type} {cases : List (Case α)} {entry : Case α}
    (distinct : (cases.map Case.tag).Nodup) (isEntry : entry ∈ cases) :
    findCase entry.tag cases = some entry := by
  induction cases with
  | nil => exact nomatch isEntry
  | cons first cases ih =>
      rw [List.map_cons, List.nodup_cons] at distinct
      rcases List.mem_cons.mp isEntry with rfl | isOther
      · rw [findCase, List.find?_cons, decide_eq_true rfl]
      · have differs : first.tag ≠ entry.tag := by
          intro same
          exact distinct.1 (same ▸ List.mem_map_of_mem isOther)
        rw [findCase, List.find?_cons, decide_eq_false differs]
        exact ih distinct.2 isOther

private theorem readChoice_tagged {α : Type} {cases : List (Case α)} {entry : Case α}
    (distinct : (cases.map Case.tag).Nodup) (isEntry : entry ∈ cases)
    {read : (form : Form) → Reader form.Carrier} {data : entry.payload.Carrier}
    {payload : Json} (rest : List Char)
    (payloadRead : readPayload read entry.payload (payload.chars ++ '}' :: rest) =
      .ok (data, '}' :: rest)) :
    readChoice (some read) cases ((Json.tagged entry.tag payload).chars ++ rest) =
      .ok (entry.make data, rest) := by
  simp (disch := decide) only [Json.tagged, Json.chars, Json.membersChars, List.cons_append,
    List.append_assoc, List.nil_append, readChoice, Json.skipBlanks_cons, readTagged,
    readText_stringChars, findCase_of_mem distinct isEntry, readColon, payloadRead]

theorem gives_readChoice {α : Type} {write : α → Json} {cases : List (Case α)}
    (recovers : inner.Recovers budget) (distinct : (cases.map Case.tag).Nodup) {entry : Case α}
    (isEntry : entry ∈ cases) (keysDistinct : entry.payload.keys.Nodup)
    {data : entry.payload.Carrier}
    (written : write (entry.make data) = entry.payload.toJson entry.tag data)
    (fits : (write (entry.make data)).Fits RealReadsBack budget) :
    Gives (readChoice inner cases) write (entry.make data) := by
  intro rest _
  rw [written] at fits ⊢
  have closes : NumberEnds ('}' :: rest) := Json.numberEnds_cons (by decide)
  have found := findCase_of_mem distinct isEntry
  cases entry with
  | mk tag payload make part =>
      cases payload with
      | nothing =>
          obtain ⟨tail, isTail, scanned⟩ := Json.scanString?_stringChars tag rest
          change readChoice inner cases (Json.stringChars tag ++ rest) = _
          simp (disch := decide) only [readChoice, isTail, Json.skipBlanks_cons, scanned, found,
            bareNode, Except.map]
      | one form =>
          obtain ⟨inside, isInside, payloadFits⟩ := Json.fits_tagged_iff.mp fits
          obtain ⟨read, rfl, readRecovers⟩ := recovers inside isInside
          exact readChoice_tagged distinct isEntry rest
            (readRecovers form data keysDistinct payloadFits _ closes)
      | several title fields =>
          obtain ⟨inside, isInside, payloadFits⟩ := Json.fits_tagged_iff.mp fits
          obtain ⟨read, rfl, readRecovers⟩ := recovers inside isInside
          exact readChoice_tagged distinct isEntry rest
            (readRecovers (.record title fields) data keysDistinct payloadFits _ closes)

theorem gives_readNode {α : Type} {write : α → Json} {layout : Layout α}
    (agrees : layout.Agrees write) (recovers : inner.Recovers budget) (node : α)
    (fits : (write node).Fits RealReadsBack budget) : Gives (readNode inner layout) write node := by
  cases agrees with
  | record title fields make parts keysDistinct make_parts write_make =>
      intro rest ends
      have written := write_make (parts node)
      rw [make_parts] at written
      rw [written] at fits ⊢
      have rowRead := gives_readRecord recovers title (parts node) keysDistinct fits rest ends
      simp only [readNode, rowRead, Outcome.onValue, make_parts]
  | choice cases tagsDistinct keysDistinct covers make_part write_make =>
      obtain ⟨entry, isEntry, isPart⟩ := List.any_eq_true.mp (covers node)
      obtain ⟨data, isData⟩ := Option.isSome_iff_exists.mp isPart
      have made := make_part entry isEntry node data isData
      rw [← made] at fits ⊢
      exact gives_readChoice recovers tagsDistinct isEntry (keysDistinct entry isEntry)
        (write_make entry isEntry data) fits

theorem gives_readList (recovers : inner.Recovers budget) (item : Shape)
    (contents : List item.Carrier)
    (fits : (Json.ofList item.toJson contents).Fits RealReadsBack budget) :
    Gives (readList inner item) (Json.ofList item.toJson) contents := by
  intro rest _
  obtain ⟨inside, isInside, itemsFit⟩ := Json.fits_array_iff.mp fits
  obtain ⟨read, rfl, readRecovers⟩ := recovers inside isInside
  have gives : ∀ content ∈ contents, Gives (read (.value item)) item.toJson content :=
    fun content isContent => readRecovers (.value item) content List.nodup_nil
      (itemsFit _ (List.mem_map_of_mem isContent))
  obtain ⟨tail, written, itemsRead⟩ := readItems_chars gives rest
  simp (disch := decide) only [readList, written, Json.skipBlanks_cons, itemsRead]

theorem recovers_readWith (recovers : inner.Recovers budget) :
    Recovers (readWith inner) budget := by
  intro form content keysDistinct fits
  cases form with
  | record title fields => exact gives_readRecord recovers title content keysDistinct fits
  | value shape =>
      cases shape with
      | text => exact fun rest _ => readText_stringChars "a string" content rest
      | character => exact fun rest _ => readCharacter_stringChars content rest
      | truth => exact fun rest _ => readTruth_chars content rest
      | integer width => exact fun _ ends => readInteger_chars width content ends
      | real => exact fun _ ends => readReal_chars (Json.fits_real.mp fits) ends
      | list item => exact gives_readList recovers item content fits
      | node kind => exact gives_readNode kind.layout_agrees recovers content fits

end Nodes

theorem recovers_readForm (budget : Nat) : Recovers (readForm budget) budget := by
  induction budget with
  | zero => exact recovers_readWith fun _ impossible => nomatch impossible
  | succ budget ih =>
      refine recovers_readWith fun inside isInside => ⟨readForm budget, rfl, ?_⟩
      rw [← Nat.succ.inj isInside]
      exact ih

theorem readWhole_text_of_gives {form : Form} {content : form.Carrier}
    (gives : Gives (readForm depthLimit form) form.toJson content) :
    readWhole form (form.toJson content).text = .ok content := by
  have formRead := gives [] Json.numberEnds_nil
  rw [List.append_nil] at formRead
  have noRest : Json.skipBlanks [] = [] := rfl
  simp only [readWhole, Json.text, String.toList_ofList, formRead, noRest, if_true]

end ScopeLint.Format
