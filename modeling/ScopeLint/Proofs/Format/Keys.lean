import ScopeLint.Proofs.Format.Completeness
import ScopeLint.Proofs.Format.Limits

/-!
What the keys of an object decide. A key that comes for a second time is refused where it comes,
so the first repetition in the text decides; a field that is left out is only missed at the end
of the object, so there the order of the fields decides. The values count for nothing in either,
as long as the first one of every key can be read.
-/

set_option autoImplicit false

namespace ScopeLint.Format

open Json (Blank Listed NumberEnds Run Separated Valid)

/-! ### Keys -/

def Field.isRequired : Field → Bool
  | required _ _ => true
  | optional _ _ => false

/-- No known key has two entries. -/
def Once (fields : List Field) (entries : List Entry) : Prop :=
  ∀ field ∈ fields, (named field.key entries).length ≤ 1

/-- Every required field has an entry. -/
def Present (fields : List Field) (entries : List Entry) : Prop :=
  ∀ field ∈ fields, field.isRequired = true → named field.key entries ≠ []

/-- The first value of every known key spells a content of its field. -/
def Readable (inside : Grammar) (fields : List Field) (entries : List Entry) : Prop :=
  ∀ field ∈ fields, ∀ entry ∈ (named field.key entries).head?,
    ∃ content, SpellsField inside field content entry.value

/-- What an object comes to as a record with some fields. -/
inductive Verdict (inside : Grammar) (fields : List Field) (entries : List Entry) :
    Except DataProblem (Row fields) → Prop where
  | repeated {earlier later : List Entry} {entry : Entry}
      (split : entries = earlier ++ entry :: later) (once : Once fields earlier)
      (known : entry.key ∈ fields.map Field.key) (again : named entry.key earlier ≠ []) :
      Verdict inside fields entries (.error (.duplicateField entry.key))
  | missing {before after : List Field} {field : Field} (once : Once fields entries)
      (split : fields = before ++ field :: after) (present : Present before entries)
      (isRequired : field.isRequired = true) (absent : named field.key entries = []) :
      Verdict inside fields entries (.error (.missingField field.key))
  | whole {row : Row fields} (spells : SpellsFields inside fields row entries) :
      Verdict inside fields entries (.ok row)

theorem named_append (key : String) (first later : List Entry) :
    named key (first ++ later) = named key first ++ named key later :=
  List.filter_append _ _

theorem Once.front {fields : List Field} {first later : List Entry}
    (once : Once fields (first ++ later)) : Once fields first := by
  intro field isField
  have bound := once field isField
  rw [named_append, List.length_append] at bound
  exact (Nat.le_add_right _ _).trans bound

theorem Readable.front {inside : Grammar} {fields : List Field} {first later : List Entry}
    (readable : Readable inside fields (first ++ later)) : Readable inside fields first := by
  intro field isField entry isFirst
  refine readable field isField entry ?_
  rw [named_append]
  exact List.mem_head?_append_of_mem_head? isFirst

/-- Where no key is repeated, an entry has no other one of its key before it. -/
theorem Once.fresh {fields : List Field} {earlier later : List Entry} {entry : Entry}
    (once : Once fields (earlier ++ entry :: later)) {field : Field} (isField : field ∈ fields)
    (isKey : field.key = entry.key) : named field.key earlier = [] := by
  have bound := once field isField
  rw [named_append, isKey, named_cons_self, List.length_append, List.length_cons] at bound
  rw [isKey, ← List.length_eq_zero_iff]
  omega

/-! ### There is always a verdict -/

theorem exists_repeated {fields : List Field} {entries : List Entry}
    (twice : ¬Once fields entries) :
    ∃ earlier entry later, entries = earlier ++ entry :: later ∧ Once fields earlier ∧
      entry.key ∈ fields.map Field.key ∧ named entry.key earlier ≠ [] := by
  induction entries using List.reverseRecOn with
  | nil => exact absurd (fun field _ => Nat.zero_le 1) twice
  | append_singleton entries last ih =>
      by_cases once : Once fields entries
      · simp only [Once, not_forall] at twice
        obtain ⟨field, isField, tooMany⟩ := twice
        have bound := once field isField
        rw [named_append] at tooMany
        by_cases isKey : last.key = field.key
        · refine ⟨entries, last, [], rfl, once, ?_, fun absent => tooMany ?_⟩
          · exact isKey ▸ List.mem_map_of_mem isField
          · rw [← isKey, absent, named_cons_self]
            exact Nat.le_refl 1
        · rw [named_cons_of_ne isKey, List.length_append] at tooMany
          exact absurd bound tooMany
      · obtain ⟨earlier, entry, later, rfl, rest⟩ := ih once
        exact ⟨earlier, entry, later ++ [last], by simp only [List.append_assoc, List.cons_append],
          rest⟩

theorem exists_missing {fields : List Field} {entries : List Entry}
    (notPresent : ¬Present fields entries) :
    ∃ before field after, fields = before ++ field :: after ∧ Present before entries ∧
      field.isRequired = true ∧ named field.key entries = [] := by
  induction fields with
  | nil => exact absurd (fun field isField => nomatch isField) notPresent
  | cons first fields ih =>
      by_cases answered : first.isRequired = true → named first.key entries ≠ []
      · have notPresentLater : ¬Present fields entries := fun present =>
          notPresent (List.forall_mem_cons.mpr ⟨answered, present⟩)
        obtain ⟨before, field, after, rfl, present, rest⟩ := ih notPresentLater
        exact ⟨first :: before, field, after, rfl,
          List.forall_mem_cons.mpr ⟨answered, present⟩, rest⟩
      · rw [not_forall] at answered
        obtain ⟨isRequired, absent⟩ := answered
        exact ⟨[], first, fields, rfl, nofun, isRequired, not_not.mp absent⟩

theorem exists_spellsSlot {inside : Grammar} {field : Field} {entries : List Entry}
    (once : entries.length ≤ 1) (present : field.isRequired = true → entries ≠ [])
    (readable : ∀ entry ∈ entries.head?, ∃ content, SpellsField inside field content entry.value) :
    ∃ content, SpellsSlot inside field content entries := by
  cases entries with
  | nil =>
      cases field with
      | required key shape => exact absurd rfl (present rfl)
      | optional key shape => exact ⟨none, rfl⟩
  | cons entry entries =>
      obtain ⟨content, spells⟩ := readable entry rfl
      have alone : entries = [] := by
        rw [List.length_cons] at once
        exact List.length_eq_zero_iff.mp (by omega)
      subst alone
      refine ⟨content, ?_⟩
      cases field with
      | required key shape => exact spells
      | optional key shape => exact spells

theorem exists_spellsFields {inside : Grammar} {fields : List Field} {entries : List Entry}
    (once : Once fields entries) (present : Present fields entries)
    (readable : Readable inside fields entries) :
    ∃ row, SpellsFields inside fields row entries := by
  induction fields with
  | nil => exact ⟨(), trivial⟩
  | cons field fields ih =>
      rw [Once, List.forall_mem_cons] at once
      rw [Present, List.forall_mem_cons] at present
      rw [Readable, List.forall_mem_cons] at readable
      obtain ⟨content, spells⟩ := exists_spellsSlot once.1 present.1 readable.1
      obtain ⟨row, others⟩ := ih once.2 present.2 readable.2
      exact ⟨(content, row), spells, others⟩

theorem exists_verdict {inside : Grammar} {fields : List Field} {entries : List Entry}
    (readable : Readable inside fields entries) :
    ∃ verdict, Verdict inside fields entries verdict := by
  by_cases once : Once fields entries
  · by_cases present : Present fields entries
    · obtain ⟨row, spells⟩ := exists_spellsFields once present readable
      exact ⟨_, .whole spells⟩
    · obtain ⟨before, field, after, split, presentBefore, isRequired, absent⟩ :=
        exists_missing present
      exact ⟨_, .missing once split presentBefore isRequired absent⟩
  · obtain ⟨earlier, entry, later, split, onceEarlier, known, again⟩ := exists_repeated once
    exact ⟨_, .repeated split onceEarlier known again⟩

/-! ### What the reader has of the keys -/

/-- The slots that are filled are those whose keys have come. -/
def Filled : (fields : List Field) → Slots fields → List Entry → Prop
  | [], (), _ => True
  | field :: fields, (slot, slots), entries =>
      (slot = none ↔ named field.key entries = []) ∧ Filled fields slots entries

theorem filled_empty (fields : List Field) : Filled fields (Slots.empty fields) [] := by
  induction fields with
  | nil => trivial
  | cons field fields ih => exact ⟨⟨fun _ => rfl, fun _ => rfl⟩, ih⟩

theorem Filled.concat_of_notMem {fields : List Field} {slots : Slots fields}
    {entries : List Entry} (filled : Filled fields slots entries) {entry : Entry}
    (unknown : entry.key ∉ fields.map Field.key) : Filled fields slots (entries ++ [entry]) := by
  induction fields with
  | nil => trivial
  | cons field fields ih =>
      rw [List.map_cons, List.mem_cons, not_or] at unknown
      rcases slots with ⟨slot, slots⟩
      refine ⟨?_, ih filled.2 unknown.2⟩
      rw [named_append, named_cons_of_ne unknown.1]
      exact filled.1.trans (by rw [List.append_eq_nil_iff]; exact (and_iff_left rfl).symm)

/-- The first required field without an entry is the one that is missed. -/
theorem close_eq_missingField {before after : List Field} {field : Field}
    {slots : Slots (before ++ field :: after)} {entries : List Entry}
    (filled : Filled (before ++ field :: after) slots entries) (present : Present before entries)
    (isRequired : field.isRequired = true) (absent : named field.key entries = []) :
    slots.close = .error (.missingField field.key) := by
  induction before with
  | nil =>
      rcases slots with ⟨slot, slots⟩
      have isOpen : slot = none := filled.1.mpr absent
      cases field with
      | required key shape => simp only [List.nil_append, Slots.close, isOpen, Field.key]
      | optional key shape => cases isRequired
  | cons first before ih =>
      rcases slots with ⟨slot, slots⟩
      rw [Present, List.forall_mem_cons] at present
      have closed := ih filled.2 present.2
      cases first with
      | required key shape =>
          cases slot with
          | none => exact absurd (filled.1.mp rfl) (present.1 rfl)
          | some content => simp only [List.cons_append, Slots.close, closed, Except.map]
      | optional key shape => simp only [List.cons_append, Slots.close, closed, Except.map]

section Reading

variable {read : (form : Form) → Reader form.Carrier} {inside : Grammar} {fields : List Field}

/-- A key that has come is refused before its value is looked at. -/
theorem readEntry_repeated {slots : Slots fields} {earlier : List Entry}
    (filled : Filled fields slots earlier) {key : String} (known : key ∈ fields.map Field.key)
    (again : named key earlier ≠ []) (text : List Char) :
    readEntry read key fields slots text = refuse (.duplicateField key) := by
  induction fields with
  | nil => exact nomatch known
  | cons field fields ih =>
      rcases slots with ⟨slot, slots⟩
      by_cases isKey : field.key = key
      · cases slot with
        | none => exact absurd (isKey ▸ filled.1.mp rfl) again
        | some content => simp only [readEntry, isKey, if_true]
      · have knownLater : key ∈ fields.map Field.key :=
          (List.mem_cons.mp known).resolve_left fun same => isKey same.symm
        simp only [readEntry, isKey, if_false, ih filled.2 knownLater]
        rfl

theorem readEntry_fresh (complete : Complete read inside)
    (distinct : (fields.map Field.key).Nodup) {slots : Slots fields} {earlier : List Entry}
    (filled : Filled fields slots earlier) {entry : Entry} (wellFormed : entry.WellFormed)
    (fresh : ∀ field ∈ fields, field.key = entry.key → named field.key earlier = [] ∧
      ∃ content, SpellsField inside field content entry.value)
    (unknown : entry.key ∉ fields.map Field.key → Valid entry.value) {rest : List Char}
    (ends : NumberEnds rest) :
    ∃ slots', readEntry read entry.key fields slots
        (entry.before ++ ':' :: (entry.after ++ (entry.value ++ rest))) = .ok (slots', rest) ∧
      Filled fields slots' (earlier ++ [entry]) := by
  have colonRead := readColon_blank wellFormed.blankBefore
    (entry.after ++ (entry.value ++ rest))
  induction fields with
  | nil =>
      have skipped := Json.skipValue?_valid wellFormed.blankAfter (unknown List.not_mem_nil) ends
      exact ⟨(), by simp only [readEntry, colonRead, skipped], trivial⟩
  | cons field fields ih =>
      rw [List.map_cons, List.nodup_cons] at distinct
      rw [List.forall_mem_cons] at fresh
      rcases slots with ⟨slot, slots⟩
      by_cases isKey : field.key = entry.key
      · obtain ⟨noneBefore, content, spells⟩ := fresh.1 isKey
        have isOpen : slot = none := filled.1.mpr noneBefore
        have fieldRead := (readField_blank complete field wellFormed.blankAfter _).trans
          (readField_spelled complete spells ends)
        refine ⟨(some content, slots), ?_, ?_, filled.2.concat_of_notMem (isKey ▸ distinct.1)⟩
        · simp only [readEntry, isKey, if_true, isOpen, colonRead, fieldRead, Outcome.onValue]
        · rw [named_append, isKey, named_cons_self]
          simp only [reduceCtorEq, List.append_eq_nil_iff, and_false]
      · have differs : entry.key ≠ field.key := fun same => isKey same.symm
        have unknownHere (isUnknown : entry.key ∉ fields.map Field.key) : Valid entry.value :=
          unknown (by rw [List.map_cons, List.mem_cons, not_or]; exact ⟨differs, isUnknown⟩)
        obtain ⟨slots', entryRead, filledAfter⟩ := ih distinct.2 filled.2 fresh.2 unknownHere
        refine ⟨(slot, slots'), ?_, ?_, filledAfter⟩
        · simp only [readEntry, isKey, if_false, entryRead, Outcome.onValue]
        · rw [named_append, named_cons_of_ne differs]
          exact filled.1.trans (by rw [List.append_eq_nil_iff]; exact (and_iff_left rfl).symm)

/-- Entries without a repetition are taken one after the other, and the object goes on after
them. -/
theorem readEntries_run (complete : Complete read inside)
    (distinct : (fields.map Field.key).Nodup) (earlier : List Entry) {entries : List Entry}
    (wellFormed : ∀ entry ∈ entries, entry.WellFormed)
    (unknown : ∀ entry ∈ entries, entry.key ∉ fields.map Field.key → Valid entry.value)
    (once : Once fields (earlier ++ entries))
    (readable : Readable inside fields (earlier ++ entries)) {slots : Slots fields}
    (filled : Filled fields slots earlier) {started : Bool} {run : List Char}
    (isRun : Run started (entries.map fun entry => entry.text) run) {rounds : List Char}
    (enough : entries.length ≤ rounds.length) {rest : List Char}
    (ends : entries ≠ [] → NumberEnds rest) :
    ∃ slots', Filled fields slots' (earlier ++ entries) ∧
      readEntries read fields rounds started slots (run ++ rest) =
        readEntries read fields (rounds.drop entries.length) (started || !entries.isEmpty) slots'
          rest := by
  induction entries generalizing earlier slots started run rounds with
  | nil =>
      cases isRun
      rw [List.isEmpty_nil, Bool.not_true, Bool.or_false, List.append_nil]
      exact ⟨slots, filled, rfl⟩
  | cons entry entries ih =>
      rw [List.forall_mem_cons] at wellFormed unknown
      have ends := ends (List.cons_ne_nil entry entries)
      obtain ⟨lead, others, leads, following, rfl⟩ := isRun
      have isSplit : earlier ++ entry :: entries = (earlier ++ [entry]) ++ entries := by
        rw [List.append_assoc]
        rfl
      have fresh (field : Field) (isField : field ∈ fields) (isKey : field.key = entry.key) :
          named field.key earlier = [] ∧
            ∃ content, SpellsField inside field content entry.value := by
        have noneBefore := once.fresh isField isKey
        refine ⟨noneBefore, readable field isField entry ?_⟩
        rw [named_append, noneBefore, isKey, named_cons_self]
        rfl
      obtain ⟨slotsNext, entryRead, filledNext⟩ := readEntry_fresh complete distinct filled
        wellFormed.1 fresh unknown.1 (following.numberEnds ends)
      rw [isSplit] at once readable ⊢
      rw [List.length_cons] at enough
      have enoughLeft : entries.length ≤ rounds.tail.length := by
        rw [List.length_tail]
        omega
      obtain ⟨slots', filledAfter, othersRead⟩ :=
        ih _ wellFormed.2 unknown.2 once readable filledNext following enoughLeft fun _ => ends
      refine ⟨slots', filledAfter, ?_⟩
      rw [List.append_assoc, List.append_assoc,
        readEntries_leads leads wellFormed.1 (by omega) slots]
      simp only [entryRead, othersRead, List.drop_tail, List.length_cons, List.isEmpty_cons,
        Bool.not_false, Bool.true_or, Bool.or_true]

/-- The first key that comes again decides, whatever stands behind it. -/
theorem readEntries_repeated (complete : Complete read inside)
    (distinct : (fields.map Field.key).Nodup) {earlier later : List Entry} {entry : Entry}
    (wellFormed : ∀ other ∈ earlier ++ entry :: later, other.WellFormed)
    (unknown : ∀ other ∈ earlier ++ entry :: later, other.key ∉ fields.map Field.key →
      Valid other.value)
    (readable : Readable inside fields (earlier ++ entry :: later)) (once : Once fields earlier)
    (known : entry.key ∈ fields.map Field.key) (again : named entry.key earlier ≠ [])
    {between rounds : List Char}
    (listed : Listed false ((earlier ++ entry :: later).map fun other => other.text) between)
    (rest : List Char) (enough : (earlier ++ entry :: later).length < rounds.length) :
    readEntries read fields rounds false (Slots.empty fields) (between ++ '\x7d' :: rest) =
      refuse (.duplicateField entry.key) := by
  have isStarted : (false || !earlier.isEmpty) = true := by
    cases earlier with
    | nil => exact absurd rfl again
    | cons first earlier => rfl
  rw [List.forall_mem_append, List.forall_mem_cons] at wellFormed unknown
  rw [List.map_append, List.map_cons] at listed
  rw [List.length_append, List.length_cons] at enough
  obtain ⟨run, others, isRun, listedLater, rfl⟩ := listed.exists_run
  obtain ⟨lead, left, leads, _, rfl⟩ := Json.listed_cons_iff.mp listedLater
  rw [List.isEmpty_map, isStarted] at leads
  obtain ⟨slots, filled, earlierRead⟩ := readEntries_run complete distinct [] wellFormed.1
    unknown.1 once readable.front (filled_empty fields) isRun (by omega : _ ≤ rounds.length)
    (fun _ => leads.numberEnds (entry.text ++ (left ++ '\x7d' :: rest)))
  have enoughLeft : 0 < (rounds.drop earlier.length).length := by
    rw [List.length_drop]
    omega
  simp only [List.append_assoc]
  rw [earlierRead, isStarted, readEntries_leads leads wellFormed.2.1 enoughLeft,
    readEntry_repeated filled known again]
  rfl

/-- Where no key comes again, the first required field without one decides. -/
theorem readEntries_missing (complete : Complete read inside) {entries : List Entry}
    (distinct : (fields.map Field.key).Nodup)
    (wellFormed : ∀ entry ∈ entries, entry.WellFormed)
    (unknown : ∀ entry ∈ entries, entry.key ∉ fields.map Field.key → Valid entry.value)
    (readable : Readable inside fields entries) (once : Once fields entries)
    {before after : List Field} {field : Field} (split : fields = before ++ field :: after)
    (present : Present before entries) (isRequired : field.isRequired = true)
    (absent : named field.key entries = []) {between rounds : List Char}
    (listed : Listed false (entries.map fun entry => entry.text) between) (rest : List Char)
    (enough : entries.length < rounds.length) :
    readEntries read fields rounds false (Slots.empty fields) (between ++ '\x7d' :: rest) =
      refuse (.missingField field.key) := by
  rw [← List.append_nil (entries.map fun entry => entry.text)] at listed
  obtain ⟨run, blank, isRun, listedNil, rfl⟩ := listed.exists_run
  have isBlank := Json.listed_nil_iff.mp listedNil
  have ends : NumberEnds (blank ++ '\x7d' :: rest) :=
    Json.numberEnds_blank isBlank (Json.Bracket.object.numberEnds_closing rest)
  obtain ⟨slots, filled, entriesRead⟩ := readEntries_run complete distinct [] wellFormed unknown
    once readable (filled_empty fields) isRun enough.le fun _ => ends
  have enoughLeft : 0 < (rounds.drop entries.length).length := by
    rw [List.length_drop]
    omega
  subst split
  rw [List.append_assoc, entriesRead, readEntries_closing isBlank enoughLeft,
    close_eq_missingField filled present isRequired absent]

/-- An object whose known keys have a value that can be read, as far as they come for the first
time. Nothing is said of the value of a key that comes again. -/
structure IsObject (inside : Grammar) (fields : List Field) (entries : List Entry)
    (object : List Char) : Prop where
  wellFormed : ∀ entry ∈ entries, entry.WellFormed
  readable : Readable inside fields entries
  unknown : ∀ entry ∈ entries, entry.key ∉ fields.map Field.key → Valid entry.value
  isText : ∃ between, Separated (entries.map fun entry => entry.text) between ∧
    object = '\x7b' :: (between ++ ['\x7d'])

theorem readRecord_object (complete : Complete read inside) (title : String)
    (distinct : (fields.map Field.key).Nodup) {entries : List Entry} {object : List Char}
    (isObject : IsObject inside fields entries object) {verdict : Except DataProblem (Row fields)}
    (isVerdict : Verdict inside fields entries verdict) (rest : List Char) :
    readRecord (some read) title fields (object ++ rest) =
      (verdict.mapError .data).map (·, rest) := by
  rcases isObject with ⟨wellFormed, readable, unknown, between, separated, rfl⟩
  have listed : Listed false (entries.map fun entry => entry.text) between := separated
  have enough := length_lt_of_listed wellFormed listed rest
  rw [readRecord_brace]
  cases isVerdict with
  | whole spells =>
      exact readEntries_listed complete distinct wellFormed (spellsOpen_empty_iff.mpr spells)
        unknown listed rest enough
  | @repeated earlier later entry split once known again =>
      subst split
      exact readEntries_repeated complete distinct wellFormed unknown readable once known again
        listed rest enough
  | @missing before after field once split present isRequired absent =>
      exact readEntries_missing complete distinct wellFormed unknown readable once split present
        isRequired absent listed rest enough

end Reading

/-! ### Where a record is asked for -/

theorem Kind.keys_distinct {kind : Kind} {form : Form} (isForm : form ∈ kind.layout.forms) :
    form.keys.Nodup :=
  (Kind.clear_of_mem_forms (List.mem_cons_of_mem _ isForm)).distinct

theorem Kind.keys_distinct_of_record {kind : Kind} {title : String} {fields : List Field}
    {make : Row fields → kind.Carrier} {parts : kind.Carrier → Row fields}
    (isLayout : kind.layout = .record title fields make parts) :
    (fields.map Field.key).Nodup := by
  have isForm : .record title fields ∈ kind.layout.forms := by
    rw [isLayout]
    exact List.mem_singleton_self _
  exact Kind.keys_distinct isForm

theorem Kind.keys_distinct_of_case {kind : Kind} {cases : List (Case kind.Carrier)}
    (isLayout : kind.layout = .choice cases) {case : Case kind.Carrier} (isCase : case ∈ cases)
    {form : Form} (isForm : form ∈ case.payload.forms) : form.keys.Nodup := by
  have isPart : form ∈ kind.layout.forms := by
    rw [isLayout]
    exact List.mem_flatMap.mpr ⟨case, isCase, isForm⟩
  exact Kind.keys_distinct isPart

/-- A text in which an object is read as a record, with the form that is read and what is made of
the row. The object stands alone, for the record itself or for the node that is laid out as it;
or it is the data of a case, and the bracket of the case is `around` it. -/
inductive Asks (title : String) (fields : List Field) (object : List Char) :
    (around : Nat) → (form : Form) → (Row fields → form.Carrier) → List Char → Prop where
  | record {kind : Kind} (isForm : .record title fields ∈ kind.layout.forms) :
      Asks title fields object 0 (.record title fields) id object
  | node {kind : Kind} {make : Row fields → kind.Carrier} {parts : kind.Carrier → Row fields}
      (isLayout : kind.layout = .record title fields make parts) :
      Asks title fields object 0 (.value (.node kind)) make object
  | one {kind : Kind} {cases : List (Case kind.Carrier)} {tag : String}
      {make : Row fields → kind.Carrier} {part : kind.Carrier → Option (Row fields)}
      (isLayout : kind.layout = .choice cases)
      (isCase : ⟨tag, .one (.record title fields), make, part⟩ ∈ cases) {entry : Entry}
      (wellFormed : entry.WellFormed) (isTag : entry.key = tag) (isValue : entry.value = object)
      {between : List Char} (separated : Separated [entry.text] between) :
      Asks title fields object 1 (.value (.node kind)) make ('\x7b' :: (between ++ ['\x7d']))
  | several {kind : Kind} {cases : List (Case kind.Carrier)} {tag : String}
      {make : Row fields → kind.Carrier} {part : kind.Carrier → Option (Row fields)}
      (isLayout : kind.layout = .choice cases)
      (isCase : ⟨tag, .several title fields, make, part⟩ ∈ cases) {entry : Entry}
      (wellFormed : entry.WellFormed) (isTag : entry.key = tag) (isValue : entry.value = object)
      {between : List Char} (separated : Separated [entry.text] between) :
      Asks title fields object 1 (.value (.node kind)) make ('\x7b' :: (between ++ ['\x7d']))

section Asking

variable {title : String} {fields : List Field} {object core : List Char} {around : Nat}
  {form : Form} {make : Row fields → form.Carrier}

theorem Asks.distinct (asks : Asks title fields object around form make core) :
    (fields.map Field.key).Nodup := by
  cases asks with
  | record isForm => exact Kind.keys_distinct isForm
  | node isLayout => exact Kind.keys_distinct_of_record isLayout
  | one isLayout isCase =>
      exact Kind.keys_distinct_of_case isLayout isCase
        (List.mem_singleton_self (Form.record title fields))
  | several isLayout isCase =>
      exact Kind.keys_distinct_of_case isLayout isCase
        (List.mem_singleton_self (Form.record title fields))

/-- What becomes of the object is what becomes of the text that asks for it. -/
theorem Asks.readForm (asks : Asks title fields object around form make core) {budget : Nat}
    {result : Except DataProblem (Row fields)}
    (objectRead : ∀ rest, readRecord (some (Format.readForm budget)) title fields
      (object ++ rest) = (result.mapError .data).map (·, rest)) (rest : List Char) :
    Format.readForm (budget + 1 + around) form (core ++ rest) =
      ((result.map make).mapError .data).map (·, rest) := by
  have swap {α : Type} (make : Row fields → α) :
      (result.mapError ReadError.data).map make = (result.map make).mapError .data := by
    cases result with
    | error problem => rfl
    | ok row => rfl
  cases asks with
  | record isForm =>
      exact (objectRead rest).trans (by rw [← swap]; cases result <;> rfl)
  | @node kind _ parts isLayout =>
      change readNode (some (Format.readForm budget)) kind.layout (object ++ rest) = _
      rw [isLayout]
      simp only [readNode, objectRead]
      cases result with
      | error problem => rfl
      | ok row => rfl
  | one isLayout isCase wellFormed isTag isValue separated =>
      rw [← swap]
      exact readForm_entry isLayout isCase wellFormed isTag separated _
        (fun {rest} _ => isValue ▸ objectRead rest) rest
  | several isLayout isCase wellFormed isTag isValue separated =>
      rw [← swap]
      exact readForm_entry isLayout isCase wellFormed isTag separated _
        (fun {rest} _ => isValue ▸ objectRead rest) rest

end Asking

/-- An object that is read as a record of the tree comes to what its keys decide: to the first
repetition in the text, or else to the first missing field in the order of the record, or else to
the values that it gives. -/
theorem readWhole_object {title : String} {fields : List Field} {object core : List Char}
    {around budget : Nat} {form : Form} {make : Row fields → form.Carrier}
    (asks : Asks title fields object around form make core)
    (within : budget + 1 + around = depthLimit) {entries : List Entry}
    (isObject : IsObject (Spells budget) fields entries object) {before after : List Char}
    (blankBefore : Blank before) (blankAfter : Blank after) {text : String}
    (isText : text.toList = before ++ (core ++ after)) :
    (∃ verdict, Verdict (Spells budget) fields entries verdict) ∧
      ∀ verdict, Verdict (Spells budget) fields entries verdict →
        readWhole form text = (verdict.map make).mapError .data := by
  refine ⟨exists_verdict isObject.readable, fun verdict isVerdict => ?_⟩
  have formRead := asks.readForm (readRecord_object (complete_readForm budget) title asks.distinct
    isObject isVerdict)
  rw [within] at formRead
  exact readWhole_core form _ (fun {rest} _ => formRead rest) blankBefore blankAfter isText

/-- A repetition counts before a field that is missing and before a value of the wrong kind. -/
theorem readWhole_object_open :
    readWhole (.value (.node .fileStmt))
        " \x7b\"Open\": \x7b\"mode\":\"Read\",\"note\":[],\"mode\":7\x7d\x7d" =
      .error (.data (.duplicateField "mode")) := by
  have blank : Blank [] := Json.blank_nil
  have space : Blank [' '] := List.forall_mem_singleton.mpr rfl
  let entry (key : String) (value : List Char) : Entry :=
    ⟨⟨Json.stringChars key, [], [], value⟩, key⟩
  have wellFormed (key : String) (value : List Char) : (entry key value).WellFormed :=
    ⟨Json.spellsString_stringChars key, blank, blank⟩
  let mode := entry "mode" (Json.stringChars "Read")
  let note := entry "note" ['[', ']']
  let again := entry "mode" ['7']
  let fields : List Field := [.node "filename" .expr, .node "mode" .fileMode]
  let object := "\x7b\"mode\":\"Read\",\"note\":[],\"mode\":7\x7d".toList
  have isObject : IsObject (Spells 125) fields [mode, note, again] object := by
    constructor
    · simp only [List.forall_mem_cons]
      exact ⟨wellFormed _ _, wellFormed _ _, wellFormed _ _, List.forall_mem_nil _⟩
    · refine List.forall_mem_cons.mpr ⟨nofun, List.forall_mem_singleton.mpr ?_⟩
      rintro first ⟨⟩
      exact ⟨.read, _, List.mem_cons_self,
        .inl ⟨rfl, ⟨(), rfl⟩, Json.spellsString_stringChars "Read"⟩⟩
    · have noItems : Separated [] [] := .nil blank
      simp only [List.forall_mem_cons]
      exact ⟨fun unknown => absurd (by decide) unknown,
        fun _ => .array (List.forall_mem_nil _) noItems,
        fun unknown => absurd (by decide) unknown, List.forall_mem_nil _⟩
    · exact ⟨_, .cons blank (.cons blank blank (.cons blank blank (.nil blank))), by decide⟩
  let tagged : Entry := ⟨⟨Json.stringChars "Open", [], [' '], object⟩, "Open"⟩
  have isTagged : tagged.WellFormed := ⟨Json.spellsString_stringChars "Open", blank, space⟩
  have asks : Asks "struct variant FileStmt::Open" fields object 1 (.value (.node .fileStmt))
      (fun (file, mode, _) => .openAs file mode) _ :=
    .several rfl List.mem_cons_self isTagged rfl rfl (.cons blank (.nil blank))
  have split : [mode, note, again] = [mode, note] ++ again :: [] := rfl
  have isVerdict : Verdict (Spells 125) fields [mode, note, again]
      (.error (.duplicateField again.key)) :=
    .repeated split (by unfold Once; decide) (by decide) (List.cons_ne_nil mode [])
  exact (readWhole_object asks rfl isObject space blank (by decide)).2 _ isVerdict

end ScopeLint.Format
