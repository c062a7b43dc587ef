import ScopeLint.Proofs.Format.Recovery
import ScopeLint.Proofs.Format.Soundness

/-!
Whatever is spelled is read, and so the reader accepts exactly the spellings of a tree. What a
reader needs of each spelling is its first character, by which a value is told from an end and
from null, and that blanks in front of it do not matter.
-/

set_option autoImplicit false

namespace ScopeLint.Format

open Json (Begins Blank Leads Listed NumberEnds Run Separated SpellsString Valid skipBlanks)

/-! ### First characters -/

/-- The first character of a spelling, which also tells it from null. -/
def Starts (text : List Char) : Prop :=
  Begins text ∧ text.head? ≠ some 'n'

theorem starts_cons {char : Char} {others : List Char} (notBlank : Json.isBlank char = false)
    (notArray : char ≠ ']') (notObject : char ≠ '\x7d') (notNull : char ≠ 'n') :
    Starts (char :: others) :=
  ⟨Json.begins_cons notBlank notArray notObject, fun same => notNull (Option.some.inj same)⟩

theorem starts_of_spellsString {value : String} {text : List Char}
    (spells : SpellsString value text) : Starts text := by
  obtain ⟨inside, _, rfl⟩ := spells
  exact starts_cons rfl (by decide) (by decide) (by decide)

theorem starts_of_number {char : Char} {others : List Char}
    (isNumber : char = '-' ∨ char.isDigit = true) : Starts (char :: others) :=
  starts_cons (Json.notBlank_of_number isNumber)
    (Json.ne_of_numberStart isNumber ⟨by decide, rfl⟩)
    (Json.ne_of_numberStart isNumber ⟨by decide, rfl⟩)
    (Json.ne_of_numberStart isNumber ⟨by decide, rfl⟩)

theorem starts_toString (value : Int) : Starts (toString value).toList := by
  obtain ⟨char, others, isText, isNumber⟩ := (Json.spellsNumeral_int value).exists_cons
  rw [isText]
  exact starts_of_number isNumber

theorem starts_of_spellsRecord {inside? : Option Grammar} {fields : List Field}
    {row : Row fields} {text : List Char} (spells : SpellsRecord inside? fields row text) :
    Starts text := by
  obtain ⟨inside, _, ⟨entries, between, _, _, _, _, rfl⟩ | ⟨texts, between, _, _, rfl⟩⟩ := spells
  · exact starts_cons rfl (by decide) (by decide) (by decide)
  · exact starts_cons rfl (by decide) (by decide) (by decide)

theorem starts_of_spellsNode {inside? : Option Grammar} {α : Type} {layout : Layout α} {node : α}
    {text : List Char} (spells : SpellsNode inside? layout node text) : Starts text := by
  cases layout with
  | record title fields make parts =>
      obtain ⟨row, _, spells⟩ := spells
      exact starts_of_spellsRecord spells
  | choice cases =>
      obtain ⟨case, _, ⟨_, _, spells⟩ | ⟨inside, _, data, entry, between, _, _, _, _, _, rfl⟩⟩ :=
        spells
      · exact starts_of_spellsString spells
      · exact starts_cons rfl (by decide) (by decide) (by decide)

theorem starts_of_spellsWith {inside? : Option Grammar} {form : Form} {content : form.Carrier}
    {text : List Char} (spells : SpellsWith inside? form content text) : Starts text := by
  cases form with
  | record title fields => exact starts_of_spellsRecord spells
  | value shape =>
      cases shape with
      | text => exact starts_of_spellsString spells
      | character => exact starts_of_spellsString spells
      | truth =>
          cases spells
          cases content
          · exact starts_cons rfl (by decide) (by decide) (by decide)
          · exact starts_cons rfl (by decide) (by decide) (by decide)
      | integer width =>
          cases spells
          exact starts_toString _
      | real =>
          obtain ⟨numeral, _, spells, _⟩ := spells
          obtain ⟨char, others, rfl, isNumber⟩ := spells.exists_cons
          exact starts_of_number isNumber
      | list item =>
          obtain ⟨inside, _, texts, between, _, _, rfl⟩ := spells
          exact starts_cons rfl (by decide) (by decide) (by decide)
      | node kind => exact starts_of_spellsNode spells

/-! ### Complete readers -/

/-- A reader of forms gives back the content of every spelling that the grammar has. -/
structure Complete (read : (form : Form) → Reader form.Carrier) (inside : Grammar) : Prop where
  blanks : ∀ (form : Form) {blank : List Char}, Blank blank → ∀ text,
    read form (blank ++ text) = read form text
  starts : ∀ {form : Form} {content : form.Carrier} {core : List Char},
    inside form content core → Starts core
  reads : ∀ (form : Form) {content : form.Carrier} {core : List Char}, form.keys.Nodup →
    inside form content core → ∀ {rest : List Char}, NumberEnds rest →
      read form (core ++ rest) = .ok (content, rest)

/-- Where the grammar goes inside a bracket, a reader goes there too. -/
def Inner.Complete (inner : Inner) (inside? : Option Grammar) : Prop :=
  ∀ inside ∈ inside?, ∃ read, inner = some read ∧ Format.Complete read inside

/-! ### Lists -/

/-- A list has more characters than items. -/
theorem length_le_of_listed {started : Bool} {texts : List (List Char)} {between : List Char}
    (listed : Listed started texts between) (begins : ∀ text ∈ texts, Begins text) :
    texts.length ≤ between.length := by
  induction texts generalizing started between with
  | nil => exact Nat.zero_le _
  | cons text texts ih =>
      rw [List.forall_mem_cons] at begins
      obtain ⟨lead, others, _, following, rfl⟩ := Json.listed_cons_iff.mp listed
      obtain ⟨char, chars, rfl, _⟩ := begins.1
      have shorter := ih following begins.2
      simp only [List.length_append, List.length_cons]
      omega

theorem begins_of_forall₂ {α : Type} {spells : α → List Char → Prop} {values : List α}
    {texts : List (List Char)}
    (begins : ∀ {value : α} {text : List Char}, spells value text → Begins text)
    (spelled : List.Forall₂ spells values texts) : ∀ text ∈ texts, Begins text := by
  induction spelled with
  | nil => exact nofun
  | cons spellsText _ ih => exact List.forall_mem_cons.mpr ⟨begins spellsText, ih⟩

section Items

variable {α : Type} {item : Reader α}

/-- Where an item stands, it decides what comes next. -/
theorem readItems_leads
    (blanks : ∀ {blank : List Char}, Blank blank → ∀ text, item (blank ++ text) = item text)
    {started : Bool} {lead core : List Char} (leads : Leads started lead) (begins : Begins core)
    {rounds : List Char} (enough : 0 < rounds.length) (taken : List α) (rest : List Char) :
    readItems item rounds started taken (lead ++ (core ++ rest)) =
      match item (core ++ rest) with
      | .error problem => .error problem
      | .ok (value, rest) => readItems item rounds.tail true (value :: taken) rest := by
  cases rounds with
  | nil => exact absurd enough (Nat.lt_irrefl 0)
  | cons _ rounds =>
      obtain ⟨char, tail, blank, skipped, notClosing, isComma, isBlank, isItem⟩ :=
        leads.skipBlanks begins rest
      have notEnd : char ≠ ']' := notClosing .array
      simp only [readItems, skipped, notEnd, isComma, if_false, isItem, blanks isBlank]
      rfl

/-- The items at the front of a list are taken, and the list goes on after them. -/
theorem readItems_run {spells : α → List Char → Prop}
    (blanks : ∀ {blank : List Char}, Blank blank → ∀ text, item (blank ++ text) = item text)
    (reads : ∀ {value : α} {core : List Char}, spells value core → Begins core ∧
      ∀ {rest : List Char}, NumberEnds rest → item (core ++ rest) = .ok (value, rest))
    {values : List α} {texts : List (List Char)} (spelled : List.Forall₂ spells values texts)
    {started : Bool} {run : List Char} (isRun : Run started texts run) {rounds : List Char}
    (enough : texts.length ≤ rounds.length) (taken : List α) {rest : List Char}
    (ends : texts ≠ [] → NumberEnds rest) :
    readItems item rounds started taken (run ++ rest) =
      readItems item (rounds.drop texts.length) (started || !texts.isEmpty)
        (values.reverse ++ taken) rest := by
  induction spelled generalizing started run rounds taken with
  | nil =>
      cases isRun
      rw [List.isEmpty_nil, Bool.not_true, Bool.or_false]
      rfl
  | @cons value core values texts spellsValue _ ih =>
      obtain ⟨lead, others, leads, following, rfl⟩ := isRun
      obtain ⟨begins, valueRead⟩ := reads spellsValue
      have ends := ends (List.cons_ne_nil core texts)
      rw [List.length_cons] at enough
      have enoughLeft : texts.length ≤ rounds.tail.length := by
        rw [List.length_tail]
        omega
      rw [List.append_assoc, List.append_assoc,
        readItems_leads blanks leads begins (by omega) taken]
      simp only [valueRead (following.numberEnds ends), ih following enoughLeft _ fun _ => ends,
        List.drop_tail, List.length_cons, List.isEmpty_cons, Bool.not_false, Bool.true_or,
        Bool.or_true, List.reverse_cons, List.append_assoc, List.cons_append, List.nil_append]

theorem readItems_closing {started : Bool} {blank : List Char} (isBlank : Blank blank)
    {rounds : List Char} (enough : 0 < rounds.length) (taken : List α) (rest : List Char) :
    readItems item rounds started taken (blank ++ ']' :: rest) = .ok (taken.reverse, rest) := by
  cases rounds with
  | nil => exact absurd enough (Nat.lt_irrefl 0)
  | cons _ rounds =>
      have notBlank : Json.isBlank ']' = false := by decide
      simp only [readItems, Json.skipBlanks_spelled isBlank notBlank, if_true]

theorem readItems_listed {spells : α → List Char → Prop}
    (blanks : ∀ {blank : List Char}, Blank blank → ∀ text, item (blank ++ text) = item text)
    (reads : ∀ {value : α} {core : List Char}, spells value core → Begins core ∧
      ∀ {rest : List Char}, NumberEnds rest → item (core ++ rest) = .ok (value, rest))
    {values : List α} {texts : List (List Char)} (spelled : List.Forall₂ spells values texts)
    {started : Bool} {between : List Char} (listed : Listed started texts between)
    {rounds : List Char} (taken : List α) (rest : List Char)
    (enough : texts.length < rounds.length) :
    readItems item rounds started taken (between ++ ']' :: rest) =
      .ok (taken.reverse ++ values, rest) := by
  rw [← List.append_nil texts] at listed
  obtain ⟨run, blank, isRun, listedNil, rfl⟩ := listed.exists_run
  have isBlank := Json.listed_nil_iff.mp listedNil
  have enoughLeft : 0 < (rounds.drop texts.length).length := by
    rw [List.length_drop]
    omega
  have ends : NumberEnds (blank ++ ']' :: rest) :=
    Json.numberEnds_blank isBlank (Json.Bracket.array.numberEnds_closing rest)
  rw [List.append_assoc, readItems_run blanks reads spelled isRun enough.le taken fun _ => ends,
    readItems_closing isBlank enoughLeft, List.reverse_append, List.reverse_reverse]

end Items

/-! ### Records -/

section Records

variable {read : (form : Form) → Reader form.Carrier} {inside : Grammar}

theorem begins_of_spellsField (complete : Complete read inside) {field : Field}
    {content : field.Carrier} {core : List Char} (spells : SpellsField inside field content core) :
    Begins core := by
  cases field with
  | required key shape => exact (complete.starts spells).1
  | optional key shape =>
      cases content with
      | none =>
          cases spells
          exact Json.begins_cons rfl (by decide) (by decide)
      | some content => exact (complete.starts spells).1

theorem readField_blank (complete : Complete read inside) (field : Field) {blank : List Char}
    (isBlank : Blank blank) (text : List Char) :
    readField read field (blank ++ text) = readField read field text := by
  cases field with
  | required key shape => exact complete.blanks (.value shape) isBlank text
  | optional key shape => simp only [readField, Json.skipBlanks_append isBlank]

theorem readField_spelled (complete : Complete read inside) {field : Field}
    {content : field.Carrier} {core rest : List Char}
    (spells : SpellsField inside field content core) (ends : NumberEnds rest) :
    readField read field (core ++ rest) = .ok (content, rest) := by
  cases field with
  | required key shape => exact complete.reads (.value shape) List.nodup_nil spells ends
  | optional key shape =>
      cases content with
      | none =>
          cases spells
          rfl
      | some content =>
          have contentRead := complete.reads (.value shape) List.nodup_nil spells ends
          obtain ⟨⟨char, others, rfl, notBlank, _⟩, notNull⟩ := complete.starts spells
          rw [List.cons_append] at contentRead ⊢
          simp only [readField, Json.skipBlanks_cons notBlank]
          split
          next same =>
              rw [(List.cons.inj same).1] at notNull
              exact absurd rfl notNull
          next =>
              rw [contentRead]
              rfl

theorem close_of_spellsOpen {fields : List Field} {slots : Slots fields} {row : Row fields}
    (opened : SpellsOpen inside fields slots row []) : slots.close = .ok row := by
  induction fields with
  | nil => rfl
  | cons field fields ih =>
      rcases slots with ⟨slot, slots⟩
      rcases row with ⟨content, row⟩
      cases slot with
      | none =>
          obtain ⟨leftOut, others⟩ := opened
          cases field with
          | required key shape => exact leftOut.elim
          | optional key shape =>
              have absent : content = none := leftOut
              simp only [Slots.close, ih others, Except.map, absent, Option.getD_none]
      | some value =>
          obtain ⟨⟨rfl, _⟩, others⟩ := opened
          cases field with
          | required key shape => simp only [Slots.close, ih others, Except.map]
          | optional key shape =>
              simp only [Slots.close, ih others, Except.map, Option.getD_some]

/-- The entry of an open field spells its content, and no other entry has its key. -/
theorem spellsField_of_open {field : Field} {slot : Option field.Carrier}
    {content : field.Carrier} {fields : List Field} {slots : Slots fields} {row : Row fields}
    {entry : Entry} {entries : List Entry} (isKey : entry.key = field.key)
    (opened : SpellsOpen inside (field :: fields) (slot, slots) (content, row)
      (entry :: entries)) :
    slot = none ∧ SpellsField inside field content entry.value ∧
      named field.key entries = [] := by
  cases slot with
  | some value =>
      have noEntry := opened.1.2
      rw [← isKey, named_cons_self] at noEntry
      exact absurd noEntry (List.cons_ne_nil _ _)
  | none =>
      have spells := opened.1
      rw [← isKey, named_cons_self] at spells
      rw [← isKey]
      cases others : named entry.key entries with
      | nil =>
          rw [others] at spells
          cases field with
          | required key shape => exact ⟨rfl, spells, rfl⟩
          | optional key shape => exact ⟨rfl, spells, rfl⟩
      | cons other others' =>
          rw [others] at spells
          cases field with
          | required key shape => exact spells.elim
          | optional key shape => exact spells.elim

theorem readEntry_spelled (complete : Complete read inside) {fields : List Field}
    (distinct : (fields.map Field.key).Nodup) {slots : Slots fields} {row : Row fields}
    {entry : Entry} {entries : List Entry} (wellFormed : entry.WellFormed)
    (opened : SpellsOpen inside fields slots row (entry :: entries))
    (unknown : entry.key ∉ fields.map Field.key → Valid entry.value) {rest : List Char}
    (ends : NumberEnds rest) :
    ∃ filled, readEntry read entry.key fields slots
        (entry.before ++ ':' :: (entry.after ++ (entry.value ++ rest))) = .ok (filled, rest) ∧
      SpellsOpen inside fields filled row entries := by
  have colonRead := readColon_blank wellFormed.blankBefore
    (entry.after ++ (entry.value ++ rest))
  induction fields with
  | nil =>
      have skipped := Json.skipValue?_valid wellFormed.blankAfter (unknown List.not_mem_nil) ends
      exact ⟨(), by simp only [readEntry, colonRead, skipped], trivial⟩
  | cons field fields ih =>
      rw [List.map_cons, List.nodup_cons] at distinct
      rcases slots with ⟨slot, slots⟩
      rcases row with ⟨content, row⟩
      by_cases isKey : field.key = entry.key
      · obtain ⟨rfl, spells, noMore⟩ := spellsField_of_open isKey.symm opened
        have fieldRead := (readField_blank complete field wellFormed.blankAfter _).trans
          (readField_spelled complete spells ends)
        refine ⟨(some content, slots), ?_, ⟨rfl, noMore⟩, ?_⟩
        · simp only [readEntry, isKey, if_true, colonRead, fieldRead, Outcome.onValue]
        · exact (spellsOpen_cons_iff_of_notMem (isKey ▸ distinct.1)).mp opened.2
      · have differs : entry.key ≠ field.key := fun same => isKey same.symm
        have opens : SpellsOpen inside fields slots row (entry :: entries) := by
          cases slot with
          | none => exact opened.2
          | some value => exact opened.2
        have unknownHere (isUnknown : entry.key ∉ fields.map Field.key) : Valid entry.value :=
          unknown (by rw [List.map_cons, List.mem_cons, not_or]; exact ⟨differs, isUnknown⟩)
        obtain ⟨filled, othersRead, stillOpen⟩ := ih distinct.2 opens unknownHere
        refine ⟨(slot, filled), ?_, ?_⟩
        · simp only [readEntry, isKey, if_false, othersRead, Outcome.onValue]
        · cases slot with
          | none =>
              have spells := opened.1
              rw [named_cons_of_ne differs] at spells
              exact ⟨spells, stillOpen⟩
          | some value =>
              have spells := opened.1
              rw [named_cons_of_ne differs] at spells
              exact ⟨spells, stillOpen⟩

theorem begins_of_wellFormed {entry : Entry} (wellFormed : entry.WellFormed) :
    Begins entry.text := by
  obtain ⟨⟨char, others, isText, rest⟩, _⟩ := starts_of_spellsString wellFormed.spellsKey
  exact ⟨char, _, by rw [Json.Member.text, isText]; rfl, rest⟩

/-- The text of an object has more characters than entries. -/
theorem length_lt_of_listed {started : Bool} {entries : List Entry} {between : List Char}
    (wellFormed : ∀ entry ∈ entries, entry.WellFormed)
    (listed : Listed started (entries.map fun entry => entry.text) between) (rest : List Char) :
    entries.length < (between ++ '\x7d' :: rest).length := by
  have bound := length_le_of_listed listed
    (List.forall_mem_map.mpr fun entry isEntry => begins_of_wellFormed (wellFormed entry isEntry))
  rw [List.length_map] at bound
  simp only [List.length_append, List.length_cons]
  omega

theorem text_append (member : Json.Member) (rest : List Char) :
    member.text ++ rest = member.quoted ++
      (member.before ++ ':' :: (member.after ++ (member.value ++ rest))) := by
  simp only [Json.Member.text, List.append_assoc, List.cons_append]

/-- Where an entry stands, it decides what comes next. -/
theorem readEntries_leads {fields : List Field} {started : Bool} {lead : List Char}
    (leads : Leads started lead) {entry : Entry} (wellFormed : entry.WellFormed)
    {rounds : List Char} (enough : 0 < rounds.length) (slots : Slots fields) (rest : List Char) :
    readEntries read fields rounds started slots (lead ++ (entry.text ++ rest)) =
      match readEntry read entry.key fields slots
        (entry.before ++ ':' :: (entry.after ++ (entry.value ++ rest))) with
      | .error problem => .error problem
      | .ok (slots, rest) => readEntries read fields rounds.tail true slots rest := by
  cases rounds with
  | nil => exact absurd enough (Nat.lt_irrefl 0)
  | cons _ rounds =>
      obtain ⟨char, tail, blank, skipped, notClosing, isComma, isBlank, isItem⟩ :=
        leads.skipBlanks (begins_of_wellFormed wellFormed) rest
      have notEnd : char ≠ '\x7d' := notClosing .object
      have keyRead := readKey_spelled isBlank wellFormed.spellsKey
        (entry.before ++ ':' :: (entry.after ++ (entry.value ++ rest)))
      rw [text_append] at skipped isItem ⊢
      simp only [readEntries, skipped, notEnd, isComma, if_false, isItem, keyRead]
      rfl

theorem readEntries_closing {fields : List Field} {started : Bool} {blank : List Char}
    (isBlank : Blank blank) {rounds : List Char} (enough : 0 < rounds.length)
    (slots : Slots fields) (rest : List Char) :
    readEntries read fields rounds started slots (blank ++ '\x7d' :: rest) =
      match slots.close with
      | .error problem => refuse problem
      | .ok row => .ok (row, rest) := by
  cases rounds with
  | nil => exact absurd enough (Nat.lt_irrefl 0)
  | cons _ rounds =>
      have notBlank : Json.isBlank '\x7d' = false := by decide
      cases closed : slots.close with
      | error problem =>
          simp only [readEntries, Json.skipBlanks_spelled isBlank notBlank, if_true, closed]
      | ok row =>
          simp only [readEntries, Json.skipBlanks_spelled isBlank notBlank, if_true, closed]

theorem readEntries_listed (complete : Complete read inside) {fields : List Field}
    (distinct : (fields.map Field.key).Nodup) {slots : Slots fields} {row : Row fields}
    {entries : List Entry} (wellFormed : ∀ entry ∈ entries, entry.WellFormed)
    (opened : SpellsOpen inside fields slots row entries)
    (unknown : ∀ entry ∈ entries, entry.key ∉ fields.map Field.key → Valid entry.value)
    {started : Bool} {between rounds : List Char}
    (listed : Listed started (entries.map fun entry => entry.text) between)
    (rest : List Char) (enough : entries.length < rounds.length) :
    readEntries read fields rounds started slots (between ++ '\x7d' :: rest) =
      .ok (row, rest) := by
  induction entries generalizing slots started between rounds with
  | nil =>
      simp only [readEntries_closing (Json.listed_nil_iff.mp listed) enough,
        close_of_spellsOpen opened]
  | cons entry entries ih =>
      rw [List.forall_mem_cons] at wellFormed unknown
      obtain ⟨lead, others, leads, following, rfl⟩ := Json.listed_cons_iff.mp listed
      have ends : NumberEnds (others ++ '\x7d' :: rest) :=
        following.numberEnds (Json.Bracket.object.numberEnds_closing rest)
      obtain ⟨filled, entryRead, stillOpen⟩ :=
        readEntry_spelled complete distinct wellFormed.1 opened unknown.1 ends
      rw [List.length_cons] at enough
      have enoughLeft : entries.length < rounds.tail.length := by
        rw [List.length_tail]
        omega
      rw [List.append_assoc, List.append_assoc,
        readEntries_leads leads wellFormed.1 (by omega) slots]
      simp only [entryRead, ih wellFormed.2 stillOpen unknown.2 following enoughLeft]

/-- Where a field stands in an array, it decides what comes next. -/
theorem readPositions_leads (complete : Complete read inside) (title : String)
    (size index : Nat) (field : Field) (fields : List Field) {lead core : List Char}
    (leads : Leads (decide (0 < index)) lead) (begins : Begins core) (rest : List Char) :
    readPositions read title size index (field :: fields) (lead ++ (core ++ rest)) =
      match readField read field (core ++ rest) with
      | .error problem => .error problem
      | .ok (value, rest) =>
          (readPositions read title size (index + 1) fields rest).onValue (value, ·) := by
  obtain ⟨char, chars, blank, skipped, notClosing, isComma, isBlank, isItem⟩ :=
    leads.skipBlanks begins rest
  have notEnd : char ≠ ']' := notClosing .array
  have isField : (if index = 0 then char :: chars else chars) = blank ++ (core ++ rest) := by
    rw [← isItem]
    cases index with
    | zero => rfl
    | succ index => rfl
  have isComma : ¬(0 < index ∧ char ≠ ',') := by
    rwa [decide_eq_true_eq] at isComma
  cases fieldRead : readField read field (core ++ rest) with
  | error problem =>
      simp only [readPositions, skipped, notEnd, isComma, if_false, isField,
        readField_blank complete field isBlank, fieldRead]
  | ok result =>
      simp only [readPositions, skipped, notEnd, isComma, if_false, isField,
        readField_blank complete field isBlank, fieldRead]

theorem readPositions_listed (complete : Complete read inside) (title : String) (size : Nat)
    {fields : List Field} {row : Row fields} {texts : List (List Char)}
    (spells : SpellsRow inside fields row texts) {index : Nat} {between : List Char}
    (listed : Listed (decide (0 < index)) texts between) (rest : List Char) :
    readPositions read title size index fields (between ++ ']' :: rest) = .ok (row, rest) := by
  induction fields generalizing texts index between with
  | nil =>
      cases spells
      have notBlank : Json.isBlank ']' = false := by decide
      simp only [readPositions, Json.skipBlanks_spelled (Json.listed_nil_iff.mp listed) notBlank]
  | cons field fields ih =>
      rcases row with ⟨content, row⟩
      cases texts with
      | nil => exact spells.elim
      | cons core texts =>
          obtain ⟨spells, others⟩ := spells
          obtain ⟨lead, tail, leads, following, rfl⟩ := Json.listed_cons_iff.mp listed
          have ends : NumberEnds (tail ++ ']' :: rest) :=
            following.numberEnds (Json.Bracket.array.numberEnds_closing rest)
          have fieldRead := readField_spelled complete spells ends
          have listedAfter : Listed (decide (0 < index + 1)) texts tail := following
          rw [List.append_assoc, List.append_assoc,
            readPositions_leads complete title size index field fields leads
              (begins_of_spellsField complete spells)]
          simp only [fieldRead, ih others listedAfter, Outcome.onValue]

end Records

/-! ### Forms -/

section Nodes

variable {inner : Inner} {inside? : Option Grammar}

theorem readRecord_brace (read : (form : Form) → Reader form.Carrier) (title : String)
    (fields : List Field) (between rest : List Char) :
    readRecord (some read) title fields ('\x7b' :: (between ++ ['\x7d']) ++ rest) =
      readEntries read fields (between ++ '\x7d' :: rest) false (Slots.empty fields)
        (between ++ '\x7d' :: rest) := by
  have notBlank : Json.isBlank '\x7b' = false := by decide
  simp only [readRecord, List.cons_append, List.append_assoc, List.nil_append,
    Json.skipBlanks_cons notBlank]

theorem readRecord_bracket (read : (form : Form) → Reader form.Carrier) (title : String)
    (fields : List Field) (between rest : List Char) :
    readRecord (some read) title fields ('[' :: (between ++ [']']) ++ rest) =
      readPositions read title fields.length 0 fields (between ++ ']' :: rest) := by
  have notBlank : Json.isBlank '[' = false := by decide
  simp only [readRecord, List.cons_append, List.append_assoc, List.nil_append,
    Json.skipBlanks_cons notBlank]

theorem readRecord_spelled (complete : inner.Complete inside?) (title : String)
    {fields : List Field} (distinct : (fields.map Field.key).Nodup) {row : Row fields}
    {core : List Char} (spells : SpellsRecord inside? fields row core) (rest : List Char) :
    readRecord inner title fields (core ++ rest) = .ok (row, rest) := by
  obtain ⟨inside, isInside, spells⟩ := spells
  obtain ⟨read, rfl, readComplete⟩ := complete inside isInside
  rcases spells with ⟨entries, between, wellFormed, spells, unknown, separated, rfl⟩ |
    ⟨texts, between, spells, separated, rfl⟩
  · have listed : Listed false (entries.map fun entry => entry.text) between := separated
    rw [readRecord_brace]
    exact readEntries_listed readComplete distinct wellFormed (spellsOpen_empty_iff.mpr spells)
      unknown listed rest (length_lt_of_listed wellFormed listed rest)
  · have listed : Listed (decide (0 < 0)) texts between := separated
    rw [readRecord_bracket]
    exact readPositions_listed readComplete title fields.length spells listed rest

theorem readPayload_blank {read : (form : Form) → Reader form.Carrier} {inside : Grammar}
    (complete : Complete read inside) (payload : Payload) {blank : List Char}
    (isBlank : Blank blank) (text : List Char) :
    readPayload read payload (blank ++ text) = readPayload read payload text := by
  cases payload with
  | nothing => simp only [readPayload, readNull, Json.skipBlanks_append isBlank]
  | one form => exact complete.blanks form isBlank text
  | several title fields => exact complete.blanks (.record title fields) isBlank text

theorem readPayload_spelled {read : (form : Form) → Reader form.Carrier} {inside : Grammar}
    (complete : Complete read inside) {payload : Payload} (distinct : payload.keys.Nodup)
    {data : payload.Carrier} {core rest : List Char}
    (spells : SpellsPayload inside payload data core) (ends : NumberEnds rest) :
    readPayload read payload (core ++ rest) = .ok (data, rest) := by
  cases payload with
  | nothing =>
      cases spells
      rfl
  | one form => exact complete.reads form distinct spells ends
  | several title fields => exact complete.reads (.record title fields) distinct spells ends

theorem exists_of_separated_singleton {text between : List Char}
    (separated : Separated [text] between) :
    ∃ lead blank, Blank lead ∧ Blank blank ∧ between = lead ++ (text ++ blank) := by
  cases separated with
  | @cons before _ others _ blankBefore following =>
      cases following with
      | nil isBlank => exact ⟨before, others, blankBefore, isBlank, rfl⟩

/-- What becomes of a tagged case is what becomes of its data. -/
theorem readChoice_entry {α : Type} {read : (form : Form) → Reader form.Carrier}
    {inside : Grammar} (complete : Complete read inside) {cases : List (Case α)}
    (tagsDistinct : (cases.map Case.tag).Nodup) {case : Case α} (isCase : case ∈ cases)
    {entry : Entry} (wellFormed : entry.WellFormed) (isTag : entry.key = case.tag)
    {between : List Char} (separated : Separated [entry.text] between)
    (result : Except ReadError case.payload.Carrier)
    (payloadRead : ∀ {rest : List Char}, NumberEnds rest →
      readPayload read case.payload (entry.value ++ rest) = result.map (·, rest))
    (rest : List Char) :
    readChoice (some read) cases ('\x7b' :: (between ++ ['\x7d']) ++ rest) =
      (result.map case.make).map (·, rest) := by
  obtain ⟨lead, blank, isLead, isBlank, rfl⟩ := exists_of_separated_singleton separated
  have closing : NumberEnds (blank ++ '\x7d' :: rest) :=
    Json.numberEnds_blank isBlank (Json.Bracket.object.numberEnds_closing rest)
  have tagRead (rest : List Char) :
      readText "variant identifier" (entry.quoted ++ rest) = .ok (case.tag, rest) := by
    rw [← isTag]
    exact readText_spelled wellFormed.spellsKey rest
  have colonRead := readColon_blank wellFormed.blankBefore
    (entry.after ++ (entry.value ++ (blank ++ '\x7d' :: rest)))
  have opening : Json.isBlank '\x7b' = false := by decide
  have notBlank : Json.isBlank '\x7d' = false := by decide
  simp only [List.cons_append, List.append_assoc, List.nil_append, text_append, readChoice,
    Json.skipBlanks_cons opening, readTagged, readText_blank isLead, tagRead,
    findCase_of_mem tagsDistinct isCase,
    colonRead, readPayload_blank complete case.payload wellFormed.blankAfter, payloadRead closing]
  cases result with
  | error problem => rfl
  | ok data => simp only [Except.map, Json.skipBlanks_spelled isBlank notBlank]

theorem readChoice_spelled {α : Type} (complete : inner.Complete inside?)
    {cases : List (Case α)} (tagsDistinct : (cases.map Case.tag).Nodup)
    (distinct : ∀ case ∈ cases, case.payload.keys.Nodup) {node : α} {core : List Char}
    (spells : SpellsChoice inside? cases node core) (rest : List Char) :
    readChoice inner cases (core ++ rest) = .ok (node, rest) := by
  obtain ⟨case, isCase, spells⟩ := spells
  rcases spells with ⟨bare, ⟨data, rfl⟩, spells⟩ | ⟨inside, isInside, spells⟩
  · obtain ⟨tail, isText, scanned⟩ := spells.scanned rest
    have found := findCase_of_mem tagsDistinct isCase
    have notBlank : Json.isBlank '"' = false := by decide
    have made : bareNode case = .ok (case.make data) := by
      rcases case with ⟨tag, payload, make, part⟩
      cases bare
      rfl
    simp only [readChoice, isText, Json.skipBlanks_cons notBlank, scanned, found, made,
      Except.map]
  · obtain ⟨read, rfl, readComplete⟩ := complete inside isInside
    obtain ⟨data, entry, between, rfl, wellFormed, isTag, spells, separated, rfl⟩ := spells
    exact readChoice_entry readComplete tagsDistinct isCase wellFormed isTag separated (.ok data)
      (readPayload_spelled readComplete (distinct case isCase) spells) rest

theorem readNode_spelled {α : Type} {write : α → Json} {layout : Layout α}
    (agrees : layout.Agrees write) (complete : inner.Complete inside?) {node : α}
    {core : List Char} (spells : SpellsNode inside? layout node core) (rest : List Char) :
    readNode inner layout (core ++ rest) = .ok (node, rest) := by
  cases agrees with
  | record title fields make parts keysDistinct _ _ =>
      obtain ⟨row, rfl, spells⟩ := spells
      simp only [readNode, readRecord_spelled complete title keysDistinct spells rest,
        Outcome.onValue]
  | choice cases tagsDistinct keysDistinct _ _ _ =>
      exact readChoice_spelled complete tagsDistinct keysDistinct spells rest

theorem readList_spelled (complete : inner.Complete inside?) {item : Shape}
    {contents : List item.Carrier} {core : List Char}
    (spells : SpellsList inside? item contents core) (rest : List Char) :
    readList inner item (core ++ rest) = .ok (contents, rest) := by
  obtain ⟨inside, isInside, texts, between, spells, separated, rfl⟩ := spells
  obtain ⟨read, rfl, readComplete⟩ := complete inside isInside
  have listed : Listed false texts between := separated
  have enough : texts.length < (between ++ ']' :: rest).length := by
    have bound := length_le_of_listed listed
      (begins_of_forall₂ (fun spellsItem => (readComplete.starts spellsItem).1) spells)
    simp only [List.length_append, List.length_cons]
    omega
  have itemsRead := readItems_listed (readComplete.blanks (.value item))
    (fun spellsItem => ⟨(readComplete.starts spellsItem).1,
      readComplete.reads (.value item) List.nodup_nil spellsItem⟩) spells listed [] rest enough
  have notBlank : Json.isBlank '[' = false := by decide
  simp only [readList, List.cons_append, List.append_assoc, List.nil_append,
    Json.skipBlanks_cons notBlank, itemsRead, List.reverse_nil]

theorem readWith_blank (inner : Inner) (form : Form) {blank : List Char} (isBlank : Blank blank)
    (text : List Char) : readWith inner form (blank ++ text) = readWith inner form text := by
  have record (title : String) (fields : List Field) :
      readRecord inner title fields (blank ++ text) = readRecord inner title fields text := by
    simp only [readRecord, Json.skipBlanks_append isBlank]
  cases form with
  | record title fields => exact record title fields
  | value shape =>
      cases shape with
      | text => exact readText_blank isBlank "a string" text
      | character => simp only [readWith, readShape, readCharacter, readText_blank isBlank]
      | truth => simp only [readWith, readShape, readTruth, Json.skipBlanks_append isBlank]
      | integer width => exact readInteger_blank isBlank width text
      | real => exact readReal_blank isBlank text
      | list item => simp only [readWith, readShape, readList, Json.skipBlanks_append isBlank]
      | node kind =>
          simp only [readWith, readShape]
          cases kind.layout with
          | record title fields make parts => simp only [readNode, record]
          | choice cases => simp only [readNode, readChoice, Json.skipBlanks_append isBlank]

theorem complete_readWith (complete : inner.Complete inside?) :
    Complete (readWith inner) (SpellsWith inside?) where
  blanks form _ isBlank text := readWith_blank inner form isBlank text
  starts spells := starts_of_spellsWith spells
  reads form content core keysDistinct spells rest ends := by
    cases form with
    | record title fields => exact readRecord_spelled complete title keysDistinct spells rest
    | value shape =>
        cases shape with
        | text => exact readText_spelled spells rest
        | character => exact readCharacter_spelled spells rest
        | truth =>
            cases spells
            exact readTruth_spelled content rest
        | integer width =>
            cases spells
            exact readInteger_chars width content ends
        | real => exact readReal_spelled spells ends
        | list item => exact readList_spelled complete spells rest
        | node kind => exact readNode_spelled kind.layout_agrees complete spells rest

end Nodes

theorem complete_readForm (budget : Nat) : Complete (readForm budget) (Spells budget) := by
  induction budget with
  | zero => exact complete_readWith fun inside impossible => nomatch impossible
  | succ budget ih =>
      refine complete_readWith fun inside same => ⟨readForm budget, rfl, ?_⟩
      rw [← Option.some.inj same]
      exact ih

/-- A node ends with its last bracket or quote, whatever follows. -/
theorem readForm_node_spelled {budget : Nat} {kind : Kind} {node : kind.Carrier}
    {core : List Char} (spells : Spells budget (.value (.node kind)) node core)
    (rest : List Char) :
    readForm budget (.value (.node kind)) (core ++ rest) = .ok (node, rest) := by
  cases budget with
  | zero =>
      have complete : Inner.Complete none none := fun _ impossible => nomatch impossible
      exact readNode_spelled kind.layout_agrees complete spells rest
  | succ budget =>
      have complete : Inner.Complete (some (readForm budget)) (some (Spells budget)) := by
        intro inside same
        rw [← Option.some.inj same]
        exact ⟨readForm budget, rfl, complete_readForm budget⟩
      exact readNode_spelled kind.layout_agrees complete spells rest

theorem Kind.tags_distinct {kind : Kind} {cases : List (Case kind.Carrier)}
    (isLayout : kind.layout = .choice cases) : (cases.map Case.tag).Nodup := by
  have agrees := kind.layout_agrees
  rw [isLayout] at agrees
  cases agrees with
  | choice _ tagsDistinct _ _ _ _ => exact tagsDistinct

/-- What becomes of a node of a tagged case is what becomes of its data. -/
theorem readForm_entry {budget : Nat} {kind : Kind} {cases : List (Case kind.Carrier)}
    (isLayout : kind.layout = .choice cases) {case : Case kind.Carrier} (isCase : case ∈ cases)
    {entry : Entry} (wellFormed : entry.WellFormed) (isTag : entry.key = case.tag)
    {between : List Char} (separated : Separated [entry.text] between)
    (result : Except ReadError case.payload.Carrier)
    (payloadRead : ∀ {rest : List Char}, NumberEnds rest →
      readPayload (readForm budget) case.payload (entry.value ++ rest) = result.map (·, rest))
    (rest : List Char) :
    readForm (budget + 1) (.value (.node kind)) ('\x7b' :: (between ++ ['\x7d']) ++ rest) =
      (result.map case.make).map (·, rest) := by
  change readNode (some (readForm budget)) kind.layout _ = _
  rw [isLayout]
  exact readChoice_entry (complete_readForm budget) (Kind.tags_distinct isLayout) isCase
    wellFormed isTag separated result payloadRead rest

/-- What becomes of a text is what becomes of its core, whatever follows. -/
theorem readWhole_core (form : Form) (result : Except ReadError form.Carrier) {core : List Char}
    (isRead : ∀ {rest : List Char}, NumberEnds rest →
      readForm depthLimit form (core ++ rest) = result.map (·, rest))
    {before after : List Char} (blankBefore : Blank before) (blankAfter : Blank after)
    {text : String} (isText : text.toList = before ++ (core ++ after)) :
    readWhole form text = result := by
  have ends : NumberEnds after := by
    rw [← List.append_nil after]
    exact Json.numberEnds_blank blankAfter Json.numberEnds_nil
  have isEnd : skipBlanks after = [] := by
    rw [← List.append_nil after, Json.skipBlanks_append blankAfter]
    rfl
  have formRead := ((complete_readForm depthLimit).blanks form blankBefore (core ++ after)).trans
    (isRead ends)
  rw [readWhole, isText, formRead]
  cases result with
  | error problem => rfl
  | ok content => simp only [Except.map, isEnd, if_true]

/-- A text is read as a node exactly if it spells the node. -/
theorem read_eq_ok_iff {kind : Kind} {node : kind.Carrier} {text : String} :
    read kind text = .ok node ↔ Spelling kind node text := by
  constructor
  · intro isRead
    unfold read readWhole at isRead
    split at isRead
    next => exact nomatch isRead
    next content rest formRead =>
        split at isRead
        next isEnd =>
            cases isRead
            obtain ⟨before, core, blankBefore, spells, isText⟩ := sound_readForm depthLimit
              (.value (.node kind)) _ rest node List.nodup_nil formRead
            obtain ⟨after, isRest, blankAfter⟩ := Json.exists_blank_of_skipBlanks isEnd
            rw [List.append_nil] at isRest
            exact ⟨before, core, after, blankBefore, spells, blankAfter, isRest ▸ isText⟩
        next => exact nomatch isRead
  · rintro ⟨before, core, after, blankBefore, spells, blankAfter, isText⟩
    exact readWhole_core (.value (.node kind)) (.ok node)
      ((complete_readForm depthLimit).reads (.value (.node kind)) List.nodup_nil spells)
      blankBefore blankAfter isText

end ScopeLint.Format
