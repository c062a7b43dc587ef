import ScopeLint.Proofs.Format.Keys

/-!
The places of a text where an integer is wanted. All else in the text is spelled as the grammar
has it; whatever stands in the place then decides what becomes of the whole: with an integer of
the wanted type the text spells a tree that has it there, and what is refused there is what the
whole text is refused for.
-/

set_option autoImplicit false

namespace ScopeLint.Format

open Json (Begins Leads Listed NumberEnds Run Separated Valid)

def Field.shape : Field → Shape
  | required _ shape | optional _ shape => shape

/-- A field that is not left out. -/
def Field.given : (field : Field) → field.shape.Carrier → field.Carrier
  | required _ _, content => content
  | optional _ _, content => some content

section Places

variable (width : Width)

/-- A row of which one field depends on an integer. In an array that field has the text `core`,
and the others are spelled. -/
inductive InRow (inside : Grammar) {field : Field} (plug : width.Carrier → field.Carrier)
    (core : List Char) :
    (fields : List Field) → (width.Carrier → Row fields) → List (List Char) → Prop where
  | first {fields : List Field} {row : Row fields} {texts : List (List Char)}
      (others : SpellsRow inside fields row texts) :
      InRow inside plug core (field :: fields) (fun value => (plug value, row)) (core :: texts)
  | later {other : Field} {content : other.Carrier} {text : List Char} {fields : List Field}
      {rows : width.Carrier → Row fields} {texts : List (List Char)}
      (spells : SpellsField inside other content text)
      (inRow : InRow inside plug core fields rows texts) :
      InRow inside plug core (other :: fields) (fun value => (content, rows value))
        (text :: texts)

/-- The same in an object, where that field has the only entry under its key. -/
inductive InFields (inside : Grammar) {field : Field} (plug : width.Carrier → field.Carrier)
    (entries : List Entry) (entry : Entry) :
    (fields : List Field) → (width.Carrier → Row fields) → Prop where
  | first {fields : List Field} {row : Row fields} (alone : named field.key entries = [entry])
      (others : SpellsFields inside fields row entries) :
      InFields inside plug entries entry (field :: fields) (fun value => (plug value, row))
  | later {other : Field} {content : other.Carrier} {fields : List Field}
      {rows : width.Carrier → Row fields}
      (spells : SpellsSlot inside other content (named other.key entries))
      (inFields : InFields inside plug entries entry fields rows) :
      InFields inside plug entries entry (other :: fields) (fun value => (content, rows value))

/-- The text `hole` stands in a place for an integer, in a text in which `budget` more brackets
may be open. What the text spells depends on the integer there. -/
inductive Stands (hole : List Char) :
    (budget : Nat) → (form : Form) → (width.Carrier → form.Carrier) → List Char → Prop where
  | here {budget : Nat} : Stands hole budget (.value (.integer width)) id hole
  | item {budget : Nat} {item : Shape} {plug : width.Carrier → item.Carrier}
      {core between : List Char} {before after : List item.Carrier}
      {textsBefore textsAfter : List (List Char)}
      (stands : Stands hole budget (.value item) plug core)
      (earlier : List.Forall₂ (Spells budget (.value item)) before textsBefore)
      (later : List.Forall₂ (Spells budget (.value item)) after textsAfter)
      (separated : Separated (textsBefore ++ core :: textsAfter) between) :
      Stands hole (budget + 1) (.value (.list item))
        (fun value => before ++ plug value :: after) ('[' :: (between ++ [']']))
  | array {budget : Nat} {title : String} {fields : List Field} {field : Field}
      {plug : width.Carrier → field.shape.Carrier} {rows : width.Carrier → Row fields}
      {core between : List Char} {texts : List (List Char)}
      (stands : Stands hole budget (.value field.shape) plug core)
      (inRow : InRow width (Spells budget) (fun value => field.given (plug value)) core fields
        rows texts)
      (separated : Separated texts between) :
      Stands hole (budget + 1) (.record title fields) rows ('[' :: (between ++ [']']))
  | object {budget : Nat} {title : String} {fields : List Field} {field : Field}
      {plug : width.Carrier → field.shape.Carrier} {rows : width.Carrier → Row fields}
      {entries : List Entry} {entry : Entry} {between : List Char}
      (stands : Stands hole budget (.value field.shape) plug entry.value)
      (inFields : InFields width (Spells budget) (fun value => field.given (plug value)) entries
        entry fields rows)
      (wellFormed : ∀ entry ∈ entries, entry.WellFormed)
      (unknown : ∀ entry ∈ entries, entry.key ∉ fields.map Field.key → Valid entry.value)
      (separated : Separated (entries.map fun entry => entry.text) between) :
      Stands hole (budget + 1) (.record title fields) rows ('\x7b' :: (between ++ ['\x7d']))
  | node {budget : Nat} {kind : Kind} {title : String} {fields : List Field}
      {make : Row fields → kind.Carrier} {parts : kind.Carrier → Row fields}
      {rows : width.Carrier → Row fields} {core : List Char}
      (isLayout : kind.layout = .record title fields make parts)
      (stands : Stands hole budget (.record title fields) rows core) :
      Stands hole budget (.value (.node kind)) (fun value => make (rows value)) core
  | one {budget : Nat} {kind : Kind} {cases : List (Case kind.Carrier)} {tag : String}
      {form : Form} {make : form.Carrier → kind.Carrier}
      {part : kind.Carrier → Option form.Carrier} {plug : width.Carrier → form.Carrier}
      {entry : Entry} {between : List Char} (isLayout : kind.layout = .choice cases)
      (isCase : ⟨tag, .one form, make, part⟩ ∈ cases) (wellFormed : entry.WellFormed)
      (isTag : entry.key = tag) (stands : Stands hole budget form plug entry.value)
      (separated : Separated [entry.text] between) :
      Stands hole (budget + 1) (.value (.node kind)) (fun value => make (plug value))
        ('\x7b' :: (between ++ ['\x7d']))
  | several {budget : Nat} {kind : Kind} {cases : List (Case kind.Carrier)}
      {tag title : String} {fields : List Field} {make : Row fields → kind.Carrier}
      {part : kind.Carrier → Option (Row fields)} {rows : width.Carrier → Row fields}
      {entry : Entry} {between : List Char} (isLayout : kind.layout = .choice cases)
      (isCase : ⟨tag, .several title fields, make, part⟩ ∈ cases)
      (wellFormed : entry.WellFormed) (isTag : entry.key = tag)
      (stands : Stands hole budget (.record title fields) rows entry.value)
      (separated : Separated [entry.text] between) :
      Stands hole (budget + 1) (.value (.node kind)) (fun value => make (rows value))
        ('\x7b' :: (between ++ ['\x7d']))

end Places

/-! ### What is spelled with an integer in the place -/

section Spelled

variable {width : Width} {inside : Grammar} {field : Field}
  {plug : width.Carrier → field.Carrier} {fields : List Field}
  {rows : width.Carrier → Row fields}

theorem exists_spellsWith (budget : Nat) : ∃ inside?, Spells budget = SpellsWith inside? := by
  cases budget with
  | zero => exact ⟨none, rfl⟩
  | succ budget => exact ⟨some (Spells budget), rfl⟩

theorem spellsField_given {content : field.shape.Carrier} {core : List Char}
    (spells : inside (.value field.shape) content core) :
    SpellsField inside field (field.given content) core := by
  cases field with
  | required key shape => exact spells
  | optional key shape => exact spells

theorem InRow.spells {core : List Char} {texts : List (List Char)}
    (inRow : InRow width inside plug core fields rows texts) {value : width.Carrier}
    (spells : SpellsField inside field (plug value) core) :
    SpellsRow inside fields (rows value) texts := by
  induction inRow with
  | first others => exact ⟨spells, others⟩
  | later spellsOther _ ih => exact ⟨spellsOther, ih⟩

theorem spellsSlot_singleton {content : field.Carrier} {entry : Entry} :
    SpellsSlot inside field content [entry] ↔ SpellsField inside field content entry.value := by
  cases field with
  | required key shape => exact Iff.rfl
  | optional key shape => exact Iff.rfl

theorem InFields.spells {entries : List Entry} {entry : Entry}
    (inFields : InFields width inside plug entries entry fields rows) {value : width.Carrier}
    (spells : SpellsField inside field (plug value) entry.value) :
    SpellsFields inside fields (rows value) entries := by
  induction inFields with
  | first alone others =>
      refine ⟨?_, others⟩
      rw [alone]
      exact spellsSlot_singleton.mpr spells
  | later spellsOther _ ih => exact ⟨spellsOther, ih⟩

theorem Stands.spells {hole core : List Char} {budget : Nat} {form : Form}
    {plug : width.Carrier → form.Carrier} (stands : Stands width hole budget form plug core)
    {value : width.Carrier} (isHole : hole = (toString (width.toInt value)).toList) :
    Spells budget form (plug value) core := by
  induction stands with
  | @here budget =>
      obtain ⟨inside?, isWith⟩ := exists_spellsWith budget
      rw [isWith]
      exact isHole
  | item _ earlier later separated ih =>
      exact ⟨_, rfl, _, _, List.rel_append earlier (.cons ih later), separated, rfl⟩
  | array _ inRow separated ih =>
      exact ⟨_, rfl, .inr ⟨_, _, inRow.spells (spellsField_given ih), separated, rfl⟩⟩
  | object _ inFields wellFormed unknown separated ih =>
      exact ⟨_, rfl, .inl ⟨_, _, wellFormed, inFields.spells (spellsField_given ih), unknown,
        separated, rfl⟩⟩
  | @node budget kind title fields make parts rows core isLayout _ ih =>
      obtain ⟨inside?, isWith⟩ := exists_spellsWith budget
      rw [isWith] at ih ⊢
      change SpellsNode inside? kind.layout _ _
      rw [isLayout]
      exact ⟨_, rfl, ih⟩
  | @one budget kind _ _ _ _ _ _ _ _ isLayout isCase wellFormed isTag _ separated ih =>
      change SpellsNode (some (Spells budget)) kind.layout _ _
      rw [isLayout]
      exact ⟨_, isCase, .inr ⟨_, rfl, _, _, _, rfl, wellFormed, isTag, ih, separated, rfl⟩⟩
  | @several budget kind _ _ _ _ _ _ _ _ _ isLayout isCase wellFormed isTag _ separated ih =>
      change SpellsNode (some (Spells budget)) kind.layout _ _
      rw [isLayout]
      exact ⟨_, isCase, .inr ⟨_, rfl, _, _, _, rfl, wellFormed, isTag, ih, separated, rfl⟩⟩

end Spelled

/-! ### What is refused in the place -/

/-- What a reader is refused for on a text, whatever follows. -/
def RefusedFor {α : Type} (problem : ReadError) (item : Reader α) (core : List Char) : Prop :=
  ∀ {rest : List Char}, NumberEnds rest → item (core ++ rest) = .error problem

section Refused

variable {problem : ReadError} {read : (form : Form) → Reader form.Carrier} {inside : Grammar}

theorem readItems_hole {α : Type} {item : Reader α} {spells : α → List Char → Prop}
    (blanks : ∀ {blank : List Char}, Json.Blank blank → ∀ text, item (blank ++ text) = item text)
    (reads : ∀ {value : α} {core : List Char}, spells value core → Begins core ∧
      ∀ {rest : List Char}, NumberEnds rest → item (core ++ rest) = .ok (value, rest))
    {values : List α} {texts others : List (List Char)}
    (spelled : List.Forall₂ spells values texts) {core : List Char} (begins : Begins core)
    (refused : RefusedFor problem item core) {between : List Char}
    (listed : Listed false (texts ++ core :: others) between) {rounds : List Char}
    (enough : texts.length < rounds.length) (rest : List Char) :
    readItems item rounds false [] (between ++ ']' :: rest) = .error problem := by
  obtain ⟨run, tail, isRun, listedLater, rfl⟩ := listed.exists_run
  obtain ⟨lead, left, leads, following, rfl⟩ := Json.listed_cons_iff.mp listedLater
  have ends : NumberEnds (left ++ ']' :: rest) :=
    following.numberEnds (Json.Bracket.array.numberEnds_closing rest)
  have enoughLeft : 0 < (rounds.drop texts.length).length := by
    rw [List.length_drop]
    omega
  simp only [List.append_assoc]
  rw [readItems_run blanks reads spelled isRun enough.le []
      fun nonempty => leads.numberEnds_after nonempty _,
    readItems_leads blanks leads begins enoughLeft]
  simp only [refused ends]

theorem readPositions_hole (complete : Complete read inside) {width : Width} (title : String)
    (size : Nat) {field : Field} {plug : width.Carrier → field.Carrier} {core : List Char}
    {fields : List Field} {rows : width.Carrier → Row fields} {texts : List (List Char)}
    (inRow : InRow width inside plug core fields rows texts) (begins : Begins core)
    (refused : RefusedFor problem (readField read field) core) {index : Nat}
    {between : List Char} (listed : Listed (decide (0 < index)) texts between)
    (rest : List Char) :
    readPositions read title size index fields (between ++ ']' :: rest) = .error problem := by
  induction inRow generalizing index between with
  | first others =>
      obtain ⟨lead, tail, leads, following, rfl⟩ := Json.listed_cons_iff.mp listed
      have ends : NumberEnds (tail ++ ']' :: rest) :=
        following.numberEnds (Json.Bracket.array.numberEnds_closing rest)
      rw [List.append_assoc, List.append_assoc,
        readPositions_leads complete title size index _ _ leads begins]
      simp only [refused ends]
  | later spells _ ih =>
      obtain ⟨lead, tail, leads, following, rfl⟩ := Json.listed_cons_iff.mp listed
      have ends : NumberEnds (tail ++ ']' :: rest) :=
        following.numberEnds (Json.Bracket.array.numberEnds_closing rest)
      have listedAfter : Listed (decide (0 < index + 1)) _ tail := following
      rw [List.append_assoc, List.append_assoc,
        readPositions_leads complete title size index _ _ leads
          (begins_of_spellsField complete spells)]
      simp only [readField_spelled complete spells ends, ih listedAfter, Outcome.onValue]

/-! ### Keys before the place -/

/-- A slot that is spelled has one entry at most, and it spells a content. -/
theorem readable_of_spellsSlot {field : Field} {content : field.Carrier} {entries : List Entry}
    (spells : SpellsSlot inside field content entries) :
    entries.length ≤ 1 ∧
      ∀ entry ∈ entries.head?, ∃ content, SpellsField inside field content entry.value := by
  cases entries with
  | nil => exact ⟨Nat.zero_le 1, nofun⟩
  | cons entry others =>
      cases others with
      | nil =>
          refine ⟨Nat.le_refl 1, ?_⟩
          rintro _ ⟨⟩
          exact ⟨content, spellsSlot_singleton.mp spells⟩
      | cons other others =>
          cases field with
          | required key shape => exact spells.elim
          | optional key shape => exact spells.elim

theorem readable_of_spellsFields {fields : List Field} {row : Row fields} {entries : List Entry}
    (spells : SpellsFields inside fields row entries) :
    Once fields entries ∧ Readable inside fields entries := by
  induction fields with
  | nil => exact ⟨nofun, nofun⟩
  | cons field fields ih =>
      have slot := readable_of_spellsSlot spells.1
      have others := ih spells.2
      exact ⟨List.forall_mem_cons.mpr ⟨slot.1, others.1⟩,
        List.forall_mem_cons.mpr ⟨slot.2, others.2⟩⟩

theorem eq_nil_of_alone {key : String} {earlier later : List Entry} {entry : Entry}
    (alone : named key (earlier ++ entry :: later) = [entry]) :
    entry.key = key ∧ named key earlier = [] := by
  have isMember : entry ∈ named key (earlier ++ entry :: later) := by
    rw [alone]
    exact List.mem_singleton_self entry
  have isKey : entry.key = key := of_decide_eq_true (List.mem_filter.mp isMember).2
  refine ⟨isKey, ?_⟩
  rw [named_append, ← isKey, named_cons_self] at alone
  have sizes := congrArg List.length alone
  simp only [List.length_append, List.length_cons, List.length_nil] at sizes
  rw [← isKey]
  exact List.length_eq_zero_iff.mp (by omega)

section Fields

variable {width : Width} {field : Field} {plug : width.Carrier → field.Carrier}
  {fields : List Field} {rows : width.Carrier → Row fields} {entry : Entry}

theorem InFields.alone {entries : List Entry}
    (inFields : InFields width inside plug entries entry fields rows) :
    field ∈ fields ∧ named field.key entries = [entry] := by
  induction inFields with
  | first alone _ => exact ⟨List.mem_cons_self, alone⟩
  | later _ _ ih => exact ⟨List.mem_cons_of_mem _ ih.1, ih.2⟩

theorem InFields.once {entries : List Entry}
    (inFields : InFields width inside plug entries entry fields rows) : Once fields entries := by
  induction inFields with
  | first alone others =>
      refine List.forall_mem_cons.mpr ⟨?_, (readable_of_spellsFields others).1⟩
      rw [alone]
      exact Nat.le_refl 1
  | later spells _ ih => exact List.forall_mem_cons.mpr ⟨(readable_of_spellsSlot spells).1, ih⟩

/-- What comes before the place is readable, whatever stands in it. -/
theorem InFields.readable {earlier later : List Entry}
    (inFields : InFields width inside plug (earlier ++ entry :: later) entry fields rows) :
    Readable inside fields earlier := by
  induction inFields with
  | first alone others =>
      refine List.forall_mem_cons.mpr ⟨?_, (readable_of_spellsFields others).2.front⟩
      rw [(eq_nil_of_alone alone).2]
      exact nofun
  | @later other _ _ _ spells _ ih =>
      have whole : Readable inside [other] (earlier ++ entry :: later) :=
        List.forall_mem_singleton.mpr (readable_of_spellsSlot spells).2
      exact List.forall_mem_cons.mpr ⟨List.forall_mem_singleton.mp whole.front, ih⟩

theorem readEntry_hole (complete : Complete read inside)
    (distinct : (fields.map Field.key).Nodup) {slots : Slots fields} {earlier : List Entry}
    (filled : Filled fields slots earlier) (isField : field ∈ fields)
    (isKey : entry.key = field.key) (isFirst : named field.key earlier = [])
    (wellFormed : entry.WellFormed)
    (refused : RefusedFor problem (readField read field) entry.value) {rest : List Char}
    (ends : NumberEnds rest) :
    readEntry read entry.key fields slots
        (entry.before ++ ':' :: (entry.after ++ (entry.value ++ rest))) = .error problem := by
  induction fields with
  | nil => exact nomatch isField
  | cons first fields ih =>
      rw [List.map_cons, List.nodup_cons] at distinct
      rcases slots with ⟨slot, slots⟩
      rcases List.mem_cons.mp isField with rfl | isLater
      · have isOpen : slot = none := filled.1.mpr isFirst
        have colonRead := readColon_blank wellFormed.blankBefore
          (entry.after ++ (entry.value ++ rest))
        simp only [readEntry, isKey, if_true, isOpen, colonRead,
          readField_blank complete field wellFormed.blankAfter, refused ends, Outcome.onValue]
      · have differs : first.key ≠ entry.key := by
          intro same
          exact distinct.1 (same ▸ isKey ▸ List.mem_map_of_mem isLater)
        have laterRead := ih distinct.2 filled.2 isLater
        simp only [readEntry, differs, if_false, laterRead, Outcome.onValue]

theorem readEntries_hole (complete : Complete read inside)
    (distinct : (fields.map Field.key).Nodup) {entries : List Entry}
    (inFields : InFields width inside plug entries entry fields rows)
    (wellFormed : ∀ entry ∈ entries, entry.WellFormed)
    (unknown : ∀ entry ∈ entries, entry.key ∉ fields.map Field.key → Valid entry.value)
    (refused : RefusedFor problem (readField read field) entry.value) {between : List Char}
    (listed : Listed false (entries.map fun entry => entry.text) between) {rounds : List Char}
    (enough : entries.length < rounds.length) (rest : List Char) :
    readEntries read fields rounds false (Slots.empty fields) (between ++ '\x7d' :: rest) =
      .error problem := by
  -- Up to the place the object is read as it is spelled, and the slot of its field is then open.
  obtain ⟨isField, alone⟩ := inFields.alone
  have isMember : entry ∈ named field.key entries := by
    rw [alone]
    exact List.mem_singleton_self entry
  obtain ⟨earlier, later, rfl⟩ := List.append_of_mem (List.mem_of_mem_filter isMember)
  obtain ⟨isKey, isFirst⟩ := eq_nil_of_alone alone
  rw [List.forall_mem_append, List.forall_mem_cons] at wellFormed unknown
  rw [List.map_append, List.map_cons] at listed
  rw [List.length_append, List.length_cons] at enough
  obtain ⟨run, others, isRun, listedLater, rfl⟩ := listed.exists_run
  obtain ⟨lead, left, leads, following, rfl⟩ := Json.listed_cons_iff.mp listedLater
  have ends : NumberEnds (left ++ '\x7d' :: rest) :=
    following.numberEnds (Json.Bracket.object.numberEnds_closing rest)
  have enoughLeft : 0 < (rounds.drop earlier.length).length := by
    rw [List.length_drop]
    omega
  rw [List.isEmpty_map] at leads
  obtain ⟨slots, filled, earlierRead⟩ := readEntries_run complete distinct [] wellFormed.1
    unknown.1 inFields.once.front inFields.readable (filled_empty fields) isRun
    (by omega : _ ≤ rounds.length)
    fun nonempty => leads.numberEnds_after nonempty (entry.text ++ (left ++ '\x7d' :: rest))
  simp only [List.append_assoc]
  rw [earlierRead, readEntries_leads leads wellFormed.2.1 enoughLeft,
    readEntry_hole complete distinct filled isField isKey isFirst wellFormed.2.1 refused ends]

end Fields

/-! ### Texts with a place -/

theorem readForm_given {budget : Nat} {field : Field} {core : List Char} (starts : Starts core)
    (refused : RefusedFor problem (readForm budget (.value field.shape)) core) :
    RefusedFor problem (readField (readForm budget) field) core := by
  intro rest ends
  have formRead := refused ends
  cases field with
  | required key shape => exact formRead
  | optional key shape =>
      obtain ⟨⟨char, others, rfl, notBlank, _⟩, notNull⟩ := starts
      have differs : char ≠ 'n' := fun same => notNull (same ▸ rfl)
      rw [List.cons_append] at formRead ⊢
      simp only [Field.shape] at formRead
      simp only [readField, Json.skipBlanks_cons notBlank, List.cons.injEq, differs, false_and,
        imp_self, implies_true, formRead, Outcome.onValue]

theorem Stands.starts {width : Width} {hole core : List Char} {budget : Nat} {form : Form}
    {plug : width.Carrier → form.Carrier} (stands : Stands width hole budget form plug core)
    (starts : Starts hole) : Starts core := by
  induction stands with
  | here => exact starts
  | node _ _ ih => exact ih
  | _ => exact starts_cons rfl (by decide) (by decide) (by decide)

/-- What is refused in the place is what the whole text is refused for. -/
theorem Stands.refused {width : Width} {hole core : List Char} {budget : Nat} {form : Form}
    {plug : width.Carrier → form.Carrier} (stands : Stands width hole budget form plug core)
    (distinct : form.keys.Nodup) (starts : Starts hole)
    (refused : RefusedFor problem (readInteger width) hole) :
    RefusedFor problem (readForm budget form) core := by
  induction stands with
  | @here budget =>
      cases budget with
      | zero => exact refused
      | succ budget => exact refused
  | @item budget item plug core between before after textsBefore textsAfter stands earlier later
      separated ih =>
      intro rest _
      have complete := complete_readForm budget
      have listed : Listed false (textsBefore ++ core :: textsAfter) between := separated
      have begins := (stands.starts starts).1
      have enough : textsBefore.length < (between ++ ']' :: rest).length := by
        have bound := length_le_of_listed listed (List.forall_mem_append.mpr
          ⟨begins_of_forall₂ (fun spells => (complete.starts spells).1) earlier,
            List.forall_mem_cons.mpr ⟨begins,
              begins_of_forall₂ (fun spells => (complete.starts spells).1) later⟩⟩)
        simp only [List.length_append, List.length_cons] at bound ⊢
        omega
      have itemsRead := readItems_hole (complete.blanks (.value item))
        (fun spells => ⟨(complete.starts spells).1,
          complete.reads (.value item) List.nodup_nil spells⟩) earlier begins
        (ih List.nodup_nil) listed enough rest
      have notBlank : Json.isBlank '[' = false := by decide
      change readList (some (readForm budget)) item ('[' :: (between ++ [']']) ++ rest) = _
      simp only [readList, List.cons_append, List.append_assoc, List.nil_append,
        Json.skipBlanks_cons notBlank, itemsRead]
  | @array budget title fields field plug rows core between texts stands inRow separated ih =>
      intro rest _
      have listed : Listed (decide (0 < 0)) texts between := separated
      have starts := stands.starts starts
      change readRecord (some (readForm budget)) title fields
        ('[' :: (between ++ [']']) ++ rest) = _
      rw [readRecord_bracket]
      exact readPositions_hole (complete_readForm budget) title fields.length inRow starts.1
        (readForm_given starts (ih List.nodup_nil)) listed rest
  | @object budget title fields field plug rows entries entry between stands inFields wellFormed
      unknown separated ih =>
      intro rest _
      have listed : Listed false (entries.map fun entry => entry.text) between := separated
      change readRecord (some (readForm budget)) title fields
        ('\x7b' :: (between ++ ['\x7d']) ++ rest) = _
      rw [readRecord_brace]
      exact readEntries_hole (complete_readForm budget) distinct inFields wellFormed unknown
        (readForm_given (stands.starts starts) (ih List.nodup_nil)) listed
        (length_lt_of_listed wellFormed listed rest) rest
  | @node budget kind title fields make parts rows core isLayout _ ih =>
      intro rest ends
      have recordRead := ih (Kind.keys_distinct_of_record isLayout) ends
      cases budget with
      | zero =>
          change readNode none kind.layout _ = _
          change readRecord none title fields _ = _ at recordRead
          rw [isLayout]
          simp only [readNode, recordRead, Outcome.onValue]
      | succ budget =>
          change readNode (some (readForm budget)) kind.layout _ = _
          change readRecord (some (readForm budget)) title fields _ = _ at recordRead
          rw [isLayout]
          simp only [readNode, recordRead, Outcome.onValue]
  | @one budget kind _ _ form _ _ _ _ _ isLayout isCase wellFormed isTag _ separated ih =>
      intro rest _
      have keysDistinct : form.keys.Nodup :=
        Kind.keys_distinct_of_case isLayout isCase (List.mem_singleton_self form)
      exact readForm_entry isLayout isCase wellFormed isTag separated (.error problem)
        (fun {rest} ends => ih keysDistinct ends) rest
  | @several budget kind _ _ title fields _ _ _ _ _ isLayout isCase wellFormed isTag _ separated
      ih =>
      intro rest _
      have keysDistinct : (Form.record title fields).keys.Nodup :=
        Kind.keys_distinct_of_case isLayout isCase (List.mem_singleton_self _)
      exact readForm_entry isLayout isCase wellFormed isTag separated (.error problem)
        (fun {rest} ends => ih keysDistinct ends) rest

end Refused

end ScopeLint.Format
