import ScopeLint.Proofs.Format.Admission
import ScopeLint.Proofs.Format.Tokens

/-!
Whatever is read was spelled. From the front of a text a reader takes blanks and a spelling of
the value that it gives, and it leaves the rest untouched.
-/

set_option autoImplicit false

namespace ScopeLint.Format

open Json (Blank Separated Listed Leads SpellsString Valid skipBlanks)

/-- A reader of forms gives only values that the grammar has a spelling of at that place. -/
def Sound (read : (form : Form) → Reader form.Carrier) (inside : Grammar) : Prop :=
  ∀ (form : Form) (text rest : List Char) (content : form.Carrier), form.keys.Nodup →
    read form text = .ok (content, rest) → Taken (inside form content) text rest

/-- Where a reader goes inside a bracket, the grammar goes there too. -/
def Inner.Sound (inner : Inner) (inside? : Option Grammar) : Prop :=
  ∀ read, inner = some read → ∃ inside ∈ inside?, Format.Sound read inside

/-! ### Lists -/

theorem listed_of_readItems {α : Type} {item : Reader α} {spells : α → List Char → Prop}
    (ofItem : ∀ text rest value, item text = .ok (value, rest) → Taken (spells value) text rest)
    {rounds : List Char} {started : Bool} {taken values : List α} {text rest : List Char}
    (isRead : readItems item rounds started taken text = .ok (values, rest)) :
    ∃ others texts between, values = taken.reverse ++ others ∧
      List.Forall₂ spells others texts ∧ Listed started texts between ∧
      text = between ++ ']' :: rest := by
  induction rounds generalizing started taken text with
  | nil => cases isRead
  | cons _ rounds ih =>
      unfold readItems at isRead
      split at isRead
      next => cases isRead
      next char tail isFirst =>
          obtain ⟨blank, rfl, isBlank⟩ := Json.exists_blank_of_skipBlanks isFirst
          split at isRead
          next isEnd =>
              cases isRead
              refine ⟨[], [], blank, (List.append_nil _).symm, .nil,
                Json.listed_nil_iff.mpr isBlank, ?_⟩
              rw [isEnd]
          next =>
              split at isRead
              next => cases isRead
              next isComma =>
                  split at isRead
                  next => cases isRead
                  next value left itemRead =>
                      obtain ⟨before, core, blankBefore, spells, isText⟩ := ofItem _ _ _ itemRead
                      obtain ⟨lead, leads, isWhole⟩ :=
                        Json.exists_leads isBlank blankBefore isComma
                      obtain ⟨others, texts, between, rfl, spellOthers, listed, rfl⟩ := ih isRead
                      refine ⟨value :: others, core :: texts, lead ++ (core ++ between), ?_,
                        .cons spells spellOthers,
                        Json.listed_cons_iff.mpr ⟨lead, between, leads, listed, rfl⟩, ?_⟩
                      · rw [List.reverse_cons, List.append_assoc]
                        rfl
                      · rw [isWhole _ isText]
                        simp only [List.append_assoc]

/-! ### Records -/

section Records

variable {read : (form : Form) → Reader form.Carrier} {inside : Grammar}

theorem spelled_of_readField (sound : Sound read inside) {field : Field}
    {content : field.Carrier} {text rest : List Char}
    (isRead : readField read field text = .ok (content, rest)) :
    Taken (SpellsField inside field content) text rest := by
  cases field with
  | required key shape => exact sound (.value shape) text rest content List.nodup_nil isRead
  | optional key shape =>
      unfold readField at isRead
      simp only at isRead
      split at isRead
      next isFirst =>
          rcases word_of_readWord isRead with ⟨rfl, rfl⟩
          exact taken_of_skipBlanks isFirst rfl
      next =>
          obtain ⟨value, valueRead, rfl⟩ := Outcome.onValue_eq_ok isRead
          obtain ⟨before, core, blankBefore, spells, isText⟩ :=
            sound (.value shape) _ rest value List.nodup_nil valueRead
          obtain ⟨blank, isWhole, isBlank⟩ := Json.exists_blank text
          refine ⟨blank ++ before, core, List.forall_mem_append.mpr ⟨isBlank, blankBefore⟩,
            spells, ?_⟩
          rw [isWhole, isText, List.append_assoc]

/-- The entries that are still to be read when some slots are filled. -/
def SpellsOpen (inside : Grammar) :
    (fields : List Field) → Slots fields → Row fields → List Entry → Prop
  | [], (), (), _ => True
  | field :: fields, (none, slots), (content, row), entries =>
      SpellsSlot inside field content (named field.key entries) ∧
        SpellsOpen inside fields slots row entries
  | field :: fields, (some value, slots), (content, row), entries =>
      (value = content ∧ named field.key entries = []) ∧
        SpellsOpen inside fields slots row entries

theorem spellsOpen_empty_iff {fields : List Field} {row : Row fields} {entries : List Entry} :
    SpellsOpen inside fields (Slots.empty fields) row entries ↔
      SpellsFields inside fields row entries := by
  induction fields with
  | nil => exact Iff.rfl
  | cons field fields ih =>
      rcases row with ⟨content, row⟩
      exact and_congr_right fun _ => ih

theorem named_cons_self (entry : Entry) (entries : List Entry) :
    named entry.key (entry :: entries) = entry :: named entry.key entries :=
  List.filter_cons_of_pos (decide_eq_true rfl)

theorem named_cons_of_ne {key : String} {entry : Entry} (differs : entry.key ≠ key)
    (entries : List Entry) : named key (entry :: entries) = named key entries :=
  List.filter_cons_of_neg (by rwa [decide_eq_true_eq])

/-- An entry under another key leaves the slots of a record as they are. -/
theorem spellsOpen_cons_iff_of_notMem {fields : List Field} {slots : Slots fields}
    {row : Row fields} {entry : Entry} {entries : List Entry}
    (unknown : entry.key ∉ fields.map Field.key) :
    SpellsOpen inside fields slots row (entry :: entries) ↔
      SpellsOpen inside fields slots row entries := by
  induction fields with
  | nil => exact Iff.rfl
  | cons field fields ih =>
      rw [List.map_cons, List.mem_cons, not_or] at unknown
      rcases slots with ⟨slot, slots⟩
      rcases row with ⟨content, row⟩
      cases slot with
      | none => simp only [SpellsOpen, named_cons_of_ne unknown.1, ih unknown.2]
      | some value => simp only [SpellsOpen, named_cons_of_ne unknown.1, ih unknown.2]

theorem row_of_close {fields : List Field} {slots : Slots fields} {row : Row fields}
    (closed : slots.close = .ok row) : SpellsOpen inside fields slots row [] := by
  induction fields with
  | nil => trivial
  | cons field fields ih =>
      rcases slots with ⟨slot, slots⟩
      cases field with
      | required key shape =>
          cases slot with
          | none => exact nomatch closed
          | some content =>
              simp only [Slots.close] at closed
              cases tailClosed : Slots.close fields slots with
              | error problem => simp only [tailClosed, Except.map, reduceCtorEq] at closed
              | ok tail =>
                  rw [tailClosed] at closed
                  cases closed
                  exact ⟨⟨rfl, rfl⟩, ih tailClosed⟩
      | optional key shape =>
          simp only [Slots.close] at closed
          cases tailClosed : Slots.close fields slots with
          | error problem => simp only [tailClosed, Except.map, reduceCtorEq] at closed
          | ok tail =>
              rw [tailClosed] at closed
              cases closed
              cases slot with
              | none => exact ⟨rfl, ih tailClosed⟩
              | some content => exact ⟨⟨rfl, rfl⟩, ih tailClosed⟩

/-- What is read after a key is its colon and its value, and the slots grow by that value. -/
theorem spelled_of_readEntry (sound : Sound read inside) {key : String} {fields : List Field}
    (distinct : (fields.map Field.key).Nodup) {slots filled : Slots fields}
    {text rest : List Char} (isRead : readEntry read key fields slots text = .ok (filled, rest)) :
    ∃ before after value, Blank before ∧ Blank after ∧
      text = before ++ ':' :: (after ++ (value ++ rest)) ∧
      (key ∉ fields.map Field.key → Valid value) ∧
      ∀ (entry : Entry) (row : Row fields) (entries : List Entry), entry.key = key →
        entry.value = value → SpellsOpen inside fields filled row entries →
          SpellsOpen inside fields slots row (entry :: entries) := by
  induction fields with
  | nil =>
      unfold readEntry at isRead
      split at isRead
      next => cases isRead
      next colonRead =>
          split at isRead
          next => cases isRead
          next skipped =>
              cases isRead
              obtain ⟨before, blankBefore, rfl⟩ := blank_of_readColon colonRead
              obtain ⟨after, value, blankAfter, rfl, valid⟩ := Json.valid_of_skipValue? skipped
              exact ⟨before, after, value, blankBefore, blankAfter, rfl, fun _ => valid,
                fun _ _ _ _ _ _ => trivial⟩
  | cons field fields ih =>
      rw [List.map_cons, List.nodup_cons] at distinct
      rcases slots with ⟨slot, slots⟩
      unfold readEntry at isRead
      split at isRead
      next isKey =>
          split at isRead
          next => cases isRead
          next =>
              split at isRead
              next => cases isRead
              next colonRead =>
                  obtain ⟨content, contentRead, rfl⟩ := Outcome.onValue_eq_ok isRead
                  obtain ⟨before, blankBefore, rfl⟩ := blank_of_readColon colonRead
                  obtain ⟨after, value, blankAfter, spells, rfl⟩ :=
                    spelled_of_readField sound contentRead
                  refine ⟨before, after, value, blankBefore, blankAfter, rfl, fun unknown =>
                    absurd (List.mem_cons.mpr (.inl isKey.symm)) unknown, ?_⟩
                  rintro entry ⟨other, row⟩ entries rfl rfl ⟨⟨rfl, noMore⟩, others⟩
                  have unknown : entry.key ∉ fields.map Field.key := isKey ▸ distinct.1
                  refine ⟨?_, (spellsOpen_cons_iff_of_notMem unknown).mpr others⟩
                  rw [isKey] at noMore ⊢
                  rw [named_cons_self, noMore]
                  cases field with
                  | required => exact spells
                  | optional => exact spells
      next notKey =>
          obtain ⟨others, othersRead, rfl⟩ := Outcome.onValue_eq_ok isRead
          obtain ⟨before, after, value, blankBefore, blankAfter, isText, valid, opens⟩ :=
            ih distinct.2 othersRead
          refine ⟨before, after, value, blankBefore, blankAfter, isText, fun unknown =>
            valid fun isMember => unknown (List.mem_cons_of_mem _ isMember), ?_⟩
          rintro entry ⟨content, row⟩ entries rfl isValue opened
          have differs : entry.key ≠ field.key := fun same => notKey same.symm
          cases slot with
          | none =>
              refine ⟨?_, opens entry row entries rfl isValue opened.2⟩
              rw [named_cons_of_ne differs]
              exact opened.1
          | some content =>
              refine ⟨?_, opens entry row entries rfl isValue opened.2⟩
              rw [named_cons_of_ne differs]
              exact opened.1

theorem listed_of_readEntries (sound : Sound read inside) {fields : List Field}
    (distinct : (fields.map Field.key).Nodup) {rounds : List Char} {started : Bool}
    {slots : Slots fields} {text rest : List Char} {row : Row fields}
    (isRead : readEntries read fields rounds started slots text = .ok (row, rest)) :
    ∃ entries between, (∀ entry ∈ entries, entry.WellFormed) ∧
      SpellsOpen inside fields slots row entries ∧
      (∀ entry ∈ entries, entry.key ∉ fields.map Field.key → Valid entry.value) ∧
      Listed started (entries.map fun entry => entry.text) between ∧
      text = between ++ '\x7d' :: rest := by
  induction rounds generalizing started slots text with
  | nil => cases isRead
  | cons _ rounds ih =>
      unfold readEntries at isRead
      split at isRead
      next => cases isRead
      next char tail isFirst =>
          obtain ⟨blank, rfl, isBlank⟩ := Json.exists_blank_of_skipBlanks isFirst
          split at isRead
          next isEnd =>
              split at isRead
              next => cases isRead
              next closed =>
                  cases isRead
                  refine ⟨[], blank, List.forall_mem_nil _, row_of_close closed,
                    List.forall_mem_nil _, Json.listed_nil_iff.mpr isBlank, ?_⟩
                  rw [isEnd]
          next =>
              split at isRead
              next => cases isRead
              next isComma =>
                  split at isRead
                  next => cases isRead
                  next key left keyRead =>
                      split at isRead
                      next => cases isRead
                      next filled left entryRead =>
                          obtain ⟨before, quoted, blankBefore, spellsKey, isText⟩ :=
                            spelled_of_readKey keyRead
                          obtain ⟨lead, leads, isWhole⟩ :=
                            Json.exists_leads isBlank blankBefore isComma
                          obtain ⟨gap, pad, value, blankGap, blankPad, rfl, valid, opens⟩ :=
                            spelled_of_readEntry sound distinct entryRead
                          obtain ⟨entries, between, wellFormed, opened, unknown, listed, rfl⟩ :=
                            ih isRead
                          let entry : Entry := ⟨⟨quoted, gap, pad, value⟩, key⟩
                          refine ⟨entry :: entries, lead ++ (entry.text ++ between), ?_,
                            opens entry row entries rfl rfl opened, ?_,
                            Json.listed_cons_iff.mpr ⟨lead, between, leads, listed, rfl⟩, ?_⟩
                          · rw [List.forall_mem_cons]
                            exact ⟨⟨spellsKey, blankGap, blankPad⟩, wellFormed⟩
                          · rw [List.forall_mem_cons]
                            exact ⟨valid, unknown⟩
                          · rw [isWhole _ isText]
                            simp only [entry, Json.Member.text, List.append_assoc,
                              List.cons_append]

theorem listed_of_readPositions (sound : Sound read inside) {title : String} {size index : Nat}
    {fields : List Field} {text rest : List Char} {row : Row fields}
    (isRead : readPositions read title size index fields text = .ok (row, rest)) :
    ∃ texts between, SpellsRow inside fields row texts ∧
      Listed (decide (0 < index)) texts between ∧ text = between ++ ']' :: rest := by
  induction fields generalizing index text with
  | nil =>
      unfold readPositions at isRead
      split at isRead
      next isEnd =>
          cases isRead
          obtain ⟨blank, rfl, isBlank⟩ := Json.exists_blank_of_skipBlanks isEnd
          exact ⟨[], blank, rfl, Json.listed_nil_iff.mpr isBlank, rfl⟩
      next => cases isRead
  | cons field fields ih =>
      unfold readPositions at isRead
      split at isRead
      next => cases isRead
      next char tail isFirst =>
          obtain ⟨blank, rfl, isBlank⟩ := Json.exists_blank_of_skipBlanks isFirst
          split at isRead
          next => cases isRead
          next =>
              split at isRead
              next => cases isRead
              next isComma =>
                  split at isRead
                  next => cases isRead
                  next content left fieldRead =>
                      obtain ⟨row, rowRead, rfl⟩ := Outcome.onValue_eq_ok isRead
                      obtain ⟨before, core, blankBefore, spells, isText⟩ :=
                        spelled_of_readField sound fieldRead
                      have isComma : ¬(decide (0 < index) = true ∧ char ≠ ',') := by
                        rwa [decide_eq_true_eq]
                      have isText : (if decide (0 < index) = true then tail else char :: tail) =
                          before ++ (core ++ left) := by
                        rw [← isText]
                        cases index with
                        | zero => rfl
                        | succ index => rfl
                      obtain ⟨lead, leads, isWhole⟩ :=
                        Json.exists_leads isBlank blankBefore isComma
                      obtain ⟨texts, between, spellsRow, listed, rfl⟩ := ih rowRead
                      refine ⟨core :: texts, lead ++ (core ++ between), ⟨spells, spellsRow⟩,
                        Json.listed_cons_iff.mpr ⟨lead, between, leads, listed, rfl⟩, ?_⟩
                      rw [isWhole _ isText]
                      simp only [List.append_assoc]

end Records

/-! ### Forms -/

section Nodes

variable {inner : Inner} {inside? : Option Grammar}

theorem spelled_of_readRecord (sound : inner.Sound inside?) {title : String}
    {fields : List Field} (distinct : (fields.map Field.key).Nodup) {text rest : List Char}
    {row : Row fields} (isRead : readRecord inner title fields text = .ok (row, rest)) :
    Taken (SpellsRecord inside? fields row) text rest := by
  unfold readRecord at isRead
  split at isRead
  next isBrace =>
      split at isRead
      next => exact nomatch isRead
      next read =>
          obtain ⟨inside, isInside, readSound⟩ := sound read rfl
          obtain ⟨entries, between, wellFormed, opened, unknown, listed, rfl⟩ :=
            listed_of_readEntries readSound distinct isRead
          have isObject : SpellsObject inside fields row ('\x7b' :: (between ++ ['\x7d'])) :=
            ⟨entries, between, wellFormed, spellsOpen_empty_iff.mp opened, unknown, listed, rfl⟩
          refine taken_of_skipBlanks (isBrace.trans ?_) ⟨inside, isInside, .inl isObject⟩
          simp only [List.cons_append, List.append_assoc, List.nil_append]
  next isBracket =>
      split at isRead
      next => exact nomatch isRead
      next read =>
          obtain ⟨inside, isInside, readSound⟩ := sound read rfl
          obtain ⟨texts, between, spellsRow, listed, rfl⟩ :=
            listed_of_readPositions readSound isRead
          have isArray : SpellsArray inside fields row ('[' :: (between ++ [']'])) :=
            ⟨texts, between, spellsRow, listed, rfl⟩
          refine taken_of_skipBlanks (isBracket.trans ?_) ⟨inside, isInside, .inr isArray⟩
          simp only [List.cons_append, List.append_assoc, List.nil_append]
  next => exact absurd isRead (mismatch_ne_ok _ _ _)

theorem spelled_of_readPayload {read : (form : Form) → Reader form.Carrier} {inside : Grammar}
    (sound : Sound read inside) {payload : Payload} (distinct : payload.keys.Nodup)
    {data : payload.Carrier} {text rest : List Char}
    (isRead : readPayload read payload text = .ok (data, rest)) :
    Taken (SpellsPayload inside payload data) text rest := by
  cases payload with
  | nothing => exact spelled_of_readNull isRead
  | one form => exact sound form text rest data distinct isRead
  | several title fields => exact sound (.record title fields) text rest data distinct isRead

theorem findCase_eq_some {α : Type} {tag : String} {cases : List (Case α)} {case : Case α}
    (found : findCase tag cases = some case) : case ∈ cases ∧ case.tag = tag :=
  ⟨mem_of_findCase found, by simpa using List.find?_some found⟩

theorem spelled_of_readTagged {α : Type} {read : (form : Form) → Reader form.Carrier}
    {inside : Grammar} (sound : Sound read inside) {cases : List (Case α)}
    (distinct : ∀ case ∈ cases, case.payload.keys.Nodup) {text rest : List Char} {node : α}
    (isRead : readTagged read cases text = .ok (node, rest)) :
    ∃ case ∈ cases, ∃ core, SpellsTagged inside case node core ∧ '\x7b' :: text = core ++ rest := by
  unfold readTagged at isRead
  split at isRead
  next => cases isRead
  next tag afterKey keyRead =>
      split at isRead
      next => cases isRead
      next case found =>
          split at isRead
          next => cases isRead
          next colonRead =>
              split at isRead
              next => cases isRead
              next data afterPayload payloadRead =>
                  split at isRead
                  next isBrace =>
                      cases isRead
                      rcases findCase_eq_some found with ⟨isCase, isTag⟩
                      obtain ⟨lead, quoted, blankLead, spellsKey, rfl⟩ :=
                        spelled_of_readText keyRead
                      obtain ⟨before, blankBefore, rfl⟩ := blank_of_readColon colonRead
                      obtain ⟨after, value, blankAfter, spells, rfl⟩ :=
                        spelled_of_readPayload sound (distinct case isCase) payloadRead
                      obtain ⟨blank, rfl, isBlank⟩ := Json.exists_blank_of_skipBlanks isBrace
                      let entry : Entry := ⟨⟨quoted, before, after, value⟩, tag⟩
                      have separated : Separated [entry.text] (lead ++ (entry.text ++ blank)) :=
                        .cons blankLead (.nil isBlank)
                      refine ⟨case, isCase, _, ⟨data, entry, _, rfl,
                        ⟨spellsKey, blankBefore, blankAfter⟩, isTag.symm, spells, separated,
                        rfl⟩, ?_⟩
                      simp only [entry, Json.Member.text, List.append_assoc, List.cons_append,
                        List.nil_append]
                  next => cases isRead

theorem spelled_of_readChoice {α : Type} (sound : inner.Sound inside?) {cases : List (Case α)}
    (distinct : ∀ case ∈ cases, case.payload.keys.Nodup) {text rest : List Char} {node : α}
    (isRead : readChoice inner cases text = .ok (node, rest)) :
    Taken (SpellsChoice inside? cases node) text rest := by
  unfold readChoice at isRead
  split at isRead
  next isQuote =>
      split at isRead
      next => exact nomatch isRead
      next tag left scanned =>
          split at isRead
          next => exact nomatch isRead
          next case found =>
              obtain ⟨core, spells, isText⟩ := Json.scanString?_eq_some_iff.mp scanned
              rcases findCase_eq_some found with ⟨isCase, rfl⟩
              have bare : left = rest ∧ SpellsBare case node core := by
                rcases case with ⟨tag, payload, make, part⟩
                cases payload with
                | nothing =>
                    cases isRead
                    exact ⟨rfl, rfl, ⟨(), rfl⟩, spells⟩
                | one form => exact nomatch isRead
                | several title fields => exact nomatch isRead
              rw [bare.1] at isText
              exact taken_of_skipBlanks (isQuote.trans isText) ⟨case, isCase, .inl bare.2⟩
  next isBrace =>
      split at isRead
      next => exact nomatch isRead
      next read =>
          obtain ⟨inside, isInside, readSound⟩ := sound read rfl
          obtain ⟨case, isCase, core, spells, isText⟩ :=
            spelled_of_readTagged readSound distinct isRead
          exact taken_of_skipBlanks (isBrace.trans isText)
            ⟨case, isCase, .inr ⟨inside, isInside, spells⟩⟩
  next => exact nomatch isRead

theorem spelled_of_readNode {α : Type} {write : α → Json} {layout : Layout α}
    (agrees : layout.Agrees write) (sound : inner.Sound inside?) {text rest : List Char}
    {node : α} (isRead : readNode inner layout text = .ok (node, rest)) :
    Taken (SpellsNode inside? layout node) text rest := by
  cases agrees with
  | record title fields make parts keysDistinct _ _ =>
      obtain ⟨row, rowRead, rfl⟩ := Outcome.onValue_eq_ok isRead
      exact (spelled_of_readRecord sound keysDistinct rowRead).imp fun core spells =>
        ⟨row, rfl, spells⟩
  | choice cases _ keysDistinct _ _ _ => exact spelled_of_readChoice sound keysDistinct isRead

theorem spelled_of_readList (sound : inner.Sound inside?) {item : Shape} {text rest : List Char}
    {contents : List item.Carrier}
    (isRead : readList inner item text = .ok (contents, rest)) :
    Taken (SpellsList inside? item contents) text rest := by
  unfold readList at isRead
  split at isRead
  next isBracket =>
      split at isRead
      next => exact nomatch isRead
      next read =>
          obtain ⟨inside, isInside, readSound⟩ := sound read rfl
          obtain ⟨others, texts, between, rfl, spells, listed, rfl⟩ := listed_of_readItems
            (fun text rest content => readSound (.value item) text rest content List.nodup_nil)
            isRead
          have isList : SpellsList inside? item contents ('[' :: (between ++ [']'])) :=
            ⟨inside, isInside, texts, between, spells, listed, rfl⟩
          refine taken_of_skipBlanks (isBracket.trans ?_) isList
          simp only [List.cons_append, List.append_assoc, List.nil_append]
  next => exact absurd isRead (mismatch_ne_ok _ _ _)

theorem sound_readWith (sound : inner.Sound inside?) :
    Sound (readWith inner) (SpellsWith inside?) := by
  intro form text rest content keysDistinct isRead
  cases form with
  | record title fields => exact spelled_of_readRecord sound keysDistinct isRead
  | value shape =>
      cases shape with
      | text => exact spelled_of_readText isRead
      | character => exact spelled_of_readCharacter isRead
      | truth => exact spelled_of_readTruth isRead
      | integer width => exact spelled_of_readInteger isRead
      | real => exact spelled_of_readReal isRead
      | list item => exact spelled_of_readList sound isRead
      | node kind => exact spelled_of_readNode kind.layout_agrees sound isRead

end Nodes

theorem sound_readForm (budget : Nat) : Sound (readForm budget) (Spells budget) := by
  induction budget with
  | zero => exact sound_readWith fun _ impossible => nomatch impossible
  | succ budget ih =>
      refine sound_readWith fun read same => ⟨Spells budget, rfl, ?_⟩
      rw [← Option.some.inj same]
      exact ih

end ScopeLint.Format
