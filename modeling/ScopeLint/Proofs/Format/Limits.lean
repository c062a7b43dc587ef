import ScopeLint.Proofs.Format.Reals
import ScopeLint.Proofs.Json.Nesting

/-!
Where reading back what is written comes to an end. A written value is refused only for its
brackets, when too many of them are open at once, or for a real that is no number, which is
written as null; and the reader tells the one from the other.
-/

set_option autoImplicit false

namespace ScopeLint.Format

/-! ### What stands in one place of the file -/

def Payload.forms : Payload → List Form
  | .nothing => []
  | .one form => [form]
  | .several title fields => [.record title fields]

def Layout.forms {α : Type} : Layout α → List Form
  | .record title fields _ _ => [.record title fields]
  | .choice cases => cases.flatMap fun entry => entry.payload.forms

/-- The forms that the layout of a kind is made of, with the kind itself. -/
def Kind.forms (kind : Kind) : List Form :=
  .value (.node kind) :: kind.layout.forms

def Form.fields : Form → List Field
  | .value _ => []
  | .record _ fields => fields

/-- Null can stand only for the absence of a field: a real that is left out looks like one that
is no number. -/
def Field.NullIsAbsence : Field → Prop
  | .required _ _ => True
  | .optional _ shape => shape ≠ .real

instance Field.decidableNullIsAbsence (field : Field) : Decidable field.NullIsAbsence :=
  match field with
  | .required _ _ => isTrue trivial
  | .optional _ shape => inferInstanceAs (Decidable (shape ≠ .real))

structure Form.Clear (form : Form) : Prop where
  distinct : form.keys.Nodup
  nullIsAbsence : ∀ field ∈ form.fields, field.NullIsAbsence

instance Form.decidableClear (form : Form) : Decidable form.Clear :=
  decidable_of_iff (form.keys.Nodup ∧ ∀ field ∈ form.fields, field.NullIsAbsence)
    ⟨fun both => ⟨both.1, both.2⟩, fun clear => ⟨clear.distinct, clear.nullIsAbsence⟩⟩

theorem Form.clear_value (shape : Shape) : (Form.value shape).Clear :=
  ⟨List.nodup_nil, nofun⟩

theorem Kind.clear_of_mem_forms {kind : Kind} {form : Form} (isForm : form ∈ kind.forms) :
    form.Clear := by
  have clear : ∀ form ∈ kind.forms, form.Clear := by
    cases kind <;> decide
  exact clear form isForm

/-! ### Why a value is refused -/

/-- What is said of a real that is no number: it was written as null. -/
def notANumber : DataProblem :=
  .invalidType .null "f64"

/-- A written value is refused for its brackets where its reals are finite, and for a real where
its brackets stay within the budget. -/
structure Blames (budget : Nat) (json : Json) (problem : ReadError) : Prop where
  ofFinite : (∀ value ∈ json.reals, value.isFinite = true) → problem = .malformed
  ofShallow : json.depth ≤ budget → problem = .data notANumber

theorem Blames.array {budget : Nat} {items : List Json} {item : Json} {problem : ReadError}
    (blames : Blames budget item problem) (isItem : item ∈ items) :
    Blames (budget + 1) (.array items) problem where
  ofFinite finite := blames.ofFinite fun value isReal =>
    finite value (Json.mem_itemsReals.mpr ⟨item, isItem, isReal⟩)
  ofShallow shallow :=
    blames.ofShallow (Json.itemsDepth_le_iff.mp (Nat.le_of_succ_le_succ shallow) item isItem)

theorem Blames.object {budget : Nat} {members : List (String × Json)} {member : String × Json}
    {problem : ReadError} (blames : Blames budget member.2 problem) (isMember : member ∈ members) :
    Blames (budget + 1) (.object members) problem where
  ofFinite finite := blames.ofFinite fun value isReal =>
    finite value (Json.mem_membersReals.mpr ⟨member, isMember, isReal⟩)
  ofShallow shallow :=
    blames.ofShallow (Json.membersDepth_le_iff.mp (Nat.le_of_succ_le_succ shallow) member isMember)

/-- The finite reals of a written value are read back from their digits. -/
def RealsReadBack (json : Json) : Prop :=
  ∀ value ∈ json.reals, value.isFinite = true → RealReadsBack value

theorem RealsReadBack.item {items : List Json} (readBack : RealsReadBack (.array items))
    {item : Json} (isItem : item ∈ items) : RealsReadBack item :=
  fun value isReal => readBack value (Json.mem_itemsReals.mpr ⟨item, isItem, isReal⟩)

theorem RealsReadBack.member {members : List (String × Json)}
    (readBack : RealsReadBack (.object members)) {member : String × Json}
    (isMember : member ∈ members) : RealsReadBack member.2 :=
  fun value isReal => readBack value (Json.mem_membersReals.mpr ⟨member, isMember, isReal⟩)

/-- Where no bracket may be opened, a value with brackets is refused for them. -/
theorem blames_of_depth_pos {json : Json} (deep : 0 < json.depth) : Blames 0 json .malformed where
  ofFinite _ := rfl
  ofShallow shallow := absurd shallow (Nat.not_le.mpr deep)

theorem exists_unfit_item {budget : Nat} {items : List Json}
    (unfit : ¬(Json.array items).Fits RealReadsBack (budget + 1)) :
    ∃ item ∈ items, ¬item.Fits RealReadsBack budget := by
  by_contra allFit
  push Not at allFit
  exact unfit (Json.fits_array_iff.mpr ⟨budget, rfl, allFit⟩)

theorem exists_unfit_member {budget : Nat} {members : List (String × Json)}
    (unfit : ¬(Json.object members).Fits RealReadsBack (budget + 1)) :
    ∃ member ∈ members, ¬member.2.Fits RealReadsBack budget := by
  by_contra allFit
  push Not at allFit
  exact unfit (Json.fits_object_iff.mpr ⟨budget, rfl, allFit⟩)

/-- A reader refuses a value that a writer writes, whatever comes after it. -/
def Refuses {α : Type} (budget : Nat) (item : Reader α) (write : α → Json) (value : α) : Prop :=
  ∃ problem, Blames budget (write value) problem ∧
    ∀ rest, item ((write value).chars ++ rest) = .error problem

/-- A reader of forms refuses everything that is not written within a budget, but for reals that
are not read back. -/
def Stops (read : (form : Form) → Reader form.Carrier) (budget : Nat) : Prop :=
  ∀ (form : Form) (content : form.Carrier), form.Clear → RealsReadBack (form.toJson content) →
    ¬(form.toJson content).Fits RealReadsBack budget →
    Refuses budget (read form) form.toJson content

/-- A bracket may be opened as long as the budget lasts; what is inside it is then either given
back or refused. -/
inductive Inner.Bounded : Inner → Nat → Prop where
  | closed : Bounded none 0
  | opened {read : (form : Form) → Reader form.Carrier} {budget : Nat}
      (recovers : Format.Recovers read budget) (stops : Stops read budget) :
      Bounded (some read) (budget + 1)

/-! ### Lists -/

section Lists

variable {α : Type} {item : Reader α} {write : α → Json} {budget : Nat}

/-- The first item that is not given back decides the error of the list. -/
theorem readItems_refused {value : α} {values : List α}
    (gives : ∀ other ∈ value :: values,
      (write other).Fits RealReadsBack budget → Gives item write other)
    (refuses : ∀ other ∈ value :: values, ¬(write other).Fits RealReadsBack budget →
      Refuses budget item write other)
    (unfit : ∃ other ∈ value :: values, ¬(write other).Fits RealReadsBack budget) :
    ∃ problem, (∃ other ∈ value :: values, Blames budget (write other) problem) ∧
      ∀ (started : Bool) (taken : List α) (rounds rest : List Char),
        values.length < rounds.length →
        readItems item rounds started taken
            (lead started ++
              ((write value).chars ++ (Json.itemsChars (values.map write) ++ rest))) =
          .error problem := by
  -- An item that fits is given back, and the others are a list of their own after a comma; that
  -- is why the comma, what is taken and the rounds are left open.
  by_cases fits : (write value).Fits RealReadsBack budget
  · have unfitLater : ∃ other ∈ values, ¬(write other).Fits RealReadsBack budget :=
      ((List.exists_mem_cons_iff _ _ _).mp unfit).resolve_left fun unfitHere => unfitHere fits
    cases values with
    | nil => exact absurd unfitLater (by simp)
    | cons next values =>
        have valueGiven := gives value List.mem_cons_self fits
        rw [List.forall_mem_cons] at gives refuses
        obtain ⟨problem, ⟨other, isOther, blames⟩, othersRead⟩ :=
          readItems_refused gives.2 refuses.2 unfitLater
        refine ⟨problem, ⟨other, List.mem_cons_of_mem _ isOther, blames⟩, ?_⟩
        intro started taken rounds rest enough
        cases rounds with
        | nil => exact absurd enough (Nat.not_lt_zero _)
        | cons round rounds =>
            have ends := numberEnds_itemsChars ((next :: values).map write) rest
            rw [(readItems_lead started rfl taken value _).2 _ _ (valueGiven _ ends),
              List.map_cons, itemsChars_cons]
            exact othersRead true _ rounds rest (Nat.lt_of_succ_lt_succ enough)
  · obtain ⟨problem, blames, valueRead⟩ := refuses value List.mem_cons_self fits
    refine ⟨problem, ⟨value, List.mem_cons_self, blames⟩, ?_⟩
    intro started taken rounds rest enough
    cases rounds with
    | nil => exact absurd enough (Nat.not_lt_zero _)
    | cons round rounds =>
        exact (readItems_lead started rfl taken value _).1 problem (valueRead _)
termination_by structural values

end Lists

/-! ### Records -/

theorem refuses_readField {read : (form : Form) → Reader form.Carrier} {budget : Nat}
    (stops : Stops read budget) {field : Field} (nullIsAbsence : field.NullIsAbsence)
    (content : field.Carrier) (readBack : RealsReadBack (field.toJson content))
    (unfit : ¬(field.toJson content).Fits RealReadsBack budget) :
    Refuses budget (readField read field) field.toJson content := by
  cases field with
  | required key shape =>
      exact stops (.value shape) content (Form.clear_value shape) readBack unfit
  | optional key shape =>
      cases content with
      | none => exact absurd (Json.fits_null budget) unfit
      | some content =>
          obtain ⟨problem, blames, contentRead⟩ :=
            stops (.value shape) content (Form.clear_value shape) readBack unfit
          refine ⟨problem, blames, fun rest => ?_⟩
          have notNull := Shape.showsNull_toJson nullIsAbsence content
          have shapeRead := contentRead rest
          change read (.value shape) ((shape.toJson content).chars ++ rest) = _ at shapeRead
          change readField read (.optional key shape) ((shape.toJson content).chars ++ rest) = _
          rw [readField_some key notNull, shapeRead]
          rfl

theorem Row.Holds.mem {fields : List Field} {row : Row fields} {field : Field}
    {content : field.Carrier} (holds : Row.Holds fields row field content) : field ∈ fields := by
  induction holds with
  | first content row => exact List.mem_cons_self
  | later value holds ih => exact List.mem_cons_of_mem _ ih

section Records

variable {read : (form : Form) → Reader form.Carrier} {budget : Nat}

/-- The first entry that is not given back decides the error of the record. -/
theorem readEntries_refused (recovers : Recovers read budget) (stops : Stops read budget)
    {fields : List Field} (distinct : (fields.map Field.key).Nodup)
    (nullIsAbsence : ∀ field ∈ fields, field.NullIsAbsence) {row : Row fields}
    {keys : List String} {key : String} {json : Json} {entries : List (String × Json)}
    (pending : Pending keys ((key, json) :: entries) fields row)
    (readBack : ∀ entry ∈ (key, json) :: entries, RealsReadBack entry.2)
    (unfit : ∃ entry ∈ (key, json) :: entries, ¬entry.2.Fits RealReadsBack budget) :
    ∃ problem, (∃ entry ∈ (key, json) :: entries, Blames budget entry.2 problem) ∧
      ∀ (started : Bool) (rounds rest : List Char), entries.length < rounds.length →
        readEntries read fields rounds started (Slots.taken keys fields row)
            (lead started ++ (Json.stringChars key ++
              ':' :: (json.chars ++ (Json.membersChars entries ++ rest)))) =
          .error problem := by
  obtain ⟨field, content, place, holds, rfl, placed, entryRead⟩ :=
    readEntry_colon read distinct (pending.known _ List.mem_cons_self)
      (pending.fresh _ List.mem_cons_self)
  by_cases fits : (field.toJson content).Fits RealReadsBack budget
  · have unfitLater : ∃ entry ∈ entries, ¬entry.2.Fits RealReadsBack budget :=
      ((List.exists_mem_cons_iff _ _ _).mp unfit).resolve_left fun unfitHere => unfitHere fits
    cases entries with
    | nil => exact absurd unfitLater (by simp)
    | cons next entries =>
        have fieldGiven := gives_readField recovers field content fits
        obtain ⟨problem, ⟨entry, isEntry, blames⟩, othersRead⟩ :=
          readEntries_refused recovers stops distinct nullIsAbsence pending.tail
            (List.forall_mem_cons.mp readBack).2 unfitLater
        refine ⟨problem, ⟨entry, List.mem_cons_of_mem _ isEntry, blames⟩, ?_⟩
        intro started rounds rest enough
        cases rounds with
        | nil => exact absurd enough (Nat.not_lt_zero _)
        | cons round rounds =>
            have ends := numberEnds_membersChars (next :: entries) rest
            have valueRead := entryRead
              ((field.toJson content).chars ++ (Json.membersChars (next :: entries) ++ rest))
            rw [fieldGiven _ ends, Outcome.onValue, placed] at valueRead
            rw [(readEntries_lead fields started rfl _ key _).2 _ _ valueRead, membersChars_cons]
            exact othersRead true rounds rest (Nat.lt_of_succ_lt_succ enough)
  · obtain ⟨problem, blames, fieldRead⟩ :=
      refuses_readField stops (nullIsAbsence field holds.mem) content
        (readBack _ List.mem_cons_self) fits
    refine ⟨problem, ⟨_, List.mem_cons_self, blames⟩, ?_⟩
    intro started rounds rest enough
    cases rounds with
    | nil => exact absurd enough (Nat.not_lt_zero _)
    | cons round rounds =>
        refine (readEntries_lead fields started rfl _ key _).1 problem ?_
        rw [entryRead, fieldRead, Outcome.onValue]
termination_by structural entries

end Records

/-! ### Forms -/

theorem chars_array (items : List Json) : ∃ tail, (Json.array items).chars = '[' :: tail := by
  cases items with
  | nil => exact ⟨_, rfl⟩
  | cons item items => exact ⟨_, rfl⟩

theorem chars_object (members : List (String × Json)) :
    ∃ tail, (Json.object members).chars = '\x7b' :: tail := by
  cases members with
  | nil => exact ⟨_, rfl⟩
  | cons member members => exact ⟨_, rfl⟩

theorem refuses_readReal {value : Binary64} (notFinite : ¬value.isFinite = true) (budget : Nat) :
    Refuses budget readReal Json.real value := by
  refine ⟨.data notANumber, ⟨fun finite => absurd (finite value ?_) notFinite, fun _ => rfl⟩,
    fun rest => ?_⟩
  · exact List.mem_singleton_self value
  · rw [Json.chars, Json.realChars, if_neg notFinite]
    rfl

section Nodes

variable {inner : Inner} {budget : Nat}

theorem refuses_readRecord (bounded : inner.Bounded budget) {title : String}
    {fields : List Field} (clear : (Form.record title fields).Clear) (row : Row fields)
    (readBack : RealsReadBack (.object (Row.members fields row)))
    (unfit : ¬(Json.object (Row.members fields row)).Fits RealReadsBack budget) :
    Refuses budget (readRecord inner title fields) (fun row => .object (Row.members fields row))
      row := by
  cases bounded with
  | closed =>
      refine ⟨.malformed, blames_of_depth_pos (Nat.succ_pos _), fun rest => ?_⟩
      obtain ⟨tail, written⟩ := chars_object (Row.members fields row)
      simp (disch := decide) only [written, List.cons_append, readRecord, Json.skipBlanks_cons]
      rfl
  | @opened read inside recovers stops =>
      -- The members are written in the order of the fields, so all of them are pending at first.
      have pending := Pending.all row clear.distinct
      have unfitMember := exists_unfit_member unfit
      have memberReadsBack : ∀ entry ∈ Row.members fields row, RealsReadBack entry.2 :=
        fun _ isEntry => readBack.member isEntry
      cases written : Row.members fields row with
      | nil =>
          rw [written] at unfitMember
          exact absurd unfitMember (by simp)
      | cons entry entries =>
          rw [written] at pending memberReadsBack unfitMember
          rcases entry with ⟨key, json⟩
          obtain ⟨problem, ⟨entry, isEntry, blames⟩, entriesRead⟩ := readEntries_refused recovers
            stops clear.distinct clear.nullIsAbsence pending memberReadsBack unfitMember
          refine ⟨problem, ?_, fun rest => ?_⟩
          · simp only [written]
            exact blames.object isEntry
          · have tailRead := entriesRead false
              (Json.stringChars key ++ ':' :: (json.chars ++ (Json.membersChars entries ++ rest)))
              rest
            have enough := length_lt_membersChars entries
            rw [Slots.taken_nil, lead, if_neg Bool.false_ne_true, List.nil_append] at tailRead
            simp (disch := decide) only [written, Json.chars, List.cons_append, List.append_assoc,
              readRecord, Json.skipBlanks_cons]
            refine tailRead ?_
            simp only [List.length_append, List.length_cons]
            omega

/-- The data of a case is refused within the bracket that the tag of the case stands in. -/
theorem refuses_tagged {α : Type} {write : α → Json} {cases : List (Case α)} {entry : Case α}
    (bounded : inner.Bounded budget) (distinct : (cases.map Case.tag).Nodup)
    (isEntry : entry ∈ cases) {data : entry.payload.Carrier} {payload : Json}
    (written : write (entry.make data) = Json.tagged entry.tag payload)
    (payloadRefused : ∀ {read : (form : Form) → Reader form.Carrier} {inside : Nat},
      Stops read inside → RealsReadBack payload → ¬payload.Fits RealReadsBack inside →
        ∃ problem, Blames inside payload problem ∧
          ∀ rest, readPayload read entry.payload (payload.chars ++ rest) = .error problem)
    (readBack : RealsReadBack (write (entry.make data)))
    (unfit : ¬(write (entry.make data)).Fits RealReadsBack budget) :
    Refuses budget (readChoice inner cases) write (entry.make data) := by
  rw [Refuses, written]
  rw [written] at readBack unfit
  cases bounded with
  | closed =>
      refine ⟨.malformed, blames_of_depth_pos (Nat.succ_pos _), fun rest => ?_⟩
      simp (disch := decide) only [Json.tagged, Json.chars, List.cons_append, readChoice,
        Json.skipBlanks_cons]
      rfl
  | @opened read inside recovers stops =>
      obtain ⟨member, isMember, unfitPayload⟩ := exists_unfit_member unfit
      rw [List.mem_singleton.mp isMember] at unfitPayload
      obtain ⟨problem, blames, payloadRead⟩ :=
        payloadRefused stops (readBack.member (List.mem_singleton_self _)) unfitPayload
      refine ⟨problem, Blames.object blames (List.mem_singleton.mpr rfl), fun rest => ?_⟩
      simp (disch := decide) only [Json.tagged, Json.chars, Json.membersChars, List.cons_append,
        List.append_assoc, List.nil_append, readChoice, Json.skipBlanks_cons, readTagged,
        readText_stringChars, findCase_of_mem distinct isEntry, readColon, payloadRead]

theorem refuses_readChoice {α : Type} {write : α → Json} {cases : List (Case α)}
    (bounded : inner.Bounded budget) (distinct : (cases.map Case.tag).Nodup) {entry : Case α}
    (isEntry : entry ∈ cases) (clear : ∀ form ∈ entry.payload.forms, form.Clear)
    {data : entry.payload.Carrier}
    (written : write (entry.make data) = entry.payload.toJson entry.tag data)
    (readBack : RealsReadBack (write (entry.make data)))
    (unfit : ¬(write (entry.make data)).Fits RealReadsBack budget) :
    Refuses budget (readChoice inner cases) write (entry.make data) := by
  cases entry with
  | mk tag payload make part =>
      cases payload with
      | nothing =>
          rw [written] at unfit
          exact absurd (Json.fits_string budget tag) unfit
      | one form =>
          exact refuses_tagged bounded distinct isEntry written
            (fun stops => stops form data (clear form List.mem_cons_self)) readBack unfit
      | several title fields =>
          exact refuses_tagged bounded distinct isEntry written
            (fun stops => stops (.record title fields) data (clear _ List.mem_cons_self))
            readBack unfit

theorem refuses_readNode {α : Type} {write : α → Json} {layout : Layout α}
    (agrees : layout.Agrees write) (clear : ∀ form ∈ layout.forms, form.Clear)
    (bounded : inner.Bounded budget) (node : α) (readBack : RealsReadBack (write node))
    (unfit : ¬(write node).Fits RealReadsBack budget) :
    Refuses budget (readNode inner layout) write node := by
  cases agrees with
  | record title fields make parts keysDistinct make_parts write_make =>
      have written := write_make (parts node)
      rw [make_parts] at written
      rw [written] at readBack unfit
      obtain ⟨problem, blames, rowRead⟩ :=
        refuses_readRecord bounded (clear _ List.mem_cons_self) (parts node) readBack unfit
      rw [Refuses, written]
      refine ⟨problem, blames, fun rest => ?_⟩
      simp only [readNode, rowRead, Outcome.onValue]
  | choice cases tagsDistinct keysDistinct covers make_part write_make =>
      obtain ⟨entry, isEntry, isPart⟩ := List.any_eq_true.mp (covers node)
      obtain ⟨data, isData⟩ := Option.isSome_iff_exists.mp isPart
      have made := make_part entry isEntry node data isData
      rw [← made] at readBack unfit ⊢
      exact refuses_readChoice bounded tagsDistinct isEntry
        (fun form isForm => clear form (List.mem_flatMap.mpr ⟨entry, isEntry, isForm⟩))
        (write_make entry isEntry data) readBack unfit

theorem refuses_readList (bounded : inner.Bounded budget) (item : Shape)
    (contents : List item.Carrier) (readBack : RealsReadBack (Json.ofList item.toJson contents))
    (unfit : ¬(Json.ofList item.toJson contents).Fits RealReadsBack budget) :
    Refuses budget (readList inner item) (Json.ofList item.toJson) contents := by
  cases bounded with
  | closed =>
      refine ⟨.malformed, blames_of_depth_pos (Nat.succ_pos _), fun rest => ?_⟩
      obtain ⟨tail, written⟩ := chars_array (contents.map item.toJson)
      simp (disch := decide) only [Json.ofList, written, List.cons_append, readList,
        Json.skipBlanks_cons]
      rfl
  | @opened read inside recovers stops =>
      obtain ⟨json, isJson, unfitJson⟩ := exists_unfit_item unfit
      obtain ⟨content, isContent, rfl⟩ := List.mem_map.mp isJson
      cases contents with
      | nil => cases isContent
      | cons first contents =>
          obtain ⟨problem, ⟨other, isOther, blames⟩, itemsRead⟩ := readItems_refused
            (fun other _ => recovers (.value item) other List.nodup_nil)
            (fun other isOther => stops (.value item) other (Form.clear_value item)
              (readBack.item (List.mem_map_of_mem isOther)))
            ⟨content, isContent, unfitJson⟩
          refine ⟨problem, blames.array (List.mem_map_of_mem isOther), fun rest => ?_⟩
          have tailRead := itemsRead false [] ((item.toJson first).chars ++
            (Json.itemsChars (contents.map item.toJson) ++ rest)) rest
          have enough := length_lt_itemsChars (contents.map item.toJson)
          rw [lead, if_neg Bool.false_ne_true, List.nil_append] at tailRead
          simp (disch := decide) only [Json.ofList, List.map_cons, Json.chars, List.cons_append,
            List.append_assoc, readList, Json.skipBlanks_cons]
          refine tailRead ?_
          rw [List.length_map] at enough
          simp only [List.length_append]
          omega

theorem stops_readWith (bounded : inner.Bounded budget) : Stops (readWith inner) budget := by
  intro form content clear readBack unfit
  cases form with
  | record title fields => exact refuses_readRecord bounded clear content readBack unfit
  | value shape =>
      cases shape with
      | text => exact absurd (Json.fits_string budget content) unfit
      | character => exact absurd (Json.fits_string budget (String.singleton content)) unfit
      | truth => exact absurd (Json.fits_truth budget content) unfit
      | integer width => exact absurd (Json.fits_integer budget (width.toInt content)) unfit
      | real =>
          refine refuses_readReal (fun finite => unfit (Json.fits_real.mpr ?_)) budget
          exact readBack content (List.mem_singleton_self content) finite
      | list item => exact refuses_readList bounded item content readBack unfit
      | node kind =>
          exact refuses_readNode kind.layout_agrees
            (fun form isForm => Kind.clear_of_mem_forms (List.mem_cons_of_mem _ isForm)) bounded
            content readBack unfit

end Nodes

theorem stops_readForm (budget : Nat) : Stops (readForm budget) budget := by
  induction budget with
  | zero => exact stops_readWith .closed
  | succ budget ih => exact stops_readWith (.opened (recovers_readForm budget) ih)

/-! ### Whole texts -/

/-- What reading back gives of what is written in one place of the file, by the reals in it and
by the brackets that its text has open at once. -/
structure ReadsBack (form : Form) (content : form.Carrier) : Prop where
  whole : (∀ value, HasReal value form content → value.isFinite = true) →
    Json.nesting (form.toJson content).text ≤ depthLimit →
    readWhole form (form.toJson content).text = .ok content
  tooDeep : (∀ value, HasReal value form content → value.isFinite = true) →
    depthLimit < Json.nesting (form.toJson content).text →
    readWhole form (form.toJson content).text = .error .malformed
  noNumber : (∃ value, HasReal value form content ∧ value.isFinite = false) →
    Json.nesting (form.toJson content).text ≤ depthLimit →
    ∃ problem, readWhole form (form.toJson content).text = .error (.data problem) ∧
      problem.message = "invalid type: null, expected f64"

theorem readWhole_text_of_refuses {form : Form} {content : form.Carrier}
    (refuses : Refuses depthLimit (readForm depthLimit form) form.toJson content) :
    ∃ problem, Blames depthLimit (form.toJson content) problem ∧
      readWhole form (form.toJson content).text = .error problem := by
  obtain ⟨problem, blames, formRead⟩ := refuses
  have wholeRead := formRead []
  rw [List.append_nil] at wholeRead
  refine ⟨problem, blames, ?_⟩
  simp only [readWhole, Json.text, String.toList_ofList, wholeRead]

/-- Every value of every type of the tree is read back as itself as long as its reals are finite
and at most 127 brackets are open at once. One bracket more is a text that is not well formed,
and a real that is no number is one null too many. Of the finite reals it is assumed that each
of them by itself is read back from its digits. -/
theorem readsBack_of_mem_forms {kind : Kind} {form : Form} (isForm : form ∈ kind.forms)
    (content : form.Carrier)
    (readBack : ∀ value, HasReal value form content → value.isFinite = true →
      RealReadsBack value) : ReadsBack form content := by
  have clear := Kind.clear_of_mem_forms isForm
  have counted := Json.nesting_text (form.toJson content)
  have refused (unfit : ¬(form.toJson content).Fits RealReadsBack depthLimit) :=
    readWhole_text_of_refuses (stops_readForm depthLimit form content clear
      (fun value isReal => readBack value (mem_reals_toJson_iff.mp isReal)) unfit)
  constructor
  · intro reals shallow
    rw [counted] at shallow
    refine readWhole_text_of_gives (recovers_readForm depthLimit form content clear.distinct
      ⟨shallow, fun value isReal => ?_⟩)
    have has := mem_reals_toJson_iff.mp isReal
    exact readBack value has (reals value has)
  · intro reals deep
    rw [counted] at deep
    obtain ⟨problem, blames, isRefused⟩ := refused fun fits => Nat.not_le.mpr deep fits.depth_le
    rw [isRefused, blames.ofFinite fun value isReal => reals value (mem_reals_toJson_iff.mp isReal)]
  · rintro ⟨value, has, notFinite⟩ shallow
    rw [counted] at shallow
    obtain ⟨problem, blames, isRefused⟩ := refused fun fits =>
      Bool.false_ne_true (notFinite.symm.trans (fits.reals value has.mem_reals).isFinite)
    exact ⟨notANumber, by rw [isRefused, blames.ofShallow shallow], rfl⟩

def negated (count : Nat) (literal : Literal) : Expr :=
  Nat.iterate (Expr.unary .neg) count (.literal literal)

/-- Both sides of the limit, and an expression that is a real and no number. -/
theorem readsBack_negated :
    Form.value (.node .expr) ∈ Kind.expr.forms ∧
      RealReadsBack ⟨0x3FF8000000000000⟩ ∧
      Json.nesting (negated 62 (.number (.real ⟨0x3FF8000000000000⟩))).toJson.text = 127 ∧
      readWhole (.value (.node .expr))
          (negated 62 (.number (.real ⟨0x3FF8000000000000⟩))).toJson.text =
        .ok (negated 62 (.number (.real ⟨0x3FF8000000000000⟩))) ∧
      Json.nesting (negated 63 (.string "s")).toJson.text = 128 ∧
      readWhole (.value (.node .expr)) (negated 63 (.string "s")).toJson.text =
        .error .malformed ∧
      Json.nesting (negated 0 (.number (.real ⟨0x7FF8000000000000⟩))).toJson.text = 3 ∧
      ∃ problem,
        readWhole (.value (.node .expr))
          (negated 0 (.number (.real ⟨0x7FF8000000000000⟩))).toJson.text =
            .error (.data problem) ∧
        problem.message = "invalid type: null, expected f64" := by
  have isForm : Form.value (.node .expr) ∈ Kind.expr.forms := List.mem_cons_self
  have nesting {expr : Expr} {count : Nat} (isDepth : expr.toJson.depth = count) :
      Json.nesting expr.toJson.text = count := by
    rw [Json.nesting_text, isDepth]
  have onlyReal {expr : Expr} {real : Binary64} (isOnly : expr.toJson.reals = [real])
      (value : Binary64) (has : HasReal value (.value (.node .expr)) expr) : value = real :=
    List.mem_singleton.mp (isOnly ▸ has.mem_reals)
  have noReal {expr : Expr} (isNone : expr.toJson.reals = []) (value : Binary64)
      (has : HasReal value (.value (.node .expr)) expr) : False :=
    List.not_mem_nil (isNone ▸ has.mem_reals)
  have isReadBack : RealReadsBack ⟨0x3FF8000000000000⟩ := by decide +kernel
  have whole :
      Json.nesting (negated 62 (.number (.real ⟨0x3FF8000000000000⟩))).toJson.text = 127 :=
    nesting (by decide +kernel)
  have tooDeep : Json.nesting (negated 63 (.string "s")).toJson.text = 128 :=
    nesting (by decide +kernel)
  have noNumber :
      Json.nesting (negated 0 (.number (.real ⟨0x7FF8000000000000⟩))).toJson.text = 3 :=
    nesting (by decide +kernel)
  refine ⟨isForm, isReadBack, whole, ?_, tooDeep, ?_, noNumber, ?_⟩
  · have isOnly : (negated 62 (.number (.real ⟨0x3FF8000000000000⟩))).toJson.reals =
        [⟨0x3FF8000000000000⟩] := by decide +kernel
    have reads := readsBack_of_mem_forms isForm
      (negated 62 (.number (.real ⟨0x3FF8000000000000⟩)))
      fun value has _ => onlyReal isOnly value has ▸ isReadBack
    exact reads.whole (fun value has => onlyReal isOnly value has ▸ isReadBack.isFinite) whole.le
  · have isNone : (negated 63 (.string "s")).toJson.reals = [] := by decide +kernel
    have reads := readsBack_of_mem_forms isForm (negated 63 (.string "s"))
      fun value has => (noReal isNone value has).elim
    exact reads.tooDeep (fun value has => (noReal isNone value has).elim) tooDeep.ge
  · have isOnly : (negated 0 (.number (.real ⟨0x7FF8000000000000⟩))).toJson.reals =
        [⟨0x7FF8000000000000⟩] := by decide +kernel
    have notFinite : Binary64.isFinite ⟨0x7FF8000000000000⟩ = false := by decide +kernel
    have reads := readsBack_of_mem_forms isForm
      (negated 0 (.number (.real ⟨0x7FF8000000000000⟩)))
      fun value has finite => by
        rw [onlyReal isOnly value has, notFinite] at finite
        exact nomatch finite
    have has : HasReal ⟨0x7FF8000000000000⟩ (.value (.node .expr))
        (negated 0 (.number (.real ⟨0x7FF8000000000000⟩))) :=
      mem_reals_toJson_iff.mp (isOnly ▸ List.mem_singleton_self _)
    exact reads.noNumber ⟨_, has, notFinite⟩ (noNumber.trans_le (by decide))

end ScopeLint.Format
