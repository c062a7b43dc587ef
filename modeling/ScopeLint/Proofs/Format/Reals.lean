import ScopeLint.Proofs.Format.Recovery

/-!
The reals of a tree. Its layout takes a node apart, down to the scalars; a real that is found
there is written as it is, and nothing else is written as a real.
-/

set_option autoImplicit false

namespace ScopeLint.Format

/-- What the layout of a node takes it apart into: its fields, or the data of its case. -/
inductive Layout.Part {α : Type} :
    Layout α → α → (form : Form) → form.Carrier → Prop where
  | record {title : String} {fields : List Field} {make : Row fields → α}
      {parts : α → Row fields} (node : α) :
      Part (.record title fields make parts) node (.record title fields) (parts node)
  | one {cases : List (Case α)} {tag : String} {form : Form} {make : form.Carrier → α}
      {part : α → Option form.Carrier} {node : α} {content : form.Carrier}
      (isCase : ⟨tag, .one form, make, part⟩ ∈ cases) (isPart : part node = some content) :
      Part (.choice cases) node form content
  | several {cases : List (Case α)} {tag title : String} {fields : List Field}
      {make : Row fields → α} {part : α → Option (Row fields)} {node : α} {row : Row fields}
      (isCase : ⟨tag, .several title fields, make, part⟩ ∈ cases)
      (isPart : part node = some row) : Part (.choice cases) node (.record title fields) row

/-- A real stands somewhere in a content. -/
inductive HasReal (value : Binary64) : (form : Form) → form.Carrier → Prop where
  | real : HasReal value (.value .real) value
  | item {shape : Shape} {contents : List shape.Carrier} {content : shape.Carrier}
      (isItem : content ∈ contents) (has : HasReal value (.value shape) content) :
      HasReal value (.value (.list shape)) contents
  | required {title key : String} {fields : List Field} {row : Row fields} {shape : Shape}
      {content : shape.Carrier} (holds : Row.Holds fields row (.required key shape) content)
      (has : HasReal value (.value shape) content) : HasReal value (.record title fields) row
  | optional {title key : String} {fields : List Field} {row : Row fields} {shape : Shape}
      {content : shape.Carrier} (holds : Row.Holds fields row (.optional key shape) (some content))
      (has : HasReal value (.value shape) content) : HasReal value (.record title fields) row
  | node {kind : Kind} {node : kind.Carrier} {form : Form} {content : form.Carrier}
      (part : kind.layout.Part node form content) (has : HasReal value form content) :
      HasReal value (.value (.node kind)) node

/-! ### What is taken apart is written -/

theorem Row.Holds.mem_members {fields : List Field} {row : Row fields} {field : Field}
    {content : field.Carrier} (holds : Row.Holds fields row field content) :
    (field.key, field.toJson content) ∈ Row.members fields row := by
  induction holds with
  | first content row => exact List.mem_cons_self
  | later value holds ih => exact List.mem_cons_of_mem _ ih

theorem Row.holds_of_mem_members {fields : List Field} {row : Row fields}
    {member : String × Json} (isMember : member ∈ Row.members fields row) :
    ∃ (field : Field) (content : field.Carrier),
      Row.Holds fields row field content ∧ member.2 = field.toJson content := by
  induction fields with
  | nil => cases isMember
  | cons field fields ih =>
      rcases row with ⟨content, row⟩
      rcases List.mem_cons.mp isMember with rfl | isMember
      · exact ⟨field, content, .first content row, rfl⟩
      · obtain ⟨found, value, holds, isJson⟩ := ih isMember
        exact ⟨found, value, .later content holds, isJson⟩

section Layouts

variable {α : Type} {write : α → Json} {layout : Layout α} {node : α}

theorem reals_tagged (tag : String) (payload : Json) :
    (Json.tagged tag payload).reals = payload.reals :=
  List.append_nil payload.reals

/-- A part of a node is written in the node as it is. -/
theorem Layout.Agrees.reals_part (agrees : layout.Agrees write) {form : Form}
    {content : form.Carrier} (part : layout.Part node form content) :
    (write node).reals = (form.toJson content).reals := by
  cases agrees with
  | record title fields make parts _ make_parts write_make =>
      cases part with
      | record =>
          have written := write_make (parts node)
          rw [make_parts] at written
          rw [written]
          rfl
  | choice cases _ _ _ make_part write_make =>
      cases part with
      | one isCase isPart =>
          have written := write_make _ isCase content
          rw [make_part _ isCase node content isPart] at written
          rw [written]
          exact reals_tagged _ _
      | @several _ _ _ _ _ _ _ row isCase isPart =>
          have written := write_make _ isCase row
          rw [make_part _ isCase node row isPart] at written
          rw [written]
          exact reals_tagged _ _

/-- A node without parts is written as a string. Any other is a record, or is written as its part
is behind a tag. -/
theorem Layout.Agrees.exists_part (agrees : layout.Agrees write) (node : α) :
    (∃ tag, write node = .string tag) ∨
    (∃ title fields row, layout.Part node (.record title fields) row ∧
      write node = .object (Row.members fields row)) ∨
    ∃ (form : Form) (content : form.Carrier) (tag : String),
      layout.Part node form content ∧ write node = .tagged tag (form.toJson content) := by
  cases agrees with
  | record title fields make parts _ make_parts write_make =>
      have written := write_make (parts node)
      rw [make_parts] at written
      exact .inr (.inl ⟨title, fields, parts node, .record node, written⟩)
  | choice cases _ _ covers make_part write_make =>
      obtain ⟨entry, isEntry, isSome⟩ := List.any_eq_true.mp (covers node)
      obtain ⟨data, isPart⟩ := Option.isSome_iff_exists.mp isSome
      have written := write_make entry isEntry data
      rw [make_part entry isEntry node data isPart] at written
      rcases entry with ⟨tag, payload, make, part⟩
      cases payload with
      | nothing => exact .inl ⟨tag, written⟩
      | one form => exact .inr (.inr ⟨form, data, tag, .one isEntry isPart, written⟩)
      | several title fields =>
          exact .inr (.inr ⟨.record title fields, data, tag, .several isEntry isPart, written⟩)

end Layouts

/-! ### The reals that are written -/

theorem HasReal.mem_reals {value : Binary64} {form : Form} {content : form.Carrier}
    (has : HasReal value form content) : value ∈ (form.toJson content).reals := by
  induction has with
  | real => exact List.mem_singleton_self value
  | item isItem has ih =>
      exact Json.mem_itemsReals.mpr ⟨_, List.mem_map_of_mem isItem, ih⟩
  | required holds has ih => exact Json.mem_membersReals.mpr ⟨_, holds.mem_members, ih⟩
  | optional holds has ih => exact Json.mem_membersReals.mpr ⟨_, holds.mem_members, ih⟩
  | @node kind node form content part has ih =>
      have same : (kind.toJson node).reals = (form.toJson content).reals :=
        kind.layout_agrees.reals_part part
      change value ∈ (kind.toJson node).reals
      rw [same]
      exact ih

/-- Up to a depth, what is written as a real is a real of the content. -/
def HasRealsWithin (budget : Nat) : Prop :=
  ∀ (form : Form) (content : form.Carrier), (form.toJson content).depth ≤ budget →
    ∀ value ∈ (form.toJson content).reals, HasReal value form content

theorem hasReal_of_mem_members {budget : Nat}
    (within : ∀ inside, budget = inside + 1 → HasRealsWithin inside) (title : String)
    {fields : List Field} {row : Row fields}
    (shallow : (Json.object (Row.members fields row)).depth ≤ budget) {value : Binary64}
    (isReal : value ∈ (Json.object (Row.members fields row)).reals) :
    HasReal value (.record title fields) row := by
  obtain ⟨inside, isInside, shallowInside⟩ := Json.exists_inside shallow
  obtain ⟨member, isMember, isReal⟩ := Json.mem_membersReals.mp isReal
  have deep := Json.membersDepth_le_iff.mp shallowInside member isMember
  obtain ⟨field, content, holds, isJson⟩ := Row.holds_of_mem_members isMember
  rw [isJson] at deep isReal
  cases field with
  | required key shape =>
      exact .required holds (within inside isInside (.value shape) content deep value isReal)
  | optional key shape =>
      cases content with
      | none => exact absurd isReal List.not_mem_nil
      | some content =>
          exact .optional holds (within inside isInside (.value shape) content deep value isReal)

theorem hasRealsWithin_step {budget : Nat}
    (within : ∀ inside, budget = inside + 1 → HasRealsWithin inside) : HasRealsWithin budget := by
  intro form content shallow value isReal
  cases form with
  | record title fields => exact hasReal_of_mem_members within title shallow isReal
  | value shape =>
      cases shape with
      | text => exact absurd isReal List.not_mem_nil
      | character => exact absurd isReal List.not_mem_nil
      | truth => exact absurd isReal List.not_mem_nil
      | integer width => exact absurd isReal List.not_mem_nil
      | real =>
          rw [List.mem_singleton.mp isReal]
          exact .real
      | list shape =>
          obtain ⟨inside, isInside, shallowInside⟩ := Json.exists_inside shallow
          obtain ⟨json, isJson, isReal⟩ := Json.mem_itemsReals.mp isReal
          have deep := Json.itemsDepth_le_iff.mp shallowInside json isJson
          obtain ⟨item, isItem, rfl⟩ := List.mem_map.mp isJson
          exact .item isItem (within inside isInside (.value shape) item deep value isReal)
      | node kind =>
          change value ∈ (kind.toJson content).reals at isReal
          change (kind.toJson content).depth ≤ budget at shallow
          rcases kind.layout_agrees.exists_part content with
            ⟨tag, written⟩ | ⟨title, fields, row, part, written⟩ | ⟨form, inner, tag, part, written⟩
          · rw [written] at isReal
            exact absurd isReal List.not_mem_nil
          · rw [written] at shallow isReal
            exact .node part (hasReal_of_mem_members within title shallow isReal)
          · rw [written] at shallow isReal
            obtain ⟨inside, isInside, shallowInside⟩ := Json.exists_inside shallow
            have deep := Json.membersDepth_le_iff.mp shallowInside
            rw [reals_tagged] at isReal
            exact .node part (within inside isInside form inner
              (deep (tag, form.toJson inner) List.mem_cons_self) value isReal)

theorem hasRealsWithin (budget : Nat) : HasRealsWithin budget := by
  induction budget with
  | zero => exact hasRealsWithin_step fun inside isInside =>
      absurd isInside (Nat.succ_ne_zero inside).symm
  | succ budget ih =>
      refine hasRealsWithin_step fun inside isInside => ?_
      rw [← Nat.succ.inj isInside]
      exact ih

/-- The reals of a content are those that are written for it. -/
theorem mem_reals_toJson_iff {form : Form} {content : form.Carrier} {value : Binary64} :
    value ∈ (form.toJson content).reals ↔ HasReal value form content :=
  ⟨hasRealsWithin (form.toJson content).depth form content (Nat.le_refl _) value,
    HasReal.mem_reals⟩

end ScopeLint.Format
