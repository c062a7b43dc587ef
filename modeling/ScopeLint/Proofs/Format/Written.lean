import Mathlib.Data.List.Nodup
import Mathlib.Tactic.FinCases
import ScopeLint.Format.Layout
import ScopeLint.Format.Writer
import ScopeLint.Proofs.Json.Extent

/-!
The layouts and the writer agree. What is written of a node follows from its layout: a record
is the object of its fields, and a case is its bare tag or an object with the tag for its only
key. So what is proved of layouts holds of every kind of node.
-/

set_option autoImplicit false

namespace ScopeLint.Format

/-! ### Writing by form -/

def Shape.toJson : (shape : Shape) → shape.Carrier → Json
  | .text, content => .string content
  | .character, content => .string (String.singleton content)
  | .truth, content => .truth content
  | .integer width, content => .integer (width.toInt content)
  | .real, content => .real content
  | .list item, contents => .ofList item.toJson contents
  | .node kind, content => kind.toJson content

def Field.toJson : (field : Field) → field.Carrier → Json
  | .required _ shape, content => shape.toJson content
  | .optional _ shape, content => .ofOption shape.toJson content

def Row.members : (fields : List Field) → Row fields → List (String × Json)
  | [], () => []
  | field :: fields, (value, row) => (field.key, field.toJson value) :: Row.members fields row

def Form.toJson : (form : Form) → form.Carrier → Json
  | .value shape, content => shape.toJson content
  | .record _ fields, row => .object (Row.members fields row)

/-- The data of a case together with its tag. -/
def Payload.toJson (tag : String) : (payload : Payload) → payload.Carrier → Json
  | .nothing, () => .string tag
  | .one form, content => .tagged tag (form.toJson content)
  | .several _ fields, row => .tagged tag (.object (Row.members fields row))

theorem Row.keys_members (fields : List Field) (row : Row fields) :
    (Row.members fields row).map Prod.fst = fields.map Field.key := by
  induction fields with
  | nil => rfl
  | cons field fields ih =>
      cases row with
      | mk value row => simp only [Row.members, List.map_cons, ih]

/-! ### Layouts that agree with a writer -/

/-- The keys of the record that a form or the data of a case holds, if it holds one. -/
def Form.keys : Form → List String
  | .value _ => []
  | .record _ fields => fields.map Field.key

def Payload.keys : Payload → List String
  | .nothing => []
  | .one form => form.keys
  | .several _ fields => fields.map Field.key

/-- A layout agrees with a writer: the nodes are those that can be put together by it, and each
is written as its parts are. -/
inductive Layout.Agrees {α : Type} (write : α → Json) : Layout α → Prop where
  | record (title : String) (fields : List Field) (make : Row fields → α)
      (parts : α → Row fields) (keysDistinct : (fields.map Field.key).Nodup)
      (make_parts : ∀ node, make (parts node) = node)
      (write_make : ∀ row, write (make row) = .object (Row.members fields row)) :
      Agrees write (.record title fields make parts)
  | choice (cases : List (Case α)) (tagsDistinct : (cases.map Case.tag).Nodup)
      (keysDistinct : ∀ entry ∈ cases, entry.payload.keys.Nodup)
      (covers : ∀ node, cases.any (fun entry => (entry.part node).isSome) = true)
      (make_part : ∀ entry ∈ cases, ∀ node data, entry.part node = some data →
        entry.make data = node)
      (write_make : ∀ entry ∈ cases, ∀ data,
        write (entry.make data) = entry.payload.toJson entry.tag data) :
      Agrees write (.choice cases)

/-! ### Every kind of node -/

-- The writer goes over lists of nodes of its own kind by functions of their own; these are the
-- equations with the lists written as all other lists are.

private theorem toJson_record (name : Identifier) (fields : List Decl) :
    (Decl.record name fields).toJson =
      .tagged "Record" (.object [("name", name.toJson),
        ("fields", .ofList Decl.toJson fields)]) := by
  rw [Json.ofList, ← Decl.toJsonItems_eq_map]
  rfl

private theorem toJson_ifThen (condition : Expr) (thenBlock : Block) (elseBlock : Option Block) :
    (Stmt.ifThen condition thenBlock elseBlock).toJson =
      .tagged "If" (.object [("condition", condition.toJson), ("then_block", thenBlock.toJson),
        ("else_block", .ofOption Block.toJson elseBlock)]) := by
  cases elseBlock with
  | none => rfl
  | some block => rfl

private theorem toJson_caseOf (subject : Identifier) (arms : List CaseArm) :
    (Stmt.caseOf subject arms).toJson =
      .tagged "Case" (.object [("subject", subject.toJson),
        ("arms", .ofList CaseArm.toJson arms)]) := by
  rw [Json.ofList, ← CaseArm.toJsonItems_eq_map]
  rfl

private theorem toJson_block (items : List BlockItem) :
    (Block.mk items).toJson = .object [("items", .ofList BlockItem.toJson items)] := by
  rw [Json.ofList, ← BlockItem.toJsonItems_eq_map]
  rfl

private theorem toJson_lvalue (name : Identifier) (indices : List Expr)
    (member : Option String) :
    (LValue.mk name indices member).toJson =
      .object [("name", name.toJson), ("indices", .ofList Expr.toJson indices),
        ("member", .ofOption .string member)] := by
  rw [Json.ofList, ← Expr.toJsonItems_eq_map]
  rfl

private theorem toJson_call (callee : Identifier) (arguments : List Expr) :
    (Call.mk callee arguments).toJson =
      .object [("callee", callee.toJson), ("args", .ofList Expr.toJson arguments)] := by
  rw [Json.ofList, ← Expr.toJsonItems_eq_map]
  rfl

theorem Kind.layout_agrees (kind : Kind) : kind.layout.Agrees kind.toJson := by
  cases kind
  case program | identifier | arrayRange | param | block | caseArm | lvalue | call | date =>
    refine .record _ _ _ _ (by decide) ?_ ?_
    · intro node
      cases node
      rfl
    · intro row
      first
      | rfl
      | exact toJson_block row.1
      | exact toJson_lvalue row.1 row.2.1 row.2.2.1
      | exact toJson_call row.1 row.2.1
  case item | typeName | decl | passMode | blockItem | stmt | fileStmt | fileMode | expr |
      literal | number | binaryOp | unaryOp | pointerOp =>
    refine .choice _ (by decide) (by decide) ?_ ?_ ?_
    · intro node
      cases node
      all_goals rfl
    · intro entry isEntry node data isPart
      fin_cases isEntry
      all_goals cases node
      all_goals cases isPart
      all_goals rfl
    · intro entry isEntry data
      fin_cases isEntry
      all_goals first
      | rfl
      | exact toJson_record data.1 data.2.1
      | exact toJson_ifThen data.1 data.2.1 data.2.2.1
      | exact toJson_caseOf data.1 data.2.1

theorem Payload.showsNull_toJson (tag : String) (payload : Payload) (data : payload.Carrier) :
    (payload.toJson tag data).showsNull = false := by
  cases payload with
  | nothing => rfl
  | one form => rfl
  | several title fields => rfl

/-- Apart from a real, null is written only for the absence of an optional field. -/
theorem Shape.showsNull_toJson {shape : Shape} (notReal : shape ≠ .real)
    (content : shape.Carrier) : (shape.toJson content).showsNull = false := by
  cases shape with
  | real => exact absurd rfl notReal
  | text => rfl
  | character => rfl
  | truth => rfl
  | integer width => rfl
  | list item => rfl
  | node kind =>
      have agrees := kind.layout_agrees
      change (kind.toJson content).showsNull = false
      generalize kind.toJson = write at agrees
      generalize kind.layout = layout at agrees
      cases agrees with
      | record title fields make parts _ make_parts write_make =>
          rw [← make_parts content, write_make]
          rfl
      | choice cases _ _ covers make_part write_make =>
          obtain ⟨entry, isEntry, isPart⟩ := List.any_eq_true.mp (covers content)
          obtain ⟨data, isData⟩ := Option.isSome_iff_exists.mp isPart
          rw [← make_part entry isEntry content data isData, write_make entry isEntry]
          exact entry.payload.showsNull_toJson entry.tag data

theorem Shape.toJson_ne_null (shape : Shape) (content : shape.Carrier) :
    shape.toJson content ≠ .null := by
  by_cases isReal : shape = .real
  · subst isReal
    exact nofun
  · intro same
    have notShown := showsNull_toJson isReal content
    rw [same] at notShown
    exact nomatch notShown

end ScopeLint.Format
