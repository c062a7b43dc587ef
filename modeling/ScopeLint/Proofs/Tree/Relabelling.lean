import ScopeLint.Tree.Dump

/-!
Trees with other identifiers in the same places. A dump shows the names of identifiers but not
their lines, and nothing of the name that the NEXT of a loop gives, so a change of these alone
leaves the dump as it is.
-/

set_option autoImplicit false
-- In a mutual block the linter does not see that the shared assumption is used.
set_option linter.unusedSectionVars false

namespace ScopeLint

/-! ### Putting other identifiers in a tree -/

section Relabel

variable (change : Identifier → Identifier)

mutual

def Expr.relabel : Expr → Expr
  | .literal value => .literal value
  | .lvalue target => .lvalue target.relabel
  | .binary op left right => .binary op left.relabel right.relabel
  | .unary op operand => .unary op operand.relabel
  | .call call => .call call.relabel
  | .pointer op target => .pointer op target.relabel
  | .eof file => .eof file.relabel

def LValue.relabel : LValue → LValue
  | ⟨name, indices, member⟩ => ⟨change name, Expr.relabelAll indices, member⟩

def Call.relabel : Call → Call
  | ⟨callee, arguments⟩ => ⟨change callee, Expr.relabelAll arguments⟩

def Expr.relabelAll : List Expr → List Expr
  | [] => []
  | expr :: exprs => expr.relabel :: Expr.relabelAll exprs

end

theorem Expr.relabelAll_eq_map (exprs : List Expr) :
    Expr.relabelAll change exprs = exprs.map (Expr.relabel change) := by
  induction exprs with
  | nil => rfl
  | cons expr exprs ih => rw [relabelAll, ih, List.map_cons]

def ArrayRange.relabel (node : ArrayRange) : ArrayRange :=
  ⟨node.first.relabel change, node.last.relabel change⟩

mutual

def Decl.relabel : Decl → Decl
  | .constant name value => .constant (change name) (value.relabel change)
  | .var name type => .var (change name) type
  | .array name ranges element =>
      .array (change name) (ranges.map (ArrayRange.relabel change)) element
  | .enumeration name members => .enumeration (change name) (members.map change)
  | .record name fields => .record (change name) (Decl.relabelAll fields)
  | .pointer name target => .pointer (change name) target
  | .set name element => .set (change name) element
  | .setValue name type values => .setValue (change name) type values

def Decl.relabelAll : List Decl → List Decl
  | [] => []
  | decl :: decls => decl.relabel :: Decl.relabelAll decls

end

def Param.relabel (node : Param) : Param :=
  { node with name := change node.name }

def FileStmt.relabel : FileStmt → FileStmt
  | .openAs file mode => .openAs (file.relabel change) mode
  | .read file target => .read (file.relabel change) (change target)
  | .write file value => .write (file.relabel change) (value.relabel change)
  | .close file => .close (file.relabel change)
  | .seek file position => .seek (file.relabel change) (position.relabel change)
  | .getRecord file target => .getRecord (file.relabel change) (change target)
  | .putRecord file source => .putRecord (file.relabel change) (change source)

-- The identifier that a NEXT names has a change of its own.
variable (changeNext : Identifier → Identifier)

mutual

def Stmt.relabel : Stmt → Stmt
  | .assign target value => .assign (target.relabel change) (value.relabel change)
  | .ifThen condition thenBlock elseBlock =>
      .ifThen (condition.relabel change) thenBlock.relabel (Block.relabelElse elseBlock)
  | .caseOf subject arms => .caseOf (change subject) (CaseArm.relabelAll arms)
  | .forNext counter first last step body next =>
      .forNext (change counter) (first.relabel change) (last.relabel change)
        (step.map (Expr.relabel change)) body.relabel (changeNext next)
  | .whileDo condition body => .whileDo (condition.relabel change) body.relabel
  | .repeatUntil body condition => .repeatUntil body.relabel (condition.relabel change)
  | .giveBack value => .giveBack (value.relabel change)
  | .call call => .call (call.relabel change)
  | .input target => .input (change target)
  | .output items => .output (items.map (Expr.relabel change))
  | .file action => .file (action.relabel change)

def CaseArm.relabel : CaseArm → CaseArm
  | ⟨lower, upper, body⟩ =>
      ⟨lower.relabel change, upper.map (Expr.relabel change), body.relabel⟩

def CaseArm.relabelAll : List CaseArm → List CaseArm
  | [] => []
  | arm :: arms => arm.relabel :: CaseArm.relabelAll arms

def Block.relabel : Block → Block
  | ⟨items⟩ => ⟨BlockItem.relabelAll items⟩

def Block.relabelElse : Option Block → Option Block
  | none => none
  | some block => some block.relabel

def BlockItem.relabel : BlockItem → BlockItem
  | .decl decl => .decl (decl.relabel change)
  | .stmt stmt => .stmt stmt.relabel

def BlockItem.relabelAll : List BlockItem → List BlockItem
  | [] => []
  | item :: items => item.relabel :: BlockItem.relabelAll items

end

def Item.relabel : Item → Item
  | .decl inner => .decl (inner.relabel change)
  | .function name params returns body =>
      .function (change name) (params.map (List.map (Param.relabel change))) returns
        (body.relabel change changeNext)
  | .procedure name params body =>
      .procedure (change name) (params.map (List.map (Param.relabel change)))
        (body.relabel change changeNext)
  | .stmt inner => .stmt (inner.relabel change changeNext)

def Program.relabel (program : Program) : Program :=
  ⟨program.items.map (Item.relabel change changeNext)⟩

end Relabel

/-! ### Dumps of relabelled trees -/

section Dump

variable {change changeNext : Identifier → Identifier}
variable (keepsName : ∀ node : Identifier, (change node).name = node.name)

include keepsName

theorem Identifier.text_relabel (node : Identifier) : (change node).text = node.text :=
  keepsName node

mutual

theorem Expr.text_relabel : (expr : Expr) → (expr.relabel change).text = expr.text
  | .literal _ => rfl
  | .lvalue target => target.text_relabel
  | .binary _ left right => by
      rw [Expr.relabel, Expr.text, Expr.text, left.text_relabel, right.text_relabel]
  | .unary _ operand => by rw [Expr.relabel, Expr.text, Expr.text, operand.text_relabel]
  | .call call => call.text_relabel
  | .pointer _ target => by rw [Expr.relabel, Expr.text, Expr.text, target.text_relabel]
  | .eof file => by rw [Expr.relabel, Expr.text, Expr.text, file.text_relabel]

theorem LValue.text_relabel : (target : LValue) → (target.relabel change).text = target.text
  | ⟨name, [], none⟩ => by
      simp only [LValue.relabel, Expr.relabelAll, LValue.text,
        Identifier.text_relabel keepsName name]
  | ⟨name, [], some _⟩ => by
      simp only [LValue.relabel, Expr.relabelAll, LValue.text,
        Identifier.text_relabel keepsName name]
  | ⟨name, index :: indices, none⟩ => by
      simp only [LValue.relabel, Expr.relabelAll, LValue.text,
        Identifier.text_relabel keepsName name, index.text_relabel,
        Expr.texts_relabelAll indices]
  | ⟨name, index :: indices, some _⟩ => by
      simp only [LValue.relabel, Expr.relabelAll, LValue.text,
        Identifier.text_relabel keepsName name, index.text_relabel,
        Expr.texts_relabelAll indices]

theorem Call.text_relabel : (call : Call) → (call.relabel change).text = call.text
  | ⟨callee, []⟩ => by
      simp only [Call.relabel, Expr.relabelAll, Call.text,
        Identifier.text_relabel keepsName callee]
  | ⟨callee, argument :: arguments⟩ => by
      simp only [Call.relabel, Expr.relabelAll, Call.text,
        Identifier.text_relabel keepsName callee, argument.text_relabel,
        Expr.texts_relabelAll arguments]

theorem Expr.texts_relabelAll :
    (exprs : List Expr) → Expr.texts (Expr.relabelAll change exprs) = Expr.texts exprs
  | [] => rfl
  | expr :: exprs => by
      rw [Expr.relabelAll, Expr.texts, Expr.texts, expr.text_relabel,
        Expr.texts_relabelAll exprs]

end

theorem ArrayRange.text_relabel (node : ArrayRange) :
    (node.relabel change).text = node.text := by
  simp only [ArrayRange.text, ArrayRange.relabel, Expr.text_relabel keepsName]

theorem Param.text_relabel (node : Param) : (node.relabel change).text = node.text := by
  simp only [Param.text, Param.relabel, Identifier.text_relabel keepsName]

theorem paramListText_relabel (params : Option (List Param)) :
    paramListText (params.map (List.map (Param.relabel change))) = paramListText params := by
  match params with
  | none => rfl
  | some [] => rfl
  | some (param :: params) =>
      simp only [Option.map_some, List.map_cons, paramListText, List.map_map,
        Function.comp_def, Param.text_relabel keepsName]

theorem optionalText_relabel (missing : String) (expr : Option Expr) :
    optionalText missing (expr.map (Expr.relabel change)) = optionalText missing expr := by
  cases expr with
  | none => rfl
  | some expr => exact expr.text_relabel keepsName

mutual

theorem Decl.render_relabel (width level : Nat) :
    (decl : Decl) → (decl.relabel change).render width level = decl.render width level
  | .constant name value => by
      simp only [Decl.relabel, Decl.render, Identifier.text_relabel keepsName,
        Expr.text_relabel keepsName]
  | .var name _ => by
      simp only [Decl.relabel, Decl.render, Identifier.text_relabel keepsName]
  | .array name ranges _ => by
      simp only [Decl.relabel, Decl.render, Identifier.text_relabel keepsName, List.map_map,
        Function.comp_def, ArrayRange.text_relabel keepsName]
  | .enumeration name members => by
      simp only [Decl.relabel, Decl.render, Identifier.text_relabel keepsName, List.map_map,
        Function.comp_def]
  | .record name fields => by
      simp only [Decl.relabel, Decl.render, Identifier.text_relabel keepsName,
        Decl.renderAll_relabel width (level + 1) fields]
  | .pointer name _ => by
      simp only [Decl.relabel, Decl.render, Identifier.text_relabel keepsName]
  | .set name _ => by
      simp only [Decl.relabel, Decl.render, Identifier.text_relabel keepsName]
  | .setValue name _ _ => by
      simp only [Decl.relabel, Decl.render, Identifier.text_relabel keepsName]

theorem Decl.renderAll_relabel (width level : Nat) :
    (decls : List Decl) →
      Decl.renderAll width level (Decl.relabelAll change decls) =
        Decl.renderAll width level decls
  | [] => rfl
  | decl :: decls => by
      simp only [Decl.relabelAll, Decl.renderAll, decl.render_relabel width level,
        Decl.renderAll_relabel width level decls]

end

theorem FileStmt.text_relabel (action : FileStmt) :
    (action.relabel change).text = action.text := by
  cases action
  all_goals
    simp only [FileStmt.relabel, FileStmt.text, Expr.text_relabel keepsName,
      Identifier.text_relabel keepsName]

mutual

theorem Stmt.render_relabel (width level : Nat) :
    (stmt : Stmt) → (stmt.relabel change changeNext).render width level = stmt.render width level
  | .assign target value => by
      simp only [Stmt.relabel, Stmt.render, LValue.text_relabel keepsName,
        Expr.text_relabel keepsName]
  | .ifThen condition thenBlock elseBlock => by
      simp only [Stmt.relabel, Stmt.render, Expr.text_relabel keepsName,
        thenBlock.render_relabel width (level + 1),
        Block.renderElse_relabel width (level + 1) elseBlock]
  | .caseOf subject arms => by
      simp only [Stmt.relabel, Stmt.render, Identifier.text_relabel keepsName,
        CaseArm.renderAll_relabel width (level + 1) arms]
  | .forNext counter first last step body next => by
      simp only [Stmt.relabel, Stmt.render, Identifier.text_relabel keepsName,
        Expr.text_relabel keepsName, optionalText_relabel keepsName,
        body.render_relabel width (level + 1)]
  | .whileDo condition body => by
      simp only [Stmt.relabel, Stmt.render, Expr.text_relabel keepsName,
        body.render_relabel width (level + 1)]
  | .repeatUntil body condition => by
      simp only [Stmt.relabel, Stmt.render, Expr.text_relabel keepsName,
        body.render_relabel width (level + 1)]
  | .giveBack value => by
      simp only [Stmt.relabel, Stmt.render, Expr.text_relabel keepsName]
  | .call call => by
      simp only [Stmt.relabel, Stmt.render, Call.text_relabel keepsName]
  | .input target => by
      simp only [Stmt.relabel, Stmt.render, Identifier.text_relabel keepsName]
  | .output items => by
      simp only [Stmt.relabel, Stmt.render, List.map_map, Function.comp_def,
        Expr.text_relabel keepsName]
  | .file action => by
      simp only [Stmt.relabel, Stmt.render, FileStmt.text_relabel keepsName]

theorem CaseArm.render_relabel (width level : Nat) :
    (arm : CaseArm) →
      (arm.relabel change changeNext).render width level = arm.render width level
  | ⟨lower, none, body⟩ => by
      simp only [CaseArm.relabel, Option.map_none, CaseArm.render, Expr.text_relabel keepsName,
        body.render_relabel width (level + 1)]
  | ⟨lower, some upper, body⟩ => by
      simp only [CaseArm.relabel, Option.map_some, CaseArm.render, Expr.text_relabel keepsName,
        body.render_relabel width (level + 1)]

theorem CaseArm.renderAll_relabel (width level : Nat) :
    (arms : List CaseArm) →
      CaseArm.renderAll width level (CaseArm.relabelAll change changeNext arms) =
        CaseArm.renderAll width level arms
  | [] => rfl
  | arm :: arms => by
      simp only [CaseArm.relabelAll, CaseArm.renderAll, arm.render_relabel width level,
        CaseArm.renderAll_relabel width level arms]

theorem Block.render_relabel (width level : Nat) :
    (block : Block) →
      (block.relabel change changeNext).render width level = block.render width level
  | ⟨items⟩ => by
      simp only [Block.relabel, Block.render,
        BlockItem.renderAll_relabel width (level + 1) items]

theorem Block.renderElse_relabel (width level : Nat) :
    (block : Option Block) →
      Block.renderElse width level (Block.relabelElse change changeNext block) =
        Block.renderElse width level block
  | none => rfl
  | some block => by
      simp only [Block.relabelElse, Block.renderElse, block.render_relabel width level]

theorem BlockItem.render_relabel (width level : Nat) :
    (item : BlockItem) →
      (item.relabel change changeNext).render width level = item.render width level
  | .decl decl => decl.render_relabel keepsName width level
  | .stmt stmt => stmt.render_relabel width level

theorem BlockItem.renderAll_relabel (width level : Nat) :
    (items : List BlockItem) →
      BlockItem.renderAll width level (BlockItem.relabelAll change changeNext items) =
        BlockItem.renderAll width level items
  | [] => rfl
  | item :: items => by
      simp only [BlockItem.relabelAll, BlockItem.renderAll, item.render_relabel width level,
        BlockItem.renderAll_relabel width level items]

end

theorem Item.render_relabel (width level : Nat) (item : Item) :
    (item.relabel change changeNext).render width level = item.render width level := by
  cases item with
  | decl inner => exact inner.render_relabel keepsName width level
  | function name params returns body =>
      simp only [Item.relabel, Item.render, Identifier.text_relabel keepsName,
        paramListText_relabel keepsName, Block.render_relabel keepsName width (level + 1)]
  | procedure name params body =>
      simp only [Item.relabel, Item.render, Identifier.text_relabel keepsName,
        paramListText_relabel keepsName, Block.render_relabel keepsName width (level + 1)]
  | stmt inner => exact inner.render_relabel keepsName width level

/-- A dump is the same whatever the lines of identifiers and the names that NEXTs give. -/
theorem Program.dump_relabel (width : Nat) (program : Program) :
    (program.relabel change changeNext).dump width = program.dump width := by
  simp only [Program.dump, Program.relabel, List.map_map, Function.comp_def,
    Item.render_relabel keepsName]

end Dump

end ScopeLint
