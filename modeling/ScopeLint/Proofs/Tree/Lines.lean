import ScopeLint.Tree.Dump

/-!
The lines of a dump. A node has one list of lines, each with its depth below the node, and on
every level and with every width it is rendered as these lines, indented. The depths are those
of a counter that goes up after a line with an open bracket and down before a closing brace.
-/

set_option autoImplicit false

namespace ScopeLint

/-- A text of a dump with its depth below the node that it belongs to. The text may hold
newlines, when a name or a string does. -/
structure Line where
  depth : Nat
  text : String
  deriving DecidableEq

namespace Line

def deeper (line : Line) : Line :=
  { line with depth := line.depth + 1 }

def shown (width level : Nat) (line : Line) : String :=
  indentation width (level + line.depth) ++ line.text

/-- Whether a line leaves a bracket open. -/
def opens (line : Line) : Bool :=
  line.text.toList.getLast? == some '\x7b' || line.text.toList.getLast? == some ','

/-- The counter of open brackets after a line, if the line stands where the counter wants it: a
closing brace one step further out, every other line at the counter itself. -/
def count? (counter : Nat) (line : Line) : Option Nat :=
  if line.opens then
    if line.depth = counter then some (counter + 1) else none
  else if line.text = "\x7d" then
    if line.depth + 1 = counter then some line.depth else none
  else if line.depth = counter then some counter else none

end Line

/-- The lines of a node that stands on a given level. -/
def showLines (width level : Nat) (lines : List Line) : String :=
  joinWith "\n" (lines.map (Line.shown width level))

/-- Every line stands at the depth that the lines before it call for, and all brackets are
closed at the end. -/
def WellBracketed (lines : List Line) : Prop :=
  lines.foldlM Line.count? 0 = some 0

/-- What is rendered on every level and with every width is one and the same list of lines. -/
structure LaidOut (render : (width level : Nat) → String) (lines : List Line) : Prop where
  nonempty : lines ≠ []
  shows : ∀ width level, render width level = showLines width level lines
  bracketed : WellBracketed lines

/-! ### The lines of every node -/

/-- A node over several lines: its first line, what lies inside it, and the closing brace. -/
def enclosed (first : String) (inside : List Line) : List Line :=
  ⟨0, first⟩ :: inside.map Line.deeper ++ [⟨0, "\x7d"⟩]

mutual

def Decl.lines : Decl → List Line
  | .constant name value => [⟨0, braced "ConstDecl" [name.text, value.text]⟩]
  | .var name type => [⟨0, braced "VarDecl" [name.text, type.text]⟩]
  | .array name ranges element =>
      [⟨0, braced "VarDeclArray"
        [name.text, spaced (ranges.map ArrayRange.text), element.text]⟩]
  | .enumeration name members =>
      [⟨0, braced "Enum" [name.text, spaced (members.map Identifier.text)]⟩]
  | .record name fields => enclosed (opened "Record" [name.text]) (Decl.linesOfAll fields)
  | .pointer name target => [⟨0, braced "Pointer" [name.text, target.text]⟩]
  | .set name element => [⟨0, braced "Set" [name.text, element.text]⟩]
  | .setValue name type values =>
      [⟨0, braced "SetDef" [name.text, type.text, spaced (values.map Literal.text)]⟩]

def Decl.linesOfAll : List Decl → List Line
  | [] => []
  | decl :: decls => decl.lines ++ Decl.linesOfAll decls

end

mutual

def Stmt.lines : Stmt → List Line
  | .assign target value => [⟨0, braced "StmtAssign" [target.text, value.text]⟩]
  | .ifThen condition thenBlock elseBlock =>
      enclosed (opened "StmtIf" [condition.text])
        (thenBlock.lines ++ Block.linesOfElse elseBlock)
  | .caseOf subject arms =>
      enclosed (opened "StmtCase" [subject.text]) (CaseArm.linesOfAll arms)
  | .forNext counter first last step body _ =>
      enclosed
        (opened "StmtFor" [counter.text, first.text, last.text, optionalText "no-step" step])
        body.lines
  | .whileDo condition body => enclosed (opened "StmtWhile" [condition.text]) body.lines
  | .repeatUntil body condition => enclosed (opened "StmtRepeat" [condition.text]) body.lines
  | .giveBack value => [⟨0, braced "StmtReturn" [value.text]⟩]
  | .call call => [⟨0, braced "StmtCall" [call.text]⟩]
  | .input target => [⟨0, braced "StmtInput" [target.text]⟩]
  | .output items => [⟨0, braced "StmtOutput" [spaced (items.map Expr.text)]⟩]
  | .file action => [⟨0, action.text⟩]

def CaseArm.lines : CaseArm → List Line
  | ⟨lower, none, body⟩ => enclosed (opened "Case" [lower.text]) body.lines
  | ⟨lower, some upper, body⟩ => enclosed (opened "Case" [lower.text, upper.text]) body.lines

def CaseArm.linesOfAll : List CaseArm → List Line
  | [] => []
  | arm :: arms => arm.lines ++ CaseArm.linesOfAll arms

def Block.lines : Block → List Line
  | ⟨items⟩ => enclosed (opened "Block" []) (BlockItem.linesOfAll items)

def Block.linesOfElse : Option Block → List Line
  | none => [⟨0, "no-else"⟩]
  | some block => block.lines

def BlockItem.lines : BlockItem → List Line
  | .decl decl => decl.lines
  | .stmt stmt => stmt.lines

def BlockItem.linesOfAll : List BlockItem → List Line
  | [] => []
  | item :: items => item.lines ++ BlockItem.linesOfAll items

end

def Item.lines : Item → List Line
  | .decl inner => inner.lines
  | .function name params returns body =>
      enclosed (opened "FuncDef" [returns.text, name.text, paramListText params]) body.lines
  | .procedure name params body =>
      enclosed (opened "ProcDef" [name.text, paramListText params]) body.lines
  | .stmt inner => inner.lines

def Program.lines (program : Program) : List Line :=
  enclosed (opened "CompUnit" []) (program.items.flatMap Item.lines)

/-! ### Joining lines -/

theorem Line.shown_deeper (width level : Nat) (line : Line) :
    line.deeper.shown width level = line.shown width (level + 1) := by
  have same : level + (line.depth + 1) = level + 1 + line.depth := by omega
  simp only [shown, deeper, same]

theorem ended_append (first second : List String) :
    ended (first ++ second) = ended first ++ ended second := by
  induction first with
  | nil => rw [List.nil_append, ended, String.empty_append]
  | cons text texts ih => simp only [List.cons_append, ended, ih, String.append_assoc]

theorem joinWith_concat (texts : List String) (last : String) :
    joinWith "\n" (texts ++ [last]) = ended texts ++ last := by
  induction texts with
  | nil => rw [List.nil_append, joinWith, ended, String.empty_append]
  | cons text texts ih =>
      rw [List.cons_append, joinWith_cons (List.append_ne_nil_of_right_ne_nil texts
        (List.cons_ne_nil last [])), ih, ended, ← String.append_assoc]

theorem joinWith_ended {texts : List String} (nonempty : texts ≠ []) :
    joinWith "\n" texts ++ "\n" = ended texts := by
  obtain rfl | ⟨init, last, rfl⟩ := List.eq_nil_or_concat texts
  · exact absurd rfl nonempty
  · rw [List.concat_eq_append, joinWith_concat, ended_append, ended, ended, String.append_empty,
      String.append_assoc]

/-! ### Counting brackets -/

theorem Line.count?_deeper (counter : Nat) (line : Line) :
    line.deeper.count? (counter + 1) = (line.count? counter).map (· + 1) := by
  have sameOpens : line.deeper.opens = line.opens := rfl
  have sameText : line.deeper.text = line.text := rfl
  have oneDeeper : line.deeper.depth = line.depth + 1 := rfl
  simp only [count?, sameOpens, sameText, oneDeeper, Nat.add_right_cancel_iff]
  repeat' split
  all_goals rfl

theorem count?_map_deeper (counter : Nat) (lines : List Line) :
    (lines.map Line.deeper).foldlM Line.count? (counter + 1) =
      (lines.foldlM Line.count? counter).map (· + 1) := by
  induction lines generalizing counter with
  | nil => rfl
  | cons line lines ih =>
      rw [List.map_cons, List.foldlM_cons, List.foldlM_cons, Line.count?_deeper]
      cases line.count? counter with
      | none => rfl
      | some next => exact ih next

theorem WellBracketed.append {first second : List Line} (firstBracketed : WellBracketed first)
    (secondBracketed : WellBracketed second) : WellBracketed (first ++ second) := by
  unfold WellBracketed at *
  rw [List.foldlM_append, firstBracketed]
  exact secondBracketed

theorem WellBracketed.enclosed {first : String} {inside : List Line}
    (opens : Line.opens ⟨0, first⟩ = true) (bracketed : WellBracketed inside) :
    WellBracketed (enclosed first inside) := by
  unfold WellBracketed at *
  have firstCounted : Line.count? 0 ⟨0, first⟩ = some 1 := by
    simp only [Line.count?, opens, if_true]
  have insideCounted := count?_map_deeper 0 inside
  rw [bracketed] at insideCounted
  rw [ScopeLint.enclosed, List.cons_append, List.foldlM_cons, firstCounted]
  change List.foldlM Line.count? 1 (inside.map Line.deeper ++ [⟨0, "\x7d"⟩]) = some 0
  rw [List.foldlM_append, insideCounted]
  decide

theorem WellBracketed.single {text : String} (notOpen : Line.opens ⟨0, text⟩ = false)
    (notClosing : text ≠ "\x7d") : WellBracketed [⟨0, text⟩] := by
  unfold WellBracketed
  rw [List.foldlM_cons, Line.count?, notOpen, if_neg Bool.false_ne_true, if_neg notClosing]
  rfl

theorem getLast?_braced (tag : String) (parts : List String) :
    (braced tag parts).toList.getLast? = some '\x7d' := by
  have ending : (" \x7d" : String).toList = [' ', '\x7d'] := by decide
  rw [braced, String.toList_append, ending, List.getLast?_append]
  rfl

theorem braced_ne_brace (tag : String) (parts : List String) : braced tag parts ≠ "\x7d" := by
  intro same
  have sameLength := congrArg (List.length ∘ String.toList) same
  have opening : (" \x7b " : String).toList.length = 3 := by decide
  have closing : ("\x7d" : String).toList.length = 1 := by decide
  simp only [braced, Function.comp_apply, String.toList_append, List.length_append, opening,
    closing] at sameLength
  omega

theorem wellBracketed_braced (tag : String) (parts : List String) :
    WellBracketed [⟨0, braced tag parts⟩] := by
  refine WellBracketed.single ?_ (braced_ne_brace tag parts)
  rw [Line.opens, getLast?_braced]
  decide

/-- A first line ends in its brace, or in the comma after its last part. -/
theorem opens_opened (tag : String) (parts : List String) :
    Line.opens ⟨0, opened tag parts⟩ = true := by
  have endsIn {text ending : String} {last : Char} (isLast : ending.toList.getLast? = some last) :
      (text ++ ending).toList.getLast? = some last := by
    rw [String.toList_append, List.getLast?_append, isLast]
    rfl
  have lastChar : (opened tag parts).toList.getLast? = some '\x7b' ∨
      (opened tag parts).toList.getLast? = some ',' := by
    obtain rfl | ⟨init, last, rfl⟩ := List.eq_nil_or_concat parts
    · left
      rw [opened, List.map_nil, String.join_nil, String.append_empty]
      exact endsIn (by decide)
    · right
      rw [List.concat_eq_append, opened, List.map_append, List.map_singleton, String.join_append,
        String.join_cons, String.join_nil, String.append_empty, opened.opening,
        ← String.append_assoc, ← String.append_assoc]
      exact endsIn (by decide)
  rcases lastChar with isBrace | isComma
  · rw [Line.opens, isBrace]
    rfl
  · rw [Line.opens, isComma]
    rfl

/-! ### Every node is laid out as its lines -/

/-- What is rendered one after another, with a newline after each, is one list of lines. -/
structure LaidOutAll (render : (width level : Nat) → List String) (lines : List Line) :
    Prop where
  shows : ∀ width level,
    ended (render width level) = ended (lines.map (Line.shown width level))
  bracketed : WellBracketed lines

theorem LaidOutAll.nil : LaidOutAll (fun _ _ => []) [] where
  shows _ _ := rfl
  bracketed := rfl

theorem LaidOutAll.cons {render : (width level : Nat) → String}
    {renderRest : (width level : Nat) → List String} {lines rest : List Line}
    (first : LaidOut render lines) (others : LaidOutAll renderRest rest) :
    LaidOutAll (fun width level => render width level :: renderRest width level)
      (lines ++ rest) where
  shows width level := by
    have notNil : lines.map (Line.shown width level) ≠ [] := by
      rw [ne_eq, List.map_eq_nil_iff]
      exact first.nonempty
    rw [ended, first.shows, showLines, joinWith_ended notNil, others.shows, List.map_append,
      ended_append]
  bracketed := first.bracketed.append others.bracketed

theorem LaidOut.all {render : (width level : Nat) → String} {lines : List Line}
    (laidOut : LaidOut render lines) :
    LaidOutAll (fun width level => [render width level]) lines := by
  have whole := LaidOutAll.cons laidOut .nil
  rw [List.append_nil] at whole
  exact whole

theorem LaidOut.braced (tag : String) (parts : List String) :
    LaidOut (fun width level => indentation width level ++ braced tag parts)
      [⟨0, ScopeLint.braced tag parts⟩] where
  nonempty := List.cons_ne_nil _ _
  shows _ _ := rfl
  bracketed := wellBracketed_braced tag parts

theorem LaidOutAll.surrounded {render : (width level : Nat) → List String}
    {inside : List Line} (laidOut : LaidOutAll render inside) (tag : String)
    (parts : List String) :
    LaidOut
      (fun width level =>
        surrounded (indentation width level) (opened tag parts) (render width (level + 1)))
      (enclosed (opened tag parts) inside) where
  nonempty := List.cons_ne_nil _ _
  shows width level := by
    have deeper : (inside.map Line.deeper).map (Line.shown width level) =
        inside.map (Line.shown width (level + 1)) := by
      rw [List.map_map]
      exact List.map_congr_left fun line _ => line.shown_deeper width level
    rw [showLines, enclosed, List.map_append, List.map_singleton, joinWith_concat, List.map_cons,
      deeper, ended, ← laidOut.shows]
    simp only [ScopeLint.surrounded, Line.shown, Nat.add_zero, String.append_assoc]
  bracketed := laidOut.bracketed.enclosed (opens_opened tag parts)

mutual

theorem Decl.laidOut :
    (decl : Decl) → LaidOut (fun width level => decl.render width level) decl.lines
  | .constant _ _ => .braced _ _
  | .var _ _ => .braced _ _
  | .array _ _ _ => .braced _ _
  | .enumeration _ _ => .braced _ _
  | .record _ fields => (Decl.laidOutAll fields).surrounded _ _
  | .pointer _ _ => .braced _ _
  | .set _ _ => .braced _ _
  | .setValue _ _ _ => .braced _ _

theorem Decl.laidOutAll :
    (decls : List Decl) →
      LaidOutAll (fun width level => Decl.renderAll width level decls) (Decl.linesOfAll decls)
  | [] => .nil
  | decl :: decls => .cons decl.laidOut (Decl.laidOutAll decls)

end

theorem FileStmt.laidOut (action : FileStmt) :
    LaidOut (fun width level => indentation width level ++ action.text) [⟨0, action.text⟩] := by
  cases action
  all_goals exact .braced _ _

mutual

theorem Stmt.laidOut :
    (stmt : Stmt) → LaidOut (fun width level => stmt.render width level) stmt.lines
  | .assign _ _ => .braced _ _
  | .ifThen _ thenBlock elseBlock =>
      (LaidOutAll.cons thenBlock.laidOut (Block.laidOutElse elseBlock).all).surrounded _ _
  | .caseOf _ arms => (CaseArm.laidOutAll arms).surrounded _ _
  | .forNext _ _ _ _ body _ => body.laidOut.all.surrounded _ _
  | .whileDo _ body => body.laidOut.all.surrounded _ _
  | .repeatUntil body _ => body.laidOut.all.surrounded _ _
  | .giveBack _ => .braced _ _
  | .call _ => .braced _ _
  | .input _ => .braced _ _
  | .output _ => .braced _ _
  | .file action => action.laidOut

theorem CaseArm.laidOut :
    (arm : CaseArm) → LaidOut (fun width level => arm.render width level) arm.lines
  | ⟨_, none, body⟩ => body.laidOut.all.surrounded _ _
  | ⟨_, some _, body⟩ => body.laidOut.all.surrounded _ _

theorem CaseArm.laidOutAll :
    (arms : List CaseArm) →
      LaidOutAll (fun width level => CaseArm.renderAll width level arms)
        (CaseArm.linesOfAll arms)
  | [] => .nil
  | arm :: arms => .cons arm.laidOut (CaseArm.laidOutAll arms)

theorem Block.laidOut :
    (block : Block) → LaidOut (fun width level => block.render width level) block.lines
  | ⟨items⟩ => (BlockItem.laidOutAll items).surrounded _ _

theorem Block.laidOutElse :
    (block : Option Block) →
      LaidOut (fun width level => Block.renderElse width level block) (Block.linesOfElse block)
  | none => ⟨List.cons_ne_nil _ _, fun _ _ => rfl, .single (by decide) (by decide)⟩
  | some block => block.laidOut

theorem BlockItem.laidOut :
    (item : BlockItem) → LaidOut (fun width level => item.render width level) item.lines
  | .decl decl => decl.laidOut
  | .stmt stmt => stmt.laidOut

theorem BlockItem.laidOutAll :
    (items : List BlockItem) →
      LaidOutAll (fun width level => BlockItem.renderAll width level items)
        (BlockItem.linesOfAll items)
  | [] => .nil
  | item :: items => .cons item.laidOut (BlockItem.laidOutAll items)

end

theorem Item.laidOut (item : Item) :
    LaidOut (fun width level => item.render width level) item.lines := by
  cases item with
  | decl inner => exact inner.laidOut
  | function name params returns body => exact body.laidOut.all.surrounded _ _
  | procedure name params body => exact body.laidOut.all.surrounded _ _
  | stmt inner => exact inner.laidOut

theorem Item.laidOutAll (items : List Item) :
    LaidOutAll (fun width level => items.map (Item.render width level))
      (items.flatMap Item.lines) := by
  induction items with
  | nil => exact .nil
  | cons item items ih =>
      rw [List.flatMap_cons]
      exact .cons item.laidOut ih

theorem indentation_zero (width : Nat) : indentation width 0 = "" := by
  rw [indentation, Nat.zero_mul]
  rfl

theorem Program.wellBracketed_lines (program : Program) : WellBracketed program.lines :=
  (Item.laidOutAll program.items).bracketed.enclosed (opens_opened "CompUnit" [])

theorem Program.dump_eq (width : Nat) (program : Program) :
    program.dump width = showLines width 0 program.lines := by
  have whole := ((Item.laidOutAll program.items).surrounded "CompUnit" []).shows width 0
  rw [indentation_zero] at whole
  exact whole

/-- A rendering that is one list of lines on every level and with every width, so that from one
level to the next each line moves in by one indent. -/
def HasLayout (render : (width level : Nat) → String) : Prop :=
  ∃ lines, LaidOut render lines ∧ ∀ width level,
    render width (level + 1) =
      joinWith "\n" (lines.map fun line => indentation width 1 ++ line.shown width level)

theorem Line.shown_succ (width level : Nat) (line : Line) :
    line.shown width (level + 1) = indentation width 1 ++ line.shown width level := by
  have oneMore : level + 1 + line.depth = 1 + (level + line.depth) := by omega
  have joined : indentation width (1 + (level + line.depth)) =
      indentation width 1 ++ indentation width (level + line.depth) := by
    rw [indentation, Nat.add_mul, ← List.replicate_append_replicate, String.ofList_append]
    rfl
  rw [shown, shown, oneMore, joined, String.append_assoc]

theorem LaidOut.hasLayout {render : (width level : Nat) → String} {lines : List Line}
    (laidOut : LaidOut render lines) : HasLayout render := by
  refine ⟨lines, laidOut, fun width level => ?_⟩
  rw [laidOut.shows, showLines]
  exact congrArg _ (List.map_congr_left fun line _ => line.shown_succ width level)

/-- Every node that spreads over lines has one list of them, apart from the level that it stands
on and from the width of an indent; a program stands on the outermost level. -/
theorem renderings_haveLayouts :
    (∀ item : Item, HasLayout fun width level => item.render width level) ∧
    (∀ decl : Decl, HasLayout fun width level => decl.render width level) ∧
    (∀ block : Block, HasLayout fun width level => block.render width level) ∧
    (∀ stmt : Stmt, HasLayout fun width level => stmt.render width level) ∧
    ∀ program : Program, ∃ lines, WellBracketed lines ∧
      ∀ width, program.dump width = showLines width 0 lines :=
  ⟨fun item => item.laidOut.hasLayout, fun decl => decl.laidOut.hasLayout,
    fun block => block.laidOut.hasLayout, fun stmt => stmt.laidOut.hasLayout,
    fun program => ⟨program.lines, program.wellBracketed_lines,
      fun width => program.dump_eq width⟩⟩

end ScopeLint
