import ScopeLint.Proofs.Tree.Declarations

/-!
A dump can be read in one way only. Two programs whose names are words have the same dump
exactly if they differ in nothing but the lines of identifiers and the names after NEXT, for
every width of the indentation.
-/

set_option autoImplicit false

namespace ScopeLint

/-! ### Plain programs -/

mutual

/-- The name after a NEXT, which no dump shows, may be any. -/
def Stmt.plain : Stmt → Bool
  | .assign target value => target.plain && value.plain
  | .ifThen condition thenBlock elseBlock =>
      condition.plain && thenBlock.plain && Block.plainElse elseBlock
  | .caseOf subject arms => isWord subject.name && CaseArm.plainAll arms
  | .forNext counter first last step body _ =>
      isWord counter.name && first.plain && last.plain && step.all Expr.plain && body.plain
  | .whileDo condition body => condition.plain && body.plain
  | .repeatUntil body condition => condition.plain && body.plain
  | .giveBack value => value.plain
  | .call call => call.plain
  | .input target => isWord target.name
  | .output items => Expr.plainAll items
  | .file action => action.plain

def CaseArm.plain : CaseArm → Bool
  | ⟨lower, upper, body⟩ => lower.plain && upper.all Expr.plain && body.plain

def CaseArm.plainAll : List CaseArm → Bool
  | [] => true
  | arm :: arms => arm.plain && CaseArm.plainAll arms

def Block.plain : Block → Bool
  | ⟨items⟩ => BlockItem.plainAll items

def Block.plainElse : Option Block → Bool
  | none => true
  | some block => block.plain

def BlockItem.plain : BlockItem → Bool
  | .decl decl => decl.plain
  | .stmt stmt => stmt.plain

def BlockItem.plainAll : List BlockItem → Bool
  | [] => true
  | item :: items => item.plain && BlockItem.plainAll items

end

def Item.plain : Item → Bool
  | .decl inner => inner.plain
  | .function name params returns body =>
      returns.plain && isWord name.name && params.all (List.all · Param.plain) && body.plain
  | .procedure name params body =>
      isWord name.name && params.all (List.all · Param.plain) && body.plain
  | .stmt inner => inner.plain

/-- All names and members are words, no type is named like a built-in one, no string holds a
double quote and no literal is a real. -/
def Program.plain (program : Program) : Bool :=
  program.items.all Item.plain

/-- A program without the lines of its identifiers and the names after NEXT. -/
def Program.erased (program : Program) : Program :=
  program.relabel .unlined .blank

/-! ### Tags of statements and items -/

def Stmt.tag : Stmt → String
  | .assign _ _ => "StmtAssign"
  | .ifThen _ _ _ => "StmtIf"
  | .caseOf _ _ => "StmtCase"
  | .forNext _ _ _ _ _ _ => "StmtFor"
  | .whileDo _ _ => "StmtWhile"
  | .repeatUntil _ _ => "StmtRepeat"
  | .giveBack _ => "StmtReturn"
  | .call _ => "StmtCall"
  | .input _ => "StmtInput"
  | .output _ => "StmtOutput"
  | .file action => action.tag

theorem Stmt.isWord_tag (stmt : Stmt) : isWord stmt.tag = true := by
  cases stmt with
  | file action => exact action.isWord_tag
  | _ =>
      rw [tag]
      decide

theorem Stmt.fronted (width level : Nat) (stmt : Stmt) :
    Fronted (indentation width level) (IsTag [stmt.tag]) (stmt.render width level) := by
  have bare : Bare stmt.tag.toList := bare_of_isWord stmt.isWord_tag
  cases stmt with
  | file action => exact action.fronted.indented
  | ifThen condition thenBlock elseBlock =>
      exact fronted_surrounded List.mem_cons_self bare _ _
  | caseOf subject arms => exact fronted_surrounded List.mem_cons_self bare _ _
  | forNext counter first last step body next =>
      exact fronted_surrounded List.mem_cons_self bare _ _
  | whileDo condition body => exact fronted_surrounded List.mem_cons_self bare _ _
  | repeatUntil body condition => exact fronted_surrounded List.mem_cons_self bare _ _
  | _ => exact (fronted_braced List.mem_cons_self bare _).indented

theorem Stmt.forces_of_tag_ne {width level : Nat} {left right : Stmt} {fact : Prop}
    (differ : left.tag ≠ right.tag) :
    Forces LineEnds (left.render width level) (right.render width level) fact :=
  (Forces.of_fronts (left.fronted width level) (right.fronted width level)
    (IsTag.disjoint (by simpa using differ))).line

/-- The first line of an arm. -/
def CaseArm.opened (lower : Expr) : Option Expr → String
  | none => ScopeLint.opened "Case" [lower.text]
  | some upper => ScopeLint.opened "Case" [lower.text, upper.text]

theorem CaseArm.render_eq (width level : Nat) (lower : Expr) (upper : Option Expr)
    (body : Block) :
    (CaseArm.mk lower upper body).render width level =
      surrounded (indentation width level) (CaseArm.opened lower upper)
        [body.render width (level + 1)] := by
  cases upper
  all_goals rfl

theorem CaseArm.startsLine (width level : Nat) (arm : CaseArm) :
    StartsLine (arm.render width level) := by
  have fronted : Fronted (indentation width level) (IsTag ["Case"]) (arm.render width level) := by
    rcases arm with ⟨lower, upper, body⟩
    cases upper with
    | none => exact fronted_surrounded List.mem_cons_self (by decide) _ _
    | some upper => exact fronted_surrounded List.mem_cons_self (by decide) _ _
  exact fronted.startsLine fun _ isTag => (List.mem_singleton.mp isTag).symm ▸ by decide

theorem Block.forces_none (width level : Nat) (block : Block) {fact : Prop} :
    Forces LineEnds (block.render width level) (Block.renderElse width level none) fact := by
  rcases block with ⟨items⟩
  have fronted : Fronted (indentation width level) (IsTag ["Block"])
      ((Block.mk items).render width level) :=
    fronted_surrounded List.mem_cons_self (by decide) _ _
  have missing : Fronted (indentation width level) (IsTag ["no-else"])
      (Block.renderElse width level none) :=
    (fronted_word List.mem_cons_self (by decide)).indented
  exact (Forces.of_fronts fronted missing (IsTag.disjoint (by decide))).line

def declTags : List String :=
  ["ConstDecl", "VarDecl", "VarDeclArray", "Enum", "Record", "Pointer", "Set", "SetDef"]

def stmtTags : List String :=
  ["StmtAssign", "StmtIf", "StmtCase", "StmtFor", "StmtWhile", "StmtRepeat", "StmtReturn",
    "StmtCall", "StmtInput", "StmtOutput"]

theorem Decl.tag_mem_declTags (decl : Decl) : decl.tag ∈ declTags := by
  cases decl
  all_goals
    rw [tag]
    decide

theorem Stmt.tag_mem_stmtTags (stmt : Stmt) : stmt.tag ∈ stmtTags ++ fileTags := by
  cases stmt with
  | file action => exact List.mem_append_right _ action.tag_mem_fileTags
  | _ =>
      rw [tag]
      decide

theorem Decl.tag_ne {tag : String} (noDecl : tag ∉ declTags) (decl : Decl) : decl.tag ≠ tag :=
  fun same => noDecl (same ▸ decl.tag_mem_declTags)

theorem Stmt.tag_ne {tag : String} (noStmt : tag ∉ stmtTags ++ fileTags) (stmt : Stmt) :
    stmt.tag ≠ tag :=
  fun same => noStmt (same ▸ stmt.tag_mem_stmtTags)

theorem Decl.tag_ne_stmt_tag (decl : Decl) (stmt : Stmt) : decl.tag ≠ stmt.tag := by
  have disjoint : ∀ tag ∈ stmtTags ++ fileTags, tag ∉ declTags := by decide
  exact decl.tag_ne (disjoint _ stmt.tag_mem_stmtTags)

/-- A statement that is none on files. -/
theorem Stmt.forces_file {width level : Nat} {stmt : Stmt} {action : FileStmt} {fact : Prop}
    (noFile : stmt.tag ∉ fileTags) :
    Forces LineEnds (stmt.render width level) ((Stmt.file action).render width level) fact :=
  forces_of_tag_ne fun same => noFile (same ▸ action.tag_mem_fileTags)

theorem Decl.forces_stmt {width level : Nat} {decl : Decl} {stmt : Stmt} {fact : Prop} :
    Forces LineEnds (decl.render width level) (stmt.render width level) fact :=
  (Forces.of_fronts (decl.fronted width level) (stmt.fronted width level)
    (IsTag.disjoint (by simpa using decl.tag_ne_stmt_tag stmt))).line

theorem BlockItem.startsLine (width level : Nat) (item : BlockItem) :
    StartsLine (item.render width level) := by
  cases item with
  | decl decl => exact decl.startsLine width level
  | stmt stmt =>
      exact (stmt.fronted width level).startsLine fun _ isTag =>
        (List.mem_singleton.mp isTag).symm ▸ stmt.isWord_tag

/-! ### Forcing statements -/

theorem Expr.forcedSpaced {lefts rights : List Expr} (plainLefts : plainAll lefts = true)
    (plainRights : plainAll rights = true) :
    Forces ItemsEnd (spaced (lefts.map text)) (spaced (rights.map text))
      (lefts.map (relabel .unlined) = rights.map (relabel .unlined)) := by
  have items := (Expr.forcedItems lefts rights plainLefts plainRights).spaced
  rwa [texts_eq_map, texts_eq_map, relabelAll_eq_map, relabelAll_eq_map] at items

theorem optionalText_forces {left right : Option Expr} (plainLeft : left.all Expr.plain = true)
    (plainRight : right.all Expr.plain = true) :
    Forces WordEnds (optionalText "no-step" left) (optionalText "no-step" right)
      (left.map (Expr.relabel .unlined) = right.map (Expr.relabel .unlined)) := by
  have noTag (expr : Expr) : ∀ tag ∈ expr.tags, tag ∉ ["no-step"] := by
    cases expr
    all_goals
      rw [Expr.tags]
      decide
  cases left with
  | none =>
      cases right with
      | none => exact Forces.self.imp fun _ => rfl
      | some right =>
          exact (Expr.forces_of_word plainRight (by decide) (by decide) (noTag right)).symm
  | some left =>
      cases right with
      | none => exact Expr.forces_of_word plainLeft (by decide) (by decide) (noTag left)
      | some right =>
          exact (Expr.forces left right plainLeft plainRight).imp fun same => congrArg some same

/-- The first line of a range of values has one part more than that of a single value. -/
theorem CaseArm.forces_of_upper {left right upper : String} {fact fact' : Prop}
    (forces : Forces PartEnds left right fact) :
    Forces LineEnds (ScopeLint.opened "Case" [left]) (ScopeLint.opened "Case" [right, upper])
      fact' := by
  intro r s endsLeft _ same
  rcases endsLeft with ⟨r, rfl⟩
  have comma : ("," : String).toList = [','] := by decide
  have blank : (" " : String).toList = [' '] := by decide
  simp only [ScopeLint.opened, opened.opening, List.map_cons, List.map_nil, String.join_cons,
    String.join_nil, String.append_empty, String.toList_append, blank, comma,
    List.append_assoc, List.cons_append, List.nil_append] at same
  replace same := List.append_cancel_left (List.append_cancel_left same)
  have partSame := forces _ _ (.inl ⟨_, rfl⟩) (.inl ⟨_, rfl⟩) (List.cons.inj same).2
  exact absurd (List.cons.inj (List.cons.inj partSame.2).2).1 (by decide)

/-- The first line of an arm. -/
theorem CaseArm.forces_opened {lower lower' : Expr} {upper upper' : Option Expr}
    (plainLower : lower.plain = true) (plainLower' : lower'.plain = true)
    (plainUpper : upper.all Expr.plain = true) (plainUpper' : upper'.all Expr.plain = true) :
    Forces LineEnds (CaseArm.opened lower upper) (CaseArm.opened lower' upper')
      (lower.relabel .unlined = lower'.relabel .unlined ∧
        upper.map (Expr.relabel .unlined) = upper'.map (Expr.relabel .unlined)) := by
  have lowerForces := (Expr.forces lower lower' plainLower plainLower').part
  cases upper with
  | none =>
      cases upper' with
      | none => exact (Forces.opened "Case" (.last lowerForces)).imp fun same => ⟨same, rfl⟩
      | some upper' => exact forces_of_upper lowerForces
  | some upper =>
      cases upper' with
      | none => exact (forces_of_upper lowerForces.symm).symm
      | some upper' =>
          refine (Forces.opened "Case" (.cons lowerForces
            (.last (Expr.forces upper upper' plainUpper plainUpper').part))).imp ?_
          exact fun same => ⟨same.1, congrArg some same.2⟩

mutual

theorem Stmt.forces (width level : Nat) (left right : Stmt) (plainLeft : left.plain = true)
    (plainRight : right.plain = true) :
    Forces LineEnds (left.render width level) (right.render width level)
      (left.relabel .unlined .blank = right.relabel .unlined .blank) := by
  cases left with
  | assign target value =>
      cases right with
      | assign target' value' =>
          rw [Stmt.plain, Bool.and_eq_true] at plainLeft plainRight
          refine (Forces.indented _ (Forces.braced "StmtAssign"
            (.cons (LValue.forces _ _ plainLeft.1 plainRight.1).part
              (.last (Expr.forces _ _ plainLeft.2 plainRight.2).part)))).imp ?_
          rintro ⟨sameTarget, sameValue⟩
          rw [Stmt.relabel, Stmt.relabel, sameTarget, sameValue]
      | file action => exact Stmt.forces_file (by rw [Stmt.tag]; decide)
      | _ => exact Stmt.forces_of_tag_ne (by simp [Stmt.tag])
  | ifThen condition thenBlock elseBlock =>
      cases right with
      | ifThen condition' thenBlock' elseBlock' =>
          rw [Stmt.plain, Bool.and_eq_true, Bool.and_eq_true] at plainLeft plainRight
          refine (Forces.surrounded
            (Forces.opened "StmtIf" (.last (Expr.forces _ _ plainLeft.1.1 plainRight.1.1).part))
            (.cons (Block.forces width (level + 1) thenBlock thenBlock' plainLeft.1.2
                plainRight.1.2)
              (.cons (Block.forcesElse width (level + 1) elseBlock elseBlock' plainLeft.2
                plainRight.2) (.nil _)))).imp ?_
          rintro ⟨sameCondition, sameThen, sameElse, _⟩
          rw [Stmt.relabel, Stmt.relabel, sameCondition, sameThen, sameElse]
      | file action => exact Stmt.forces_file (by rw [Stmt.tag]; decide)
      | _ => exact Stmt.forces_of_tag_ne (by simp [Stmt.tag])
  | caseOf subject arms =>
      cases right with
      | caseOf subject' arms' =>
          rw [Stmt.plain, Bool.and_eq_true] at plainLeft plainRight
          refine (Forces.surrounded
            (Forces.opened "StmtCase" (.last (Identifier.forces plainLeft.1 plainRight.1).part))
            (CaseArm.forcesInside width level (level + 1) arms arms' plainLeft.2
              plainRight.2)).imp ?_
          rintro ⟨sameSubject, sameArms⟩
          rw [Stmt.relabel, Stmt.relabel, sameSubject, sameArms]
      | file action => exact Stmt.forces_file (by rw [Stmt.tag]; decide)
      | _ => exact Stmt.forces_of_tag_ne (by simp [Stmt.tag])
  | forNext counter first last step body next =>
      cases right with
      | forNext counter' first' last' step' body' next' =>
          simp only [Stmt.plain, Bool.and_eq_true] at plainLeft plainRight
          rcases plainLeft with ⟨⟨⟨⟨plainCounter, plainFirst⟩, plainLast⟩, plainStep⟩, plainBody⟩
          rcases plainRight with
            ⟨⟨⟨⟨plainCounter', plainFirst'⟩, plainLast'⟩, plainStep'⟩, plainBody'⟩
          have parts := ForcedParts.cons (Identifier.forces plainCounter plainCounter').part
            (.cons (Expr.forces first first' plainFirst plainFirst').part
              (.cons (Expr.forces last last' plainLast plainLast').part
                (.last (optionalText_forces plainStep plainStep').part)))
          refine (Forces.surrounded (.opened "StmtFor" parts)
            (.cons (Block.forces width (level + 1) body body' plainBody plainBody')
              (.nil _))).imp ?_
          rintro ⟨⟨sameCounter, sameFirst, sameLast, sameStep⟩, sameBody, _⟩
          rw [Stmt.relabel, Stmt.relabel, sameCounter, sameFirst, sameLast, sameStep, sameBody,
            Identifier.blank, Identifier.blank]
      | file action => exact Stmt.forces_file (by rw [Stmt.tag]; decide)
      | _ => exact Stmt.forces_of_tag_ne (by simp [Stmt.tag])
  | whileDo condition body =>
      cases right with
      | whileDo condition' body' =>
          rw [Stmt.plain, Bool.and_eq_true] at plainLeft plainRight
          refine (Forces.surrounded
            (Forces.opened "StmtWhile" (.last (Expr.forces _ _ plainLeft.1 plainRight.1).part))
            (.cons (Block.forces width (level + 1) body body' plainLeft.2 plainRight.2)
              (.nil _))).imp ?_
          rintro ⟨sameCondition, sameBody, _⟩
          rw [Stmt.relabel, Stmt.relabel, sameCondition, sameBody]
      | file action => exact Stmt.forces_file (by rw [Stmt.tag]; decide)
      | _ => exact Stmt.forces_of_tag_ne (by simp [Stmt.tag])
  | repeatUntil body condition =>
      cases right with
      | repeatUntil body' condition' =>
          rw [Stmt.plain, Bool.and_eq_true] at plainLeft plainRight
          refine (Forces.surrounded
            (Forces.opened "StmtRepeat" (.last (Expr.forces _ _ plainLeft.1 plainRight.1).part))
            (.cons (Block.forces width (level + 1) body body' plainLeft.2 plainRight.2)
              (.nil _))).imp ?_
          rintro ⟨sameCondition, sameBody, _⟩
          rw [Stmt.relabel, Stmt.relabel, sameCondition, sameBody]
      | file action => exact Stmt.forces_file (by rw [Stmt.tag]; decide)
      | _ => exact Stmt.forces_of_tag_ne (by simp [Stmt.tag])
  | giveBack value =>
      cases right with
      | giveBack value' =>
          refine (Forces.indented _ (Forces.braced "StmtReturn"
            (.last (Expr.forces _ _ plainLeft plainRight).part))).imp ?_
          intro sameValue
          rw [Stmt.relabel, Stmt.relabel, sameValue]
      | file action => exact Stmt.forces_file (by rw [Stmt.tag]; decide)
      | _ => exact Stmt.forces_of_tag_ne (by simp [Stmt.tag])
  | call call =>
      cases right with
      | call call' =>
          refine (Forces.indented _ (Forces.braced "StmtCall"
            (.last (Call.forces _ _ plainLeft plainRight).part))).imp ?_
          intro sameCall
          rw [Stmt.relabel, Stmt.relabel, sameCall]
      | file action => exact Stmt.forces_file (by rw [Stmt.tag]; decide)
      | _ => exact Stmt.forces_of_tag_ne (by simp [Stmt.tag])
  | input target =>
      cases right with
      | input target' =>
          refine (Forces.indented _ (Forces.braced "StmtInput"
            (.last (Identifier.forces plainLeft plainRight).part))).imp ?_
          intro sameTarget
          rw [Stmt.relabel, Stmt.relabel, sameTarget]
      | file action => exact Stmt.forces_file (by rw [Stmt.tag]; decide)
      | _ => exact Stmt.forces_of_tag_ne (by simp [Stmt.tag])
  | output items =>
      cases right with
      | output items' =>
          refine (Forces.indented _ (Forces.braced "StmtOutput"
            (.last (Expr.forcedSpaced plainLeft plainRight).items))).imp ?_
          intro sameItems
          rw [Stmt.relabel, Stmt.relabel, sameItems]
      | file action => exact Stmt.forces_file (by rw [Stmt.tag]; decide)
      | _ => exact Stmt.forces_of_tag_ne (by simp [Stmt.tag])
  | file action =>
      cases right with
      | file action' =>
          refine (Forces.indented _ (FileStmt.forces plainLeft plainRight)).line.imp fun same => ?_
          rw [Stmt.relabel, Stmt.relabel, same]
      | _ => exact (Stmt.forces_file (by rw [Stmt.tag]; decide)).symm
termination_by structural left

theorem CaseArm.forces (width level : Nat) (left right : CaseArm)
    (plainLeft : left.plain = true) (plainRight : right.plain = true) :
    Forces LineEnds (left.render width level) (right.render width level)
      (left.relabel .unlined .blank = right.relabel .unlined .blank) := by
  rcases left with ⟨lower, upper, body⟩
  rcases right with ⟨lower', upper', body'⟩
  rw [CaseArm.plain, Bool.and_eq_true, Bool.and_eq_true] at plainLeft plainRight
  rw [CaseArm.render_eq, CaseArm.render_eq]
  refine (Forces.surrounded
    (CaseArm.forces_opened plainLeft.1.1 plainRight.1.1 plainLeft.1.2 plainRight.1.2)
    (.cons (Block.forces width (level + 1) body body' plainLeft.2 plainRight.2)
      (.nil _))).imp ?_
  rintro ⟨⟨sameLower, sameUpper⟩, sameBody, _⟩
  rw [CaseArm.relabel, CaseArm.relabel, sameLower, sameUpper, sameBody]
termination_by structural left

theorem CaseArm.forcesInside (width level inner : Nat) (lefts rights : List CaseArm)
    (plainLefts : CaseArm.plainAll lefts = true) (plainRights : CaseArm.plainAll rights = true) :
    ForcesInside (indentation width level) (CaseArm.renderAll width inner lefts)
      (CaseArm.renderAll width inner rights)
      (CaseArm.relabelAll .unlined .blank lefts = CaseArm.relabelAll .unlined .blank rights) := by
  cases lefts with
  | nil =>
      cases rights with
      | nil => exact (ForcesInside.nil _).imp fun _ => rfl
      | cons right rights => exact .shorter (right.startsLine width inner)
  | cons left lefts =>
      rw [CaseArm.plainAll, Bool.and_eq_true] at plainLefts
      cases rights with
      | nil => exact .longer (left.startsLine width inner)
      | cons right rights =>
          rw [CaseArm.plainAll, Bool.and_eq_true] at plainRights
          refine (ForcesInside.cons
            (CaseArm.forces width inner left right plainLefts.1 plainRights.1)
            (CaseArm.forcesInside width level inner lefts rights plainLefts.2
              plainRights.2)).imp ?_
          rintro ⟨same, sameRest⟩
          rw [CaseArm.relabelAll, CaseArm.relabelAll, same, sameRest]
termination_by structural lefts

theorem Block.forces (width level : Nat) (left right : Block) (plainLeft : left.plain = true)
    (plainRight : right.plain = true) :
    Forces LineEnds (left.render width level) (right.render width level)
      (left.relabel .unlined .blank = right.relabel .unlined .blank) := by
  rcases left with ⟨items⟩
  rcases right with ⟨items'⟩
  refine (Forces.surrounded Forces.self
    (BlockItem.forcesInside width level (level + 1) items items' plainLeft plainRight)).imp ?_
  rintro ⟨_, sameItems⟩
  rw [Block.relabel, Block.relabel, sameItems]
termination_by structural left

theorem Block.forcesElse (width level : Nat) (left right : Option Block)
    (plainLeft : Block.plainElse left = true) (plainRight : Block.plainElse right = true) :
    Forces LineEnds (Block.renderElse width level left) (Block.renderElse width level right)
      (Block.relabelElse .unlined .blank left = Block.relabelElse .unlined .blank right) := by
  cases left with
  | none =>
      cases right with
      | none => exact Forces.self.imp fun _ => rfl
      | some right => exact (Block.forces_none width level right).symm
  | some left =>
      cases right with
      | none => exact Block.forces_none width level left
      | some right =>
          refine (Block.forces width level left right plainLeft plainRight).imp fun same => ?_
          rw [Block.relabelElse, Block.relabelElse, same]
termination_by structural left

theorem BlockItem.forces (width level : Nat) (left right : BlockItem)
    (plainLeft : left.plain = true) (plainRight : right.plain = true) :
    Forces LineEnds (left.render width level) (right.render width level)
      (left.relabel .unlined .blank = right.relabel .unlined .blank) := by
  cases left with
  | decl decl =>
      cases right with
      | decl decl' =>
          refine (Decl.forces width level decl decl' plainLeft plainRight).imp fun same => ?_
          rw [BlockItem.relabel, BlockItem.relabel, same]
      | stmt stmt' => exact Decl.forces_stmt
  | stmt stmt =>
      cases right with
      | decl decl' => exact Decl.forces_stmt.symm
      | stmt stmt' =>
          refine (Stmt.forces width level stmt stmt' plainLeft plainRight).imp fun same => ?_
          rw [BlockItem.relabel, BlockItem.relabel, same]
termination_by structural left

theorem BlockItem.forcesInside (width level inner : Nat) (lefts rights : List BlockItem)
    (plainLefts : BlockItem.plainAll lefts = true)
    (plainRights : BlockItem.plainAll rights = true) :
    ForcesInside (indentation width level) (BlockItem.renderAll width inner lefts)
      (BlockItem.renderAll width inner rights)
      (BlockItem.relabelAll .unlined .blank lefts =
        BlockItem.relabelAll .unlined .blank rights) := by
  cases lefts with
  | nil =>
      cases rights with
      | nil => exact (ForcesInside.nil _).imp fun _ => rfl
      | cons right rights => exact .shorter (right.startsLine width inner)
  | cons left lefts =>
      rw [BlockItem.plainAll, Bool.and_eq_true] at plainLefts
      cases rights with
      | nil => exact .longer (left.startsLine width inner)
      | cons right rights =>
          rw [BlockItem.plainAll, Bool.and_eq_true] at plainRights
          refine (ForcesInside.cons
            (BlockItem.forces width inner left right plainLefts.1 plainRights.1)
            (BlockItem.forcesInside width level inner lefts rights plainLefts.2
              plainRights.2)).imp ?_
          rintro ⟨same, sameRest⟩
          rw [BlockItem.relabelAll, BlockItem.relabelAll, same, sameRest]
termination_by structural lefts

end

/-! ### Forcing programs -/

theorem Item.forces_routine {width level : Nat} {tag : String} {lefts rights : List String}
    {facts : Prop} {body body' : Block} (parts : ForcedParts lefts rights facts)
    (plainBody : body.plain = true) (plainBody' : body'.plain = true) :
    Forces LineEnds
      (surrounded (indentation width level) (opened tag lefts) [body.render width (level + 1)])
      (surrounded (indentation width level) (opened tag rights) [body'.render width (level + 1)])
      (facts ∧ body.relabel .unlined .blank = body'.relabel .unlined .blank) :=
  (Forces.surrounded (.opened tag parts)
    (.cons (Block.forces width (level + 1) body body' plainBody plainBody') (.nil _))).imp
    fun same => ⟨same.1, same.2.1⟩

def Item.tag : Item → String
  | .decl inner => inner.tag
  | .function _ _ _ _ => "FuncDef"
  | .procedure _ _ _ => "ProcDef"
  | .stmt inner => inner.tag

theorem Item.isWord_tag (item : Item) : isWord item.tag = true := by
  cases item with
  | decl inner => exact inner.isWord_tag
  | stmt inner => exact inner.isWord_tag
  | _ =>
      rw [tag]
      decide

theorem Item.fronted (width level : Nat) (item : Item) :
    Fronted (indentation width level) (IsTag [item.tag]) (item.render width level) := by
  cases item with
  | decl inner => exact inner.fronted width level
  | stmt inner => exact inner.fronted width level
  | _ => exact fronted_surrounded List.mem_cons_self (by rw [tag]; decide) _ _

theorem Item.startsLine (width level : Nat) (item : Item) :
    StartsLine (item.render width level) :=
  (item.fronted width level).startsLine fun _ isTag =>
    (List.mem_singleton.mp isTag).symm ▸ item.isWord_tag

theorem Item.forces_of_tag_ne {width level : Nat} {left right : Item} {fact : Prop}
    (differ : left.tag ≠ right.tag) :
    Forces LineEnds (left.render width level) (right.render width level) fact :=
  (Forces.of_fronts (left.fronted width level) (right.fronted width level)
    (IsTag.disjoint (by simpa using differ))).line

theorem Item.forces (width level : Nat) (left right : Item) (plainLeft : left.plain = true)
    (plainRight : right.plain = true) :
    Forces LineEnds (left.render width level) (right.render width level)
      (left.relabel .unlined .blank = right.relabel .unlined .blank) := by
  cases left with
  | decl inner =>
      cases right with
      | decl inner' =>
          refine (Decl.forces width level inner inner' plainLeft plainRight).imp fun same => ?_
          rw [relabel, relabel, same]
      | stmt inner' => exact Decl.forces_stmt
      | _ => exact forces_of_tag_ne (Decl.tag_ne (by rw [tag]; decide) inner)
  | function name params returns body =>
      cases right with
      | function name' params' returns' body' =>
          simp only [plain, Bool.and_eq_true] at plainLeft plainRight
          rcases plainLeft with ⟨⟨⟨plainReturns, wordName⟩, plainParams⟩, plainBody⟩
          rcases plainRight with ⟨⟨⟨plainReturns', wordName'⟩, plainParams'⟩, plainBody'⟩
          have parts := ForcedParts.cons (TypeName.forces plainReturns plainReturns').part
            (.cons (Identifier.forces wordName wordName').part
              (.last (paramListText_forces plainParams plainParams')))
          refine (Item.forces_routine parts plainBody plainBody').imp ?_
          rintro ⟨⟨sameReturns, sameName, sameParams⟩, sameBody⟩
          rw [relabel, relabel, sameReturns, sameName, sameParams, sameBody]
      | procedure _ _ _ => exact forces_of_tag_ne (by rw [tag, tag]; decide)
      | decl inner' => exact forces_of_tag_ne (Decl.tag_ne (by rw [tag]; decide) inner').symm
      | stmt inner' => exact forces_of_tag_ne (Stmt.tag_ne (by rw [tag]; decide) inner').symm
  | procedure name params body =>
      cases right with
      | procedure name' params' body' =>
          simp only [plain, Bool.and_eq_true] at plainLeft plainRight
          rcases plainLeft with ⟨⟨wordName, plainParams⟩, plainBody⟩
          rcases plainRight with ⟨⟨wordName', plainParams'⟩, plainBody'⟩
          have parts := ForcedParts.cons (Identifier.forces wordName wordName').part
            (.last (paramListText_forces plainParams plainParams'))
          refine (Item.forces_routine parts plainBody plainBody').imp ?_
          rintro ⟨⟨sameName, sameParams⟩, sameBody⟩
          rw [relabel, relabel, sameName, sameParams, sameBody]
      | function _ _ _ _ => exact forces_of_tag_ne (by rw [tag, tag]; decide)
      | decl inner' => exact forces_of_tag_ne (Decl.tag_ne (by rw [tag]; decide) inner').symm
      | stmt inner' => exact forces_of_tag_ne (Stmt.tag_ne (by rw [tag]; decide) inner').symm
  | stmt inner =>
      cases right with
      | decl inner' => exact Decl.forces_stmt.symm
      | stmt inner' =>
          refine (Stmt.forces width level inner inner' plainLeft plainRight).imp fun same => ?_
          rw [relabel, relabel, same]
      | _ => exact forces_of_tag_ne (Stmt.tag_ne (by rw [tag]; decide) inner)

theorem Item.forcesInside (width level inner : Nat) (lefts rights : List Item)
    (plainLefts : lefts.all Item.plain = true) (plainRights : rights.all Item.plain = true) :
    ForcesInside (indentation width level) (lefts.map (Item.render width inner))
      (rights.map (Item.render width inner))
      (lefts.map (Item.relabel .unlined .blank) = rights.map (Item.relabel .unlined .blank)) := by
  induction lefts generalizing rights with
  | nil =>
      cases rights with
      | nil => exact (ForcesInside.nil _).imp fun _ => rfl
      | cons right rights => exact .shorter (right.startsLine width inner)
  | cons left lefts ih =>
      rw [List.all_cons, Bool.and_eq_true] at plainLefts
      cases rights with
      | nil => exact .longer (left.startsLine width inner)
      | cons right rights =>
          rw [List.all_cons, Bool.and_eq_true] at plainRights
          refine (ForcesInside.cons
            (Item.forces width inner left right plainLefts.1 plainRights.1)
            (ih rights plainLefts.2 plainRights.2)).imp ?_
          rintro ⟨same, sameRest⟩
          rw [List.map_cons, List.map_cons, same, sameRest]

theorem Program.erased_eq_of_dump_eq {width : Nat} {left right : Program}
    (plainLeft : left.plain = true) (plainRight : right.plain = true)
    (same : left.dump width = right.dump width) : left.erased = right.erased := by
  have empty : indentation width 0 = "" := by
    rw [indentation, Nat.zero_mul]
    rfl
  have items := Item.forcesInside width 0 1 left.items right.items plainLeft plainRight
  rw [empty] at items
  have first : Forces LineEnds (opened "CompUnit" []) (opened "CompUnit" []) True := Forces.self
  have ends : LineEnds ['\n'] := ⟨[], rfl⟩
  rw [dump, dump] at same
  have sameItems := (Forces.surrounded first items _ _ ends ends (by rw [same])).1.2
  rw [erased, erased, relabel, relabel, sameItems]

theorem Program.dump_erased (width : Nat) (program : Program) :
    program.erased.dump width = program.dump width := by
  have keepsName (node : Identifier) : node.unlined.name = node.name := rfl
  exact dump_relabel keepsName width program

/-- With names that are words, the dump shows all of a program but the lines of identifiers and
the names after NEXT. -/
theorem Program.dump_eq_iff_erased_eq (width : Nat) {left right : Program}
    (plainLeft : left.plain = true) (plainRight : right.plain = true) :
    left.dump width = right.dump width ↔ left.erased = right.erased := by
  refine ⟨erased_eq_of_dump_eq plainLeft plainRight, fun same => ?_⟩
  rw [← dump_erased width left, same, dump_erased]

/-- A loop of one statement, whose lines and whose name after NEXT are free. -/
def exampleLoop (line : UInt32) (next : String) : Program :=
  ⟨[.stmt (.forNext ⟨"i", line⟩ (.literal (.number (.integer 1)))
    (.literal (.number (.integer 9))) none ⟨[.stmt (.input ⟨"x", line⟩)]⟩ ⟨next, line⟩)]⟩

theorem exampleLoop_dump_eq :
    (exampleLoop 1 "i").plain = true ∧ (exampleLoop 7 "j k").plain = true ∧
      (exampleLoop 1 "i").dump 0 = (exampleLoop 7 "j k").dump 0 :=
  ⟨by decide, by decide, (Program.dump_eq_iff_erased_eq 0 (by decide) (by decide)).mpr rfl⟩

end ScopeLint
