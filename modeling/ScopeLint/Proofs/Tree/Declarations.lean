import ScopeLint.Proofs.Tree.Expressions

/-!
Declarations, parameters and file statements are given away by their text. A declaration on one
line ends with its brace; a record goes on over the lines of its fields, each of which is told
from the brace that closes the record by its first letter.
-/

set_option autoImplicit false

namespace ScopeLint

def ArrayRange.plain (node : ArrayRange) : Bool :=
  node.first.plain && node.last.plain

mutual

def Decl.plain : Decl → Bool
  | .constant name value => isWord name.name && value.plain
  | .var name type => isWord name.name && type.plain
  | .array name ranges element =>
      isWord name.name && ranges.all ArrayRange.plain && element.plain
  | .enumeration name members =>
      isWord name.name && members.all fun member => isWord member.name
  | .record name fields => isWord name.name && Decl.plainAll fields
  | .pointer name target => isWord name.name && target.plain
  | .set name element => isWord name.name && element.plain
  | .setValue name type values => isWord name.name && type.plain && values.all Literal.plain

def Decl.plainAll : List Decl → Bool
  | [] => true
  | decl :: decls => decl.plain && Decl.plainAll decls

end

def Param.plain (node : Param) : Bool :=
  isWord node.name.name && node.type.plain

def FileStmt.plain : FileStmt → Bool
  | openAs file _ => file.plain
  | read file target => file.plain && isWord target.name
  | write file value => file.plain && value.plain
  | close file => file.plain
  | seek file position => file.plain && position.plain
  | getRecord file target => file.plain && isWord target.name
  | putRecord file source => file.plain && isWord source.name

/-! ### Tags of declarations -/

def Decl.tag : Decl → String
  | .constant _ _ => "ConstDecl"
  | .var _ _ => "VarDecl"
  | .array _ _ _ => "VarDeclArray"
  | .enumeration _ _ => "Enum"
  | .record _ _ => "Record"
  | .pointer _ _ => "Pointer"
  | .set _ _ => "Set"
  | .setValue _ _ _ => "SetDef"

theorem Decl.isWord_tag (decl : Decl) : isWord decl.tag = true := by
  cases decl
  all_goals
    rw [tag]
    decide

theorem Decl.fronted (width level : Nat) (decl : Decl) :
    Fronted (indentation width level) (IsTag [decl.tag]) (decl.render width level) := by
  cases decl with
  | record name fields => exact fronted_surrounded List.mem_cons_self (by rw [tag]; decide) _ _
  | _ => exact (fronted_braced List.mem_cons_self (by rw [tag]; decide) _).indented

theorem Decl.startsLine (width level : Nat) (decl : Decl) :
    StartsLine (decl.render width level) :=
  (decl.fronted width level).startsLine fun _ isTag =>
    (List.mem_singleton.mp isTag).symm ▸ decl.isWord_tag

theorem Decl.forces_of_tag_ne {width level : Nat} {left right : Decl} {fact : Prop}
    (differ : left.tag ≠ right.tag) :
    Forces WordEnds (left.render width level) (right.render width level) fact :=
  .of_fronts (left.fronted width level) (right.fronted width level)
    (IsTag.disjoint (by simpa using differ))

/-! ### Forcing declarations -/

theorem ArrayRange.forces {left right : ArrayRange} (plainLeft : left.plain = true)
    (plainRight : right.plain = true) :
    Forces WordEnds left.text right.text
      (left.relabel .unlined = right.relabel .unlined) := by
  rw [ArrayRange.plain, Bool.and_eq_true] at plainLeft plainRight
  refine (Forces.braced "ArrRange"
    (.cons (Expr.forces _ _ plainLeft.1 plainRight.1).part
      (.last (Expr.forces _ _ plainLeft.2 plainRight.2).part))).imp ?_
  rintro ⟨sameFirst, sameLast⟩
  rw [ArrayRange.relabel, ArrayRange.relabel, sameFirst, sameLast]

theorem ArrayRange.startsItem (node : ArrayRange) : StartsItem node.text := by
  have fronted : Fronted "" (IsTag ["ArrRange"]) node.text :=
    fronted_braced List.mem_cons_self (by decide) _
  exact fronted.startsItem fun _ isTag => (List.mem_singleton.mp isTag).symm ▸ by decide

theorem Literal.forcedItems {lefts rights : List Literal}
    (plainLefts : lefts.all plain = true) (plainRights : rights.all plain = true) :
    ForcedItems (lefts.map text) (rights.map text) (lefts = rights) := by
  have items : ForcedItems (lefts.map text) (rights.map text) (lefts.map id = rights.map id) :=
    .map (fun _ _ => forces) (fun _ => startsItem) (List.all_eq_true.mp plainLefts)
      (List.all_eq_true.mp plainRights)
  rwa [List.map_id, List.map_id] at items

theorem ArrayRange.forcedItems {lefts rights : List ArrayRange}
    (plainLefts : lefts.all plain = true) (plainRights : rights.all plain = true) :
    ForcedItems (lefts.map text) (rights.map text)
      (lefts.map (relabel .unlined) = rights.map (relabel .unlined)) :=
  .map (fun _ _ => forces) (fun node _ => node.startsItem) (List.all_eq_true.mp plainLefts)
    (List.all_eq_true.mp plainRights)

theorem Identifier.forcedItems {lefts rights : List Identifier}
    (plainLefts : lefts.all (fun node => isWord node.name) = true)
    (plainRights : rights.all (fun node => isWord node.name) = true) :
    ForcedItems (lefts.map text) (rights.map text)
      (lefts.map unlined = rights.map unlined) :=
  .map (fun _ _ => forces) (fun _ => startsItem_of_isWord) (List.all_eq_true.mp plainLefts)
    (List.all_eq_true.mp plainRights)

mutual

theorem Decl.forces (width level : Nat) (left right : Decl) (plainLeft : left.plain = true)
    (plainRight : right.plain = true) :
    Forces LineEnds (left.render width level) (right.render width level)
      (left.relabel .unlined = right.relabel .unlined) := by
  cases left with
  | constant name value =>
      cases right with
      | constant name' value' =>
          rw [Decl.plain, Bool.and_eq_true] at plainLeft plainRight
          refine (Forces.indented _ (Forces.braced "ConstDecl"
            (.cons (Identifier.forces plainLeft.1 plainRight.1).part
              (.last (Expr.forces _ _ plainLeft.2 plainRight.2).part)))).imp ?_
          rintro ⟨sameName, sameValue⟩
          rw [Decl.relabel, Decl.relabel, sameName, sameValue]
      | _ => exact (Decl.forces_of_tag_ne (by simp [Decl.tag])).line
  | var name type =>
      cases right with
      | var name' type' =>
          rw [Decl.plain, Bool.and_eq_true] at plainLeft plainRight
          refine (Forces.indented _ (Forces.braced "VarDecl"
            (.cons (Identifier.forces plainLeft.1 plainRight.1).part
              (.last (TypeName.forces plainLeft.2 plainRight.2).part)))).imp ?_
          rintro ⟨sameName, sameType⟩
          rw [Decl.relabel, Decl.relabel, sameName, sameType]
      | _ => exact (Decl.forces_of_tag_ne (by simp [Decl.tag])).line
  | array name ranges element =>
      cases right with
      | array name' ranges' element' =>
          rw [Decl.plain, Bool.and_eq_true, Bool.and_eq_true] at plainLeft plainRight
          refine (Forces.indented _ (Forces.braced "VarDeclArray"
            (.cons (Identifier.forces plainLeft.1.1 plainRight.1.1).part
              (.cons (ArrayRange.forcedItems plainLeft.1.2 plainRight.1.2).spaced.items
                (.last (TypeName.forces plainLeft.2 plainRight.2).part))))).imp ?_
          rintro ⟨sameName, sameRanges, sameElement⟩
          rw [Decl.relabel, Decl.relabel, sameName, sameRanges, sameElement]
      | _ => exact (Decl.forces_of_tag_ne (by simp [Decl.tag])).line
  | enumeration name members =>
      cases right with
      | enumeration name' members' =>
          rw [Decl.plain, Bool.and_eq_true] at plainLeft plainRight
          refine (Forces.indented _ (Forces.braced "Enum"
            (.cons (Identifier.forces plainLeft.1 plainRight.1).part
              (.last (Identifier.forcedItems plainLeft.2 plainRight.2).spaced.items)))).imp ?_
          rintro ⟨sameName, sameMembers⟩
          rw [Decl.relabel, Decl.relabel, sameName, sameMembers]
      | _ => exact (Decl.forces_of_tag_ne (by simp [Decl.tag])).line
  | record name fields =>
      cases right with
      | record name' fields' =>
          rw [Decl.plain, Bool.and_eq_true] at plainLeft plainRight
          refine (Forces.surrounded (Forces.opened "Record"
            (.last (Identifier.forces plainLeft.1 plainRight.1).part))
            (Decl.forcesInside width level (level + 1) fields fields' plainLeft.2
              plainRight.2)).imp ?_
          rintro ⟨sameName, sameFields⟩
          rw [Decl.relabel, Decl.relabel, sameName, sameFields]
      | _ => exact (Decl.forces_of_tag_ne (by simp [Decl.tag])).line
  | pointer name target =>
      cases right with
      | pointer name' target' =>
          rw [Decl.plain, Bool.and_eq_true] at plainLeft plainRight
          refine (Forces.indented _ (Forces.braced "Pointer"
            (.cons (Identifier.forces plainLeft.1 plainRight.1).part
              (.last (TypeName.forces plainLeft.2 plainRight.2).part)))).imp ?_
          rintro ⟨sameName, sameTarget⟩
          rw [Decl.relabel, Decl.relabel, sameName, sameTarget]
      | _ => exact (Decl.forces_of_tag_ne (by simp [Decl.tag])).line
  | set name element =>
      cases right with
      | set name' element' =>
          rw [Decl.plain, Bool.and_eq_true] at plainLeft plainRight
          refine (Forces.indented _ (Forces.braced "Set"
            (.cons (Identifier.forces plainLeft.1 plainRight.1).part
              (.last (TypeName.forces plainLeft.2 plainRight.2).part)))).imp ?_
          rintro ⟨sameName, sameElement⟩
          rw [Decl.relabel, Decl.relabel, sameName, sameElement]
      | _ => exact (Decl.forces_of_tag_ne (by simp [Decl.tag])).line
  | setValue name type values =>
      cases right with
      | setValue name' type' values' =>
          rw [Decl.plain, Bool.and_eq_true, Bool.and_eq_true] at plainLeft plainRight
          refine (Forces.indented _ (Forces.braced "SetDef"
            (.cons (Identifier.forces plainLeft.1.1 plainRight.1.1).part
              (.cons (TypeName.forces plainLeft.1.2 plainRight.1.2).part
                (.last (Literal.forcedItems plainLeft.2 plainRight.2).spaced.items))))).imp ?_
          rintro ⟨sameName, sameType, sameValues⟩
          rw [Decl.relabel, Decl.relabel, sameName, sameType, sameValues]
      | _ => exact (Decl.forces_of_tag_ne (by simp [Decl.tag])).line
termination_by structural left

theorem Decl.forcesInside (width level inner : Nat) (lefts rights : List Decl)
    (plainLefts : Decl.plainAll lefts = true) (plainRights : Decl.plainAll rights = true) :
    ForcesInside (indentation width level) (Decl.renderAll width inner lefts)
      (Decl.renderAll width inner rights)
      (Decl.relabelAll .unlined lefts = Decl.relabelAll .unlined rights) := by
  cases lefts with
  | nil =>
      cases rights with
      | nil => exact (ForcesInside.nil _).imp fun _ => rfl
      | cons right rights => exact .shorter (right.startsLine width inner)
  | cons left lefts =>
      rw [Decl.plainAll, Bool.and_eq_true] at plainLefts
      cases rights with
      | nil => exact .longer (left.startsLine width inner)
      | cons right rights =>
          rw [Decl.plainAll, Bool.and_eq_true] at plainRights
          refine (ForcesInside.cons
            (Decl.forces width inner left right plainLefts.1 plainRights.1)
            (Decl.forcesInside width level inner lefts rights plainLefts.2
              plainRights.2)).imp ?_
          rintro ⟨same, sameRest⟩
          rw [Decl.relabelAll, Decl.relabelAll, same, sameRest]
termination_by structural lefts

end

/-! ### Parameters -/

theorem Param.forces {left right : Param} (plainLeft : left.plain = true)
    (plainRight : right.plain = true) :
    Forces WordEnds left.text right.text
      (left.relabel .unlined = right.relabel .unlined) := by
  rw [Param.plain, Bool.and_eq_true] at plainLeft plainRight
  refine (Forces.braced "Param" (.cons (PassMode.forces _ _).part
    (.cons (Identifier.forces plainLeft.1 plainRight.1).part
      (.last (TypeName.forces plainLeft.2 plainRight.2).part)))).imp ?_
  rintro ⟨sameMode, sameName, sameType⟩
  rw [Param.relabel, Param.relabel, sameMode, sameName, sameType]

theorem Param.startsItem (node : Param) : StartsItem node.text := by
  have fronted : Fronted "" (IsTag ["Param"]) node.text :=
    fronted_braced List.mem_cons_self (by decide) _
  exact fronted.startsItem fun _ isTag => (List.mem_singleton.mp isTag).symm ▸ by decide

theorem Param.forcedItems {lefts rights : List Param} (plainLefts : lefts.all plain = true)
    (plainRights : rights.all plain = true) :
    ForcedItems (lefts.map text) (rights.map text)
      (lefts.map (relabel .unlined) = rights.map (relabel .unlined)) :=
  .map (fun _ _ => forces) (fun node _ => node.startsItem) (List.all_eq_true.mp plainLefts)
    (List.all_eq_true.mp plainRights)

theorem fronted_paramListText (params : List Param) :
    Fronted "" (IsTag ["ParamList"]) (paramListText (some params)) := by
  cases params with
  | nil =>
      have divided : paramListText (some []) = "ParamList" ++ " \x7b \x7d" := by decide
      rw [divided]
      exact fronted_append List.mem_cons_self (by decide) ⟨' ', _, rfl, by decide⟩
  | cons param params => exact fronted_braced List.mem_cons_self (by decide) _

theorem paramListText_forces_nil {fact : Prop} (param : Param) (params : List Param) :
    Forces PartEnds (paramListText (some [])) (paramListText (some (param :: params))) fact := by
  intro r s _ _ same
  have empty : (paramListText (some [])).toList =
      ("ParamList \x7b " : String).toList ++ ['\x7d'] := by decide
  have divided : ("ParamList \x7b " : String) = "ParamList" ++ " \x7b " := by decide
  rcases param.startsItem with ⟨char, isFirst, _, notBrace, _⟩
  obtain ⟨others, isText⟩ := List.head?_eq_some_iff.mp isFirst
  rw [empty] at same
  simp only [paramListText, braced, ← divided, joinWith, List.map_cons, String.toList_append,
    toList_spaced, isText, List.append_assoc] at same
  have sameFirst := (List.cons.inj (List.append_cancel_left same)).1
  exact absurd sameFirst.symm notBrace

/-- A missing parameter list, an empty one and one with parameters have different texts. -/
theorem paramListText_forces {left right : Option (List Param)}
    (plainLeft : left.all (List.all · Param.plain) = true)
    (plainRight : right.all (List.all · Param.plain) = true) :
    Forces PartEnds (paramListText left) (paramListText right)
      (left.map (List.map (Param.relabel .unlined)) =
        right.map (List.map (Param.relabel .unlined))) := by
  have missing : Fronted "" (IsTag ["no-param"]) (paramListText none) :=
    fronted_word List.mem_cons_self (by decide)
  cases left with
  | none =>
      cases right with
      | none => exact Forces.self.imp fun _ => rfl
      | some params' =>
          exact (Forces.of_fronts missing (fronted_paramListText params')
            (IsTag.disjoint (by decide))).part
  | some params =>
      cases right with
      | none =>
          exact (Forces.of_fronts (fronted_paramListText params) missing
            (IsTag.disjoint (by decide))).part
      | some params' =>
          cases params with
          | nil =>
              cases params' with
              | nil => exact Forces.self.imp fun _ => rfl
              | cons param' params' => exact paramListText_forces_nil param' params'
          | cons param params =>
              cases params' with
              | nil => exact (paramListText_forces_nil param params).symm
              | cons param' params' =>
                  refine (Forces.braced "ParamList"
                    (.last (Param.forcedItems plainLeft plainRight).spaced.items)).imp ?_
                  exact fun same => congrArg some same

/-! ### File statements -/

def FileStmt.tag : FileStmt → String
  | openAs _ _ => "StmtOpenFile"
  | read _ _ => "StmtReadFile"
  | write _ _ => "StmtWriteFile"
  | close _ => "StmtCloseFile"
  | seek _ _ => "StmtSeek"
  | getRecord _ _ => "StmtGetRecord"
  | putRecord _ _ => "StmtPutRecord"

def fileTags : List String :=
  ["StmtOpenFile", "StmtReadFile", "StmtWriteFile", "StmtCloseFile", "StmtSeek",
    "StmtGetRecord", "StmtPutRecord"]

theorem FileStmt.tag_mem_fileTags (action : FileStmt) : action.tag ∈ fileTags := by
  cases action
  all_goals
    rw [tag]
    decide

theorem FileStmt.isWord_tag (action : FileStmt) : isWord action.tag = true := by
  cases action
  all_goals
    rw [tag]
    decide

theorem FileStmt.fronted (action : FileStmt) : Fronted "" (IsTag [action.tag]) action.text := by
  cases action
  all_goals exact fronted_braced List.mem_cons_self (by rw [tag]; decide) _

theorem FileStmt.forces_of_tag_ne {left right : FileStmt} {fact : Prop}
    (differ : left.tag ≠ right.tag) : Forces WordEnds left.text right.text fact :=
  .of_fronts left.fronted right.fronted (IsTag.disjoint (by simpa using differ))

theorem FileStmt.forces {left right : FileStmt} (plainLeft : left.plain = true)
    (plainRight : right.plain = true) :
    Forces WordEnds left.text right.text
      (left.relabel .unlined = right.relabel .unlined) := by
  cases left with
  | openAs file mode =>
      cases right with
      | openAs file' mode' =>
          refine (Forces.braced "StmtOpenFile" (.cons (Expr.forces _ _ plainLeft plainRight).part
            (.last (FileMode.forces _ _).part))).imp ?_
          rintro ⟨sameFile, sameMode⟩
          rw [relabel, relabel, sameFile, sameMode]
      | _ => exact forces_of_tag_ne (by simp [tag])
  | read file target =>
      cases right with
      | read file' target' =>
          rw [plain, Bool.and_eq_true] at plainLeft plainRight
          refine (Forces.braced "StmtReadFile"
            (.cons (Expr.forces _ _ plainLeft.1 plainRight.1).part
              (.last (Identifier.forces plainLeft.2 plainRight.2).part))).imp ?_
          rintro ⟨sameFile, sameTarget⟩
          rw [relabel, relabel, sameFile, sameTarget]
      | _ => exact forces_of_tag_ne (by simp [tag])
  | write file value =>
      cases right with
      | write file' value' =>
          rw [plain, Bool.and_eq_true] at plainLeft plainRight
          refine (Forces.braced "StmtWriteFile"
            (.cons (Expr.forces _ _ plainLeft.1 plainRight.1).part
              (.last (Expr.forces _ _ plainLeft.2 plainRight.2).part))).imp ?_
          rintro ⟨sameFile, sameValue⟩
          rw [relabel, relabel, sameFile, sameValue]
      | _ => exact forces_of_tag_ne (by simp [tag])
  | close file =>
      cases right with
      | close file' =>
          refine (Forces.braced "StmtCloseFile"
            (.last (Expr.forces _ _ plainLeft plainRight).part)).imp ?_
          intro sameFile
          rw [relabel, relabel, sameFile]
      | _ => exact forces_of_tag_ne (by simp [tag])
  | seek file position =>
      cases right with
      | seek file' position' =>
          rw [plain, Bool.and_eq_true] at plainLeft plainRight
          refine (Forces.braced "StmtSeek"
            (.cons (Expr.forces _ _ plainLeft.1 plainRight.1).part
              (.last (Expr.forces _ _ plainLeft.2 plainRight.2).part))).imp ?_
          rintro ⟨sameFile, samePosition⟩
          rw [relabel, relabel, sameFile, samePosition]
      | _ => exact forces_of_tag_ne (by simp [tag])
  | getRecord file target =>
      cases right with
      | getRecord file' target' =>
          rw [plain, Bool.and_eq_true] at plainLeft plainRight
          refine (Forces.braced "StmtGetRecord"
            (.cons (Expr.forces _ _ plainLeft.1 plainRight.1).part
              (.last (Identifier.forces plainLeft.2 plainRight.2).part))).imp ?_
          rintro ⟨sameFile, sameTarget⟩
          rw [relabel, relabel, sameFile, sameTarget]
      | _ => exact forces_of_tag_ne (by simp [tag])
  | putRecord file source =>
      cases right with
      | putRecord file' source' =>
          rw [plain, Bool.and_eq_true] at plainLeft plainRight
          refine (Forces.braced "StmtPutRecord"
            (.cons (Expr.forces _ _ plainLeft.1 plainRight.1).part
              (.last (Identifier.forces plainLeft.2 plainRight.2).part))).imp ?_
          rintro ⟨sameFile, sameSource⟩
          rw [relabel, relabel, sameFile, sameSource]
      | _ => exact forces_of_tag_ne (by simp [tag])

end ScopeLint
