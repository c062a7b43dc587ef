import Mathlib.Data.List.Forall2
import ScopeLint.Proofs.Analysis.Comparison

/-!
Programs that are left of others when parts of them are deleted, anywhere in the tree. When the
first site of a name goes, the next one takes its place without a diagnostic; all names that are
taken in what is left were taken in the whole program as well, and so nothing new is reported.
-/

set_option autoImplicit false

namespace ScopeLint

/-! ### What is left -/

/-- The first declaration is the second one without some members of enumerations and some fields
of records. -/
inductive Decl.Pruned : Decl → Decl → Prop
  | same (decl : Decl) : Decl.Pruned decl decl
  | enumeration (name : Identifier) {kept members : List Identifier} :
      kept.Sublist members → Decl.Pruned (.enumeration name kept) (.enumeration name members)
  | record (name : Identifier) {kept fields : List Decl} :
      List.SublistForall₂ Decl.Pruned kept fields →
        Decl.Pruned (.record name kept) (.record name fields)

mutual

/-- The first statement is the second one without some else blocks, some arms and some of what
stands in blocks. -/
inductive Stmt.Pruned : Stmt → Stmt → Prop
  | same (stmt : Stmt) : Stmt.Pruned stmt stmt
  | ifThen (condition : Expr) {kept thenBlock : Block} (elseBlock : Option Block) :
      Block.Pruned kept thenBlock →
        Stmt.Pruned (.ifThen condition kept none) (.ifThen condition thenBlock elseBlock)
  | ifThenElse (condition : Expr) {kept thenBlock keptElse elseBlock : Block} :
      Block.Pruned kept thenBlock → Block.Pruned keptElse elseBlock →
        Stmt.Pruned (.ifThen condition kept (some keptElse))
          (.ifThen condition thenBlock (some elseBlock))
  | caseOf (subject : Identifier) {kept arms : List CaseArm} :
      List.SublistForall₂ CaseArm.Pruned kept arms →
        Stmt.Pruned (.caseOf subject kept) (.caseOf subject arms)
  | forNext (counter : Identifier) (first last : Expr) (step : Option Expr) (next : Identifier)
      {kept body : Block} :
      Block.Pruned kept body →
        Stmt.Pruned (.forNext counter first last step kept next)
          (.forNext counter first last step body next)
  | whileDo (condition : Expr) {kept body : Block} :
      Block.Pruned kept body → Stmt.Pruned (.whileDo condition kept) (.whileDo condition body)
  | repeatUntil (condition : Expr) {kept body : Block} :
      Block.Pruned kept body →
        Stmt.Pruned (.repeatUntil kept condition) (.repeatUntil body condition)

inductive CaseArm.Pruned : CaseArm → CaseArm → Prop
  | body (lower : Expr) (upper : Option Expr) {kept body : Block} :
      Block.Pruned kept body → CaseArm.Pruned ⟨lower, upper, kept⟩ ⟨lower, upper, body⟩

inductive Block.Pruned : Block → Block → Prop
  | items {kept items : List BlockItem} :
      List.SublistForall₂ BlockItem.Pruned kept items → Block.Pruned ⟨kept⟩ ⟨items⟩

inductive BlockItem.Pruned : BlockItem → BlockItem → Prop
  | decl {kept decl : Decl} :
      Decl.Pruned kept decl → BlockItem.Pruned (.decl kept) (.decl decl)
  | stmt {kept stmt : Stmt} :
      Stmt.Pruned kept stmt → BlockItem.Pruned (.stmt kept) (.stmt stmt)

end

/-- A routine without a list of parameters counts as one with none. -/
inductive Item.Pruned : Item → Item → Prop
  | decl {kept decl : Decl} : Decl.Pruned kept decl → Item.Pruned (.decl kept) (.decl decl)
  | function (name : Identifier) (returns : TypeName) {keptParams params : Option (List Param)}
      {kept body : Block} :
      (keptParams.getD []).Sublist (params.getD []) → Block.Pruned kept body →
        Item.Pruned (.function name keptParams returns kept) (.function name params returns body)
  | procedure (name : Identifier) {keptParams params : Option (List Param)} {kept body : Block} :
      (keptParams.getD []).Sublist (params.getD []) → Block.Pruned kept body →
        Item.Pruned (.procedure name keptParams kept) (.procedure name params body)
  | stmt {kept stmt : Stmt} : Stmt.Pruned kept stmt → Item.Pruned (.stmt kept) (.stmt stmt)

def Program.Pruned (kept program : Program) : Prop :=
  List.SublistForall₂ Item.Pruned kept.items program.items

/-! ### What is left of the outline -/

mutual

theorem Decl.Pruned.thinned :
    {kept decl : Decl} → kept.Pruned decl → Mark.Thinned kept.outline decl.outline
  | _, _, .same decl => .refl decl.outline
  | _, _, .enumeration _ sublist =>
      (Mark.Thinned.map (fun member : Identifier => member.site .constant) sublist).site _
  | _, _, .record _ pruned => .site _ (.region _ (Decl.thinned_outlineOfList pruned) .nil)

theorem Decl.thinned_outlineOfList :
    {kept decls : List Decl} → List.SublistForall₂ Decl.Pruned kept decls →
      Mark.Thinned (Decl.outlineOfList kept) (Decl.outlineOfList decls)
  | _, _, .nil => .dropAll _
  | _, _, .cons pruned later => pruned.thinned.append (Decl.thinned_outlineOfList later)
  | _, _, .cons_right later => (Mark.Thinned.dropAll _).append (Decl.thinned_outlineOfList later)

end

mutual

theorem Stmt.Pruned.thinned :
    {kept stmt : Stmt} → kept.Pruned stmt → Mark.Thinned kept.outline stmt.outline
  | _, _, .same stmt => .refl stmt.outline
  | _, _, .ifThen _ _ pruned => .region .block pruned.thinned (.dropAll _)
  | _, _, .ifThenElse _ pruned prunedElse =>
      .region .block pruned.thinned (.region .block prunedElse.thinned .nil)
  | _, _, .caseOf _ pruned => CaseArm.thinned_outlineOfList pruned
  | _, _, .forNext counter _ _ _ next pruned =>
      .region .block pruned.thinned (.loop counter next .nil)
  | _, _, .whileDo _ pruned => .region .block pruned.thinned .nil
  | _, _, .repeatUntil _ pruned => .region .block pruned.thinned .nil

theorem CaseArm.thinned_outlineOfList :
    {kept arms : List CaseArm} → List.SublistForall₂ CaseArm.Pruned kept arms →
      Mark.Thinned (CaseArm.outlineOfList kept) (CaseArm.outlineOfList arms)
  | _, _, .nil => .dropAll _
  | _, _, .cons (.body _ _ pruned) later =>
      .region .block pruned.thinned (CaseArm.thinned_outlineOfList later)
  | _, _, .cons_right later => (CaseArm.thinned_outlineOfList later).drop _

theorem Block.Pruned.thinned :
    {kept block : Block} → kept.Pruned block → Mark.Thinned kept.outline block.outline
  | _, _, .items pruned => BlockItem.thinned_outlineOfList pruned

theorem BlockItem.thinned_outlineOfList :
    {kept items : List BlockItem} → List.SublistForall₂ BlockItem.Pruned kept items →
      Mark.Thinned (BlockItem.outlineOfList kept) (BlockItem.outlineOfList items)
  | _, _, .nil => .dropAll _
  | _, _, .cons (.decl pruned) later =>
      pruned.thinned.append (BlockItem.thinned_outlineOfList later)
  | _, _, .cons (.stmt pruned) later =>
      pruned.thinned.append (BlockItem.thinned_outlineOfList later)
  | _, _, .cons_right later =>
      (Mark.Thinned.dropAll _).append (BlockItem.thinned_outlineOfList later)

end

theorem thinned_routineOutline {keptParams params : Option (List Param)} {kept body : Block}
    (sublist : (keptParams.getD []).Sublist (params.getD [])) (pruned : kept.Pruned body) :
    Mark.Thinned [routineOutline keptParams kept] [routineOutline params body] := by
  have sites := Mark.Thinned.map (fun param : Param => param.name.site .parameter) sublist
  exact .region .routine (sites.append pruned.thinned) .nil

theorem Item.Pruned.thinned {kept item : Item} (pruned : kept.Pruned item) :
    Mark.Thinned kept.outline item.outline := by
  cases pruned with
  | decl pruned => exact pruned.thinned
  | function name returns sublist pruned =>
      exact .site _ (thinned_routineOutline sublist pruned)
  | procedure name sublist pruned =>
      exact .site _ (thinned_routineOutline sublist pruned)
  | stmt pruned => exact pruned.thinned

theorem Program.Pruned.thinned {kept program : Program} (pruned : kept.Pruned program) :
    Mark.Thinned kept.outline program.outline := by
  rcases kept with ⟨keptItems⟩
  rcases program with ⟨items⟩
  change List.SublistForall₂ Item.Pruned keptItems items at pruned
  change Mark.Thinned (keptItems.flatMap Item.outline) (items.flatMap Item.outline)
  induction pruned with
  | nil => exact .dropAll _
  | cons first _ ih => exact first.thinned.append ih
  | cons_right _ ih => exact (Mark.Thinned.dropAll _).append ih

namespace Context

/-- Deleting parts of a program takes diagnostics away and brings up none. -/
theorem diagnostics_sublist_of_pruned (settings : Settings) {kept program : Program}
    (pruned : kept.Pruned program) :
    ((initial settings).perform (.replay kept)).diagnostics.Sublist
      ((initial settings).perform (.replay program)).diagnostics := by
  rw [diagnostics_replay, diagnostics_replay]
  apply (List.Sublist.refl _).append
  exact reported_sublist pruned.thinned (fun _ opens => opens) (List.Subset.refl _)

/-- Something of every kind to delete: the first `x`, a member of its name, one of three equal
fields, a parameter, an arm, an else block and a loop in a body. -/
def exampleWhole : Program :=
  ⟨[.decl (.var ⟨"x", 1⟩ .integer),
    .decl (.enumeration ⟨"Season", 2⟩ [⟨"Spring", 2⟩, ⟨"x", 2⟩]),
    .decl (.record ⟨"Pupil", 3⟩ [.var ⟨"a", 4⟩ .real, .var ⟨"a", 5⟩ .real, .var ⟨"a", 6⟩ .real]),
    .procedure ⟨"show", 7⟩ (some [⟨.byVal, ⟨"p", 7⟩, .char⟩, ⟨.byRef, ⟨"q", 7⟩, .char⟩])
      ⟨[.decl (.var ⟨"p", 8⟩ .char), .decl (.var ⟨"q", 9⟩ .char),
        .stmt (.forNext ⟨"i", 10⟩ (.literal (.boolean true)) (.literal (.boolean true)) none
          ⟨[]⟩ ⟨"j", 11⟩)]⟩,
    .stmt (.caseOf ⟨"x", 12⟩
      [⟨.literal (.boolean true), none, ⟨[.decl (.var ⟨"y", 13⟩ .date)]⟩⟩,
        ⟨.literal (.boolean false), none, ⟨[.decl (.var ⟨"y", 14⟩ .date)]⟩⟩]),
    .stmt (.ifThen (.literal (.boolean true)) ⟨[.decl (.var ⟨"x", 15⟩ .date)]⟩
      (some ⟨[.decl (.var ⟨"x", 16⟩ .date)]⟩))]⟩

def exampleKept : Program :=
  ⟨[.decl (.enumeration ⟨"Season", 2⟩ [⟨"Spring", 2⟩]),
    .decl (.record ⟨"Pupil", 3⟩ [.var ⟨"a", 4⟩ .real, .var ⟨"a", 6⟩ .real]),
    .procedure ⟨"show", 7⟩ (some [⟨.byRef, ⟨"q", 7⟩, .char⟩])
      ⟨[.decl (.var ⟨"p", 8⟩ .char), .decl (.var ⟨"q", 9⟩ .char)]⟩,
    .stmt (.caseOf ⟨"x", 12⟩
      [⟨.literal (.boolean false), none, ⟨[.decl (.var ⟨"y", 14⟩ .date)]⟩⟩]),
    .stmt (.ifThen (.literal (.boolean true)) ⟨[.decl (.var ⟨"x", 15⟩ .date)]⟩ none)]⟩

private theorem exampleKept_pruned : exampleKept.Pruned exampleWhole := by
  refine .cons_right (.cons ?season (.cons ?pupil (.cons ?routine (.cons ?arms (.cons ?test
    .nil)))))
  case season => exact .decl (.enumeration _ (by decide))
  case pupil =>
    exact .decl (.record _ (.cons (.same _) (.cons_right (.cons (.same _) .nil))))
  case routine =>
    have params : List.Sublist [(⟨.byRef, ⟨"q", 7⟩, .char⟩ : Param)]
        [⟨.byVal, ⟨"p", 7⟩, .char⟩, ⟨.byRef, ⟨"q", 7⟩, .char⟩] :=
      List.sublist_cons_self _ _
    exact .procedure _ params
      (.items (.cons (.decl (.same _)) (.cons (.decl (.same _)) .nil)))
  case arms =>
    exact .stmt (.caseOf _ (.cons_right (.cons
      (.body _ _ (.items (.cons (.decl (.same _)) .nil))) .nil)))
  case test => exact .stmt (.ifThen _ _ (.items (.cons (.decl (.same _)) .nil)))

theorem exampleKept_diagnostics :
    exampleKept.Pruned exampleWhole ∧
      ((initial .standard).perform (.replay exampleKept)).diagnostics =
        [⟨.alreadyDefined, "a", 6⟩, ⟨.alreadyDefined, "q", 9⟩] ∧
      ((initial .standard).perform (.replay exampleKept)).diagnostics.Sublist
        ((initial .standard).perform (.replay exampleWhole)).diagnostics :=
  ⟨exampleKept_pruned, by decide, diagnostics_sublist_of_pruned .standard exampleKept_pruned⟩

end Context

end ScopeLint
