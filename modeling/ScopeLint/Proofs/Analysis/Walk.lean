import Mathlib.Data.List.Basic
import ScopeLint.Proofs.Analysis.Region
import ScopeLint.Proofs.Analysis.Replay

/-!
The way through a tree and the outline of the tree tell the same story. A region of the one is
a list of marks of the other, and the names that an outline has seen are those of the earlier
sites of that region. Sibling nodes open regions at different places, which is why the names
of one of them never count for another.
-/

set_option autoImplicit false

namespace ScopeLint

namespace Visit

theorem declarationsIn_append (region : Place) (first second : List Visit) :
    declarationsIn region (first ++ second) =
      declarationsIn region first ++ declarationsIn region second :=
  List.filterMap_append

theorem declarationsIn_cons_site (region : Place) (declaration : Declaration)
    (visits : List Visit) :
    declarationsIn region (.site region declaration :: visits) =
      declaration :: declarationsIn region visits := by
  simp only [declarationsIn, List.filterMap_cons, declarationIn?, if_true]

theorem declarationsIn_eq_nil {region : Place} {visits : List Visit}
    (absent : ∀ declaration, .site region declaration ∉ visits) :
    declarationsIn region visits = [] := by
  apply List.filterMap_eq_nil_iff.mpr
  intro visit member
  cases visit with
  | site other declaration =>
      apply if_neg
      rintro rfl
      exact absent declaration member
  | loopEnd opening closing => rfl

def diagnosticsAfter (earlier : List Visit) : List Visit → List Diagnostic
  | [] => []
  | visit :: later =>
      (visit.finding? earlier).toList ++ diagnosticsAfter (earlier ++ [visit]) later

theorem diagnosticsAfter_append (earlier first second : List Visit) :
    diagnosticsAfter earlier (first ++ second) =
      diagnosticsAfter earlier first ++ diagnosticsAfter (earlier ++ first) second := by
  induction first generalizing earlier with
  | nil => simp only [List.nil_append, diagnosticsAfter, List.append_nil]
  | cons visit first ih =>
      simp only [List.cons_append, diagnosticsAfter, ih, List.append_assoc, List.nil_append]

private theorem filterMap_finding?_eq (earlier visits : List Visit) :
    (visits.zipIdx earlier.length).filterMap
        (fun (visit, index) => visit.finding? ((earlier ++ visits).take index)) =
      diagnosticsAfter earlier visits := by
  induction visits generalizing earlier with
  | nil => rfl
  | cons visit later ih =>
      have step := ih (earlier ++ [visit])
      rw [List.append_assoc, List.singleton_append, List.length_append,
        List.length_singleton] at step
      rw [List.zipIdx_cons, List.filterMap_cons, step]
      simp only [List.take_left, diagnosticsAfter]
      cases visit.finding? earlier <;> rfl

theorem diagnostics_eq (visits : List Visit) : diagnostics visits = diagnosticsAfter [] visits :=
  filterMap_finding?_eq [] visits

end Visit

/-- Visits and marks agree on what a part of the tree holds. The part lies in `region`, and
`territory` holds of the places where regions of its own may be opened. -/
structure Follows (settings : Settings) (territory : Place → Prop) (region : Place)
    (visits : List Visit) (marks : List Mark) : Prop where
  inside : ∀ place declaration, .site place declaration ∈ visits →
    place = region ∨ territory place
  own : Visit.declarationsIn region visits = Mark.ownOfList settings marks
  found : ∀ earlier seen,
    (∀ name, name ∈ seen ↔
      ∃ other ∈ Visit.declarationsIn region earlier, other.name = name) →
    (∀ place, territory place → Visit.declarationsIn place earlier = []) →
    Visit.diagnosticsAfter earlier visits = Mark.findingsOfList settings seen marks

namespace Follows

variable {settings : Settings} {territory : Place → Prop} {region : Place}
  {visits : List Visit} {marks : List Mark}

theorem nil : Follows settings territory region [] [] where
  inside := by
    intro place declaration member
    cases member
  own := rfl
  found := fun _ _ _ _ => rfl

theorem site (declaration : Declaration) :
    Follows settings territory region [.site region declaration] [.site declaration] where
  inside := by
    intro place other member
    cases List.mem_singleton.mp member
    exact Or.inl rfl
  own := Visit.declarationsIn_cons_site region declaration []
  found := by
    intro earlier seen sameNames _
    simp only [Visit.diagnosticsAfter, Visit.finding?, Mark.findingsOfList, Mark.findings,
      sameNames, List.append_nil]
    split <;> rfl

theorem loop (opening closing : Identifier) :
    Follows settings territory region [.loopEnd opening closing] [.loop opening closing] where
  inside := by
    intro place declaration member
    cases List.mem_singleton.mp member
  own := rfl
  found := by
    intro earlier seen _ _
    simp only [Visit.diagnosticsAfter, Visit.finding?, Mark.findingsOfList, Mark.findings,
      List.append_nil]
    split <;> rfl

theorem widen {wider : Place → Prop} (follows : Follows settings territory region visits marks)
    (within : ∀ place, territory place → wider place) :
    Follows settings wider region visits marks where
  inside := fun place declaration member =>
    (follows.inside place declaration member).imp_right (within place)
  own := follows.own
  found := fun earlier seen sameNames fresh =>
    follows.found earlier seen sameNames fun place inTerritory =>
      fresh place (within place inTerritory)

/-- Two parts one after the other. The second opens no region where the first has sites. -/
theorem append {first second : Place → Prop} {firstVisits secondVisits : List Visit}
    {firstMarks secondMarks : List Mark}
    (before : Follows settings first region firstVisits firstMarks)
    (after : Follows settings second region secondVisits secondMarks)
    (apart : ∀ place, first place → ¬ second place) (outside : ¬ second region) :
    Follows settings (fun place => first place ∨ second place) region
      (firstVisits ++ secondVisits) (firstMarks ++ secondMarks) where
  inside := by
    intro place declaration member
    rcases List.mem_append.mp member with inFirst | inSecond
    · exact (before.inside place declaration inFirst).imp_right Or.inl
    · exact (after.inside place declaration inSecond).imp_right Or.inr
  own := by
    rw [Visit.declarationsIn_append, before.own, after.own, Mark.ownOfList_append]
  found := by
    intro earlier seen sameNames fresh
    have beforeFound := before.found earlier seen sameNames fun place inFirst =>
      fresh place (Or.inl inFirst)
    have laterNames : ∀ name, name ∈ seen ++ Mark.ownNames settings firstMarks ↔
        ∃ other ∈ Visit.declarationsIn region (earlier ++ firstVisits), other.name = name := by
      intro name
      rw [List.mem_append, sameNames, Mark.ownNames, ← before.own,
        Visit.declarationsIn_append, List.mem_map]
      simp only [List.mem_append, or_and_right, exists_or]
    have laterFresh : ∀ place, second place →
        Visit.declarationsIn place (earlier ++ firstVisits) = [] := by
      intro place inSecond
      rw [Visit.declarationsIn_append, fresh place (Or.inr inSecond), List.nil_append]
      apply Visit.declarationsIn_eq_nil
      intro declaration member
      rcases before.inside place declaration member with rfl | inFirst
      · exact outside inSecond
      · exact apart place inFirst inSecond
    rw [Visit.diagnosticsAfter_append, beforeFound,
      after.found (earlier ++ firstVisits) _ laterNames laterFresh, Mark.findingsOfList_append]

theorem cons_site (follows : Follows settings territory region visits marks)
    (outside : ¬ territory region) (declaration : Declaration) :
    Follows settings territory region (.site region declaration :: visits)
      (.site declaration :: marks) := by
  have alone : Follows settings (fun _ => False) region [.site region declaration]
      [.site declaration] := site declaration
  have joined := alone.append follows (fun _ impossible => impossible.elim) outside
  exact joined.widen fun place either => either.resolve_left id

theorem append_sites {α : Type} (follows : Follows settings territory region visits marks)
    (outside : ¬ territory region) (declared : α → Declaration) (items : List α) :
    Follows settings territory region
      (items.map (fun item => .site region (declared item)) ++ visits)
      (items.map (fun item => .site (declared item)) ++ marks) := by
  induction items with
  | nil => exact follows
  | cons item items ih => exact ih.cons_site outside (declared item)

/-- A region of its own. Its names are forgotten outside, and none are known at its start. -/
theorem enclosed {place : Place} {kind : ScopeKind} {wider : Place → Prop}
    (follows : Follows settings territory place visits marks)
    (opens : settings.opens kind = true) (within : ∀ other, territory other → wider other)
    (itself : wider place) (outside : ¬ wider region) :
    Follows settings wider region visits [.region kind marks] where
  inside := by
    intro other declaration member
    rcases follows.inside other declaration member with rfl | inTerritory
    · exact Or.inr itself
    · exact Or.inr (within other inTerritory)
  own := by
    simp only [Mark.ownOfList, Mark.own, opens, if_true, List.append_nil]
    apply Visit.declarationsIn_eq_nil
    intro declaration member
    rcases follows.inside region declaration member with rfl | inTerritory
    · exact outside itself
    · exact outside (within region inTerritory)
  found := by
    intro earlier seen _ fresh
    have startsEmpty : ∀ name, name ∈ ([] : List String) ↔
        ∃ other ∈ Visit.declarationsIn place earlier, other.name = name := by
      intro name
      simp only [fresh place itself, List.not_mem_nil, false_and, exists_false]
    have inner := follows.found earlier [] startsEmpty fun other inTerritory =>
      fresh other (within other inTerritory)
    rw [inner, Mark.findingsOfList_singleton, Mark.findings, if_pos opens]

/-- A mark that has no scope of its own is as good as what it holds. -/
theorem dissolved {kind : ScopeKind}
    (follows : Follows settings territory region visits marks)
    (closed : settings.opens kind = false) :
    Follows settings territory region visits [.region kind marks] where
  inside := follows.inside
  own := by
    rw [follows.own]
    simp only [Mark.ownOfList, Mark.own, closed, Bool.false_eq_true, if_false, List.append_nil]
  found := by
    intro earlier seen sameNames fresh
    rw [follows.found earlier seen sameNames fresh, Mark.findingsOfList_singleton]
    simp only [Mark.findings, closed, Bool.false_eq_true, if_false]

end Follows

/-! ### Places in a tree -/

def Beneath (place other : Place) : Prop :=
  place <:+ other

/-- The children of `parent` from the step `index` on, and all nodes under them. -/
def BeneathFrom (parent : Place) (index : Nat) (other : Place) : Prop :=
  ∃ step, index ≤ step ∧ Beneath (step :: parent) other

private theorem step_unique {parent other : Place} {first second : Nat}
    (underFirst : Beneath (first :: parent) other)
    (underSecond : Beneath (second :: parent) other) : first = second := by
  rcases underFirst with ⟨above, rfl⟩
  rcases underSecond with ⟨above', same⟩
  have cut : above' ++ [second] = above ++ [first] := by
    apply @List.append_cancel_right _ _ parent
    simpa only [List.append_assoc, List.singleton_append] using same
  have last : [second] = [first] := (List.append_inj' cut rfl).2
  exact (List.cons.inj last).1.symm

private theorem not_beneath_self (parent : Place) (step : Nat) :
    ¬ Beneath (step :: parent) parent := by
  intro beneath
  have shorter := beneath.length_le
  rw [List.length_cons] at shorter
  omega

theorem Beneath.of_step {parent other : Place} {step : Nat}
    (beneath : Beneath (step :: parent) other) : Beneath parent other :=
  (List.suffix_cons step parent).trans beneath

theorem BeneathFrom.beneath {parent other : Place} {index : Nat}
    (from_ : BeneathFrom parent index other) : Beneath parent other := by
  rcases from_ with ⟨step, _, beneath⟩
  exact beneath.of_step

theorem not_beneathFrom_self (parent : Place) (index : Nat) :
    ¬ BeneathFrom parent index parent := by
  rintro ⟨step, _, beneath⟩
  exact not_beneath_self parent step beneath

namespace Follows

variable {settings : Settings} {region : Place}

theorem of_child {parent : Place} {index : Nat} {visits : List Visit} {marks : List Mark}
    (child : Follows settings (Beneath (index :: parent)) region visits marks) :
    Follows settings (BeneathFrom parent index) region visits marks :=
  child.widen fun _ beneath => ⟨index, Nat.le_refl index, beneath⟩

theorem cons_child {parent : Place} {index : Nat} {visits later : List Visit}
    {marks laterMarks : List Mark}
    (child : Follows settings (Beneath (index :: parent)) region visits marks)
    (rest : Follows settings (BeneathFrom parent (index + 1)) region later laterMarks)
    (outside : ¬ BeneathFrom parent index region) :
    Follows settings (BeneathFrom parent index) region (visits ++ later)
      (marks ++ laterMarks) := by
  have apart : ∀ place, Beneath (index :: parent) place →
      ¬ BeneathFrom parent (index + 1) place := by
    rintro place underChild ⟨step, after, underLater⟩
    have same := step_unique underChild underLater
    omega
  have regionOutside : ¬ BeneathFrom parent (index + 1) region := by
    rintro ⟨step, after, beneath⟩
    exact outside ⟨step, by omega, beneath⟩
  refine (child.append rest apart regionOutside).widen ?_
  rintro place (underChild | ⟨step, after, underLater⟩)
  · exact ⟨index, Nat.le_refl index, underChild⟩
  · exact ⟨step, by omega, underLater⟩

end Follows

private theorem not_beneath_child {parent region : Place} {index : Nat}
    (outside : ¬ BeneathFrom parent index region) : ¬ Beneath (index :: parent) region :=
  fun beneath => outside ⟨index, Nat.le_refl index, beneath⟩

private theorem not_beneathFrom_succ {parent region : Place} {index : Nat}
    (outside : ¬ BeneathFrom parent index region) : ¬ BeneathFrom parent (index + 1) region := by
  rintro ⟨step, after, beneath⟩
  exact outside ⟨step, by omega, beneath⟩

/-! ### Every node -/

mutual

theorem Decl.follows (settings : Settings) (place region : Place)
    (outside : ¬ Beneath place region) :
    (decl : Decl) →
      Follows settings (Beneath place) region (decl.visits place region) decl.outline
  | .constant name (.literal value) => .site { name.declared .constant with value := some value }
  | .constant name (.lvalue _) => .site (name.declared .constant)
  | .constant name (.binary _ _ _) => .site (name.declared .constant)
  | .constant name (.unary _ _) => .site (name.declared .constant)
  | .constant name (.call _) => .site (name.declared .constant)
  | .constant name (.pointer _ _) => .site (name.declared .constant)
  | .constant name (.eof _) => .site (name.declared .constant)
  | .var name _ => .site (name.declared .var)
  | .array name _ _ => .site (name.declared .var)
  | .enumeration name members => by
      have memberSites := (@Follows.nil settings _ _).append_sites outside
        (fun member : Identifier => member.declared .constant) members
      rw [List.append_nil, List.append_nil] at memberSites
      exact memberSites.cons_site outside (name.declared .type)
  | .record name fields => by
      have inner := Decl.follows_list settings place 0 place (not_beneathFrom_self place 0) fields
      have fieldRegion : Follows settings (Beneath place) region
          (Decl.visitsOfList place 0 place fields)
          [.region .record (Decl.outlineOfList fields)] :=
        inner.enclosed rfl (fun _ => BeneathFrom.beneath) List.suffix_rfl outside
      exact fieldRegion.cons_site outside (name.declared .type)
  | .pointer name _ => .site (name.declared .type)
  | .set name _ => .site (name.declared .type)
  | .setValue name _ _ => .site (name.declared .type)

theorem Decl.follows_list (settings : Settings) (parent : Place) (index : Nat) (region : Place)
    (outside : ¬ BeneathFrom parent index region) :
    (decls : List Decl) →
      Follows settings (BeneathFrom parent index) region
        (Decl.visitsOfList parent index region decls) (Decl.outlineOfList decls)
  | [] => .nil
  | decl :: decls =>
      (Decl.follows settings (index :: parent) region (not_beneath_child outside) decl).cons_child
        (Decl.follows_list settings parent (index + 1) region (not_beneathFrom_succ outside) decls)
        outside

end

mutual

theorem Stmt.follows (settings : Settings) (place region : Place)
    (outside : ¬ Beneath place region) :
    (stmt : Stmt) →
      Follows settings (BeneathFrom place 0) region
        (stmt.visits settings.blockScopes place region) stmt.outline
  | .ifThen _ thenBlock elseBlock => by
      have childOutside : ¬ BeneathFrom place 0 region := fun beneath => outside beneath.beneath
      have first := Block.follows settings (0 :: place) region
        (not_beneath_child childOutside) thenBlock
      have second := Block.follows_else settings (1 :: place) region
        (not_beneath_child (not_beneathFrom_succ childOutside)) elseBlock
      exact first.cons_child second.of_child childOutside
  | .caseOf _ arms =>
      CaseArm.follows_list settings place 0 region (fun beneath => outside beneath.beneath) arms
  | .forNext counter _ _ _ body next => by
      have childOutside : ¬ BeneathFrom place 0 region := fun beneath => outside beneath.beneath
      have inBody := Block.follows settings (0 :: place) region
        (not_beneath_child childOutside) body
      exact inBody.cons_child (.loop counter next) childOutside
  | .whileDo _ body =>
      (Block.follows settings (0 :: place) region (fun beneath => outside beneath.of_step)
        body).of_child
  | .repeatUntil body _ =>
      (Block.follows settings (0 :: place) region (fun beneath => outside beneath.of_step)
        body).of_child
  | .assign _ _ => .nil
  | .giveBack _ => .nil
  | .call _ => .nil
  | .input _ => .nil
  | .output _ => .nil
  | .file _ => .nil

theorem CaseArm.follows_list (settings : Settings) (parent : Place) (index : Nat)
    (region : Place) (outside : ¬ BeneathFrom parent index region) :
    (arms : List CaseArm) →
      Follows settings (BeneathFrom parent index) region
        (CaseArm.visitsOfList settings.blockScopes parent index region arms)
        (CaseArm.outlineOfList arms)
  | [] => .nil
  | ⟨_, _, body⟩ :: arms =>
      (Block.follows settings (index :: parent) region (not_beneath_child outside)
        body).cons_child
        (CaseArm.follows_list settings parent (index + 1) region
          (not_beneathFrom_succ outside) arms)
        outside

/-- A control block, as the region that the outline has for it. -/
theorem Block.follows (settings : Settings) (place region : Place)
    (outside : ¬ Beneath place region) :
    (block : Block) →
      Follows settings (Beneath place) region
        (block.visits settings.blockScopes place region) [.region .block block.outline]
  | ⟨items⟩ => by
      cases chosen : settings.blockScopes with
      | true =>
          have opens : settings.opens .block = true := chosen
          have inner := BlockItem.follows_list settings place 0 place
            (not_beneathFrom_self place 0) items
          rw [chosen] at inner
          exact inner.enclosed opens (fun _ => BeneathFrom.beneath) List.suffix_rfl outside
      | false =>
          have closed : settings.opens .block = false := chosen
          have inner := BlockItem.follows_list settings place 0 region
            (fun beneath => outside beneath.beneath) items
          rw [chosen] at inner
          exact (inner.dissolved closed).widen fun _ => BeneathFrom.beneath

theorem Block.follows_else (settings : Settings) (place region : Place)
    (outside : ¬ Beneath place region) :
    (elseBlock : Option Block) →
      Follows settings (Beneath place) region
        (Block.visitsOfElse settings.blockScopes place region elseBlock)
        (Block.outlineOfElse elseBlock)
  | none => .nil
  | some block => Block.follows settings place region outside block

theorem BlockItem.follows_list (settings : Settings) (parent : Place) (index : Nat)
    (region : Place) (outside : ¬ BeneathFrom parent index region) :
    (items : List BlockItem) →
      Follows settings (BeneathFrom parent index) region
        (BlockItem.visitsOfList settings.blockScopes parent index region items)
        (BlockItem.outlineOfList items)
  | [] => .nil
  | .decl decl :: items =>
      (Decl.follows settings (index :: parent) region (not_beneath_child outside)
        decl).cons_child
        (BlockItem.follows_list settings parent (index + 1) region
          (not_beneathFrom_succ outside) items)
        outside
  | .stmt stmt :: items =>
      ((Stmt.follows settings (index :: parent) region (not_beneath_child outside)
        stmt).widen fun _ => BeneathFrom.beneath).cons_child
        (BlockItem.follows_list settings parent (index + 1) region
          (not_beneathFrom_succ outside) items)
        outside

end

private theorem routine_follows (settings : Settings) (place region : Place)
    (outside : ¬ Beneath place region) (params : Option (List Param)) (body : Block) :
    Follows settings (Beneath place) region (routineVisits settings.blockScopes place params body)
      [routineOutline params body] := by
  rcases body with ⟨items⟩
  have bodyItems := BlockItem.follows_list settings place 0 place
    (not_beneathFrom_self place 0) items
  have whole := bodyItems.append_sites (not_beneathFrom_self place 0)
    (fun param : Param => param.name.declared .parameter) (params.getD [])
  exact whole.enclosed rfl (fun _ => BeneathFrom.beneath) List.suffix_rfl outside

theorem Item.follows (settings : Settings) (place region : Place)
    (outside : ¬ Beneath place region) (item : Item) :
    Follows settings (Beneath place) region
      (item.visits settings.blockScopes place region) item.outline := by
  cases item with
  | decl inner => exact Decl.follows settings place region outside inner
  | function name params returns body =>
      exact (routine_follows settings place region outside params body).cons_site outside
        (name.declared .function)
  | procedure name params body =>
      exact (routine_follows settings place region outside params body).cons_site outside
        (name.declared .procedure)
  | stmt inner =>
      exact (Stmt.follows settings place region outside inner).widen fun _ => BeneathFrom.beneath

theorem Item.follows_list (settings : Settings) (index : Nat) (items : List Item) :
    Follows settings (BeneathFrom [] index) []
      (Item.visitsOfList settings.blockScopes index items) (items.flatMap Item.outline) := by
  induction items generalizing index with
  | nil => exact .nil
  | cons item items ih =>
      have outside : ¬ BeneathFrom [] index [] := not_beneathFrom_self [] index
      exact (Item.follows settings [index] [] (not_beneath_child outside) item).cons_child
        (ih (index + 1)) outside

theorem Program.follows (settings : Settings) (program : Program) :
    Follows settings (BeneathFrom [] 0) [] (program.visits settings.blockScopes)
      program.outline :=
  Item.follows_list settings 0 program.items

end ScopeLint
