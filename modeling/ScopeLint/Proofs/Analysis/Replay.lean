import ScopeLint.Analysis.Context
import ScopeLint.Proofs.Scope.Declaring

/-!
What going through an outline comes to. Inside, scopes are opened and closed all the time; seen
from outside, the marks of a region declare the names of that region in the innermost scope
and add their diagnostics, and nothing else is left of them.
-/

set_option autoImplicit false

namespace ScopeLint

namespace Mark

mutual

/-- The declarations of a mark that fall to the region around it. -/
def own (settings : Settings) : Mark → List Declaration
  | .site declaration => [declaration]
  | .loop _ _ => []
  | .region kind marks => if settings.opens kind then [] else ownOfList settings marks

def ownOfList (settings : Settings) : List Mark → List Declaration
  | [] => []
  | mark :: marks => mark.own settings ++ ownOfList settings marks

end

def ownNames (settings : Settings) (marks : List Mark) : List String :=
  (ownOfList settings marks).map fun declaration => declaration.name

mutual

/-- The diagnostics of a mark in a region that has the names `seen` already. -/
def findings (settings : Settings) (seen : List String) : Mark → List Diagnostic
  | .site declaration =>
      if declaration.name ∈ seen then [⟨.alreadyDefined, declaration.name, declaration.line⟩]
      else []
  | .loop opening closing =>
      if opening.name = closing.name then [] else [⟨.namesDiffer, closing.name, closing.line⟩]
  | .region kind marks =>
      findingsOfList settings (if settings.opens kind then [] else seen) marks

def findingsOfList (settings : Settings) (seen : List String) : List Mark → List Diagnostic
  | [] => []
  | mark :: marks =>
      mark.findings settings seen ++
        findingsOfList settings (seen ++ ownNames settings [mark]) marks

end

theorem ownOfList_singleton (settings : Settings) (mark : Mark) :
    ownOfList settings [mark] = mark.own settings := by
  simp only [ownOfList, List.append_nil]

theorem ownOfList_append (settings : Settings) (first second : List Mark) :
    ownOfList settings (first ++ second) =
      ownOfList settings first ++ ownOfList settings second := by
  induction first with
  | nil => rfl
  | cons mark marks ih => simp only [List.cons_append, ownOfList, ih, List.append_assoc]

theorem ownNames_cons (settings : Settings) (mark : Mark) (marks : List Mark) :
    ownNames settings (mark :: marks) = ownNames settings [mark] ++ ownNames settings marks := by
  simp only [ownNames, ownOfList, List.append_nil, List.map_append]

theorem findingsOfList_singleton (settings : Settings) (seen : List String) (mark : Mark) :
    findingsOfList settings seen [mark] = mark.findings settings seen := by
  simp only [findingsOfList, List.append_nil]

theorem findingsOfList_append (settings : Settings) (seen : List String)
    (first second : List Mark) :
    findingsOfList settings seen (first ++ second) =
      findingsOfList settings seen first ++
        findingsOfList settings (seen ++ ownNames settings first) second := by
  induction first generalizing seen with
  | nil => simp only [ownNames, ownOfList, findingsOfList, List.map_nil, List.nil_append,
      List.append_nil]
  | cons mark marks ih =>
      simp only [List.cons_append, findingsOfList]
      rw [ih, ownNames_cons settings mark marks]
      simp only [List.append_assoc]

mutual

/-- Only which names were seen counts, not how often or in which order. -/
theorem findings_congr (settings : Settings) {left right : List String}
    (same : ∀ name, name ∈ left ↔ name ∈ right) :
    (mark : Mark) → mark.findings settings left = mark.findings settings right
  | .site declaration => by simp only [findings, same]
  | .loop _ _ => rfl
  | .region kind marks => by
      simp only [findings]
      split
      · rfl
      · exact findingsOfList_congr settings same marks

theorem findingsOfList_congr (settings : Settings) {left right : List String}
    (same : ∀ name, name ∈ left ↔ name ∈ right) :
    (marks : List Mark) →
      findingsOfList settings left marks = findingsOfList settings right marks
  | [] => rfl
  | mark :: marks => by
      have later : ∀ name, name ∈ left ++ ownNames settings [mark] ↔
          name ∈ right ++ ownNames settings [mark] := by
        intro name
        rw [List.mem_append, List.mem_append, same]
      simp only [findingsOfList, findings_congr settings same mark,
        findingsOfList_congr settings later marks]

end

end Mark

namespace Context

/-- How a context comes out of another by declaring in the innermost scope and reporting. -/
structure Gains (before after : Context) (declared : List Declaration)
    (found : List Diagnostic) : Prop where
  settings : after.settings = before.settings
  scopes : after.scopes = before.scopes.withInnermost
    (before.scopes.innermost.table.declareAll before.scopes.depth declared)
  diagnostics : after.diagnostics = before.diagnostics ++ found

def names (context : Context) : List String :=
  context.scopes.innermost.table.names

namespace Gains

theorem refl (context : Context) : context.Gains context [] [] where
  settings := rfl
  scopes := context.scopes.withInnermost_innermost.symm
  diagnostics := (List.append_nil context.diagnostics).symm

theorem trans {first second third : Context} {declared declared' : List Declaration}
    {found found' : List Diagnostic} (earlier : first.Gains second declared found)
    (later : second.Gains third declared' found') :
    first.Gains third (declared ++ declared') (found ++ found') where
  settings := later.settings.trans earlier.settings
  scopes := by
    rw [later.scopes, earlier.scopes]
    simp only [ScopeStack.innermost_withInnermost, ScopeStack.depth_withInnermost,
      ScopeStack.withInnermost_withInnermost, SymbolTable.declareAll_append]
  diagnostics := by
    rw [later.diagnostics, earlier.diagnostics, List.append_assoc]

theorem mem_names_iff {before after : Context} {declared : List Declaration}
    {found : List Diagnostic} (gains : before.Gains after declared found) (name : String) :
    name ∈ after.names ↔
      name ∈ before.names ∨ name ∈ declared.map (fun declaration => declaration.name) := by
  unfold names
  rw [gains.scopes, ScopeStack.innermost_withInnermost]
  exact SymbolTable.mem_names_declareAll _ _ declared name

/-- A scope that is opened before and closed after leaves the diagnostics alone. -/
theorem enclose {context inside : Context} {kind : ScopeKind} {declared : List Declaration}
    {found : List Diagnostic} (gains : (context.act (.enter kind)).Gains inside declared found) :
    context.Gains (inside.act .exit) [] found where
  settings := gains.settings
  scopes := by
    change inside.scopes.exit?.getD inside.scopes = _
    rw [gains.scopes]
    change ((context.scopes.enter kind).withInnermost _).exit?.getD _ = _
    rw [ScopeStack.exit?_withInnermost_enter]
    exact context.scopes.withInnermost_innermost.symm
  diagnostics := gains.diagnostics

end Gains

theorem declare_of_taken {context : Context} {declaration : Declaration}
    (taken : declaration.name ∈ context.names) :
    context.declare declaration =
      (false, context.report ⟨.alreadyDefined, declaration.name, declaration.line⟩) := by
  obtain ⟨existing, found⟩ := Option.isSome_iff_exists.mp
    ((context.scopes.innermost.table.find?_isSome_iff declaration.name).mpr taken)
  simp only [declare, ScopeStack.declare_of_find? found]

theorem declare_of_new {context : Context} {declaration : Declaration}
    (new : declaration.name ∉ context.names) :
    context.declare declaration = (true, context.act (.declare declaration)) := by
  simp only [declare, ScopeStack.declare_of_fresh new]

theorem gains_declare (context : Context) (declaration : Declaration) :
    context.Gains (context.declare declaration).2 [declaration]
      (if declaration.name ∈ context.names then
        [⟨.alreadyDefined, declaration.name, declaration.line⟩] else []) := by
  by_cases taken : declaration.name ∈ context.names
  · rw [if_pos taken, declare_of_taken taken]
    refine ⟨rfl, ?_, rfl⟩
    change context.scopes =
      context.scopes.withInnermost (context.scopes.innermost.table.declare _ declaration)
    rw [SymbolTable.declare_of_mem context.scopes.depth taken]
    exact context.scopes.withInnermost_innermost.symm
  · rw [if_neg taken, declare_of_new taken]
    exact ⟨rfl, context.scopes.perform_declare declaration,
      (List.append_nil context.diagnostics).symm⟩

theorem gains_checkLoop (context : Context) (opening closing : Identifier) :
    context.Gains (context.checkLoop opening closing).2 []
      (if opening.name = closing.name then []
      else [⟨.namesDiffer, closing.name, closing.line⟩]) := by
  unfold checkLoop
  split
  · exact Gains.refl context
  · exact ⟨rfl, context.scopes.withInnermost_innermost.symm, rfl⟩

mutual

theorem gains_replayMark (context : Context) :
    (mark : Mark) → context.Gains (context.replayMark mark) (mark.own context.settings)
      (mark.findings context.settings context.names)
  | .site declaration => by
      simp only [replayMark, Mark.own, Mark.findings]
      exact context.gains_declare declaration
  | .loop opening closing => by
      simp only [replayMark, Mark.own, Mark.findings]
      exact context.gains_checkLoop opening closing
  | .region kind marks => by
      simp only [replayMark, Mark.own, Mark.findings]
      split
      · exact (gains_replay (context.act (.enter kind)) marks).enclose
      · exact gains_replay context marks

theorem gains_replay (context : Context) :
    (marks : List Mark) → context.Gains (context.replay marks)
      (Mark.ownOfList context.settings marks)
      (Mark.findingsOfList context.settings context.names marks)
  | [] => by
      simp only [replay, Mark.ownOfList, Mark.findingsOfList]
      exact Gains.refl context
  | mark :: marks => by
      have first := gains_replayMark context mark
      have rest := gains_replay (context.replayMark mark) marks
      have seen : ∀ name, name ∈ (context.replayMark mark).names ↔
          name ∈ context.names ++ Mark.ownNames context.settings [mark] := by
        intro name
        rw [first.mem_names_iff, List.mem_append, Mark.ownNames, Mark.ownOfList_singleton]
      rw [first.settings, Mark.findingsOfList_congr context.settings seen] at rest
      simp only [replay, Mark.ownOfList, Mark.findingsOfList]
      exact first.trans rest

end

/-- What the steps of a replay keep. -/
structure Kept (property : Context → Prop) : Prop where
  declare : ∀ context declaration, property context →
    property (Context.declare context declaration).2
  checkLoop : ∀ context opening closing, property context →
    property (Context.checkLoop context opening closing).2
  act : ∀ context action, property context → property (Context.act context action)

namespace Kept

variable {property : Context → Prop}

mutual

theorem replayMark (kept : Kept property) {context : Context} (holds : property context) :
    (mark : Mark) → property (context.replayMark mark)
  | .site declaration => by
      rw [Context.replayMark]
      exact kept.declare context declaration holds
  | .loop opening closing => by
      rw [Context.replayMark]
      exact kept.checkLoop context opening closing holds
  | .region kind marks => by
      rw [Context.replayMark]
      split
      · apply kept.act
        exact kept.replay (kept.act context (.enter kind) holds) marks
      · exact kept.replay holds marks

theorem replay (kept : Kept property) {context : Context} (holds : property context) :
    (marks : List Mark) → property (context.replay marks)
  | [] => by
      rw [Context.replay]
      exact holds
  | mark :: marks => by
      rw [Context.replay]
      exact kept.replay (kept.replayMark holds mark) marks

end

end Kept

/-- After a replay into a new context only the global scope is open, as before. -/
theorem scopes_replay_initial (settings : Settings) (marks : List Mark) :
    ((initial settings).replay marks).scopes =
      { globals := SymbolTable.empty.declareAll 0 (Mark.ownOfList settings marks)
        inner := [] } :=
  ((initial settings).gains_replay marks).scopes

end Context

end ScopeLint
