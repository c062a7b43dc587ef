import ScopeLint.Proofs.Analysis.Thinning

/-!
Two replays side by side. What a replay adds depends on the outline, on whether control blocks
have scopes, and on the names in the innermost scope, and on nothing else of a context. Scopes
for control blocks can only take diagnostics away.
-/

set_option autoImplicit false

namespace ScopeLint

def Diagnostic.mismatches (diagnostics : List Diagnostic) : List Diagnostic :=
  diagnostics.filter fun diagnostic => diagnostic.kind = .namesDiffer

theorem Diagnostic.mismatches_append (first second : List Diagnostic) :
    mismatches (first ++ second) = mismatches first ++ mismatches second :=
  List.filter_append first second

namespace Mark

mutual

/-- A loop is compared with its end alone, whatever names are known there. -/
theorem mismatches_findings (settings other : Settings) (seen known : List String) :
    (mark : Mark) →
      Diagnostic.mismatches (mark.findings settings seen) =
        Diagnostic.mismatches (mark.findings other known)
  | .site declaration => by
      have nothing (names : List String) (choice : Settings) :
          Diagnostic.mismatches ((Mark.site declaration).findings choice names) = [] := by
        simp only [findings]
        split <;> rfl
      rw [nothing, nothing]
  | .loop _ _ => rfl
  | .region _ marks => by
      simp only [findings]
      exact mismatches_findingsOfList settings other _ _ marks

theorem mismatches_findingsOfList (settings other : Settings) (seen known : List String) :
    (marks : List Mark) →
      Diagnostic.mismatches (findingsOfList settings seen marks) =
        Diagnostic.mismatches (findingsOfList other known marks)
  | [] => rfl
  | mark :: marks => by
      simp only [findingsOfList, Diagnostic.mismatches_append]
      rw [mismatches_findings settings other seen known mark,
        mismatches_findingsOfList settings other _ (known ++ ownNames other [mark]) marks]

end

end Mark

namespace Context

/-- The diagnostics that replaying a program adds. -/
def reported (context : Context) (program : Program) : List Diagnostic :=
  (context.perform (.replay program)).diagnostics.drop context.diagnostics.length

/-- The symbols that replaying a program adds to the innermost scope. -/
def added (context : Context) (program : Program) : List Symbol :=
  (context.perform (.replay program)).scopes.innermost.table.symbols.drop
    context.scopes.innermost.table.symbols.length

def withBlockScopes (context : Context) (choice : Bool) : Context :=
  context.perform (.configure { context.settings with blockScopes := choice })

theorem reported_eq (context : Context) (program : Program) :
    context.reported program =
      Mark.findingsOfList context.settings context.names program.outline := by
  have gains := context.gains_replay program.outline
  unfold reported
  exact gains.diagnostics ▸ List.drop_left

theorem diagnostics_replay (context : Context) (program : Program) :
    (context.perform (.replay program)).diagnostics =
      context.diagnostics ++ context.reported program := by
  rw [reported_eq]
  exact (context.gains_replay program.outline).diagnostics

theorem table_replay (context : Context) (program : Program) :
    (context.perform (.replay program)).scopes.innermost.table =
      context.scopes.innermost.table.declareAll context.scopes.depth
        (Mark.ownOfList context.settings program.outline) := by
  have gains := context.gains_replay program.outline
  change (context.replay program.outline).scopes.innermost.table = _
  rw [gains.scopes, ScopeStack.innermost_withInnermost]

theorem added_eq (context : Context) (program : Program) :
    context.added program =
      (Declaration.accepted context.names
        (Mark.ownOfList context.settings program.outline)).map fun declaration =>
          ⟨declaration, context.scopes.depth⟩ := by
  rw [added, table_replay, SymbolTable.symbols_declareAll, List.drop_left]
  rfl

/-- The declarations behind the new symbols, which do not tell the depth. -/
theorem declarations_added (context : Context) (program : Program) :
    (context.added program).map Symbol.toDeclaration =
      Declaration.accepted context.names
        (Mark.ownOfList context.settings program.outline) := by
  rw [added_eq, List.map_map]
  exact List.map_id _

theorem mem_names_replay (context : Context) (program : Program) (name : String) :
    name ∈ (context.perform (.replay program)).names ↔
      name ∈ context.names ∨ name ∈ Mark.ownNames context.settings program.outline :=
  (context.gains_replay program.outline).mem_names_iff name

theorem reported_sublist {left right : Context} {fewer program : Program}
    (thinned : Mark.Thinned fewer.outline program.outline)
    (refines : left.settings.Refines right.settings) (within : left.names ⊆ right.names) :
    (left.reported fewer).Sublist (right.reported program) := by
  rw [reported_eq, reported_eq]
  exact thinned.findingsOfList_sublist refines within

/-- With scopes for control blocks a replay reports less than without them, but for the loops,
where it reports the same, and it leaves no other names in the innermost scope. -/
theorem replay_withBlockScopes (context : Context) (program : Program) :
    ((context.withBlockScopes true).reported program).Sublist
        ((context.withBlockScopes false).reported program) ∧
      Diagnostic.mismatches ((context.withBlockScopes true).reported program) =
        Diagnostic.mismatches ((context.withBlockScopes false).reported program) ∧
      ∀ name, name ∈ ((context.withBlockScopes true).perform (.replay program)).names →
        name ∈ ((context.withBlockScopes false).perform (.replay program)).names := by
  have whole := Mark.Thinned.refl program.outline
  have refines : (context.withBlockScopes true).settings.Refines
      (context.withBlockScopes false).settings :=
    Settings.refines_of_blockScopes fun _ => rfl
  refine ⟨reported_sublist whole refines (List.Subset.refl context.names), ?_, ?_⟩
  · rw [reported_eq, reported_eq]
    exact Mark.mismatches_findingsOfList _ _ _ _ program.outline
  · intro name
    rw [mem_names_replay, mem_names_replay]
    intro present
    apply present.imp_right
    intro own
    exact whole.ownNames_subset refines own

/-- Two contexts whose innermost scopes have the same names tell nothing else about themselves
in what a replay adds. Their outer scopes may have any names. -/
theorem replay_eq_of_sameNames {left right : Context}
    (sameChoice : left.settings.blockScopes = right.settings.blockScopes)
    (sameNames : ∀ name, name ∈ left.names ↔ name ∈ right.names) (program : Program) :
    left.reported program = right.reported program ∧
      (left.added program).map Symbol.toDeclaration =
        (right.added program).map Symbol.toDeclaration := by
  have whole := Mark.Thinned.refl program.outline
  have leftRefines : left.settings.Refines right.settings :=
    Settings.refines_of_blockScopes fun chosen => sameChoice.trans chosen
  have rightRefines : right.settings.Refines left.settings :=
    Settings.refines_of_blockScopes fun chosen => sameChoice.symm.trans chosen
  constructor
  · have leftWithin : left.names ⊆ right.names := fun name => (sameNames name).mp
    have rightWithin : right.names ⊆ left.names := fun name => (sameNames name).mpr
    exact (reported_sublist whole leftRefines leftWithin).antisymm
      (reported_sublist whole rightRefines rightWithin)
  · have sameOwn : Mark.ownOfList left.settings program.outline =
        Mark.ownOfList right.settings program.outline :=
      (whole.ownOfList_sublist leftRefines).antisymm (whole.ownOfList_sublist rightRefines)
    rw [declarations_added, declarations_added, sameOwn,
      Declaration.accepted_congr sameNames]

/-- Inside a routine, below an `x` that the program has twice. -/
def exampleInner : Context :=
  (initial .standard).run
    [.declare ⟨"x", .var, 1, none⟩, .declare ⟨"x", .type, 2, none⟩, .act (.enter .routine),
      .declare ⟨"b", .parameter, 3, none⟩, .declare ⟨"a", .var, 4, none⟩]

/-- At the start of a program, with other settings and other symbols of the same names. -/
def exampleOuter : Context :=
  (initial { blockScopes := false, scopeOrder := .innermostFirst, indentWidth := 0 }).run
    [.declare ⟨"a", .constant, 9, some (.boolean true)⟩, .declare ⟨"b", .function, 8, none⟩]

/-- A new name, a loop around a taken one that is closed by another name, and the new name
again. -/
def exampleNames : Program :=
  ⟨[.decl (.var ⟨"x", 10⟩ .integer),
    .stmt (.forNext ⟨"i", 11⟩ (.literal (.boolean true)) (.literal (.boolean true)) none
      ⟨[.decl (.pointer ⟨"b", 12⟩ .real)]⟩ ⟨"j", 13⟩),
    .decl (.constant ⟨"x", 14⟩ (.literal (.boolean true)))]⟩

theorem exampleNames_replay :
    exampleInner.settings.blockScopes = exampleOuter.settings.blockScopes ∧
      (∀ name, name ∈ exampleInner.names ↔ name ∈ exampleOuter.names) ∧
      exampleInner.reported exampleNames =
        [⟨.alreadyDefined, "b", 12⟩, ⟨.namesDiffer, "j", 13⟩, ⟨.alreadyDefined, "x", 14⟩] ∧
      exampleInner.reported exampleNames = exampleOuter.reported exampleNames ∧
      (exampleInner.added exampleNames).map Symbol.toDeclaration =
        (exampleOuter.added exampleNames).map Symbol.toDeclaration := by
  have sameChoice : exampleInner.settings.blockScopes = exampleOuter.settings.blockScopes := rfl
  have sameNames : ∀ name, name ∈ exampleInner.names ↔ name ∈ exampleOuter.names := by
    have inner : exampleInner.names = ["b", "a"] := by decide
    have outer : exampleOuter.names = ["a", "b"] := by decide
    intro name
    rw [inner, outer, List.mem_pair, List.mem_pair]
    exact or_comm
  exact ⟨sameChoice, sameNames, by decide,
    replay_eq_of_sameNames sameChoice sameNames exampleNames⟩

end Context

end ScopeLint
