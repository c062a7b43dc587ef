import ScopeLint.Proofs.Scope.Declaring
import ScopeLint.Proofs.Scope.History
import ScopeLint.Proofs.Scope.Sorted

/-!
A stack is explained by the actions that led to it. Its levels are the scopes that no exit has
closed, and each of them holds what was issued in it, every name with its first declaration;
so all answers of a stack can be read off the sequence of actions.
-/

set_option autoImplicit false

namespace ScopeLint

namespace ScopeStack

theorem run_concat (stack : ScopeStack) (history : List Action) (action : Action) :
    stack.run (history ++ [action]) = (stack.run history).perform action := by
  simp only [run, List.foldl_append, List.foldl_cons, List.foldl_nil]

theorem levels_enter (stack : ScopeStack) (kind : ScopeKind) :
    (stack.enter kind).levels = stack.levels ++ [⟨kind, .empty⟩] := by
  simp only [levels, enter, List.reverse_cons, List.cons_append]

/-- The global level is not among those that an exit can take away. -/
theorem levels_exit (stack : ScopeStack) :
    (stack.perform .exit).levels =
      ⟨.global, stack.globals⟩ :: stack.inner.reverse.dropLast := by
  cases stack with
  | mk globals inner =>
      cases inner with
      | nil => rfl
      | cons scope outer =>
          simp only [perform, exit?, levels, Option.getD_some, List.reverse_cons,
            List.dropLast_concat]

theorem length_levels (stack : ScopeStack) : stack.levels.length = stack.depth + 1 := by
  simp only [levels, depth, List.length_cons, List.length_reverse]

theorem resolve?_eq (stack : ScopeStack) (name : String) :
    stack.resolve? name = stack.levels.reverse.findSome? fun scope => scope.table.find? name := by
  simp only [resolve?, levels, List.reverse_cons, List.reverse_reverse, List.findSome?_append,
    List.findSome?_cons, List.findSome?_nil]
  congr 1
  cases stack.globals.find? name <;> rfl

/-- The scope at a level, with what the history says that it holds. -/
def scopeAfter (history : List Action) (level : Nat) (scope : OpenScope) : Scope :=
  { kind := scope.kind
    table := SymbolTable.empty.declareAll level (issuedIn scope.opener history) }

private theorem scopeAfter_concat_of_ne {history : List Action} {action : Action} {level : Nat}
    {scope : OpenScope}
    (elsewhere : ∀ declaration, action = .declare declaration →
      (current history).opener ≠ scope.opener) :
    scopeAfter (history ++ [action]) level scope = scopeAfter history level scope := by
  unfold scopeAfter
  rw [issuedIn_concat]
  cases action with
  | declare declaration =>
      simp only [if_neg (elsewhere declaration rfl), List.append_nil]
  | enter kind => simp only [List.append_nil]
  | exit => simp only [List.append_nil]

private theorem scopeAfter_declare_current (history : List Action) (declaration : Declaration)
    (level : Nat) :
    scopeAfter (history ++ [.declare declaration]) level (current history) =
      { scopeAfter history level (current history) with
        table := (scopeAfter history level (current history)).table.declare level
          declaration } := by
  simp only [scopeAfter, issuedIn_concat, if_true, SymbolTable.declareAll_append]
  rfl

private theorem scopeAfter_opened (history : List Action) (kind : ScopeKind) (level : Nat) :
    scopeAfter (history ++ [.enter kind]) level ⟨some history.length, kind⟩ =
      ⟨kind, .empty⟩ := by
  simp only [scopeAfter, issuedIn_concat, List.append_nil,
    issuedIn_eq_nil (Nat.le_refl history.length)]
  rfl

/-- The invariant of a run: level by level the stack is what the history says. -/
def Mirrors (stack : ScopeStack) (history : List Action) : Prop :=
  stack.levels = (openScopes history).mapIdx (scopeAfter history)

private theorem scopeAfter_concat_of_quiet {history : List Action} {action : Action}
    (quiet : ∀ declaration, action ≠ .declare declaration) :
    scopeAfter (history ++ [action]) = scopeAfter history := by
  funext level scope
  exact scopeAfter_concat_of_ne fun declaration isDeclare =>
    absurd isDeclare (quiet declaration)

theorem Mirrors.enter {stack : ScopeStack} {history : List Action}
    (mirrors : stack.Mirrors history) (kind : ScopeKind) :
    (stack.perform (.enter kind)).Mirrors (history ++ [.enter kind]) := by
  have opened : openScopes (history ++ [.enter kind]) =
      openScopes history ++ [⟨some history.length, kind⟩] := by
    simp only [openScopes, unmatched_enter, Nat.zero_add, List.cons_append]
  have quiet : ∀ declaration, Action.enter kind ≠ .declare declaration := nofun
  change (stack.enter kind).levels = _
  rw [levels_enter, mirrors, opened, List.mapIdx_append, List.mapIdx_singleton, Nat.zero_add,
    scopeAfter_opened, scopeAfter_concat_of_quiet quiet]

theorem Mirrors.exit {stack : ScopeStack} {history : List Action}
    (mirrors : stack.Mirrors history) :
    (stack.perform .exit).Mirrors (history ++ [.exit]) := by
  have closed : openScopes (history ++ [.exit]) =
      globalScope :: (unmatched 0 history).dropLast := by
    simp only [openScopes, unmatched_exit]
  have quiet : ∀ declaration, Action.exit ≠ .declare declaration := nofun
  unfold Mirrors at mirrors ⊢
  rw [levels_exit, closed, scopeAfter_concat_of_quiet quiet]
  simp only [levels, openScopes, List.mapIdx_cons] at mirrors ⊢
  rcases List.cons.inj mirrors with ⟨globalSame, innerSame⟩
  rw [globalSame, innerSame]
  congr 1
  cases unmatched 0 history using List.reverseRecOn with
  | nil => rfl
  | append_singleton outer innermost _ =>
      rw [List.mapIdx_append, List.mapIdx_singleton, List.dropLast_concat, List.dropLast_concat]

/-- A declaration falls to the current scope, and the other open scopes keep what they have. -/
private theorem outer_scopeAfter_declare (history : List Action) (declaration : Declaration) :
    (openScopes history).dropLast.mapIdx (scopeAfter (history ++ [.declare declaration])) =
      (openScopes history).dropLast.mapIdx (scopeAfter history) := by
  apply List.mapIdx_eq_mapIdx_iff.mpr
  intro level within
  apply scopeAfter_concat_of_ne
  intro _ _ sameOpener
  have distinct := nodup_openers history
  rw [openScopes_eq, List.map_append, List.nodup_append] at distinct
  exact distinct.2.2 _ (List.mem_map_of_mem (List.getElem_mem within)) _
    (List.mem_singleton_self _) sameOpener.symm

theorem Mirrors.declare {stack : ScopeStack} {history : List Action}
    (mirrors : stack.Mirrors history) (declaration : Declaration) :
    (stack.perform (.declare declaration)).Mirrors (history ++ [.declare declaration]) := by
  have sameScopes : openScopes (history ++ [.declare declaration]) =
      (openScopes history).dropLast ++ [current history] := by
    rw [← openScopes_eq]
    simp only [openScopes, unmatched_declare]
  unfold Mirrors at mirrors ⊢
  have lengths := congrArg List.length mirrors
  rw [length_levels, List.length_mapIdx, openScopes_eq, List.length_append,
    List.length_singleton] at lengths
  have depthSame : stack.depth = (openScopes history).dropLast.length := Nat.succ.inj lengths
  rw [levels_eq, openScopes_eq, List.mapIdx_append, List.mapIdx_singleton, Nat.zero_add]
    at mirrors
  rcases List.append_inj' mirrors rfl with ⟨outerSame, innermostSame⟩
  have atCurrent := List.head_eq_of_cons_eq innermostSame
  rw [perform_declare, levels_withInnermost, outerSame, sameScopes, List.mapIdx_append,
    List.mapIdx_singleton, Nat.zero_add, outer_scopeAfter_declare, scopeAfter_declare_current,
    depthSame, atCurrent]

theorem mirrors_run (history : List Action) : (initial.run history).Mirrors history := by
  induction history using List.reverseRecOn with
  | nil => rfl
  | append_singleton history action ih =>
      rw [run_concat]
      cases action with
      | enter kind => exact ih.enter kind
      | exit => exact ih.exit
      | declare declaration => exact ih.declare declaration

theorem depth_run (history : List Action) :
    (initial.run history).depth = (unmatched 0 history).length := by
  have sameLevels : (initial.run history).levels = _ := mirrors_run history
  have lengths := congrArg List.length sameLevels
  rw [length_levels, List.length_mapIdx, openScopes, List.length_cons] at lengths
  exact Nat.succ.inj lengths

theorem innermost_run (history : List Action) :
    (initial.run history).innermost =
      scopeAfter history (initial.run history).depth (current history) := by
  have sameLevels : (initial.run history).levels = _ := mirrors_run history
  have outerLength : (openScopes history).dropLast.length = (initial.run history).depth := by
    rw [depth_run, List.length_dropLast, openScopes, List.length_cons, Nat.add_sub_cancel]
  rw [levels_eq, openScopes_eq, List.mapIdx_append, List.mapIdx_singleton, Nat.zero_add,
    outerLength] at sameLevels
  exact List.head_eq_of_cons_eq (List.append_inj' sameLevels rfl).2

theorem globals_run (history : List Action) :
    (initial.run history).globals = (scopeAfter history 0 globalScope).table := by
  have sameLevels : (initial.run history).levels = _ := mirrors_run history
  simp only [levels, openScopes, List.mapIdx_cons] at sameLevels
  exact congrArg Scope.table (List.cons.inj sameLevels).1

def symbolAt? (history : List Action) (name : String) (level : Nat) (scope : OpenScope) :
    Option Symbol :=
  (firstIssued? scope.opener history name).map fun declaration => ⟨declaration, level⟩

theorem find?_scopeAfter (history : List Action) (name : String) (level : Nat)
    (scope : OpenScope) :
    (scopeAfter history level scope).table.find? name = symbolAt? history name level scope := by
  simp only [scopeAfter, SymbolTable.find?_declareAll, SymbolTable.find?_empty, Option.none_or]
  rfl

theorem resolveLocal?_run (history : List Action) (name : String) :
    (initial.run history).resolveLocal? name =
      symbolAt? history name (initial.run history).depth (current history) := by
  rw [resolveLocal?, innermost_run, find?_scopeAfter]

/-- What a stack answers, in terms of the actions that led to it. -/
structure ExplainedBy (stack : ScopeStack) (history : List Action) : Prop where
  depth : stack.depth = (unmatched 0 history).length
  kinds : stack.levels.map Scope.kind = (openScopes history).map OpenScope.kind
  exitRefused : stack.exit? = none ↔ unmatched 0 history = []
  exitHarmless : stack.exit? = none → stack.perform .exit = stack
  declareRefused : ∀ declaration,
    (∃ problem, stack.declare declaration = .error problem) ↔
      ∃ earlier ∈ issuedIn (current history).opener history, earlier.name = declaration.name
  refusal : ∀ declaration problem, stack.declare declaration = .error problem →
    ∃ first, firstIssued? (current history).opener history declaration.name = some first ∧
      problem = ⟨declaration.name, declaration.line, first.line⟩ ∧
      stack.perform (.declare declaration) = stack
  resolve : ∀ name, stack.resolve? name =
    ((openScopes history).mapIdx (symbolAt? history name)).reverse.findSome? id
  resolveLocal : ∀ name, stack.resolveLocal? name =
    symbolAt? history name stack.depth (current history)
  globals : ∀ symbol, symbol ∈ stack.globalSymbols ↔
    symbolAt? history symbol.name 0 globalScope = some symbol
  globalsOrdered : stack.globalSymbols.Pairwise Symbol.Before

private theorem map_mapIdx {α β γ : Type} (make : Nat → α → β) (view : β → γ)
    (items : List α) :
    (items.mapIdx make).map view = items.mapIdx fun index item => view (make index item) := by
  refine List.ext_getElem? fun index => ?_
  simp only [List.getElem?_map, List.getElem?_mapIdx, Option.map_map, Function.comp_def]

private theorem exit?_eq_none_iff (stack : ScopeStack) : stack.exit? = none ↔ stack.depth = 0 := by
  cases stack with
  | mk globals inner =>
      cases inner with
      | nil => exact ⟨fun _ => rfl, fun _ => rfl⟩
      | cons scope outer => exact ⟨nofun, nofun⟩

theorem declare_error_iff (stack : ScopeStack) (declaration : Declaration)
    (problem : Redeclaration) :
    stack.declare declaration = .error problem ↔
      ∃ existing, stack.resolveLocal? declaration.name = some existing ∧
        problem = ⟨declaration.name, declaration.line, existing.line⟩ := by
  cases found : stack.resolveLocal? declaration.name with
  | none =>
      have fresh := (stack.innermost.table.find?_eq_none_iff declaration.name).mp found
      rw [declare_of_fresh fresh]
      exact ⟨nofun, nofun⟩
  | some existing =>
      rw [declare_of_find? found]
      constructor
      · intro same
        exact ⟨existing, rfl, (Except.error.inj same).symm⟩
      · rintro ⟨other, sameSymbol, rfl⟩
        rw [Option.some.inj sameSymbol]

private theorem perform_declare_of_error {stack : ScopeStack} {declaration : Declaration}
    {problem : Redeclaration} (refused : stack.declare declaration = .error problem) :
    stack.perform (.declare declaration) = stack := by
  simp only [perform, refused]

theorem explainedBy_run (history : List Action) :
    (initial.run history).ExplainedBy history := by
  have localSymbol := resolveLocal?_run history
  refine
    { depth := depth_run history
      kinds := ?_
      exitRefused := ?_
      exitHarmless := ?_
      declareRefused := ?_
      refusal := ?_
      resolve := ?_
      resolveLocal := localSymbol
      globals := ?_
      globalsOrdered := (initial.run history).globals.sorted_strict }
  · rw [mirrors_run, map_mapIdx]
    refine List.ext_getElem? fun level => ?_
    simp only [List.getElem?_mapIdx, List.getElem?_map, scopeAfter]
  · rw [exit?_eq_none_iff, depth_run, List.length_eq_zero_iff]
  · intro refused
    simp only [perform, refused, Option.getD_none]
  · intro declaration
    have issued : (∃ earlier ∈ issuedIn (current history).opener history,
        earlier.name = declaration.name) ↔
        (firstIssued? (current history).opener history declaration.name).isSome = true := by
      simp only [firstIssued?, List.find?_isSome, beq_iff_eq]
    rw [issued]
    simp only [declare_error_iff, localSymbol, symbolAt?]
    cases firstIssued? (current history).opener history declaration.name with
    | none => simp
    | some first => simp
  · intro declaration problem refused
    rcases (declare_error_iff _ declaration problem).mp refused with ⟨existing, found, rfl⟩
    rw [localSymbol, symbolAt?, Option.map_eq_some_iff] at found
    rcases found with ⟨first, isFirst, rfl⟩
    exact ⟨first, isFirst, rfl, perform_declare_of_error refused⟩
  · intro name
    have asSymbols : (openScopes history).mapIdx (symbolAt? history name) =
        (initial.run history).levels.map fun scope => scope.table.find? name := by
      rw [mirrors_run, map_mapIdx]
      simp only [find?_scopeAfter]
    rw [resolve?_eq, asSymbols, ← List.map_reverse, List.findSome?_map]
    rfl
  · intro symbol
    rw [globalSymbols, SymbolTable.mem_sorted_iff, globals_run, ← find?_scopeAfter,
      SymbolTable.find?_eq_some_iff, and_iff_left rfl]

end ScopeStack

end ScopeLint
