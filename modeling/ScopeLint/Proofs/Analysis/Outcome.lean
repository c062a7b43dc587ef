import ScopeLint.Proofs.Analysis.Walk

/-!
What the analysis of a program comes to, told without a stack of scopes. The diagnostics are
those of the way through the tree, and of the declarations only those of the program's own
region stay, each name with its first one.
-/

set_option autoImplicit false

namespace ScopeLint

namespace Context

/-- A name is reported where an earlier site of its region has it, a loop after its body where
its end names another variable, and all of them in the order of the tree. -/
theorem diagnostics_replay_initial (settings : Settings) (program : Program) :
    ((initial settings).perform (.replay program)).diagnostics =
      Visit.diagnostics (program.visits settings.blockScopes) := by
  have gains := (initial settings).gains_replay program.outline
  have nothingSeen : ∀ name, name ∈ (initial settings).names ↔
      ∃ other ∈ Visit.declarationsIn [] [], other.name = name := by
    intro name
    simp [names, initial, ScopeStack.initial, ScopeStack.innermost, SymbolTable.names,
      SymbolTable.empty, Visit.declarationsIn]
  have found := (program.follows settings).found [] (initial settings).names nothingSeen
    fun _ _ => rfl
  rw [Visit.diagnostics_eq, found]
  exact gains.diagnostics

/-- A variable and, in the body of a loop, another one of its name. -/
example :
    let program : Program :=
      ⟨[.decl (.var ⟨"x", 1⟩ .integer),
        .stmt (.forNext ⟨"i", 2⟩ (.call ⟨⟨"f", 2⟩, []⟩) (.call ⟨⟨"f", 2⟩, []⟩) none
          ⟨[.decl (.var ⟨"x", 3⟩ .real)]⟩ ⟨"j", 4⟩)]⟩
    Visit.diagnostics (program.visits false) =
        [⟨.alreadyDefined, "x", 3⟩, ⟨.namesDiffer, "j", 4⟩] ∧
      Visit.diagnostics (program.visits true) = [⟨.namesDiffer, "j", 4⟩] := by
  decide

/-- How a context comes out of another when the declarations `sites` fall to its innermost
scope: nothing else of the stack changes, and each new name has its first site there. -/
structure Absorbs (before after : Context) (sites : List Declaration) : Prop where
  settings : after.settings = before.settings
  depth : after.scopes.depth = before.scopes.depth
  kinds : after.scopes.levels.map Scope.kind = before.scopes.levels.map Scope.kind
  outer : after.scopes.levels.dropLast = before.scopes.levels.dropLast
  diagnostics : before.diagnostics <+: after.diagnostics
  kept : before.scopes.innermost.table.symbols <+: after.scopes.innermost.table.symbols
  distinct : after.names.Nodup
  symbols : ∀ symbol, symbol ∈ after.scopes.innermost.table.symbols ↔
    symbol ∈ before.scopes.innermost.table.symbols ∨
      symbol.name ∉ before.names ∧
        ∃ site, sites.find? (fun site => site.name == symbol.name) = some site ∧
          symbol = ⟨site, before.scopes.depth⟩

private theorem mem_symbols_declareAll (table : SymbolTable) (depth : Nat)
    (sites : List Declaration) (symbol : Symbol) :
    symbol ∈ (table.declareAll depth sites).symbols ↔
      symbol ∈ table.symbols ∨
        symbol.name ∉ table.names ∧
          ∃ site, sites.find? (fun site => site.name == symbol.name) = some site ∧
            symbol = ⟨site, depth⟩ := by
  have asFound : symbol ∈ (table.declareAll depth sites).symbols ↔
      (table.declareAll depth sites).find? symbol.name = some symbol := by
    rw [SymbolTable.find?_eq_some_iff, and_iff_left rfl]
  have wasFound : symbol ∈ table.symbols ↔ table.find? symbol.name = some symbol := by
    rw [SymbolTable.find?_eq_some_iff, and_iff_left rfl]
  rw [asFound, wasFound, SymbolTable.find?_declareAll, Option.or_eq_some_iff,
    SymbolTable.find?_eq_none_iff, Option.map_eq_some_iff]
  simp only [eq_comm]

theorem Gains.absorbs {before after : Context} {sites : List Declaration}
    {found : List Diagnostic} (gains : before.Gains after sites found) :
    before.Absorbs after sites := by
  have innermostTable : after.scopes.innermost.table =
      before.scopes.innermost.table.declareAll before.scopes.depth sites := by
    rw [gains.scopes, ScopeStack.innermost_withInnermost]
  refine
    { settings := gains.settings
      depth := ?_
      kinds := ?_
      outer := ?_
      diagnostics := ?_
      kept := ?_
      distinct := after.scopes.innermost.table.distinct
      symbols := ?_ }
  · rw [gains.scopes, ScopeStack.depth_withInnermost]
  · rw [gains.scopes, ScopeStack.levels_withInnermost, List.map_append]
    conv_rhs => rw [before.scopes.levels_eq, List.map_append]
    rfl
  · rw [gains.scopes, ScopeStack.levels_withInnermost, List.dropLast_concat]
  · rw [gains.diagnostics]
    exact List.prefix_append before.diagnostics found
  · rw [innermostTable]
    exact before.scopes.innermost.table.symbols_prefix_declareAll before.scopes.depth sites
  · intro symbol
    rw [innermostTable]
    exact mem_symbols_declareAll before.scopes.innermost.table before.scopes.depth sites symbol

/-- From whatever context a program is replayed, only the sites of its own region are left, in
the scope that was the innermost one before. -/
theorem absorbs_replay (context : Context) (program : Program) :
    context.Absorbs (context.perform (.replay program))
      (Visit.declarationsIn [] (program.visits context.settings.blockScopes)) := by
  have gains := context.gains_replay program.outline
  rw [← (program.follows context.settings).own] at gains
  exact gains.absorbs

end Context

end ScopeLint
