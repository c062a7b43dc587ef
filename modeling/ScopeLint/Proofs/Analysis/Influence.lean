import ScopeLint.Analysis.Report
import ScopeLint.Proofs.Analysis.Thinning
import ScopeLint.Proofs.Tree.Lines

/-!
What a report can tell of the settings that it was made under. The choice of scopes for control
blocks shows in the findings and in the table, the width of an indent in the tree, and the order
of the scopes nowhere: when the analysis is over, the global scope alone is left to be listed.
-/

set_option autoImplicit false

namespace ScopeLint

/-! ### The table -/

theorem ScopeStack.scopeText_global (table : SymbolTable) :
    scopeText 0 ⟨.global, table⟩ =
      "Scope Level 0 (global):\n" ++
        String.join (table.sorted.map fun symbol => "  " ++ symbol.text ++ "\n") := by
  have heading : "Scope Level " ++ toString 0 ++ " (" ++ ScopeKind.global.name ++ "):\n" =
      "Scope Level 0 (global):\n" := by decide
  exact congrArg
    (· ++ String.join (table.sorted.map fun symbol => "  " ++ symbol.text ++ "\n")) heading

/-- With one scope there is no order to choose. -/
theorem ScopeStack.listing_of_closed {stack : ScopeStack} (closed : stack.inner = [])
    (order : ScopeOrder) : stack.listing order = scopeText 0 ⟨.global, stack.globals⟩ := by
  have texts : stack.levelTexts = [scopeText 0 ⟨.global, stack.globals⟩] := by
    rw [levelTexts, levels, closed]
    rfl
  have joined (text : String) : String.join [text] = text := String.empty_append
  cases order with
  | outermostFirst => rw [listing, texts, joined]
  | innermostFirst => rw [listing, texts, List.reverse_singleton, joined]

/-! ### The tree -/

theorem indentation_of_sameWidth {width other : Nat} (same : min width 16 = min other 16)
    (level : Nat) : indentation width level = indentation other level := by
  change String.ofList (List.replicate (level * min width 16) ' ') = _
  rw [same]
  rfl

/-- An indent of more than sixteen spaces is one of sixteen. -/
theorem Program.dump_of_sameWidth {width other : Nat} (same : min width 16 = min other 16)
    (program : Program) : program.dump width = program.dump other := by
  have sameLine : Line.shown width 0 = Line.shown other 0 := by
    funext line
    rw [Line.shown, Line.shown, indentation_of_sameWidth same]
  rw [dump_eq, dump_eq, showLines, showLines, sameLine]

/-! ### The whole report -/

theorem settings_examine (settings : Settings) (program : Program) :
    (examine settings program).settings = settings :=
  ((Context.initial settings).gains_replay program.outline).settings

theorem diagnostics_examine (settings : Settings) (program : Program) :
    (examine settings program).diagnostics =
      Mark.findingsOfList settings [] program.outline :=
  ((Context.initial settings).gains_replay program.outline).diagnostics

theorem scopes_examine (settings : Settings) (program : Program) :
    (examine settings program).scopes =
      { globals := SymbolTable.empty.declareAll 0 (Mark.ownOfList settings program.outline)
        inner := [] } :=
  Context.scopes_replay_initial settings program.outline

theorem table_examine (settings : Settings) (program : Program) :
    (examine settings program).table =
      "Scope Level 0 (global):\n" ++
        String.join ((examine settings program).scopes.globalSymbols.map fun symbol =>
          "  " ++ symbol.text ++ "\n") := by
  have closed : (examine settings program).scopes.inner = [] := by
    rw [scopes_examine]
  rw [Context.table, ScopeStack.listing_of_closed closed, ScopeStack.scopeText_global]
  rfl

/-- What two settings and the flags for the dumps have to do with the reports on a program. -/
structure Settings.Influence (left right : Settings) (program : Program) : Prop where
  diagnostics : left.blockScopes = right.blockScopes →
    ∀ showTree showTable showTree' showTable',
      (analyze left showTree showTable program).diagnostics =
        (analyze right showTree' showTable' program).diagnostics
  table : left.blockScopes = right.blockScopes →
    ∀ showTree showTree' showTable,
      (analyze left showTree showTable program).table =
        (analyze right showTree' showTable program).table
  tree : min left.indentWidth 16 = min right.indentWidth 16 →
    ∀ showTree showTable showTable',
      (analyze left showTree showTable program).tree =
        (analyze right showTree showTable' program).tree
  listed : ∀ showTree, (analyze left showTree true program).table =
    some ("Scope Level 0 (global):\n" ++
      String.join ((examine left program).scopes.globalSymbols.map fun symbol =>
        "  " ++ symbol.text ++ "\n"))
  dumped : ∀ showTable, (analyze left true showTable program).tree =
    some (program.dump left.indentWidth)
  flags : ∀ showTree showTable showTree' showTable',
    (analyze left showTree showTable program).diagnostics =
        (analyze left showTree' showTable' program).diagnostics ∧
      (analyze left showTree showTable program).tree =
        (analyze left showTree showTable' program).tree ∧
      (analyze left showTree showTable program).table =
        (analyze left showTree' showTable program).table

theorem analyze_influence (left right : Settings) (program : Program) :
    left.Influence right program where
  diagnostics := by
    intro sameChoice showTree showTable showTree' showTable'
    change (examine left program).diagnostics = (examine right program).diagnostics
    rw [diagnostics_examine, diagnostics_examine, Mark.findingsOfList_of_sameChoice sameChoice]
  table := by
    intro sameChoice showTree showTree' showTable
    have sameTable : (examine left program).table = (examine right program).table := by
      rw [table_examine, table_examine, scopes_examine, scopes_examine,
        Mark.ownOfList_of_sameChoice sameChoice]
    simp only [analyze, Context.toReport, sameTable]
  tree := by
    intro sameWidth showTree showTable showTable'
    simp only [analyze, Context.toReport, settings_examine, program.dump_of_sameWidth sameWidth]
  listed := by
    intro showTree
    exact congrArg some (table_examine left program)
  dumped := by
    intro showTable
    simp only [analyze, Context.toReport, settings_examine, if_true]
  flags := fun _ _ _ _ => ⟨rfl, rfl, rfl⟩

end ScopeLint
