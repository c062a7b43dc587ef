import ScopeLint.Analysis.Context

/-!
The report on one program: its diagnostics, and the two dumps if they are asked for. The
dumps are made when the analysis is over and take no part in it.
-/

set_option autoImplicit false

namespace ScopeLint

structure Report where
  diagnostics : List Diagnostic
  tree : Option String
  table : Option String
  deriving DecidableEq

def Report.hasErrors (report : Report) : Bool :=
  !report.diagnostics.isEmpty

def examine (settings : Settings) (program : Program) : Context :=
  let context := (Context.initial settings).replay program.outline
  context.record (.analyzed program.items.length context.diagnostics.length)

/-- The report of an analysis that left a given context. -/
def Context.toReport (context : Context) (program : Program) (showTree showTable : Bool) :
    Report :=
  { diagnostics := context.diagnostics
    tree := if showTree then some (program.dump context.settings.indentWidth) else none
    table := if showTable then some context.table else none }

def analyze (settings : Settings) (showTree showTable : Bool) (program : Program) : Report :=
  (examine settings program).toReport program showTree showTable

end ScopeLint
