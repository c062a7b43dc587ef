import ScopeLint.Analysis.Event
import ScopeLint.Analysis.Outline
import ScopeLint.Analysis.Settings

/-!
The state of an analysis: the open scopes, the diagnostics found so far, and the log. A
program is analysed by going through its outline; every rule that is broken adds one
diagnostic at the place where that is noticed, and nothing ever takes one back.
-/

set_option autoImplicit false

namespace ScopeLint

/-- Whether a region has a scope of its own; only control blocks may do without. -/
def Settings.opens (settings : Settings) (kind : ScopeKind) : Bool :=
  kind != .block || settings.blockScopes

structure Context where
  settings : Settings
  scopes : ScopeStack
  /-- The diagnostics in the order in which they were found. -/
  diagnostics : List Diagnostic
  log : List Event

namespace Context

def initial (settings : Settings) : Context :=
  { settings, scopes := .initial, diagnostics := [], log := [] }

def record (context : Context) (event : Event) : Context :=
  { context with log := context.log ++ [event] }

/-- An action on the scopes alone; whatever becomes of it, no diagnostic is added. -/
def act (context : Context) (action : ScopeStack.Action) : Context :=
  { context with
    scopes := context.scopes.perform action
    log := context.log ++ (context.scopes.event? action).toList }

def report (context : Context) (diagnostic : Diagnostic) : Context :=
  { context with
    diagnostics := context.diagnostics ++ [diagnostic]
    log := context.log ++ [.warned diagnostic] }

/-- Declares a name in the innermost scope and says whether it was new there. A name that was
not is reported, and the scopes stay as they are. -/
def declare (context : Context) (declaration : Declaration) : Bool × Context :=
  match context.scopes.declare declaration with
  | .ok _ => (true, context.act (.declare declaration))
  | .error problem => (false, context.report ⟨.alreadyDefined, problem.name, problem.line⟩)

/-- Compares the name that opened a loop with the one that closes it and says whether they
agree; if not, the closing one is reported. -/
def checkLoop (context : Context) (opening closing : Identifier) : Bool × Context :=
  if opening.name = closing.name then (true, context)
  else (false, context.report ⟨.namesDiffer, closing.name, closing.line⟩)

/-- The symbol that a name means at this point. -/
def resolve? (context : Context) (name : String) : Option Symbol :=
  context.scopes.resolve? name

def hasErrors (context : Context) : Bool :=
  !context.diagnostics.isEmpty

/-- The open scopes in the order that the settings ask for. -/
def table (context : Context) : String :=
  context.scopes.listing context.settings.scopeOrder

mutual

/-- Goes through a mark. A region that has no scope of its own belongs to the one around it. -/
def replayMark (context : Context) : Mark → Context
  | .site declaration => (context.declare declaration).2
  | .loop opening closing => (context.checkLoop opening closing).2
  | .region kind marks =>
      if context.settings.opens kind then
        ((context.act (.enter kind)).replay marks).act .exit
      else context.replay marks

def replay (context : Context) : List Mark → Context
  | [] => context
  | mark :: marks => (context.replayMark mark).replay marks

end

/-- What can be done to a context. -/
inductive Operation where
  | act (action : ScopeStack.Action)
  | declare (declaration : Declaration)
  | checkLoop (opening closing : Identifier)
  | report (diagnostic : Diagnostic)
  | replay (program : Program)
  | configure (settings : Settings)

def perform (context : Context) : Operation → Context
  | .act action => context.act action
  | .declare declaration => (context.declare declaration).2
  | .checkLoop opening closing => (context.checkLoop opening closing).2
  | .report diagnostic => context.report diagnostic
  | .replay program => context.replay program.outline
  | .configure settings => { context with settings := settings }

/-- The context after a sequence of operations. -/
def run (context : Context) (operations : List Operation) : Context :=
  operations.foldl perform context

end Context

end ScopeLint
