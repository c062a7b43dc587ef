import ScopeLint.Analysis.Diagnostic
import ScopeLint.Scope.Stack

/-!
The event log. Every change of the scopes, every refused one that a caller should not have
asked for, and every diagnostic leaves one event, in the order in which they happen.
-/

set_option autoImplicit false

namespace ScopeLint

inductive Event where
  | entered (depth : Nat) (kind : ScopeKind)
  /-- `depth` is that of the scope that was closed, `dropped` the number of its symbols. -/
  | exited (depth dropped : Nat) (kind : ScopeKind)
  /-- An attempt to close the global scope. -/
  | refusedExit
  | declared (symbol : Symbol)
  | warned (diagnostic : Diagnostic)
  | analyzed (items diagnostics : Nat)
  deriving DecidableEq

namespace Event

inductive Level where
  | debug
  | warn
  | error
  deriving DecidableEq

def Level.name : Level → String
  | debug => "DEBUG"
  | warn => "WARN"
  | error => "ERROR"

def level : Event → Level
  | entered .. | exited .. | declared .. | analyzed .. => .debug
  | warned .. => .warn
  | refusedExit => .error

def message : Event → String
  | entered .. => "entered scope"
  | exited .. => "exited scope"
  | refusedExit => "attempted to exit the global scope"
  | declared .. => "declared symbol"
  | warned diagnostic => diagnostic.message
  | analyzed .. => "analyzed program"

inductive FieldValue where
  | number (value : Nat)
  | text (value : String)
  deriving DecidableEq

def fields : Event → List (String × FieldValue)
  | entered depth kind => [("depth", .number depth), ("kind", .text kind.name)]
  | exited depth dropped kind =>
      [("depth", .number depth), ("dropped", .number dropped), ("kind", .text kind.name)]
  | refusedExit => []
  | declared symbol =>
      [("name", .text symbol.name), ("kind", .text symbol.kind.name),
        ("depth", .number symbol.depth), ("line", .number symbol.line.toNat)]
  | warned diagnostic =>
      [("line", .number diagnostic.line.toNat), ("code", .text diagnostic.kind.code)]
  | analyzed items diagnostics =>
      [("items", .number items), ("diagnostics", .number diagnostics)]

end Event

/-- The event that an action on a stack leaves; a refused declaration leaves none. -/
def ScopeStack.event? (stack : ScopeStack) : Action → Option Event
  | .enter kind => some (.entered (stack.depth + 1) kind)
  | .exit =>
      match stack.inner with
      | [] => some .refusedExit
      | scope :: _ => some (.exited stack.depth scope.table.symbols.length scope.kind)
  | .declare declaration =>
      match stack.resolveLocal? declaration.name with
      | some _ => none
      | none => some (.declared ⟨declaration, stack.depth⟩)

end ScopeLint
