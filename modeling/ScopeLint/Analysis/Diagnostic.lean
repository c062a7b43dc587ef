/-!
Diagnostics: the two rules that the linter checks, each finding with the name and line that
it is about.
-/

set_option autoImplicit false

namespace ScopeLint

inductive DiagnosticKind where
  /-- A name declared again in its own scope. -/
  | alreadyDefined
  /-- A NEXT that names another variable than its FOR. -/
  | namesDiffer
  deriving DecidableEq

def DiagnosticKind.code : DiagnosticKind → String
  | alreadyDefined => "E0001"
  | namesDiffer => "E0002"

def DiagnosticKind.rule : DiagnosticKind → String
  | alreadyDefined => "Identifier already defined"
  | namesDiffer => "Identifiers in 'FOR' and 'NEXT' do not match"

structure Diagnostic where
  kind : DiagnosticKind
  name : String
  line : UInt32
  deriving DecidableEq

def Diagnostic.message (diagnostic : Diagnostic) : String :=
  diagnostic.kind.rule ++ ": " ++ diagnostic.name

/-- The line that is printed for a diagnostic. -/
def Diagnostic.text (diagnostic : Diagnostic) : String :=
  "Error at line " ++ toString diagnostic.line.toNat ++ ": semantic error, " ++
    diagnostic.message

end ScopeLint
