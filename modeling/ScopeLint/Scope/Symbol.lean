import ScopeLint.Tree.Inline

/-!
Declared names: what a declaration says, and the symbol that it leaves in a scope.
-/

set_option autoImplicit false

namespace ScopeLint

inductive ScopeKind where
  | global
  | routine
  | block
  | record
  deriving DecidableEq

def ScopeKind.name : ScopeKind → String
  | global => "global"
  | routine => "routine"
  | block => "block"
  | record => "record"

inductive SymbolKind where
  | var
  | constant
  | function
  | procedure
  | parameter
  | type
  deriving DecidableEq

def SymbolKind.name : SymbolKind → String
  | var => "VARIABLE"
  | constant => "CONSTANT"
  | function => "FUNCTION"
  | procedure => "PROCEDURE"
  | parameter => "PARAMETER"
  | type => "TYPE"

/-- What is known of a name where it is declared. Only a constant that is given a literal has
a value. -/
structure Declaration where
  name : String
  kind : SymbolKind
  line : UInt32
  value : Option Literal
  deriving DecidableEq

/-- A declaration together with the depth of the scope that holds it. -/
structure Symbol extends Declaration where
  depth : Nat
  deriving DecidableEq

/-- Where a symbol is listed before another: by line, then by name. -/
def Symbol.precedes (earlier later : Symbol) : Bool :=
  earlier.line < later.line || earlier.line == later.line && earlier.name ≤ later.name

def Symbol.text (symbol : Symbol) : String :=
  let value :=
    match symbol.value with
    | none => ""
    | some value => " = " ++ value.text
  symbol.name ++ " -> " ++ symbol.kind.name ++ value ++ " (line " ++
    toString symbol.line.toNat ++ ")"

end ScopeLint
