import ScopeLint.Scope.Table

/-!
The stack of open scopes. The global scope lies at the bottom and is never closed, so a stack
is its symbols and the scopes opened since. A name is declared in the innermost scope and
looked up through all of them; a closed scope takes its symbols with it.
-/

set_option autoImplicit false

namespace ScopeLint

structure Scope where
  kind : ScopeKind
  table : SymbolTable

/-- A name declared again in its own scope, with the line of the first declaration. -/
structure Redeclaration where
  name : String
  line : UInt32
  existingLine : UInt32
  deriving DecidableEq

def Redeclaration.message (problem : Redeclaration) : String :=
  "'" ++ problem.name ++ "' on line " ++ toString problem.line.toNat ++
    " is already defined on line " ++ toString problem.existingLine.toNat

/-- Which end of the stack a listing begins with. -/
inductive ScopeOrder where
  | outermostFirst
  | innermostFirst
  deriving DecidableEq

/-- `inner` holds the scopes opened above the global one, the innermost first. -/
structure ScopeStack where
  globals : SymbolTable
  inner : List Scope

namespace ScopeStack

def initial : ScopeStack :=
  { globals := .empty, inner := [] }

def depth (stack : ScopeStack) : Nat :=
  stack.inner.length

def innermost (stack : ScopeStack) : Scope :=
  match stack.inner with
  | [] => ⟨.global, stack.globals⟩
  | scope :: _ => scope

/-- All open scopes, the global one first; a scope stands at the index of its depth. -/
def levels (stack : ScopeStack) : List Scope :=
  ⟨.global, stack.globals⟩ :: stack.inner.reverse

def enter (kind : ScopeKind) (stack : ScopeStack) : ScopeStack :=
  { stack with inner := ⟨kind, .empty⟩ :: stack.inner }

/-- Closes the innermost scope; the global scope stays open. -/
def exit? (stack : ScopeStack) : Option ScopeStack :=
  match stack.inner with
  | [] => none
  | _ :: outer => some { stack with inner := outer }

/-- The same stack with other symbols in its innermost scope. -/
def withInnermost (stack : ScopeStack) (table : SymbolTable) : ScopeStack :=
  match stack.inner with
  | [] => { stack with globals := table }
  | scope :: outer => { stack with inner := { scope with table := table } :: outer }

def declare (declaration : Declaration) (stack : ScopeStack) :
    Except Redeclaration ScopeStack :=
  let table := stack.innermost.table
  match found : table.find? declaration.name with
  | some existing => .error ⟨declaration.name, declaration.line, existing.line⟩
  | none =>
      .ok (stack.withInnermost
        (table.add ⟨declaration, stack.depth⟩
          ((table.find?_eq_none_iff declaration.name).mp found)))

/-- The symbol that a name means: the one of the innermost scope that declares it. -/
def resolve? (stack : ScopeStack) (name : String) : Option Symbol :=
  (stack.inner.findSome? fun scope => scope.table.find? name).or (stack.globals.find? name)

def resolveLocal? (stack : ScopeStack) (name : String) : Option Symbol :=
  stack.innermost.table.find? name

def globalSymbols (stack : ScopeStack) : List Symbol :=
  stack.globals.sorted

/-! ### Listing -/

def scopeText (level : Nat) (scope : Scope) : String :=
  "Scope Level " ++ toString level ++ " (" ++ scope.kind.name ++ "):\n" ++
    String.join (scope.table.sorted.map fun symbol => "  " ++ symbol.text ++ "\n")

def levelTexts (stack : ScopeStack) : List String :=
  stack.levels.mapIdx scopeText

def listing (order : ScopeOrder) (stack : ScopeStack) : String :=
  match order with
  | .outermostFirst => String.join stack.levelTexts
  | .innermostFirst => String.join stack.levelTexts.reverse

def text (stack : ScopeStack) : String :=
  stack.listing .outermostFirst

/-! ### Operations as data -/

inductive Action where
  | enter (kind : ScopeKind)
  | exit
  | declare (declaration : Declaration)

/-- The stack after an action; one that is refused leaves it as it was. -/
def perform (stack : ScopeStack) : Action → ScopeStack
  | .enter kind => stack.enter kind
  | .exit => stack.exit?.getD stack
  | .declare declaration =>
      match stack.declare declaration with
      | .ok next => next
      | .error _ => stack

def run (stack : ScopeStack) (actions : List Action) : ScopeStack :=
  actions.foldl perform stack

end ScopeStack

end ScopeLint
