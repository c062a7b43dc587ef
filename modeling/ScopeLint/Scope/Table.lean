import ScopeLint.Scope.Symbol

/-!
The symbols of one scope. No two of them share a name; they are kept in the order of their
declaration and listed by line and name.
-/

set_option autoImplicit false

namespace ScopeLint

structure SymbolTable where
  symbols : List Symbol
  distinct : (symbols.map fun symbol => symbol.name).Nodup

namespace SymbolTable

def empty : SymbolTable :=
  { symbols := [], distinct := List.nodup_nil }

def names (table : SymbolTable) : List String :=
  table.symbols.map fun symbol => symbol.name

def find? (table : SymbolTable) (name : String) : Option Symbol :=
  table.symbols.find? fun symbol => symbol.name == name

theorem find?_eq_none_iff (table : SymbolTable) (name : String) :
    table.find? name = none ↔ name ∉ table.names := by
  simp [find?, names]

private theorem nodup_append_single {names : List String} {name : String}
    (distinct : names.Nodup) (fresh : name ∉ names) : (names ++ [name]).Nodup := by
  refine List.nodup_append.mpr ⟨distinct, by simp, ?_⟩
  intro other member single inSingle same
  rw [List.mem_singleton] at inSingle
  subst inSingle
  exact fresh (same ▸ member)

/-- Adds a symbol whose name is not there yet. -/
def add (table : SymbolTable) (symbol : Symbol) (fresh : symbol.name ∉ table.names) :
    SymbolTable :=
  { symbols := table.symbols ++ [symbol]
    distinct := by
      rw [List.map_append]
      exact nodup_append_single table.distinct fresh }

def sorted (table : SymbolTable) : List Symbol :=
  table.symbols.mergeSort Symbol.precedes

end SymbolTable

end ScopeLint
