import Mathlib.Data.List.Nodup
import Mathlib.Tactic.Common
import ScopeLint.Scope.Stack

/-!
What declaring does to a stack: it changes nothing but the innermost table, and there a name
that is already taken changes nothing either. The first declaration of a name is the one that
stays, so a table is determined by what it held before and by the first new declaration of
each name.
-/

set_option autoImplicit false

namespace ScopeLint

namespace Declaration

/-- Of some declarations those that find their name free where the names `seen` are taken: the
first one of every other name. -/
def accepted (seen : List String) : List Declaration → List Declaration
  | [] => []
  | declaration :: later =>
      if declaration.name ∈ seen then accepted seen later
      else declaration :: accepted (seen ++ [declaration.name]) later

theorem accepted_congr {left right : List String} (same : ∀ name, name ∈ left ↔ name ∈ right)
    (declarations : List Declaration) :
    accepted left declarations = accepted right declarations := by
  induction declarations generalizing left right with
  | nil => rfl
  | cons declaration later ih =>
      have sameLater : ∀ name, name ∈ left ++ [declaration.name] ↔
          name ∈ right ++ [declaration.name] := by
        intro name
        rw [List.mem_append, List.mem_append, same]
      simp only [accepted, same, ih same, ih sameLater]

theorem accepted_append (seen : List String) (first second : List Declaration) :
    accepted seen (first ++ second) =
      accepted seen first ++
        accepted (seen ++ first.map fun declaration => declaration.name) second := by
  induction first generalizing seen with
  | nil => rw [List.nil_append, List.map_nil, List.append_nil, accepted, List.nil_append]
  | cons declaration first ih =>
      rw [List.cons_append, accepted, accepted, List.map_cons]
      by_cases taken : declaration.name ∈ seen
      · rw [if_pos taken, if_pos taken, ih]
        congr 1
        apply accepted_congr
        intro name
        simp only [List.mem_append, List.mem_cons]
        constructor
        · exact Or.imp_right Or.inr
        · rintro (old | rfl | new)
          · exact Or.inl old
          · exact Or.inl taken
          · exact Or.inr new
      · rw [if_neg taken, if_neg taken, ih, List.append_assoc, List.singleton_append,
          List.cons_append]

theorem accepted_eq_nil {seen : List String} {declarations : List Declaration}
    (taken : ∀ declaration ∈ declarations, declaration.name ∈ seen) :
    accepted seen declarations = [] := by
  induction declarations with
  | nil => rfl
  | cons declaration later ih =>
      rw [accepted, if_pos (taken declaration List.mem_cons_self)]
      apply ih
      intro other member
      exact taken other (List.mem_cons_of_mem declaration member)

/-- Where no name comes up twice, the declarations do not get in each other's way: a name is
free unless it was taken before all of them. -/
theorem accepted_eq_filter {seen : List String} {declarations : List Declaration}
    (distinct : (declarations.map fun declaration => declaration.name).Nodup) :
    accepted seen declarations =
      declarations.filter fun declaration => declaration.name ∉ seen := by
  induction declarations generalizing seen with
  | nil => rfl
  | cons declaration later ih =>
      rw [List.map_cons, List.nodup_cons] at distinct
      by_cases taken : declaration.name ∈ seen
      · rw [accepted, if_pos taken, ih distinct.2,
          List.filter_cons_of_neg (by simpa using taken)]
      · rw [accepted, if_neg taken, ih distinct.2,
          List.filter_cons_of_pos (by simpa using taken)]
        congr 1
        apply List.filter_congr
        intro other member
        have differs : other.name ≠ declaration.name := fun same =>
          distinct.1 (same ▸ List.mem_map_of_mem member)
        simp only [List.mem_append, List.mem_singleton, differs, or_false]

end Declaration

namespace SymbolTable

@[ext]
theorem ext {left right : SymbolTable} (same : left.symbols = right.symbols) : left = right := by
  cases left
  cases right
  congr

theorem find?_empty (name : String) : empty.find? name = none := rfl

theorem names_add (table : SymbolTable) (symbol : Symbol) (fresh : symbol.name ∉ table.names) :
    (table.add symbol fresh).names = table.names ++ [symbol.name] := by
  simp only [names, add, List.map_append, List.map_cons, List.map_nil]

/-- A symbol that was there is found before the added one. -/
theorem find?_add (table : SymbolTable) (symbol : Symbol) (fresh : symbol.name ∉ table.names)
    (name : String) :
    (table.add symbol fresh).find? name =
      (table.find? name).or (if symbol.name = name then some symbol else none) := by
  simp only [find?, add, List.find?_append, List.find?_cons, List.find?_nil]
  congr 1
  by_cases same : symbol.name = name
  · rw [if_pos same, beq_iff_eq.mpr same]
  · rw [if_neg same, beq_eq_false_iff_ne.mpr same]

theorem name_of_find? {table : SymbolTable} {name : String} {symbol : Symbol}
    (found : table.find? name = some symbol) : symbol.name = name := by
  have matching := List.find?_some found
  simpa using matching

theorem find?_isSome_iff (table : SymbolTable) (name : String) :
    (table.find? name).isSome = true ↔ name ∈ table.names := by
  rw [← not_iff_not, Bool.not_eq_true, Option.isSome_eq_false_iff, Option.isNone_iff_eq_none]
  exact table.find?_eq_none_iff name

/-- Since no two symbols share a name, the one that is found is the only candidate. -/
theorem find?_eq_some_iff (table : SymbolTable) (name : String) (symbol : Symbol) :
    table.find? name = some symbol ↔ symbol ∈ table.symbols ∧ symbol.name = name := by
  constructor
  · intro found
    exact ⟨List.mem_of_find?_eq_some found, name_of_find? found⟩
  · rintro ⟨member, rfl⟩
    cases found : table.find? symbol.name with
    | none =>
        have absent := (table.find?_eq_none_iff symbol.name).mp found
        exact absurd (List.mem_map_of_mem member) absent
    | some other =>
        have sameName : other.name = symbol.name := name_of_find? found
        have otherMember : other ∈ table.symbols := List.mem_of_find?_eq_some found
        rw [List.inj_on_of_nodup_map table.distinct otherMember member sameName]

/-- The table after a declaration; a name that is taken leaves it as it was. -/
def declare (table : SymbolTable) (depth : Nat) (declaration : Declaration) : SymbolTable :=
  if fresh : declaration.name ∉ table.names then table.add ⟨declaration, depth⟩ fresh else table

def declareAll (table : SymbolTable) (depth : Nat) (declarations : List Declaration) :
    SymbolTable :=
  declarations.foldl (fun table declaration => table.declare depth declaration) table

theorem declare_of_fresh {table : SymbolTable} {declaration : Declaration} (depth : Nat)
    (fresh : declaration.name ∉ table.names) :
    table.declare depth declaration = table.add ⟨declaration, depth⟩ fresh :=
  dif_pos fresh

theorem declare_of_mem {table : SymbolTable} {declaration : Declaration} (depth : Nat)
    (taken : declaration.name ∈ table.names) : table.declare depth declaration = table :=
  dif_neg (not_not_intro taken)

theorem find?_declare (table : SymbolTable) (depth : Nat) (declaration : Declaration)
    (name : String) :
    (table.declare depth declaration).find? name =
      (table.find? name).or
        (if declaration.name = name then some ⟨declaration, depth⟩ else none) := by
  by_cases taken : declaration.name ∈ table.names
  · rw [declare_of_mem depth taken]
    by_cases same : declaration.name = name
    · have found : (table.find? name).isSome = true := by
        rw [find?_isSome_iff, ← same]
        exact taken
      rw [Option.or_of_isSome found]
    · rw [if_neg same, Option.or_none]
  · rw [declare_of_fresh depth taken, find?_add]

theorem mem_names_declare (table : SymbolTable) (depth : Nat) (declaration : Declaration)
    (name : String) :
    name ∈ (table.declare depth declaration).names ↔
      name ∈ table.names ∨ declaration.name = name := by
  by_cases taken : declaration.name ∈ table.names
  · rw [declare_of_mem depth taken]
    constructor
    · exact Or.inl
    · rintro (member | rfl)
      · exact member
      · exact taken
  · rw [declare_of_fresh depth taken, names_add, List.mem_append, List.mem_singleton]
    exact or_congr_right eq_comm

theorem names_declare_of_fresh {table : SymbolTable} {declaration : Declaration} (depth : Nat)
    (fresh : declaration.name ∉ table.names) :
    (table.declare depth declaration).names = table.names ++ [declaration.name] := by
  rw [declare_of_fresh depth fresh, names_add]

theorem declareAll_append (table : SymbolTable) (depth : Nat)
    (first second : List Declaration) :
    table.declareAll depth (first ++ second) =
      (table.declareAll depth first).declareAll depth second :=
  List.foldl_append

/-- What was found before is found still, and of the new declarations the first one counts. -/
theorem find?_declareAll (table : SymbolTable) (depth : Nat) (declarations : List Declaration)
    (name : String) :
    (table.declareAll depth declarations).find? name =
      (table.find? name).or
        ((declarations.find? fun declaration => declaration.name == name).map
          fun declaration => ⟨declaration, depth⟩) := by
  induction declarations generalizing table with
  | nil => exact Option.or_none.symm
  | cons declaration declarations ih =>
      change ((table.declare depth declaration).declareAll depth declarations).find? name = _
      rw [ih, find?_declare, Option.or_assoc]
      congr 1
      by_cases same : declaration.name = name
      · rw [if_pos same, List.find?_cons_of_pos (by simpa using same)]
        rfl
      · rw [if_neg same, List.find?_cons_of_neg (by simpa using same)]
        rfl

theorem mem_names_declareAll (table : SymbolTable) (depth : Nat)
    (declarations : List Declaration) (name : String) :
    name ∈ (table.declareAll depth declarations).names ↔
      name ∈ table.names ∨ name ∈ declarations.map (fun declaration => declaration.name) := by
  induction declarations generalizing table with
  | nil => simp [declareAll]
  | cons declaration declarations ih =>
      change name ∈ ((table.declare depth declaration).declareAll depth declarations).names ↔ _
      rw [ih, mem_names_declare, List.map_cons, List.mem_cons, or_assoc]
      exact or_congr_right (or_congr_left eq_comm)

/-- What a table gains are the accepted declarations, each at the given depth. -/
theorem symbols_declareAll (table : SymbolTable) (depth : Nat)
    (declarations : List Declaration) :
    (table.declareAll depth declarations).symbols =
      table.symbols ++
        (Declaration.accepted table.names declarations).map fun declaration =>
          ⟨declaration, depth⟩ := by
  induction declarations generalizing table with
  | nil => exact (List.append_nil table.symbols).symm
  | cons declaration declarations ih =>
      change ((table.declare depth declaration).declareAll depth declarations).symbols = _
      rw [ih, Declaration.accepted]
      by_cases taken : declaration.name ∈ table.names
      · rw [if_pos taken, declare_of_mem depth taken]
      · rw [if_neg taken, declare_of_fresh depth taken, names_add, add, List.append_assoc,
          List.singleton_append, List.map_cons]

theorem declareAll_of_taken {table : SymbolTable} {declarations : List Declaration} (depth : Nat)
    (taken : ∀ declaration ∈ declarations, declaration.name ∈ table.names) :
    table.declareAll depth declarations = table := by
  apply SymbolTable.ext
  rw [symbols_declareAll, Declaration.accepted_eq_nil taken, List.map_nil, List.append_nil]

theorem symbols_prefix_declareAll (table : SymbolTable) (depth : Nat)
    (declarations : List Declaration) :
    table.symbols <+: (table.declareAll depth declarations).symbols := by
  rw [symbols_declareAll]
  exact List.prefix_append table.symbols _

end SymbolTable

namespace ScopeStack

@[simp]
theorem depth_withInnermost (stack : ScopeStack) (table : SymbolTable) :
    (stack.withInnermost table).depth = stack.depth := by
  cases stack with
  | mk globals inner => cases inner <;> rfl

@[simp]
theorem innermost_withInnermost (stack : ScopeStack) (table : SymbolTable) :
    (stack.withInnermost table).innermost = { stack.innermost with table := table } := by
  cases stack with
  | mk globals inner => cases inner <;> rfl

@[simp]
theorem withInnermost_withInnermost (stack : ScopeStack) (first second : SymbolTable) :
    (stack.withInnermost first).withInnermost second = stack.withInnermost second := by
  cases stack with
  | mk globals inner => cases inner <;> rfl

@[simp]
theorem withInnermost_innermost (stack : ScopeStack) :
    stack.withInnermost stack.innermost.table = stack := by
  cases stack with
  | mk globals inner => cases inner <;> rfl

/-- The levels are those of the outer scopes, and the innermost one at the end. -/
theorem levels_withInnermost (stack : ScopeStack) (table : SymbolTable) :
    (stack.withInnermost table).levels =
      stack.levels.dropLast ++ [{ stack.innermost with table := table }] := by
  cases stack with
  | mk globals inner =>
      cases inner with
      | nil => rfl
      | cons scope outer =>
          simp only [levels, withInnermost, innermost, List.reverse_cons, ← List.cons_append,
            List.dropLast_concat]

theorem levels_eq (stack : ScopeStack) :
    stack.levels = stack.levels.dropLast ++ [stack.innermost] := by
  conv_lhs => rw [← stack.withInnermost_innermost]
  exact stack.levels_withInnermost stack.innermost.table

/-- Whatever was declared in a scope goes with it. -/
theorem exit?_withInnermost_enter (stack : ScopeStack) (kind : ScopeKind) (table : SymbolTable) :
    ((stack.enter kind).withInnermost table).exit? = some stack := rfl

theorem declare_of_find? {stack : ScopeStack} {declaration : Declaration} {existing : Symbol}
    (found : stack.resolveLocal? declaration.name = some existing) :
    stack.declare declaration =
      .error ⟨declaration.name, declaration.line, existing.line⟩ := by
  have inTable : stack.innermost.table.find? declaration.name = some existing := found
  unfold declare
  dsimp only
  split
  · rename_i other otherFound
    rw [inTable] at otherFound
    cases otherFound
    rfl
  · rename_i notFound
    rw [inTable] at notFound
    cases notFound

theorem declare_of_fresh {stack : ScopeStack} {declaration : Declaration}
    (fresh : declaration.name ∉ stack.innermost.table.names) :
    stack.declare declaration =
      .ok (stack.withInnermost (stack.innermost.table.declare stack.depth declaration)) := by
  have notFound := (stack.innermost.table.find?_eq_none_iff declaration.name).mpr fresh
  rw [SymbolTable.declare_of_fresh stack.depth fresh]
  unfold declare
  dsimp only
  split
  · rename_i existing found
    rw [notFound] at found
    cases found
  · rfl

theorem perform_declare (stack : ScopeStack) (declaration : Declaration) :
    stack.perform (.declare declaration) =
      stack.withInnermost (stack.innermost.table.declare stack.depth declaration) := by
  by_cases taken : declaration.name ∈ stack.innermost.table.names
  · obtain ⟨existing, found⟩ := Option.isSome_iff_exists.mp
      ((stack.innermost.table.find?_isSome_iff declaration.name).mpr taken)
    simp only [perform, declare_of_find? found,
      SymbolTable.declare_of_mem stack.depth taken, withInnermost_innermost]
  · simp only [perform, declare_of_fresh taken]

end ScopeStack

end ScopeLint
