import ScopeLint.Proofs.Scope.Trace

/-!
The listing of a stack, and what its answers say of the order of declarations. Every open scope
has a piece of the listing to itself, with each of its symbols once, by line and then by name.
Declarations of different names do not get in each other's way, so nothing that a stack answers
afterwards tells in which order they were issued.
-/

set_option autoImplicit false

namespace ScopeLint

namespace SymbolTable

/-- What is found does not tell in which order the symbols came. -/
theorem find?_eq_of_perm {left right : SymbolTable} (perm : left.symbols.Perm right.symbols)
    (name : String) : left.find? name = right.find? name := by
  ext symbol
  rw [find?_eq_some_iff, find?_eq_some_iff, perm.mem_iff]

variable {table : SymbolTable} {declarations reordered : List Declaration}

/-- Declarations of different names bring the same symbols in any order. -/
theorem declareAll_perm (perm : declarations.Perm reordered)
    (distinct : (declarations.map fun declaration => declaration.name).Nodup) (depth : Nat) :
    (table.declareAll depth declarations).symbols.Perm
      (table.declareAll depth reordered).symbols := by
  have reorderedDistinct : (reordered.map fun declaration => declaration.name).Nodup :=
    (perm.map _).nodup_iff.mp distinct
  rw [symbols_declareAll, symbols_declareAll, Declaration.accepted_eq_filter distinct,
    Declaration.accepted_eq_filter reorderedDistinct]
  exact ((perm.filter _).map _).append_left table.symbols

end SymbolTable

namespace ScopeStack

/-! ### Pieces of a listing -/

/-- What is listed of an open scope: its level and kind, and a line for each of the symbols that
the history puts there. -/
inductive Piece (history : List Action) (level : Nat) (scope : OpenScope) : String → Prop where
  | mk {symbols : List Symbol}
      (complete : ∀ symbol, symbol ∈ symbols ↔
        symbolAt? history symbol.name level scope = some symbol)
      (once : symbols.Nodup) (ordered : symbols.Pairwise Symbol.Before) :
      Piece history level scope
        ("Scope Level " ++ toString level ++ " (" ++ scope.kind.name ++ "):\n" ++
          String.join (symbols.map fun symbol => "  " ++ symbol.text ++ "\n"))

theorem piece_scopeText (history : List Action) (level : Nat) (scope : OpenScope) :
    Piece history level scope (scopeText level (scopeAfter history level scope)) := by
  have strict := (scopeAfter history level scope).table.sorted_strict
  refine .mk (fun symbol => ?_) (strict.imp fun before same => ?_) strict
  · rw [SymbolTable.mem_sorted_iff, ← find?_scopeAfter, SymbolTable.find?_eq_some_iff,
      and_iff_left rfl]
  · exact Symbol.Before.asymm (same ▸ before) (same ▸ before)

/-- The two listings have the same pieces, one for each open scope, from either end. -/
def Listed (stack : ScopeStack) (history : List Action) : Prop :=
  ∃ pieces : List String,
    List.Forall₂ (fun (scope, level) piece => Piece history level scope piece)
      (openScopes history).zipIdx pieces ∧
    stack.listing .outermostFirst = String.join pieces ∧
    stack.listing .innermostFirst = String.join pieces.reverse

theorem listed_run (history : List Action) : (initial.run history).Listed history := by
  have texts : (initial.run history).levelTexts =
      (openScopes history).mapIdx fun level scope =>
        scopeText level (scopeAfter history level scope) := by
    rw [levelTexts, mirrors_run]
    refine List.ext_getElem? fun level => ?_
    simp only [List.getElem?_mapIdx, Option.map_map, Function.comp_def]
  refine ⟨(initial.run history).levelTexts, ?_, rfl, rfl⟩
  rw [texts, List.mapIdx_eq_zipIdx_map, List.forall₂_map_right_iff, List.forall₂_same]
  intro entry _
  exact piece_scopeText history entry.2 entry.1

/-! ### Answers -/

/-- What is answered to a declaration, without the stack that it leads to. -/
def answer (stack : ScopeStack) (declaration : Declaration) : Except Redeclaration Unit :=
  (stack.declare declaration).map fun _ => ()

/-- Declarations issued one after the other, each with its answer. -/
def answers (stack : ScopeStack) :
    List Declaration → List (Declaration × Except Redeclaration Unit)
  | [] => []
  | declaration :: later =>
      (declaration, stack.answer declaration) ::
        (stack.perform (.declare declaration)).answers later

theorem answer_eq (stack : ScopeStack) (declaration : Declaration) :
    stack.answer declaration =
      match stack.resolveLocal? declaration.name with
      | none => .ok ()
      | some existing => .error ⟨declaration.name, declaration.line, existing.line⟩ := by
  unfold answer
  cases found : stack.resolveLocal? declaration.name with
  | none =>
      have fresh := (stack.innermost.table.find?_eq_none_iff declaration.name).mp found
      rw [declare_of_fresh fresh]
      rfl
  | some existing =>
      rw [declare_of_find? found]
      rfl

/-- A declaration changes no answer to another name. -/
theorem answer_perform_of_ne (stack : ScopeStack) {declaration other : Declaration}
    (differs : declaration.name ≠ other.name) :
    (stack.perform (.declare declaration)).answer other = stack.answer other := by
  rw [answer_eq, answer_eq, perform_declare, resolveLocal?, innermost_withInnermost,
    SymbolTable.find?_declare, if_neg differs, Option.or_none]
  rfl

theorem answers_eq_map {declarations : List Declaration}
    (distinct : (declarations.map fun declaration => declaration.name).Nodup)
    (stack : ScopeStack) :
    stack.answers declarations =
      declarations.map fun declaration => (declaration, stack.answer declaration) := by
  induction declarations generalizing stack with
  | nil => rfl
  | cons declaration later ih =>
      rw [List.map_cons, List.nodup_cons] at distinct
      rw [answers, ih distinct.2, List.map_cons]
      congr 1
      apply List.map_congr_left
      intro other member
      have differs : declaration.name ≠ other.name := fun same =>
        distinct.1 (same ▸ List.mem_map_of_mem member)
      rw [stack.answer_perform_of_ne differs]

/-- Whatever can be asked of two stacks, they give the same answer. -/
structure AnswersAlike (left right : ScopeStack) : Prop where
  depth : left.depth = right.depth
  resolve : ∀ name, left.resolve? name = right.resolve? name
  resolveLocal : ∀ name, left.resolveLocal? name = right.resolveLocal? name
  answer : ∀ declaration, left.answer declaration = right.answer declaration
  globals : left.globalSymbols = right.globalSymbols
  listing : ∀ order, left.listing order = right.listing order

theorem answersAlike_withInnermost (stack : ScopeStack) {left right : SymbolTable}
    (perm : left.symbols.Perm right.symbols) :
    (stack.withInnermost left).AnswersAlike (stack.withInnermost right) := by
  have sameSorted : left.sorted = right.sorted := SymbolTable.sorted_eq_of_perm perm
  have sameLocal (name : String) : (stack.withInnermost left).resolveLocal? name =
      (stack.withInnermost right).resolveLocal? name := by
    simp only [resolveLocal?, innermost_withInnermost, SymbolTable.find?_eq_of_perm perm]
  have sameTexts : (stack.withInnermost left).levelTexts =
      (stack.withInnermost right).levelTexts := by
    have sameText (level : Nat) (kind : ScopeKind) :
        scopeText level ⟨kind, left⟩ = scopeText level ⟨kind, right⟩ := by
      unfold scopeText
      dsimp only
      rw [sameSorted]
    simp only [levelTexts, levels_withInnermost, List.mapIdx_append, List.mapIdx_singleton,
      sameText]
  constructor
  · rw [depth_withInnermost, depth_withInnermost]
  · intro name
    simp only [resolve?_eq, levels_withInnermost, List.reverse_append, List.reverse_singleton,
      List.singleton_append, List.findSome?_cons, SymbolTable.find?_eq_of_perm perm]
  · exact sameLocal
  · intro declaration
    rw [answer_eq, answer_eq, sameLocal]
  · cases stack with
    | mk globals inner =>
        cases inner with
        | nil => exact sameSorted
        | cons scope outer => rfl
  · intro order
    cases order
    · exact congrArg String.join sameTexts
    · exact congrArg (fun texts => String.join (List.reverse texts)) sameTexts

theorem run_declarations (stack : ScopeStack) (declarations : List Declaration) :
    stack.run (declarations.map .declare) =
      stack.withInnermost (stack.innermost.table.declareAll stack.depth declarations) := by
  induction declarations generalizing stack with
  | nil => exact stack.withInnermost_innermost.symm
  | cons declaration later ih =>
      change (stack.perform (.declare declaration)).run (later.map .declare) = _
      rw [ih, perform_declare, withInnermost_withInnermost, innermost_withInnermost,
        depth_withInnermost]
      rfl

/-- The listing of a stack holds all that the history leaves, in one order; and declarations of
different names can be issued in any order, with the same answer to each of them and to whatever
is asked afterwards. -/
theorem listed_and_orderFree (history : List Action) {declarations reordered : List Declaration}
    (perm : declarations.Perm reordered)
    (distinct : (declarations.map fun declaration => declaration.name).Nodup) :
    (initial.run history).Listed history ∧
      ((initial.run history).answers declarations).Perm
        ((initial.run history).answers reordered) ∧
      ((initial.run history).run (declarations.map .declare)).AnswersAlike
        ((initial.run history).run (reordered.map .declare)) := by
  have reorderedDistinct : (reordered.map fun declaration => declaration.name).Nodup :=
    (perm.map _).nodup_iff.mp distinct
  refine ⟨listed_run history, ?_, ?_⟩
  · rw [answers_eq_map distinct, answers_eq_map reorderedDistinct]
    exact perm.map _
  · rw [run_declarations, run_declarations]
    exact answersAlike_withInnermost _ (SymbolTable.declareAll_perm perm distinct _)

/-- Inside a routine that has a `b` on the line of two of the declarations below. -/
def exampleBody : List Action :=
  [.declare ⟨"a", .var, 7, none⟩, .enter .routine, .declare ⟨"b", .parameter, 4, none⟩]

/-- Two on one line, one on an earlier line, and one that is refused. -/
def exampleLocals : List Declaration :=
  [⟨"c", .var, 4, none⟩, ⟨"b", .var, 5, none⟩, ⟨"a", .constant, 4, none⟩, ⟨"d", .type, 3, none⟩]

/-- The innermost table grows in another order, and nobody can tell. -/
theorem exampleLocals_reversed :
    exampleLocals.Perm exampleLocals.reverse ∧
      (exampleLocals.map fun declaration => declaration.name).Nodup ∧
      ((initial.run exampleBody).run (exampleLocals.map .declare)).innermost.table.names =
        ["b", "c", "a", "d"] ∧
      ((initial.run exampleBody).run (exampleLocals.reverse.map .declare)).innermost.table.names =
        ["b", "d", "a", "c"] ∧
      (initial.run exampleBody).answer ⟨"b", .var, 5, none⟩ = .error ⟨"b", 5, 4⟩ ∧
      (initial.run exampleBody).Listed exampleBody ∧
      ((initial.run exampleBody).answers exampleLocals).Perm
        ((initial.run exampleBody).answers exampleLocals.reverse) ∧
      ((initial.run exampleBody).run (exampleLocals.map .declare)).AnswersAlike
        ((initial.run exampleBody).run (exampleLocals.reverse.map .declare)) := by
  have perm : exampleLocals.Perm exampleLocals.reverse := (List.reverse_perm _).symm
  have distinct : (exampleLocals.map fun declaration => declaration.name).Nodup := by decide
  exact ⟨perm, distinct, by decide, by decide, by decide,
    listed_and_orderFree exampleBody perm distinct⟩

end ScopeStack

end ScopeLint
