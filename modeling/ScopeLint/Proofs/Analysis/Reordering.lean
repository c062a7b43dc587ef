import ScopeLint.Proofs.Analysis.Influence
import ScopeLint.Proofs.Scope.Listing

/-!
Programs whose items stand in another order. A program without findings declares no name twice in
its own region, in the control blocks without a scope included, and whether a mark has findings of
its own does not depend on its neighbours. Neither fact knows an order, and the table is sorted.
-/

set_option autoImplicit false

namespace ScopeLint

namespace Mark

theorem ownOfList_eq_flatMap (settings : Settings) (marks : List Mark) :
    ownOfList settings marks = marks.flatMap (own settings) := by
  induction marks with
  | nil => rfl
  | cons mark marks ih => rw [ownOfList, ih, List.flatMap_cons]

/-- Nothing is found in a mark on its own. -/
def Clean (settings : Settings) (mark : Mark) : Prop :=
  mark.findings settings [] = []

mutual

/-- Nothing is found in a mark where it is clean and its names are new. -/
theorem findings_eq_nil_iff (settings : Settings) (seen : List String) :
    (mark : Mark) → mark.findings settings seen = [] ↔
      mark.Clean settings ∧ (ownNames settings [mark]).Nodup ∧
        List.Disjoint seen (ownNames settings [mark])
  | .site declaration => by simp [Clean, findings, ownNames, ownOfList, own]
  | .loop opening closing => by simp [Clean, findings, ownNames, ownOfList, own]
  | .region kind marks => by
      simp only [Clean, findings, ownNames, ownOfList_singleton, own]
      split
      · simp
      · rw [← ownNames, findingsOfList_eq_nil_iff settings seen marks,
          findingsOfList_eq_nil_iff settings [] marks]
        constructor
        · rintro ⟨clean, distinct, new⟩
          exact ⟨⟨clean, distinct, List.disjoint_nil_left _⟩, distinct, new⟩
        · rintro ⟨⟨clean, _, _⟩, distinct, new⟩
          exact ⟨clean, distinct, new⟩

theorem findingsOfList_eq_nil_iff (settings : Settings) (seen : List String) :
    (marks : List Mark) → findingsOfList settings seen marks = [] ↔
      (∀ mark ∈ marks, mark.Clean settings) ∧ (ownNames settings marks).Nodup ∧
        List.Disjoint seen (ownNames settings marks)
  | [] => by simp [findingsOfList, ownNames, ownOfList]
  | mark :: marks => by
      -- The later marks see the names of the first one too, and so have none of them.
      rw [findingsOfList, List.append_eq_nil_iff, findings_eq_nil_iff settings seen mark,
        findingsOfList_eq_nil_iff settings _ marks, ownNames_cons settings mark marks,
        List.nodup_append', List.disjoint_append_left, List.disjoint_append_right,
        List.forall_mem_cons]
      constructor
      · rintro ⟨⟨clean, distinct, new⟩, laterClean, laterDistinct, laterNew, apart⟩
        exact ⟨⟨clean, laterClean⟩, ⟨distinct, laterDistinct, apart⟩, new, laterNew⟩
      · rintro ⟨⟨clean, laterClean⟩, ⟨distinct, laterDistinct, apart⟩, new, laterNew⟩
        exact ⟨⟨clean, distinct, new⟩, laterClean, laterDistinct, laterNew, apart⟩

end

variable {settings : Settings} {marks reordered : List Mark}

theorem ownOfList_perm (perm : marks.Perm reordered) (settings : Settings) :
    (ownOfList settings marks).Perm (ownOfList settings reordered) := by
  rw [ownOfList_eq_flatMap, ownOfList_eq_flatMap]
  exact perm.flatMap_right (own settings)

theorem findingsOfList_of_perm (perm : marks.Perm reordered)
    (nothing : findingsOfList settings [] marks = []) :
    findingsOfList settings [] reordered = [] := by
  rw [findingsOfList_eq_nil_iff] at nothing ⊢
  obtain ⟨clean, distinct, _⟩ := nothing
  have sameNames : (ownNames settings marks).Perm (ownNames settings reordered) :=
    (ownOfList_perm perm settings).map _
  refine ⟨?_, sameNames.nodup_iff.mp distinct, List.disjoint_nil_left _⟩
  intro mark member
  exact clean mark (perm.mem_iff.mpr member)

end Mark

theorem SymbolTable.sorted_declareAll_of_perm {declarations reordered : List Declaration}
    (perm : declarations.Perm reordered)
    (distinct : (declarations.map fun declaration => declaration.name).Nodup) (depth : Nat) :
    (empty.declareAll depth declarations).sorted = (empty.declareAll depth reordered).sorted :=
  sorted_eq_of_perm (declareAll_perm perm distinct depth)

/-- Where nothing is found in a program, nothing is found in it after its items have changed
places, and the table is the same. -/
theorem analyze_reordered (settings : Settings) (showTree showTable : Bool)
    {program reordered : Program} (perm : program.items.Perm reordered.items)
    (clean : (analyze settings showTree showTable program).diagnostics = []) :
    (analyze settings showTree showTable reordered).diagnostics = [] ∧
      (analyze settings showTree showTable reordered).table =
        (analyze settings showTree showTable program).table := by
  have marksPerm : program.outline.Perm reordered.outline := perm.flatMap_right Item.outline
  have nothing : Mark.findingsOfList settings [] program.outline = [] := by
    rw [← diagnostics_examine]
    exact clean
  constructor
  · change (examine settings reordered).diagnostics = []
    rw [diagnostics_examine]
    exact Mark.findingsOfList_of_perm marksPerm nothing
  · have distinct := ((Mark.findingsOfList_eq_nil_iff settings [] _).mp nothing).2.1
    have sameSymbols : (examine settings reordered).scopes.globalSymbols =
        (examine settings program).scopes.globalSymbols := by
      rw [scopes_examine, scopes_examine]
      exact (SymbolTable.sorted_declareAll_of_perm (Mark.ownOfList_perm marksPerm settings)
        distinct 0).symm
    have sameTable : (examine settings reordered).table = (examine settings program).table := by
      rw [table_examine, table_examine, sameSymbols]
    simp only [analyze, Context.toReport, sameTable]

/-- A loop around a variable, a constant and a type on one line, and a procedure with a parameter
of a taken name. -/
def exampleItems : Program :=
  ⟨[.stmt (.whileDo (.literal (.boolean true)) ⟨[.decl (.var ⟨"w", 2⟩ .integer)]⟩),
    .decl (.constant ⟨"b", 1⟩ (.literal (.boolean true))),
    .decl (.pointer ⟨"a", 1⟩ .real),
    .procedure ⟨"show", 3⟩ (some [⟨.byVal, ⟨"a", 3⟩, .char⟩]) ⟨[]⟩]⟩

def exampleReversed : Program :=
  ⟨exampleItems.items.reverse⟩

/-- The symbols are declared in the opposite order and listed in the same one. -/
theorem exampleReversed_table :
    exampleItems.items.Perm exampleReversed.items ∧
      (analyze .standard false true exampleItems).diagnostics = [] ∧
      (examine .standard exampleItems).names = ["w", "b", "a", "show"] ∧
      (examine .standard exampleReversed).names = ["show", "a", "b", "w"] ∧
      (analyze .standard false true exampleReversed).diagnostics = [] ∧
      (analyze .standard false true exampleReversed).table =
        (analyze .standard false true exampleItems).table := by
  have perm : exampleItems.items.Perm exampleReversed.items := (List.reverse_perm _).symm
  have clean : (analyze .standard false true exampleItems).diagnostics = [] := by decide
  exact ⟨perm, clean, by decide, by decide, analyze_reordered .standard false true perm clean⟩

end ScopeLint
