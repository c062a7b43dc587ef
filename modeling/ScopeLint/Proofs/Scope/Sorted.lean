import Mathlib.Data.List.Nodup
import Mathlib.Data.String.Basic
import ScopeLint.Scope.Table

/-!
The order in which symbols are listed. It compares lines and then names, and since no two
symbols of a table share a name, nothing is left open: the listing is strictly increasing and
holds each symbol once.
-/

set_option autoImplicit false

namespace ScopeLint

namespace Symbol

def Before (earlier later : Symbol) : Prop :=
  earlier.line < later.line ∨ earlier.line = later.line ∧ earlier.name < later.name

theorem precedes_iff (earlier later : Symbol) :
    earlier.precedes later = true ↔
      earlier.line < later.line ∨ earlier.line = later.line ∧ earlier.name ≤ later.name := by
  simp only [precedes, Bool.or_eq_true, Bool.and_eq_true, decide_eq_true_eq, beq_iff_eq]

theorem precedes_trans (first second third : Symbol) (before : first.precedes second = true)
    (after : second.precedes third = true) : first.precedes third = true := by
  rw [precedes_iff] at before after ⊢
  rcases before with lineBefore | ⟨lineSame, nameBefore⟩
  · rcases after with lineAfter | ⟨lineSame, _⟩
    · exact Or.inl (UInt32.lt_trans lineBefore lineAfter)
    · exact Or.inl (lineSame ▸ lineBefore)
  · rcases after with lineAfter | ⟨lineSame', nameAfter⟩
    · exact Or.inl (lineSame ▸ lineAfter)
    · exact Or.inr ⟨lineSame.trans lineSame', le_trans nameBefore nameAfter⟩

theorem precedes_total (left right : Symbol) :
    (left.precedes right || right.precedes left) = true := by
  rw [Bool.or_eq_true, precedes_iff, precedes_iff]
  rcases Nat.lt_trichotomy left.line.toNat right.line.toNat with less | sameNat | greater
  · exact Or.inl (Or.inl less)
  · have same : left.line = right.line := UInt32.toNat_inj.mp sameNat
    rcases le_total left.name right.name with nameLe | nameGe
    · exact Or.inl (Or.inr ⟨same, nameLe⟩)
    · exact Or.inr (Or.inr ⟨same.symm, nameGe⟩)
  · exact Or.inr (Or.inl greater)

theorem Before.asymm {left right : Symbol} (before : left.Before right) :
    ¬ right.Before left := by
  rintro (lineAfter | ⟨lineSame, nameAfter⟩)
  · rcases before with lineBefore | ⟨lineSame, _⟩
    · exact Nat.lt_asymm lineBefore lineAfter
    · exact UInt32.lt_irrefl _ (lineSame ▸ lineAfter)
  · rcases before with lineBefore | ⟨_, nameBefore⟩
    · exact UInt32.lt_irrefl _ (lineSame ▸ lineBefore)
    · exact lt_asymm nameBefore nameAfter

end Symbol

namespace SymbolTable

theorem sorted_perm (table : SymbolTable) : table.sorted.Perm table.symbols :=
  List.mergeSort_perm table.symbols Symbol.precedes

theorem mem_sorted_iff (table : SymbolTable) (symbol : Symbol) :
    symbol ∈ table.sorted ↔ symbol ∈ table.symbols :=
  table.sorted_perm.mem_iff

/-- A tie on the line is broken by the names, which differ. -/
theorem sorted_strict (table : SymbolTable) : table.sorted.Pairwise Symbol.Before := by
  have ordered : table.sorted.Pairwise fun left right => left.precedes right = true :=
    List.pairwise_mergeSort Symbol.precedes_trans Symbol.precedes_total table.symbols
  have distinct : table.sorted.Pairwise fun left right => left.name ≠ right.name := by
    have names : (table.sorted.map fun symbol => symbol.name).Nodup :=
      (table.sorted_perm.map fun symbol => symbol.name).nodup_iff.mpr table.distinct
    exact List.pairwise_map.mp names
  refine (ordered.and distinct).imp ?_
  rintro left right ⟨precedes, different⟩
  rw [Symbol.precedes_iff] at precedes
  exact precedes.imp_right fun ⟨sameLine, nameLe⟩ => ⟨sameLine, lt_of_le_of_ne nameLe different⟩

/-- The listing does not tell in which order the symbols came. -/
theorem sorted_eq_of_perm {left right : SymbolTable} (perm : left.symbols.Perm right.symbols) :
    left.sorted = right.sorted := by
  have samePerm : left.sorted.Perm right.sorted :=
    left.sorted_perm.trans (perm.trans right.sorted_perm.symm)
  refine samePerm.eq_of_pairwise ?_ left.sorted_strict right.sorted_strict
  intro earlier later _ _ before after
  exact absurd after before.asymm

end SymbolTable

end ScopeLint
