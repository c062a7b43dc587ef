import Mathlib.Data.List.Basic
import ScopeLint.Proofs.Analysis.Replay

/-!
Outlines with fewer marks, gone through with more scopes or with fewer names known beforehand.
None of the three can bring up a diagnostic: a name that is refused then was refused before.
-/

set_option autoImplicit false

namespace ScopeLint

/-- Every region that has a scope under the coarser settings has one under the finer ones. -/
def Settings.Refines (finer coarser : Settings) : Prop :=
  ∀ kind, coarser.opens kind = true → finer.opens kind = true

theorem Settings.refines_of_blockScopes {finer coarser : Settings}
    (opened : coarser.blockScopes = true → finer.blockScopes = true) : finer.Refines coarser := by
  intro kind opens
  cases kind with
  | block => exact opened opens
  | global => rfl
  | routine => rfl
  | record => rfl

namespace Mark

/-- The first outline is left of the second when marks are dropped from it, inside of regions as
well. A region that stays has its kind still. -/
inductive Thinned : List Mark → List Mark → Prop
  | nil : Thinned [] []
  | drop {fewer marks : List Mark} (mark : Mark) :
      Thinned fewer marks → Thinned fewer (mark :: marks)
  | site {fewer marks : List Mark} (declaration : Declaration) :
      Thinned fewer marks → Thinned (.site declaration :: fewer) (.site declaration :: marks)
  | loop {fewer marks : List Mark} (opening closing : Identifier) :
      Thinned fewer marks →
        Thinned (.loop opening closing :: fewer) (.loop opening closing :: marks)
  | region {fewer marks fewerInner inner : List Mark} (kind : ScopeKind) :
      Thinned fewerInner inner → Thinned fewer marks →
        Thinned (.region kind fewerInner :: fewer) (.region kind inner :: marks)

namespace Thinned

theorem refl : (marks : List Mark) → Thinned marks marks
  | [] => .nil
  | .site declaration :: marks => .site declaration (refl marks)
  | .loop opening closing :: marks => .loop opening closing (refl marks)
  | .region kind inner :: marks => .region kind (refl inner) (refl marks)

theorem dropAll (marks : List Mark) : Thinned [] marks := by
  induction marks with
  | nil => exact .nil
  | cons mark marks ih => exact ih.drop mark

theorem append {fewer marks fewerLater later : List Mark} (thinned : Thinned fewer marks)
    (thinnedLater : Thinned fewerLater later) :
    Thinned (fewer ++ fewerLater) (marks ++ later) := by
  induction thinned with
  | nil => exact thinnedLater
  | drop mark _ ih => exact ih.drop mark
  | site declaration _ ih => exact ih.site declaration
  | loop opening closing _ ih => exact ih.loop opening closing
  | region kind inner _ _ ih => exact .region kind inner ih

theorem map {α : Type} (mark : α → Mark) {kept items : List α} (sublist : kept.Sublist items) :
    Thinned (kept.map mark) (items.map mark) := by
  induction sublist with
  | slnil => exact .nil
  | cons item _ ih => exact ih.drop (mark item)
  | cons_cons item _ ih => exact (refl [mark item]).append ih

variable {finer coarser : Settings} {fewer marks : List Mark}

theorem ownOfList_sublist (thinned : Thinned fewer marks) (refines : finer.Refines coarser) :
    (ownOfList finer fewer).Sublist (ownOfList coarser marks) := by
  induction thinned with
  | nil => exact List.Sublist.slnil
  | drop mark _ ih => exact ih.trans (List.sublist_append_right _ _)
  | site declaration _ ih => exact ih.cons_cons declaration
  | loop opening closing _ ih => exact ih
  | @region fewer marks fewerInner inner kind _ _ ihInner ih =>
      apply List.Sublist.append _ ih
      simp only [own]
      by_cases opens : finer.opens kind = true
      · rw [if_pos opens]
        exact List.nil_sublist _
      · rw [if_neg opens, if_neg (mt (refines kind) opens)]
        exact ihInner

theorem ownNames_subset (thinned : Thinned fewer marks) (refines : finer.Refines coarser) :
    ownNames finer fewer ⊆ ownNames coarser marks :=
  ((thinned.ownOfList_sublist refines).map _).subset

private theorem append_subset_append {seen known own others : List String}
    (within : seen ⊆ known) (ownWithin : own ⊆ others) : seen ++ own ⊆ known ++ others :=
  List.append_subset_of_subset_of_subset (List.subset_append_of_subset_left others within)
    (List.subset_append_of_subset_right known ownWithin)

/-- The invariant is that the names seen on the way through the thinner outline are among those
seen on the way through the other one. -/
theorem findingsOfList_sublist (thinned : Thinned fewer marks) (refines : finer.Refines coarser)
    {seen known : List String} (within : seen ⊆ known) :
    (findingsOfList finer seen fewer).Sublist (findingsOfList coarser known marks) := by
  induction thinned generalizing seen known with
  | nil => exact List.Sublist.slnil
  | drop mark _ ih =>
      have laterWithin : seen ⊆ known ++ ownNames coarser [mark] :=
        List.subset_append_of_subset_left _ within
      exact (ih laterWithin).trans (List.sublist_append_right _ _)
  | @site fewer marks declaration _ ih =>
      apply List.Sublist.append _ (ih (append_subset_append within (List.Subset.refl _)))
      simp only [findings]
      by_cases taken : declaration.name ∈ seen
      · rw [if_pos taken, if_pos (within taken)]
      · rw [if_neg taken]
        exact List.nil_sublist _
  | loop opening closing _ ih =>
      exact (List.Sublist.refl _).append
        (ih (append_subset_append within (List.Subset.refl _)))
  | @region fewer marks fewerInner inner kind innerThinned _ ihInner ih =>
      have regionThinned : Thinned [.region kind fewerInner] [.region kind inner] :=
        innerThinned.region kind .nil
      apply List.Sublist.append _
        (ih (append_subset_append within (regionThinned.ownNames_subset refines)))
      simp only [findings]
      apply ihInner
      -- A scope that only the finer settings open starts without names.
      by_cases opens : finer.opens kind = true
      · rw [if_pos opens]
        exact List.nil_subset _
      · rw [if_neg opens, if_neg (mt (refines kind) opens)]
        exact within

end Thinned

/-! ### Settings of the same choice -/

variable {left right : Settings}

theorem ownOfList_of_sameChoice (same : left.blockScopes = right.blockScopes)
    (marks : List Mark) : ownOfList left marks = ownOfList right marks := by
  have fewer := (Thinned.refl marks).ownOfList_sublist
    (Settings.refines_of_blockScopes fun chosen => same.trans chosen)
  have more := (Thinned.refl marks).ownOfList_sublist
    (Settings.refines_of_blockScopes fun chosen => same.symm.trans chosen)
  exact fewer.antisymm more

theorem findingsOfList_of_sameChoice (same : left.blockScopes = right.blockScopes)
    (seen : List String) (marks : List Mark) :
    findingsOfList left seen marks = findingsOfList right seen marks := by
  have fewer := (Thinned.refl marks).findingsOfList_sublist
    (Settings.refines_of_blockScopes fun chosen => same.trans chosen) (List.Subset.refl seen)
  have more := (Thinned.refl marks).findingsOfList_sublist
    (Settings.refines_of_blockScopes fun chosen => same.symm.trans chosen)
    (List.Subset.refl seen)
  exact fewer.antisymm more

end Mark

end ScopeLint
