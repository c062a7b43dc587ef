import ScopeLint.Proofs.Analysis.Comparison
import ScopeLint.Proofs.Analysis.Walk

/-!
The same program replayed twice. The scopes inside are opened anew and tell the same again; the
innermost scope outside has kept the names of the first time, so that every site which was
accepted then is refused now.
-/

set_option autoImplicit false

namespace ScopeLint

/-- The whole list is made of the two others, each in its order. -/
inductive Interleaves {α : Type} : List α → List α → List α → Prop
  | nil : Interleaves [] [] []
  | left {lefts rights whole : List α} (item : α) :
      Interleaves lefts rights whole → Interleaves (item :: lefts) rights (item :: whole)
  | right {lefts rights whole : List α} (item : α) :
      Interleaves lefts rights whole → Interleaves lefts (item :: rights) (item :: whole)

namespace Interleaves

variable {α : Type} {lefts rights whole : List α}

theorem alone (items : List α) : Interleaves items [] items := by
  induction items with
  | nil => exact .nil
  | cons item items ih => exact ih.left item

theorem append {laterLefts laterRights laterWhole : List α}
    (first : Interleaves lefts rights whole)
    (later : Interleaves laterLefts laterRights laterWhole) :
    Interleaves (lefts ++ laterLefts) (rights ++ laterRights) (whole ++ laterWhole) := by
  induction first with
  | nil => exact later
  | left item _ ih => exact ih.left item
  | right item _ ih => exact ih.right item

theorem sublist_left (interleaves : Interleaves lefts rights whole) : lefts.Sublist whole := by
  induction interleaves with
  | nil => exact List.Sublist.slnil
  | left item _ ih => exact ih.cons_cons item
  | right item _ ih => exact ih.cons item

theorem length_eq (interleaves : Interleaves lefts rights whole) :
    whole.length = lefts.length + rights.length := by
  induction interleaves with
  | nil => rfl
  | left item _ ih =>
      rw [List.length_cons, List.length_cons, ih]
      omega
  | right item _ ih =>
      rw [List.length_cons, List.length_cons, ih]
      omega

end Interleaves

/-- The report of a declaration that is refused. -/
def Declaration.refusal (declaration : Declaration) : Diagnostic :=
  ⟨.alreadyDefined, declaration.name, declaration.line⟩

namespace Mark

mutual

/-- Where all names of a mark are taken, the refusals of what is accepted elsewhere come in
between. -/
theorem interleaves_findings (settings : Settings) {seen taken : List String}
    (within : seen ⊆ taken) :
    (mark : Mark) → (∀ declaration ∈ mark.own settings, declaration.name ∈ taken) →
      Interleaves (mark.findings settings seen)
        ((Declaration.accepted seen (mark.own settings)).map Declaration.refusal)
        (mark.findings settings taken)
  | .site declaration, ownTaken => by
      have nameTaken : declaration.name ∈ taken := ownTaken declaration List.mem_cons_self
      simp only [findings, own, Declaration.accepted, if_pos nameTaken]
      by_cases old : declaration.name ∈ seen
      · rw [if_pos old, if_pos old]
        exact .alone [declaration.refusal]
      · rw [if_neg old, if_neg old]
        exact Interleaves.nil.right declaration.refusal
  | .loop _ _, _ => .alone _
  | .region kind marks, ownTaken => by
      simp only [findings, own] at ownTaken ⊢
      by_cases opens : settings.opens kind = true
      · rw [if_pos opens, if_pos opens, if_pos opens]
        exact .alone _
      · rw [if_neg opens] at ownTaken
        rw [if_neg opens, if_neg opens, if_neg opens]
        exact interleaves_findingsOfList settings within marks ownTaken

theorem interleaves_findingsOfList (settings : Settings) {seen taken : List String}
    (within : seen ⊆ taken) :
    (marks : List Mark) → (∀ declaration ∈ ownOfList settings marks, declaration.name ∈ taken) →
      Interleaves (findingsOfList settings seen marks)
        ((Declaration.accepted seen (ownOfList settings marks)).map Declaration.refusal)
        (findingsOfList settings taken marks)
  | [], _ => .nil
  | mark :: marks, ownTaken => by
      simp only [ownOfList, List.mem_append] at ownTaken
      have first := interleaves_findings settings within mark fun declaration member =>
        ownTaken declaration (Or.inl member)
      have laterWithin : seen ++ ownNames settings [mark] ⊆ taken := by
        apply List.append_subset_of_subset_of_subset within
        intro name member
        rw [ownNames, ownOfList_singleton, List.mem_map] at member
        obtain ⟨declaration, own, rfl⟩ := member
        exact ownTaken declaration (Or.inl own)
      -- Nothing new is taken on the way, since all names of the first mark were taken before.
      have sameTaken : ∀ name, name ∈ taken ++ ownNames settings [mark] ↔ name ∈ taken := by
        intro name
        rw [List.mem_append, or_iff_left_of_imp]
        intro member
        exact laterWithin (List.mem_append_right seen member)
      have rest := interleaves_findingsOfList settings laterWithin marks fun declaration member =>
        ownTaken declaration (Or.inr member)
      simp only [findingsOfList, ownOfList, Declaration.accepted_append, List.map_append,
        findingsOfList_congr settings sameTaken marks]
      rw [ownNames, ownOfList_singleton] at rest ⊢
      exact first.append rest

end

end Mark

namespace Context

/-- What a second replay of a program does after a first one: no scope changes, and to the
diagnostics of the first time come those of the sites that were accepted then. -/
structure Repeats (before after : Context) (program : Program) : Prop where
  scopes : (after.perform (.replay program)).scopes = after.scopes
  again : (before.reported program).Sublist (after.reported program)
  count : (after.reported program).length =
    (before.reported program).length + (before.added program).length
  accepted : (before.added program).map Symbol.toDeclaration =
    Declaration.accepted before.names
      (Visit.declarationsIn [] (program.visits before.settings.blockScopes))
  refused : Interleaves (before.reported program)
    ((before.added program).map fun symbol => symbol.toDeclaration.refusal)
    (after.reported program)

theorem repeats_replay (context : Context) (program : Program) :
    context.Repeats (context.perform (.replay program)) program := by
  have gains := context.gains_replay program.outline
  have within : context.names ⊆ (context.perform (.replay program)).names := by
    intro name member
    exact (context.mem_names_replay program name).mpr (Or.inl member)
  have ownTaken : ∀ declaration ∈ Mark.ownOfList context.settings program.outline,
      declaration.name ∈ (context.perform (.replay program)).names := by
    intro declaration member
    exact (context.mem_names_replay program declaration.name).mpr
      (Or.inr (List.mem_map_of_mem member))
  have sameSettings : (context.perform (.replay program)).settings = context.settings :=
    gains.settings
  have refused : Interleaves (context.reported program)
      ((context.added program).map fun symbol => symbol.toDeclaration.refusal)
      ((context.perform (.replay program)).reported program) := by
    rw [← Function.comp_def Declaration.refusal Symbol.toDeclaration, ← List.map_map,
      declarations_added, reported_eq, reported_eq, sameSettings]
    exact Mark.interleaves_findingsOfList context.settings within program.outline ownTaken
  refine
    { scopes := ?_
      again := refused.sublist_left
      count := ?_
      accepted := ?_
      refused := refused }
  · have second := (context.perform (.replay program)).gains_replay program.outline
    rw [sameSettings] at second
    refine second.scopes.trans ?_
    rw [SymbolTable.declareAll_of_taken _ ownTaken, ScopeStack.withInnermost_innermost]
  · rw [refused.length_eq, List.length_map]
  · rw [declarations_added, (program.follows context.settings).own]

end Context

end ScopeLint
