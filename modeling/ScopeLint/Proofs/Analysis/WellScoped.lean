import ScopeLint.Proofs.Analysis.Influence
import ScopeLint.Proofs.Analysis.Logging
import ScopeLint.Proofs.Analysis.Walk

/-!
Programs in which nothing is found. Whether a program is one can be told on the way through its
tree: each site has to be the first of its name in its region, and each loop has to end with the
variable that it began with. Of the analysis of any program nothing is left in the log that a
user is alerted to.
-/

set_option autoImplicit false

namespace ScopeLint

namespace Visit

/-- Each site is the first of its name in its region, and each loop ends with the variable that
it began with. -/
structure WellScoped (visits : List Visit) : Prop where
  first : ∀ front region declaration later, visits = front ++ .site region declaration :: later →
    ∀ other ∈ declarationsIn region front, other.name ≠ declaration.name
  loops : ∀ opening closing, .loopEnd opening closing ∈ visits → opening.name = closing.name

theorem finding?_site_eq_none_iff (earlier : List Visit) (region : Place)
    (declaration : Declaration) :
    (site region declaration).finding? earlier = none ↔
      ∀ other ∈ declarationsIn region earlier, other.name ≠ declaration.name := by
  rw [finding?]
  split
  case isTrue taken =>
    obtain ⟨other, member, same⟩ := taken
    exact iff_of_false (Option.some_ne_none _) fun new => new other member same
  case isFalse new => exact iff_of_true rfl fun other member same => new ⟨other, member, same⟩

theorem finding?_loopEnd_eq_none_iff (earlier : List Visit) (opening closing : Identifier) :
    (loopEnd opening closing).finding? earlier = none ↔ opening.name = closing.name := by
  rw [finding?]
  split
  case isTrue same => exact iff_of_true rfl same
  case isFalse different => exact iff_of_false (Option.some_ne_none _) different

theorem diagnosticsAfter_eq_nil_iff (earlier visits : List Visit) :
    diagnosticsAfter earlier visits = [] ↔
      ∀ front visit later, visits = front ++ visit :: later →
        visit.finding? (earlier ++ front) = none := by
  induction visits generalizing earlier with
  | nil =>
      refine iff_of_true rfl fun front visit later impossible => ?_
      exact absurd impossible.symm (List.append_ne_nil_of_right_ne_nil front (List.cons_ne_nil _ _))
  | cons head visits ih =>
      rw [diagnosticsAfter, List.append_eq_nil_iff, Option.toList_eq_nil_iff, ih]
      constructor
      · rintro ⟨atHead, after⟩ front visit later split
        rcases List.cons_eq_append_iff.mp split with ⟨rfl, same⟩ | ⟨front, rfl, inTail⟩
        · obtain ⟨rfl, rfl⟩ := List.cons.inj same
          rw [List.append_nil]
          exact atHead
        · rw [List.append_cons]
          exact after front visit later inTail
      · intro every
        constructor
        · rw [← List.append_nil earlier]
          exact every [] head visits rfl
        · rintro front visit later rfl
          rw [← List.append_cons]
          exact every (head :: front) visit later rfl

theorem diagnostics_eq_nil_iff (visits : List Visit) :
    diagnostics visits = [] ↔ WellScoped visits := by
  rw [diagnostics_eq, diagnosticsAfter_eq_nil_iff]
  constructor
  · intro nothing
    constructor
    · intro front region declaration later split
      exact (finding?_site_eq_none_iff front region declaration).mp (nothing front _ later split)
    · intro opening closing member
      obtain ⟨front, later, split⟩ := List.append_of_mem member
      exact (finding?_loopEnd_eq_none_iff front opening closing).mp (nothing front _ later split)
  · intro wellScoped front visit later split
    cases visit with
    | site region declaration =>
        exact (finding?_site_eq_none_iff front region declaration).mpr
          (wellScoped.first front region declaration later split)
    | loopEnd opening closing =>
        have member : .loopEnd opening closing ∈ visits :=
          split ▸ List.mem_append_right front List.mem_cons_self
        exact (finding?_loopEnd_eq_none_iff front opening closing).mpr
          (wellScoped.loops opening closing member)

end Visit

theorem diagnostics_examine_eq_visits (settings : Settings) (program : Program) :
    (examine settings program).diagnostics =
      Visit.diagnostics (program.visits settings.blockScopes) := by
  have nothingSeen : ∀ name, name ∈ ([] : List String) ↔
      ∃ other ∈ Visit.declarationsIn [] [], other.name = name := by
    intro name
    simp only [Visit.declarationsIn, List.filterMap_nil, List.not_mem_nil, false_and,
      exists_false]
  have found := (program.follows settings).found [] [] nothingSeen fun _ _ => rfl
  rw [diagnostics_examine, Visit.diagnostics_eq, found]

theorem hasErrors_examine_eq_false_iff (settings : Settings) (program : Program) :
    (examine settings program).hasErrors = false ↔
      Visit.WellScoped (program.visits settings.blockScopes) := by
  rw [← Visit.diagnostics_eq_nil_iff, ← diagnostics_examine_eq_visits, Context.hasErrors,
    Bool.not_eq_false', List.isEmpty_iff]

theorem level_ne_error_examine {settings : Settings} {program : Program} {event : Event}
    (logged : event ∈ (examine settings program).log) : event.level ≠ .error := by
  obtain ⟨events, emits⟩ := (Context.initial settings).emits_replay program.outline
  have log : (examine settings program).log = events ++ [.analyzed program.items.length _] :=
    congrArg (· ++ [_]) emits.log
  rw [log] at logged
  rcases List.mem_append.mp logged with inReplay | atEnd
  · exact emits.disciplined.level_ne_error event inReplay
  · rw [List.mem_singleton.mp atEnd]
    exact nofun

end ScopeLint
