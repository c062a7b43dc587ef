import ScopeLint.Proofs.Analysis.Replay

/-!
The account that a context gives of what went wrong, after any sequence of operations. Nothing
is ever taken out of it; each operation that refuses something adds the one diagnostic that says
so, and no other operation does; and the log warns of each diagnostic once, in the same order.
-/

set_option autoImplicit false

namespace ScopeLint

def Event.isWarning (event : Event) : Bool :=
  event.level == .warn

/-- Acting on the scopes alone warns of nothing, whatever becomes of it. -/
theorem ScopeStack.isWarning_event? {stack : ScopeStack} {action : Action} {event : Event}
    (logged : event ∈ stack.event? action) : event.isWarning = false := by
  cases action with
  | enter kind =>
      cases logged
      rfl
  | exit =>
      simp only [event?] at logged
      split at logged <;> cases logged <;> rfl
  | declare declaration =>
      simp only [event?] at logged
      split at logged <;> cases logged
      rfl

namespace Context

/-! ### Single operations -/

theorem declare_refused_iff (context : Context) (declaration : Declaration) :
    (context.declare declaration).1 = false ↔ declaration.name ∈ context.names := by
  by_cases taken : declaration.name ∈ context.names
  · rw [declare_of_taken taken]
    exact iff_of_true rfl taken
  · rw [declare_of_new taken]
    exact iff_of_false nofun taken

theorem diagnostics_declare (context : Context) (declaration : Declaration) :
    (context.declare declaration).2.diagnostics = context.diagnostics ++
      if (context.declare declaration).1 = false then
        [⟨.alreadyDefined, declaration.name, declaration.line⟩] else [] := by
  rw [(context.gains_declare declaration).diagnostics]
  simp only [declare_refused_iff]

theorem scopes_declare_of_refused {context : Context} {declaration : Declaration}
    (refused : (context.declare declaration).1 = false) :
    (context.declare declaration).2.scopes = context.scopes := by
  rw [declare_of_taken ((context.declare_refused_iff declaration).mp refused)]
  rfl

theorem checkLoop_refused_iff (context : Context) (opening closing : Identifier) :
    (context.checkLoop opening closing).1 = false ↔ opening.name ≠ closing.name := by
  unfold checkLoop
  split
  case isTrue same => exact iff_of_false nofun (not_not_intro same)
  case isFalse different => exact iff_of_true rfl different

theorem diagnostics_checkLoop (context : Context) (opening closing : Identifier) :
    (context.checkLoop opening closing).2.diagnostics = context.diagnostics ++
      if (context.checkLoop opening closing).1 = false then
        [⟨.namesDiffer, closing.name, closing.line⟩] else [] := by
  rw [(context.gains_checkLoop opening closing).diagnostics]
  simp only [checkLoop_refused_iff, ne_eq, ite_not]

theorem scopes_checkLoop (context : Context) (opening closing : Identifier) :
    (context.checkLoop opening closing).2.scopes = context.scopes := by
  rw [(context.gains_checkLoop opening closing).scopes]
  exact context.scopes.withInnermost_innermost

/-! ### Diagnostics -/

theorem diagnostics_prefix_perform (context : Context) (operation : Operation) :
    context.diagnostics <+: (context.perform operation).diagnostics := by
  cases operation with
  | act action => exact List.prefix_rfl
  | declare declaration =>
      rw [perform, (context.gains_declare declaration).diagnostics]
      exact List.prefix_append _ _
  | checkLoop opening closing =>
      rw [perform, (context.gains_checkLoop opening closing).diagnostics]
      exact List.prefix_append _ _
  | report diagnostic => exact List.prefix_append _ _
  | replay program =>
      rw [perform, (context.gains_replay program.outline).diagnostics]
      exact List.prefix_append _ _
  | configure settings => exact List.prefix_rfl

theorem diagnostics_prefix_run (context : Context) (operations : List Operation) :
    context.diagnostics <+: (context.run operations).diagnostics := by
  induction operations generalizing context with
  | nil => exact List.prefix_rfl
  | cons operation later ih =>
      exact (context.diagnostics_prefix_perform operation).trans (ih (context.perform operation))

theorem hasErrors_iff (context : Context) :
    context.hasErrors = true ↔ context.diagnostics ≠ [] := by
  rw [hasErrors, Bool.not_eq_true', List.isEmpty_eq_false_iff]

theorem hasErrors_run {context : Context} (errors : context.hasErrors = true)
    (operations : List Operation) : (context.run operations).hasErrors = true := by
  rw [hasErrors_iff] at errors ⊢
  exact (context.diagnostics_prefix_run operations).ne_nil errors

/-! ### Warnings -/

/-- The warnings in the log are those of the diagnostics, one each and in their order. -/
def Warned (context : Context) : Prop :=
  context.log.filter Event.isWarning = context.diagnostics.map .warned

namespace Warned

variable {context : Context}

theorem report (warned : context.Warned) (diagnostic : Diagnostic) :
    (context.report diagnostic).Warned := by
  unfold Warned at warned ⊢
  rw [Context.report, List.filter_append, warned, List.map_append]
  rfl

theorem act (warned : context.Warned) (action : ScopeStack.Action) :
    (context.act action).Warned := by
  have silent : (context.scopes.event? action).toList.filter Event.isWarning = [] := by
    apply List.filter_eq_nil_iff.mpr
    intro event member
    rw [ScopeStack.isWarning_event? (Option.mem_toList.mp member)]
    exact Bool.false_ne_true
  unfold Warned at warned ⊢
  rw [Context.act, List.filter_append, warned, silent, List.append_nil]

theorem declare (warned : context.Warned) (declaration : Declaration) :
    (context.declare declaration).2.Warned := by
  by_cases taken : declaration.name ∈ context.names
  · rw [declare_of_taken taken]
    exact warned.report _
  · rw [declare_of_new taken]
    exact warned.act _

theorem checkLoop (warned : context.Warned) (opening closing : Identifier) :
    (context.checkLoop opening closing).2.Warned := by
  unfold Context.checkLoop
  split
  · exact warned
  · exact warned.report _

theorem kept : Kept Warned where
  declare := fun _ declaration warned => warned.declare declaration
  checkLoop := fun _ opening closing warned => warned.checkLoop opening closing
  act := fun _ action warned => warned.act action

theorem perform (warned : context.Warned) (operation : Operation) :
    (context.perform operation).Warned := by
  cases operation with
  | act action => exact warned.act action
  | declare declaration => exact warned.declare declaration
  | checkLoop opening closing => exact warned.checkLoop opening closing
  | report diagnostic => exact warned.report diagnostic
  | replay program => exact kept.replay warned program.outline
  | configure settings => exact warned

theorem run (warned : context.Warned) (operations : List Operation) :
    (context.run operations).Warned := by
  induction operations generalizing context with
  | nil => exact warned
  | cons operation later ih => exact ih (warned.perform operation)

/-- What the warnings tell, line and code of each diagnostic. -/
theorem shown (warned : context.Warned) :
    (context.log.filter Event.isWarning).map (fun event => (event.message, event.fields)) =
      context.diagnostics.map fun diagnostic =>
        (diagnostic.message,
          [("line", .number diagnostic.line.toNat), ("code", .text diagnostic.kind.code)]) := by
  unfold Warned at warned
  rw [warned, List.map_map]
  rfl

end Warned

/-! ### The whole account -/

/-- The account of a context: what each operation may add to it from here on, and how the log
bears it out. -/
structure Accounts (context : Context) : Prop where
  appendOnly : ∀ later, context.diagnostics <+: (context.run later).diagnostics
  declareRefused : ∀ declaration,
    (context.declare declaration).1 = false ↔ declaration.name ∈ context.names
  declareReports : ∀ declaration,
    (context.declare declaration).2.diagnostics = context.diagnostics ++
      if (context.declare declaration).1 = false then
        [⟨.alreadyDefined, declaration.name, declaration.line⟩] else []
  declareKeeps : ∀ declaration, (context.declare declaration).1 = false →
    (context.declare declaration).2.scopes = context.scopes
  loopRefused : ∀ opening closing,
    (context.checkLoop opening closing).1 = false ↔ opening.name ≠ closing.name
  loopReports : ∀ opening closing,
    (context.checkLoop opening closing).2.diagnostics = context.diagnostics ++
      if (context.checkLoop opening closing).1 = false then
        [⟨.namesDiffer, closing.name, closing.line⟩] else []
  loopKeeps : ∀ opening closing,
    (context.checkLoop opening closing).2.scopes = context.scopes
  reports : ∀ diagnostic,
    (context.report diagnostic).diagnostics = context.diagnostics ++ [diagnostic] ∧
      (context.report diagnostic).scopes = context.scopes
  configures : ∀ settings,
    (context.perform (.configure settings)).diagnostics = context.diagnostics ∧
      (context.perform (.configure settings)).scopes = context.scopes
  acts : ∀ action, (context.act action).diagnostics = context.diagnostics
  errors : context.hasErrors = true ↔ context.diagnostics ≠ []
  errorsStay : context.hasErrors = true → ∀ later, (context.run later).hasErrors = true
  warned : context.log.filter Event.isWarning = context.diagnostics.map .warned
  shown : (context.log.filter Event.isWarning).map (fun event => (event.message, event.fields)) =
    context.diagnostics.map fun diagnostic =>
      (diagnostic.message,
        [("line", .number diagnostic.line.toNat), ("code", .text diagnostic.kind.code)])

/-- However a context was brought about, by its own operations and by acting on its scopes
directly, it accounts for all that was refused. -/
theorem accounts_run (settings : Settings) (history : List Operation) :
    ((initial settings).run history).Accounts := by
  have fresh : (initial settings).Warned := rfl
  have warned : ((initial settings).run history).Warned := fresh.run history
  generalize (initial settings).run history = context at warned
  exact
    { appendOnly := context.diagnostics_prefix_run
      declareRefused := context.declare_refused_iff
      declareReports := context.diagnostics_declare
      declareKeeps := fun _ => scopes_declare_of_refused
      loopRefused := context.checkLoop_refused_iff
      loopReports := context.diagnostics_checkLoop
      loopKeeps := context.scopes_checkLoop
      reports := fun _ => ⟨rfl, rfl⟩
      configures := fun _ => ⟨rfl, rfl⟩
      acts := fun _ => rfl
      errors := context.hasErrors_iff
      errorsStay := hasErrors_run
      warned := warned
      shown := warned.shown }

end Context

end ScopeLint
