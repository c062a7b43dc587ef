import ScopeLint.Proofs.Analysis.Brackets
import ScopeLint.Proofs.Analysis.Comparison
import ScopeLint.Proofs.Analysis.Sites

/-!
What a replay leaves in the log. It is a disciplined stretch that begins at the depth of the
context: all scopes that are entered are left again, with as many symbols as were declared in
them, and no attempt is made to leave the global one. Of each declaration site there is a trace,
in the log if it was accepted and among the diagnostics if it was not.
-/

set_option autoImplicit false

namespace ScopeLint

def Diagnostic.isRefusal (diagnostic : Diagnostic) : Bool :=
  diagnostic.kind == .alreadyDefined

/-- A scope that is closed is logged with the depth that it had and the symbols that it held. -/
theorem ScopeStack.event?_exit (stack : ScopeStack) (kind : ScopeKind) (table : SymbolTable) :
    ((stack.enter kind).withInnermost table).event? .exit =
      some (.exited (stack.depth + 1) table.symbols.length kind) := rfl

theorem ScopeStack.event?_declare_of_fresh {stack : ScopeStack} {declaration : Declaration}
    (fresh : declaration.name ∉ stack.innermost.table.names) :
    stack.event? (.declare declaration) = some (.declared ⟨declaration, stack.depth⟩) := by
  have notFound : stack.resolveLocal? declaration.name = none :=
    (stack.innermost.table.find?_eq_none_iff declaration.name).mpr fresh
  simp only [event?, notFound]

namespace Context

/-! ### Discipline -/

/-- How a context comes out of another when `events` are all that is logged on the way. The
symbols that the innermost scope gains are those that the events declare at its depth. -/
structure Emits (before after : Context) (events : List Event) : Prop where
  log : after.log = before.log ++ events
  depth : after.scopes.depth = before.scopes.depth
  disciplined : Event.Disciplined before.scopes.depth events
  grown : after.names.length =
    before.names.length + events.countP (Event.declaresAt before.scopes.depth)

namespace Emits

theorem refl (context : Context) : context.Emits context [] where
  log := (List.append_nil context.log).symm
  depth := rfl
  disciplined := .nil context.scopes.depth
  grown := rfl

theorem trans {first second third : Context} {events later : List Event}
    (before : first.Emits second events) (after : second.Emits third later) :
    first.Emits third (events ++ later) where
  log := by rw [after.log, before.log, List.append_assoc]
  depth := after.depth.trans before.depth
  disciplined := before.disciplined.append (before.depth ▸ after.disciplined)
  grown := by
    have grown := after.grown
    rw [before.depth] at grown
    rw [grown, before.grown, List.countP_append, Nat.add_assoc]

/-- A single event that is neither an enter nor an exit, nor a declaration. -/
theorem report (context : Context) (diagnostic : Diagnostic) :
    context.Emits (context.report diagnostic) [.warned diagnostic] where
  log := rfl
  depth := rfl
  disciplined := .single rfl rfl trivial
  grown := rfl

theorem declare (context : Context) (declaration : Declaration) :
    ∃ events, context.Emits (context.declare declaration).2 events := by
  by_cases taken : declaration.name ∈ context.names
  · rw [declare_of_taken taken]
    exact ⟨_, report context _⟩
  · have gains := context.gains_declare declaration
    have names : (context.declare declaration).2.names = context.names ++ [declaration.name] := by
      rw [Context.names, gains.scopes, ScopeStack.innermost_withInnermost]
      exact SymbolTable.names_declare_of_fresh context.scopes.depth taken
    refine ⟨[.declared ⟨declaration, context.scopes.depth⟩], ?_, ?_, .single rfl rfl rfl, ?_⟩
    · rw [declare_of_new taken, act, ScopeStack.event?_declare_of_fresh taken]
      rfl
    · rw [gains.scopes, ScopeStack.depth_withInnermost]
    · rw [names, List.length_append, List.countP_singleton, Event.declaresAt,
        if_pos (beq_self_eq_true context.scopes.depth), List.length_singleton]

theorem checkLoop (context : Context) (opening closing : Identifier) :
    ∃ events, context.Emits (context.checkLoop opening closing).2 events := by
  unfold Context.checkLoop
  split
  · exact ⟨[], refl context⟩
  · exact ⟨_, report context _⟩

/-- The events of a scope are one bracket more inside the two of the scope itself. What is
declared inside does not count outside. -/
theorem enclosed {context inside : Context} {kind : ScopeKind} {declared : List Declaration}
    {found : List Diagnostic} {events : List Event}
    (gains : (context.act (.enter kind)).Gains inside declared found)
    (emits : (context.act (.enter kind)).Emits inside events) :
    context.Emits (inside.act .exit)
      (.entered (context.scopes.depth + 1) kind :: events ++
        [.exited (context.scopes.depth + 1)
          (events.countP (Event.declaresAt (context.scopes.depth + 1))) kind]) where
  log := by
    have held : inside.scopes.innermost.table.symbols.length =
        events.countP (Event.declaresAt (context.scopes.depth + 1)) := by
      have grown := emits.grown
      rw [names, SymbolTable.names, List.length_map] at grown
      exact grown.trans (Nat.zero_add _)
    have closing : inside.scopes.event? .exit =
        some (.exited (context.scopes.depth + 1)
          (events.countP (Event.declaresAt (context.scopes.depth + 1))) kind) := by
      rw [← held, gains.scopes, ScopeStack.innermost_withInnermost]
      exact context.scopes.event?_exit kind _
    change inside.log ++ (inside.scopes.event? .exit).toList = _
    rw [closing, emits.log]
    change context.log ++ [_] ++ events ++ [_] = _
    rw [List.append_assoc, List.append_assoc]
    rfl
  depth := by rw [gains.enclose.scopes, ScopeStack.depth_withInnermost]
  disciplined := emits.disciplined.enclosed kind
  grown := by
    have unchanged : (inside.act .exit).names = context.names := by
      rw [names, gains.enclose.scopes]
      exact congrArg SymbolTable.names
        (congrArg Scope.table (context.scopes.innermost_withInnermost _))
    have deeper := emits.disciplined.countP_declaresAt_of_lt
      (Nat.lt_succ_self context.scopes.depth)
    rw [unchanged, List.countP_append, List.countP_cons, deeper]
    rfl

end Emits

mutual

theorem emits_replayMark (context : Context) :
    (mark : Mark) → ∃ events, context.Emits (context.replayMark mark) events
  | .site declaration => by
      rw [replayMark]
      exact Emits.declare context declaration
  | .loop opening closing => by
      rw [replayMark]
      exact Emits.checkLoop context opening closing
  | .region kind marks => by
      rw [replayMark]
      split
      · obtain ⟨events, emits⟩ := emits_replay (context.act (.enter kind)) marks
        have gains := (context.act (.enter kind)).gains_replay marks
        exact ⟨_, emits.enclosed gains⟩
      · exact emits_replay context marks

theorem emits_replay (context : Context) :
    (marks : List Mark) → ∃ events, context.Emits (context.replay marks) events
  | [] => by
      rw [replay]
      exact ⟨[], Emits.refl context⟩
  | mark :: marks => by
      obtain ⟨events, first⟩ := emits_replayMark context mark
      obtain ⟨later, rest⟩ := emits_replay (context.replayMark mark) marks
      rw [replay]
      exact ⟨events ++ later, first.trans rest⟩

end

/-! ### One trace of each site -/

/-- How many declarations have left a trace in a context, accepted ones in the log and refused
ones among the diagnostics. -/
def traces (context : Context) : Nat :=
  context.log.countP Event.isDeclaration + context.diagnostics.countP Diagnostic.isRefusal

theorem traces_act_of_quiet (context : Context) {action : ScopeStack.Action}
    (quiet : ∀ event ∈ context.scopes.event? action, event.isDeclaration = false) :
    (context.act action).traces = context.traces := by
  have nothing : (context.scopes.event? action).toList.countP Event.isDeclaration = 0 := by
    apply List.countP_eq_zero.mpr
    intro event member
    rw [quiet event (Option.mem_toList.mp member)]
    exact Bool.false_ne_true
  simp only [traces, act, List.countP_append, nothing, Nat.add_zero]

theorem traces_enter (context : Context) (kind : ScopeKind) :
    (context.act (.enter kind)).traces = context.traces := by
  apply traces_act_of_quiet
  rintro event ⟨⟩
  rfl

theorem traces_exit (context : Context) : (context.act .exit).traces = context.traces := by
  apply traces_act_of_quiet
  intro event logged
  simp only [ScopeStack.event?] at logged
  split at logged <;> cases logged <;> rfl

theorem traces_declare (context : Context) (declaration : Declaration) :
    (context.declare declaration).2.traces = context.traces + 1 := by
  by_cases taken : declaration.name ∈ context.names
  · rw [declare_of_taken taken]
    simp only [report, traces, List.countP_append, List.countP_singleton, Event.isDeclaration,
      Diagnostic.isRefusal, Bool.false_eq_true, if_false, beq_self_eq_true, if_true]
    omega
  · rw [declare_of_new taken]
    simp only [act, ScopeStack.event?_declare_of_fresh taken, Option.toList_some, traces,
      List.countP_append, List.countP_singleton, Event.isDeclaration, if_true]
    omega

theorem traces_checkLoop (context : Context) (opening closing : Identifier) :
    (context.checkLoop opening closing).2.traces = context.traces := by
  unfold checkLoop
  split
  · rfl
  · simp only [report, traces, List.countP_append, List.countP_singleton, Event.isDeclaration,
      Diagnostic.isRefusal, Bool.false_eq_true, if_false, Nat.add_zero]
    rfl

mutual

theorem traces_replayMark (context : Context) :
    (mark : Mark) → (context.replayMark mark).traces = context.traces + mark.sites.length
  | .site declaration => by
      rw [replayMark]
      exact context.traces_declare declaration
  | .loop opening closing => by
      rw [replayMark]
      exact context.traces_checkLoop opening closing
  | .region kind marks => by
      rw [replayMark, Mark.sites]
      split
      · rw [traces_exit, traces_replay _ marks, traces_enter]
      · exact traces_replay context marks

theorem traces_replay (context : Context) :
    (marks : List Mark) →
      (context.replay marks).traces = context.traces + (Mark.sitesOfList marks).length
  | [] => by rw [replay, Mark.sitesOfList, List.length_nil, Nat.add_zero]
  | mark :: marks => by
      rw [replay, Mark.sitesOfList, List.length_append, traces_replay _ marks,
        traces_replayMark context mark, Nat.add_assoc]

end

/-! ### Replaying a program -/

/-- The events that replaying a program adds to the log. -/
def emitted (context : Context) (program : Program) : List Event :=
  (context.perform (.replay program)).log.drop context.log.length

theorem emits_emitted (context : Context) (program : Program) :
    context.Emits (context.perform (.replay program)) (context.emitted program) := by
  obtain ⟨events, emits⟩ := context.emits_replay program.outline
  have added : context.emitted program = events := by
    rw [emitted, perform, emits.log, List.drop_left]
  rw [added]
  exact emits

/-- Each site has left its trace in what a replay adds to the log or to the diagnostics. -/
theorem countP_emitted (context : Context) (program : Program) :
    (context.emitted program).countP Event.isDeclaration +
        (context.reported program).countP Diagnostic.isRefusal =
      (Mark.sitesOfList program.outline).length := by
  have log := (context.emits_emitted program).log
  have found : (context.replay program.outline).diagnostics =
      context.diagnostics ++ context.reported program := context.diagnostics_replay program
  have traces := context.traces_replay program.outline
  rw [perform] at log
  rw [Context.traces, Context.traces, log, found, List.countP_append, List.countP_append] at traces
  omega

/-- What can be said of the events of a replay, from whatever context it starts. -/
structure LoggedInOrder (context : Context) (program : Program) : Prop where
  log : (context.perform (.replay program)).log = context.log ++ context.emitted program
  harmless : ∀ event ∈ context.emitted program, event.level ≠ .error
  disciplined : Event.Disciplined context.scopes.depth (context.emitted program)
  accounted : ∀ choice,
    (context.emitted program).countP Event.isDeclaration +
        (context.reported program).countP Diagnostic.isRefusal =
      (Visit.sites (program.visits choice)).length

theorem loggedInOrder_replay (context : Context) (program : Program) :
    context.LoggedInOrder program := by
  have emits := context.emits_emitted program
  refine
    { log := emits.log
      harmless := emits.disciplined.level_ne_error
      disciplined := emits.disciplined
      accounted := ?_ }
  intro choice
  rw [program.sites_visits choice]
  exact context.countP_emitted program

/-- A routine with a parameter, and a variable of its name. -/
example :
    let program : Program :=
      ⟨[.procedure ⟨"show", 1⟩ (some [⟨.byVal, ⟨"p", 1⟩, .char⟩])
        ⟨[.decl (.var ⟨"p", 2⟩ .char)]⟩]⟩
    ((initial .standard).perform (.replay program)).log =
      [.declared ⟨⟨"show", .procedure, 1, none⟩, 0⟩, .entered 1 .routine,
        .declared ⟨⟨"p", .parameter, 1, none⟩, 1⟩, .warned ⟨.alreadyDefined, "p", 2⟩,
        .exited 1 1 .routine] := by
  decide

end Context

end ScopeLint
