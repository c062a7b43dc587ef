import ScopeLint.Proofs.Scope.Trace

/-!
What a balanced sequence of actions leaves of a stack that it starts on. Everything that it does
happens in the scope that is opened before it and in scopes above that one; whatever lies below
is never reached, and the exit at the end takes away the rest.
-/

set_option autoImplicit false

namespace ScopeLint

namespace ScopeStack

/-- The stack is a base with `height` scopes opened above it. Below them it is the base still. -/
def StandsOn (stack base : ScopeStack) (height : Nat) : Prop :=
  ∃ upper : List Scope,
    upper.length = height ∧ stack = { base with inner := upper ++ base.inner }

namespace StandsOn

variable {stack base : ScopeStack} {height : Nat}

theorem refl (stack : ScopeStack) : stack.StandsOn stack 0 :=
  ⟨[], rfl, rfl⟩

theorem eq_base (stands : stack.StandsOn base 0) : stack = base := by
  obtain ⟨upper, noScope, rfl⟩ := stands
  rw [List.length_eq_zero_iff.mp noScope, List.nil_append]

theorem enter (stands : stack.StandsOn base height) (kind : ScopeKind) :
    (stack.perform (.enter kind)).StandsOn base (height + 1) := by
  obtain ⟨upper, rfl, rfl⟩ := stands
  exact ⟨⟨kind, .empty⟩ :: upper, rfl, rfl⟩

/-- An exit takes a scope above the base if there is one. -/
theorem exists_exit? (stands : stack.StandsOn base (height + 1)) :
    ∃ next, stack.exit? = some next ∧ next.StandsOn base height := by
  obtain ⟨upper, atHeight, rfl⟩ := stands
  cases upper with
  | nil => cases atHeight
  | cons scope upper => exact ⟨_, rfl, upper, Nat.succ.inj atHeight, rfl⟩

theorem exit (stands : stack.StandsOn base (height + 1)) :
    (stack.perform .exit).StandsOn base height := by
  obtain ⟨next, closed, nextStands⟩ := stands.exists_exit?
  rw [perform, closed, Option.getD_some]
  exact nextStands

/-- A declaration falls to a scope above the base if there is one. -/
theorem declare (stands : stack.StandsOn base (height + 1)) (declaration : Declaration) :
    (stack.perform (.declare declaration)).StandsOn base (height + 1) := by
  rw [perform_declare]
  obtain ⟨upper, atHeight, rfl⟩ := stands
  cases upper with
  | nil => cases atHeight
  | cons scope upper =>
      refine ⟨_ :: upper, ?_, rfl⟩
      exact atHeight

/-- Where no front of the actions closes more scopes than it opens, one scope above the base is
enough to keep all of them off it. -/
theorem run (stands : stack.StandsOn base 1) {actions : List Action}
    (contained : Contained actions) :
    ∃ opened, opened + exits actions = enters actions ∧
      (stack.run actions).StandsOn base (opened + 1) := by
  -- The last action is split off, since the fronts of the others are fronts of the whole.
  induction actions using List.reverseRecOn with
  | nil => exact ⟨0, rfl, stands⟩
  | append_singleton actions action ih =>
      obtain ⟨earlier, balance⟩ := (contained_concat actions action).mp contained
      obtain ⟨opened, counted, standsEarlier⟩ := ih earlier
      rw [run_concat]
      simp only [enters, exits, List.countP_append, List.countP_singleton] at counted balance ⊢
      cases action with
      | enter kind =>
          refine ⟨opened + 1, ?_, standsEarlier.enter kind⟩
          simp only [Action.isEnter, Action.isExit, Bool.false_eq_true, if_true, if_false]
          omega
      | exit =>
          simp only [Action.isEnter, Action.isExit, Bool.false_eq_true, if_true, if_false]
            at balance ⊢
          cases opened with
          | zero => omega -- This exit would close the scope that was there at first.
          | succ opened => exact ⟨opened, by omega, standsEarlier.exit⟩
      | declare declaration => exact ⟨opened, counted, standsEarlier.declare declaration⟩

end StandsOn

/-- A scope that is opened and closed again around a balanced sequence leaves no trace, whatever
the sequence declares, opens and closes and whatever is refused in it. The last exit leads back
to the depth of the beginning. -/
theorem run_balanced (stack : ScopeStack) (kind : ScopeKind) {actions : List Action}
    (contained : Contained actions) (settled : exits actions = enters actions) :
    stack.run (.enter kind :: actions ++ [.exit]) = stack ∧
      (stack.run (.enter kind :: actions)).exit?.map depth = some stack.depth := by
  have entered : (stack.perform (.enter kind)).StandsOn stack 1 :=
    (StandsOn.refl stack).enter kind
  obtain ⟨opened, counted, stands⟩ := entered.run contained
  have noneOpen : opened = 0 := by omega
  subst noneOpen
  change (stack.run (.enter kind :: actions)).StandsOn stack 1 at stands
  constructor
  · rw [run_concat]
    exact stands.exit.eq_base
  · obtain ⟨next, closed, nextStands⟩ := stands.exists_exit?
    rw [closed, nextStands.eq_base, Option.map_some]

/-- Inside a routine with a parameter `p` that hides the `p` of the program. -/
def exampleRoutine : ScopeStack :=
  initial.run
    [.declare ⟨"p", .var, 1, none⟩, .enter .routine, .declare ⟨"p", .parameter, 2, none⟩]

/-- Hides `p` once more, is refused a second time, and opens two scopes, the later of them
inside the other, before it closes both. -/
def exampleStretch : List Action :=
  [.declare ⟨"p", .constant, 3, none⟩, .declare ⟨"p", .type, 4, none⟩, .enter .record,
    .declare ⟨"q", .var, 5, none⟩, .enter .block, .exit, .exit, .declare ⟨"q", .type, 6, none⟩]

theorem exampleStretch_run :
    Contained exampleStretch ∧ exits exampleStretch = enters exampleStretch ∧
      (exampleRoutine.run (.enter .block :: exampleStretch)).resolve? "p" ≠
        exampleRoutine.resolve? "p" ∧
      exampleRoutine.run (.enter .block :: exampleStretch ++ [.exit]) = exampleRoutine ∧
      (exampleRoutine.run (.enter .block :: exampleStretch)).exit?.map depth = some 1 := by
  have contained : Contained exampleStretch := by decide
  have settled : exits exampleStretch = enters exampleStretch := by decide
  exact ⟨contained, settled, by decide, exampleRoutine.run_balanced .block contained settled⟩

end ScopeStack

end ScopeLint
