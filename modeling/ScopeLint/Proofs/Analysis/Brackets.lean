import Mathlib.Data.List.Infix
import ScopeLint.Analysis.Event

/-!
Order in a log. Entering and leaving a scope are a pair of brackets. A stretch of a log is
disciplined if its brackets match, if the two ends of each pair speak of the same scope, and if
every symbol is declared at the depth that the open brackets give. Stretches one after the other
and a stretch between two brackets are disciplined again.
-/

set_option autoImplicit false

namespace ScopeLint

namespace Event

def isEnter : Event → Bool
  | entered .. => true
  | exited .. | refusedExit | declared _ | warned _ | analyzed .. => false

def isExit : Event → Bool
  | exited .. => true
  | entered .. | refusedExit | declared _ | warned _ | analyzed .. => false

def isDeclaration : Event → Bool
  | declared _ => true
  | entered .. | exited .. | refusedExit | warned _ | analyzed .. => false

def declaresAt (depth : Nat) : Event → Bool
  | declared symbol => symbol.depth == depth
  | entered .. | exited .. | refusedExit | warned _ | analyzed .. => false

def enters (events : List Event) : Nat :=
  events.countP isEnter

def exits (events : List Event) : Nat :=
  events.countP isExit

/-- How many scopes entered in the events are not left in them. -/
def openBrackets (events : List Event) : Nat :=
  enters events - exits events

/-- Every scope that is left was entered before, and none stays open. -/
structure Balanced (events : List Event) : Prop where
  contained : ∀ front, front <+: events → exits front ≤ enters front
  settled : exits events = enters events

/-- What an event has to say between the events `front` and `later`, in a stretch of a log that
begins at the depth `base`. What lies between an enter and an exit is balanced, so that the one
matches the other. -/
def Accords (base : Nat) (front later : List Event) : Event → Prop
  | entered depth kind =>
      depth = base + openBrackets front + 1 ∧
        ∃ inner dropped rest,
          later = inner ++ exited depth dropped kind :: rest ∧ Balanced inner
  | exited depth dropped kind =>
      ∃ outer inner, front = outer ++ entered depth kind :: inner ∧ Balanced inner ∧
        dropped = inner.countP (declaresAt depth)
  | declared symbol => symbol.depth = base + openBrackets front
  | warned _ => True
  | refusedExit => False
  | analyzed .. => False

structure Disciplined (base : Nat) (events : List Event) : Prop where
  balanced : Balanced events
  accords : ∀ front event later, events = front ++ event :: later →
    event.Accords base front later

/-! ### Counting brackets -/

theorem openBrackets_append {first : List Event} (balanced : Balanced first)
    (later : List Event) : openBrackets (first ++ later) = openBrackets later := by
  have settled := balanced.settled
  simp only [openBrackets, enters, exits, List.countP_append] at settled ⊢
  omega

theorem openBrackets_entered {events front : List Event} (balanced : Balanced events)
    (isFront : front <+: events) (depth : Nat) (kind : ScopeKind) :
    openBrackets (entered depth kind :: front) = openBrackets front + 1 := by
  have contained := balanced.contained front isFront
  simp only [openBrackets, enters, exits, List.countP_cons, isEnter, isExit,
    Bool.false_eq_true, if_true, if_false] at contained ⊢
  omega

namespace Balanced

theorem nil : Balanced [] where
  contained := by
    intro front isFront
    rw [List.prefix_nil.mp isFront]
    exact Nat.le_refl 0
  settled := rfl

theorem single {event : Event} (noEnter : event.isEnter = false)
    (noExit : event.isExit = false) : Balanced [event] where
  contained := by
    intro front isFront
    have noExits : exits [event] = 0 := by
      simp only [exits, List.countP_singleton, noExit, Bool.false_eq_true, if_false]
    have fewer : exits front ≤ exits [event] := isFront.countP_le
    omega
  settled := by
    simp only [exits, enters, List.countP_singleton, noEnter, noExit]

theorem append {first second : List Event} (before : Balanced first) (after : Balanced second) :
    Balanced (first ++ second) where
  contained := by
    intro front isFront
    rcases List.prefix_or_prefix_of_prefix isFront (List.prefix_append first second) with
      inFirst | ⟨rest, rfl⟩
    · exact before.contained front inFirst
    · have inSecond := after.contained rest ((List.prefix_append_right_inj first).mp isFront)
      have settled := before.settled
      simp only [enters, exits, List.countP_append] at inSecond settled ⊢
      omega
  settled := by
    have settledFirst := before.settled
    have settledSecond := after.settled
    simp only [enters, exits, List.countP_append] at settledFirst settledSecond ⊢
    omega

theorem enclosed {inner : List Event} (balanced : Balanced inner) (depth dropped : Nat)
    (kind : ScopeKind) :
    Balanced (entered depth kind :: inner ++ [exited depth dropped kind]) := by
  have settled := balanced.settled
  have whole : exits (entered depth kind :: inner ++ [exited depth dropped kind]) =
      enters (entered depth kind :: inner ++ [exited depth dropped kind]) := by
    simp only [enters, exits, List.countP_append, List.countP_cons, List.countP_nil, isEnter,
      isExit, Bool.false_eq_true, if_true, if_false] at settled ⊢
    omega
  refine ⟨?_, whole⟩
  intro front isFront
  rcases List.prefix_concat_iff.mp isFront with rfl | isFront
  · exact whole.le
  rcases List.prefix_cons_iff.mp isFront with rfl | ⟨rest, rfl, inInner⟩
  · exact Nat.le_refl 0
  · have contained := balanced.contained rest inInner
    simp only [enters, exits, List.countP_cons, isEnter, isExit, Bool.false_eq_true, if_true,
      if_false] at contained ⊢
    omega

end Balanced

/-! ### What the surroundings of an event change -/

variable {base : Nat} {front later : List Event} {event : Event}

theorem Accords.extended (accords : event.Accords base front later) (more : List Event) :
    event.Accords base front (later ++ more) := by
  cases event with
  | entered depth kind =>
      obtain ⟨atDepth, inner, dropped, rest, rfl, balanced⟩ := accords
      refine ⟨atDepth, inner, dropped, rest ++ more, ?_, balanced⟩
      rw [List.append_assoc, List.cons_append]
  | exited | declared | warned | refusedExit | analyzed => exact accords

/-- More events in front change nothing if the depth that they lead to is the same. -/
theorem Accords.shifted {outer : Nat} {before : List Event}
    (sameDepth : outer + openBrackets (before ++ front) = base + openBrackets front)
    (accords : event.Accords base front later) :
    event.Accords outer (before ++ front) later := by
  cases event with
  | entered depth kind =>
      refine ⟨?_, accords.2⟩
      rw [sameDepth]
      exact accords.1
  | exited depth dropped kind =>
      obtain ⟨earlier, inner, rfl, balanced, counted⟩ := accords
      refine ⟨before ++ earlier, inner, ?_, balanced, counted⟩
      rw [List.append_assoc]
  | declared symbol => exact Eq.trans accords sameDepth.symm
  | warned | refusedExit | analyzed => exact accords

/-- One item of two lists lies in the first of them or in the second. -/
private theorem append_eq_append_cons {α : Type} {first second front later : List α} {item : α}
    (same : first ++ second = front ++ item :: later) :
    (∃ rest, first = front ++ item :: rest ∧ later = rest ++ second) ∨
      ∃ before, front = first ++ before ∧ second = before ++ item :: later := by
  rcases List.append_eq_append_iff.mp same with ⟨before, rfl, inSecond⟩ | ⟨rest, rfl, split⟩
  · exact Or.inr ⟨before, rfl, inSecond⟩
  · rcases List.cons_eq_append_iff.mp split with ⟨rfl, inSecond⟩ | ⟨rest, rfl, inLater⟩
    · refine Or.inr ⟨[], ?_, inSecond⟩
      rw [List.append_nil, List.append_nil]
    · exact Or.inl ⟨rest, rfl, inLater⟩

private theorem singleton_eq_append_cons {α : Type} {front later : List α} {only item : α}
    (same : [only] = front ++ item :: later) : front = [] ∧ item = only ∧ later = [] := by
  rcases List.cons_eq_append_iff.mp same with ⟨rfl, atStart⟩ | ⟨rest, rfl, impossible⟩
  · exact ⟨rfl, List.cons.inj atStart⟩
  · exact absurd impossible.symm (List.append_ne_nil_of_right_ne_nil rest (List.cons_ne_nil _ _))

/-! ### Stretches of a log -/

namespace Disciplined

variable {events : List Event}

theorem nil (base : Nat) : Disciplined base [] where
  balanced := .nil
  accords := by
    intro front event later same
    exact absurd same.symm (List.append_ne_nil_of_right_ne_nil front (List.cons_ne_nil _ _))

theorem single (noEnter : event.isEnter = false) (noExit : event.isExit = false)
    (accords : event.Accords base [] []) : Disciplined base [event] where
  balanced := .single noEnter noExit
  accords := by
    intro front other later same
    obtain ⟨rfl, rfl, rfl⟩ := singleton_eq_append_cons same
    exact accords

theorem append {first second : List Event} (before : Disciplined base first)
    (after : Disciplined base second) : Disciplined base (first ++ second) where
  balanced := before.balanced.append after.balanced
  accords := by
    intro front event later same
    rcases append_eq_append_cons same with ⟨rest, inFirst, rfl⟩ | ⟨between, rfl, inSecond⟩
    · exact (before.accords front event rest inFirst).extended second
    · have accords := after.accords between event later inSecond
      apply accords.shifted
      rw [openBrackets_append before.balanced]

/-- A scope around a stretch drops what is declared directly in it. -/
theorem enclosed (inner : Disciplined (base + 1) events) (kind : ScopeKind) :
    Disciplined base
      (entered (base + 1) kind :: events ++
        [exited (base + 1) (events.countP (declaresAt (base + 1))) kind]) where
  balanced := inner.balanced.enclosed _ _ kind
  accords := by
    intro front event later same
    rcases List.cons_eq_append_iff.mp same with ⟨rfl, atStart⟩ | ⟨front, rfl, afterStart⟩
    · obtain ⟨rfl, rfl⟩ := List.cons.inj atStart
      exact ⟨rfl, events, _, [], rfl, inner.balanced⟩
    · rcases append_eq_append_cons afterStart with ⟨rest, inside, rfl⟩ | ⟨between, rfl, atEnd⟩
      · have accords := (inner.accords front event rest inside).extended
          [exited (base + 1) (events.countP (declaresAt (base + 1))) kind]
        have isFront : front <+: events := ⟨event :: rest, inside.symm⟩
        have sameDepth : base + openBrackets ([entered (base + 1) kind] ++ front) =
            base + 1 + openBrackets front := by
          rw [List.singleton_append, openBrackets_entered inner.balanced isFront]
          omega
        exact accords.shifted sameDepth
      · obtain ⟨rfl, rfl, rfl⟩ := singleton_eq_append_cons atEnd
        rw [List.append_nil]
        exact ⟨[], events, rfl, inner.balanced, rfl⟩

theorem countP_declaresAt_of_lt (disciplined : Disciplined base events) {depth : Nat}
    (outside : depth < base) : events.countP (declaresAt depth) = 0 := by
  apply List.countP_eq_zero.mpr
  intro event member
  obtain ⟨front, later, split⟩ := List.append_of_mem member
  have accords := disciplined.accords front event later split
  cases event with
  | declared symbol =>
      have atDepth : symbol.depth = base + openBrackets front := accords
      have different : symbol.depth ≠ depth := by omega
      rw [declaresAt, beq_eq_false_iff_ne.mpr different]
      exact Bool.false_ne_true
  | entered | exited | warned | refusedExit | analyzed => exact Bool.false_ne_true

theorem level_ne_error (disciplined : Disciplined base events) :
    ∀ event ∈ events, event.level ≠ .error := by
  intro event member isError
  obtain ⟨front, later, split⟩ := List.append_of_mem member
  have accords := disciplined.accords front event later split
  cases event with
  | refusedExit => exact accords
  | entered | exited | declared | warned | analyzed => cases isError

end Disciplined

end Event

end ScopeLint
