import Mathlib.Data.List.Basic
import Mathlib.Data.List.Infix
import ScopeLint.Scope.Stack

/-!
What can be said of a sequence of actions without carrying it out. An exit closes the latest
scope that is still open, so a scope stays open as long as no part of what follows its enter
has more exits than enters. A declaration belongs to the scope that was the innermost open one
when it was issued, whether or not it was accepted.
-/

set_option autoImplicit false

namespace ScopeLint

namespace ScopeStack

namespace Action

def isEnter : Action → Bool
  | enter _ => true
  | exit | declare _ => false

def isExit : Action → Bool
  | exit => true
  | enter _ | declare _ => false

end Action

def enters (actions : List Action) : Nat :=
  actions.countP Action.isEnter

def exits (actions : List Action) : Nat :=
  actions.countP Action.isExit

/-- No part at the front of the actions has more exits than enters, so that none of the exits
closes a scope that was opened before. -/
def Contained (actions : List Action) : Prop :=
  ∀ front ∈ actions.inits, exits front ≤ enters front

instance (actions : List Action) : Decidable (Contained actions) :=
  inferInstanceAs (Decidable (∀ front ∈ actions.inits, exits front ≤ enters front))

structure OpenScope where
  /-- The position of the enter that opened the scope; nothing opened the global one. -/
  opener : Option Nat
  kind : ScopeKind
  deriving DecidableEq

/-- The scopes whose enters no later exit matches, the outermost first. The actions stand at
`position` and after. -/
def unmatched (position : Nat) : List Action → List OpenScope
  | [] => []
  | .enter kind :: later =>
      if Contained later then ⟨some position, kind⟩ :: unmatched (position + 1) later
      else unmatched (position + 1) later
  | .exit :: later => unmatched (position + 1) later
  | .declare _ :: later => unmatched (position + 1) later

def globalScope : OpenScope :=
  { opener := none, kind := .global }

/-- The scopes that are open after a history, each at the index of its level. -/
def openScopes (history : List Action) : List OpenScope :=
  globalScope :: unmatched 0 history

def current (history : List Action) : OpenScope :=
  (unmatched 0 history).getLastD globalScope

/-- The declarations issued in one scope, refused ones included. -/
def issuedIn (opener : Option Nat) (history : List Action) : List Declaration :=
  history.zipIdx.filterMap fun (action, position) =>
    match action with
    | .declare declaration =>
        if (current (history.take position)).opener = opener then some declaration else none
    | .enter _ | .exit => none

def firstIssued? (opener : Option Nat) (history : List Action) (name : String) :
    Option Declaration :=
  (issuedIn opener history).find? fun declaration => declaration.name == name

/-! ### Counting -/

private def unmatchedExits : List Action → Nat
  | [] => 0
  | .enter _ :: later => unmatchedExits later - 1
  | .exit :: later => unmatchedExits later + 1
  | .declare _ :: later => unmatchedExits later

private theorem unmatchedExits_le_iff (actions : List Action) (allowed : Nat) :
    unmatchedExits actions ≤ allowed ↔
      ∀ front, front <+: actions → exits front ≤ enters front + allowed := by
  induction actions generalizing allowed with
  | nil => simp [unmatchedExits, exits]
  | cons action later ih =>
      have fronts (property : List Action → Prop) (atNil : property []) :
          (∀ front, front <+: action :: later → property front) ↔
            ∀ front, front <+: later → property (action :: front) := by
        constructor
        · intro every front isFront
          exact every (action :: front) (List.cons_prefix_cons.mpr ⟨rfl, isFront⟩)
        · intro every front isFront
          rcases List.prefix_cons_iff.mp isFront with rfl | ⟨rest, rfl, restFront⟩
          · exact atNil
          · exact every rest restFront
      rw [fronts (fun front => exits front ≤ enters front + allowed) (Nat.zero_le _)]
      cases action with
      | enter kind =>
          have counted (front : List Action) :
              exits (.enter kind :: front) ≤ enters (.enter kind :: front) + allowed ↔
                exits front ≤ enters front + (allowed + 1) := by
            simp only [exits, enters, List.countP_cons, Action.isEnter, Action.isExit,
              Bool.false_eq_true, if_true, if_false]
            omega
          simp only [counted, ← ih, unmatchedExits]
          omega
      | exit =>
          have counted (front : List Action) :
              exits (.exit :: front) ≤ enters (.exit :: front) + allowed ↔
                exits front + 1 ≤ enters front + allowed := by
            simp only [exits, enters, List.countP_cons, Action.isEnter, Action.isExit,
              Bool.false_eq_true, if_true, if_false, Nat.add_zero]
          simp only [counted, unmatchedExits]
          cases allowed with
          | zero =>
              constructor
              · intro impossible
                omega
              · intro every
                have atStart := every [] (List.nil_prefix)
                simp [exits, enters] at atStart
          | succ allowed =>
              rw [Nat.succ_le_succ_iff, ih]
              simp only [← Nat.add_assoc, Nat.add_le_add_iff_right]
      | declare declaration =>
          have counted (front : List Action) :
              exits (.declare declaration :: front) ≤
                  enters (.declare declaration :: front) + allowed ↔
                exits front ≤ enters front + allowed := by
            simp only [exits, enters, List.countP_cons, Action.isEnter, Action.isExit,
              Bool.false_eq_true, if_false, Nat.add_zero]
          simp only [counted, ← ih, unmatchedExits]

private theorem contained_iff (actions : List Action) :
    Contained actions ↔ unmatchedExits actions = 0 := by
  rw [← Nat.le_zero, unmatchedExits_le_iff]
  simp only [Contained, List.mem_inits, Nat.add_zero]

theorem contained_concat (actions : List Action) (action : Action) :
    Contained (actions ++ [action]) ↔
      Contained actions ∧ exits (actions ++ [action]) ≤ enters (actions ++ [action]) := by
  simp only [Contained, List.mem_inits, List.prefix_concat_iff]
  constructor
  · intro every
    exact ⟨fun front isFront => every front (Or.inr isFront), every _ (Or.inl rfl)⟩
  · rintro ⟨every, whole⟩ front (rfl | isFront)
    · exact whole
    · exact every front isFront

theorem exits_le_of_contained {actions : List Action} (contained : Contained actions) :
    exits actions ≤ enters actions :=
  contained actions ((List.mem_inits actions actions).mpr List.prefix_rfl)

private theorem contained_concat_of_not_exit {action : Action} (stays : action.isExit = false)
    (actions : List Action) : Contained (actions ++ [action]) ↔ Contained actions := by
  rw [contained_concat]
  apply and_iff_left_of_imp
  intro contained
  have balance := exits_le_of_contained contained
  simp only [exits, enters, List.countP_append, List.countP_singleton, stays] at balance ⊢
  exact Nat.le_add_right_of_le balance

private theorem contained_concat_exit (actions : List Action) :
    Contained (actions ++ [.exit]) ↔ Contained actions ∧ exits actions < enters actions := by
  rw [contained_concat]
  refine and_congr_right fun _ => ?_
  simp only [exits, enters, List.countP_append, List.countP_singleton, Action.isEnter,
    Action.isExit, Bool.false_eq_true, if_true, if_false]
  exact Iff.rfl

/-- Each enter is matched or not, and so is each exit. -/
private theorem length_unmatched (position : Nat) (actions : List Action) :
    (unmatched position actions).length + exits actions =
      enters actions + unmatchedExits actions := by
  induction actions generalizing position with
  | nil => rfl
  | cons action later ih =>
      have counted := ih (position + 1)
      simp only [exits, enters, List.countP_cons] at counted ⊢
      cases action with
      | enter kind =>
          simp only [unmatched, unmatchedExits, contained_iff, Action.isEnter, Action.isExit,
            Bool.false_eq_true, if_true, if_false]
          split
          · rw [List.length_cons]
            omega
          · omega
      | exit =>
          simp only [unmatched, unmatchedExits, Action.isEnter, Action.isExit,
            Bool.false_eq_true, if_true, if_false]
          omega
      | declare declaration =>
          simp only [unmatched, unmatchedExits, Action.isEnter, Action.isExit,
            Bool.false_eq_true, if_false]
          omega

private theorem unmatched_eq_nil_iff {actions : List Action} (position : Nat)
    (contained : Contained actions) :
    unmatched position actions = [] ↔ ¬ exits actions < enters actions := by
  have counted := length_unmatched position actions
  rw [(contained_iff actions).mp contained] at counted
  rw [← List.length_eq_zero_iff]
  omega

/-! ### One more action -/

theorem unmatched_enter (position : Nat) (history : List Action) (kind : ScopeKind) :
    unmatched position (history ++ [.enter kind]) =
      unmatched position history ++ [⟨some (position + history.length), kind⟩] := by
  induction history generalizing position with
  | nil => rfl
  | cons action later ih =>
      have shifted : position + 1 + later.length = position + (later.length + 1) := by omega
      cases action with
      | enter opened =>
          simp only [List.cons_append, unmatched, ih, List.length_cons, shifted,
            contained_concat_of_not_exit (show (Action.enter kind).isExit = false from rfl)]
          split <;> rfl
      | exit => simp only [List.cons_append, unmatched, ih, List.length_cons, shifted]
      | declare declaration =>
          simp only [List.cons_append, unmatched, ih, List.length_cons, shifted]

/-- An exit takes the latest enter that was unmatched, if there is one. -/
theorem unmatched_exit (position : Nat) (history : List Action) :
    unmatched position (history ++ [.exit]) = (unmatched position history).dropLast := by
  induction history generalizing position with
  | nil => rfl
  | cons action later ih =>
      cases action with
      | enter kind =>
          simp only [List.cons_append, unmatched, ih, contained_concat_exit]
          by_cases contained : Contained later
          · have emptyIff := unmatched_eq_nil_iff (position + 1) contained
            by_cases more : exits later < enters later
            · have nonempty := (not_congr emptyIff).mpr (not_not_intro more)
              rw [if_pos ⟨contained, more⟩, if_pos contained,
                List.dropLast_cons_of_ne_nil nonempty]
            · rw [if_neg fun both => more both.2, if_pos contained, emptyIff.mpr more]
              rfl
          · rw [if_neg fun both => contained both.1, if_neg contained]
      | exit => exact ih (position + 1)
      | declare declaration => exact ih (position + 1)

theorem unmatched_declare (position : Nat) (history : List Action) (declaration : Declaration) :
    unmatched position (history ++ [.declare declaration]) = unmatched position history := by
  induction history generalizing position with
  | nil => rfl
  | cons action later ih =>
      cases action with
      | enter kind =>
          simp only [List.cons_append, unmatched, ih,
            contained_concat_of_not_exit
              (show (Action.declare declaration).isExit = false from rfl)]
      | exit => exact ih (position + 1)
      | declare other => exact ih (position + 1)

theorem openScopes_eq (history : List Action) :
    openScopes history = (openScopes history).dropLast ++ [current history] := by
  unfold openScopes current
  cases unmatched 0 history using List.reverseRecOn with
  | nil => rfl
  | append_singleton outer innermost _ =>
      rw [List.getLastD_concat, ← List.cons_append, List.dropLast_concat]

theorem issuedIn_concat (opener : Option Nat) (history : List Action) (action : Action) :
    issuedIn opener (history ++ [action]) = issuedIn opener history ++
      match action with
      | .declare declaration =>
          if (current history).opener = opener then [declaration] else []
      | .enter _ | .exit => [] := by
  have unchanged : ∀ entry ∈ history.zipIdx,
      (history ++ [action]).take entry.2 = history.take entry.2 := by
    intro entry member
    have within : entry.2 < history.length := by
      simpa using List.snd_lt_of_mem_zipIdx member
    exact List.take_append_of_le_length (Nat.le_of_lt within)
  have before : (history.zipIdx.filterMap fun (action', position) =>
      match action' with
      | .declare declaration =>
          if (current ((history ++ [action]).take position)).opener = opener then
            some declaration
          else none
      | .enter _ | .exit => none) = issuedIn opener history := by
    apply List.filterMap_congr
    intro entry member
    simp only [unchanged entry member]
  unfold issuedIn
  rw [List.zipIdx_append, List.filterMap_append, before]
  congr 1
  cases action with
  | declare declaration =>
      simp only [List.zipIdx_cons, List.zipIdx_nil, List.filterMap_cons, List.filterMap_nil,
        Nat.zero_add, List.take_left]
      by_cases same : (current history).opener = opener
      · simp only [if_pos same]
      · simp only [if_neg same]
  | enter kind => rfl
  | exit => rfl

/-! ### Openers -/

theorem opener_of_mem_unmatched {position : Nat} {history : List Action} {scope : OpenScope}
    (member : scope ∈ unmatched position history) :
    ∃ opener, scope.opener = some opener ∧ position ≤ opener ∧
      opener < position + history.length := by
  induction history generalizing position with
  | nil => cases member
  | cons action later ih =>
      have ofLater (inLater : scope ∈ unmatched (position + 1) later) :
          ∃ opener, scope.opener = some opener ∧ position ≤ opener ∧
            opener < position + (later.length + 1) := by
        obtain ⟨opener, isOpener, lower, upper⟩ := ih inLater
        exact ⟨opener, isOpener, by omega, by omega⟩
      rw [List.length_cons]
      cases action with
      | enter kind =>
          simp only [unmatched] at member
          split at member
          · rcases List.mem_cons.mp member with rfl | inLater
            · exact ⟨position, rfl, Nat.le_refl position, by omega⟩
            · exact ofLater inLater
          · exact ofLater member
      | exit => exact ofLater member
      | declare declaration => exact ofLater member

/-- No enter opens two of the open scopes. -/
theorem nodup_openers (history : List Action) :
    ((openScopes history).map OpenScope.opener).Nodup := by
  have distinct (position : Nat) :
      ((unmatched position history).map OpenScope.opener).Nodup := by
    induction history generalizing position with
    | nil => exact List.nodup_nil
    | cons action later ih =>
        cases action with
        | enter kind =>
            simp only [unmatched]
            split
            · refine List.nodup_cons.mpr ⟨?_, ih (position + 1)⟩
              intro member
              obtain ⟨scope, inLater, sameOpener⟩ := List.mem_map.mp member
              obtain ⟨opener, isOpener, lower, _⟩ := opener_of_mem_unmatched inLater
              have same : opener = position := Option.some.inj (isOpener.symm.trans sameOpener)
              omega
            · exact ih (position + 1)
        | exit => exact ih (position + 1)
        | declare declaration => exact ih (position + 1)
  refine List.nodup_cons.mpr ⟨?_, distinct 0⟩
  intro member
  obtain ⟨scope, isOpen, isGlobal⟩ := List.mem_map.mp member
  obtain ⟨opener, isOpener, _⟩ := opener_of_mem_unmatched isOpen
  rw [isOpener] at isGlobal
  cases isGlobal

theorem current_mem_openScopes (history : List Action) : current history ∈ openScopes history := by
  rw [openScopes_eq]
  exact List.mem_append_right _ (List.mem_singleton_self _)

/-- Nothing was issued in a scope before it was opened. -/
theorem issuedIn_eq_nil {history : List Action} {opener : Nat} (later : history.length ≤ opener) :
    issuedIn (some opener) history = [] := by
  apply List.filterMap_eq_nil_iff.mpr
  rintro ⟨action, position⟩ _
  cases action with
  | enter kind => rfl
  | exit => rfl
  | declare declaration =>
      apply if_neg
      intro isOpener
      rcases List.mem_cons.mp (current_mem_openScopes (history.take position)) with
        isGlobal | isOpen
      · rw [isGlobal] at isOpener
        cases isOpener
      · obtain ⟨other, otherOpener, _, early⟩ := opener_of_mem_unmatched isOpen
        have same : other = opener := Option.some.inj (otherOpener.symm.trans isOpener)
        have shorter := List.length_take_le' position history
        omega

end ScopeStack

end ScopeLint
