import Mathlib.Data.List.Induction
import ScopeLint.Command.Arguments

/-!
A command line as a list of clauses: words that stand on their own, and the flag for the settings
together with the word after it, whatever that is. Each clause is judged by those before it, and
the first one that does not pass decides what becomes of the whole line. Where all of them pass,
the request is made of what they say together.
-/

set_option autoImplicit false

namespace ScopeLint.Command

inductive Clause where
  | help (word : String)
  | showTree
  | showTable
  | settings (path : String)
  /-- The flag for the settings with nothing after it. -/
  | openSettings
  | unknown (word : String)
  | positional (word : String)
  deriving DecidableEq

namespace Clause

/-- The words that a clause is written with. -/
def words : Clause → List String
  | help word => [word]
  | showTree => ["--show-ast"]
  | showTable => ["--show-st"]
  | settings path => ["--config", path]
  | openSettings => ["--config"]
  | unknown word => [word]
  | positional word => [word]

/-- The clause that a word makes on its own. -/
def ofWord (word : String) : Clause :=
  if word = "-h" ∨ word = "--help" then help word
  else if word = "--show-ast" then showTree
  else if word = "--show-st" then showTable
  else if ['-', '-'] <+: word.toList then unknown word
  else positional word

def input? : Clause → Option String
  | positional word => some word
  | help _ | showTree | showTable | settings _ | openSettings | unknown _ => none

def path? : Clause → Option String
  | settings path => some path
  | help _ | showTree | showTable | openSettings | unknown _ | positional _ => none

def inputs (line : List Clause) : List String :=
  line.filterMap input?

def paths (line : List Clause) : List String :=
  line.filterMap path?

/-- What a clause decides where it stands after the clauses `earlier`; one that passes decides
nothing. -/
def outcome? (earlier : List Clause) : Clause → Option (Except ArgumentError Request)
  | help _ => some (.ok .help)
  | openSettings => some (.error (.missingValue "--config"))
  | unknown word => some (.error (.unknownFlag word))
  | positional word =>
      if inputs earlier = [] then none else some (.error (.unexpectedArgument word))
  | showTree | showTable | settings _ => none

end Clause

/-- The clauses of a command line, from left to right. -/
def clauses : List String → List Clause
  | [] => []
  | word :: rest =>
      if word = "--config" then
        match rest with
        | [] => [.openSettings]
        | path :: rest => .settings path :: clauses rest
      else .ofWord word :: clauses rest

/-- Each clause passes where it stands. -/
def AllPass (line : List Clause) : Prop :=
  ∀ front clause later, line = front ++ clause :: later → clause.outcome? front = none

namespace Clause

theorem words_ofWord (word : String) : (ofWord word).words = [word] := by
  unfold ofWord
  split_ifs with isHelp isTree isTable
  · rfl
  · rw [isTree, words]
  · rw [isTable, words]
  · rfl
  · rfl

theorem inputs_concat (line : List Clause) (clause : Clause) :
    inputs (line ++ [clause]) = inputs line ++ clause.input?.toList := by
  rw [inputs, List.filterMap_append]
  cases clause <;> rfl

theorem paths_concat (line : List Clause) (clause : Clause) :
    paths (line ++ [clause]) = paths line ++ clause.path?.toList := by
  rw [paths, List.filterMap_append]
  cases clause <;> rfl

theorem inputs_eq_nil_iff (line : List Clause) :
    inputs line = [] ↔ ∀ word, .positional word ∉ line := by
  rw [inputs, List.filterMap_eq_nil_iff]
  constructor
  · intro silent word member
    cases silent _ member
  · intro absent clause member
    cases clause with
    | positional word => exact absurd member (absent word)
    | help | showTree | showTable | settings | openSettings | unknown => rfl

theorem inputs_of_positional_passes {line : List Clause} {word : String}
    (passes : (positional word).outcome? line = none) : inputs line = [] := by
  by_contra taken
  rw [outcome?, if_neg taken] at passes
  cases passes

end Clause

/-- Splitting a command line loses and moves no word. -/
theorem words_clauses (arguments : List String) :
    (clauses arguments).flatMap Clause.words = arguments := by
  fun_induction clauses arguments with
  | case1 => rfl
  | case2 => rfl
  | case3 path rest ih =>
      rw [List.flatMap_cons, ih]
      rfl
  | case4 word rest alone ih =>
      rw [List.flatMap_cons, ih, Clause.words_ofWord, List.singleton_append]

/-! ### Reading from left to right -/

namespace Progress

/-- What some clauses ask for together. -/
def ofClauses (line : List Clause) : Progress :=
  { input := (Clause.inputs line).head?
    showTree := decide (.showTree ∈ line)
    showTable := decide (.showTable ∈ line)
    settings := (Clause.paths line).getLast? }

/-- What a clause adds if it passes. -/
def add (progress : Progress) : Clause → Progress
  | .showTree => { progress with showTree := true }
  | .showTable => { progress with showTable := true }
  | .settings path => { progress with settings := some path }
  | .positional word => { progress with input := some word }
  | .help _ | .openSettings | .unknown _ => progress

theorem ofClauses_concat {line : List Clause} {clause : Clause}
    (passes : clause.outcome? line = none) :
    ofClauses (line ++ [clause]) = (ofClauses line).add clause := by
  simp only [ofClauses, Clause.inputs_concat, Clause.paths_concat, List.mem_append,
    List.mem_singleton]
  cases clause with
  | help | openSettings | unknown => cases passes
  | showTree | showTable | settings => simp [add, Clause.input?, Clause.path?]
  | positional word =>
      rw [Clause.inputs_of_positional_passes passes]
      simp [add, Clause.input?, Clause.path?]

end Progress

/-- Clauses judged one after the other, up to the first that does not pass. -/
def judge (earlier : List Clause) : List Clause → Except ArgumentError Request
  | [] => (Progress.ofClauses earlier).finish
  | clause :: later => (clause.outcome? earlier).getD (judge (earlier ++ [clause]) later)

theorem judge_cons {earlier later : List Clause} {clause : Clause}
    (passes : clause.outcome? earlier = none) :
    judge earlier (clause :: later) = judge (earlier ++ [clause]) later := by
  rw [judge, passes, Option.getD_none]

theorem isFlag_iff (word : String) : isFlag word = true ↔ ['-', '-'] <+: word.toList :=
  List.isPrefixOf_iff_prefix

/-- A word that stands on its own is read as the clause that it makes. -/
theorem parseFrom_ofWord (earlier : List Clause) {word : String} (rest : List String)
    (alone : word ≠ "--config") :
    parseFrom (.ofClauses earlier) (word :: rest) =
      ((Clause.ofWord word).outcome? earlier).getD
        (parseFrom ((Progress.ofClauses earlier).add (.ofWord word)) rest) := by
  rw [parseFrom.eq_def, Clause.ofWord]
  dsimp only
  by_cases isHelp : word = "-h" ∨ word = "--help"
  · rw [if_pos isHelp, if_pos isHelp]
    rfl
  rw [if_neg isHelp, if_neg isHelp]
  by_cases isTree : word = "--show-ast"
  · rw [if_pos isTree, if_pos isTree]
    rfl
  rw [if_neg isTree, if_neg isTree]
  by_cases isTable : word = "--show-st"
  · rw [if_pos isTable, if_pos isTable]
    rfl
  rw [if_neg isTable, if_neg isTable, if_neg alone]
  by_cases flag : ['-', '-'] <+: word.toList
  · rw [if_pos flag, if_pos ((isFlag_iff word).mpr flag)]
    rfl
  rw [if_neg flag, if_neg (mt (isFlag_iff word).mp flag), Clause.outcome?]
  cases inputs : Clause.inputs earlier with
  | nil =>
      simp only [Progress.ofClauses, inputs]
      rfl
  | cons first more =>
      simp only [Progress.ofClauses, inputs]
      rfl

/-- At each point of the reading what was asked for so far is what the clauses so far ask for. -/
theorem parseFrom_ofClauses (earlier : List Clause) (arguments : List String) :
    parseFrom (.ofClauses earlier) arguments = judge earlier (clauses arguments) := by
  fun_induction clauses arguments generalizing earlier with
  | case1 => rfl
  | case2 => rfl
  | case3 path rest ih =>
      rw [judge_cons rfl, ← ih, Progress.ofClauses_concat rfl]
      rfl
  | case4 word rest alone ih =>
      rw [parseFrom_ofWord earlier rest alone, judge]
      cases settled : (Clause.ofWord word).outcome? earlier with
      | some outcome => rfl
      | none => rw [Option.getD_none, Option.getD_none, ← ih, Progress.ofClauses_concat settled]

/-! ### The first clause that does not pass -/

theorem judge_of_outcome (earlier : List Clause) {front later : List Clause} {clause : Clause}
    {outcome : Except ArgumentError Request} (pass : AllPass (earlier ++ front))
    (settled : clause.outcome? (earlier ++ front) = some outcome) :
    judge earlier (front ++ clause :: later) = outcome := by
  induction front generalizing earlier with
  | nil =>
      rw [List.append_nil] at settled
      rw [List.nil_append, judge, settled, Option.getD_some]
  | cons first front ih =>
      have firstPasses : first.outcome? earlier = none := pass earlier first front rfl
      rw [List.append_cons] at pass settled
      rw [List.cons_append, judge_cons firstPasses]
      exact ih (earlier ++ [first]) pass settled

theorem judge_of_allPass (earlier : List Clause) {line : List Clause}
    (pass : AllPass (earlier ++ line)) :
    judge earlier line = (Progress.ofClauses (earlier ++ line)).finish := by
  induction line generalizing earlier with
  | nil => rw [judge, List.append_nil]
  | cons first line ih =>
      have firstPasses : first.outcome? earlier = none := pass earlier first line rfl
      rw [List.append_cons] at pass ⊢
      rw [judge_cons firstPasses]
      exact ih (earlier ++ [first]) pass

/-- Nothing but the one input is positional where all clauses pass. -/
theorem AllPass.head?_inputs {line : List Clause} (pass : AllPass line) {word : String}
    (member : .positional word ∈ line) : (Clause.inputs line).head? = some word := by
  obtain ⟨front, later, rfl⟩ := List.append_of_mem member
  have noneBefore := Clause.inputs_of_positional_passes (pass front _ later rfl)
  rw [List.append_cons, Clause.inputs, List.filterMap_append, ← Clause.inputs,
    Clause.inputs_concat, noneBefore]
  rfl

theorem AllPass.concat {line : List Clause} (pass : AllPass line) {clause : Clause}
    (passes : clause.outcome? line = none) : AllPass (line ++ [clause]) := by
  intro front other later split
  rcases List.eq_nil_or_concat later with rfl | ⟨later, last, rfl⟩
  · obtain ⟨rfl, same⟩ := List.append_inj' split rfl
    rw [← List.head_eq_of_cons_eq same]
    exact passes
  · rw [List.concat_eq_append, ← List.cons_append, ← List.append_assoc] at split
    exact pass front other later (List.append_inj' split rfl).1

/-- Where not all clauses pass there is a first one that does not. -/
theorem allPass_or_first (line : List Clause) :
    AllPass line ∨ ∃ front clause later outcome, line = front ++ clause :: later ∧
      AllPass front ∧ clause.outcome? front = some outcome := by
  induction line using List.reverseRecOn with
  | nil =>
      refine .inl fun front clause later impossible => ?_
      exact absurd impossible.symm (List.append_ne_nil_of_right_ne_nil front (List.cons_ne_nil _ _))
  | append_singleton line clause ih =>
      rcases ih with pass | ⟨front, first, later, outcome, rfl, pass, settled⟩
      · cases settled : clause.outcome? line with
        | none => exact .inl (pass.concat settled)
        | some outcome => exact .inr ⟨line, clause, [], outcome, rfl, pass, settled⟩
      · refine .inr ⟨front, first, later ++ [clause], outcome, ?_, pass, settled⟩
        rw [List.append_assoc, List.cons_append]

/-- How a command line is read, told from its clauses. -/
structure ReadByClauses (arguments : List String) : Prop where
  split : (clauses arguments).flatMap Clause.words = arguments
  covered : AllPass (clauses arguments) ∨
    ∃ front clause later outcome, clauses arguments = front ++ clause :: later ∧
      AllPass front ∧ clause.outcome? front = some outcome
  decided : ∀ front clause later outcome, clauses arguments = front ++ clause :: later →
    AllPass front → clause.outcome? front = some outcome → parse arguments = outcome
  withoutInput : AllPass (clauses arguments) →
    (∀ word, .positional word ∉ clauses arguments) → parse arguments = .error .missingInput
  request : AllPass (clauses arguments) → ∀ word, .positional word ∈ clauses arguments →
    parse arguments = .ok (.run
      { input := word
        showTree := decide (.showTree ∈ clauses arguments)
        showTable := decide (.showTable ∈ clauses arguments)
        settings := (Clause.paths (clauses arguments)).getLast? })

theorem readByClauses (arguments : List String) : ReadByClauses arguments := by
  have judged : parse arguments = judge [] (clauses arguments) := parseFrom_ofClauses [] arguments
  refine
    { split := words_clauses arguments
      covered := allPass_or_first (clauses arguments)
      decided := ?_
      withoutInput := ?_
      request := ?_ }
  · intro front clause later outcome split pass settled
    rw [judged, split]
    exact judge_of_outcome [] pass settled
  · intro pass noInput
    rw [judged, judge_of_allPass [] pass, List.nil_append, Progress.finish,
      Progress.ofClauses, (Clause.inputs_eq_nil_iff _).mpr noInput]
    rfl
  · intro pass word member
    rw [judged, judge_of_allPass [] pass, List.nil_append, Progress.finish,
      Progress.ofClauses, pass.head?_inputs member]

/-- A flag after the flag for the settings is a path, and of two paths the last one counts. -/
example :
    parse ["--config", "--help", "-x", "--config", "", "--show-ast"] =
      .ok (.run { input := "-x", showTree := true, showTable := false, settings := some "" }) := by
  decide

end ScopeLint.Command
