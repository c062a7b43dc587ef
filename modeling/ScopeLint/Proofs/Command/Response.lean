import ScopeLint.Command.Run
import ScopeLint.Proofs.Analysis.WellScoped

/-!
The response to a command line, whatever files there are to read. A run ends in one of four ways:
the arguments are refused, help is given, something named in them cannot be read, or the program
is analysed. Only the last one depends on the program, and there the flags for the dumps decide
about the output and about nothing else.
-/

set_option autoImplicit false

namespace ScopeLint.Command

/-- The arguments name settings and a program that can be read. -/
structure Loads (read : FileReader) (arguments : List String) (options : Options)
    (settings : Settings) (program : Program) : Prop where
  asked : parse arguments = .ok (.run options)
  settings : loadSettings read options.settings = .ok settings
  program : loadProgram read options.input = .ok program

/-- The ways in which a run can end. -/
inductive Ending (read : FileReader) (arguments : List String) : Prop
  | refused (problem : ArgumentError) : parse arguments = .error problem → Ending read arguments
  | helped : parse arguments = .ok .help → Ending read arguments
  | unread (options : Options) (problem : RunError) : parse arguments = .ok (.run options) →
      process read options = .error problem → Ending read arguments
  | analyzed (options : Options) (settings : Settings) (program : Program) :
      Loads read arguments options settings program → Ending read arguments

variable {read : FileReader} {arguments : List String} {options : Options} {settings : Settings}
  {program : Program}

theorem process_eq_ok_iff (outcome : Program × Context) :
    process read options = .ok outcome ↔
      ∃ settings program, loadSettings read options.settings = .ok settings ∧
        loadProgram read options.input = .ok program ∧
        outcome = (program, examine settings program) := by
  unfold process
  cases loadSettings read options.settings with
  | error problem => exact ⟨nofun, nofun⟩
  | ok settings =>
      cases loadProgram read options.input with
      | error problem => exact ⟨nofun, nofun⟩
      | ok program =>
          constructor
          · rintro ⟨⟩
            exact ⟨settings, program, rfl, rfl, rfl⟩
          · rintro ⟨_, _, ⟨⟩, ⟨⟩, rfl⟩
            rfl

theorem ending (read : FileReader) (arguments : List String) : Ending read arguments := by
  cases asked : parse arguments with
  | error problem => exact .refused problem asked
  | ok request =>
      cases request with
      | help => exact .helped asked
      | run options =>
          cases processed : process read options with
          | error problem => exact .unread options problem asked processed
          | ok outcome =>
              obtain ⟨settings, program, loaded, loadedProgram, _⟩ :=
                (process_eq_ok_iff outcome).mp processed
              exact .analyzed options settings program ⟨asked, loaded, loadedProgram⟩

/-! ### The response at each ending -/

theorem respond_of_refused {problem : ArgumentError} (asked : parse arguments = .error problem) :
    respond read arguments =
      { status := 2, output := "", errors := lines ["error: " ++ problem.message, usage] } := by
  rw [respond, asked]

theorem respond_of_help (asked : parse arguments = .ok .help) :
    respond read arguments = { status := 0, output := lines [usage], errors := "" } := by
  rw [respond, asked]

theorem respond_of_unread {problem : RunError} (asked : parse arguments = .ok (.run options))
    (failed : process read options = .error problem) :
    respond read arguments =
      { status := 1
        output := ""
        errors := lines ["Error processing '" ++ options.input ++ "': " ++ problem.message] } := by
  rw [respond, asked]
  dsimp only
  rw [failed]

theorem Loads.process_eq (loads : Loads read arguments options settings program) :
    process read options = .ok (program, examine settings program) :=
  (process_eq_ok_iff _).mpr ⟨settings, program, loads.settings, loads.program, rfl⟩

theorem Loads.respond_eq (loads : Loads read arguments options settings program) :
    respond read arguments = .ofContext options program (examine settings program) := by
  rw [respond, loads.asked]
  dsimp only
  rw [loads.process_eq]

theorem alerts_examine (settings : Settings) (program : Program) :
    alerts (examine settings program).log = [] := by
  rw [alerts, List.map_eq_nil_iff, List.filter_eq_nil_iff]
  intro event logged isError
  exact level_ne_error_examine logged (beq_iff_eq.mp isError)

namespace Loads

variable (loads : Loads read arguments options settings program)

include loads

theorem status_eq :
    (respond read arguments).status = if (examine settings program).hasErrors then 1 else 0 := by
  rw [loads.respond_eq]
  rfl

theorem errors_eq :
    (respond read arguments).errors =
      lines ((examine settings program).diagnostics.map Diagnostic.text) := by
  rw [loads.respond_eq, Response.ofContext, alerts_examine]
  exact String.empty_append

theorem output_eq :
    (respond read arguments).output =
      (if options.showTree then program.dump settings.indentWidth ++ "\n" else "") ++
        (if options.showTable then (examine settings program).table else "") := by
  rw [loads.respond_eq, Response.ofContext, Context.toReport, settings_examine]
  cases options.showTree <;> cases options.showTable <;> simp [lines]

/-- Nothing else can be loaded for the same arguments. -/
theorem unique {options' : Options} {settings' : Settings} {program' : Program}
    (other : Loads read arguments options' settings' program') :
    settings' = settings ∧ program' = program := by
  obtain ⟨asked, loaded, loadedProgram⟩ := other
  rw [loads.asked] at asked
  cases asked
  rw [loads.settings] at loaded
  rw [loads.program] at loadedProgram
  exact ⟨(Except.ok.inj loaded).symm, (Except.ok.inj loadedProgram).symm⟩

end Loads

/-! ### The response as a whole -/

/-- The flags for the dumps do not take part in what is read. -/
theorem respond_of_flags {other : List String} (showTree showTable : Bool)
    (asked : parse arguments = .ok (.run options))
    (askedOther : parse other = .ok (.run { options with showTree, showTable })) :
    (respond read other).status = (respond read arguments).status ∧
      (respond read other).errors = (respond read arguments).errors := by
  have sameProcess : process read { options with showTree, showTable } = process read options :=
    rfl
  rw [respond, respond, asked, askedOther]
  dsimp only
  rw [sameProcess]
  cases process read options with
  | error problem => exact ⟨rfl, rfl⟩
  | ok outcome => exact ⟨rfl, rfl⟩

def Refused (arguments : List String) : Prop :=
  ∃ problem, parse arguments = .error problem

/-- Help was asked for, or a program that is well scoped under the settings that go with it. -/
def Succeeds (read : FileReader) (arguments : List String) : Prop :=
  parse arguments = .ok .help ∨
    ∃ options settings program, Loads read arguments options settings program ∧
      Visit.WellScoped (program.visits settings.blockScopes)

theorem not_refused_of_ok {request : Request} (asked : parse arguments = .ok request) :
    ¬ Refused arguments := by
  rintro ⟨problem, refused⟩
  rw [asked] at refused
  cases refused

theorem not_succeeds_of_refused (refused : Refused arguments) : ¬ Succeeds read arguments := by
  rintro (asked | ⟨options, settings, program, loads, _⟩)
  · exact not_refused_of_ok asked refused
  · exact not_refused_of_ok loads.asked refused

theorem not_succeeds_of_unread {problem : RunError} (asked : parse arguments = .ok (.run options))
    (failed : process read options = .error problem) : ¬ Succeeds read arguments := by
  rintro (help | ⟨other, settings, program, loads, _⟩)
  · rw [asked] at help
    cases help
  · have sameRequest := loads.asked
    rw [asked] at sameRequest
    cases sameRequest
    rw [loads.process_eq] at failed
    cases failed

theorem Loads.succeeds_iff (loads : Loads read arguments options settings program) :
    Succeeds read arguments ↔ Visit.WellScoped (program.visits settings.blockScopes) := by
  constructor
  · rintro (help | ⟨other, settings', program', others, wellScoped⟩)
    · rw [loads.asked] at help
      cases help
    · obtain ⟨rfl, rfl⟩ := loads.unique others
      exact wellScoped
  · intro wellScoped
    exact .inr ⟨options, settings, program, loads, wellScoped⟩

theorem status_cases (read : FileReader) (arguments : List String) :
    (respond read arguments).status = 2 ∧ Refused arguments ∧ ¬ Succeeds read arguments ∨
      (respond read arguments).status = 0 ∧ ¬ Refused arguments ∧ Succeeds read arguments ∨
      (respond read arguments).status = 1 ∧ ¬ Refused arguments ∧
        ¬ Succeeds read arguments := by
  cases ending read arguments with
  | refused problem asked =>
      have refused : Refused arguments := ⟨problem, asked⟩
      rw [respond_of_refused asked]
      exact .inl ⟨rfl, refused, not_succeeds_of_refused refused⟩
  | helped asked =>
      rw [respond_of_help asked]
      exact .inr (.inl ⟨rfl, not_refused_of_ok asked, .inl asked⟩)
  | unread options problem asked failed =>
      rw [respond_of_unread asked failed]
      exact .inr (.inr ⟨rfl, not_refused_of_ok asked, not_succeeds_of_unread asked failed⟩)
  | analyzed options settings program loads =>
      have notRefused := not_refused_of_ok loads.asked
      rw [loads.status_eq, loads.succeeds_iff, ← hasErrors_examine_eq_false_iff]
      cases (examine settings program).hasErrors with
      | true => exact .inr (.inr ⟨rfl, notRefused, nofun⟩)
      | false => exact .inr (.inl ⟨rfl, notRefused, rfl⟩)

/-- Nothing is printed where neither help was asked for nor a program could be analysed. -/
theorem output_eq_empty (notHelp : parse arguments ≠ .ok .help)
    (notLoaded : ∀ options settings program, ¬ Loads read arguments options settings program) :
    (respond read arguments).output = "" := by
  cases ending read arguments with
  | refused problem asked => rw [respond_of_refused asked]
  | helped asked => exact absurd asked notHelp
  | unread options problem asked failed => rw [respond_of_unread asked failed]
  | analyzed options settings program loads =>
      exact absurd loads (notLoaded options settings program)

/-- What a response tells of the arguments and of the files. -/
structure Verdict (read : FileReader) (arguments : List String) (response : Response) : Prop where
  usage : response.status = 2 ↔ Refused arguments
  success : response.status = 0 ↔ Succeeds read arguments
  failure : response.status = 1 ↔ ¬ Refused arguments ∧ ¬ Succeeds read arguments
  silent : parse arguments ≠ .ok .help →
    (∀ options settings program, ¬ Loads read arguments options settings program) →
      response.output = ""
  found : ∀ options settings program, Loads read arguments options settings program →
    (examine settings program).diagnostics =
        Visit.diagnostics (program.visits settings.blockScopes) ∧
      response.errors = lines ((examine settings program).diagnostics.map Diagnostic.text)
  printed : ∀ options settings program, Loads read arguments options settings program →
    response.output =
      (if options.showTree then program.dump settings.indentWidth ++ "\n" else "") ++
        (if options.showTable then (examine settings program).table else "")
  flags : ∀ options other showTree showTable, parse arguments = .ok (.run options) →
    parse other = .ok (.run { options with showTree, showTable }) →
      (respond read other).status = response.status ∧
        (respond read other).errors = response.errors

theorem verdict_respond (read : FileReader) (arguments : List String) :
    Verdict read arguments (respond read arguments) := by
  have statuses : ((respond read arguments).status = 2 ↔ Refused arguments) ∧
      ((respond read arguments).status = 0 ↔ Succeeds read arguments) ∧
      ((respond read arguments).status = 1 ↔
        ¬ Refused arguments ∧ ¬ Succeeds read arguments) := by
    rcases status_cases read arguments with
      ⟨status, refused, succeeds⟩ | ⟨status, refused, succeeds⟩ | ⟨status, refused, succeeds⟩
    all_goals simp [status, refused, succeeds]
  exact
    { usage := statuses.1
      success := statuses.2.1
      failure := statuses.2.2
      silent := output_eq_empty
      found := fun _ settings program loads =>
        ⟨diagnostics_examine_eq_visits settings program, loads.errors_eq⟩
      printed := fun _ _ _ loads => loads.output_eq
      flags := fun _ _ showTree showTable => respond_of_flags showTree showTable }

/-- Two variables of one name: the second one is reported, and the first one is in the table. -/
example :
    let x (line : String) : String :=
      "\x7b\"Decl\":\x7b\"Var\":[[\"x\"," ++ line ++ "],\"Real\"]\x7d\x7d"
    let read : FileReader := fun path =>
      if path = "two" then .ok ("[[" ++ x "1" ++ "," ++ x "2" ++ "]]").toUTF8
      else .error .notFound
    respond read ["--show-st", "two"] =
        { status := 1
          output := "Scope Level 0 (global):\n  x -> VARIABLE (line 1)\n"
          errors := "Error at line 2: semantic error, Identifier already defined: x\n" } ∧
      respond read ["two", "--config", "none"] =
        { status := 1
          output := ""
          errors := "Error processing 'two': No such file or directory (os error 2)\n" } := by
  decide +kernel

end ScopeLint.Command
