import ScopeLint.Analysis.Report
import ScopeLint.Analysis.SettingsFile
import ScopeLint.Command.Arguments
import ScopeLint.Command.Files
import ScopeLint.Format.Reader

/-!
One run of the program, as a function of its arguments and of the files it may read: the exit
status, what it prints, and what it reports on the error stream. The settings are read before
the program, and nothing is printed unless both could be.
-/

set_option autoImplicit false

namespace ScopeLint.Command

inductive RunError where
  | file (problem : FileProblem)
  | settings (problem : SettingsError)
  | program (problem : Format.ReadError)
  deriving DecidableEq

def RunError.message : RunError → String
  | file problem => problem.message
  | settings problem => problem.message
  | program problem => problem.message

/-- The settings in the file that is named, or the standard ones if none is. -/
def loadSettings (read : FileReader) : Option String → Except RunError Settings
  | none => .ok .standard
  | some path =>
      match readText read path with
      | .error problem => .error (.file problem)
      | .ok text => (Settings.load text).mapError .settings

def loadProgram (read : FileReader) (path : String) : Except RunError Program :=
  match readText read path with
  | .error problem => .error (.file problem)
  | .ok text => (Format.read .program text).mapError .program

/-- The program that the options name and the context that analysing it leaves. -/
def process (read : FileReader) (options : Options) : Except RunError (Program × Context) :=
  match loadSettings read options.settings with
  | .error problem => .error problem
  | .ok settings =>
      match loadProgram read options.input with
      | .error problem => .error problem
      | .ok program => .ok (program, examine settings program)

structure Response where
  status : UInt8
  output : String
  errors : String
  deriving DecidableEq

/-- Texts on lines of their own. -/
def lines (texts : List String) : String :=
  String.join (texts.map (· ++ "\n"))

/-- Of the log, a user is shown the errors only. -/
def alerts (log : List Event) : List String :=
  (log.filter fun event => event.level == .error).map fun event =>
    event.level.name ++ " " ++ event.message

/-- The response to an analysis that was carried out. The dump of the tree ends with a newline
of its own, the listing of the scopes with its last line. -/
def Response.ofContext (options : Options) (program : Program) (context : Context) : Response :=
  let report := context.toReport program options.showTree options.showTable
  { status := if report.hasErrors then 1 else 0
    output := lines report.tree.toList ++ report.table.getD ""
    errors := lines (alerts context.log) ++ lines (report.diagnostics.map Diagnostic.text) }

/-- The response to the arguments after the program's name. -/
def respond (read : FileReader) (arguments : List String) : Response :=
  match parse arguments with
  | .error problem =>
      { status := 2, output := "", errors := lines ["error: " ++ problem.message, usage] }
  | .ok .help => { status := 0, output := lines [usage], errors := "" }
  | .ok (.run options) =>
      match process read options with
      | .error problem =>
          { status := 1
            output := ""
            errors :=
              lines ["Error processing '" ++ options.input ++ "': " ++ problem.message] }
      | .ok (program, context) => .ofContext options program context

/-- The files that the arguments name. -/
def namedFiles (arguments : List String) : List String :=
  match parse arguments with
  | .ok (.run options) => options.settings.toList ++ [options.input]
  | _ => []

end ScopeLint.Command
