import ScopeLint.Command.Run

/-!
The program itself: reads the files that the command line names, and prints the response.
-/

set_option autoImplicit false

namespace ScopeLint.Command

/-- The system's number of an error, which some calls give with its sign turned round. -/
def systemNumber (code : UInt32) : Nat :=
  min code.toNat (-code).toNat

/-- Why the system would not read a file. Where one kind of error stands for several problems,
its number tells them apart. -/
def FileProblem.ofSystem : IO.Error → FileProblem
  | .noFileOrDirectory .. => .notFound
  | .inappropriateType _ code _ => if systemNumber code = 21 then .isDirectory else .notDirectory
  | error@(.invalidArgument _ code _) =>
      if systemNumber code = 36 then .nameTooLong else .other (toString error)
  | error => .other (toString error)

def readNamed (path : String) : IO (String × Except FileProblem ByteArray) := do
  try
    return (path, .ok (← IO.FS.readBinFile path))
  catch error =>
    return (path, .error (.ofSystem error))

end ScopeLint.Command

open ScopeLint.Command in
def main (arguments : List String) : IO UInt32 := do
  let files ← (namedFiles arguments).mapM readNamed
  let response := respond (fun path => (files.lookup path).getD (.error .notFound)) arguments
  IO.print response.output
  IO.eprint response.errors
  return response.status.toUInt32
