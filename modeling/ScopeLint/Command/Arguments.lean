/-!
The command line. Arguments are taken from left to right and the first one that settles the
outcome ends the reading: a request for help, or an argument that cannot be understood.
-/

set_option autoImplicit false

namespace ScopeLint.Command

def usage : String :=
  "usage: pseudocode [--show-ast] [--show-st] [--config <file.toml>] <program.json>"

structure Options where
  input : String
  showTree : Bool
  showTable : Bool
  settings : Option String
  deriving DecidableEq

inductive Request where
  | help
  | run (options : Options)
  deriving DecidableEq

inductive ArgumentError where
  | missingInput
  | missingValue (flag : String)
  | unknownFlag (flag : String)
  | unexpectedArgument (argument : String)
  deriving DecidableEq

def ArgumentError.message : ArgumentError → String
  | missingInput => "no input file given"
  | missingValue flag => flag ++ " expects a value"
  | unknownFlag flag => "unknown flag '" ++ flag ++ "'"
  | unexpectedArgument argument => "unexpected argument '" ++ argument ++ "'"

/-- What the arguments so far have asked for. -/
structure Progress where
  input : Option String
  showTree : Bool
  showTable : Bool
  settings : Option String
  deriving DecidableEq

def Progress.start : Progress :=
  { input := none, showTree := false, showTable := false, settings := none }

/-- The request when no argument is left. -/
def Progress.finish (progress : Progress) : Except ArgumentError Request :=
  match progress.input with
  | none => .error .missingInput
  | some input =>
      .ok (.run
        { input
          showTree := progress.showTree
          showTable := progress.showTable
          settings := progress.settings })

/-- Whether an argument is written as a flag. A single dash does not make one. -/
def isFlag (argument : String) : Bool :=
  ['-', '-'].isPrefixOf argument.toList

def parseFrom (progress : Progress) : List String → Except ArgumentError Request
  | [] => progress.finish
  | argument :: rest =>
      if argument = "-h" ∨ argument = "--help" then .ok .help
      else if argument = "--show-ast" then parseFrom { progress with showTree := true } rest
      else if argument = "--show-st" then parseFrom { progress with showTable := true } rest
      else if argument = "--config" then
        match rest with
        | [] => .error (.missingValue "--config")
        | value :: rest => parseFrom { progress with settings := some value } rest
      else if isFlag argument then .error (.unknownFlag argument)
      else
        match progress.input with
        | some _ => .error (.unexpectedArgument argument)
        | none => parseFrom { progress with input := some argument } rest

/-- The request that the arguments after the program's name make. -/
def parse (arguments : List String) : Except ArgumentError Request :=
  parseFrom .start arguments

end ScopeLint.Command
