/-!
Reading files by relative paths. The files of a directory are given as a list of paths; every
path on the way to one of them is a directory. Of what lies outside nothing is known but that
it is a directory.
-/

set_option autoImplicit false

namespace ScopeLint.Command

inductive FileProblem where
  | notFound
  | isDirectory
  | notDirectory
  | nameTooLong
  /-- A name that no file can have. -/
  | invalidName
  | notText
  | other (message : String)
  deriving DecidableEq

def FileProblem.message : FileProblem → String
  | notFound => "No such file or directory (os error 2)"
  | isDirectory => "Is a directory (os error 21)"
  | notDirectory => "Not a directory (os error 20)"
  | nameTooLong => "File name too long (os error 36)"
  | invalidName => "file name contained an unexpected NUL byte"
  | notText => "stream did not contain valid UTF-8"
  | other message => message

/-- The content of the file at a path, or why there is none. -/
abbrev FileReader := String → Except FileProblem ByteArray

/-- A file's content as text. -/
def readText (read : FileReader) (path : String) : Except FileProblem String :=
  match read path with
  | .error problem => .error problem
  | .ok bytes =>
      match String.fromUTF8? bytes with
      | none => .error .notText
      | some text => .ok text

/-- Files and directories by the parts of their paths; a directory has no content. -/
structure FileTree where
  entries : List (List String × Option ByteArray)

namespace FileTree

/-- The parts of a path between its slashes, some of which may be empty. -/
def parts (path : String) : List String :=
  path.splitOn "/"

def ofList (files : List (String × Option ByteArray)) : FileTree :=
  { entries := files.map fun (path, content) => (parts path, content) }

/-- What is found at a place. -/
inductive Entry where
  | directory
  | file (content : ByteArray)

def entry? (tree : FileTree) (place : List String) : Option Entry :=
  match tree.entries.find? fun entry => entry.1 == place with
  | some (_, some content) => some (.file content)
  | some (_, none) => some .directory
  | none =>
      if place = [] ∨ tree.entries.any fun entry => place.isPrefixOf entry.1 then
        some .directory
      else none

/-- The most bytes that one part of a path may have. -/
def longestPart : Nat := 255

/-- The most bytes that a whole path may have. -/
def longestPath : Nat := 4095

/-- Follows the parts of a path from a place inside the tree. Only a directory can be stepped
through, even to where the path already is, and only there does it matter how long the next
part is. -/
def walk (tree : FileTree) (place : List String) : List String → Except FileProblem ByteArray
  | [] =>
      match tree.entry? place with
      | none => .error .notFound
      | some .directory => .error .isDirectory
      | some (.file content) => .ok content
  | part :: parts =>
      match tree.entry? place with
      | none => .error .notFound
      | some (.file _) => .error .notDirectory
      | some .directory =>
          if longestPart < part.utf8ByteSize then .error .nameTooLong
          else if part = "" ∨ part = "." then tree.walk place parts
          else if part = ".." then
            match place with
            | [] => outside parts
            | _ => tree.walk place.dropLast parts
          else tree.walk (place ++ [part]) parts
where
  /-- Outside the tree only directories are known, and no names. -/
  outside : List String → Except FileProblem ByteArray
    | [] => .error .isDirectory
    | part :: parts =>
        if longestPart < part.utf8ByteSize then .error .nameTooLong
        else if part = "" ∨ part = "." ∨ part = ".." then outside parts
        else .error .notFound

/-- The content of the file at a path. An empty path leads nowhere, and one that is too long
or holds a null character is not followed at all. -/
def read (tree : FileTree) : FileReader := fun path =>
  if path.toList.contains (Char.ofNat 0) then .error .invalidName
  else if longestPath < path.utf8ByteSize then .error .nameTooLong
  else
    match parts path with
    | [""] => .error .notFound
    | "" :: parts => walk.outside parts
    | parts => tree.walk [] parts

end FileTree

end ScopeLint.Command
