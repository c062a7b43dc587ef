import ScopeLint.Toml.Scalar

/-!
Values of TOML and the tables that hold them. A table remembers how it came about, since that
decides which later lines may still add to it: it is implicit until a header names it, and
dotted when a dotted key made it.
-/

set_option autoImplicit false

namespace ScopeLint.Toml

mutual

inductive Node where
  | string (value : String)
  | integer (value : Int)
  | float
  | boolean (value : Bool)
  | moment
  | array (items : List Node)
  /-- A table written between braces, which no later line may add to. -/
  | inline (table : Table)
  | table (table : Table)
  /-- The tables of a repeated header, the last one first. -/
  | tables (last : Table) (earlier : List Table)

structure Table where
  implicit : Bool
  dotted : Bool
  entries : List (String × Node)

end

def Node.ofScalar : Scalar → Node
  | .integer value => .integer value
  | .float => .float
  | .moment => .moment

namespace Table

def empty : Table :=
  { implicit := false, dotted := false, entries := [] }

def find? (table : Table) (key : String) : Option Node :=
  (table.entries.find? fun entry => entry.1 == key).map Prod.snd

def set (table : Table) (key : String) (node : Node) : Table :=
  { table with
    entries := (table.entries.filter fun entry => entry.1 != key) ++ [(key, node)] }

def insert? (table : Table) (key : String) (node : Node) : Option Table :=
  match table.find? key with
  | some _ => none
  | none => some { table with entries := table.entries ++ [(key, node)] }

/-- Changes the table at the end of a path, making the tables on the way that are not there.
A path that comes from a dotted key may only pass through implicit tables, and no path passes
through a value. -/
def alter? (change : Table → Option Table) (isDotted : Bool) :
    (path : List String) → Table → Option Table
  | [], table => change table
  | key :: path, table =>
      match table.find? key with
      | none =>
          (alter? change isDotted path ⟨true, isDotted, []⟩).map fun child =>
            table.set key (.table child)
      | some (.table child) =>
          if isDotted ∧ child.implicit = false then none
          else (alter? change isDotted path child).map fun child => table.set key (.table child)
      | some (.tables last earlier) =>
          (alter? change isDotted path last).map fun last =>
            table.set key (.tables last earlier)
      | some _ => none

/-- Adds the value of a key. A dotted key must end in a table that dotted keys made. -/
def assign? (table : Table) (path : List String) (key : String) (node : Node) : Option Table :=
  alter? (fun target =>
      if target.dotted = path.isEmpty then none else target.insert? key node)
    true path table

end Table

def splitKey : List String → List String × String
  | [] => ([], "")
  | [key] => ([], key)
  | part :: parts => let (path, key) := splitKey parts; (part :: path, key)

/-- The table of an inline table's entries. Inside it dotted keys make inline tables, so that
whatever is written out between braces stays closed. -/
def inlineTable? (entries : List (List String × Node)) : Option Table :=
  entries.foldlM (fun table (parts, node) =>
    let (path, key) := splitKey parts
    table.assign? path key node) Table.empty

/-- A scanner for the values inside one more bracket; none when no more may be opened. -/
abbrev Inner := Option (List Char → Option (Node × List Char))

/-- The items of an array from after its opening bracket. Every round takes at least one
character of the text. -/
def scanItems? (item : List Char → Option (Node × List Char)) (rounds : List Char)
    (taken : List Node) (text : List Char) : Option (List Node × List Char) :=
  match rounds with
  | [] => none
  | _ :: rounds =>
      match skipLines text text with
      | ']' :: rest => some (taken.reverse, rest)
      | text =>
          match item text with
          | none => none
          | some (node, rest) =>
              match skipLines rest rest with
              | ',' :: rest => scanItems? item rounds (node :: taken) rest
              | ']' :: rest => some ((node :: taken).reverse, rest)
              | _ => none

/-- The entries of an inline table up to its closing brace; a comma needs an entry after it.
Every round takes at least one character of the text. -/
def scanEntries? (item : List Char → Option (Node × List Char)) (rounds : List Char)
    (taken : List (List String × Node)) (text : List Char) :
    Option (List (List String × Node) × List Char) :=
  match rounds with
  | [] => none
  | _ :: rounds =>
      match scanKey? text with
      | some (key, '=' :: rest) =>
          match item (skipBlanks rest) with
          | none => none
          | some (node, rest) =>
              match skipBlanks rest with
              | ',' :: rest => scanEntries? item rounds ((key, node) :: taken) rest
              | '}' :: rest => some (((key, node) :: taken).reverse, rest)
              | _ => none
      | _ => none

def scanInlineTable? (item : List Char → Option (Node × List Char)) (text : List Char) :
    Option (Node × List Char) :=
  match skipBlanks text with
  | '}' :: rest => some (.inline Table.empty, rest)
  | _ =>
      match scanEntries? item text [] text with
      | none => none
      | some (entries, rest) => (inlineTable? entries).map fun table => (.inline table, rest)

def scanValueWith? (inner : Inner) (text : List Char) : Option (Node × List Char) :=
  match text with
  | '"' :: rest => (scanAnyString? .double rest).map fun (value, rest) => (.string value, rest)
  | '\'' :: rest => (scanAnyString? .single rest).map fun (value, rest) => (.string value, rest)
  | '[' :: rest =>
      match inner with
      | none => none
      | some item =>
          (scanItems? item rest [] rest).map fun (items, rest) => (.array items, rest)
  | '{' :: rest =>
      match inner with
      | none => none
      | some item => scanInlineTable? item rest
  | 't' :: 'r' :: 'u' :: 'e' :: rest => some (.boolean true, rest)
  | 'f' :: 'a' :: 'l' :: 's' :: 'e' :: rest => some (.boolean false, rest)
  | text => (scanScalar? text).map fun (scalar, rest) => (.ofScalar scalar, rest)

def scanValueIn? : (budget : Nat) → List Char → Option (Node × List Char)
  | 0 => scanValueWith? none
  | budget + 1 => scanValueWith? (some (scanValueIn? budget))

def scanValue? (text : List Char) : Option (Node × List Char) :=
  scanValueIn? (nestingLimit - 1) text

end ScopeLint.Toml
