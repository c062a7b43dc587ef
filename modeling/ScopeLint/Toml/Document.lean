import ScopeLint.Toml.Value

/-!
TOML documents. The text is first cut into statements, and the statements then build the
table of the document, which fails when one of them says again what an earlier one has said.
-/

set_option autoImplicit false

namespace ScopeLint.Toml

inductive Statement where
  | assign (path : List String) (key : String) (node : Node)
  /-- A header that names a table, for the assignments after it. -/
  | header (path : List String) (key : String)
  /-- A header that adds one more table to those of its name. -/
  | repeated (path : List String) (key : String)

/-! ### Statements -/

def scanHeader? (text : List Char) : Option (Statement × List Char) :=
  match scanKey? text with
  | some (parts, ']' :: rest) =>
      let (path, key) := splitKey parts
      some (.header path key, rest)
  | _ => none

def scanRepeatedHeader? (text : List Char) : Option (Statement × List Char) :=
  match scanKey? text with
  | some (parts, ']' :: ']' :: rest) =>
      let (path, key) := splitKey parts
      some (.repeated path key, rest)
  | _ => none

def scanAssignment? (text : List Char) : Option (Statement × List Char) :=
  match scanKey? text with
  | some (parts, '=' :: rest) =>
      let (path, key) := splitKey parts
      (scanValue? (skipBlanks rest)).map fun (node, rest) => (.assign path key node, rest)
  | _ => none

def scanStatement? : List Char → Option (Statement × List Char)
  | '[' :: '[' :: rest => scanRepeatedHeader? rest
  | '[' :: rest => scanHeader? rest
  | text => scanAssignment? text

def scanStatements? (rounds : List Char) (taken : List Statement) (text : List Char) :
    Option (List Statement) :=
  match rounds with
  | [] => if text = [] then some taken.reverse else none
  | _ :: rounds =>
      match skipBlanks text with
      | [] => some taken.reverse
      | char :: rest =>
          if char = '#' ∨ char = '\n' ∨ char = '\r' then
            match scanLineEnd? (char :: rest) with
            | none => none
            | some rest => scanStatements? rounds taken rest
          else
            match scanStatement? (char :: rest) with
            | none => none
            | some (statement, rest) =>
                match scanLineEnd? rest with
                | none => none
                | some rest => scanStatements? rounds (statement :: taken) rest

/-- The statements of a document, which may begin with a byte order mark. -/
def statements? (text : List Char) : Option (List Statement) :=
  let text := if text.head? = some (Char.ofNat 0xFEFF) then text.drop 1 else text
  scanStatements? text [] text

/-! ### The table of a document -/

/-- Where the assignments after a header go. -/
inductive Place where
  | root
  | table (path : List String) (key : String)
  | repeated (path : List String) (key : String)

/-- The document so far: `current` is the table under the last header, which stands apart from
`root` until the next one. -/
structure Draft where
  root : Table
  place : Place
  current : Table

def Draft.initial : Draft :=
  { root := .empty, place := .root, current := .empty }

/-- The table at the end of a header's path. What is not there yet counts as empty. -/
def Table.reach? : (path : List String) → Table → Option Table
  | [], table => some table
  | key :: path, table =>
      match table.find? key with
      | none => some .empty
      | some (.table child) => reach? path child
      | some (.tables last _) => reach? path last
      | some _ => none

/-- The table that a header opens: a new one, or one that is there only for the sake of what
lies below it and that no dotted key made. -/
def Table.opened? (parent : Table) (key : String) : Option Table :=
  match parent.find? key with
  | none => some .empty
  | some (.table child) =>
      if child.implicit = true ∧ child.dotted = false then some { child with implicit := false }
      else none
  | some _ => none

def Table.append? (parent : Table) (key : String) (table : Table) : Option Table :=
  match parent.find? key with
  | none => some (parent.set key (.tables table []))
  | some (.tables last earlier) => some (parent.set key (.tables table (last :: earlier)))
  | some _ => none

namespace Draft

def close? (draft : Draft) : Option Table :=
  match draft.place with
  | .root => some draft.current
  | .table path key =>
      Table.alter? (fun parent => some (parent.set key (.table draft.current))) false path
        draft.root
  | .repeated path key =>
      Table.alter? (fun parent => parent.append? key draft.current) false path draft.root

def add? (draft : Draft) : Statement → Option Draft
  | .assign path key node =>
      (draft.current.assign? path key node).map fun current => { draft with current := current }
  | .header path key =>
      match draft.close? with
      | none => none
      | some root =>
          match (root.reach? path).bind (Table.opened? · key) with
          | none => none
          | some current => some { root := root, place := .table path key, current := current }
  | .repeated path key =>
      match draft.close? with
      | none => none
      | some root =>
          match (root.reach? path).bind (Table.append? · key .empty) with
          | none => none
          | some _ => some { root := root, place := .repeated path key, current := .empty }

end Draft

def tableOf? (statements : List Statement) : Option Table :=
  (statements.foldlM Draft.add? Draft.initial).bind Draft.close?

def parse? (text : String) : Option Table :=
  (statements? text.toList).bind tableOf?

end ScopeLint.Toml
