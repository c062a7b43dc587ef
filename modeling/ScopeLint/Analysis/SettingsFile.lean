import ScopeLint.Analysis.Settings
import ScopeLint.Toml.Document

/-!
Settings read from a TOML document. A key that is not given keeps its standard value, a key
that is not known is passed over, and the indentation is checked last, so that any other
fault of the document is reported before it.
-/

set_option autoImplicit false

namespace ScopeLint

inductive SettingsError where
  /-- The text is no TOML document, or a known key has a value of the wrong type. -/
  | parse
  /-- The width lies outside the range that a dump can use. -/
  | indentWidth (width : Nat)
  deriving DecidableEq

def SettingsError.message : SettingsError → String
  | parse => "TOML parse error"
  | indentWidth width =>
      "indent_width must be between 1 and " ++ toString widestIndent ++ ", got " ++
        toString width

open Toml (Node Table)

def ScopeOrder.ofName? (name : String) : Option ScopeOrder :=
  if name = "outermost-first" then some .outermostFirst
  else if name = "innermost-first" then some .innermostFirst
  else none

namespace SettingsFile

def truth? : Node → Option Bool
  | .boolean value => some value
  | _ => none

def natural? : Node → Option Nat
  | .integer value => if 0 ≤ value then some value.toNat else none
  | _ => none

/-- Whether a node is an array or a table without anything in it. -/
def isVacant : Node → Bool
  | .array items => items.isEmpty
  | .inline table | .table table => table.entries.isEmpty
  | _ => false

/-- An order that is written as the only key of a table, with nothing for its value. -/
def orderOfTable? (table : Table) : Option ScopeOrder :=
  match table.entries with
  | [(name, node)] => if isVacant node then ScopeOrder.ofName? name else none
  | _ => none

def order? : Node → Option ScopeOrder
  | .string name => ScopeOrder.ofName? name
  | .inline table | .table table => orderOfTable? table
  | _ => none

def setting? {α : Type} (table : Table) (key : String) (standard : α)
    (value? : Node → Option α) : Option α :=
  match table.find? key with
  | none => some standard
  | some node => value? node

def settings? (table : Table) : Option Settings :=
  let standard := Settings.standard
  match setting? table "block_scopes" standard.blockScopes truth?,
    setting? table "scope_order" standard.scopeOrder order?,
    setting? table "indent_width" standard.indentWidth natural? with
  | some blockScopes, some scopeOrder, some indentWidth =>
      some { blockScopes, scopeOrder, indentWidth }
  | _, _, _ => none

end SettingsFile

def Settings.load (text : String) : Except SettingsError Settings :=
  match (Toml.parse? text).bind SettingsFile.settings? with
  | none => .error .parse
  | some settings =>
      if 1 ≤ settings.indentWidth ∧ settings.indentWidth ≤ widestIndent then .ok settings
      else .error (.indentWidth settings.indentWidth)

end ScopeLint
