import Mathlib.Data.List.Forall2
import ScopeLint.Format.Reader
import ScopeLint.Proofs.Json.Grammar

/-!
The spellings of a tree. A tree has many texts: fields in any order, keys that nobody knows,
arrays in place of objects, escapes, blanks. These relations say of every kind of node which
texts spell it, given what is spelled inside one more bracket.
-/

set_option autoImplicit false

namespace ScopeLint.Format

open Json (Blank Separated SpellsString SpellsNumeral Valid)

/-- Which texts spell a content of each form. -/
abbrev Grammar := (form : Form) → form.Carrier → List Char → Prop

def nullText : List Char :=
  ['n', 'u', 'l', 'l']

def truthText (value : Bool) : List Char :=
  if value then ['t', 'r', 'u', 'e'] else ['f', 'a', 'l', 's', 'e']

/-- Any number spells the real that it is converted to. -/
def SpellsReal (value : Binary64) (text : List Char) : Prop :=
  ∃ numeral quantity, SpellsNumeral numeral text ∧ numeral.quantity? = some quantity ∧
    quantity.toReal = value

/-! ### Records -/

/-- An entry of an object: a member as it is written, with the key that its quotes spell. -/
structure Entry extends Json.Member where
  key : String

structure Entry.WellFormed (entry : Entry) : Prop where
  spellsKey : SpellsString entry.key entry.quoted
  blankBefore : Blank entry.before
  blankAfter : Blank entry.after

def named (key : String) (entries : List Entry) : List Entry :=
  entries.filter fun entry => entry.key = key

section Inside

-- What is spelled inside the bracket that a node opens.
variable (inside : Grammar)

/-- Null spells the absence of an optional field. -/
def SpellsField : (field : Field) → field.Carrier → List Char → Prop
  | .required _ shape, content, text => inside (.value shape) content text
  | .optional _ _, none, text => text = nullText
  | .optional _ shape, some content, text => inside (.value shape) content text

/-- The entries under the key of a field: one that spells its content, or none if the field is
optional and absent. -/
def SpellsSlot : (field : Field) → field.Carrier → List Entry → Prop
  | .required _ _, _, [] => False
  | .optional _ _, content, [] => content = none
  | field, content, [entry] => SpellsField inside field content entry.value
  | _, _, _ => False

def SpellsFields : (fields : List Field) → Row fields → List Entry → Prop
  | [], (), _ => True
  | field :: fields, (content, row), entries =>
      SpellsSlot inside field content (named field.key entries) ∧ SpellsFields fields row entries

/-- A record as an object. Its entries stand in any order, and the values of unknown keys are
any JSON. -/
def SpellsObject (fields : List Field) (row : Row fields) (text : List Char) : Prop :=
  ∃ entries between, (∀ entry ∈ entries, entry.WellFormed) ∧
    SpellsFields inside fields row entries ∧
    (∀ entry ∈ entries, entry.key ∉ fields.map Field.key → Valid entry.value) ∧
    Separated (entries.map fun entry => entry.text) between ∧
    text = '\x7b' :: (between ++ ['\x7d'])

def SpellsRow : (fields : List Field) → Row fields → List (List Char) → Prop
  | [], (), texts => texts = []
  | _ :: _, _, [] => False
  | field :: fields, (content, row), text :: texts =>
      SpellsField inside field content text ∧ SpellsRow fields row texts

/-- A record as an array of all its fields in order. -/
def SpellsArray (fields : List Field) (row : Row fields) (text : List Char) : Prop :=
  ∃ texts between, SpellsRow inside fields row texts ∧ Separated texts between ∧
    text = '[' :: (between ++ [']'])

/-! ### Choices -/

def SpellsPayload : (payload : Payload) → payload.Carrier → List Char → Prop
  | .nothing, (), text => text = nullText
  | .one form, content, text => inside form content text
  | .several title fields, row, text => inside (.record title fields) row text

/-- A case as an object with its tag for the only key. -/
def SpellsTagged {α : Type} (case : Case α) (node : α) (text : List Char) : Prop :=
  ∃ (data : case.payload.Carrier) (entry : Entry) (between : List Char),
    node = case.make data ∧ entry.WellFormed ∧ entry.key = case.tag ∧
      SpellsPayload inside case.payload data entry.value ∧
      Separated [entry.text] between ∧ text = '\x7b' :: (between ++ ['\x7d'])

end Inside

/-- A case without data as its bare tag. -/
def SpellsBare {α : Type} (case : Case α) (node : α) (text : List Char) : Prop :=
  case.payload = .nothing ∧ (∃ data, node = case.make data) ∧ SpellsString case.tag text

/-! ### Forms -/

section Around

-- None where no bracket may be opened.
variable (inside? : Option Grammar)

def SpellsRecord (fields : List Field) (row : Row fields) (text : List Char) : Prop :=
  ∃ inside ∈ inside?, SpellsObject inside fields row text ∨ SpellsArray inside fields row text

def SpellsChoice {α : Type} (cases : List (Case α)) (node : α) (text : List Char) : Prop :=
  ∃ case ∈ cases, SpellsBare case node text ∨
    ∃ inside ∈ inside?, SpellsTagged inside case node text

def SpellsNode {α : Type} : Layout α → α → List Char → Prop
  | .record _ fields make _, node, text =>
      ∃ row, node = make row ∧ SpellsRecord inside? fields row text
  | .choice cases, node, text => SpellsChoice inside? cases node text

def SpellsList (item : Shape) (contents : List item.Carrier) (text : List Char) : Prop :=
  ∃ inside ∈ inside?, ∃ texts between,
    List.Forall₂ (inside (.value item)) contents texts ∧ Separated texts between ∧
      text = '[' :: (between ++ [']'])

def SpellsShape : (shape : Shape) → shape.Carrier → List Char → Prop
  | .text, content, text => SpellsString content text
  | .character, content, text => SpellsString (String.singleton content) text
  | .truth, content, text => text = truthText content
  | .integer width, content, text => text = (toString (width.toInt content)).toList
  | .real, content, text => SpellsReal content text
  | .list item, contents, text => SpellsList inside? item contents text
  | .node kind, content, text => SpellsNode inside? kind.layout content text

def SpellsWith : Grammar
  | .value shape, content, text => SpellsShape inside? shape content text
  | .record _ fields, row, text => SpellsRecord inside? fields row text

end Around

/-- The spellings in which at most `budget` brackets are open at once, apart from those inside
the values of unknown keys. -/
def Spells : (budget : Nat) → Grammar
  | 0 => SpellsWith none
  | budget + 1 => SpellsWith (some (Spells budget))

/-- A text that spells a node, with any blanks around. -/
def Spelling (kind : Kind) (node : kind.Carrier) (text : String) : Prop :=
  ∃ before core after, Blank before ∧ Spells depthLimit (.value (.node kind)) node core ∧
    Blank after ∧ text.toList = before ++ (core ++ after)

end ScopeLint.Format
