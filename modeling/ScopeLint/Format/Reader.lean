import ScopeLint.Format.Layout
import ScopeLint.Format.Problem
import ScopeLint.Json.Quantity
import ScopeLint.Json.Skip

/-!
Reading a tree from its text, guided by the layout of what is wanted. The text is read once,
from left to right, and the first problem met decides the error: what comes after it is not
looked at. At most `depthLimit` brackets may be open at once, apart from those inside the
values of unknown keys.
-/

set_option autoImplicit false

namespace ScopeLint.Format

open Json (skipBlanks scanWord? scanString? scanNumeral? skipValue?)

abbrev Outcome (α : Type) := Except ReadError (α × List Char)

abbrev Reader (α : Type) := List Char → Outcome α

/-- A way to read every form inside one more bracket; none when no more may be opened. -/
abbrev Inner := Option ((form : Form) → Reader form.Carrier)

def malformed {α : Type} : Except ReadError α :=
  .error .malformed

def refuse {α : Type} (problem : DataProblem) : Except ReadError α :=
  .error (.data problem)

/-- Makes something of the value that was read; the rest of the text stays. -/
def Outcome.onValue {α β : Type} (make : α → β) : Outcome α → Outcome β
  | .ok (value, rest) => .ok (make value, rest)
  | .error problem => .error problem

/-- The value that a word stands for, from after the word's first character. -/
def readWord {α : Type} (tail : List Char) (value : α) : Reader α := fun text =>
  match scanWord? tail text with
  | none => malformed
  | some rest => .ok (value, rest)

/-! ### Values that are not the wanted ones -/

def foundNumber (quantity : Json.Quantity) : Found :=
  match quantity with
  | .integer value => .integer value
  | .real value => .real value

def readQuantity (text : List Char) : Outcome Json.Quantity :=
  match scanNumeral? text with
  | none => malformed
  | some (numeral, rest) =>
      match numeral.quantity? with
      | none => malformed
      | some quantity => .ok (quantity, rest)

/-- What a text begins with, after blanks. Scalars are read in full; of an array or an object
only the opening bracket is seen. -/
def describe : Reader Found := fun text =>
  match skipBlanks text with
  | [] => malformed
  | char :: rest =>
      if char = 'n' then readWord ['u', 'l', 'l'] .null rest
      else if char = 't' then readWord ['r', 'u', 'e'] (.truth true) rest
      else if char = 'f' then readWord ['a', 'l', 's', 'e'] (.truth false) rest
      else if char = '"' then
        match scanString? rest with
        | none => malformed
        | some (value, rest) => .ok (.string value, rest)
      else if char = '[' then .ok (.sequence, rest)
      else if char = '{' then .ok (.map, rest)
      else (readQuantity (char :: rest)).onValue foundNumber

def mismatch {α : Type} (wanted : String) (text : List Char) : Except ReadError α :=
  match describe text with
  | .error problem => .error problem
  | .ok (found, _) => refuse (.invalidType found wanted)

/-! ### Scalars -/

def readText (wanted : String) : Reader String := fun text =>
  match skipBlanks text with
  | '"' :: rest =>
      match scanString? rest with
      | none => malformed
      | some (value, rest) => .ok (value, rest)
  | text => mismatch wanted text

/-- A character is written as a string of exactly one. -/
def readCharacter : Reader Char := fun text =>
  match readText "a character" text with
  | .error problem => .error problem
  | .ok (value, rest) =>
      match value.toList with
      | [char] => .ok (char, rest)
      | _ => refuse (.invalidValue (.string value) "a character")

def readTruth : Reader Bool := fun text =>
  match skipBlanks text with
  | 't' :: rest => readWord ['r', 'u', 'e'] true rest
  | 'f' :: rest => readWord ['a', 'l', 's', 'e'] false rest
  | text => mismatch "a boolean" text

def startsNumber (text : List Char) : Bool :=
  match skipBlanks text with
  | [] => false
  | char :: _ => char = '-' || char.isDigit

def readInteger (width : Width) : Reader width.Carrier := fun text =>
  if startsNumber text then
    match readQuantity (skipBlanks text) with
    | .error problem => .error problem
    | .ok (.real value, _) => refuse (.invalidType (.real value) width.name)
    | .ok (.integer value, rest) =>
        match width.ofInt? value with
        | some value => .ok (value, rest)
        | none => refuse (.invalidValue (.integer value) width.name)
  else mismatch width.name text

/-- Any number is a real. -/
def readReal : Reader Binary64 := fun text =>
  if startsNumber text then (readQuantity (skipBlanks text)).onValue Json.Quantity.toReal
  else mismatch "f64" text

def readNull (text : List Char) : Outcome Unit :=
  match skipBlanks text with
  | 'n' :: rest => readWord ['u', 'l', 'l'] () rest
  | text => mismatch "unit" text

/-! ### Lists -/

/-- The items of a list from after its opening bracket; `taken` holds those before the text,
the last one first, and `started` says that there is one. Every round takes at least one
character of the text. -/
def readItems {α : Type} (item : Reader α) (rounds : List Char) (started : Bool)
    (taken : List α) (text : List Char) : Outcome (List α) :=
  match rounds with
  | [] => malformed
  | _ :: rounds =>
      match skipBlanks text with
      | [] => malformed
      | char :: rest =>
          if char = ']' then .ok (taken.reverse, rest)
          else if started = true ∧ char ≠ ',' then malformed
          else
            match item (if started then rest else char :: rest) with
            | .error problem => .error problem
            | .ok (value, rest) => readItems item rounds true (value :: taken) rest

/-! ### Records -/

abbrev Slots : List Field → Type
  | [] => Unit
  | field :: fields => Option field.Carrier × Slots fields

def Slots.empty : (fields : List Field) → Slots fields
  | [] => ()
  | _ :: fields => (none, Slots.empty fields)

/-- The values of a record at its end; a required field that is still open is missing. -/
def Slots.close : (fields : List Field) → Slots fields → Except DataProblem (Row fields)
  | [], () => .ok ()
  | .required key _ :: fields, (slot, slots) =>
      match slot with
      | none => .error (.missingField key)
      | some value => (Slots.close fields slots).map (value, ·)
  | .optional _ _ :: fields, (slot, slots) =>
      (Slots.close fields slots).map (slot.getD none, ·)

/-- The value of a field; null stands for the absence of an optional one. -/
def readField (inner : (form : Form) → Reader form.Carrier) :
    (field : Field) → Reader field.Carrier
  | .required _ shape, text => inner (.value shape) text
  | .optional _ shape, text =>
      match skipBlanks text with
      | 'n' :: rest => readWord ['u', 'l', 'l'] none rest
      | text => (inner (.value shape) text).onValue some

/-- A key of a record. Nothing but a string can stand in its place. -/
def readKey : Reader String := fun text =>
  match skipBlanks text with
  | '"' :: rest =>
      match scanString? rest with
      | none => malformed
      | some (key, rest) => .ok (key, rest)
  | _ => malformed

def readColon (text : List Char) : Outcome Unit :=
  match skipBlanks text with
  | ':' :: rest => .ok ((), rest)
  | _ => malformed

/-- The rest of an entry after its key. A key that was read before is refused at once, and the
value of an unknown key is passed over. -/
def readEntry (inner : (form : Form) → Reader form.Carrier) (key : String) :
    (fields : List Field) → Slots fields → Reader (Slots fields)
  | [], (), text =>
      match readColon text with
      | .error problem => .error problem
      | .ok (_, rest) =>
          match skipValue? rest with
          | none => malformed
          | some rest => .ok ((), rest)
  | field :: fields, (slot, slots), text =>
      if field.key = key then
        match slot with
        | some _ => refuse (.duplicateField key)
        | none =>
            match readColon text with
            | .error problem => .error problem
            | .ok (_, rest) =>
                (readField inner field rest).onValue fun value => (some value, slots)
      else (readEntry inner key fields slots text).onValue (slot, ·)

/-- The entries of a record written as an object, from after the opening brace. Every round
takes at least one character of the text. -/
def readEntries (inner : (form : Form) → Reader form.Carrier) (fields : List Field)
    (rounds : List Char) (started : Bool) (slots : Slots fields) (text : List Char) :
    Outcome (Row fields) :=
  match rounds with
  | [] => malformed
  | _ :: rounds =>
      match skipBlanks text with
      | [] => malformed
      | char :: rest =>
          if char = '}' then
            match slots.close with
            | .error problem => refuse problem
            | .ok row => .ok (row, rest)
          else if started = true ∧ char ≠ ',' then malformed
          else
            match readKey (if started then rest else char :: rest) with
            | .error problem => .error problem
            | .ok (key, rest) =>
                match readEntry inner key fields slots rest with
                | .error problem => .error problem
                | .ok (slots, rest) => readEntries inner fields rounds true slots rest

/-- The fields of a record written as an array, from after the opening bracket; `index` of
them have been read. Here an optional field must be present too. -/
def readPositions (inner : (form : Form) → Reader form.Carrier) (title : String)
    (size : Nat) : (index : Nat) → (fields : List Field) → Reader (Row fields)
  | _, [], text =>
      match skipBlanks text with
      | ']' :: rest => .ok ((), rest)
      | _ => malformed
  | index, field :: fields, text =>
      match skipBlanks text with
      | [] => malformed
      | char :: rest =>
          if char = ']' then refuse (.invalidLength index title size)
          else if 0 < index ∧ char ≠ ',' then malformed
          else
            match readField inner field (if index = 0 then char :: rest else rest) with
            | .error problem => .error problem
            | .ok (value, rest) =>
                (readPositions inner title size (index + 1) fields rest).onValue (value, ·)

def readRecord (inner : Inner) (title : String) (fields : List Field) :
    Reader (Row fields) := fun text =>
  match skipBlanks text with
  | '{' :: rest =>
      match inner with
      | none => malformed
      | some inner => readEntries inner fields rest false (Slots.empty fields) rest
  | '[' :: rest =>
      match inner with
      | none => malformed
      | some inner => readPositions inner title fields.length 0 fields rest
  | text => mismatch title text

/-! ### Choices -/

def findCase {α : Type} (tag : String) (cases : List (Case α)) : Option (Case α) :=
  cases.find? fun entry => entry.tag = tag

def unknownTag {α β : Type} (tag : String) (cases : List (Case α)) : Except ReadError β :=
  refuse (.unknownVariant tag (cases.map Case.tag))

def readPayload (inner : (form : Form) → Reader form.Carrier) :
    (payload : Payload) → Reader payload.Carrier
  | .nothing => readNull
  | .one form => inner form
  | .several title fields => inner (.record title fields)

def bareNode {α : Type} (entry : Case α) : Except ReadError α :=
  match entry with
  | { payload := .nothing, make, .. } => .ok (make ())
  | { payload := .one _, .. } => refuse (.invalidType .bareVariant "newtype variant")
  | { payload := .several _ _, .. } => refuse (.invalidType .bareVariant "struct variant")

/-- The tag is read as a string that is wanted, and not as the key of a record is. -/
def readTagged {α : Type} (inner : (form : Form) → Reader form.Carrier)
    (cases : List (Case α)) : Reader α := fun text =>
  match readText "variant identifier" text with
  | .error problem => .error problem
  | .ok (tag, rest) =>
      match findCase tag cases with
      | none => unknownTag tag cases
      | some entry =>
          match readColon rest with
          | .error problem => .error problem
          | .ok (_, rest) =>
              match readPayload inner entry.payload rest with
              | .error problem => .error problem
              | .ok (payload, rest) =>
                  match skipBlanks rest with
                  | '}' :: rest => .ok (entry.make payload, rest)
                  | _ => malformed

/-- A choice, as a bare tag or as an object with the tag for its only key. -/
def readChoice {α : Type} (inner : Inner) (cases : List (Case α)) : Reader α := fun text =>
  match skipBlanks text with
  | '"' :: rest =>
      match scanString? rest with
      | none => malformed
      | some (tag, rest) =>
          match findCase tag cases with
          | none => unknownTag tag cases
          | some entry => (bareNode entry).map (·, rest)
  | '{' :: rest =>
      match inner with
      | none => malformed
      | some inner => readTagged inner cases rest
  | _ => malformed

/-! ### Forms -/

def readNode {α : Type} (inner : Inner) : Layout α → Reader α
  | .record title fields make _ => fun text =>
      (readRecord inner title fields text).onValue make
  | .choice cases => readChoice inner cases

def readList (inner : Inner) (item : Shape) : Reader (List item.Carrier) := fun text =>
  match skipBlanks text with
  | '[' :: rest =>
      match inner with
      | none => malformed
      | some inner => readItems (inner (.value item)) rest false [] rest
  | text => mismatch "a sequence" text

def readShape (inner : Inner) : (shape : Shape) → Reader shape.Carrier
  | .text => readText "a string"
  | .character => readCharacter
  | .truth => readTruth
  | .integer width => readInteger width
  | .real => readReal
  | .list item => readList inner item
  | .node kind => readNode inner kind.layout

def readWith (inner : Inner) : (form : Form) → Reader form.Carrier
  | .value shape => readShape inner shape
  | .record title fields => readRecord inner title fields

/-- Reads a form from the front of a text in which `budget` more brackets may be open. -/
def readForm : (budget : Nat) → (form : Form) → Reader form.Carrier
  | 0 => readWith none
  | budget + 1 => readWith (some (readForm budget))

/-- The number of brackets that may be open at once. -/
def depthLimit : Nat := 127

def readWhole (form : Form) (text : String) : Except ReadError form.Carrier :=
  match readForm depthLimit form text.toList with
  | .error problem => .error problem
  | .ok (value, rest) => if skipBlanks rest = [] then .ok value else malformed

def read (kind : Kind) (text : String) : Except ReadError kind.Carrier :=
  readWhole (.value (.node kind)) text

end ScopeLint.Format
