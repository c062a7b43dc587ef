import ScopeLint.Tree.Basic

/-!
How trees are laid out in their file format. Each kind of node is either a record of named
fields or a choice of tagged cases, and both refer to the nodes below them by kind only. A
layout comes with the way to put a node together from its parts and to take it apart.
-/

set_option autoImplicit false

namespace ScopeLint.Format

inductive Width where
  | i64 | u32 | u16 | u8
  deriving DecidableEq

namespace Width

abbrev Carrier : Width → Type
  | i64 => Int64
  | u32 => UInt32
  | u16 => UInt16
  | u8 => UInt8

def name : Width → String
  | i64 => "i64"
  | u32 => "u32"
  | u16 => "u16"
  | u8 => "u8"

def least : Width → Int
  | i64 => -9223372036854775808
  | u32 | u16 | u8 => 0

def greatest : Width → Int
  | i64 => 9223372036854775807
  | u32 => 4294967295
  | u16 => 65535
  | u8 => 255

def ofInt : (width : Width) → Int → width.Carrier
  | i64, value => Int64.ofInt value
  | u32, value => UInt32.ofNat value.toNat
  | u16, value => UInt16.ofNat value.toNat
  | u8, value => UInt8.ofNat value.toNat

def toInt : (width : Width) → width.Carrier → Int
  | i64, value => value.toInt
  | u32, value => value.toNat
  | u16, value => value.toNat
  | u8, value => value.toNat

/-- The value of an integer that lies in the range of the type. -/
def ofInt? (width : Width) (value : Int) : Option width.Carrier :=
  if width.least ≤ value ∧ value ≤ width.greatest then some (width.ofInt value) else none

end Width

inductive Kind where
  | program | item | identifier | typeName | decl | arrayRange | param | passMode
  | block | blockItem | stmt | caseArm | fileStmt | fileMode
  | expr | lvalue | call | literal | number | date
  | binaryOp | unaryOp | pointerOp
  deriving DecidableEq

abbrev Kind.Carrier : Kind → Type
  | program => Program
  | item => Item
  | identifier => Identifier
  | typeName => TypeName
  | decl => Decl
  | arrayRange => ArrayRange
  | param => Param
  | passMode => PassMode
  | block => Block
  | blockItem => BlockItem
  | stmt => Stmt
  | caseArm => CaseArm
  | fileStmt => FileStmt
  | fileMode => FileMode
  | expr => Expr
  | lvalue => LValue
  | call => Call
  | literal => Literal
  | number => Number
  | date => Date
  | binaryOp => BinaryOp
  | unaryOp => UnaryOp
  | pointerOp => PointerOp

inductive Shape where
  | text
  | character
  | truth
  | integer (width : Width)
  | real
  | list (item : Shape)
  | node (kind : Kind)
  deriving DecidableEq

abbrev Shape.Carrier : Shape → Type
  | text => String
  | character => Char
  | truth => Bool
  | integer width => width.Carrier
  | real => Binary64
  | list item => List item.Carrier
  | node kind => kind.Carrier

/-- A field of a record; only an optional one may be left out or be null. -/
inductive Field where
  | required (key : String) (shape : Shape)
  | optional (key : String) (shape : Shape)
  deriving DecidableEq

namespace Field

def key : Field → String
  | required key _ | optional key _ => key

abbrev Carrier : Field → Type
  | required _ shape => shape.Carrier
  | optional _ shape => Option shape.Carrier

end Field

abbrev Row : List Field → Type
  | [] => Unit
  | field :: fields => field.Carrier × Row fields

/-- What stands in one place of the file: a value, or a record with its title in messages. -/
inductive Form where
  | value (shape : Shape)
  | record (title : String) (fields : List Field)
  deriving DecidableEq

abbrev Form.Carrier : Form → Type
  | value shape => shape.Carrier
  | record _ fields => Row fields

/-- The data of a tagged case. A case of several fields holds them itself, where a case of one
value may hold a record that has a title of its own. -/
inductive Payload where
  | nothing
  | one (form : Form)
  | several (title : String) (fields : List Field)
  deriving DecidableEq

abbrev Payload.Carrier : Payload → Type
  | nothing => Unit
  | one form => form.Carrier
  | several _ fields => Row fields

/-- One tagged case of a choice. `part` gives the data of a node of this case, and nothing
for a node of another one. -/
structure Case (α : Type) where
  tag : String
  payload : Payload
  make : payload.Carrier → α
  part : α → Option payload.Carrier

abbrev Case.plain {α : Type} (tag : String) (value : α) (is : α → Bool) : Case α :=
  { tag, payload := .nothing, make := fun _ => value
    part := fun other => if is other then some () else none }

inductive Layout (α : Type) where
  | record (title : String) (fields : List Field) (make : Row fields → α)
      (parts : α → Row fields)
  | choice (cases : List (Case α))

end ScopeLint.Format
