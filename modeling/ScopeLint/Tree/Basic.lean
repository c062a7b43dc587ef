import ScopeLint.Number.Binary64
import ScopeLint.Tree.Operator

/-!
The tree of a pseudocode program. A tree records what was written: names keep the line they
stood on, a loop keeps the name its NEXT gives, and nothing here says that names are declared
or that types fit.
-/

set_option autoImplicit false

namespace ScopeLint

structure Identifier where
  name : String
  line : UInt32
  deriving DecidableEq

inductive TypeName where
  | integer | real | char | string | boolean | date
  | named (name : String)
  deriving DecidableEq

/-- The spelling of a type; a type of the program's own is spelled by its name. -/
def TypeName.spelling : TypeName → String
  | integer => "INTEGER"
  | real => "REAL"
  | char => "CHAR"
  | string => "STRING"
  | boolean => "BOOLEAN"
  | date => "DATE"
  | named name => name

inductive Number where
  | integer (value : Int64)
  | real (value : Binary64)
  deriving DecidableEq

/-- A day, month and year as written; no calendar is consulted. -/
structure Date where
  day : UInt8
  month : UInt8
  year : UInt16
  deriving DecidableEq

inductive Literal where
  | number (value : Number)
  | string (value : String)
  | char (value : Char)
  | boolean (value : Bool)
  | date (value : Date)
  deriving DecidableEq

mutual

inductive Expr where
  | literal (value : Literal)
  | lvalue (target : LValue)
  | binary (op : BinaryOp) (left right : Expr)
  | unary (op : UnaryOp) (operand : Expr)
  | call (call : Call)
  | pointer (op : PointerOp) (target : LValue)
  | eof (file : Expr)

/-- A variable, an array element when it has indices, or a member of either. -/
structure LValue where
  name : Identifier
  indices : List Expr
  member : Option String

structure Call where
  callee : Identifier
  arguments : List Expr

end

structure ArrayRange where
  first : Expr
  last : Expr

inductive Decl where
  | constant (name : Identifier) (value : Expr)
  | var (name : Identifier) (type : TypeName)
  | array (name : Identifier) (ranges : List ArrayRange) (element : TypeName)
  | enumeration (name : Identifier) (members : List Identifier)
  | record (name : Identifier) (fields : List Decl)
  | pointer (name : Identifier) (target : TypeName)
  | set (name : Identifier) (element : TypeName)
  | setValue (name : Identifier) (type : TypeName) (values : List Literal)

structure Param where
  mode : PassMode
  name : Identifier
  type : TypeName

inductive FileStmt where
  | openAs (file : Expr) (mode : FileMode)
  | read (file : Expr) (target : Identifier)
  | write (file : Expr) (value : Expr)
  | close (file : Expr)
  | seek (file : Expr) (position : Expr)
  | getRecord (file : Expr) (target : Identifier)
  | putRecord (file : Expr) (source : Identifier)

mutual

inductive Stmt where
  | assign (target : LValue) (value : Expr)
  | ifThen (condition : Expr) (thenBlock : Block) (elseBlock : Option Block)
  | caseOf (subject : Identifier) (arms : List CaseArm)
  | forNext (counter : Identifier) (first last : Expr) (step : Option Expr) (body : Block)
      (next : Identifier)
  | whileDo (condition : Expr) (body : Block)
  | repeatUntil (body : Block) (condition : Expr)
  | giveBack (value : Expr)
  | call (call : Call)
  | input (target : Identifier)
  | output (items : List Expr)
  | file (action : FileStmt)

/-- A value, or a range of values when there is an upper one, and what to do for it. -/
structure CaseArm where
  lower : Expr
  upper : Option Expr
  body : Block

structure Block where
  items : List BlockItem

inductive BlockItem where
  | decl (decl : Decl)
  | stmt (stmt : Stmt)

end

/-- A routine without a parameter list is told apart from one whose list is empty. -/
inductive Item where
  | decl (decl : Decl)
  | function (name : Identifier) (params : Option (List Param)) (returns : TypeName)
      (body : Block)
  | procedure (name : Identifier) (params : Option (List Param)) (body : Block)
  | stmt (stmt : Stmt)

structure Program where
  items : List Item

def Decl.identifier : Decl → Identifier
  | constant name _ | var name _ | array name _ _ | enumeration name _ | record name _
  | pointer name _ | set name _ | setValue name _ _ => name

/-- Whether a declaration introduces a type. A set value counts as one. -/
def Decl.isType : Decl → Bool
  | enumeration .. | record .. | pointer .. | set .. | setValue .. => true
  | constant .. | var .. | array .. => false

end ScopeLint
