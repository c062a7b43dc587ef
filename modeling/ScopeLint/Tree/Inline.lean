import ScopeLint.Number.FloatText
import ScopeLint.Tree.Basic

/-!
The one-line text of expressions and of the smaller parts of a tree. A node shows its tag and
its parts between braces; strings and characters stand between quotes as they are, with
nothing escaped.
-/

set_option autoImplicit false

namespace ScopeLint

def joinWith (separator : String) : List String → String
  | [] => ""
  | [text] => text
  | text :: texts => text ++ separator ++ joinWith separator texts

theorem joinWith_cons {separator text : String} {texts : List String} (nonempty : texts ≠ []) :
    joinWith separator (text :: texts) = text ++ separator ++ joinWith separator texts := by
  cases texts with
  | nil => exact absurd rfl nonempty
  | cons next texts => rfl

def spaced (texts : List String) : String :=
  joinWith " " texts

/-- A node with its parts on one line. -/
def braced (tag : String) (parts : List String) : String :=
  tag ++ " \x7b " ++ joinWith ", " parts ++ " \x7d"

/-- Reals are shown without an exponent from `0.0001` up to `10 ^ 16`. -/
def shownReal : FloatFormat :=
  { leastPlain := -4, signedExponent := false, tie := .up }

def padded (width : Nat) (value : Nat) : String :=
  let digits := Nat.toDigits 10 value
  String.ofList (List.replicate (width - digits.length) '0' ++ digits)

def Identifier.text (node : Identifier) : String :=
  node.name

def TypeName.text (node : TypeName) : String :=
  node.spelling

def Number.text : Number → String
  | integer value => toString value.toInt
  | real value => String.ofList (shownReal.chars value)

def Date.text (node : Date) : String :=
  padded 2 node.day.toNat ++ "/" ++ padded 2 node.month.toNat ++ "/" ++
    padded 4 node.year.toNat

def Literal.text : Literal → String
  | number value => value.text
  | string value => "\"" ++ value ++ "\""
  | char value => "'" ++ String.singleton value ++ "'"
  | boolean true => "TRUE"
  | boolean false => "FALSE"
  | date value => value.text

mutual

def Expr.text : Expr → String
  | .literal value => value.text
  | .lvalue target => target.text
  | .binary op left right => braced op.level.tag [op.spelling, left.text, right.text]
  | .unary op operand => braced "UnaryExpOp" [op.spelling, operand.text]
  | .call call => call.text
  | .pointer op target => braced "PtrOp" [op.spelling, target.text]
  | .eof file => braced "EOF" [file.text]

/-- A member follows a variable's name after a point, and indices after a blank and a point. -/
def LValue.text : LValue → String
  | ⟨name, [], none⟩ => braced "LVal" [name.text]
  | ⟨name, [], some member⟩ => braced "LVal" [name.text ++ "." ++ member]
  | ⟨name, index :: indices, none⟩ =>
      braced "LValArr" [name.text, spaced (index.text :: Expr.texts indices)]
  | ⟨name, index :: indices, some member⟩ =>
      braced "LValArr"
        [name.text, spaced (index.text :: Expr.texts indices) ++ " ." ++ member]

/-- Without arguments the comma after the name stays. -/
def Call.text : Call → String
  | ⟨callee, []⟩ => "FuncCall \x7b " ++ callee.text ++ ", \x7d"
  | ⟨callee, argument :: arguments⟩ =>
      braced "FuncCall" [callee.text, spaced (argument.text :: Expr.texts arguments)]

def Expr.texts : List Expr → List String
  | [] => []
  | expr :: exprs => expr.text :: Expr.texts exprs

end

theorem Expr.texts_eq_map (exprs : List Expr) : Expr.texts exprs = exprs.map Expr.text := by
  induction exprs with
  | nil => rfl
  | cons expr exprs ih => simp [Expr.texts, ih]

def ArrayRange.text (node : ArrayRange) : String :=
  braced "ArrRange" [node.first.text, node.last.text]

def Param.text (node : Param) : String :=
  braced "Param" [node.mode.spelling, node.name.text, node.type.text]

/-- The parameter list of a routine, which may be missing or empty. -/
def paramListText : Option (List Param) → String
  | none => "no-param"
  | some [] => "ParamList \x7b \x7d"
  | some params => braced "ParamList" [spaced (params.map Param.text)]

def FileStmt.text : FileStmt → String
  | openAs file mode => braced "StmtOpenFile" [file.text, mode.spelling]
  | read file target => braced "StmtReadFile" [file.text, target.text]
  | write file value => braced "StmtWriteFile" [file.text, value.text]
  | close file => braced "StmtCloseFile" [file.text]
  | seek file position => braced "StmtSeek" [file.text, position.text]
  | getRecord file target => braced "StmtGetRecord" [file.text, target.text]
  | putRecord file source => braced "StmtPutRecord" [file.text, source.text]

end ScopeLint
