import ScopeLint.Format.Shape
import ScopeLint.Json.Basic

/-!
The one way in which the program itself writes a tree: records as objects with every field in
order, absent optional fields as null, and cases without data as their bare tag.
-/

set_option autoImplicit false

namespace ScopeLint

/-- A case that carries data. -/
def Json.tagged (tag : String) (payload : Json) : Json :=
  .object [(tag, payload)]

/-- Null where there is nothing to write. -/
def Json.ofOption {α : Type} (write : α → Json) : Option α → Json
  | none => .null
  | some value => write value

def Json.ofList {α : Type} (write : α → Json) (values : List α) : Json :=
  .array (values.map write)

def Identifier.toJson (node : Identifier) : Json :=
  .object [("name", .string node.name), ("line", .integer node.line.toNat)]

def TypeName.toJson : TypeName → Json
  | integer => .string "Integer"
  | real => .string "Real"
  | char => .string "Char"
  | string => .string "String"
  | boolean => .string "Boolean"
  | date => .string "Date"
  | named name => .tagged "Named" (.string name)

def BinaryOp.toJson : BinaryOp → Json
  | mul => .string "Mul"
  | div => .string "Div"
  | intDiv => .string "IntDiv"
  | mod => .string "Mod"
  | add => .string "Add"
  | sub => .string "Sub"
  | concat => .string "Concat"
  | lt => .string "Lt"
  | gt => .string "Gt"
  | ltEq => .string "LtEq"
  | gtEq => .string "GtEq"
  | eq => .string "Eq"
  | notEq => .string "NotEq"
  | and => .string "And"
  | or => .string "Or"

def UnaryOp.toJson : UnaryOp → Json
  | plus => .string "Plus"
  | neg => .string "Neg"
  | not => .string "Not"

def PointerOp.toJson : PointerOp → Json
  | deref => .string "Deref"
  | addressOf => .string "AddressOf"

def PassMode.toJson : PassMode → Json
  | byRef => .string "ByRef"
  | byVal => .string "ByVal"
  | default => .string "Default"

def FileMode.toJson : FileMode → Json
  | read => .string "Read"
  | write => .string "Write"
  | append => .string "Append"
  | random => .string "Random"

def Number.toJson : Number → Json
  | integer value => .tagged "Integer" (.integer value.toInt)
  | real value => .tagged "Real" (.real value)

def Date.toJson (node : Date) : Json :=
  .object [("day", .integer node.day.toNat), ("month", .integer node.month.toNat),
    ("year", .integer node.year.toNat)]

def Literal.toJson : Literal → Json
  | number value => .tagged "Number" value.toJson
  | string value => .tagged "String" (.string value)
  | char value => .tagged "Char" (.string (String.singleton value))
  | boolean value => .tagged "Boolean" (.truth value)
  | date value => .tagged "Date" value.toJson

mutual

def Expr.toJson : Expr → Json
  | .literal value => .tagged "Literal" value.toJson
  | .lvalue target => .tagged "LValue" target.toJson
  | .binary op left right =>
      .tagged "Binary"
        (.object [("op", op.toJson), ("left", left.toJson), ("right", right.toJson)])
  | .unary op operand =>
      .tagged "Unary" (.object [("op", op.toJson), ("operand", operand.toJson)])
  | .call call => .tagged "Call" call.toJson
  | .pointer op target =>
      .tagged "Pointer" (.object [("op", op.toJson), ("target", target.toJson)])
  | .eof file => .tagged "Eof" file.toJson

def LValue.toJson : LValue → Json
  | ⟨name, indices, member⟩ =>
      .object [("name", name.toJson), ("indices", .array (Expr.toJsonItems indices)),
        ("member", .ofOption .string member)]

def Call.toJson : Call → Json
  | ⟨callee, arguments⟩ =>
      .object [("callee", callee.toJson), ("args", .array (Expr.toJsonItems arguments))]

def Expr.toJsonItems : List Expr → List Json
  | [] => []
  | expr :: exprs => expr.toJson :: Expr.toJsonItems exprs

end

theorem Expr.toJsonItems_eq_map (exprs : List Expr) :
    Expr.toJsonItems exprs = exprs.map Expr.toJson := by
  induction exprs with
  | nil => rfl
  | cons expr exprs ih => simp [Expr.toJsonItems, ih]

def ArrayRange.toJson (node : ArrayRange) : Json :=
  .object [("start", node.first.toJson), ("end", node.last.toJson)]

mutual

def Decl.toJson : Decl → Json
  | .constant name value =>
      .tagged "Const" (.object [("name", name.toJson), ("value", value.toJson)])
  | .var name type => .tagged "Var" (.object [("name", name.toJson), ("ty", type.toJson)])
  | .array name ranges element =>
      .tagged "Array"
        (.object [("name", name.toJson), ("ranges", .ofList ArrayRange.toJson ranges),
          ("element", element.toJson)])
  | .enumeration name members =>
      .tagged "Enum"
        (.object [("name", name.toJson), ("members", .ofList Identifier.toJson members)])
  | .record name fields =>
      .tagged "Record"
        (.object [("name", name.toJson), ("fields", .array (Decl.toJsonItems fields))])
  | .pointer name target =>
      .tagged "Pointer" (.object [("name", name.toJson), ("target", target.toJson)])
  | .set name element =>
      .tagged "Set" (.object [("name", name.toJson), ("element", element.toJson)])
  | .setValue name type values =>
      .tagged "SetDef"
        (.object [("name", name.toJson), ("set_type", type.toJson),
          ("values", .ofList Literal.toJson values)])

def Decl.toJsonItems : List Decl → List Json
  | [] => []
  | decl :: decls => decl.toJson :: Decl.toJsonItems decls

end

theorem Decl.toJsonItems_eq_map (decls : List Decl) :
    Decl.toJsonItems decls = decls.map Decl.toJson := by
  induction decls with
  | nil => rfl
  | cons decl decls ih => simp [Decl.toJsonItems, ih]

def Param.toJson (node : Param) : Json :=
  .object [("mode", node.mode.toJson), ("name", node.name.toJson), ("ty", node.type.toJson)]

def FileStmt.toJson : FileStmt → Json
  | .openAs file mode =>
      .tagged "Open" (.object [("filename", file.toJson), ("mode", mode.toJson)])
  | .read file target =>
      .tagged "Read" (.object [("filename", file.toJson), ("target", target.toJson)])
  | .write file value =>
      .tagged "Write" (.object [("filename", file.toJson), ("value", value.toJson)])
  | .close file => .tagged "Close" (.object [("filename", file.toJson)])
  | .seek file position =>
      .tagged "Seek" (.object [("filename", file.toJson), ("position", position.toJson)])
  | .getRecord file target =>
      .tagged "GetRecord" (.object [("filename", file.toJson), ("target", target.toJson)])
  | .putRecord file source =>
      .tagged "PutRecord" (.object [("filename", file.toJson), ("source", source.toJson)])

mutual

def Stmt.toJson : Stmt → Json
  | .assign target value =>
      .tagged "Assign" (.object [("target", target.toJson), ("value", value.toJson)])
  | .ifThen condition thenBlock elseBlock =>
      .tagged "If"
        (.object [("condition", condition.toJson), ("then_block", thenBlock.toJson),
          ("else_block", Block.toJsonOption elseBlock)])
  | .caseOf subject arms =>
      .tagged "Case"
        (.object [("subject", subject.toJson), ("arms", .array (CaseArm.toJsonItems arms))])
  | .forNext counter first last step body next =>
      .tagged "For"
        (.object [("var", counter.toJson), ("start", first.toJson), ("end", last.toJson),
          ("step", .ofOption Expr.toJson step), ("body", body.toJson), ("next", next.toJson)])
  | .whileDo condition body =>
      .tagged "While" (.object [("condition", condition.toJson), ("body", body.toJson)])
  | .repeatUntil body condition =>
      .tagged "Repeat" (.object [("body", body.toJson), ("condition", condition.toJson)])
  | .giveBack value => .tagged "Return" (.object [("value", value.toJson)])
  | .call call => .tagged "Call" call.toJson
  | .input target => .tagged "Input" (.object [("target", target.toJson)])
  | .output items => .tagged "Output" (.object [("items", .ofList Expr.toJson items)])
  | .file action => .tagged "File" action.toJson

def CaseArm.toJson : CaseArm → Json
  | ⟨lower, upper, body⟩ =>
      .object [("from", lower.toJson), ("to", .ofOption Expr.toJson upper),
        ("body", body.toJson)]

def CaseArm.toJsonItems : List CaseArm → List Json
  | [] => []
  | arm :: arms => arm.toJson :: CaseArm.toJsonItems arms

def Block.toJson : Block → Json
  | ⟨items⟩ => .object [("items", .array (BlockItem.toJsonItems items))]

def Block.toJsonOption : Option Block → Json
  | none => .null
  | some block => block.toJson

def BlockItem.toJson : BlockItem → Json
  | .decl decl => .tagged "Decl" decl.toJson
  | .stmt stmt => .tagged "Stmt" stmt.toJson

def BlockItem.toJsonItems : List BlockItem → List Json
  | [] => []
  | item :: items => item.toJson :: BlockItem.toJsonItems items

end

theorem CaseArm.toJsonItems_eq_map (arms : List CaseArm) :
    CaseArm.toJsonItems arms = arms.map CaseArm.toJson := by
  induction arms with
  | nil => rfl
  | cons arm arms ih => simp [CaseArm.toJsonItems, ih]

theorem BlockItem.toJsonItems_eq_map (items : List BlockItem) :
    BlockItem.toJsonItems items = items.map BlockItem.toJson := by
  induction items with
  | nil => rfl
  | cons item items ih => simp [BlockItem.toJsonItems, ih]

def Item.toJson : Item → Json
  | .decl inner => .tagged "Decl" inner.toJson
  | .function name params returns body =>
      .tagged "Function"
        (.object [("name", name.toJson), ("params", .ofOption (.ofList Param.toJson) params),
          ("return_type", returns.toJson), ("body", body.toJson)])
  | .procedure name params body =>
      .tagged "Procedure"
        (.object [("name", name.toJson), ("params", .ofOption (.ofList Param.toJson) params),
          ("body", body.toJson)])
  | .stmt inner => .tagged "Stmt" inner.toJson

def Program.toJson (node : Program) : Json :=
  .object [("items", .ofList Item.toJson node.items)]

namespace Format

/-- The written form of a node of any kind. -/
def Kind.toJson : (kind : Kind) → kind.Carrier → Json
  | program => Program.toJson
  | item => Item.toJson
  | identifier => Identifier.toJson
  | typeName => TypeName.toJson
  | decl => Decl.toJson
  | arrayRange => ArrayRange.toJson
  | param => Param.toJson
  | passMode => PassMode.toJson
  | block => Block.toJson
  | blockItem => BlockItem.toJson
  | stmt => Stmt.toJson
  | caseArm => CaseArm.toJson
  | fileStmt => FileStmt.toJson
  | fileMode => FileMode.toJson
  | expr => Expr.toJson
  | lvalue => LValue.toJson
  | call => Call.toJson
  | literal => Literal.toJson
  | number => Number.toJson
  | date => Date.toJson
  | binaryOp => BinaryOp.toJson
  | unaryOp => UnaryOp.toJson
  | pointerOp => PointerOp.toJson

end Format

end ScopeLint
