import ScopeLint.Format.Shape

/-!
The layout of every kind of node: its fields or cases, in the order in which they are written
and in which messages list them.
-/

set_option autoImplicit false

namespace ScopeLint.Format

abbrev Field.node (key : String) (kind : Kind) : Field :=
  .required key (.node kind)

abbrev Field.nodes (key : String) (kind : Kind) : Field :=
  .required key (.list (.node kind))

abbrev Payload.node (kind : Kind) : Payload :=
  .one (.value (.node kind))

/-- A pointer operation without the tag of its case. -/
abbrev Form.pointer : Form :=
  .record "struct PointerExpr" [.node "op" .pointerOp, .node "target" .lvalue]

abbrev Payload.record (title : String) (fields : List Field) : Payload :=
  .one (.record title fields)

namespace Layout

abbrev program : Layout Program :=
  .record "struct Program" [.nodes "items" .item] (fun (items, _) => ⟨items⟩)
    (fun node => (node.items, ()))

abbrev item : Layout Item :=
  .choice [
    { tag := "Decl", payload := .node .decl, make := Item.decl
      part := fun
        | .decl decl => some decl
        | _ => none },
    { tag := "Function"
      payload := .record "struct FunctionDef" [.node "name" .identifier,
        .optional "params" (.list (.node .param)), .node "return_type" .typeName,
        .node "body" .block]
      make := fun (name, params, returns, body, _) => .function name params returns body
      part := fun
        | .function name params returns body => some (name, params, returns, body, ())
        | _ => none },
    { tag := "Procedure"
      payload := .record "struct ProcedureDef" [.node "name" .identifier,
        .optional "params" (.list (.node .param)), .node "body" .block]
      make := fun (name, params, body, _) => .procedure name params body
      part := fun
        | .procedure name params body => some (name, params, body, ())
        | _ => none },
    { tag := "Stmt", payload := .node .stmt, make := Item.stmt
      part := fun
        | .stmt stmt => some stmt
        | _ => none }]

abbrev identifier : Layout Identifier :=
  .record "struct Identifier" [.required "name" .text, .required "line" (.integer .u32)]
    (fun (name, line, _) => ⟨name, line⟩) (fun node => (node.name, node.line, ()))

abbrev typeName : Layout TypeName :=
  .choice [
    .plain "Integer" .integer (· == .integer),
    .plain "Real" .real (· == .real),
    .plain "Char" .char (· == .char),
    .plain "String" .string (· == .string),
    .plain "Boolean" .boolean (· == .boolean),
    .plain "Date" .date (· == .date),
    { tag := "Named", payload := .one (.value .text), make := TypeName.named
      part := fun
        | .named name => some name
        | _ => none }]

abbrev decl : Layout Decl :=
  .choice [
    { tag := "Const"
      payload := .record "struct ConstDecl" [.node "name" .identifier, .node "value" .expr]
      make := fun (name, value, _) => .constant name value
      part := fun
        | .constant name value => some (name, value, ())
        | _ => none },
    { tag := "Var"
      payload := .record "struct VarDecl" [.node "name" .identifier, .node "ty" .typeName]
      make := fun (name, type, _) => .var name type
      part := fun
        | .var name type => some (name, type, ())
        | _ => none },
    { tag := "Array"
      payload := .record "struct ArrayDecl" [.node "name" .identifier,
        .nodes "ranges" .arrayRange, .node "element" .typeName]
      make := fun (name, ranges, element, _) => .array name ranges element
      part := fun
        | .array name ranges element => some (name, ranges, element, ())
        | _ => none },
    { tag := "Enum"
      payload := .record "struct EnumType" [.node "name" .identifier,
        .nodes "members" .identifier]
      make := fun (name, members, _) => .enumeration name members
      part := fun
        | .enumeration name members => some (name, members, ())
        | _ => none },
    { tag := "Record"
      payload := .record "struct RecordType" [.node "name" .identifier, .nodes "fields" .decl]
      make := fun (name, fields, _) => .record name fields
      part := fun
        | .record name fields => some (name, fields, ())
        | _ => none },
    { tag := "Pointer"
      payload := .record "struct PointerType" [.node "name" .identifier,
        .node "target" .typeName]
      make := fun (name, target, _) => .pointer name target
      part := fun
        | .pointer name target => some (name, target, ())
        | _ => none },
    { tag := "Set"
      payload := .record "struct SetType" [.node "name" .identifier, .node "element" .typeName]
      make := fun (name, element, _) => .set name element
      part := fun
        | .set name element => some (name, element, ())
        | _ => none },
    { tag := "SetDef"
      payload := .record "struct SetDef" [.node "name" .identifier, .node "set_type" .typeName,
        .nodes "values" .literal]
      make := fun (name, type, values, _) => .setValue name type values
      part := fun
        | .setValue name type values => some (name, type, values, ())
        | _ => none }]

abbrev arrayRange : Layout ArrayRange :=
  .record "struct ArrayRange" [.node "start" .expr, .node "end" .expr]
    (fun (first, last, _) => ⟨first, last⟩) (fun node => (node.first, node.last, ()))

abbrev param : Layout Param :=
  .record "struct Param" [.node "mode" .passMode, .node "name" .identifier,
    .node "ty" .typeName]
    (fun (mode, name, type, _) => ⟨mode, name, type⟩)
    (fun node => (node.mode, node.name, node.type, ()))

abbrev passMode : Layout PassMode :=
  .choice [
    .plain "ByRef" .byRef (· == .byRef),
    .plain "ByVal" .byVal (· == .byVal),
    .plain "Default" .default (· == .default)]

abbrev block : Layout Block :=
  .record "struct Block" [.nodes "items" .blockItem] (fun (items, _) => ⟨items⟩)
    (fun node => (node.items, ()))

abbrev blockItem : Layout BlockItem :=
  .choice [
    { tag := "Decl", payload := .node .decl, make := BlockItem.decl
      part := fun
        | .decl decl => some decl
        | _ => none },
    { tag := "Stmt", payload := .node .stmt, make := BlockItem.stmt
      part := fun
        | .stmt stmt => some stmt
        | _ => none }]

abbrev stmt : Layout Stmt :=
  .choice [
    { tag := "Assign"
      payload := .record "struct AssignStmt" [.node "target" .lvalue, .node "value" .expr]
      make := fun (target, value, _) => .assign target value
      part := fun
        | .assign target value => some (target, value, ())
        | _ => none },
    { tag := "If"
      payload := .record "struct IfStmt" [.node "condition" .expr, .node "then_block" .block,
        .optional "else_block" (.node .block)]
      make := fun (condition, thenBlock, elseBlock, _) => .ifThen condition thenBlock elseBlock
      part := fun
        | .ifThen condition thenBlock elseBlock => some (condition, thenBlock, elseBlock, ())
        | _ => none },
    { tag := "Case"
      payload := .record "struct CaseStmt" [.node "subject" .identifier, .nodes "arms" .caseArm]
      make := fun (subject, arms, _) => .caseOf subject arms
      part := fun
        | .caseOf subject arms => some (subject, arms, ())
        | _ => none },
    { tag := "For"
      payload := .record "struct ForStmt" [.node "var" .identifier, .node "start" .expr,
        .node "end" .expr, .optional "step" (.node .expr), .node "body" .block,
        .node "next" .identifier]
      make := fun (counter, first, last, step, body, next, _) =>
        .forNext counter first last step body next
      part := fun
        | .forNext counter first last step body next =>
            some (counter, first, last, step, body, next, ())
        | _ => none },
    { tag := "While"
      payload := .record "struct WhileStmt" [.node "condition" .expr, .node "body" .block]
      make := fun (condition, body, _) => .whileDo condition body
      part := fun
        | .whileDo condition body => some (condition, body, ())
        | _ => none },
    { tag := "Repeat"
      payload := .record "struct RepeatStmt" [.node "body" .block, .node "condition" .expr]
      make := fun (body, condition, _) => .repeatUntil body condition
      part := fun
        | .repeatUntil body condition => some (body, condition, ())
        | _ => none },
    { tag := "Return"
      payload := .record "struct ReturnStmt" [.node "value" .expr]
      make := fun (value, _) => .giveBack value
      part := fun
        | .giveBack value => some (value, ())
        | _ => none },
    { tag := "Call", payload := .node .call, make := Stmt.call
      part := fun
        | .call call => some call
        | _ => none },
    { tag := "Input"
      payload := .record "struct InputStmt" [.node "target" .identifier]
      make := fun (target, _) => .input target
      part := fun
        | .input target => some (target, ())
        | _ => none },
    { tag := "Output"
      payload := .record "struct OutputStmt" [.nodes "items" .expr]
      make := fun (items, _) => .output items
      part := fun
        | .output items => some (items, ())
        | _ => none },
    { tag := "File", payload := .node .fileStmt, make := Stmt.file
      part := fun
        | .file action => some action
        | _ => none }]

abbrev caseArm : Layout CaseArm :=
  .record "struct CaseArm" [.node "from" .expr, .optional "to" (.node .expr),
    .node "body" .block]
    (fun (lower, upper, body, _) => ⟨lower, upper, body⟩)
    (fun node => (node.lower, node.upper, node.body, ()))

abbrev fileStmt : Layout FileStmt :=
  .choice [
    { tag := "Open"
      payload := .several "struct variant FileStmt::Open" [.node "filename" .expr,
        .node "mode" .fileMode]
      make := fun (file, mode, _) => .openAs file mode
      part := fun
        | .openAs file mode => some (file, mode, ())
        | _ => none },
    { tag := "Read"
      payload := .several "struct variant FileStmt::Read" [.node "filename" .expr,
        .node "target" .identifier]
      make := fun (file, target, _) => .read file target
      part := fun
        | .read file target => some (file, target, ())
        | _ => none },
    { tag := "Write"
      payload := .several "struct variant FileStmt::Write" [.node "filename" .expr,
        .node "value" .expr]
      make := fun (file, value, _) => .write file value
      part := fun
        | .write file value => some (file, value, ())
        | _ => none },
    { tag := "Close"
      payload := .several "struct variant FileStmt::Close" [.node "filename" .expr]
      make := fun (file, _) => .close file
      part := fun
        | .close file => some (file, ())
        | _ => none },
    { tag := "Seek"
      payload := .several "struct variant FileStmt::Seek" [.node "filename" .expr,
        .node "position" .expr]
      make := fun (file, position, _) => .seek file position
      part := fun
        | .seek file position => some (file, position, ())
        | _ => none },
    { tag := "GetRecord"
      payload := .several "struct variant FileStmt::GetRecord" [.node "filename" .expr,
        .node "target" .identifier]
      make := fun (file, target, _) => .getRecord file target
      part := fun
        | .getRecord file target => some (file, target, ())
        | _ => none },
    { tag := "PutRecord"
      payload := .several "struct variant FileStmt::PutRecord" [.node "filename" .expr,
        .node "source" .identifier]
      make := fun (file, source, _) => .putRecord file source
      part := fun
        | .putRecord file source => some (file, source, ())
        | _ => none }]

abbrev fileMode : Layout FileMode :=
  .choice [
    .plain "Read" .read (· == .read),
    .plain "Write" .write (· == .write),
    .plain "Append" .append (· == .append),
    .plain "Random" .random (· == .random)]

abbrev expr : Layout Expr :=
  .choice [
    { tag := "Literal", payload := .node .literal, make := Expr.literal
      part := fun
        | .literal value => some value
        | _ => none },
    { tag := "LValue", payload := .node .lvalue, make := Expr.lvalue
      part := fun
        | .lvalue target => some target
        | _ => none },
    { tag := "Binary"
      payload := .record "struct BinaryExpr" [.node "op" .binaryOp, .node "left" .expr,
        .node "right" .expr]
      make := fun (op, left, right, _) => .binary op left right
      part := fun
        | .binary op left right => some (op, left, right, ())
        | _ => none },
    { tag := "Unary"
      payload := .record "struct UnaryExpr" [.node "op" .unaryOp, .node "operand" .expr]
      make := fun (op, operand, _) => .unary op operand
      part := fun
        | .unary op operand => some (op, operand, ())
        | _ => none },
    { tag := "Call", payload := .node .call, make := Expr.call
      part := fun
        | .call call => some call
        | _ => none },
    { tag := "Pointer"
      payload := .one .pointer
      make := fun (op, target, _) => .pointer op target
      part := fun
        | .pointer op target => some (op, target, ())
        | _ => none },
    { tag := "Eof", payload := .node .expr, make := Expr.eof
      part := fun
        | .eof file => some file
        | _ => none }]

abbrev lvalue : Layout LValue :=
  .record "struct LValue" [.node "name" .identifier, .nodes "indices" .expr,
    .optional "member" .text]
    (fun (name, indices, member, _) => ⟨name, indices, member⟩)
    (fun node => (node.name, node.indices, node.member, ()))

abbrev call : Layout Call :=
  .record "struct CallExpr" [.node "callee" .identifier, .nodes "args" .expr]
    (fun (callee, arguments, _) => ⟨callee, arguments⟩)
    (fun node => (node.callee, node.arguments, ()))

abbrev literal : Layout Literal :=
  .choice [
    { tag := "Number", payload := .node .number, make := Literal.number
      part := fun
        | .number value => some value
        | _ => none },
    { tag := "String", payload := .one (.value .text), make := Literal.string
      part := fun
        | .string value => some value
        | _ => none },
    { tag := "Char", payload := .one (.value .character), make := Literal.char
      part := fun
        | .char value => some value
        | _ => none },
    { tag := "Boolean", payload := .one (.value .truth), make := Literal.boolean
      part := fun
        | .boolean value => some value
        | _ => none },
    { tag := "Date", payload := .node .date, make := Literal.date
      part := fun
        | .date value => some value
        | _ => none }]

abbrev number : Layout Number :=
  .choice [
    { tag := "Integer", payload := .one (.value (.integer .i64)), make := Number.integer
      part := fun
        | .integer value => some value
        | _ => none },
    { tag := "Real", payload := .one (.value .real), make := Number.real
      part := fun
        | .real value => some value
        | _ => none }]

abbrev date : Layout Date :=
  .record "struct Date" [.required "day" (.integer .u8), .required "month" (.integer .u8),
    .required "year" (.integer .u16)]
    (fun (day, month, year, _) => ⟨day, month, year⟩)
    (fun node => (node.day, node.month, node.year, ()))

abbrev binaryOp : Layout BinaryOp :=
  .choice [
    .plain "Mul" .mul (· == .mul),
    .plain "Div" .div (· == .div),
    .plain "IntDiv" .intDiv (· == .intDiv),
    .plain "Mod" .mod (· == .mod),
    .plain "Add" .add (· == .add),
    .plain "Sub" .sub (· == .sub),
    .plain "Concat" .concat (· == .concat),
    .plain "Lt" .lt (· == .lt),
    .plain "Gt" .gt (· == .gt),
    .plain "LtEq" .ltEq (· == .ltEq),
    .plain "GtEq" .gtEq (· == .gtEq),
    .plain "Eq" .eq (· == .eq),
    .plain "NotEq" .notEq (· == .notEq),
    .plain "And" .and (· == .and),
    .plain "Or" .or (· == .or)]

abbrev unaryOp : Layout UnaryOp :=
  .choice [
    .plain "Plus" .plus (· == .plus),
    .plain "Neg" .neg (· == .neg),
    .plain "Not" .not (· == .not)]

abbrev pointerOp : Layout PointerOp :=
  .choice [
    .plain "Deref" .deref (· == .deref),
    .plain "AddressOf" .addressOf (· == .addressOf)]

end Layout

def Kind.layout : (kind : Kind) → Layout kind.Carrier
  | program => .program
  | item => .item
  | identifier => .identifier
  | typeName => .typeName
  | decl => .decl
  | arrayRange => .arrayRange
  | param => .param
  | passMode => .passMode
  | block => .block
  | blockItem => .blockItem
  | stmt => .stmt
  | caseArm => .caseArm
  | fileStmt => .fileStmt
  | fileMode => .fileMode
  | expr => .expr
  | lvalue => .lvalue
  | call => .call
  | literal => .literal
  | number => .number
  | date => .date
  | binaryOp => .binaryOp
  | unaryOp => .unaryOp
  | pointerOp => .pointerOp

end ScopeLint.Format
