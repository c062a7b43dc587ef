import ScopeLint.Tree.Inline

/-!
The dump of a tree over several lines. A node is rendered on the level that it stands on: what
it holds stands one level deeper, and the brace that closes it on its own level again. A text
may itself hold newlines, when a name or a string does; these are not indented.
-/

set_option autoImplicit false

namespace ScopeLint

def defaultIndent : Nat := 2

def widestIndent : Nat := 16

/-- The spaces before a text on a level. -/
def indentation (width level : Nat) : String :=
  String.ofList (List.replicate (level * min width widestIndent) ' ')

/-- The first line of a node that spreads over several: its tag and the parts that stand on
this line, each with a comma. -/
def opened (tag : String) (parts : List String) : String :=
  tag ++ " \x7b" ++ String.join (parts.map opening)
where
  opening (part : String) : String := " " ++ part ++ ","

/-- Texts with a newline after each. -/
def ended : List String → String
  | [] => ""
  | text :: texts => text ++ "\n" ++ ended texts

/-- A node over several lines: its first line, the texts inside it, and the closing brace. -/
def surrounded (indent first : String) (inside : List String) : String :=
  indent ++ first ++ "\n" ++ ended inside ++ indent ++ "\x7d"

mutual

def Decl.render (width level : Nat) : Decl → String
  | .constant name value =>
      indentation width level ++ braced "ConstDecl" [name.text, value.text]
  | .var name type => indentation width level ++ braced "VarDecl" [name.text, type.text]
  | .array name ranges element =>
      indentation width level ++
        braced "VarDeclArray" [name.text, spaced (ranges.map ArrayRange.text), element.text]
  | .enumeration name members =>
      indentation width level ++
        braced "Enum" [name.text, spaced (members.map Identifier.text)]
  | .record name fields =>
      surrounded (indentation width level) (opened "Record" [name.text])
        (Decl.renderAll width (level + 1) fields)
  | .pointer name target => indentation width level ++ braced "Pointer" [name.text, target.text]
  | .set name element => indentation width level ++ braced "Set" [name.text, element.text]
  | .setValue name type values =>
      indentation width level ++
        braced "SetDef" [name.text, type.text, spaced (values.map Literal.text)]

def Decl.renderAll (width level : Nat) : List Decl → List String
  | [] => []
  | decl :: decls => decl.render width level :: Decl.renderAll width level decls

end

/-- The text of an optional part, or what stands in its place. -/
def optionalText (missing : String) : Option Expr → String
  | none => missing
  | some value => value.text

mutual

def Stmt.render (width level : Nat) : Stmt → String
  | .assign target value =>
      indentation width level ++ braced "StmtAssign" [target.text, value.text]
  | .ifThen condition thenBlock elseBlock =>
      surrounded (indentation width level) (opened "StmtIf" [condition.text])
        [thenBlock.render width (level + 1), Block.renderElse width (level + 1) elseBlock]
  | .caseOf subject arms =>
      surrounded (indentation width level) (opened "StmtCase" [subject.text])
        (CaseArm.renderAll width (level + 1) arms)
  | .forNext counter first last step body _ =>
      surrounded (indentation width level)
        (opened "StmtFor"
          [counter.text, first.text, last.text, optionalText "no-step" step])
        [body.render width (level + 1)]
  | .whileDo condition body =>
      surrounded (indentation width level) (opened "StmtWhile" [condition.text])
        [body.render width (level + 1)]
  | .repeatUntil body condition =>
      surrounded (indentation width level) (opened "StmtRepeat" [condition.text])
        [body.render width (level + 1)]
  | .giveBack value => indentation width level ++ braced "StmtReturn" [value.text]
  | .call call => indentation width level ++ braced "StmtCall" [call.text]
  | .input target => indentation width level ++ braced "StmtInput" [target.text]
  | .output items =>
      indentation width level ++ braced "StmtOutput" [spaced (items.map Expr.text)]
  | .file action => indentation width level ++ action.text

def CaseArm.render (width level : Nat) : CaseArm → String
  | ⟨lower, none, body⟩ =>
      surrounded (indentation width level) (opened "Case" [lower.text])
        [body.render width (level + 1)]
  | ⟨lower, some upper, body⟩ =>
      surrounded (indentation width level) (opened "Case" [lower.text, upper.text])
        [body.render width (level + 1)]

def CaseArm.renderAll (width level : Nat) : List CaseArm → List String
  | [] => []
  | arm :: arms => arm.render width level :: CaseArm.renderAll width level arms

def Block.render (width level : Nat) : Block → String
  | ⟨items⟩ =>
      surrounded (indentation width level) (opened "Block" [])
        (BlockItem.renderAll width (level + 1) items)

def Block.renderElse (width level : Nat) : Option Block → String
  | none => indentation width level ++ "no-else"
  | some block => block.render width level

def BlockItem.render (width level : Nat) : BlockItem → String
  | .decl decl => decl.render width level
  | .stmt stmt => stmt.render width level

def BlockItem.renderAll (width level : Nat) : List BlockItem → List String
  | [] => []
  | item :: items => item.render width level :: BlockItem.renderAll width level items

end

def Item.render (width level : Nat) : Item → String
  | .decl inner => inner.render width level
  | .function name params returns body =>
      surrounded (indentation width level)
        (opened "FuncDef" [returns.text, name.text, paramListText params])
        [body.render width (level + 1)]
  | .procedure name params body =>
      surrounded (indentation width level)
        (opened "ProcDef" [name.text, paramListText params]) [body.render width (level + 1)]
  | .stmt inner => inner.render width level

def Program.dump (width : Nat) (program : Program) : String :=
  surrounded "" (opened "CompUnit" []) (program.items.map (Item.render width 1))

def Program.text (program : Program) : String :=
  program.dump defaultIndent

end ScopeLint
