import ScopeLint.Scope.Symbol

/-!
What matters of a program for its scopes: the declaration sites, the loops whose two names
must agree, and the regions around them, in the order in which they stand. An outline depends
on the program alone; whether a control block counts as a region is decided when the outline
is gone through.
-/

set_option autoImplicit false

namespace ScopeLint

inductive Mark where
  | site (declaration : Declaration)
  /-- A counted loop that ends here, with the name it opened and the name that closes it. -/
  | loop (opening closing : Identifier)
  | region (kind : ScopeKind) (marks : List Mark)

/-- The site of a name that has no value of its own. -/
def Identifier.site (name : Identifier) (kind : SymbolKind) : Mark :=
  .site { name := name.name, kind, line := name.line, value := none }

def Expr.literal? : Expr → Option Literal
  | .literal value => some value
  | _ => none

mutual

/-- The members of an enumeration are declared beside it; the fields of a record lie in a
region of their own. -/
def Decl.outline : Decl → List Mark
  | .constant name value =>
      [.site { name := name.name, kind := .constant, line := name.line, value := value.literal? }]
  | .var name _ => [name.site .var]
  | .array name _ _ => [name.site .var]
  | .enumeration name members =>
      name.site .type :: members.map fun member => member.site .constant
  | .record name fields => [name.site .type, .region .record (Decl.outlineOfList fields)]
  | .pointer name _ => [name.site .type]
  | .set name _ => [name.site .type]
  | .setValue name _ _ => [name.site .type]

def Decl.outlineOfList : List Decl → List Mark
  | [] => []
  | decl :: decls => decl.outline ++ Decl.outlineOfList decls

end

mutual

/-- Each control block is a region; a loop is checked after its body. -/
def Stmt.outline : Stmt → List Mark
  | .ifThen _ thenBlock elseBlock =>
      .region .block thenBlock.outline :: Block.outlineOfElse elseBlock
  | .caseOf _ arms => CaseArm.outlineOfList arms
  | .forNext counter _ _ _ body next => [.region .block body.outline, .loop counter next]
  | .whileDo _ body => [.region .block body.outline]
  | .repeatUntil body _ => [.region .block body.outline]
  | .assign .. => []
  | .giveBack _ => []
  | .call _ => []
  | .input _ => []
  | .output _ => []
  | .file _ => []

def CaseArm.outline : CaseArm → Mark
  | ⟨_, _, body⟩ => .region .block body.outline

def CaseArm.outlineOfList : List CaseArm → List Mark
  | [] => []
  | arm :: arms => arm.outline :: CaseArm.outlineOfList arms

/-- What lies inside a block, without the region around it. -/
def Block.outline : Block → List Mark
  | ⟨items⟩ => BlockItem.outlineOfList items

def Block.outlineOfElse : Option Block → List Mark
  | none => []
  | some block => [.region .block block.outline]

def BlockItem.outline : BlockItem → List Mark
  | .decl decl => decl.outline
  | .stmt stmt => stmt.outline

def BlockItem.outlineOfList : List BlockItem → List Mark
  | [] => []
  | item :: items => item.outline ++ BlockItem.outlineOfList items

end

/-- The parameters of a routine and its body share one region. -/
def routineOutline (params : Option (List Param)) (body : Block) : Mark :=
  .region .routine
    ((params.getD []).map (fun param => param.name.site .parameter) ++ body.outline)

def Item.outline : Item → List Mark
  | .decl inner => inner.outline
  | .function name params _ body => [name.site .function, routineOutline params body]
  | .procedure name params body => [name.site .procedure, routineOutline params body]
  | .stmt inner => inner.outline

def Program.outline (program : Program) : List Mark :=
  program.items.flatMap Item.outline

end ScopeLint
