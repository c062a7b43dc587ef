import ScopeLint.Analysis.Diagnostic
import ScopeLint.Analysis.Outline

/-!
The declaration sites of a tree and the regions that they belong to, read off the tree alone.
A region is named by the place of the node that opens it, so two regions are the same only
if they are the same part of the tree. No scope is opened here and no name is looked up.
-/

set_option autoImplicit false

namespace ScopeLint

/-- The steps from the program down to a node, the last one first; the program has no steps. -/
abbrev Place := List Nat

/-- What is met on the way through a tree. -/
inductive Visit where
  /-- A declaration, with the place of the node that opens its region. -/
  | site (region : Place) (declaration : Declaration)
  /-- The end of a counted loop, after its body. -/
  | loopEnd (opening closing : Identifier)

/-- What a name declares where it has no value of its own. -/
def Identifier.declared (name : Identifier) (kind : SymbolKind) : Declaration :=
  { name := name.name, kind, line := name.line, value := none }

mutual

/-- The sites of a declaration at `place` inside `region`. The members of an enumeration lie
beside it, the fields of a record in a region of their own. -/
def Decl.visits (place region : Place) : Decl → List Visit
  | .constant name (.literal value) =>
      [.site region { name.declared .constant with value := some value }]
  | .constant name _ => [.site region (name.declared .constant)]
  | .var name _ => [.site region (name.declared .var)]
  | .array name _ _ => [.site region (name.declared .var)]
  | .enumeration name members =>
      .site region (name.declared .type) ::
        members.map fun member => .site region (member.declared .constant)
  | .record name fields =>
      .site region (name.declared .type) :: Decl.visitsOfList place 0 place fields
  | .pointer name _ => [.site region (name.declared .type)]
  | .set name _ => [.site region (name.declared .type)]
  | .setValue name _ _ => [.site region (name.declared .type)]

/-- The sites of declarations that are the steps `index`, `index + 1`, … below `parent`. -/
def Decl.visitsOfList (parent : Place) (index : Nat) (region : Place) : List Decl → List Visit
  | [] => []
  | decl :: decls =>
      decl.visits (index :: parent) region ++ Decl.visitsOfList parent (index + 1) region decls

end

mutual

def Stmt.visits (blockScopes : Bool) (place region : Place) : Stmt → List Visit
  | .ifThen _ thenBlock elseBlock =>
      thenBlock.visits blockScopes (0 :: place) region ++
        Block.visitsOfElse blockScopes (1 :: place) region elseBlock
  | .caseOf _ arms => CaseArm.visitsOfList blockScopes place 0 region arms
  | .forNext counter _ _ _ body next =>
      body.visits blockScopes (0 :: place) region ++ [.loopEnd counter next]
  | .whileDo _ body => body.visits blockScopes (0 :: place) region
  | .repeatUntil body _ => body.visits blockScopes (0 :: place) region
  | .assign .. => []
  | .giveBack _ => []
  | .call _ => []
  | .input _ => []
  | .output _ => []
  | .file _ => []

def CaseArm.visits (blockScopes : Bool) (place region : Place) : CaseArm → List Visit
  | ⟨_, _, body⟩ => body.visits blockScopes place region

def CaseArm.visitsOfList (blockScopes : Bool) (parent : Place) (index : Nat) (region : Place) :
    List CaseArm → List Visit
  | [] => []
  | arm :: arms =>
      arm.visits blockScopes (index :: parent) region ++
        CaseArm.visitsOfList blockScopes parent (index + 1) region arms

/-- A control block opens a region if blocks have scopes of their own, and otherwise belongs
to the region around it. -/
def Block.visits (blockScopes : Bool) (place region : Place) : Block → List Visit
  | ⟨items⟩ =>
      BlockItem.visitsOfList blockScopes place 0 (if blockScopes then place else region) items

def Block.visitsOfElse (blockScopes : Bool) (place region : Place) : Option Block → List Visit
  | none => []
  | some block => block.visits blockScopes place region

def BlockItem.visits (blockScopes : Bool) (place region : Place) : BlockItem → List Visit
  | .decl decl => decl.visits place region
  | .stmt stmt => stmt.visits blockScopes place region

def BlockItem.visitsOfList (blockScopes : Bool) (parent : Place) (index : Nat)
    (region : Place) : List BlockItem → List Visit
  | [] => []
  | item :: items =>
      item.visits blockScopes (index :: parent) region ++
        BlockItem.visitsOfList blockScopes parent (index + 1) region items

end

/-- The parameters of a routine and its body are one region, whatever holds for blocks. -/
def routineVisits (blockScopes : Bool) (place : Place) (params : Option (List Param))
    (body : Block) : List Visit :=
  (params.getD []).map (fun param => .site place (param.name.declared .parameter)) ++
    BlockItem.visitsOfList blockScopes place 0 place body.items

def Item.visits (blockScopes : Bool) (place region : Place) : Item → List Visit
  | .decl inner => inner.visits place region
  | .function name params _ body =>
      .site region (name.declared .function) :: routineVisits blockScopes place params body
  | .procedure name params body =>
      .site region (name.declared .procedure) :: routineVisits blockScopes place params body
  | .stmt inner => inner.visits blockScopes place region

def Item.visitsOfList (blockScopes : Bool) (index : Nat) : List Item → List Visit
  | [] => []
  | item :: items =>
      item.visits blockScopes [index] [] ++ Item.visitsOfList blockScopes (index + 1) items

/-- The way through a whole program, in the order of its text. -/
def Program.visits (blockScopes : Bool) (program : Program) : List Visit :=
  Item.visitsOfList blockScopes 0 program.items

namespace Visit

def declarationIn? (region : Place) : Visit → Option Declaration
  | .site other declaration => if other = region then some declaration else none
  | .loopEnd _ _ => none

def declarationsIn (region : Place) (visits : List Visit) : List Declaration :=
  visits.filterMap (declarationIn? region)

/-- What is to be reported at a visit after the visits `earlier`: a name that an earlier site
of the same region has, or a loop whose end names another variable. -/
def finding? (earlier : List Visit) : Visit → Option Diagnostic
  | .site region declaration =>
      if ∃ other ∈ declarationsIn region earlier, other.name = declaration.name then
        some ⟨.alreadyDefined, declaration.name, declaration.line⟩
      else none
  | .loopEnd opening closing =>
      if opening.name = closing.name then none
      else some ⟨.namesDiffer, closing.name, closing.line⟩

/-- Each visit is judged by those before it. -/
def diagnostics (visits : List Visit) : List Diagnostic :=
  visits.zipIdx.filterMap fun (visit, index) => visit.finding? (visits.take index)

end Visit

end ScopeLint
