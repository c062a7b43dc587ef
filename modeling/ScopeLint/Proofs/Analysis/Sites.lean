import Mathlib.Data.List.Basic
import ScopeLint.Proofs.Analysis.Region

/-!
All declaration sites of a tree, whatever region they belong to. The choice of scopes for control
blocks moves sites from one region to another, but takes none away and adds none, so that the
way through a tree has the sites of its outline.
-/

set_option autoImplicit false

namespace ScopeLint

def Visit.declaration? : Visit → Option Declaration
  | .site _ declaration => some declaration
  | .loopEnd _ _ => none

/-- The declarations of all sites, in the order of the text. -/
def Visit.sites (visits : List Visit) : List Declaration :=
  visits.filterMap Visit.declaration?

mutual

def Mark.sites : Mark → List Declaration
  | .site declaration => [declaration]
  | .loop _ _ => []
  | .region _ marks => Mark.sitesOfList marks

def Mark.sitesOfList : List Mark → List Declaration
  | [] => []
  | mark :: marks => mark.sites ++ Mark.sitesOfList marks

end

theorem Visit.sites_append (first second : List Visit) :
    sites (first ++ second) = sites first ++ sites second :=
  List.filterMap_append

theorem Mark.sitesOfList_append (first second : List Mark) :
    sitesOfList (first ++ second) = sitesOfList first ++ sitesOfList second := by
  induction first with
  | nil => rfl
  | cons mark first ih => rw [List.cons_append, sitesOfList, sitesOfList, ih, List.append_assoc]

theorem Mark.sitesOfList_region (kind : ScopeKind) (marks : List Mark) :
    sitesOfList [.region kind marks] = sitesOfList marks := by
  rw [sitesOfList, sites, sitesOfList, List.append_nil]

/-- Names that are declared one after the other in one region. -/
theorem sites_map {α : Type} (region : Place) (name : α → Identifier) (kind : SymbolKind)
    (items : List α) :
    Visit.sites (items.map fun item => .site region ((name item).declared kind)) =
      Mark.sitesOfList (items.map fun item => (name item).site kind) := by
  induction items with
  | nil => rfl
  | cons item items ih =>
      rw [List.map_cons, List.map_cons, Mark.sitesOfList, ← ih]
      rfl

mutual

theorem Decl.sites_visits (place region : Place) :
    (decl : Decl) → Visit.sites (decl.visits place region) = Mark.sitesOfList decl.outline
  | .constant _ (.literal _) => rfl
  | .constant _ (.lvalue _) => rfl
  | .constant _ (.binary _ _ _) => rfl
  | .constant _ (.unary _ _) => rfl
  | .constant _ (.call _) => rfl
  | .constant _ (.pointer _ _) => rfl
  | .constant _ (.eof _) => rfl
  | .var _ _ => rfl
  | .array _ _ _ => rfl
  | .enumeration name members =>
      congrArg (name.declared .type :: ·) (sites_map region id .constant members)
  | .record name fields => by
      have inside := Decl.sites_visitsOfList place 0 place fields
      rw [← Mark.sitesOfList_region .record] at inside
      exact congrArg (name.declared .type :: ·) inside
  | .pointer _ _ => rfl
  | .set _ _ => rfl
  | .setValue _ _ _ => rfl

theorem Decl.sites_visitsOfList (parent : Place) (index : Nat) (region : Place) :
    (decls : List Decl) →
      Visit.sites (Decl.visitsOfList parent index region decls) =
        Mark.sitesOfList (Decl.outlineOfList decls)
  | [] => rfl
  | decl :: decls => by
      rw [Decl.visitsOfList, Decl.outlineOfList, Visit.sites_append, Mark.sitesOfList_append,
        Decl.sites_visits _ region decl, Decl.sites_visitsOfList parent _ region decls]

end

mutual

theorem Stmt.sites_visits (choice : Bool) (place region : Place) :
    (stmt : Stmt) → Visit.sites (stmt.visits choice place region) = Mark.sitesOfList stmt.outline
  | .ifThen _ thenBlock elseBlock => by
      rw [Stmt.visits, Stmt.outline, Visit.sites_append, Mark.sitesOfList, Mark.sites,
        Block.sites_visits choice _ region thenBlock,
        Block.sites_visitsOfElse choice _ region elseBlock]
  | .caseOf _ arms => CaseArm.sites_visitsOfList choice place 0 region arms
  | .forNext _ _ _ _ body _ => by
      rw [Stmt.visits, Stmt.outline, Visit.sites_append, Mark.sitesOfList, Mark.sites,
        Block.sites_visits choice _ region body]
      rfl
  | .whileDo _ body => by
      rw [Stmt.visits, Stmt.outline, Mark.sitesOfList_region,
        Block.sites_visits choice _ region body]
  | .repeatUntil body _ => by
      rw [Stmt.visits, Stmt.outline, Mark.sitesOfList_region,
        Block.sites_visits choice _ region body]
  | .assign _ _ => rfl
  | .giveBack _ => rfl
  | .call _ => rfl
  | .input _ => rfl
  | .output _ => rfl
  | .file _ => rfl

theorem CaseArm.sites_visitsOfList (choice : Bool) (parent : Place) (index : Nat)
    (region : Place) :
    (arms : List CaseArm) →
      Visit.sites (CaseArm.visitsOfList choice parent index region arms) =
        Mark.sitesOfList (CaseArm.outlineOfList arms)
  | [] => rfl
  | ⟨_, _, body⟩ :: arms => by
      rw [CaseArm.visitsOfList, CaseArm.visits, CaseArm.outlineOfList, CaseArm.outline,
        Visit.sites_append, Mark.sitesOfList, Mark.sites,
        Block.sites_visits choice _ region body,
        CaseArm.sites_visitsOfList choice parent _ region arms]

theorem Block.sites_visits (choice : Bool) (place region : Place) :
    (block : Block) →
      Visit.sites (block.visits choice place region) = Mark.sitesOfList block.outline
  | ⟨items⟩ => BlockItem.sites_visitsOfList choice place 0 _ items

theorem Block.sites_visitsOfElse (choice : Bool) (place region : Place) :
    (elseBlock : Option Block) →
      Visit.sites (Block.visitsOfElse choice place region elseBlock) =
        Mark.sitesOfList (Block.outlineOfElse elseBlock)
  | none => rfl
  | some block => by
      rw [Block.visitsOfElse, Block.outlineOfElse, Mark.sitesOfList_region,
        Block.sites_visits choice _ region block]

theorem BlockItem.sites_visitsOfList (choice : Bool) (parent : Place) (index : Nat)
    (region : Place) :
    (items : List BlockItem) →
      Visit.sites (BlockItem.visitsOfList choice parent index region items) =
        Mark.sitesOfList (BlockItem.outlineOfList items)
  | [] => rfl
  | .decl decl :: items => by
      rw [BlockItem.visitsOfList, BlockItem.outlineOfList, Visit.sites_append,
        Mark.sitesOfList_append, BlockItem.sites_visitsOfList choice parent _ region items]
      exact congrArg (· ++ _) (decl.sites_visits _ region)
  | .stmt stmt :: items => by
      rw [BlockItem.visitsOfList, BlockItem.outlineOfList, Visit.sites_append,
        Mark.sitesOfList_append, BlockItem.sites_visitsOfList choice parent _ region items]
      exact congrArg (· ++ _) (stmt.sites_visits choice _ region)

end

theorem sites_routineVisits (choice : Bool) (place : Place) (params : Option (List Param))
    (body : Block) :
    Visit.sites (routineVisits choice place params body) =
      Mark.sitesOfList [routineOutline params body] := by
  rcases body with ⟨items⟩
  rw [routineVisits, routineOutline, Mark.sitesOfList_region, Visit.sites_append,
    Mark.sitesOfList_append, sites_map place Param.name,
    BlockItem.sites_visitsOfList choice place 0 place]
  rfl

theorem Item.sites_visits (choice : Bool) (place region : Place) (item : Item) :
    Visit.sites (item.visits choice place region) = Mark.sitesOfList item.outline := by
  cases item with
  | decl inner => exact inner.sites_visits place region
  | function name params returns body =>
      exact congrArg (name.declared .function :: ·)
        (sites_routineVisits choice place params body)
  | procedure name params body =>
      exact congrArg (name.declared .procedure :: ·)
        (sites_routineVisits choice place params body)
  | stmt inner => exact inner.sites_visits choice place region

/-- Each site is met once, whether control blocks have scopes or not. -/
theorem Program.sites_visits (choice : Bool) (program : Program) :
    Visit.sites (program.visits choice) = Mark.sitesOfList program.outline := by
  rcases program with ⟨items⟩
  change Visit.sites (Item.visitsOfList choice 0 items) =
    Mark.sitesOfList (items.flatMap Item.outline)
  generalize 0 = index
  induction items generalizing index with
  | nil => rfl
  | cons item items ih =>
      rw [Item.visitsOfList, List.flatMap_cons, Visit.sites_append, Mark.sitesOfList_append,
        item.sites_visits, ih]

end ScopeLint
