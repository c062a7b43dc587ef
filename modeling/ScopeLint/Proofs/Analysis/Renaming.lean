import ScopeLint.Proofs.Analysis.Replay
import ScopeLint.Proofs.Scope.Sorted
import ScopeLint.Proofs.Tree.Relabelling

/-!
Programs under other names and with other lines. All that an analysis asks of a name is whether
it is equal to another one, and of a line it asks nothing. Where different names stay different,
its findings and the symbols that are left are therefore renamed along with the program.
-/

set_option autoImplicit false

namespace ScopeLint

/-- What stands in place of each name and of each line. Two names may not fall together; lines
may. -/
structure Renaming where
  name : String → String
  line : UInt32 → UInt32
  injective : Function.Injective name

namespace Renaming

variable (change : Renaming)

def identifier (node : Identifier) : Identifier :=
  ⟨change.name node.name, change.line node.line⟩

/-- The program with every identifier renamed, the one that a NEXT gives included. -/
def program (program : Program) : Program :=
  program.relabel change.identifier change.identifier

def diagnostic (found : Diagnostic) : Diagnostic :=
  { found with name := change.name found.name, line := change.line found.line }

def declaration (site : Declaration) : Declaration :=
  { site with name := change.name site.name, line := change.line site.line }

def symbol (known : Symbol) : Symbol :=
  ⟨change.declaration known.toDeclaration, known.depth⟩

mutual

def mark : Mark → Mark
  | .site site => .site (change.declaration site)
  | .loop opening closing => .loop (change.identifier opening) (change.identifier closing)
  | .region kind inner => .region kind (marks inner)

def marks : List Mark → List Mark
  | [] => []
  | first :: later => mark first :: marks later

end

/-! ### Outlines of renamed trees -/

theorem marks_append (first later : List Mark) :
    change.marks (first ++ later) = change.marks first ++ change.marks later := by
  induction first with
  | nil => rfl
  | cons mark first ih => rw [List.cons_append, marks, marks, ih, List.cons_append]

theorem marks_map {α : Type} (outline : α → Mark) (items : List α) :
    change.marks (items.map outline) = items.map fun item => change.mark (outline item) := by
  induction items with
  | nil => rfl
  | cons item items ih => rw [List.map_cons, List.map_cons, marks, ih]

theorem literal?_relabel (value : Expr) :
    (value.relabel change.identifier).literal? = value.literal? := by
  cases value <;> rfl

mutual

theorem outline_decl :
    (decl : Decl) →
      (decl.relabel change.identifier).outline = change.marks decl.outline
  | .constant name value => by
      simp only [Decl.relabel, Decl.outline, change.literal?_relabel value]
      rfl
  | .var _ _ => rfl
  | .array _ _ _ => rfl
  | .enumeration name members => by
      simp only [Decl.relabel, Decl.outline, marks, marks_map, List.map_map]
      rfl
  | .record name fields => by
      simp only [Decl.relabel, Decl.outline, marks, mark, outline_decls fields]
      rfl
  | .pointer _ _ => rfl
  | .set _ _ => rfl
  | .setValue _ _ _ => rfl

theorem outline_decls :
    (decls : List Decl) →
      Decl.outlineOfList (Decl.relabelAll change.identifier decls) =
        change.marks (Decl.outlineOfList decls)
  | [] => rfl
  | decl :: decls => by
      rw [Decl.relabelAll, Decl.outlineOfList, Decl.outlineOfList, marks_append,
        outline_decl decl, outline_decls decls]

end

mutual

theorem outline_stmt :
    (stmt : Stmt) →
      (stmt.relabel change.identifier change.identifier).outline =
        change.marks stmt.outline
  | .ifThen _ thenBlock elseBlock => by
      rw [Stmt.relabel, Stmt.outline, Stmt.outline, marks, mark, outline_block thenBlock,
        outline_else elseBlock]
  | .caseOf _ arms => outline_arms arms
  | .forNext _ _ _ _ body _ => by
      rw [Stmt.relabel, Stmt.outline, Stmt.outline, marks, mark, outline_block body]
      rfl
  | .whileDo _ body => by
      rw [Stmt.relabel, Stmt.outline, Stmt.outline, marks, mark, outline_block body]
      rfl
  | .repeatUntil body _ => by
      rw [Stmt.relabel, Stmt.outline, Stmt.outline, marks, mark, outline_block body]
      rfl
  | .assign _ _ => rfl
  | .giveBack _ => rfl
  | .call _ => rfl
  | .input _ => rfl
  | .output _ => rfl
  | .file _ => rfl

theorem outline_arms :
    (arms : List CaseArm) →
      CaseArm.outlineOfList
          (CaseArm.relabelAll change.identifier change.identifier arms) =
        change.marks (CaseArm.outlineOfList arms)
  | [] => rfl
  | ⟨_, _, body⟩ :: arms => by
      rw [CaseArm.relabelAll, CaseArm.outlineOfList, CaseArm.outlineOfList, marks,
        outline_arms arms, CaseArm.relabel, CaseArm.outline, CaseArm.outline, mark,
        outline_block body]

theorem outline_block :
    (block : Block) →
      (block.relabel change.identifier change.identifier).outline =
        change.marks block.outline
  | ⟨items⟩ => outline_items items

theorem outline_else :
    (elseBlock : Option Block) →
      Block.outlineOfElse
          (Block.relabelElse change.identifier change.identifier elseBlock) =
        change.marks (Block.outlineOfElse elseBlock)
  | none => rfl
  | some block => by
      rw [Block.relabelElse, Block.outlineOfElse, Block.outlineOfElse, marks, mark,
        outline_block block]
      rfl

theorem outline_items :
    (items : List BlockItem) →
      BlockItem.outlineOfList
          (BlockItem.relabelAll change.identifier change.identifier items) =
        change.marks (BlockItem.outlineOfList items)
  | [] => rfl
  | .decl decl :: items => by
      rw [BlockItem.relabelAll, BlockItem.outlineOfList, BlockItem.outlineOfList, marks_append,
        outline_items items, BlockItem.relabel, BlockItem.outline, BlockItem.outline,
        change.outline_decl decl]
  | .stmt stmt :: items => by
      rw [BlockItem.relabelAll, BlockItem.outlineOfList, BlockItem.outlineOfList, marks_append,
        outline_items items, BlockItem.relabel, BlockItem.outline, BlockItem.outline,
        outline_stmt stmt]

end

theorem outline_routine (params : Option (List Param)) (body : Block) :
    routineOutline (params.map (List.map (Param.relabel change.identifier)))
        (body.relabel change.identifier change.identifier) =
      change.mark (routineOutline params body) := by
  have sameParams : ((params.map (List.map (Param.relabel change.identifier))).getD []).map
        (fun param => param.name.site .parameter) =
      change.marks ((params.getD []).map fun param => param.name.site .parameter) := by
    rw [marks_map]
    cases params with
    | none => rfl
    | some params => exact List.map_map
  rw [routineOutline, routineOutline, mark, marks_append, sameParams, outline_block]

theorem outline_item (item : Item) :
    (item.relabel change.identifier change.identifier).outline =
      change.marks item.outline := by
  cases item with
  | decl inner => exact change.outline_decl inner
  | function name params returns body =>
      rw [Item.relabel, Item.outline, Item.outline, outline_routine]
      rfl
  | procedure name params body =>
      rw [Item.relabel, Item.outline, Item.outline, outline_routine]
      rfl
  | stmt inner => exact change.outline_stmt inner

theorem outline_program (whole : Program) :
    (change.program whole).outline = change.marks whole.outline := by
  rcases whole with ⟨items⟩
  change (items.map _).flatMap Item.outline = change.marks (items.flatMap Item.outline)
  induction items with
  | nil => rfl
  | cons item items ih =>
      rw [List.map_cons, List.flatMap_cons, List.flatMap_cons, marks_append, ih, outline_item]

/-! ### What is found and what is accepted -/

theorem mem_map_name (name : String) (names : List String) :
    change.name name ∈ names.map change.name ↔ name ∈ names :=
  List.mem_map_of_injective change.injective

mutual

theorem own_mark (settings : Settings) :
    (mark : Mark) →
      (change.mark mark).own settings = (mark.own settings).map change.declaration
  | .site _ => rfl
  | .loop _ _ => rfl
  | .region kind inner => by
      simp only [mark, Mark.own]
      split
      · rfl
      · exact own_marks settings inner

theorem own_marks (settings : Settings) :
    (marks : List Mark) →
      Mark.ownOfList settings (change.marks marks) =
        (Mark.ownOfList settings marks).map change.declaration
  | [] => rfl
  | mark :: marks => by
      simp only [Renaming.marks, Mark.ownOfList, List.map_append]
      rw [own_mark settings mark, own_marks settings marks]

end

theorem ownNames_marks (settings : Settings) (marks : List Mark) :
    Mark.ownNames settings (change.marks marks) =
      (Mark.ownNames settings marks).map change.name := by
  rw [Mark.ownNames, Mark.ownNames, own_marks, List.map_map, List.map_map]
  rfl

mutual

/-- A renamed name is taken where the name was, and a renamed loop agrees with its end where the
loop did. -/
theorem findings_mark (settings : Settings) (seen : List String) :
    (mark : Mark) →
      (change.mark mark).findings settings (seen.map change.name) =
        (mark.findings settings seen).map change.diagnostic
  | .site site => by
      simp only [mark, Mark.findings, declaration, mem_map_name]
      split <;> rfl
  | .loop opening closing => by
      have sameAnswer : change.name opening.name = change.name closing.name ↔
          opening.name = closing.name := change.injective.eq_iff
      simp only [mark, Mark.findings, identifier, sameAnswer]
      split <;> rfl
  | .region kind inner => by
      simp only [mark, Mark.findings]
      split
      · exact findings_marks settings [] inner
      · exact findings_marks settings seen inner

theorem findings_marks (settings : Settings) (seen : List String) :
    (marks : List Mark) →
      Mark.findingsOfList settings (seen.map change.name) (change.marks marks) =
        (Mark.findingsOfList settings seen marks).map change.diagnostic
  | [] => rfl
  | mark :: marks => by
      have names : seen.map change.name ++ Mark.ownNames settings [change.mark mark] =
          (seen ++ Mark.ownNames settings [mark]).map change.name := by
        rw [List.map_append]
        congr 1
        exact change.ownNames_marks settings [mark]
      simp only [Renaming.marks, Mark.findingsOfList, List.map_append]
      rw [names, findings_mark settings seen mark, findings_marks settings _ marks]

end

theorem accepted_map (seen : List String) (sites : List Declaration) :
    Declaration.accepted (seen.map change.name) (sites.map change.declaration) =
      (Declaration.accepted seen sites).map change.declaration := by
  induction sites generalizing seen with
  | nil => rfl
  | cons site later ih =>
      have names : seen.map change.name ++ [(change.declaration site).name] =
          (seen ++ [site.name]).map change.name := by
        rw [List.map_append]
        rfl
      have sameAnswer : (change.declaration site).name ∈ seen.map change.name ↔
          site.name ∈ seen := change.mem_map_name site.name seen
      rw [List.map_cons, Declaration.accepted, Declaration.accepted]
      by_cases taken : site.name ∈ seen
      · rw [if_pos taken, if_pos (sameAnswer.mpr taken), ih]
      · rw [if_neg taken, if_neg (mt sameAnswer.mp taken), names, ih, List.map_cons]

/-- Two names are exchanged, and everything comes to stand on the first line. -/
def exchange (first second : String) : Renaming where
  name found := if found = first then second else if found = second then first else found
  line _ := 1
  injective := by
    intro left right same
    grind

end Renaming

namespace Context

theorem diagnostics_replay_marks (settings : Settings) (change : Renaming)
    (marks : List Mark) :
    ((initial settings).replay (change.marks marks)).diagnostics =
      ((initial settings).replay marks).diagnostics.map change.diagnostic := by
  have renamed := (initial settings).gains_replay (change.marks marks)
  have plain := (initial settings).gains_replay marks
  rw [renamed.diagnostics, plain.diagnostics]
  exact change.findings_marks settings [] marks

theorem globals_replay_marks (settings : Settings) (change : Renaming) (marks : List Mark) :
    ((initial settings).replay (change.marks marks)).scopes.globals.symbols =
      ((initial settings).replay marks).scopes.globals.symbols.map change.symbol := by
  have accepted := change.accepted_map [] (Mark.ownOfList settings marks)
  rw [List.map_nil] at accepted
  simp only [scopes_replay_initial, SymbolTable.symbols_declareAll, change.own_marks]
  change [] ++ (Declaration.accepted [] _).map _ = ([] ++ (Declaration.accepted [] _).map _).map _
  rw [accepted, List.nil_append, List.nil_append, List.map_map, List.map_map]
  rfl

/-- The findings are renamed in their order. The symbols are listed by their lines and names,
so that a renaming may put the same ones in another order. -/
theorem replay_renamed (settings : Settings) (change : Renaming) (program : Program) :
    ((initial settings).perform (.replay (change.program program))).diagnostics =
        ((initial settings).perform (.replay program)).diagnostics.map change.diagnostic ∧
      ((initial settings).perform
          (.replay (change.program program))).scopes.globalSymbols.Perm
        (((initial settings).perform (.replay program)).scopes.globalSymbols.map
          change.symbol) := by
  simp only [perform, change.outline_program]
  refine ⟨diagnostics_replay_marks settings change program.outline, ?_⟩
  have renamedOrder := SymbolTable.sorted_perm
    ((initial settings).replay (change.marks program.outline)).scopes.globals
  have plainOrder := SymbolTable.sorted_perm
    ((initial settings).replay program.outline).scopes.globals
  rw [globals_replay_marks] at renamedOrder
  exact renamedOrder.trans (plainOrder.map change.symbol).symm

/-- A type and a variable, a second declaration of the type, and a loop that is closed by the
other name. -/
def exampleTwice : Program :=
  ⟨[.decl (.set ⟨"a", 1⟩ .char), .decl (.var ⟨"b", 2⟩ .real), .decl (.var ⟨"a", 3⟩ .integer),
    .stmt (.forNext ⟨"a", 4⟩ (.literal (.boolean true)) (.literal (.boolean true)) none ⟨[]⟩
      ⟨"b", 6⟩)]⟩

/-- Both findings are renamed where they stand, and so are the symbols of the type and of the
variable, which come to stand on one line. -/
theorem replay_exchanged :
    ((initial .standard).perform
        (.replay ((Renaming.exchange "a" "b").program exampleTwice))).diagnostics =
      [⟨.alreadyDefined, "b", 1⟩, ⟨.namesDiffer, "a", 1⟩] ∧
    ((initial .standard).perform
        (.replay ((Renaming.exchange "a" "b").program exampleTwice))).scopes.globalSymbols.Perm
      [⟨⟨"b", .type, 1, none⟩, 0⟩, ⟨⟨"a", .var, 1, none⟩, 0⟩] := by
  obtain ⟨found, left⟩ := replay_renamed .standard (Renaming.exchange "a" "b") exampleTwice
  have foundBefore : ((initial .standard).perform (.replay exampleTwice)).diagnostics =
      [⟨.alreadyDefined, "a", 3⟩, ⟨.namesDiffer, "b", 6⟩] := by decide +kernel
  have leftBefore : ((initial .standard).perform (.replay exampleTwice)).scopes.globals.symbols =
      [⟨⟨"a", .type, 1, none⟩, 0⟩, ⟨⟨"b", .var, 2, none⟩, 0⟩] := by decide +kernel
  have listed := SymbolTable.sorted_perm
    ((initial .standard).perform (.replay exampleTwice)).scopes.globals
  rw [foundBefore] at found
  rw [leftBefore] at listed
  refine ⟨found.trans ?_, (left.trans (listed.map _)).trans (.of_eq ?_)⟩
  · decide +kernel
  · decide +kernel

/-- A type and a variable of one line that exchange their names change places in the listing. -/
example :
    let program (first second : String) : Program :=
      ⟨[.decl (.set ⟨first, 1⟩ .char), .decl (.var ⟨second, 1⟩ .real)]⟩
    let listed (first second : String) : List (String × SymbolKind) :=
      ((initial .standard).perform (.replay (program first second))).scopes.globalSymbols.map
        fun symbol => (symbol.name, symbol.kind)
    listed "a" "b" = [("a", .type), ("b", .var)] ∧
      listed "b" "a" = [("a", .var), ("b", .type)] := by
  cbv

end Context

end ScopeLint
