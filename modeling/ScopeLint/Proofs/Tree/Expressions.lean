import ScopeLint.Proofs.Tree.Words

/-!
Expressions are given away by their one-line text. A tag says which kind of node follows, and
the parts between the braces force themselves one after another; only the lines of identifiers
are not to be seen.
-/

set_option autoImplicit false

namespace ScopeLint

mutual

def Expr.plain : Expr → Bool
  | .literal value => value.plain
  | .lvalue target => target.plain
  | .binary _ left right => left.plain && right.plain
  | .unary _ operand => operand.plain
  | .call call => call.plain
  | .pointer _ target => target.plain
  | .eof file => file.plain

def LValue.plain : LValue → Bool
  | ⟨name, indices, member⟩ =>
      isWord name.name && Expr.plainAll indices && member.all isWord

def Call.plain : Call → Bool
  | ⟨callee, arguments⟩ => isWord callee.name && Expr.plainAll arguments

def Expr.plainAll : List Expr → Bool
  | [] => true
  | expr :: exprs => expr.plain && Expr.plainAll exprs

end

/-! ### Tags of expressions -/

def Expr.isLiteral : Expr → Bool
  | .literal _ => true
  | _ => false

def BinaryLevel.tags : List String :=
  ["MulExpOp", "AddExpOp", "RelExpCompare", "EqExpCompare", "LAndExpOp", "LOrExpOp"]

/-- The tags that the text of an expression can begin with; a literal has none. -/
def Expr.tags : Expr → List String
  | .literal _ => []
  | .lvalue _ => ["LVal", "LValArr"]
  | .binary _ _ _ => BinaryLevel.tags
  | .unary _ _ => ["UnaryExpOp"]
  | .call _ => ["FuncCall"]
  | .pointer _ _ => ["PtrOp"]
  | .eof _ => ["EOF"]

theorem Expr.isWord_tag {expr : Expr} : ∀ tag ∈ expr.tags, isWord tag = true := by
  cases expr
  all_goals
    rw [Expr.tags]
    exact List.all_eq_true.mp (by decide)

theorem BinaryLevel.fronted (level : BinaryLevel) (parts : List String) :
    Fronted "" (IsTag [level.tag]) (braced level.tag parts) := by
  cases level
  all_goals exact fronted_braced List.mem_cons_self (by decide) parts

theorem BinaryLevel.tag_mem_tags (level : BinaryLevel) : level.tag ∈ tags := by
  cases level
  all_goals decide

theorem BinaryLevel.tag_injective : Function.Injective BinaryLevel.tag := by
  intro level other same
  cases level
  all_goals
    cases other
    all_goals first | rfl | exact absurd same (by decide)

theorem LValue.fronted_plain (name : Identifier) (member : Option String) :
    Fronted "" (IsTag ["LVal"]) (LValue.mk name [] member).text := by
  cases member with
  | none => exact fronted_braced List.mem_cons_self (by decide) _
  | some member => exact fronted_braced List.mem_cons_self (by decide) _

theorem LValue.fronted_indexed (name : Identifier) (index : Expr) (indices : List Expr)
    (member : Option String) :
    Fronted "" (IsTag ["LValArr"]) (LValue.mk name (index :: indices) member).text := by
  cases member with
  | none => exact fronted_braced List.mem_cons_self (by decide) _
  | some member => exact fronted_braced List.mem_cons_self (by decide) _

theorem LValue.fronted (target : LValue) :
    Fronted "" (IsTag ["LVal", "LValArr"]) target.text := by
  match target with
  | ⟨name, [], member⟩ =>
      exact (fronted_plain name member).imp fun _ isTag => List.mem_append_left _ isTag
  | ⟨name, index :: indices, member⟩ =>
      exact (fronted_indexed name index indices member).imp fun _ => List.mem_cons_of_mem _

/-- What follows the comma in the text of a call. -/
def Call.textAfter : List Expr → List Char
  | [] => ['\x7d']
  | argument :: arguments =>
      (spaced (argument.text :: Expr.texts arguments)).toList ++ [' ', '\x7d']

theorem Call.toList_text (callee : Identifier) (arguments : List Expr) :
    (Call.mk callee arguments).text.toList = ("FuncCall" : String).toList ++
      ' ' :: '\x7b' :: ' ' :: (callee.text.toList ++ ',' :: ' ' :: textAfter arguments) := by
  cases arguments with
  | nil =>
      have opening : ("FuncCall \x7b " : String).toList =
        ("FuncCall" : String).toList ++ [' ', '\x7b', ' '] := by decide
      have closing : (", \x7d" : String).toList = [',', ' ', '\x7d'] := by decide
      simp only [Call.text, String.toList_append, opening, closing, textAfter,
        List.append_assoc, List.cons_append, List.nil_append]
  | cons argument arguments =>
      have opening : (" \x7b " : String).toList = [' ', '\x7b', ' '] := by decide
      have comma : (", " : String).toList = [',', ' '] := by decide
      have closing : (" \x7d" : String).toList = [' ', '\x7d'] := by decide
      simp only [Call.text, braced, joinWith, String.toList_append, opening, comma, closing,
        textAfter, List.append_assoc, List.cons_append, List.nil_append]

theorem Call.fronted (call : Call) : Fronted "" (IsTag ["FuncCall"]) call.text := by
  rcases call with ⟨callee, arguments⟩
  exact ⟨("FuncCall" : String).toList, _, Call.toList_text callee arguments, by decide,
    List.mem_cons_self, .inr ⟨' ', _, rfl, by decide⟩⟩

theorem Expr.fronted {expr : Expr} (tagged : expr.isLiteral = false) :
    Fronted "" (IsTag expr.tags) expr.text := by
  cases expr with
  | literal value => exact nomatch tagged
  | lvalue target => exact target.fronted
  | binary op left right =>
      refine (op.level.fronted [op.spelling, left.text, right.text]).imp fun word isTag => ?_
      rw [IsTag, List.mem_singleton.mp isTag]
      exact op.level.tag_mem_tags
  | unary op operand => exact fronted_braced List.mem_cons_self (by decide) _
  | call call => exact call.fronted
  | pointer op target => exact fronted_braced List.mem_cons_self (by decide) _
  | eof file => exact fronted_braced List.mem_cons_self (by decide) _

/-- Two kinds of expressions with different tags. -/
theorem Expr.forces_of_tags {left right : Expr} {fact : Prop} (taggedLeft : left.isLiteral = false)
    (taggedRight : right.isLiteral = false) (disjoint : ∀ tag ∈ left.tags, tag ∉ right.tags) :
    Forces WordEnds left.text right.text fact :=
  .of_fronts (fronted taggedLeft) (fronted taggedRight) (IsTag.disjoint disjoint)

/-- Letters that are in no literal without quotes; each tag of an expression has one. -/
def tagLetters : List Char :=
  ['V', 'p', 'C', 'O']

/-- A word with which no literal begins. -/
def isMark (word : String) : Bool :=
  word.toList.any tagLetters.contains && word.toList.all fun char => char != '"' && char != '\''

theorem Expr.isMark_tag {expr : Expr} : ∀ tag ∈ expr.tags, isMark tag = true := by
  cases expr
  all_goals
    rw [Expr.tags]
    exact List.all_eq_true.mp (by decide)

theorem Literal.notMem_tagLetters {value : Literal} (plain : value.plain = true)
    (bareword : value.quoted = false) {letter : Char} (isLetter : letter ∈ tagLetters) :
    letter ∉ value.text.toList := by
  intro isMember
  rcases Literal.mem_text plain bareword isMember with rfl | rfl | isDigit | isTrue | isFalse
  · exact absurd isLetter (by decide)
  · exact absurd isLetter (by decide)
  · fin_cases isLetter
    all_goals exact absurd isDigit (by decide)
  · fin_cases isLetter
    all_goals exact absurd isTrue (by decide)
  · fin_cases isLetter
    all_goals exact absurd isFalse (by decide)

theorem Literal.fronted {value : Literal} (plain : value.plain = true)
    (bareword : value.quoted = false) :
    Fronted "" (fun word => word = value.text.toList) value.text :=
  ⟨value.text.toList, [], (List.append_nil _).symm, bare_text plain bareword, rfl, .inl rfl⟩

/-- The quote that a literal begins with. -/
theorem Literal.exists_quote {value : Literal} (quoted : value.quoted = true) :
    ∃ quote, isBare quote = true ∧ (quote = '"' ∨ quote = '\'') ∧
      value.text.toList.head? = some quote := by
  cases value with
  | string value => exact ⟨'"', by decide, .inl rfl, by rw [toList_text_string]; rfl⟩
  | char value => exact ⟨'\'', by decide, .inr rfl, by rw [toList_text_char]; rfl⟩
  | _ => exact nomatch quoted

theorem Expr.startsItem {expr : Expr} (plain : expr.plain = true) : StartsItem expr.text := by
  by_cases tagged : expr.isLiteral = false
  · exact (Expr.fronted tagged).startsItem fun word isTag => isWord_tag _ isTag
  · cases expr with
    | literal value => exact Literal.startsItem plain
    | _ => exact absurd rfl tagged

theorem Literal.forces_of_mark {value : Literal} {text : String} {front : List Char → Prop}
    {fact : Prop} (plain : value.plain = true) (fronted : Fronted "" front text)
    (marks : ∀ word, front word → isMark (String.ofList word) = true) :
    Forces WordEnds value.text text fact := by
  have mark {word : List Char} (isFront : front word) :
      (∃ letter ∈ word, letter ∈ tagLetters) ∧ ∀ char ∈ word, char ≠ '"' ∧ char ≠ '\'' := by
    have isMark := marks word isFront
    rw [ScopeLint.isMark, Bool.and_eq_true, String.toList_ofList, List.any_eq_true] at isMark
    simpa using isMark
  by_cases bareword : value.quoted = false
  · refine .of_fronts (Literal.fronted plain bareword) fronted ?_
    rintro word rfl isFront
    obtain ⟨letter, isMember, isLetter⟩ := (mark isFront).1
    exact Literal.notMem_tagLetters plain bareword isLetter isMember
  · obtain ⟨quote, bare, isQuote, isFirst⟩ := Literal.exists_quote (Bool.not_eq_false _ ▸ bareword)
    refine .of_fronts (fronted_of_head? isFirst bare) fronted fun word isHead isFront => ?_
    have noQuote := (mark isFront).2 quote (List.mem_of_head? isHead)
    exact isQuote.elim noQuote.1 noQuote.2

theorem Expr.forces_of_literal {value : Literal} {expr : Expr} {fact : Prop}
    (plain : value.plain = true) (tagged : expr.isLiteral = false) :
    Forces WordEnds value.text expr.text fact :=
  Literal.forces_of_mark plain (fronted tagged) fun _ => isMark_tag _

/-- A word that is a mark but no tag cannot be read as an expression. -/
theorem Expr.forces_of_word {expr : Expr} {word : String} {fact : Prop}
    (plain : expr.plain = true) (bare : Bare word.toList) (mark : isMark word = true)
    (noTag : ∀ tag ∈ expr.tags, tag ∉ [word]) : Forces WordEnds expr.text word fact := by
  have fronted : Fronted "" (IsTag [word]) word := fronted_word List.mem_cons_self bare
  by_cases tagged : expr.isLiteral = false
  · exact .of_fronts (Expr.fronted tagged) fronted (IsTag.disjoint noTag)
  · cases expr with
    | literal value =>
        exact Literal.forces_of_mark plain fronted fun other isTag =>
          (List.mem_singleton.mp isTag).symm ▸ mark
    | _ => exact absurd rfl tagged

/-! ### Forcing expressions -/

/-- Operators of different levels have different tags. -/
theorem BinaryOp.forces_of_operands {op op' : BinaryOp} {first first' second second' : String}
    {fact fact' : Prop} (firstForces : Forces WordEnds first first' fact)
    (secondForces : Forces WordEnds second second' fact') :
    Forces WordEnds (braced op.level.tag [op.spelling, first, second])
      (braced op'.level.tag [op'.spelling, first', second']) (op = op' ∧ fact ∧ fact') := by
  by_cases sameLevel : op.level = op'.level
  · rw [sameLevel]
    exact .braced _ (.cons (op.forces op').part (.cons firstForces.part (.last secondForces.part)))
  · refine .of_fronts (op.level.fronted _) (op'.level.fronted _) fun word isTag isOther => ?_
    have sameTag := (List.mem_singleton.mp isTag).symm.trans (List.mem_singleton.mp isOther)
    exact sameLevel (BinaryLevel.tag_injective sameTag)

theorem PartEnds.ne_point {text rest : List Char} (ends : PartEnds text) :
    text ≠ ' ' :: '.' :: rest := by
  rcases ends with ⟨others, rfl⟩ | ⟨others, rfl⟩
  · exact fun same => absurd (List.cons.inj same).1 (by decide)
  · exact fun same => absurd (List.cons.inj (List.cons.inj same).2).1 (by decide)

theorem forces_member_of_none {lefts rights : List String} {fact fact' : Prop}
    (items : ForcedItems lefts rights fact) (member : String) :
    Forces PartEnds (spaced lefts) (spaced rights ++ " ." ++ member) fact' := by
  intro r s endsLeft _ same
  have point : (" ." : String).toList = [' ', '.'] := by decide
  simp only [String.toList_append, point, List.append_assoc, List.cons_append,
    List.nil_append] at same
  exact absurd (items.spaced r _ (.inl endsLeft) (.inr ⟨_, rfl⟩) same).2 endsLeft.ne_point

/-- The list of indices and the member that may follow it. -/
theorem forces_indices {lefts rights : List String} {fact : Prop}
    (items : ForcedItems lefts rights fact) {member member' : String}
    (wordMember : isWord member = true) (wordMember' : isWord member' = true) :
    Forces PartEnds (spaced lefts ++ " ." ++ member) (spaced rights ++ " ." ++ member')
      (fact ∧ member = member') := by
  intro r s endsLeft endsRight same
  have point : (" ." : String).toList = [' ', '.'] := by decide
  simp only [String.toList_append, point, List.append_assoc, List.cons_append,
    List.nil_append] at same
  have itemsSame := items.spaced _ _ (.inr ⟨_, rfl⟩) (.inr ⟨_, rfl⟩) same
  simp only [List.cons.injEq, true_and] at itemsSame
  have memberSame := forces_word wordMember wordMember' r s endsLeft.wordEnds
    endsRight.wordEnds itemsSame.2
  exact ⟨⟨itemsSame.1, memberSame.1⟩, memberSame.2⟩

section LValue

variable {name name' : Identifier} {member member' : Option String}
variable (wordName : isWord name.name = true) (wordName' : isWord name'.name = true)
variable (wordMember : member.all isWord = true) (wordMember' : member'.all isWord = true)

include wordName wordName' wordMember wordMember'

theorem LValue.forces_plain :
    Forces WordEnds (LValue.mk name [] member).text (LValue.mk name' [] member').text
      (name.unlined = name'.unlined ∧ member = member') := by
  have nameForces := Identifier.forces wordName wordName'
  cases member with
  | none =>
      cases member' with
      | none => exact (Forces.braced "LVal" (.last nameForces.part)).imp fun same => ⟨same, rfl⟩
      | some member' =>
          refine .braced "LVal" (.last (Forces.part ?_))
          exact (Forces.word (bare_of_isWord wordName) (bare_member wordName' wordMember')).imp
            fun same => absurd same (append_point_ne wordName)
  | some member =>
      cases member' with
      | none =>
          refine .braced "LVal" (.last (Forces.part ?_))
          exact (Forces.word (bare_member wordName wordMember) (bare_of_isWord wordName')).imp
            fun same => absurd same.symm (append_point_ne wordName')
      | some member' =>
          refine (Forces.braced "LVal"
            (.last (forces_member wordName wordName' wordMember wordMember').part)).imp ?_
          rintro ⟨sameName, sameMember⟩
          exact ⟨Identifier.unlined_eq sameName, congrArg some sameMember⟩

theorem LValue.forces_indexed {index index' : Expr} {indices indices' : List Expr} {fact : Prop}
    (items : ForcedItems (Expr.texts (index :: indices)) (Expr.texts (index' :: indices')) fact) :
    Forces WordEnds (LValue.mk name (index :: indices) member).text
      (LValue.mk name' (index' :: indices') member').text
      (name.unlined = name'.unlined ∧ fact ∧ member = member') := by
  have nameForces := Identifier.forces wordName wordName'
  cases member with
  | none =>
      cases member' with
      | none =>
          refine (Forces.braced "LValArr"
            (.cons nameForces.part (.last items.spaced.items))).imp ?_
          exact fun same => ⟨same.1, same.2, rfl⟩
      | some member' =>
          exact .braced "LValArr"
            (.cons nameForces.part (.last (forces_member_of_none items member')))
  | some member =>
      cases member' with
      | none =>
          exact Forces.symm <| .braced "LValArr"
            (.cons nameForces.symm.part (.last (forces_member_of_none items.symm member)))
      | some member' =>
          refine (Forces.braced "LValArr" (.cons nameForces.part
            (.last (forces_indices items wordMember wordMember')))).imp ?_
          exact fun same => ⟨same.1, same.2.1, congrArg some same.2.2⟩

theorem LValue.forces_of_items {indices indices' : List Expr} {fact : Prop}
    (items : ForcedItems (Expr.texts indices) (Expr.texts indices') fact) :
    Forces WordEnds (LValue.mk name indices member).text (LValue.mk name' indices' member').text
      (name.unlined = name'.unlined ∧ fact ∧ member = member') := by
  cases indices with
  | nil =>
      cases indices' with
      | nil =>
          cases items with
          | nil holds =>
              refine (LValue.forces_plain wordName wordName' wordMember wordMember').imp ?_
              exact fun same => ⟨same.1, holds, same.2⟩
      | cons index' indices' =>
          exact .of_fronts (fronted_plain name member)
            (fronted_indexed name' index' indices' member') (IsTag.disjoint (by decide))
  | cons index indices =>
      cases indices' with
      | nil =>
          exact .of_fronts (fronted_indexed name index indices member)
            (fronted_plain name' member') (IsTag.disjoint (by decide))
      | cons index' indices' =>
          exact LValue.forces_indexed wordName wordName' wordMember wordMember' items

end LValue

theorem Call.textAfter_ne {argument : Expr} {arguments : List Expr} {r s : List Char}
    (starts : StartsItem argument.text) :
    '\x7d' :: r ≠ Call.textAfter (argument :: arguments) ++ s := by
  rcases starts with ⟨char, isFirst, _, notBrace, _⟩
  obtain ⟨others, isText⟩ := List.head?_eq_some_iff.mp isFirst
  rw [Call.textAfter, toList_spaced, isText]
  exact fun same => notBrace (List.cons.inj same).1.symm

theorem Call.forces_of_items {callee callee' : Identifier} {arguments arguments' : List Expr}
    {fact : Prop} (wordCallee : isWord callee.name = true)
    (wordCallee' : isWord callee'.name = true)
    (items : ForcedItems (Expr.texts arguments) (Expr.texts arguments') fact) :
    Forces WordEnds (Call.mk callee arguments).text (Call.mk callee' arguments').text
      (callee.unlined = callee'.unlined ∧ fact) := by
  intro r s _ _ same
  simp only [Call.toList_text, List.append_assoc, List.cons_append] at same
  replace same := List.append_cancel_left same
  simp only [List.cons.injEq, true_and] at same
  have calleeSame := Identifier.forces wordCallee wordCallee' _ _ ⟨',', _, rfl, by decide⟩
    ⟨',', _, rfl, by decide⟩ same
  refine and_assoc.mpr ⟨calleeSame.1, ?_⟩
  have sameAfter : textAfter arguments ++ r = textAfter arguments' ++ s :=
    (List.cons.inj (List.cons.inj calleeSame.2).2).2
  cases arguments with
  | nil =>
      cases arguments' with
      | nil =>
          cases items with
          | nil holds => exact ⟨holds, (List.cons.inj sameAfter).2⟩
      | cons argument' arguments' =>
          cases items with
          | shorter starts => exact absurd sameAfter (textAfter_ne starts)
  | cons argument arguments =>
      cases arguments' with
      | nil =>
          cases items with
          | longer starts => exact absurd sameAfter.symm (textAfter_ne starts)
      | cons argument' arguments' =>
          simp only [textAfter, List.append_assoc, List.cons_append, List.nil_append] at sameAfter
          have itemsSame := items.spaced _ _ (.inl (.inr ⟨r, rfl⟩)) (.inl (.inr ⟨s, rfl⟩)) sameAfter
          simp only [List.cons.injEq, true_and] at itemsSame
          exact itemsSame

mutual

theorem Expr.forces (left right : Expr) (plainLeft : left.plain = true)
    (plainRight : right.plain = true) :
    Forces WordEnds left.text right.text (left.relabel .unlined = right.relabel .unlined) := by
  cases left with
  | literal value =>
      cases right with
      | literal other =>
          exact (Literal.forces plainLeft plainRight).imp fun same => by
            simp only [Expr.relabel, same]
      | _ => exact Expr.forces_of_literal plainLeft rfl
  | lvalue target =>
      cases right with
      | lvalue other =>
          exact (LValue.forces target other plainLeft plainRight).imp fun same => by
            simp only [Expr.relabel, same]
      | literal other => exact Forces.symm (Expr.forces_of_literal plainRight rfl)
      | _ => exact Expr.forces_of_tags rfl rfl (by simp [Expr.tags, BinaryLevel.tags])
  | binary op first second =>
      cases right with
      | binary op' first' second' =>
          rw [Expr.plain, Bool.and_eq_true] at plainLeft plainRight
          refine (BinaryOp.forces_of_operands
            (Expr.forces first first' plainLeft.1 plainRight.1)
            (Expr.forces second second' plainLeft.2 plainRight.2)).imp ?_
          rintro ⟨sameOp, sameFirst, sameSecond⟩
          simp only [Expr.relabel, sameOp, sameFirst, sameSecond]
      | literal other => exact Forces.symm (Expr.forces_of_literal plainRight rfl)
      | _ => exact Expr.forces_of_tags rfl rfl (by simp [Expr.tags, BinaryLevel.tags])
  | unary op operand =>
      cases right with
      | unary op' operand' =>
          refine (Forces.braced "UnaryExpOp" (.cons (op.forces op').part
            (.last (Expr.forces operand operand' plainLeft plainRight).part))).imp ?_
          rintro ⟨sameOp, sameOperand⟩
          simp only [Expr.relabel, sameOp, sameOperand]
      | literal other => exact Forces.symm (Expr.forces_of_literal plainRight rfl)
      | _ => exact Expr.forces_of_tags rfl rfl (by simp [Expr.tags, BinaryLevel.tags])
  | call call =>
      cases right with
      | call other =>
          exact (Call.forces call other plainLeft plainRight).imp fun same => by
            simp only [Expr.relabel, same]
      | literal other => exact Forces.symm (Expr.forces_of_literal plainRight rfl)
      | _ => exact Expr.forces_of_tags rfl rfl (by simp [Expr.tags, BinaryLevel.tags])
  | pointer op target =>
      cases right with
      | pointer op' target' =>
          refine (Forces.braced "PtrOp" (.cons (op.forces op').part
            (.last (LValue.forces target target' plainLeft plainRight).part))).imp ?_
          rintro ⟨sameOp, sameTarget⟩
          simp only [Expr.relabel, sameOp, sameTarget]
      | literal other => exact Forces.symm (Expr.forces_of_literal plainRight rfl)
      | _ => exact Expr.forces_of_tags rfl rfl (by simp [Expr.tags, BinaryLevel.tags])
  | eof file =>
      cases right with
      | eof other =>
          refine (Forces.braced "EOF"
            (.last (Expr.forces file other plainLeft plainRight).part)).imp ?_
          intro sameFile
          simp only [Expr.relabel, sameFile]
      | literal other => exact Forces.symm (Expr.forces_of_literal plainRight rfl)
      | _ => exact Expr.forces_of_tags rfl rfl (by simp [Expr.tags, BinaryLevel.tags])
termination_by structural left

theorem LValue.forces (left right : LValue) (plainLeft : left.plain = true)
    (plainRight : right.plain = true) :
    Forces WordEnds left.text right.text (left.relabel .unlined = right.relabel .unlined) := by
  rcases left with ⟨name, indices, member⟩
  rcases right with ⟨name', indices', member'⟩
  rw [LValue.plain, Bool.and_eq_true, Bool.and_eq_true] at plainLeft plainRight
  refine (LValue.forces_of_items plainLeft.1.1 plainRight.1.1 plainLeft.2 plainRight.2
    (Expr.forcedItems indices indices' plainLeft.1.2 plainRight.1.2)).imp ?_
  rintro ⟨sameName, sameIndices, sameMember⟩
  simp only [LValue.relabel, sameName, sameIndices, sameMember]
termination_by structural left

theorem Call.forces (left right : Call) (plainLeft : left.plain = true)
    (plainRight : right.plain = true) :
    Forces WordEnds left.text right.text (left.relabel .unlined = right.relabel .unlined) := by
  rcases left with ⟨callee, arguments⟩
  rcases right with ⟨callee', arguments'⟩
  rw [Call.plain, Bool.and_eq_true] at plainLeft plainRight
  refine (Call.forces_of_items plainLeft.1 plainRight.1
    (Expr.forcedItems arguments arguments' plainLeft.2 plainRight.2)).imp ?_
  rintro ⟨sameCallee, sameArguments⟩
  simp only [Call.relabel, sameCallee, sameArguments]
termination_by structural left

theorem Expr.forcedItems (lefts rights : List Expr) (plainLefts : Expr.plainAll lefts = true)
    (plainRights : Expr.plainAll rights = true) :
    ForcedItems (Expr.texts lefts) (Expr.texts rights)
      (Expr.relabelAll .unlined lefts = Expr.relabelAll .unlined rights) := by
  cases lefts with
  | nil =>
      cases rights with
      | nil => exact .nil rfl
      | cons right rights =>
          rw [Expr.plainAll, Bool.and_eq_true] at plainRights
          exact .shorter (Expr.startsItem plainRights.1)
  | cons left lefts =>
      rw [Expr.plainAll, Bool.and_eq_true] at plainLefts
      cases rights with
      | nil => exact .longer (Expr.startsItem plainLefts.1)
      | cons right rights =>
          rw [Expr.plainAll, Bool.and_eq_true] at plainRights
          refine .cons (Expr.forces left right plainLefts.1 plainRights.1)
            (Expr.forcedItems lefts rights plainLefts.2 plainRights.2) fun same sameRest => ?_
          simp only [Expr.relabelAll, same, sameRest]
termination_by structural lefts

end

end ScopeLint
