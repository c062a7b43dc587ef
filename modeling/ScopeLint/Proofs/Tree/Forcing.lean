import Mathlib.Data.List.Basic
import Mathlib.Tactic.Common
import ScopeLint.Tree.Dump

/-!
Texts that give away what they are the text of. Two texts force a fact if they can be continued
to the same characters only where the fact holds, and then only by the same continuation. From
the pieces of a text the fact is passed on to the whole.
-/

set_option autoImplicit false

namespace ScopeLint

/-- Two texts that agree, each followed by something that may follow it, agree because of a
fact, and the same follows both. -/
def Forces (ends : List Char → Prop) (left right : String) (fact : Prop) : Prop :=
  ∀ afterLeft afterRight, ends afterLeft → ends afterRight →
    left.toList ++ afterLeft = right.toList ++ afterRight → fact ∧ afterLeft = afterRight

/-- A character that can stand in a word: no blank, comma or newline. -/
def isBare (char : Char) : Bool :=
  char != ' ' && char != ',' && char != '\n'

/-- What follows a word. -/
def WordEnds (text : List Char) : Prop :=
  ∃ char rest, text = char :: rest ∧ isBare char = false

/-- What follows a part of a node: a comma or the closing brace. -/
def PartEnds (text : List Char) : Prop :=
  (∃ rest, text = ',' :: rest) ∨ ∃ rest, text = ' ' :: '\x7d' :: rest

/-- What follows a list of items: a member may, besides what follows any part. -/
def ItemsEnd (text : List Char) : Prop :=
  PartEnds text ∨ ∃ rest, text = ' ' :: '.' :: rest

/-- What follows a line. -/
def LineEnds (text : List Char) : Prop :=
  ∃ rest, text = '\n' :: rest

theorem PartEnds.wordEnds {text : List Char} (ends : PartEnds text) : WordEnds text := by
  rcases ends with ⟨rest, rfl⟩ | ⟨rest, rfl⟩
  · exact ⟨',', rest, rfl, by decide⟩
  · exact ⟨' ', '\x7d' :: rest, rfl, by decide⟩

theorem ItemsEnd.wordEnds {text : List Char} (ends : ItemsEnd text) : WordEnds text := by
  rcases ends with ends | ⟨rest, rfl⟩
  · exact ends.wordEnds
  · exact ⟨' ', '.' :: rest, rfl, by decide⟩

theorem LineEnds.wordEnds {text : List Char} (ends : LineEnds text) : WordEnds text := by
  rcases ends with ⟨rest, rfl⟩
  exact ⟨'\n', rest, rfl, by decide⟩

section Forces

variable {ends : List Char → Prop} {left right : String} {fact : Prop}

theorem Forces.imp {conclusion : Prop} (forces : Forces ends left right fact)
    (implies : fact → conclusion) : Forces ends left right conclusion :=
  fun r s endsLeft endsRight same => (forces r s endsLeft endsRight same).imp_left implies

theorem Forces.mono {fewer : List Char → Prop} (forces : Forces ends left right fact)
    (among : ∀ text, fewer text → ends text) : Forces fewer left right fact :=
  fun r s endsLeft endsRight => forces r s (among r endsLeft) (among s endsRight)

theorem Forces.symm (forces : Forces ends left right fact) : Forces ends right left fact :=
  fun r s endsLeft endsRight same =>
    (forces s r endsRight endsLeft same.symm).imp_right Eq.symm

theorem Forces.part (forces : Forces WordEnds left right fact) :
    Forces PartEnds left right fact :=
  forces.mono fun _ => PartEnds.wordEnds

theorem Forces.line (forces : Forces WordEnds left right fact) :
    Forces LineEnds left right fact :=
  forces.mono fun _ => LineEnds.wordEnds

theorem Forces.self {text : String} : Forces ends text text True :=
  fun _ _ _ _ same => ⟨trivial, List.append_cancel_left same⟩

theorem Forces.indented (indent : String) (forces : Forces ends left right fact) :
    Forces ends (indent ++ left) (indent ++ right) fact := by
  intro r s endsLeft endsRight same
  simp only [String.toList_append, List.append_assoc] at same
  exact forces r s endsLeft endsRight (List.append_cancel_left same)

/-- Texts that begin with different characters cannot agree. -/
theorem Forces.of_head?_ne (first other : Char) (isFirst : left.toList.head? = some first)
    (isOther : right.toList.head? = some other) (differ : first ≠ other) :
    Forces ends left right fact := by
  intro r s _ _ same
  obtain ⟨lefts, isLeft⟩ := List.head?_eq_some_iff.mp isFirst
  obtain ⟨rights, isRight⟩ := List.head?_eq_some_iff.mp isOther
  rw [isLeft, isRight, List.cons_append, List.cons_append] at same
  exact absurd (List.cons.inj same).1 differ

end Forces

/-- The first occurrence of a mark divides a text in one way. -/
theorem eq_of_append_mark_eq {mark : Char} {left right r s : List Char} (noLeft : mark ∉ left)
    (noRight : mark ∉ right) (same : left ++ mark :: r = right ++ mark :: s) :
    left = right ∧ r = s := by
  induction left generalizing right with
  | nil =>
      cases right with
      | nil => exact ⟨rfl, (List.cons.inj same).2⟩
      | cons char right =>
          rw [(List.cons.inj same).1] at noRight
          exact absurd List.mem_cons_self noRight
  | cons first left ih =>
      cases right with
      | nil =>
          rw [(List.cons.inj same).1] at noLeft
          exact absurd List.mem_cons_self noLeft
      | cons char right =>
          rw [List.mem_cons, not_or] at noLeft noRight
          rcases List.cons.inj same with ⟨rfl, sameRest⟩
          rcases ih noLeft.2 noRight.2 sameRest with ⟨rfl, rest⟩
          exact ⟨rfl, rest⟩

/-! ### Words -/

abbrev Bare (text : List Char) : Prop :=
  text.all isBare = true

theorem WordEnds.takeWhile_append {word rest : List Char} (bare : Bare word)
    (ends : WordEnds rest) : (word ++ rest).takeWhile isBare = word := by
  rcases ends with ⟨char, rest, rfl, notBare⟩
  rw [List.takeWhile_append_of_pos (List.all_eq_true.mp bare), List.takeWhile_cons, notBare]
  exact List.append_nil word

theorem eq_of_append_eq {left right r s : List Char} (bareLeft : Bare left)
    (bareRight : Bare right) (endsLeft : WordEnds r) (endsRight : WordEnds s)
    (same : left ++ r = right ++ s) : left = right ∧ r = s := by
  have sameWord := congrArg (List.takeWhile isBare) same
  rw [endsLeft.takeWhile_append bareLeft, endsRight.takeWhile_append bareRight] at sameWord
  rw [sameWord] at same
  exact ⟨sameWord, List.append_cancel_left same⟩

theorem Forces.word {left right : String} (bareLeft : Bare left.toList)
    (bareRight : Bare right.toList) : Forces WordEnds left right (left = right) :=
  fun _ _ endsLeft endsRight same =>
    (eq_of_append_eq bareLeft bareRight endsLeft endsRight same).imp_left String.toList_inj.mp

/-- After an indentation a text begins with a word for which a property holds, and nothing but
the word is bare there. -/
def Fronted (indent : String) (front : List Char → Prop) (text : String) : Prop :=
  ∃ word rest, text.toList = indent.toList ++ (word ++ rest) ∧ Bare word ∧ front word ∧
    (rest = [] ∨ WordEnds rest)

theorem Fronted.append_ends {rest after : List Char} (whole : rest = [] ∨ WordEnds rest)
    (ends : WordEnds after) : WordEnds (rest ++ after) := by
  rcases whole with rfl | ⟨char, rest, rfl, notBare⟩
  · exact ends
  · exact ⟨char, rest ++ after, rfl, notBare⟩

/-- Texts that begin with different words cannot agree. -/
theorem Forces.of_fronts {indent left right : String} {front other : List Char → Prop}
    {fact : Prop} (fronted : Fronted indent front left) (fronted' : Fronted indent other right)
    (apart : ∀ word, front word → ¬other word) : Forces WordEnds left right fact := by
  intro r s endsLeft endsRight same
  rcases fronted with ⟨word, rest, isLeft, bare, isFront, whole⟩
  rcases fronted' with ⟨word', rest', isRight, bare', isOther, whole'⟩
  simp only [isLeft, isRight, List.append_assoc] at same
  have sameWord := eq_of_append_eq bare bare' (Fronted.append_ends whole endsLeft)
    (Fronted.append_ends whole' endsRight) (List.append_cancel_left same)
  rw [sameWord.1] at isFront
  exact absurd isOther (apart word' isFront)

theorem Fronted.imp {indent text : String} {front weaker : List Char → Prop}
    (fronted : Fronted indent front text) (implies : ∀ word, front word → weaker word) :
    Fronted indent weaker text := by
  rcases fronted with ⟨word, rest, isText, bare, isFront, whole⟩
  exact ⟨word, rest, isText, bare, implies word isFront, whole⟩

theorem Fronted.indented {indent text : String} {front : List Char → Prop}
    (fronted : Fronted "" front text) : Fronted indent front (indent ++ text) := by
  rcases fronted with ⟨word, rest, isText, bare, isFront, whole⟩
  refine ⟨word, rest, ?_, bare, isFront, whole⟩
  rw [String.toList_append, isText]
  rfl

/-- The words that texts of a node begin with. -/
def IsTag (tags : List String) (word : List Char) : Prop :=
  String.ofList word ∈ tags

theorem IsTag.disjoint {tags others : List String} (disjoint : ∀ tag ∈ tags, tag ∉ others)
    (word : List Char) (isTag : IsTag tags word) : ¬IsTag others word :=
  disjoint _ isTag

theorem fronted_word {tags : List String} {tag : String} (isTag : tag ∈ tags)
    (bare : Bare tag.toList) : Fronted "" (IsTag tags) tag := by
  refine ⟨tag.toList, [], ?_, bare, ?_, .inl rfl⟩
  · rw [List.append_nil]
    rfl
  · rw [IsTag, String.ofList_toList]
    exact isTag

theorem fronted_append {tags : List String} {tag rest : String} (isTag : tag ∈ tags)
    (bare : Bare tag.toList) (ends : WordEnds rest.toList) :
    Fronted "" (IsTag tags) (tag ++ rest) := by
  refine ⟨tag.toList, rest.toList, ?_, bare, ?_, .inr ends⟩
  · rw [String.toList_append]
    rfl
  · rw [IsTag, String.ofList_toList]
    exact isTag

theorem fronted_of_head? {text : String} {first : Char} (isFirst : text.toList.head? = some first)
    (bare : isBare first = true) :
    Fronted "" (fun word => word.head? = some first) text := by
  obtain ⟨others, isText⟩ := List.head?_eq_some_iff.mp isFirst
  refine ⟨text.toList.takeWhile isBare, text.toList.dropWhile isBare, ?_, ?_, ?_, ?_⟩
  · rw [List.takeWhile_append_dropWhile]
    rfl
  · exact List.all_takeWhile
  · rw [isText, List.takeWhile_cons_of_pos bare]
    rfl
  · cases isRest : text.toList.dropWhile isBare with
    | nil => exact .inl rfl
    | cons char rest =>
        have notBare := List.head?_dropWhile_not isBare text.toList
        rw [isRest] at notBare
        exact .inr ⟨char, rest, rfl, by simpa using notBare⟩

/-! ### Nodes on one line -/

/-- Parts of two nodes, one against one, that force facts. -/
inductive ForcedParts : List String → List String → Prop → Prop where
  | last {left right : String} {fact : Prop} (part : Forces PartEnds left right fact) :
      ForcedParts [left] [right] fact
  | cons {left right : String} {fact : Prop} {lefts rights : List String} {facts : Prop}
      (part : Forces PartEnds left right fact) (parts : ForcedParts lefts rights facts) :
      ForcedParts (left :: lefts) (right :: rights) (fact ∧ facts)

theorem ForcedParts.ne_nil {lefts rights : List String} {facts : Prop}
    (forced : ForcedParts lefts rights facts) : lefts ≠ [] ∧ rights ≠ [] := by
  cases forced with
  | last _ => exact ⟨List.cons_ne_nil _ _, List.cons_ne_nil _ _⟩
  | cons _ _ => exact ⟨List.cons_ne_nil _ _, List.cons_ne_nil _ _⟩

theorem ForcedParts.joined {lefts rights : List String} {facts : Prop}
    (forced : ForcedParts lefts rights facts) {r s : List Char} (endsLeft : PartEnds r)
    (endsRight : PartEnds s)
    (same : (joinWith ", " lefts).toList ++ r = (joinWith ", " rights).toList ++ s) :
    facts ∧ r = s := by
  induction forced with
  | last part => exact part r s endsLeft endsRight same
  | cons part parts ih =>
      have comma : (", " : String).toList = [',', ' '] := by decide
      rw [joinWith_cons parts.ne_nil.1, joinWith_cons parts.ne_nil.2] at same
      simp only [String.toList_append, List.append_assoc, comma, List.cons_append,
        List.nil_append] at same
      have partSame := part _ _ (.inl ⟨_, rfl⟩) (.inl ⟨_, rfl⟩) same
      simp only [List.cons.injEq, true_and] at partSame
      have partsSame := ih partSame.2
      exact ⟨⟨partSame.1, partsSame.1⟩, partsSame.2⟩

theorem Forces.braced {ends : List Char → Prop} {lefts rights : List String} {facts : Prop}
    (tag : String) (forced : ForcedParts lefts rights facts) :
    Forces ends (braced tag lefts) (braced tag rights) facts := by
  intro r s _ _ same
  have closing : (" \x7d" : String).toList = [' ', '\x7d'] := by decide
  simp only [ScopeLint.braced, String.toList_append, List.append_assoc, closing,
    List.cons_append, List.nil_append] at same
  have partsSame := forced.joined (.inr ⟨r, rfl⟩) (.inr ⟨s, rfl⟩)
    (List.append_cancel_left (List.append_cancel_left same))
  simp only [List.cons.injEq, true_and] at partsSame
  exact partsSame

theorem fronted_braced {tags : List String} {tag : String} (isTag : tag ∈ tags)
    (bare : Bare tag.toList) (parts : List String) :
    Fronted "" (IsTag tags) (braced tag parts) := by
  have opening : (" \x7b " : String).toList = [' ', '\x7b', ' '] := by decide
  rw [braced, String.append_assoc, String.append_assoc]
  refine fronted_append isTag bare ?_
  rw [String.toList_append, opening]
  exact ⟨' ', _, rfl, by decide⟩

/-! ### Lists of items -/

/-- The first character of an item, by which it is told from what follows a list. -/
def StartsItem (text : String) : Prop :=
  ∃ char, text.toList.head? = some char ∧ isBare char = true ∧ char ≠ '\x7d' ∧ char ≠ '.'

/-- Items of two lists, one against one, that force facts. Where one list is longer, the next
item alone tells the lists apart. -/
inductive ForcedItems : List String → List String → Prop → Prop where
  | nil {fact : Prop} (holds : fact) : ForcedItems [] [] fact
  | cons {left right : String} {fact : Prop} {lefts rights : List String} {facts whole : Prop}
      (item : Forces WordEnds left right fact) (items : ForcedItems lefts rights facts)
      (implies : fact → facts → whole) : ForcedItems (left :: lefts) (right :: rights) whole
  | longer {left : String} {lefts : List String} {fact : Prop} (starts : StartsItem left) :
      ForcedItems (left :: lefts) [] fact
  | shorter {right : String} {rights : List String} {fact : Prop} (starts : StartsItem right) :
      ForcedItems [] (right :: rights) fact

theorem ForcedItems.symm {lefts rights : List String} {fact : Prop}
    (forced : ForcedItems lefts rights fact) : ForcedItems rights lefts fact := by
  induction forced with
  | nil holds => exact .nil holds
  | cons item items implies ih => exact .cons item.symm ih implies
  | longer starts => exact .shorter starts
  | shorter starts => exact .longer starts

/-- The items of a list after its first one. -/
def itemsAfter (texts : List String) : List Char :=
  texts.flatMap fun text => ' ' :: text.toList

theorem toList_spaced (text : String) (texts : List String) :
    (spaced (text :: texts)).toList = text.toList ++ itemsAfter texts := by
  induction texts generalizing text with
  | nil => exact (List.append_nil _).symm
  | cons next texts ih =>
      have blank : (" " : String).toList = [' '] := by decide
      have nextItems := ih next
      rw [spaced] at nextItems ⊢
      rw [joinWith_cons (List.cons_ne_nil _ _)]
      simp only [String.toList_append, blank, nextItems, itemsAfter, List.flatMap_cons,
        List.append_assoc, List.cons_append, List.nil_append]

theorem wordEnds_itemsAfter (texts : List String) {rest : List Char} (ends : ItemsEnd rest) :
    WordEnds (itemsAfter texts ++ rest) := by
  cases texts with
  | nil => exact ends.wordEnds
  | cons text texts => exact ⟨' ', _, rfl, by decide⟩

/-- What follows a list is not one more item. -/
theorem ItemsEnd.ne_item {text : String} {rest after : List Char} (starts : StartsItem text)
    (ends : ItemsEnd after) : ' ' :: (text.toList ++ rest) ≠ after := by
  rcases starts with ⟨char, isFirst, _, notBrace, notPoint⟩
  obtain ⟨others, isText⟩ := List.head?_eq_some_iff.mp isFirst
  rw [isText, List.cons_append]
  rcases ends with (⟨tail, rfl⟩ | ⟨tail, rfl⟩) | ⟨tail, rfl⟩
  · exact fun same => absurd (List.cons.inj same).1 (by decide)
  · exact fun same => notBrace (List.cons.inj (List.cons.inj same).2).1
  · exact fun same => notPoint (List.cons.inj (List.cons.inj same).2).1

theorem ForcedItems.after {lefts rights : List String} {fact : Prop}
    (forced : ForcedItems lefts rights fact) {r s : List Char} (endsLeft : ItemsEnd r)
    (endsRight : ItemsEnd s) (same : itemsAfter lefts ++ r = itemsAfter rights ++ s) :
    fact ∧ r = s := by
  induction forced with
  | nil holds => exact ⟨holds, same⟩
  | cons item items implies ih =>
      simp only [itemsAfter, List.flatMap_cons, List.cons_append, List.append_assoc,
        List.cons.injEq, true_and] at same
      have itemSame := item _ _ (wordEnds_itemsAfter _ endsLeft)
        (wordEnds_itemsAfter _ endsRight) same
      have itemsSame := ih itemSame.2
      exact ⟨implies itemSame.1 itemsSame.1, itemsSame.2⟩
  | longer starts =>
      simp only [itemsAfter, List.flatMap_cons, List.flatMap_nil, List.nil_append,
        List.cons_append, List.append_assoc] at same
      exact absurd same (endsRight.ne_item starts)
  | shorter starts =>
      simp only [itemsAfter, List.flatMap_cons, List.flatMap_nil, List.nil_append,
        List.cons_append, List.append_assoc] at same
      exact absurd same.symm (endsLeft.ne_item starts)

theorem Forces.of_spaced_nil {left : String} {lefts : List String} {fact : Prop}
    (starts : StartsItem left) : Forces ItemsEnd (spaced (left :: lefts)) (spaced []) fact := by
  intro r s _ endsRight same
  rcases starts with ⟨char, isFirst, bare, _⟩
  obtain ⟨others, isText⟩ := List.head?_eq_some_iff.mp isFirst
  rcases endsRight.wordEnds with ⟨next, rest, rfl, notBare⟩
  have sameFirst : char :: (others ++ itemsAfter lefts ++ r) = next :: rest := by
    rw [toList_spaced, isText] at same
    exact same
  rw [(List.cons.inj sameFirst).1, notBare] at bare
  exact nomatch bare

theorem ForcedItems.spaced {lefts rights : List String} {fact : Prop}
    (forced : ForcedItems lefts rights fact) :
    Forces ItemsEnd (spaced lefts) (spaced rights) fact := by
  cases forced with
  | nil holds => exact fun r s _ _ same => ⟨holds, same⟩
  | cons item items implies =>
      intro r s endsLeft endsRight same
      rw [toList_spaced, toList_spaced, List.append_assoc, List.append_assoc] at same
      have itemSame := item _ _ (wordEnds_itemsAfter _ endsLeft)
        (wordEnds_itemsAfter _ endsRight) same
      have itemsSame := items.after endsLeft endsRight itemSame.2
      exact ⟨implies itemSame.1 itemsSame.1, itemsSame.2⟩
  | longer starts => exact .of_spaced_nil starts
  | shorter starts => exact Forces.symm (.of_spaced_nil starts)

theorem Forces.items {left right : String} {fact : Prop}
    (forces : Forces ItemsEnd left right fact) : Forces PartEnds left right fact :=
  forces.mono fun _ => Or.inl

/-- Nodes of which any two force a fact do so one against one in lists. -/
theorem ForcedItems.map {α β : Type} {text : α → String} {view : α → β} {plain : α → Prop}
    (item : ∀ left right, plain left → plain right →
      Forces WordEnds (text left) (text right) (view left = view right))
    (starts : ∀ node, plain node → StartsItem (text node)) {lefts rights : List α}
    (plainLefts : ∀ left ∈ lefts, plain left) (plainRights : ∀ right ∈ rights, plain right) :
    ForcedItems (lefts.map text) (rights.map text) (lefts.map view = rights.map view) := by
  induction lefts generalizing rights with
  | nil =>
      cases rights with
      | nil => exact .nil rfl
      | cons right rights => exact .shorter (starts right (plainRights right List.mem_cons_self))
  | cons left lefts ih =>
      cases rights with
      | nil => exact .longer (starts left (plainLefts left List.mem_cons_self))
      | cons right rights =>
          rw [List.forall_mem_cons] at plainLefts plainRights
          refine .cons (item left right plainLefts.1 plainRights.1)
            (ih plainLefts.2 plainRights.2) fun sameItem sameItems => ?_
          rw [List.map_cons, List.map_cons, sameItem, sameItems]

/-! ### Nodes over several lines -/

theorem fronted_surrounded {tags : List String} {tag : String} (isTag : tag ∈ tags)
    (bare : Bare tag.toList) {indent : String} (parts inside : List String) :
    Fronted indent (IsTag tags) (surrounded indent (opened tag parts) inside) := by
  have opening : (" \x7b" : String).toList = [' ', '\x7b'] := by decide
  simp only [surrounded, opened, String.append_assoc]
  refine (fronted_append isTag bare ?_).indented
  rw [String.toList_append, opening]
  exact ⟨' ', _, rfl, by decide⟩

theorem Forces.opened {ends : List Char → Prop} {lefts rights : List String} {facts : Prop}
    (tag : String) (forced : ForcedParts lefts rights facts) :
    Forces ends (opened tag lefts) (opened tag rights) facts := by
  intro r s _ _ same
  have comma : ("," : String).toList = [','] := by decide
  have blank : (" " : String).toList = [' '] := by decide
  simp only [ScopeLint.opened, String.toList_append, List.append_assoc] at same
  replace same := List.append_cancel_left (List.append_cancel_left same)
  induction forced with
  | last part =>
      simp only [List.map_cons, List.map_nil, String.join_cons, String.join_nil,
        String.append_empty, opened.opening, String.toList_append, blank, comma, List.append_assoc,
        List.cons_append, List.nil_append, List.cons.injEq, true_and] at same
      have partSame := part _ _ (.inl ⟨r, rfl⟩) (.inl ⟨s, rfl⟩) same
      simp only [List.cons.injEq, true_and] at partSame
      exact partSame
  | cons part parts ih =>
      simp only [List.map_cons, String.join_cons, opened.opening, String.toList_append, blank,
        comma, List.append_assoc, List.cons_append, List.nil_append, List.cons.injEq,
        true_and] at same
      have partSame := part _ _ (.inl ⟨_, rfl⟩) (.inl ⟨_, rfl⟩) same
      simp only [List.cons.injEq, true_and] at partSame
      have partsSame := ih partSame.2
      exact ⟨⟨partSame.1, partsSame.1⟩, partsSame.2⟩

/-- What stands inside two nodes, each with its closing brace, forces a fact. -/
def ForcesInside (indent : String) (lefts rights : List String) (fact : Prop) : Prop :=
  ∀ afterLeft afterRight,
    (ended lefts).toList ++ (indent.toList ++ '\x7d' :: afterLeft) =
      (ended rights).toList ++ (indent.toList ++ '\x7d' :: afterRight) →
    fact ∧ afterLeft = afterRight

theorem ForcesInside.nil (indent : String) : ForcesInside indent [] [] True := by
  intro r s same
  have braceSame := List.append_cancel_left (List.append_cancel_left same)
  exact ⟨trivial, (List.cons.inj braceSame).2⟩

theorem ForcesInside.cons {indent left right : String} {lefts rights : List String}
    {fact facts : Prop} (line : Forces LineEnds left right fact)
    (lines : ForcesInside indent lefts rights facts) :
    ForcesInside indent (left :: lefts) (right :: rights) (fact ∧ facts) := by
  intro r s same
  have newline : ("\n" : String).toList = ['\n'] := by decide
  simp only [ended, String.toList_append, newline, List.append_assoc, List.cons_append,
    List.nil_append] at same
  have lineSame := line _ _ ⟨_, rfl⟩ ⟨_, rfl⟩ same
  simp only [List.cons.injEq, true_and] at lineSame
  have linesSame := lines r s lineSame.2
  exact ⟨⟨lineSame.1, linesSame.1⟩, linesSame.2⟩

/-- A line that begins, after blanks, with a character that is no closing brace. -/
def StartsLine (text : String) : Prop :=
  ∃ count char rest, text.toList = List.replicate count ' ' ++ char :: rest ∧ char ≠ ' ' ∧
    char ≠ '\x7d'

private theorem dropWhile_blanks (count : Nat) {char : Char} (notBlank : char ≠ ' ')
    (rest : List Char) :
    (List.replicate count ' ' ++ char :: rest).dropWhile (· == ' ') = char :: rest := by
  rw [List.dropWhile_append_of_pos fun other isBlank => by
    rw [List.eq_of_mem_replicate isBlank]
    rfl]
  rw [List.dropWhile_cons, beq_false_of_ne notBlank, if_neg Bool.false_ne_true]

/-- One more line and the closing brace tell the insides of two nodes apart. -/
theorem ForcesInside.longer {width level : Nat} {left : String} {lefts : List String}
    {fact : Prop} (starts : StartsLine left) :
    ForcesInside (indentation width level) (left :: lefts) [] fact := by
  intro r s same
  rcases starts with ⟨count, char, rest, isText, notBlank, notBrace⟩
  have dropped := congrArg (List.dropWhile (· == ' ')) same
  simp only [ended, indentation, String.toList_append, String.toList_ofList, isText,
    List.append_assoc, List.cons_append, dropWhile_blanks _ notBlank] at dropped
  change _ = ((List.replicate (level * min width widestIndent) ' ') ++ '\x7d' :: s).dropWhile _
    at dropped
  rw [dropWhile_blanks _ (by decide)] at dropped
  exact absurd (List.cons.inj dropped).1 notBrace

theorem ForcesInside.shorter {width level : Nat} {right : String} {rights : List String}
    {fact : Prop} (starts : StartsLine right) :
    ForcesInside (indentation width level) [] (right :: rights) fact :=
  fun r s same => (ForcesInside.longer starts s r same.symm).imp_right Eq.symm

theorem ForcesInside.imp {indent : String} {lefts rights : List String} {fact conclusion : Prop}
    (forces : ForcesInside indent lefts rights fact) (implies : fact → conclusion) :
    ForcesInside indent lefts rights conclusion :=
  fun r s same => (forces r s same).imp_left implies

theorem Forces.surrounded {ends : List Char → Prop} {indent first other : String}
    {lefts rights : List String} {fact facts : Prop} (opening : Forces LineEnds first other fact)
    (inside : ForcesInside indent lefts rights facts) :
    Forces ends (surrounded indent first lefts) (surrounded indent other rights)
      (fact ∧ facts) := by
  intro r s _ _ same
  have newline : ("\n" : String).toList = ['\n'] := by decide
  have brace : ("\x7d" : String).toList = ['\x7d'] := by decide
  simp only [ScopeLint.surrounded, String.toList_append, List.append_assoc, newline, brace,
    List.cons_append, List.nil_append] at same
  have openingSame := opening _ _ ⟨_, rfl⟩ ⟨_, rfl⟩ (List.append_cancel_left same)
  simp only [List.cons.injEq, true_and] at openingSame
  have insideSame := inside r s openingSame.2
  exact ⟨⟨openingSame.1, insideSame.1⟩, insideSame.2⟩

end ScopeLint
