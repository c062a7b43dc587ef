import Mathlib
import ScopeLint.Proofs.Json.Numeral
import ScopeLint.Proofs.Tree.Forcing
import ScopeLint.Proofs.Tree.Relabelling

/-!
The smallest parts of a dump: names, types, operators and literals. Where names are words, a
string holds no quote and no literal is a real, each of these is given away by its text.
-/

set_option autoImplicit false

namespace ScopeLint

/-! ### Plain names and literals -/

/-- A word of ASCII letters, digits and underscores. -/
def isWord (text : String) : Bool :=
  text != "" && text.toList.all fun char => char.isAlphanum || char == '_'

/-- A type of the program's own must not be spelled like one of the built-in types. -/
def TypeName.plain : TypeName → Bool
  | named name =>
      isWord name &&
        ["INTEGER", "REAL", "CHAR", "STRING", "BOOLEAN", "DATE"].all fun builtin => name != builtin
  | _ => true

/-- Strings stand in a dump as they are, so a quote in one cannot be told from its end. The text
of a real is left aside here. -/
def Literal.plain : Literal → Bool
  | number (.real _) => false
  | string value => !value.toList.contains '"'
  | _ => true

/-! ### Names -/

theorem isBare_of_wordChar {char : Char} (isWordChar : (char.isAlphanum || char == '_') = true) :
    isBare char = true ∧ char ≠ '.' ∧ char ≠ '\x7d' := by
  have differs {other : Char} (noWordChar : (other.isAlphanum || other == '_') = false) :
      char ≠ other := by
    rintro rfl
    rw [noWordChar] at isWordChar
    exact nomatch isWordChar
  refine ⟨?_, differs (by decide), differs (by decide)⟩
  simp only [isBare, Bool.and_eq_true, bne_iff_ne, ne_eq]
  exact ⟨⟨differs (by decide), differs (by decide)⟩, differs (by decide)⟩

theorem isWord_iff {text : String} :
    isWord text = true ↔ text ≠ "" ∧ ∀ char ∈ text.toList,
      (char.isAlphanum || char == '_') = true := by
  rw [isWord, Bool.and_eq_true, bne_iff_ne, List.all_eq_true]

theorem bare_of_isWord {text : String} (word : isWord text = true) : Bare text.toList :=
  List.all_eq_true.mpr fun char isMember =>
    (isBare_of_wordChar ((isWord_iff.mp word).2 char isMember)).1

theorem notMem_point_of_isWord {text : String} (word : isWord text = true) :
    '.' ∉ text.toList :=
  fun isMember => (isBare_of_wordChar ((isWord_iff.mp word).2 '.' isMember)).2.1 rfl

theorem startsItem_of_isWord {text : String} (word : isWord text = true) : StartsItem text := by
  rcases isWord_iff.mp word with ⟨nonempty, allWordChars⟩
  cases isText : text.toList with
  | nil => exact absurd (String.toList_inj.mp isText) nonempty
  | cons char rest =>
      have isWordChar := allWordChars char (isText ▸ List.mem_cons_self)
      rcases isBare_of_wordChar isWordChar with ⟨bare, notPoint, notBrace⟩
      exact ⟨char, by rw [isText]; rfl, bare, notBrace, notPoint⟩

theorem Fronted.startsItem {text : String} {front : List Char → Prop}
    (fronted : Fronted "" front text)
    (words : ∀ word, front word → isWord (String.ofList word) = true) : StartsItem text := by
  rcases fronted with ⟨word, rest, isText, bare, isFront, whole⟩
  rcases startsItem_of_isWord (words word isFront) with ⟨char, isFirst, startsWord⟩
  refine ⟨char, ?_, startsWord⟩
  obtain ⟨others, isWord⟩ := List.head?_eq_some_iff.mp isFirst
  rw [isText, ← String.toList_ofList (l := word), isWord]
  rfl

theorem Fronted.startsLine {width level : Nat} {text : String} {front : List Char → Prop}
    (fronted : Fronted (indentation width level) front text)
    (words : ∀ word, front word → isWord (String.ofList word) = true) : StartsLine text := by
  rcases fronted with ⟨word, rest, isText, bare, isFront, whole⟩
  rcases startsItem_of_isWord (words word isFront) with ⟨char, isFirst, bareChar, notBrace, _⟩
  obtain ⟨others, isWord⟩ := List.head?_eq_some_iff.mp isFirst
  refine ⟨level * min width widestIndent, char, others ++ rest, ?_, ?_, notBrace⟩
  · rw [isText, ← String.toList_ofList (l := word), isWord, indentation, String.toList_ofList]
    rfl
  · rintro rfl
    exact absurd bareChar (by decide)

theorem forces_word {left right : String} (wordLeft : isWord left = true)
    (wordRight : isWord right = true) : Forces WordEnds left right (left = right) :=
  .word (bare_of_isWord wordLeft) (bare_of_isWord wordRight)

/-- An identifier without its line. -/
def Identifier.unlined (node : Identifier) : Identifier :=
  { node with line := 0 }

/-- Nothing of an identifier. -/
def Identifier.blank (_ : Identifier) : Identifier :=
  ⟨"", 0⟩

theorem Identifier.unlined_eq {left right : Identifier} (same : left.name = right.name) :
    left.unlined = right.unlined := by
  simp only [unlined, same]

theorem Identifier.forces {left right : Identifier} (plainLeft : isWord left.name = true)
    (plainRight : isWord right.name = true) :
    Forces WordEnds left.text right.text (left.unlined = right.unlined) :=
  (forces_word plainLeft plainRight).imp Identifier.unlined_eq

theorem bare_member {name member : String} (word : isWord name = true)
    (wordMember : isWord member = true) : Bare (name ++ "." ++ member).toList := by
  have point : ("." : String).toList = ['.'] := by decide
  simp only [Bare, String.toList_append, point, List.all_append, bare_of_isWord word,
    bare_of_isWord wordMember]
  decide

theorem forces_member {left right member member' : String} (wordLeft : isWord left = true)
    (wordRight : isWord right = true) (wordMember : isWord member = true)
    (wordMember' : isWord member' = true) :
    Forces WordEnds (left ++ "." ++ member) (right ++ "." ++ member')
      (left = right ∧ member = member') := by
  have point : ("." : String).toList = ['.'] := by decide
  refine (Forces.word (bare_member wordLeft wordMember)
    (bare_member wordRight wordMember')).imp fun same => ?_
  have sameChars := congrArg String.toList same
  simp only [String.toList_append, point, List.append_assoc, List.cons_append,
    List.nil_append] at sameChars
  have split := eq_of_append_mark_eq (notMem_point_of_isWord wordLeft)
    (notMem_point_of_isWord wordRight) sameChars
  exact ⟨String.toList_inj.mp split.1, String.toList_inj.mp split.2⟩

theorem append_point_ne {left right member : String} (wordLeft : isWord left = true) :
    left ≠ right ++ "." ++ member := by
  rintro rfl
  have point : ("." : String).toList = ['.'] := by decide
  refine notMem_point_of_isWord wordLeft ?_
  simp only [String.toList_append, point, List.mem_append, List.mem_singleton, or_true, true_or]

theorem TypeName.bare_text {type : TypeName} (plain : type.plain = true) :
    Bare type.text.toList := by
  have builtin : ∀ spelling ∈ ["INTEGER", "REAL", "CHAR", "STRING", "BOOLEAN", "DATE"],
      Bare spelling.toList := by decide
  cases type with
  | named name =>
      rw [TypeName.plain, Bool.and_eq_true] at plain
      exact bare_of_isWord plain.1
  | integer => exact builtin _ (by decide)
  | real => exact builtin _ (by decide)
  | char => exact builtin _ (by decide)
  | string => exact builtin _ (by decide)
  | boolean => exact builtin _ (by decide)
  | date => exact builtin _ (by decide)

theorem TypeName.eq_of_text_eq {left right : TypeName} (plainLeft : left.plain = true)
    (plainRight : right.plain = true) (same : left.text = right.text) : left = right := by
  have notBuiltin {name : String} (plain : (TypeName.named name).plain = true) :
      name ∉ ["INTEGER", "REAL", "CHAR", "STRING", "BOOLEAN", "DATE"] := by
    rw [TypeName.plain, Bool.and_eq_true, List.all_eq_true] at plain
    intro isMember
    exact absurd rfl (bne_iff_ne.mp (plain.2 name isMember))
  cases left with
  | named name =>
      have notLeft := notBuiltin plainLeft
      cases right with
      | named other => exact congrArg TypeName.named same
      | _ =>
          change name = _ at same
          rw [same] at notLeft
          exact absurd (by decide) notLeft
  | _ =>
      cases right with
      | named name =>
          have notRight := notBuiltin plainRight
          change _ = name at same
          rw [← same] at notRight
          exact absurd (by decide) notRight
      | _ => first | rfl | exact absurd same (by decide)

theorem TypeName.forces {left right : TypeName} (plainLeft : left.plain = true)
    (plainRight : right.plain = true) : Forces WordEnds left.text right.text (left = right) :=
  (Forces.word (TypeName.bare_text plainLeft) (TypeName.bare_text plainRight)).imp
    (TypeName.eq_of_text_eq plainLeft plainRight)

/-! ### Operators and modes -/

theorem forces_spelling {α : Type} {spelling : α → String}
    (bare : ∀ node, Bare (spelling node).toList) (injective : Function.Injective spelling)
    (left right : α) : Forces WordEnds (spelling left) (spelling right) (left = right) :=
  (Forces.word (bare left) (bare right)).imp fun same => injective same

theorem BinaryOp.forces (left right : BinaryOp) :
    Forces WordEnds left.spelling right.spelling (left = right) := by
  refine forces_spelling (fun op => ?_) (fun op other same => ?_) left right
  · cases op
    all_goals decide
  · cases op
    all_goals
      cases other
      all_goals first | rfl | exact absurd same (by decide)

theorem UnaryOp.forces (left right : UnaryOp) :
    Forces WordEnds left.spelling right.spelling (left = right) := by
  refine forces_spelling (fun op => ?_) (fun op other same => ?_) left right
  · cases op
    all_goals decide
  · cases op
    all_goals
      cases other
      all_goals first | rfl | exact absurd same (by decide)

theorem PointerOp.forces (left right : PointerOp) :
    Forces WordEnds left.spelling right.spelling (left = right) := by
  refine forces_spelling (fun op => ?_) (fun op other same => ?_) left right
  · cases op
    all_goals decide
  · cases op
    all_goals
      cases other
      all_goals first | rfl | exact absurd same (by decide)

theorem PassMode.forces (left right : PassMode) :
    Forces WordEnds left.spelling right.spelling (left = right) := by
  refine forces_spelling (fun mode => ?_) (fun mode other same => ?_) left right
  · cases mode
    all_goals decide
  · cases mode
    all_goals
      cases other
      all_goals first | rfl | exact absurd same (by decide)

theorem FileMode.forces (left right : FileMode) :
    Forces WordEnds left.spelling right.spelling (left = right) := by
  refine forces_spelling (fun mode => ?_) (fun mode other same => ?_) left right
  · cases mode
    all_goals decide
  · cases mode
    all_goals
      cases other
      all_goals first | rfl | exact absurd same (by decide)

/-! ### Literals -/

theorem isBare_of_isDigit {char : Char} (isDigit : char.isDigit = true) :
    isBare char = true ∧ char ≠ '/' ∧ char ≠ 'E' ∧ char ≠ '"' ∧ char ≠ '\'' ∧ char ≠ '\x7d' ∧
      char ≠ '.' := by
  have differs {other : Char} (noDigit : other.isDigit = false) : char ≠ other := by
    rintro rfl
    rw [noDigit] at isDigit
    exact nomatch isDigit
  refine ⟨?_, differs rfl, differs rfl, differs rfl, differs rfl, differs rfl, differs rfl⟩
  simp only [isBare, Bool.and_eq_true, bne_iff_ne, ne_eq]
  exact ⟨⟨differs rfl, differs rfl⟩, differs rfl⟩

theorem toList_padded (width value : Nat) :
    (padded width value).toList =
      List.replicate (width - (Nat.toDigits 10 value).length) '0' ++ Nat.toDigits 10 value := by
  rw [padded, String.toList_ofList]

theorem isDigit_of_mem_padded {width value : Nat} {char : Char}
    (isMember : char ∈ (padded width value).toList) : char.isDigit = true := by
  rw [toList_padded, List.mem_append] at isMember
  rcases isMember with isZero | isDigit
  · rw [List.eq_of_mem_replicate isZero]
    rfl
  · exact Json.isDigit_of_mem_decimal char isDigit

/-- Zeros in front do not change the number. -/
theorem ofDigitChars_padded (width value : Nat) :
    Nat.ofDigitChars 10 (padded width value).toList 0 = value := by
  have zeros (count : Nat) : Nat.ofDigitChars 10 (List.replicate count '0') 0 = 0 := by
    induction count with
    | zero => rfl
    | succ count ih =>
        rw [List.replicate_succ, Nat.ofDigitChars_cons]
        exact ih
  rw [toList_padded, Nat.ofDigitChars_append, zeros]
  exact Nat.ofDigitChars_toDigits (by decide) (by decide)

theorem padded_injective {width value other : Nat}
    (same : (padded width value).toList = (padded width other).toList) : value = other := by
  rw [← ofDigitChars_padded width value, same, ofDigitChars_padded]

theorem Date.toList_text (node : Date) :
    node.text.toList = (padded 2 node.day.toNat).toList ++ '/' ::
      ((padded 2 node.month.toNat).toList ++ '/' :: (padded 4 node.year.toNat).toList) := by
  have slash : ("/" : String).toList = ['/'] := by decide
  simp only [Date.text, String.toList_append, slash, List.append_assoc, List.cons_append,
    List.nil_append]

theorem Date.text_injective : Function.Injective Date.text := by
  intro left right same
  have noSlash (width value : Nat) : '/' ∉ (padded width value).toList :=
    fun isMember => (isBare_of_isDigit (isDigit_of_mem_padded isMember)).2.1 rfl
  have sameChars := congrArg String.toList same
  rw [Date.toList_text, Date.toList_text] at sameChars
  rcases eq_of_append_mark_eq (noSlash _ _) (noSlash _ _) sameChars with ⟨day, sameRest⟩
  rcases eq_of_append_mark_eq (noSlash _ _) (noSlash _ _) sameRest with ⟨month, year⟩
  cases left
  cases right
  simp only [Date.mk.injEq]
  exact ⟨UInt8.toNat_inj.mp (padded_injective day), UInt8.toNat_inj.mp (padded_injective month),
    UInt16.toNat_inj.mp (padded_injective year)⟩

theorem Date.slash_mem_text (node : Date) : '/' ∈ node.text.toList := by
  rw [Date.toList_text]
  exact List.mem_append_right _ List.mem_cons_self

/-- The characters of an integer. -/
theorem isDigit_of_mem_int {number : Int} {char : Char}
    (isMember : char ∈ (toString number).toList) : char = '-' ∨ char.isDigit = true := by
  rw [Json.toString_int_toList, List.mem_append] at isMember
  rcases isMember with isSign | isDigit
  · left
    unfold Json.signChars at isSign
    split at isSign
    · exact List.mem_singleton.mp isSign
    · exact nomatch isSign
  · exact .inr (Json.isDigit_of_mem_decimal char isDigit)

/-- Whether the text of a literal stands between quotes. -/
def Literal.quoted : Literal → Bool
  | string _ | char _ => true
  | _ => false

/-- The characters of the literals that stand without quotes. -/
theorem Literal.mem_text {value : Literal} (plain : value.plain = true)
    (bareword : value.quoted = false) {char : Char} (isMember : char ∈ value.text.toList) :
    char = '-' ∨ char = '/' ∨ char.isDigit = true ∨ char ∈ ['T', 'R', 'U', 'E'] ∨
      char ∈ ['F', 'A', 'L', 'S', 'E'] := by
  cases value with
  | number number =>
      cases number with
      | integer value =>
          rcases isDigit_of_mem_int isMember with isMinus | isDigit
          · exact .inl isMinus
          · exact .inr (.inr (.inl isDigit))
      | real value => exact nomatch plain
  | string value => exact nomatch bareword
  | char value => exact nomatch bareword
  | boolean value =>
      cases value with
      | true => exact .inr (.inr (.inr (.inl isMember)))
      | false => exact .inr (.inr (.inr (.inr isMember)))
  | date value =>
      change char ∈ value.text.toList at isMember
      simp only [Date.toList_text, List.mem_append, List.mem_cons] at isMember
      rcases isMember with isDay | isSlash | isMonth | isSlash | isYear
      · exact .inr (.inr (.inl (isDigit_of_mem_padded isDay)))
      · exact .inr (.inl isSlash)
      · exact .inr (.inr (.inl (isDigit_of_mem_padded isMonth)))
      · exact .inr (.inl isSlash)
      · exact .inr (.inr (.inl (isDigit_of_mem_padded isYear)))

/-- A character of a literal without quotes, or of the quotes of another one. -/
theorem Literal.char_of_mem {value : Literal} (plain : value.plain = true)
    (bareword : value.quoted = false) {char : Char} (isMember : char ∈ value.text.toList) :
    isBare char = true ∧ char ≠ '"' ∧ char ≠ '\'' ∧ char ≠ '\x7d' ∧ char ≠ '.' := by
  rcases Literal.mem_text plain bareword isMember with rfl | rfl | isDigit | isMember | isMember
  · decide
  · decide
  · rcases isBare_of_isDigit isDigit with ⟨bare, _, _, rest⟩
    exact ⟨bare, rest⟩
  · fin_cases isMember
    all_goals decide
  · fin_cases isMember
    all_goals decide

theorem Literal.bare_text {value : Literal} (plain : value.plain = true)
    (bareword : value.quoted = false) : Bare value.text.toList :=
  List.all_eq_true.mpr fun _ isMember => (Literal.char_of_mem plain bareword isMember).1

theorem notMem_int {number : Int} {char : Char} (notMinus : char ≠ '-')
    (noDigit : char.isDigit = false) : char ∉ (toString number).toList := by
  intro isMember
  rcases isDigit_of_mem_int isMember with isMinus | isDigit
  · exact notMinus isMinus
  · rw [noDigit] at isDigit
    exact nomatch isDigit

/-- Integers, dates and truth values have no spelling in common: only dates hold a slash, and
only truth values an `E`. -/
theorem Literal.eq_of_text_eq {left right : Literal} (plainLeft : left.plain = true)
    (plainRight : right.plain = true) (barewordLeft : left.quoted = false)
    (barewordRight : right.quoted = false) (same : left.text = right.text) : left = right := by
  have sameMembers (char : Char) : char ∈ left.text.toList ↔ char ∈ right.text.toList := by
    rw [same]
  have slash := sameMembers '/'
  have letter := sameMembers 'E'
  have intNoSlash (value : Int64) : '/' ∉ (toString value.toInt).toList :=
    notMem_int (by decide) rfl
  have intNoLetter (value : Int64) : 'E' ∉ (toString value.toInt).toList :=
    notMem_int (by decide) rfl
  have truthNoSlash (value : Bool) : '/' ∉ (boolean value).text.toList := by
    cases value
    all_goals decide
  have truthLetter (value : Bool) : 'E' ∈ (boolean value).text.toList := by
    cases value
    all_goals decide
  cases left with
  | string value => exact nomatch barewordLeft
  | char value => exact nomatch barewordLeft
  | number number =>
      cases number with
      | real value => exact nomatch plainLeft
      | integer value =>
          cases right with
          | string value => exact nomatch barewordRight
          | char value => exact nomatch barewordRight
          | boolean other => exact absurd (letter.mpr (truthLetter other)) (intNoLetter value)
          | date other => exact absurd (slash.mpr other.slash_mem_text) (intNoSlash value)
          | number number =>
              cases number with
              | real other => exact nomatch plainRight
              | integer other =>
                  have sameInt := Int64.toInt_inj.mp (Int.repr_injective same)
                  rw [sameInt]
  | boolean value =>
      cases right with
      | string value => exact nomatch barewordRight
      | char value => exact nomatch barewordRight
      | date other => exact absurd (slash.mpr other.slash_mem_text) (truthNoSlash value)
      | number number =>
          cases number with
          | real other => exact nomatch plainRight
          | integer other => exact absurd (letter.mp (truthLetter value)) (intNoLetter other)
      | boolean other =>
          cases value
          all_goals
            cases other
            all_goals first | rfl | exact absurd same (by decide)
  | date value =>
      cases right with
      | string value => exact nomatch barewordRight
      | char value => exact nomatch barewordRight
      | boolean other => exact absurd (slash.mp value.slash_mem_text) (truthNoSlash other)
      | number number =>
          cases number with
          | real other => exact nomatch plainRight
          | integer other => exact absurd (slash.mp value.slash_mem_text) (intNoSlash other)
      | date other => exact congrArg Literal.date (Date.text_injective same)

theorem Literal.text_ne_empty {value : Literal} (bareword : value.quoted = false)
    (plain : value.plain = true) : value.text.toList ≠ [] := by
  intro isEmpty
  cases value with
  | number number =>
      cases number with
      | integer value =>
          change (toString value.toInt).toList = [] at isEmpty
          rw [Json.toString_int_toList, List.append_eq_nil_iff] at isEmpty
          exact Nat.toDigits_ne_nil isEmpty.2
      | real value => exact nomatch plain
  | string value => exact nomatch bareword
  | char value => exact nomatch bareword
  | boolean value =>
      cases value
      all_goals exact absurd isEmpty (by decide)
  | date value =>
      have isMember := value.slash_mem_text
      change value.text.toList = [] at isEmpty
      rw [isEmpty] at isMember
      exact nomatch isMember

/-- The first character of a literal without quotes. -/
theorem Literal.exists_head? {value : Literal} (plain : value.plain = true)
    (bareword : value.quoted = false) :
    ∃ char, value.text.toList.head? = some char ∧ char ∈ value.text.toList := by
  cases isText : value.text.toList with
  | nil => exact absurd isText (Literal.text_ne_empty bareword plain)
  | cons char rest => exact ⟨char, rfl, List.mem_cons_self⟩

theorem Literal.startsItem {value : Literal} (plain : value.plain = true) :
    StartsItem value.text := by
  by_cases bareword : value.quoted = false
  · obtain ⟨char, isFirst, isMember⟩ := Literal.exists_head? plain bareword
    rcases Literal.char_of_mem plain bareword isMember with ⟨bare, _, _, notBrace, notPoint⟩
    exact ⟨char, isFirst, bare, notBrace, notPoint⟩
  · cases value with
    | string value =>
        refine ⟨'"', ?_, by decide, by decide, by decide⟩
        rw [Literal.text, String.toList_append, String.toList_append]
        rfl
    | char value =>
        refine ⟨'\'', ?_, by decide, by decide, by decide⟩
        rw [Literal.text, String.toList_append, String.toList_append]
        rfl
    | _ => exact absurd rfl bareword

/-- The text of a string is its quote, the string itself and one more quote. -/
theorem Literal.toList_text_string (value : String) :
    (Literal.string value).text.toList = '"' :: (value.toList ++ ['"']) := by
  rw [Literal.text, String.toList_append, String.toList_append]
  rfl

theorem Literal.toList_text_char (value : Char) :
    (Literal.char value).text.toList = ['\'', value, '\''] := by
  rw [Literal.text, String.toList_append, String.toList_append, String.toList_singleton]
  rfl

theorem Literal.forces_of_quoted {left right : Literal} (plainRight : right.plain = true)
    (quotedLeft : left.quoted = true) (barewordRight : right.quoted = false) {fact : Prop} :
    Forces WordEnds left.text right.text fact := by
  obtain ⟨char, isFirst, isMember⟩ := Literal.exists_head? plainRight barewordRight
  rcases Literal.char_of_mem plainRight barewordRight isMember with ⟨_, notQuote, notTick, _⟩
  cases left with
  | string value =>
      exact .of_head?_ne '"' char (by rw [toList_text_string]; rfl) isFirst notQuote.symm
  | char value =>
      exact .of_head?_ne '\'' char (by rw [toList_text_char]; rfl) isFirst notTick.symm
  | _ => exact nomatch quotedLeft

theorem Literal.forces {left right : Literal} (plainLeft : left.plain = true)
    (plainRight : right.plain = true) : Forces WordEnds left.text right.text (left = right) := by
  by_cases barewordLeft : left.quoted = false
  · by_cases barewordRight : right.quoted = false
    · exact (Forces.word (bare_text plainLeft barewordLeft)
        (bare_text plainRight barewordRight)).imp
        (eq_of_text_eq plainLeft plainRight barewordLeft barewordRight)
    · rw [Bool.not_eq_false] at barewordRight
      exact Forces.symm (forces_of_quoted plainLeft barewordRight barewordLeft)
  · rw [Bool.not_eq_false] at barewordLeft
    by_cases barewordRight : right.quoted = false
    · exact forces_of_quoted plainRight barewordLeft barewordRight
    · rw [Bool.not_eq_false] at barewordRight
      cases left with
      | string value =>
          cases right with
          | string other =>
              intro r s _ _ same
              have noQuote {value : String} (plain : (Literal.string value).plain = true) :
                  '"' ∉ value.toList := by
                rw [Literal.plain, Bool.not_eq_true', List.contains_eq_mem,
                  decide_eq_false_iff_not] at plain
                exact plain
              simp only [toList_text_string, List.cons_append, List.append_assoc,
                List.nil_append, List.cons.injEq, true_and] at same
              rcases eq_of_append_mark_eq (noQuote plainLeft) (noQuote plainRight) same with
                ⟨sameChars, rest⟩
              exact ⟨congrArg Literal.string (String.toList_inj.mp sameChars), rest⟩
          | char other =>
              exact .of_head?_ne '"' '\'' (by rw [toList_text_string]; rfl)
                (by rw [toList_text_char]; rfl) (by decide)
          | _ => exact nomatch barewordRight
      | char value =>
          cases right with
          | string other =>
              exact .of_head?_ne '\'' '"' (by rw [toList_text_char]; rfl)
                (by rw [toList_text_string]; rfl) (by decide)
          | char other =>
              intro r s _ _ same
              simp only [toList_text_char, List.cons_append, List.nil_append, List.cons.injEq,
                true_and] at same
              exact ⟨congrArg Literal.char same.1, same.2⟩
          | _ => exact nomatch barewordRight
      | _ => exact nomatch barewordLeft

end ScopeLint
