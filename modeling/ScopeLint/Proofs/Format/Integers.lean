import ScopeLint.Proofs.Format.Places

/-!
Integers are taken as they are or refused. Where the tree has an integer, one in the range of its
type is read exactly; one within 64 bits is refused as an integer, and any other one as the real
that it is converted to, as long as there is one.
-/

set_option autoImplicit false

namespace ScopeLint.Format

open Json (Blank NumberEnds Separated)

/-! ### Where the tree has integers -/

def Shape.widths : Shape → List Width
  | .integer width => [width]
  | .list item => item.widths
  | _ => []

def Field.integers (field : Field) : List (String × Width) :=
  field.shape.widths.map (field.key, ·)

def Form.integers (tag : String) : Form → List (String × Width)
  | .value shape => shape.widths.map (tag, ·)
  | .record _ fields => fields.flatMap Field.integers

/-- The fields and the cases of a kind of node that hold an integer themselves. -/
def Kind.integers (kind : Kind) : List (String × Width) :=
  match kind.layout with
  | .record _ fields _ _ => fields.flatMap Field.integers
  | .choice cases => cases.flatMap fun case => case.payload.forms.flatMap (Form.integers case.tag)

/-- The places of the tree for integers: the kind of node, the field or the case, the type. -/
def integerPlaces : List (Kind × String × Width) :=
  [(.number, "Integer", .i64), (.identifier, "line", .u32), (.date, "day", .u8),
    (.date, "month", .u8), (.date, "year", .u16)]

theorem mem_integerPlaces {kind : Kind} {place : String × Width} (isPlace : place ∈ kind.integers) :
    (kind, place) ∈ integerPlaces := by
  have all (kind : Kind) : ∀ place ∈ kind.integers, (kind, place) ∈ integerPlaces := by
    cases kind <;> decide
  exact all kind place isPlace

theorem InRow.isField {width : Width} {inside : Grammar} {field : Field}
    {plug : width.Carrier → field.Carrier} {core : List Char} {fields : List Field}
    {rows : width.Carrier → Row fields} {texts : List (List Char)}
    (inRow : InRow width inside plug core fields rows texts) : field ∈ fields := by
  induction inRow with
  | first _ => exact List.mem_cons_self
  | later _ _ ih => exact List.mem_cons_of_mem _ ih

theorem Kind.integers_of_case {kind : Kind} {cases : List (Case kind.Carrier)}
    (isLayout : kind.layout = .choice cases) {case : Case kind.Carrier} (isCase : case ∈ cases)
    {form : Form} (isForm : form ∈ case.payload.forms) {place : String × Width}
    (isPlace : place ∈ form.integers case.tag) : place ∈ kind.integers := by
  rw [Kind.integers, isLayout]
  exact List.mem_flatMap.mpr ⟨case, isCase, List.mem_flatMap.mpr ⟨form, isForm, isPlace⟩⟩

/-- A place for an integer is in the form itself or in a node of the tree. -/
theorem Stands.isPlace {width : Width} {hole core : List Char} {budget : Nat} {form : Form}
    {plug : width.Carrier → form.Carrier} (stands : Stands width hole budget form plug core) :
    (∀ tag, ∃ label, (label, width) ∈ form.integers tag) ∨
      ∃ (kind : Kind) (label : String), (label, width) ∈ kind.integers := by
  have ofField {title : String} {fields : List Field} {field : Field} (isField : field ∈ fields)
      (isPlace : ∀ tag, ∃ label, (label, width) ∈ (Form.value field.shape).integers tag) :
      ∀ tag, ∃ label, (label, width) ∈ (Form.record title fields).integers tag := by
    intro _
    obtain ⟨label, isIn⟩ := isPlace field.key
    exact ⟨label, List.mem_flatMap.mpr ⟨field, isField, isIn⟩⟩
  induction stands with
  | here => exact .inl fun tag => ⟨tag, List.mem_singleton_self _⟩
  | item _ _ _ _ ih => exact ih
  | array _ inRow _ ih => exact ih.imp_left (ofField inRow.isField)
  | object _ inFields _ _ _ ih => exact ih.imp_left (ofField inFields.alone.1)
  | @node _ kind _ _ _ _ _ _ isLayout _ ih =>
      refine .inr (ih.elim (fun isPlace => ?_) id)
      obtain ⟨label, isIn⟩ := isPlace ""
      refine ⟨kind, label, ?_⟩
      rw [Kind.integers, isLayout]
      exact isIn
  | @one _ kind _ tag form _ _ _ _ _ isLayout isCase _ _ _ _ ih
  | @several _ kind _ tag _ _ _ _ _ _ _ isLayout isCase _ _ _ _ ih =>
      refine .inr (ih.elim (fun isPlace => ?_) id)
      obtain ⟨label, isIn⟩ := isPlace tag
      exact ⟨kind, label, Kind.integers_of_case isLayout isCase (List.mem_singleton_self _) isIn⟩

/-! ### A number where an integer is wanted -/

section Outcomes

variable {width : Width} {number : Int}

theorem Width.ofInt?_eq_none_iff :
    width.ofInt? number = none ↔ ¬(width.least ≤ number ∧ number ≤ width.greatest) := by
  simp only [Width.ofInt?, ite_eq_right_iff, reduceCtorEq, imp_false]

theorem readInteger_outOfRange (outOfRange : ¬(width.least ≤ number ∧ number ≤ width.greatest))
    (least : -(twoTo 63 : Int) ≤ number) (greatest : number < (twoTo 64 : Int)) :
    RefusedFor (.data (.invalidValue (.integer number) width.name)) (readInteger width)
      (toString number).toList := by
  intro rest ends
  obtain ⟨starts, quantityRead⟩ := readQuantity_of_scan (Json.scanNumeral?_int number ends)
    (Json.quantity?_int least greatest)
  simp only [readInteger, starts, if_true, quantityRead,
    Width.ofInt?_eq_none_iff.mpr outOfRange]
  rfl

/-- An integer beyond 64 bits is refused as the real that its leading digits are scaled to. -/
theorem readInteger_beyond
    (beyond : ¬(-(twoTo 63 : Int) ≤ number ∧ number < (twoTo 64 : Int))) :
    ∃ lead left, Json.LeadingDigits number.natAbs lead left ∧
      RefusedFor
        (if Json.scalingBound ≤ number.natAbs then .malformed
          else .data (.invalidType (.real (.ofMagnitude (decide (number < 0))
            ((Binary64.ofNatural lead).times (Binary64.powerOfTen left)).magnitude)) width.name))
        (readInteger width) (toString number).toList := by
  obtain ⟨lead, left, leads, isQuantity⟩ := Json.quantity?_beyond beyond
  refine ⟨lead, left, leads, ?_⟩
  intro rest ends
  have scanned := Json.scanNumeral?_int number ends
  obtain ⟨starts, noBlanks⟩ := startsNumber_of_scan scanned
  simp only [readInteger, starts, if_true, noBlanks, readQuantity, scanned, isQuantity]
  by_cases large : Json.scalingBound ≤ number.natAbs
  · simp only [if_pos large]
    rfl
  · simp only [if_neg large]
    rfl

/-- What is not in the range of the type is refused in one way or another. -/
theorem exists_refusedFor (outOfRange : ¬(width.least ≤ number ∧ number ≤ width.greatest)) :
    ∃ problem, RefusedFor problem (readInteger width) (toString number).toList := by
  by_cases within : -(twoTo 63 : Int) ≤ number ∧ number < (twoTo 64 : Int)
  · exact ⟨_, readInteger_outOfRange outOfRange within.1 within.2⟩
  · obtain ⟨lead, left, _, refused⟩ := @readInteger_beyond width number within
    exact ⟨_, refused⟩

/-- The parts of a message run together, up to the backquotes around what was found. -/
theorem expected_append (title found text wanted : String) :
    title ++ (found ++ ("`" ++ text ++ "`")) ++ ", expected " ++ wanted =
      title ++ (found ++ "`") ++ text ++ "`, expected " ++ wanted := by
  have closing : "`, expected " = "`" ++ ", expected " := rfl
  rw [closing]
  simp only [String.append_assoc]

theorem message_outOfRange (number : Int) (wanted : String) :
    (DataProblem.invalidValue (.integer number) wanted).message =
      "invalid value: integer `" ++ toString number ++ "`, expected " ++ wanted :=
  expected_append "invalid value: " "integer " (toString number) wanted

theorem message_real (real : Binary64) (wanted : String) :
    (DataProblem.invalidType (.real real) wanted).message = "invalid type: floating point `" ++
      String.ofList (Json.realChars real) ++ "`, expected " ++ wanted :=
  expected_append "invalid type: " "floating point " (String.ofList (Json.realChars real)) wanted

end Outcomes

/-- What comes of an integer in plain decimals that stands in a place for one of some width. -/
structure ReadsInteger (width : Width) (kind : Kind) (plug : width.Carrier → kind.Carrier)
    (number : Int) (text : String) : Prop where
  isPlace : ∃ owner label, (owner, label, width) ∈ integerPlaces
  isRead_iff : (∃ node, read kind text = .ok node) ↔
    width.least ≤ number ∧ number ≤ width.greatest
  isExact : ∀ node, read kind text = .ok node →
    ∃ value, width.toInt value = number ∧ node = plug value
  outOfRange : ¬(width.least ≤ number ∧ number ≤ width.greatest) →
    -(twoTo 63 : Int) ≤ number ∧ number < (twoTo 64 : Int) →
    ∃ problem, read kind text = .error (.data problem) ∧
      problem.message =
        "invalid value: integer `" ++ toString number ++ "`, expected " ++ width.name
  real : ¬(-(twoTo 63 : Int) ≤ number ∧ number < (twoTo 64 : Int)) →
    number.natAbs < Json.scalingBound →
    ∃ lead left problem, Json.LeadingDigits number.natAbs lead left ∧
      read kind text = .error (.data problem) ∧
      problem.message = "invalid type: floating point `" ++
        String.ofList (Json.realChars (.ofMagnitude (decide (number < 0))
          ((Binary64.ofNatural lead).times (Binary64.powerOfTen left)).magnitude)) ++
        "`, expected " ++ width.name
  tooLarge : Json.scalingBound ≤ number.natAbs → read kind text = .error .malformed

/-- An integer is read exactly where it is in the range of the place, and refused anywhere else,
when the rest of the text is spelled. -/
theorem readWhole_integer {width : Width} {kind : Kind} {plug : width.Carrier → kind.Carrier}
    {number : Int} {core : List Char}
    (stands : Stands width (toString number).toList depthLimit (.value (.node kind)) plug core)
    {before after : List Char} (blankBefore : Blank before) (blankAfter : Blank after)
    {text : String} (isText : text.toList = before ++ (core ++ after)) :
    ReadsInteger width kind plug number text := by
  have refusedFor {problem : ReadError}
      (refused : RefusedFor problem (readInteger width) (toString number).toList) :
      read kind text = .error problem :=
    readWhole_core (.value (.node kind)) (.error problem)
      (stands.refused List.nodup_nil (starts_toString number) refused) blankBefore blankAfter
      isText
  have inRange (bounds : width.least ≤ number ∧ number ≤ width.greatest) :
      ∃ value, width.toInt value = number ∧ read kind text = .ok (plug value) := by
    have isValue : width.ofInt? number = some (width.ofInt number) := if_pos bounds
    have same := Width.toInt_of_ofInt? isValue
    exact ⟨_, same, read_eq_ok_iff.mpr ⟨before, core, after, blankBefore,
      stands.spells (by rw [same]), blankAfter, isText⟩⟩
  have isRead (node : kind.Carrier) (isNode : read kind text = .ok node) :
      width.least ≤ number ∧ number ≤ width.greatest := by
    by_contra outOfRange
    obtain ⟨problem, refused⟩ := exists_refusedFor outOfRange
    exact nomatch isNode.symm.trans (refusedFor refused)
  constructor
  case isPlace =>
    rcases stands.isPlace with isPlace | ⟨owner, label, isPlace⟩
    · obtain ⟨label, impossible⟩ := isPlace ""
      exact nomatch impossible
    · exact ⟨owner, label, mem_integerPlaces isPlace⟩
  case isRead_iff =>
    refine ⟨fun ⟨node, isNode⟩ => isRead node isNode, fun bounds => ?_⟩
    obtain ⟨value, _, isOk⟩ := inRange bounds
    exact ⟨_, isOk⟩
  case isExact =>
    intro node isNode
    obtain ⟨value, same, isOk⟩ := inRange (isRead node isNode)
    exact ⟨value, same, Except.ok.inj (isNode.symm.trans isOk)⟩
  case outOfRange =>
    intro outOfRange within
    exact ⟨_, refusedFor (readInteger_outOfRange outOfRange within.1 within.2),
      message_outOfRange number width.name⟩
  case real =>
    intro beyond small
    obtain ⟨lead, left, leads, refused⟩ := @readInteger_beyond width number beyond
    rw [if_neg small.not_ge] at refused
    exact ⟨lead, left, _, leads, refusedFor refused, message_real _ width.name⟩
  case tooLarge =>
    intro large
    have beyond : ¬(-(twoTo 63 : Int) ≤ number ∧ number < (twoTo 64 : Int)) := by
      have wide : twoTo 64 ≤ Json.scalingBound := by decide +kernel
      have bound := wide.trans large
      have half : twoTo 64 = 2 * twoTo 63 := rfl
      omega
    obtain ⟨lead, left, _, refused⟩ := @readInteger_beyond width number beyond
    rw [if_pos large] at refused
    exact refusedFor refused

/-- The line of an identifier that is written as an array. -/
theorem stands_line (hole : List Char) (budget : Nat) :
    Stands .u32 hole (budget + 2) (.value (.node .identifier)) (fun value => ⟨"x", value⟩)
      ('[' :: (Json.stringChars "x" ++ ',' :: (hole ++ []) ++ [']'])) := by
  have blank : Blank [] := Json.blank_nil
  let line : Field := .required "line" (.integer .u32)
  have inRow : InRow .u32 (Spells (budget + 1)) line.given hole [.required "name" .text, line]
      (fun value => ("x", value, ())) [Json.stringChars "x", hole] :=
    .later (Json.spellsString_stringChars "x") (.first rfl)
  have separated : Separated [Json.stringChars "x", hole]
      (Json.stringChars "x" ++ ',' :: (hole ++ [])) := .cons blank (.cons blank blank (.nil blank))
  exact .node (rfl : Kind.identifier.layout = .record _ _ _ _) (.array .here inRow separated)

/-- The greatest finite real, as a line in plain decimals. It is beyond 64 bits and does not
overflow a real, but it is refused as a text that is not well formed and not for its type: its
leading digits are scaled out of range. -/
theorem readWhole_integer_greatest :
    ¬(2 ^ 1024 - 2 ^ 971 < (twoTo 64 : Int)) ∧
      Binary64.ofDecimal? false (2 ^ 1024 - 2 ^ 971) 0 = some ⟨0x7FEFFFFFFFFFFFFF⟩ ∧
      Binary64.isFinite ⟨0x7FEFFFFFFFFFFFFF⟩ = true ∧
      read .identifier ("[\"x\"," ++ toString (2 ^ 1024 - 2 ^ 971 : Int) ++ "]") =
        .error .malformed := by
  have beyond : ¬(2 ^ 1024 - 2 ^ 971 < (twoTo 64 : Int)) := by decide +kernel
  refine ⟨beyond, ?_, ?_, ?_⟩
  · decide +kernel
  · decide +kernel
  · obtain ⟨lead, left, _, refused⟩ :=
      @readInteger_beyond .u32 (2 ^ 1024 - 2 ^ 971) fun within => beyond within.2
    have large : Json.scalingBound ≤ (2 ^ 1024 - 2 ^ 971 : Int).natAbs := by decide +kernel
    rw [if_pos large] at refused
    -- Said of any number, because the digits of this one are too many to be computed.
    have isText (number : Int) : ("[\"x\"," ++ toString number ++ "]").toList = [] ++
        ('[' :: (Json.stringChars "x" ++ ',' :: ((toString number).toList ++ []) ++ [']']) ++
          []) := by
      simp only [String.toList_append, List.nil_append, List.append_nil]
      rfl
    exact readWhole_core (.value (.node .identifier)) (.error .malformed)
      ((stands_line _ 125).refused List.nodup_nil (starts_toString _) refused)
      Json.blank_nil Json.blank_nil (isText _)

/-- A line beyond 32 bits, in an identifier that is written as an array inside a statement. -/
theorem readWhole_integer_line :
    ∃ problem,
      read .stmt "\x7b\"Input\":\x7b\"target\":[\"x\",4294967296]\x7d\x7d" =
        .error (.data problem) ∧
      problem.message = "invalid value: integer `4294967296`, expected u32" := by
  have blank : Blank [] := Json.blank_nil
  let entry (key : String) (value : List Char) : Entry :=
    ⟨⟨Json.stringChars key, [], [], value⟩, key⟩
  have wellFormed (key : String) (value : List Char) : (entry key value).WellFormed :=
    ⟨Json.spellsString_stringChars key, blank, blank⟩
  let hole := (toString (4294967296 : Int)).toList
  let target := entry "target" ('[' :: (Json.stringChars "x" ++ ',' :: (hole ++ []) ++ [']']))
  let field : Field := .node "target" .identifier
  have inFields : InFields .u32 (Spells 125) (fun value => field.given ⟨"x", value⟩) [target]
      target [field] (fun value => (⟨"x", value⟩, ())) :=
    .first (named_cons_self target []) trivial
  have inside : Stands .u32 hole 125 (.value field.shape) (fun value => ⟨"x", value⟩)
      target.value := stands_line hole 123
  have object : Stands .u32 hole 126 (.record "struct InputStmt" [field])
      (fun value => (⟨"x", value⟩, ())) ('\x7b' :: (target.text ++ [] ++ ['\x7d'])) :=
    .object inside inFields (List.forall_mem_singleton.mpr (wellFormed _ _))
      (List.forall_mem_singleton.mpr fun unknown => absurd (by decide) unknown)
      (.cons blank (.nil blank))
  let input := entry "Input" ('\x7b' :: (target.text ++ [] ++ ['\x7d']))
  have statement : Stands .u32 hole 127 (.value (.node .stmt)) (fun value => .input ⟨"x", value⟩)
      ('\x7b' :: (input.text ++ [] ++ ['\x7d'])) :=
    .one (rfl : Kind.stmt.layout = .choice _) (List.mem_of_getElem? (rfl : _[8]? = some _))
      (wellFormed "Input" _) rfl object (.cons blank (.nil blank))
  exact (readWhole_integer statement blank blank (by decide +kernel)).outOfRange (by decide)
    (by decide)

end ScopeLint.Format
