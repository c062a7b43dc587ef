import ScopeLint.Proofs.Format.RoundTrip
import ScopeLint.Proofs.Format.Streaming

/-!
The first problem in a text decides its error. An item that cannot be read is refused where it
ends, before anything behind it is looked at; and behind a program that was read there may be
blanks and nothing else.
-/

set_option autoImplicit false

namespace ScopeLint.Json

/-- The text of one value, with any blanks around. -/
def ValidText (text : String) : Prop :=
  ∃ before core after, Blank before ∧ Valid core ∧ Blank after ∧
    text.toList = before ++ (core ++ after)

theorem Settled.append {first second : List Char} (settled : Settled first)
    (settledNext : Settled second) : Settled (first ++ second) := by
  intro char isLast
  rw [List.getLast?_append] at isLast
  cases last : second.getLast? with
  | none =>
      rw [last] at isLast
      exact settled char isLast
  | some other =>
      rw [last] at isLast
      exact settledNext char (last.trans isLast)

theorem Blank.settled {blank : List Char} (isBlank : Blank blank) : Settled blank := by
  intro char isLast
  cases isDigit : char.isDigit with
  | false => rfl
  | true =>
      have notBlank := notBlank_of_number (.inr isDigit)
      rw [isBlank char (List.mem_of_getLast? isLast)] at notBlank
      exact nomatch notBlank

theorem settled_concat (front : List Char) {last : Char} (noDigit : last.isDigit = false) :
    Settled (front ++ [last]) := by
  intro char isLast
  rw [List.getLast?_concat] at isLast
  rw [← Option.some.inj isLast, noDigit]

/-- Of all values only a number can go on in the text behind it. -/
theorem Valid.settled {text : List Char} (valid : Valid text) :
    Settled text ∨ ∃ char others, text = char :: others ∧ (char = '-' ∨ char.isDigit = true) := by
  cases valid with
  | nullWord => exact .inl (settled_concat ['n', 'u', 'l'] rfl)
  | trueWord => exact .inl (settled_concat ['t', 'r', 'u'] rfl)
  | falseWord => exact .inl (settled_concat ['f', 'a', 'l', 's'] rfl)
  | string loose =>
      obtain ⟨inside, _, rfl⟩ := loose
      exact .inl (settled_concat ('"' :: inside) rfl)
  | number spells => exact .inr spells.exists_cons
  | array _ _ => exact .inl (settled_concat ('[' :: _) rfl)
  | object _ _ _ _ => exact .inl (settled_concat ('\x7b' :: _) rfl)

end ScopeLint.Json

namespace ScopeLint.Format

open Json (Begins Blank Leads Settled ValidText Within skipBlanks)

/-! ### Lists -/

theorem leads_lead (started : Bool) {pad before : List Char} (isPad : Blank pad)
    (blankBefore : Blank before) : Leads started (pad ++ (lead started ++ before)) := by
  cases started with
  | true => exact ⟨pad, before, isPad, blankBefore, rfl⟩
  | false => exact List.forall_mem_append.mpr ⟨isPad, blankBefore⟩

theorem intercalate_cons_concat (text last : List Char) (texts : List (List Char)) :
    [','].intercalate (text :: texts ++ [last]) =
      text ++ (lead true ++ [','].intercalate (texts ++ [last])) := by
  cases others : texts ++ [last] with
  | nil => exact absurd others (by simp)
  | cons next others =>
      rw [List.cons_append, others, List.intercalate_cons_cons, List.append_assoc]
      rfl

theorem length_lt_intercalate {last : List Char} (nonempty : last ≠ [])
    (texts : List (List Char)) :
    texts.length < ([','].intercalate (texts ++ [last])).length := by
  induction texts with
  | nil =>
      rw [List.nil_append, List.intercalate_singleton]
      exact List.length_pos_iff.mpr nonempty
  | cons text texts ih =>
      rw [intercalate_cons_concat]
      simp only [lead, if_true, List.length_append, List.length_cons, List.length_nil]
      omega

/-- The first item that is refused decides the error of the list, whatever stands behind it. -/
theorem readItems_stops {α : Type} {item : Reader α} {problem : ReadError}
    (blanks : ∀ {blank : List Char}, Blank blank → ∀ text, item (blank ++ text) = item text)
    {texts : List (List Char)} {bad : List Char}
    (reads : ∀ text ∈ texts, ∃ before core after value, Blank before ∧ Begins core ∧
      Blank after ∧ text = before ++ (core ++ after) ∧
      ∀ rest, item (core ++ (after ++ rest)) = .ok (value, after ++ rest))
    (stops : ∃ before core, Blank before ∧ Begins core ∧ bad = before ++ core ∧
      ∀ rest, item (core ++ rest) = .error problem)
    {pad : List Char} (isPad : Blank pad) (started : Bool) (taken : List α) {rounds : List Char}
    (enough : texts.length < rounds.length) (rest : List Char) :
    readItems item rounds started taken
        (pad ++ (lead started ++ ([','].intercalate (texts ++ [bad]) ++ rest))) =
      .error problem := by
  -- What is left behind an item are the blanks after it. The list goes on with them, so the
  -- induction keeps them open.
  induction texts generalizing pad started taken rounds with
  | nil =>
      obtain ⟨before, core, blankBefore, begins, rfl, badRead⟩ := stops
      have leads := leads_lead started isPad blankBefore
      have stepped := readItems_leads blanks leads begins enough taken rest
      simp only [List.append_assoc] at stepped
      simp only [List.nil_append, List.intercalate_singleton, List.append_assoc, stepped, badRead]
  | cons text texts ih =>
      rw [List.forall_mem_cons] at reads
      obtain ⟨before, core, after, value, blankBefore, begins, blankAfter, rfl, textRead⟩ :=
        reads.1
      have leads := leads_lead started isPad blankBefore
      rw [List.length_cons] at enough
      have enoughLeft : texts.length < rounds.tail.length := by
        rw [List.length_tail]
        omega
      have stepped := readItems_leads blanks leads begins (Nat.zero_lt_of_lt enough) taken
        (after ++ (lead true ++ ([','].intercalate (texts ++ [bad]) ++ rest)))
      have othersRead := ih reads.2 blankAfter true (value :: taken) enoughLeft
      rw [textRead] at stepped
      simp only [List.append_assoc, othersRead] at stepped
      simp only [intercalate_cons_concat, List.append_assoc, stepped]

/-! ### Items -/

theorem Kept.eq_of_ok {α : Type} {holds : List Char → Prop} {more rest : List Char}
    {first second : Outcome α} {value : α} (kept : Kept holds more first second)
    (isRead : first = .ok (value, rest)) : second = .ok (value, rest ++ more) := by
  cases kept with
  | read _ _ =>
      cases isRead
      rfl
  | _ => exact nomatch isRead

theorem Kept.eq_of_data {α : Type} {holds : List Char → Prop} {more : List Char}
    {first second : Outcome α} {problem : DataProblem} (kept : Kept holds more first second)
    (isRefused : first = .error (.data problem)) : second = .error (.data problem) := by
  cases kept with
  | refused _ => exact isRefused
  | _ => exact nomatch isRefused

theorem settled_of_spellsChoice {α : Type} {inside? : Option Grammar} {cases : List (Case α)}
    {node : α} {core : List Char} (spells : SpellsChoice inside? cases node core) :
    Settled core := by
  obtain ⟨case, _, ⟨_, _, inside, _, rfl⟩ | ⟨_, _, _, _, between, _, _, _, _, _, rfl⟩⟩ := spells
  · exact Json.settled_concat ('"' :: inside) rfl
  · exact Json.settled_concat ('\x7b' :: between) rfl

/-- The brackets that may still be opened inside the list of items of a program. -/
def itemLimit : Nat := 125

section Items

variable {text : String} {before core after : List Char}

/-- What is read of a whole text is read of it within a list, whatever follows. -/
theorem kept_item (blankBefore : Blank before) (settled : Settled core) (blankAfter : Blank after)
    (isText : text.toList = before ++ (core ++ after))
    (shallow : Json.nesting text ≤ itemLimit) (rest : List Char) :
    Kept (Within 0 itemLimit) rest
      (readForm depthLimit (.value (.node .item)) (core ++ after))
      (readForm itemLimit (.value (.node .item)) (core ++ after ++ rest)) := by
  have whole : Within 0 itemLimit text.toList := by
    refine ⟨?_, by rwa [Nat.zero_add]⟩
    rw [isText]
    exact blankBefore.settled.append (settled.append blankAfter.settled)
  rw [isText] at whole
  exact (keepsForms_readForm 0 itemLimit 2 rest).keeps (.value (.node .item)) _
    (whole.later blankBefore.passes)

theorem exists_core_of_read {item : Item} (isRead : read .item text = .ok item)
    (shallow : Json.nesting text ≤ itemLimit) :
    ∃ before core after value, Blank before ∧ Begins core ∧ Blank after ∧
      text.toList = before ++ (core ++ after) ∧
      ∀ rest, readForm itemLimit (.value (.node .item)) (core ++ (after ++ rest)) =
        .ok (value, after ++ rest) := by
  obtain ⟨before, core, after, blankBefore, spells, blankAfter, isText⟩ := read_eq_ok_iff.mp isRead
  have begins := ((complete_readForm depthLimit).starts spells).1
  refine ⟨before, core, after, item, blankBefore, begins, blankAfter, isText, fun rest => ?_⟩
  have kept := kept_item blankBefore (settled_of_spellsChoice spells) blankAfter isText shallow rest
  rw [← List.append_assoc]
  exact kept.eq_of_ok (readForm_node_spelled spells after)

/-- A number is no choice, and no data error either: its digits are not looked at. -/
theorem readChoice_number {α : Type} (inner : Inner) (cases : List (Case α)) {char : Char}
    (isNumber : char = '-' ∨ char.isDigit = true) (others : List Char) :
    readChoice inner cases (char :: others) = malformed := by
  have noQuote : char ≠ '"' := Json.ne_of_numberStart isNumber ⟨by decide, rfl⟩
  have noBrace : char ≠ '\x7b' := Json.ne_of_numberStart isNumber ⟨by decide, rfl⟩
  simp only [readChoice, Json.skipBlanks_cons (Json.notBlank_of_number isNumber),
    List.cons.injEq, noQuote, noBrace, false_and, imp_self, implies_true]

theorem settled_of_refused {problem : DataProblem} (valid : Json.Valid core)
    (isRefused : readForm depthLimit (.value (.node .item)) (core ++ after) =
      .error (.data problem)) : Settled core := by
  rcases valid.settled with settled | ⟨char, others, rfl, isNumber⟩
  · exact settled
  · have lost : readForm depthLimit (.value (.node .item)) (char :: others ++ after) =
        malformed := by
      change readNode (some (readForm 126)) Layout.item _ = _
      rw [readNode]
      exact readChoice_number _ _ isNumber _
    cases lost.symm.trans isRefused

theorem exists_core_of_refused {problem : DataProblem} (valid : ValidText text)
    (shallow : Json.nesting text ≤ itemLimit)
    (isRefused : read .item text = .error (.data problem)) :
    ∃ before core, Blank before ∧ Begins core ∧ text.toList = before ++ core ∧
      ∀ rest, readForm itemLimit (.value (.node .item)) (core ++ rest) =
        .error (.data problem) := by
  obtain ⟨before, core, after, blankBefore, validCore, blankAfter, isText⟩ := valid
  have formRead : readForm depthLimit (.value (.node .item)) (core ++ after) =
      .error (.data problem) := by
    rw [read, readWhole, isText,
      (complete_readForm depthLimit).blanks (.value (.node .item)) blankBefore] at isRefused
    split at isRefused
    next formRead =>
        cases isRefused
        exact formRead
    next =>
        split at isRefused
        next => cases isRefused
        next => cases isRefused
  obtain ⟨char, others, rfl, notBlank, notClosing⟩ := validCore.begins
  refine ⟨before, char :: others ++ after, blankBefore, ⟨char, _, rfl, notBlank, notClosing⟩,
    isText, fun rest => ?_⟩
  have settled := settled_of_refused validCore formRead
  exact (kept_item blankBefore settled blankAfter isText shallow rest).eq_of_data formRead

end Items

/-! ### Programs -/

/-- A problem among the items is the problem of the program. -/
theorem readForm_program_of_items {budget : Nat} {problem : ReadError} {rest : List Char}
    (itemsRead : readItems (readForm budget (.value (.node .item))) rest false [] rest =
      .error problem) :
    readForm (budget + 2) (.value (.node .program)) ("\x7b\"items\":[".toList ++ rest) =
      .error problem := by
  let inner := readForm (budget + 1)
  have listRead : inner (.value (.list (.node .item))) ('[' :: rest) = .error problem := by
    change readList (some (readForm budget)) (.node .item) ('[' :: rest) = _
    have notBlank : Json.isBlank '[' = false := by decide
    simp only [readList, Json.skipBlanks_cons notBlank, itemsRead]
  let fields : List Field := [.nodes "items" .item]
  have entryRead : readEntry inner "items" fields (Slots.empty fields) (':' :: '[' :: rest) =
      .error problem := by
    have notBlank : Json.isBlank ':' = false := by decide
    simp only [fields, Slots.empty, readEntry, if_true, Field.key, readColon,
      Json.skipBlanks_cons notBlank, readField, listRead, Outcome.onValue]
  have isText : "\x7b\"items\":[".toList = '\x7b' :: (Json.stringChars "items" ++ [':', '[']) := by
    decide
  obtain ⟨quoted, isRound, _⟩ := Json.scanString?_stringChars "items" (':' :: '[' :: rest)
  have entriesRead := (readEntries_lead fields false isRound (Slots.empty fields) "items"
    (':' :: '[' :: rest)).1 problem entryRead
  have notBlank : Json.isBlank '\x7b' = false := by decide
  have recordRead : readRecord (some inner) "struct Program" fields
      ('\x7b' :: (Json.stringChars "items" ++ ':' :: '[' :: rest)) = .error problem := by
    simp only [readRecord, Json.skipBlanks_cons notBlank]
    exact entriesRead
  rw [isText, List.cons_append, List.append_assoc]
  change (readRecord (some inner) "struct Program" fields _).onValue _ = _
  simp only [List.cons_append, List.nil_append, recordRead, Outcome.onValue]

theorem read_of_items_refused {texts : List String} {bad : String} {problem : DataProblem}
    (reads : ∀ text ∈ texts,
      (∃ item, read .item text = .ok item) ∧ Json.nesting text ≤ itemLimit)
    (valid : ValidText bad) (shallow : Json.nesting bad ≤ itemLimit)
    (isRefused : read .item bad = .error (.data problem)) (rest : String) :
    read .program ("\x7b\"items\":[" ++ ",".intercalate (texts ++ [bad]) ++ rest) =
      .error (.data problem) := by
  have goodRead : ∀ text ∈ texts.map String.toList, ∃ before core after value, Blank before ∧
      Begins core ∧ Blank after ∧ text = before ++ (core ++ after) ∧
      ∀ rest, readForm itemLimit (.value (.node .item)) (core ++ (after ++ rest)) =
        .ok (value, after ++ rest) := by
    rw [List.forall_mem_map]
    intro text isText
    obtain ⟨item, isRead⟩ := (reads text isText).1
    exact exists_core_of_read isRead (reads text isText).2
  have badRead := exists_core_of_refused valid shallow isRefused
  have nonempty : bad.toList ≠ [] := by
    obtain ⟨before, _, _, ⟨char, others, rfl, _⟩, isBad, _⟩ := badRead
    rw [isBad]
    exact List.append_ne_nil_of_right_ne_nil before (List.cons_ne_nil char others)
  let joined := [','].intercalate (texts.map String.toList ++ [bad.toList])
  have enough : (texts.map String.toList).length < (joined ++ rest.toList).length := by
    rw [List.length_append]
    exact Nat.lt_add_right _ (length_lt_intercalate nonempty _)
  have itemsRead := readItems_stops
    ((complete_readForm itemLimit).blanks (.value (.node .item))) goodRead badRead
    Json.blank_nil false [] enough rest.toList
  have formRead : readForm depthLimit (.value (.node .program))
      ("\x7b\"items\":[".toList ++ (joined ++ rest.toList)) = .error (.data problem) :=
    readForm_program_of_items itemsRead
  have isText : ("\x7b\"items\":[" ++ ",".intercalate (texts ++ [bad]) ++ rest).toList =
      "\x7b\"items\":[".toList ++ (joined ++ rest.toList) := by
    have comma : ",".toList = [','] := by decide
    simp only [String.toList_append, String.toList_intercalate, List.map_append, List.map_cons,
      List.map_nil, comma, joined, List.append_assoc]
  rw [read, readWhole, isText, formRead]

/-- The first problem of a text decides its error. An item that is refused makes its error that
of the whole text, whatever stands behind it; and behind a program that was read anything but
blanks is an error of its own. -/
theorem firstProblem_decides :
    (∀ (texts : List String) (bad : String) (problem : DataProblem) (rest : String),
      (∀ text ∈ texts, (∃ item, read .item text = .ok item) ∧ Json.nesting text ≤ itemLimit) →
      ValidText bad → Json.nesting bad ≤ itemLimit → read .item bad = .error (.data problem) →
      read .program ("\x7b\"items\":[" ++ ",".intercalate (texts ++ [bad]) ++ rest) =
        .error (.data problem)) ∧
    (∀ (text rest : String) (program : Program), read .program text = .ok program →
      (Blank rest.toList → read .program (text ++ rest) = .ok program) ∧
      (¬Blank rest.toList → read .program (text ++ rest) = .error .malformed)) := by
  constructor
  · intro texts bad problem rest reads valid shallow isRefused
    exact read_of_items_refused reads valid shallow isRefused rest
  · intro text rest program isRead
    obtain ⟨before, core, after, blankBefore, spells, blankAfter, isText⟩ :=
      read_eq_ok_iff.mp isRead
    have isWhole : (text ++ rest).toList = before ++ (core ++ (after ++ rest.toList)) := by
      rw [String.toList_append, isText, List.append_assoc, List.append_assoc]
    constructor
    · intro blankRest
      exact read_eq_ok_iff.mpr ⟨before, core, after ++ rest.toList, blankBefore, spells,
        List.forall_mem_append.mpr ⟨blankAfter, blankRest⟩, isWhole⟩
    · intro notBlank
      have notEnd : skipBlanks (after ++ rest.toList) ≠ [] := by
        intro isEnd
        rw [Json.skipBlanks_append blankAfter] at isEnd
        obtain ⟨blank, isRest, isBlank⟩ := Json.exists_blank_of_skipBlanks isEnd
        rw [List.append_nil] at isRest
        exact notBlank (isRest ▸ isBlank)
      rw [read, readWhole, isWhole,
        (complete_readForm depthLimit).blanks (.value (.node .program)) blankBefore,
        readForm_node_spelled spells]
      exact if_neg notEnd

/-- A bare tag after an item that is read, in a list that is never closed; and a program with
something behind it. -/
theorem firstProblem_decides_unclosed :
    read .program
        "\x7b\"items\":[\x7b\"Stmt\":\x7b\"Output\":\x7b\"items\":[]\x7d\x7d\x7d,\"Decl\", [\x7d" =
      .error (.data (.invalidType .bareVariant "newtype variant")) ∧
    read .program ("\x7b\"items\":[]\x7d" ++ " \n") = .ok ⟨[]⟩ ∧
    read .program ("\x7b\"items\":[]\x7d" ++ " ]") = .error .malformed := by
  let good : Item := .stmt (.output [])
  have goodText : (Kind.item.toJson good).text =
      "\x7b\"Stmt\":\x7b\"Output\":\x7b\"items\":[]\x7d\x7d\x7d" := by decide +kernel
  have goodRead : read .item (Kind.item.toJson good).text = .ok good :=
    read_text ⟨by decide +kernel, by decide +kernel⟩
  have badRead : read .item "\"Decl\"" =
      .error (.data (.invalidType .bareVariant "newtype variant")) := by
    have isText : "\"Decl\"".toList = ['"', 'D', 'e', 'c', 'l', '"'] := by decide
    rw [read, readWhole, isText]
    rfl
  have badValid : ValidText "\"Decl\"" :=
    ⟨[], _, [], Json.blank_nil, .string (Json.spellsString_stringChars "Decl").loose,
      Json.blank_nil, by decide⟩
  have emptyText : (Kind.program.toJson ⟨[]⟩).text = "\x7b\"items\":[]\x7d" := by decide +kernel
  have emptyRead : read .program (Kind.program.toJson ⟨[]⟩).text = .ok ⟨[]⟩ :=
    read_text ⟨by decide +kernel, by decide +kernel⟩
  rw [goodText] at goodRead
  rw [emptyText] at emptyRead
  refine ⟨?_, ?_, ?_⟩
  · exact firstProblem_decides.1 ["\x7b\"Stmt\":\x7b\"Output\":\x7b\"items\":[]\x7d\x7d\x7d"]
      "\"Decl\"" _ ", [\x7d"
      (List.forall_mem_singleton.mpr ⟨⟨good, goodRead⟩, by decide +kernel⟩) badValid
      (by decide +kernel) badRead
  · have isText : " \n".toList = [' ', '\n'] := by decide
    refine (firstProblem_decides.2 _ " \n" _ emptyRead).1 ?_
    rw [isText]
    exact List.forall_mem_cons.mpr ⟨rfl, List.forall_mem_singleton.mpr rfl⟩
  · have isText : " ]".toList = [' ', ']'] := by decide
    refine (firstProblem_decides.2 _ " ]" _ emptyRead).2 ?_
    rw [isText]
    intro blank
    have isBlank := blank ']' (List.mem_cons_of_mem _ List.mem_cons_self)
    exact absurd isBlank (by decide)

end ScopeLint.Format
