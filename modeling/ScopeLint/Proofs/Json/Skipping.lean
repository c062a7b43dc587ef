import ScopeLint.Json.Skip
import ScopeLint.Proofs.Json.Scanning

/-!
What is passed over is a JSON value of the grammar, and every such value is passed over. The
brackets that are open stand on a list; what the text still owes is one end for each of them.
-/

set_option autoImplicit false

namespace ScopeLint.Json

/-! ### Strings without their content -/

theorem looseChar_of_skipStringChar? {text rest : List Char}
    (skipped : skipStringChar? text = some rest) :
    ∃ spelled, text = spelled ++ rest ∧ LooseChar spelled := by
  cases text with
  | nil => exact nomatch skipped
  | cons char text =>
      simp only [skipStringChar?] at skipped
      split at skipped
      next isBackslash =>
          rw [isBackslash]
          split at skipped
          next => exact nomatch skipped
          next letter others =>
              split at skipped
              next isUnit =>
                  rw [isUnit]
                  split at skipped
                  next a b c d others =>
                      obtain ⟨unit, isUnit, rfl⟩ := Option.map_eq_some_iff.mp skipped
                      exact ⟨['\\', 'u', a, b, c, d], rfl, .unit isUnit⟩
                  next => exact nomatch skipped
              next =>
                  obtain ⟨char, isShort, rfl⟩ := Option.map_eq_some_iff.mp skipped
                  exact ⟨['\\', letter], rfl, .short isShort⟩
      next notBackslash =>
          split at skipped
          next => exact nomatch skipped
          next noEnd =>
              cases skipped
              exact ⟨[char], rfl, .raw (isRaw_iff.mpr ⟨notBackslash, noEnd⟩)⟩

theorem skipStringChar?_append {spelled : List Char} (loose : LooseChar spelled)
    (rest : List Char) : skipStringChar? (spelled ++ rest) = some rest := by
  cases loose with
  | raw isRaw =>
      rcases isRaw_iff.mp isRaw with ⟨notBackslash, noEnd⟩
      simp only [List.cons_append, List.nil_append, skipStringChar?, notBackslash, noEnd, if_false]
  | short isShort =>
      simp only [List.cons_append, List.nil_append, skipStringChar?, if_true,
        ne_u_of_shortEscape? isShort, if_false, isShort, Option.map_some]
  | unit isUnit =>
      simp only [List.cons_append, List.nil_append, skipStringChar?, if_true, isUnit,
        Option.map_some]

theorem LooseChar.exists_cons {spelled : List Char} (loose : LooseChar spelled) :
    ∃ first others, spelled = first :: others ∧ first ≠ '"' := by
  cases loose with
  | @raw char isRaw => exact ⟨char, [], rfl, isRaw.1⟩
  | _ => exact ⟨'\\', _, rfl, by decide⟩

theorem looseChars_of_skipStringFrom {rounds text rest : List Char}
    (skipped : skipStringFrom rounds text = some rest) :
    ∃ inside, LooseChars inside ∧ text = inside ++ '"' :: rest := by
  induction rounds generalizing text with
  | nil =>
      cases text with
      | nil => exact nomatch skipped
      | cons char text =>
          rw [skipStringFrom] at skipped
          split at skipped
          next isQuote =>
              cases skipped
              exact ⟨[], .nil, by rw [isQuote]; rfl⟩
          next => exact nomatch skipped
  | cons _ rounds ih =>
      cases text with
      | nil => exact nomatch skipped
      | cons char text =>
          rw [skipStringFrom] at skipped
          split at skipped
          next isQuote =>
              cases skipped
              exact ⟨[], .nil, by rw [isQuote]; rfl⟩
          next =>
              split at skipped
              next => exact nomatch skipped
              next tail charSkipped =>
                  obtain ⟨spelled, isText, loose⟩ := looseChar_of_skipStringChar? charSkipped
                  obtain ⟨inside, others, rfl⟩ := ih skipped
                  refine ⟨spelled ++ inside, .cons loose others, ?_⟩
                  rw [isText, List.append_assoc]

theorem skipStringFrom_spelled {inside : List Char} (loose : LooseChars inside)
    {rounds rest : List Char} (enough : inside.length ≤ rounds.length) :
    skipStringFrom rounds (inside ++ '"' :: rest) = some rest := by
  induction loose generalizing rounds with
  | nil =>
      rw [List.nil_append]
      unfold skipStringFrom
      rfl
  | @cons text texts first others ih =>
      obtain ⟨opening, spelled, rfl, notQuote⟩ := first.exists_cons
      cases rounds with
      | nil => exact absurd enough (Nat.not_succ_le_zero _)
      | cons _ rounds =>
          have charSkipped := skipStringChar?_append first (texts ++ '"' :: rest)
          have enoughLeft : texts.length ≤ rounds.length := by
            simp only [List.cons_append, List.length_cons, List.length_append] at enough
            omega
          rw [List.append_assoc]
          rw [List.cons_append] at charSkipped ⊢
          simp only [skipStringFrom, notQuote, if_false, charSkipped, ih enoughLeft]

theorem looseString_of_skipString? {text rest : List Char}
    (skipped : skipString? text = some rest) :
    ∃ spelled, LooseString spelled ∧ '"' :: text = spelled ++ rest := by
  obtain ⟨inside, loose, rfl⟩ := looseChars_of_skipStringFrom skipped
  refine ⟨'"' :: (inside ++ ['"']), ⟨inside, loose, rfl⟩, ?_⟩
  simp only [List.cons_append, List.append_assoc, List.nil_append]

theorem skipString?_append {spelled : List Char} (loose : LooseString spelled) (rest : List Char) :
    ∃ tail, spelled ++ rest = '"' :: tail ∧ skipString? tail = some rest := by
  rcases loose with ⟨inside, loose, rfl⟩
  refine ⟨inside ++ '"' :: rest, ?_, ?_⟩
  · simp only [List.cons_append, List.append_assoc, List.nil_append]
  · have enough : inside.length ≤ (inside ++ '"' :: rest).length := by
      rw [List.length_append]
      exact Nat.le_add_right _ _
    rw [skipString?, skipStringFrom_spelled loose enough]

/-! ### Items -/

def Bracket.opening : Bracket → Char
  | array => '['
  | object => '\x7b'

/-- What may stand between the commas inside a bracket: a value, or a member with its key. -/
inductive IsItem : Bracket → List Char → Prop where
  | value {text : List Char} (valid : Valid text) : IsItem .array text
  | member {member : Member} (key : LooseString member.quoted) (blankBefore : Blank member.before)
      (blankAfter : Blank member.after) (valid : Valid member.value) : IsItem .object member.text

theorem valid_of_items {bracket : Bracket} {items : List (List Char)} {inside : List Char}
    (areItems : ∀ item ∈ items, IsItem bracket item) (separated : Separated items inside) :
    Valid (bracket.opening :: (inside ++ [bracket.closing])) := by
  cases bracket with
  | array =>
      refine .array (fun item isMember => ?_) separated
      cases areItems item isMember with
      | value valid => exact valid
  | object =>
      have members : ∃ members : List Member, items = members.map Member.text ∧
          ∀ member ∈ members, LooseString member.quoted ∧
            (Blank member.before ∧ Blank member.after) ∧ Valid member.value := by
        clear separated
        induction items with
        | nil => exact ⟨[], rfl, nofun⟩
        | cons item items ih =>
            rw [List.forall_mem_cons] at areItems
            obtain ⟨members, isMap, areMembers⟩ := ih areItems.2
            cases areItems.1 with
            | @member member key blankBefore blankAfter valid =>
                refine ⟨member :: members, by rw [isMap, List.map_cons], ?_⟩
                rw [List.forall_mem_cons]
                exact ⟨⟨key, ⟨blankBefore, blankAfter⟩, valid⟩, areMembers⟩
      obtain ⟨members, rfl, areMembers⟩ := members
      exact .object (fun member isMember => (areMembers member isMember).1)
        (fun member isMember => (areMembers member isMember).2.1)
        (fun member isMember => (areMembers member isMember).2.2) separated

/-! ### What is passed over is valid -/

/-- What the front of a value is that was entered: all of it, or its opening bracket alone. -/
inductive Entered : Option Bracket → List Char → Prop where
  | whole {text : List Char} (valid : Valid text) : Entered none text
  | opening (bracket : Bracket) : Entered (some bracket) [bracket.opening]

theorem entered_of_enterValue? {text rest : List Char} {entered : Option Bracket}
    (isEntered : enterValue? text = some (entered, rest)) :
    ∃ before core, Blank before ∧ text = before ++ (core ++ rest) ∧ Entered entered core := by
  unfold enterValue? at isEntered
  split at isEntered
  next => exact nomatch isEntered
  next char others skipped =>
      obtain ⟨before, rfl, blankBefore⟩ := exists_blank_of_skipBlanks skipped
      refine ⟨before, ?_⟩
      have word {tail : List Char} (valid : Valid (char :: tail))
          (scanned : (scanWord? tail others).map (none, ·) = some (entered, rest)) :
          ∃ core, Blank before ∧ before ++ char :: others = before ++ (core ++ rest) ∧
            Entered entered core := by
        obtain ⟨left, isWord, same⟩ := Option.map_eq_some_iff.mp scanned
        cases same
        exact ⟨char :: tail, blankBefore, by rw [eq_of_scanWord? isWord]; rfl, .whole valid⟩
      split at isEntered
      next isOpening =>
          cases isEntered
          exact ⟨['['], blankBefore, by rw [isOpening]; rfl, .opening .array⟩
      next =>
      split at isEntered
      next isOpening =>
          cases isEntered
          exact ⟨['\x7b'], blankBefore, by rw [isOpening]; rfl, .opening .object⟩
      next =>
      split at isEntered
      next isQuote =>
          obtain ⟨left, skipped, same⟩ := Option.map_eq_some_iff.mp isEntered
          cases same
          obtain ⟨core, loose, isText⟩ := looseString_of_skipString? skipped
          exact ⟨core, blankBefore, by rw [isQuote, isText], .whole (.string loose)⟩
      next =>
      split at isEntered
      next isFirst => exact word (isFirst ▸ .nullWord) isEntered
      next =>
      split at isEntered
      next isFirst => exact word (isFirst ▸ .trueWord) isEntered
      next =>
      split at isEntered
      next isFirst => exact word (isFirst ▸ .falseWord) isEntered
      next =>
          obtain ⟨⟨numeral, left⟩, scanned, same⟩ := Option.map_eq_some_iff.mp isEntered
          cases same
          obtain ⟨core, isText, spells⟩ := spellsNumeral_of_scanNumeral? scanned
          exact ⟨core, blankBefore, by rw [isText], .whole (.number spells)⟩

theorem key_of_skipKey? {text rest : List Char} (skipped : skipKey? text = some rest) :
    ∃ before quoted after, Blank before ∧ LooseString quoted ∧ Blank after ∧
      text = before ++ (quoted ++ (after ++ ':' :: rest)) := by
  unfold skipKey? at skipped
  split at skipped
  next others isFirst =>
      obtain ⟨before, rfl, blankBefore⟩ := exists_blank_of_skipBlanks isFirst
      split at skipped
      next => exact nomatch skipped
      next left stringSkipped =>
          split at skipped
          next others isColon =>
              cases skipped
              obtain ⟨quoted, loose, isText⟩ := looseString_of_skipString? stringSkipped
              obtain ⟨after, rfl, blankAfter⟩ := exists_blank_of_skipBlanks isColon
              exact ⟨before, quoted, after, blankBefore, loose, blankAfter, by rw [isText]⟩
          next => exact nomatch skipped
  next => exact nomatch skipped

/-- The front of an item, with what stands in it before its value. -/
theorem entered_of_enterItem? {inside : Bracket} {text rest : List Char}
    {entered : Option Bracket} (isEntered : enterItem? inside text = some (entered, rest)) :
    ∃ before front core, Blank before ∧ text = before ++ (front ++ (core ++ rest)) ∧
      Entered entered core ∧ ∀ value, Valid value → IsItem inside (front ++ value) := by
  unfold enterItem? at isEntered
  split at isEntered
  next =>
      obtain ⟨before, core, blankBefore, rfl, isCore⟩ := entered_of_enterValue? isEntered
      exact ⟨before, [], core, blankBefore, rfl, isCore, fun value valid => .value valid⟩
  next =>
      split at isEntered
      next => exact nomatch isEntered
      next left skipped =>
          obtain ⟨before, quoted, gap, blankBefore, loose, blankGap, rfl⟩ :=
            key_of_skipKey? skipped
          obtain ⟨pad, core, blankPad, rfl, isCore⟩ := entered_of_enterValue? isEntered
          refine ⟨before, quoted ++ (gap ++ ':' :: pad), core, blankBefore, ?_, isCore, ?_⟩
          · simp only [List.append_assoc, List.cons_append]
          · intro value valid
            have isMember : IsItem .object (Member.text ⟨quoted, gap, pad, value⟩) :=
              .member loose blankGap blankPad valid
            simpa only [Member.text, List.append_assoc, List.cons_append] using isMember

/-- The items up to the end of a bracket. -/
def Finishes (started : Bool) (inside : Bracket) (text : List Char) : Prop :=
  ∃ items between, (∀ item ∈ items, IsItem inside item) ∧ Listed started items between ∧
    text = between ++ [inside.closing]

def FinishesAll (started : Bool) (inside : Bracket) : List Bracket → List Char → Prop
  | [], text => Finishes started inside text
  | around :: outer, text =>
      ∃ first others, text = first ++ others ∧ Finishes started inside first ∧
        FinishesAll true around outer others

theorem finishes_closing {started : Bool} {inside : Bracket} {blank : List Char}
    (isBlank : Blank blank) : Finishes started inside (blank ++ [inside.closing]) :=
  ⟨[], blank, nofun, listed_nil_iff.mpr isBlank, rfl⟩

theorem Finishes.cons {started : Bool} {inside : Bracket} {lead item text : List Char}
    (finishes : Finishes true inside text) (leads : Leads started lead)
    (isItem : IsItem inside item) : Finishes started inside (lead ++ (item ++ text)) := by
  rcases finishes with ⟨items, between, areItems, listed, rfl⟩
  refine ⟨item :: items, lead ++ (item ++ between), ?_,
    listed_cons_iff.mpr ⟨lead, between, leads, listed, rfl⟩, ?_⟩
  · rw [List.forall_mem_cons]
    exact ⟨isItem, areItems⟩
  · simp only [List.append_assoc]

theorem FinishesAll.cons {started : Bool} {inside : Bracket} {outer : List Bracket}
    {lead item text : List Char} (finishes : FinishesAll true inside outer text)
    (leads : Leads started lead) (isItem : IsItem inside item) :
    FinishesAll started inside outer (lead ++ (item ++ text)) := by
  cases outer with
  | nil => exact Finishes.cons finishes leads isItem
  | cons around outer =>
      rcases finishes with ⟨first, others, rfl, finishesFirst, finishesOthers⟩
      refine ⟨lead ++ (item ++ first), others, ?_, finishesFirst.cons leads isItem,
        finishesOthers⟩
      simp only [List.append_assoc]

theorem finishesAll_of_skipOpen {rounds : List Char} {started : Bool} {inside : Bracket}
    {outer : List Bracket} {text rest : List Char}
    (skipped : skipOpen rounds started inside outer text = some rest) :
    ∃ core, text = core ++ rest ∧ FinishesAll started inside outer core := by
  induction rounds generalizing started inside outer text with
  | nil => exact nomatch skipped
  | cons _ rounds ih =>
      unfold skipOpen at skipped
      split at skipped
      next => exact nomatch skipped
      next char others isFirst =>
          obtain ⟨blank, rfl, isBlank⟩ := exists_blank_of_skipBlanks isFirst
          split at skipped
          next isClosing =>
              rw [isClosing]
              split at skipped
              next =>
                  cases skipped
                  exact ⟨blank ++ [inside.closing], by rw [List.append_assoc]; rfl,
                    finishes_closing isBlank⟩
              next around outer =>
                  obtain ⟨core, rfl, finishes⟩ := ih skipped
                  refine ⟨(blank ++ [inside.closing]) ++ core, ?_, _, core, rfl,
                    finishes_closing isBlank, finishes⟩
                  simp only [List.append_assoc, List.cons_append, List.nil_append]
          next =>
              split at skipped
              next => exact nomatch skipped
              next isComma =>
                  split at skipped
                  next => exact nomatch skipped
                  next left isEntered =>
                      obtain ⟨before, front, core, blankBefore, isText, isCore, isItem⟩ :=
                        entered_of_enterItem? isEntered
                      obtain ⟨lead, leads, isWhole⟩ := exists_leads isBlank blankBefore isComma
                      obtain ⟨tail, rfl, finishes⟩ := ih skipped
                      cases isCore with
                      | whole valid =>
                          refine ⟨lead ++ ((front ++ core) ++ tail), ?_,
                            finishes.cons leads (isItem core valid)⟩
                          rw [isWhole _ isText]
                          simp only [List.append_assoc]
                  next entered left isEntered =>
                      obtain ⟨before, front, core, blankBefore, isText, isCore, isItem⟩ :=
                        entered_of_enterItem? isEntered
                      obtain ⟨lead, leads, isWhole⟩ := exists_leads isBlank blankBefore isComma
                      obtain ⟨_, rfl, first, tail, rfl, finishesFirst, finishes⟩ := ih skipped
                      rcases finishesFirst with ⟨items, between, areItems, separated, rfl⟩
                      have valid := valid_of_items areItems separated
                      cases isCore with
                      | opening bracket =>
                          refine ⟨lead ++ ((front ++ entered.opening ::
                            (between ++ [entered.closing])) ++ tail), ?_,
                            finishes.cons leads (isItem _ valid)⟩
                          rw [isWhole _ isText]
                          simp only [List.append_assoc, List.cons_append, List.nil_append]

theorem valid_of_skipValue? {text rest : List Char} (skipped : skipValue? text = some rest) :
    ∃ before core, Blank before ∧ text = before ++ (core ++ rest) ∧ Valid core := by
  unfold skipValue? at skipped
  split at skipped
  next => exact nomatch skipped
  next left isEntered =>
      cases skipped
      obtain ⟨before, core, blankBefore, isText, isCore⟩ := entered_of_enterValue? isEntered
      cases isCore with
      | whole valid => exact ⟨before, core, blankBefore, isText, valid⟩
  next entered left isEntered =>
      obtain ⟨before, core, blankBefore, isText, isCore⟩ := entered_of_enterValue? isEntered
      obtain ⟨_, rfl, items, between, areItems, separated, rfl⟩ :=
        finishesAll_of_skipOpen skipped
      cases isCore with
      | opening bracket =>
          refine ⟨before, _, blankBefore, ?_, valid_of_items areItems separated⟩
          rw [isText]
          simp only [List.cons_append, List.nil_append]

/-! ### What is valid is passed over -/

theorem LooseString.begins {text : List Char} (loose : LooseString text) : Begins text := by
  rcases loose with ⟨inside, _, rfl⟩
  exact begins_cons rfl (by decide) (by decide)

theorem SpellsNumeral.begins {numeral : Numeral} {text : List Char}
    (spells : SpellsNumeral numeral text) : Begins text := by
  obtain ⟨char, others, rfl, isNumber⟩ := spells.exists_cons
  exact begins_cons (notBlank_of_number isNumber)
    (ne_of_numberStart isNumber ⟨by decide, rfl⟩) (ne_of_numberStart isNumber ⟨by decide, rfl⟩)

theorem Valid.begins {text : List Char} (valid : Valid text) : Begins text := by
  cases valid with
  | string loose => exact loose.begins
  | number spells => exact spells.begins
  | _ => exact begins_cons rfl (by decide) (by decide)

theorem IsItem.begins {inside : Bracket} {text : List Char} (isItem : IsItem inside text) :
    Begins text := by
  cases isItem with
  | value valid => exact valid.begins
  | member key _ _ _ =>
      obtain ⟨char, others, isText, rest⟩ := key.begins
      exact ⟨char, _, by rw [Member.text, isText]; rfl, rest⟩

theorem enterValue?_blank {blank : List Char} (isBlank : Blank blank) (text : List Char) :
    enterValue? (blank ++ text) = enterValue? text := by
  unfold enterValue?
  rw [skipBlanks_append isBlank]

theorem enterItem?_blank {blank : List Char} (isBlank : Blank blank) (inside : Bracket)
    (text : List Char) : enterItem? inside (blank ++ text) = enterItem? inside text := by
  cases inside with
  | array => exact enterValue?_blank isBlank text
  | object => simp only [enterItem?, skipKey?, skipBlanks_append isBlank]

/-- What is left to do when a bracket was closed. -/
def resume (rounds : List Char) (outer : List Bracket) (rest : List Char) :
    Option (List Char) :=
  match outer with
  | [] => some rest
  | around :: outer => skipOpen rounds true around outer rest

/-- From after its opening bracket a text is passed over, however many rounds there are. -/
def Closes (bracket : Bracket) (text : List Char) : Prop :=
  ∀ outer rest rounds, (text ++ rest).length ≤ rounds.length →
    ∃ left, rest.length ≤ left.length ∧
      skipOpen rounds false bracket outer (text ++ rest) = resume left outer rest

/-- A text is entered whole, or by a bracket that closes at its end. -/
def Enters (enter : List Char → Option (Option Bracket × List Char)) (text : List Char) : Prop :=
  ∀ rest, NumberEnds rest → enter (text ++ rest) = some (none, rest) ∨
    ∃ bracket tail, tail.length < text.length ∧
      enter (text ++ rest) = some (some bracket, tail ++ rest) ∧ Closes bracket tail

theorem skipOpen_closing {started : Bool} {inside : Bracket} {outer : List Bracket}
    {blank rest rounds : List Char} (isBlank : Blank blank)
    (enough : (blank ++ inside.closing :: rest).length ≤ rounds.length) :
    ∃ left, rest.length ≤ left.length ∧
      skipOpen rounds started inside outer (blank ++ inside.closing :: rest) =
        resume left outer rest := by
  cases rounds with
  | nil =>
      rw [List.length_append, List.length_cons, List.length_nil] at enough
      omega
  | cons _ rounds =>
      have notBlank : Json.isBlank inside.closing = false := by
        cases inside
        all_goals rfl
      refine ⟨rounds, ?_, ?_⟩
      · simp only [List.length_append, List.length_cons] at enough
        omega
      · simp only [skipOpen, skipBlanks_spelled isBlank notBlank, if_true]
        rfl

/-- Where an item stands, it is entered, after its comma if it has one. -/
theorem skipOpen_lead {started : Bool} {inside : Bracket} {outer : List Bracket}
    {lead item tail rounds rest : List Char} {entered? : Option Bracket} (step : Char)
    (leads : Leads started lead) (begins : Begins item)
    (entered : enterItem? inside (item ++ tail) = some (entered?, rest)) :
    skipOpen (step :: rounds) started inside outer (lead ++ (item ++ tail)) =
      entered?.elim (skipOpen rounds true inside outer rest)
        fun bracket => skipOpen rounds false bracket (inside :: outer) rest := by
  obtain ⟨char, others, blank, skipped, notClosing, isComma, isBlank, isItem⟩ :=
    leads.skipBlanks begins tail
  cases entered? with
  | none =>
      simp only [skipOpen, skipped, notClosing inside, isComma, if_false, isItem,
        enterItem?_blank isBlank, entered, Option.elim_none]
  | some bracket =>
      simp only [skipOpen, skipped, notClosing inside, isComma, if_false, isItem,
        enterItem?_blank isBlank, entered, Option.elim_some]

theorem skipOpen_item {started : Bool} {inside : Bracket} {outer : List Bracket}
    {lead item tail rounds : List Char} (leads : Leads started lead) (begins : Begins item)
    (enters : Enters (enterItem? inside) item) (ends : NumberEnds tail)
    (enough : (lead ++ (item ++ tail)).length ≤ rounds.length) :
    ∃ left, tail.length ≤ left.length ∧
      skipOpen rounds started inside outer (lead ++ (item ++ tail)) =
        skipOpen left true inside outer tail := by
  have nonempty : 0 < item.length := by
    obtain ⟨char, others, rfl, _⟩ := begins
    exact Nat.succ_pos _
  simp only [List.length_append] at enough
  cases rounds with
  | nil =>
      rw [List.length_nil] at enough
      omega
  | cons step rounds =>
      rw [List.length_cons] at enough
      rcases enters tail ends with entered | ⟨bracket, others, shorter, entered, closes⟩
      · rw [skipOpen_lead step leads begins entered]
        exact ⟨rounds, by omega, rfl⟩
      · rw [skipOpen_lead step leads begins entered]
        exact closes (inside :: outer) tail rounds (by rw [List.length_append]; omega)

theorem skipOpen_items {started : Bool} {inside : Bracket} {outer : List Bracket}
    {items : List (List Char)} {between rest rounds : List Char}
    (areItems : ∀ item ∈ items, Begins item ∧ Enters (enterItem? inside) item)
    (listed : Listed started items between)
    (enough : (between ++ inside.closing :: rest).length ≤ rounds.length) :
    ∃ left, rest.length ≤ left.length ∧
      skipOpen rounds started inside outer (between ++ inside.closing :: rest) =
        resume left outer rest := by
  induction items generalizing started between rounds with
  | nil => exact skipOpen_closing (listed_nil_iff.mp listed) enough
  | cons item items ih =>
      rw [List.forall_mem_cons] at areItems
      obtain ⟨lead, others, leads, following, rfl⟩ := listed_cons_iff.mp listed
      rw [List.append_assoc, List.append_assoc] at enough ⊢
      obtain ⟨left, enoughLeft, skipped⟩ := skipOpen_item leads areItems.1.1 areItems.1.2
        (following.numberEnds (inside.numberEnds_closing rest)) enough
      rw [skipped]
      exact ih areItems.2 following enoughLeft

theorem closes_of_items {inside : Bracket} {items : List (List Char)} {between : List Char}
    (areItems : ∀ item ∈ items, Begins item ∧ Enters (enterItem? inside) item)
    (separated : Separated items between) : Closes inside (between ++ [inside.closing]) := by
  intro outer rest rounds enough
  have listed : Listed false items between := separated
  rw [List.append_assoc, List.cons_append, List.nil_append] at enough ⊢
  exact skipOpen_items areItems listed enough

theorem enters_member {member : Member} (key : LooseString member.quoted)
    (blankBefore : Blank member.before) (blankAfter : Blank member.after)
    (value : Enters enterValue? member.value) :
    Enters (enterItem? .object) member.text := by
  intro rest ends
  obtain ⟨tail, isQuoted, skipped⟩ := skipString?_append key
    (member.before ++ ':' :: (member.after ++ (member.value ++ rest)))
  have whole : member.text ++ rest = '"' :: tail := by
    rw [← isQuoted]
    simp only [Member.text, List.append_assoc, List.cons_append]
  have notBlank : isBlank '"' = false := by decide
  have colon : isBlank ':' = false := by decide
  simp only [whole, enterItem?, skipKey?, skipBlanks_cons notBlank, skipped,
    skipBlanks_spelled blankBefore colon, enterValue?_blank blankAfter]
  rcases value rest ends with entered | ⟨bracket, others, shorter, entered, closes⟩
  · exact .inl entered
  · refine .inr ⟨bracket, others, ?_, entered, closes⟩
    simp only [Member.text, List.length_append, List.length_cons]
    omega

theorem enters_bracket {bracket : Bracket} {tail : List Char} (closes : Closes bracket tail) :
    Enters enterValue? (bracket.opening :: tail) := by
  intro rest _
  refine .inr ⟨bracket, tail, Nat.lt_succ_self _, ?_, closes⟩
  cases bracket with
  | array => rfl
  | object => rfl

theorem Valid.enters {text : List Char} (valid : Valid text) : Enters enterValue? text := by
  induction valid with
  | nullWord => exact fun rest _ => .inl rfl
  | trueWord => exact fun rest _ => .inl rfl
  | falseWord => exact fun rest _ => .inl rfl
  | string loose =>
      intro rest _
      obtain ⟨tail, isQuoted, skipped⟩ := skipString?_append loose rest
      have notBlank : isBlank '"' = false := by decide
      left
      simp (disch := decide) only [isQuoted, enterValue?, skipBlanks_cons notBlank, skipped,
        Char.reduceEq, if_false, if_true, Option.map_some]
  | number spells =>
      intro rest ends
      have scanned := scanNumeral?_spelled spells ends
      obtain ⟨char, others, rfl, isNumber⟩ := spells.exists_cons
      have differs {other : Char} (noNumber : other ≠ '-' ∧ other.isDigit = false) :
          char ≠ other := ne_of_numberStart isNumber noNumber
      rw [List.cons_append] at scanned ⊢
      left
      have starts : char ≠ '[' ∧ char ≠ '\x7b' ∧ char ≠ '"' :=
        ⟨differs ⟨by decide, rfl⟩, differs ⟨by decide, rfl⟩, differs ⟨by decide, rfl⟩⟩
      have words : char ≠ 'n' ∧ char ≠ 't' ∧ char ≠ 'f' :=
        ⟨differs ⟨by decide, rfl⟩, differs ⟨by decide, rfl⟩, differs ⟨by decide, rfl⟩⟩
      simp only [enterValue?, skipBlanks_cons (notBlank_of_number isNumber), starts, words,
        if_false, scanned, Option.map_some]
  | @array items inside valid separated ih =>
      have areItems : ∀ item ∈ items, Begins item ∧ Enters (enterItem? .array) item :=
        fun item isMember => ⟨(valid item isMember).begins, ih item isMember⟩
      exact enters_bracket (closes_of_items areItems separated)
  | @object members inside keys blanks valid separated ih =>
      have areItems : ∀ item ∈ members.map Member.text,
          Begins item ∧ Enters (enterItem? .object) item := by
        rw [List.forall_mem_map]
        intro member isMember
        have key := keys member isMember
        have blank := blanks member isMember
        exact ⟨(IsItem.member key blank.1 blank.2 (valid member isMember)).begins,
          enters_member key blank.1 blank.2 (ih member isMember)⟩
      exact enters_bracket (closes_of_items areItems separated)

/-- A value of the grammar is passed over to its end. -/
theorem skipValue?_valid {before core rest : List Char} (blankBefore : Blank before)
    (valid : Valid core) (ends : NumberEnds rest) :
    skipValue? (before ++ (core ++ rest)) = some rest := by
  rw [skipValue?, enterValue?_blank blankBefore]
  rcases valid.enters rest ends with entered | ⟨bracket, tail, _, entered, closes⟩
  · rw [entered]
  · obtain ⟨left, _, skipped⟩ := closes [] rest (tail ++ rest) (Nat.le_refl _)
    rw [entered]
    exact skipped

end ScopeLint.Json
