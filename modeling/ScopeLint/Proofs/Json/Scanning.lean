import ScopeLint.Json.Skip
import ScopeLint.Proofs.Json.Digits

/-!
Blanks, lists, words and strings are found exactly as the grammar has them: what is taken from
the front of a text is one of the grammar, and all of it is taken.
-/

set_option autoImplicit false

namespace ScopeLint.Json

/-! ### Blanks -/

theorem blank_nil : Blank [] :=
  nofun

theorem skipBlanks_cons {char : Char} (notBlank : isBlank char = false) (rest : List Char) :
    skipBlanks (char :: rest) = char :: rest := by
  rw [skipBlanks, List.dropWhile_cons, notBlank]
  rfl

theorem skipBlanks_append {blank rest : List Char} (isBlank : Blank blank) :
    skipBlanks (blank ++ rest) = skipBlanks rest := by
  rw [skipBlanks, List.dropWhile_append_of_pos isBlank, skipBlanks]

/-- After blanks comes what the text goes on with. -/
theorem skipBlanks_spelled {blank rest : List Char} {char : Char} (isBlank : Blank blank)
    (notBlank : Json.isBlank char = false) :
    skipBlanks (blank ++ char :: rest) = char :: rest := by
  rw [skipBlanks_append isBlank, skipBlanks_cons notBlank]

theorem exists_blank (text : List Char) :
    ∃ blank, text = blank ++ skipBlanks text ∧ Blank blank :=
  ⟨text.takeWhile isBlank, List.takeWhile_append_dropWhile.symm,
    List.all_eq_true.mp List.all_takeWhile⟩

theorem exists_blank_of_skipBlanks {text rest : List Char} (skipped : skipBlanks text = rest) :
    ∃ blank, text = blank ++ rest ∧ Blank blank :=
  skipped ▸ exists_blank text

/-! ### Lists -/

/-- What stands before an item: blanks, with a comma among them unless it is the first item. -/
def Leads (started : Bool) (text : List Char) : Prop :=
  if started = true then
    ∃ before after, Blank before ∧ Blank after ∧ text = before ++ ',' :: after
  else Blank text

/-- The items up to the end of a list, after a comma where there were items before. -/
def Listed (started : Bool) (texts : List (List Char)) (between : List Char) : Prop :=
  if started = true then Following texts between else Separated texts between

theorem listed_nil_iff {started : Bool} {between : List Char} :
    Listed started [] between ↔ Blank between := by
  have following : Following [] between ↔ Blank between :=
    ⟨fun following => by cases following; assumption, .nil⟩
  have separated : Separated [] between ↔ Blank between :=
    ⟨fun separated => by cases separated; assumption, .nil⟩
  cases started with
  | true => exact following
  | false => exact separated

theorem listed_cons_iff {started : Bool} {text between : List Char} {texts : List (List Char)} :
    Listed started (text :: texts) between ↔
      ∃ lead others, Leads started lead ∧ Listed true texts others ∧
        between = lead ++ (text ++ others) := by
  cases started with
  | true =>
      constructor
      · intro following
        cases following with
        | @cons before after _ others _ blankBefore blankAfter following =>
            refine ⟨before ++ ',' :: after, others,
              ⟨before, after, blankBefore, blankAfter, rfl⟩, following, ?_⟩
            rw [List.append_assoc, List.cons_append]
      · rintro ⟨_, others, ⟨before, after, blankBefore, blankAfter, rfl⟩, following, rfl⟩
        have whole : Following (text :: texts) (before ++ ',' :: (after ++ (text ++ others))) :=
          .cons blankBefore blankAfter following
        rw [List.append_assoc, List.cons_append]
        exact whole
  | false =>
      constructor
      · intro separated
        cases separated with
        | @cons before _ others _ blankBefore following =>
            exact ⟨before, others, blankBefore, following, rfl⟩
      · rintro ⟨before, others, blankBefore, following, rfl⟩
        exact .cons blankBefore following

/-- Items from the front of a list, each with the comma that stands before it. -/
def Run : (started : Bool) → (texts : List (List Char)) → List Char → Prop
  | _, [], run => run = []
  | started, text :: texts, run =>
      ∃ lead others, Leads started lead ∧ Run true texts others ∧ run = lead ++ (text ++ others)

/-- The first items of a list are a run, and the others a list of their own. -/
theorem Listed.exists_run {started : Bool} {first later : List (List Char)}
    {between : List Char} (listed : Listed started (first ++ later) between) :
    ∃ run others, Run started first run ∧ Listed (started || !first.isEmpty) later others ∧
      between = run ++ others := by
  induction first generalizing started between with
  | nil =>
      refine ⟨[], between, rfl, ?_, rfl⟩
      rwa [List.isEmpty_nil, Bool.not_true, Bool.or_false]
  | cons text first ih =>
      obtain ⟨lead, others, leads, following, rfl⟩ := listed_cons_iff.mp listed
      obtain ⟨run, left, isRun, listedLeft, rfl⟩ := ih following
      refine ⟨lead ++ (text ++ run), left, ⟨lead, run, leads, isRun, rfl⟩, ?_, ?_⟩
      · rw [Bool.true_or] at listedLeft
        rwa [List.isEmpty_cons, Bool.not_false, Bool.or_true]
      · simp only [List.append_assoc]

/-- An item stands after the comma, or at the first character where there was none before. -/
theorem exists_leads {started : Bool} {char : Char} {others blank before : List Char}
    (isBlank : Blank blank) (blankBefore : Blank before)
    (isComma : ¬(started = true ∧ char ≠ ',')) :
    ∃ lead, Leads started lead ∧ ∀ tail,
      (if started = true then others else char :: others) = before ++ tail →
        blank ++ char :: others = lead ++ tail := by
  cases started with
  | true =>
      have comma : char = ',' := by
        by_contra notComma
        exact isComma ⟨rfl, notComma⟩
      refine ⟨blank ++ ',' :: before, ⟨blank, before, isBlank, blankBefore, rfl⟩,
        fun tail same => ?_⟩
      rw [if_pos rfl] at same
      rw [comma, same]
      simp only [List.append_assoc, List.cons_append]
  | false =>
      refine ⟨blank ++ before, List.forall_mem_append.mpr ⟨isBlank, blankBefore⟩,
        fun tail same => ?_⟩
      rw [if_neg Bool.false_ne_true] at same
      rw [same, List.append_assoc]

/-- The first character of a value, or of a key, is no blank and closes no bracket. -/
def Begins (text : List Char) : Prop :=
  ∃ char others, text = char :: others ∧ isBlank char = false ∧ ∀ bracket : Bracket,
    char ≠ bracket.closing

theorem begins_cons {char : Char} {others : List Char} (notBlank : isBlank char = false)
    (notArray : char ≠ ']') (notObject : char ≠ '\x7d') : Begins (char :: others) := by
  refine ⟨char, others, rfl, notBlank, fun bracket => ?_⟩
  cases bracket with
  | array => exact notArray
  | object => exact notObject

/-- Where an item follows, a reader finds its comma or its first character, and no end. -/
theorem Leads.skipBlanks {started : Bool} {lead text : List Char} (leads : Leads started lead)
    (begins : Begins text) (tail : List Char) :
    ∃ char others blank, Json.skipBlanks (lead ++ (text ++ tail)) = char :: others ∧
      (∀ bracket : Bracket, char ≠ bracket.closing) ∧ ¬(started = true ∧ char ≠ ',') ∧
      Blank blank ∧
      (if started = true then others else char :: others) = blank ++ (text ++ tail) := by
  cases started with
  | true =>
      rcases leads with ⟨before, after, blankBefore, blankAfter, rfl⟩
      have notBlank : isBlank ',' = false := by decide
      refine ⟨',', after ++ (text ++ tail), after, ?_, fun bracket => ?_, fun no => no.2 rfl,
        blankAfter, rfl⟩
      · rw [List.append_assoc, List.cons_append, skipBlanks_spelled blankBefore notBlank]
      · cases bracket
        all_goals decide
  | false =>
      obtain ⟨char, others, rfl, notBlank, notClosing⟩ := begins
      refine ⟨char, others ++ tail, [], ?_, notClosing, fun no => Bool.false_ne_true no.1,
        blank_nil, rfl⟩
      rw [List.cons_append, skipBlanks_spelled leads notBlank]

theorem numberEnds_blank {blank rest : List Char} (blanks : Blank blank)
    (ends : NumberEnds rest) : NumberEnds (blank ++ rest) := by
  cases blank with
  | nil => exact ends
  | cons char blank =>
      have isBlank := blanks char List.mem_cons_self
      have differs {other : Char} (noBlank : Json.isBlank other = false) : char ≠ other := by
        rintro rfl
        rw [noBlank] at isBlank
        exact nomatch isBlank
      intro next isFirst
      cases isFirst
      refine ⟨?_, differs rfl, differs rfl, differs rfl⟩
      cases isDigit : char.isDigit with
      | false => rfl
      | true =>
          rw [notBlank_of_number (.inr isDigit)] at isBlank
          exact nomatch isBlank

theorem Bracket.numberEnds_closing (bracket : Bracket) (rest : List Char) :
    NumberEnds (bracket.closing :: rest) := by
  cases bracket with
  | array => exact numberEnds_cons (by decide)
  | object => exact numberEnds_cons (by decide)

/-- A number among items ends at the comma, the bracket or the blank after it. -/
theorem Leads.numberEnds {lead : List Char} (leads : Leads true lead) (rest : List Char) :
    NumberEnds (lead ++ rest) := by
  rcases leads with ⟨before, after, blankBefore, _, rfl⟩
  rw [List.append_assoc, List.cons_append]
  exact numberEnds_blank blankBefore (numberEnds_cons (by decide))

/-- The same where there are items before it. -/
theorem Leads.numberEnds_after {α : Type} {items : List α} {lead : List Char}
    (leads : Leads (false || !items.isEmpty) lead) (nonempty : items ≠ []) (rest : List Char) :
    NumberEnds (lead ++ rest) := by
  cases items with
  | nil => exact absurd rfl nonempty
  | cons item items => exact leads.numberEnds rest

theorem Run.numberEnds {texts : List (List Char)} {run rest : List Char}
    (isRun : Run true texts run) (ends : NumberEnds rest) : NumberEnds (run ++ rest) := by
  cases texts with
  | nil =>
      cases isRun
      exact ends
  | cons text texts =>
      obtain ⟨lead, others, leads, _, rfl⟩ := isRun
      rw [List.append_assoc]
      exact leads.numberEnds _

theorem Listed.numberEnds {items : List (List Char)} {between rest : List Char}
    (listed : Listed true items between) (ends : NumberEnds rest) :
    NumberEnds (between ++ rest) := by
  cases items with
  | nil => exact numberEnds_blank (listed_nil_iff.mp listed) ends
  | cons item items =>
      obtain ⟨lead, others, leads, _, rfl⟩ := listed_cons_iff.mp listed
      rw [List.append_assoc]
      exact leads.numberEnds _

/-! ### Words -/

theorem scanWord?_append (word rest : List Char) : scanWord? word (word ++ rest) = some rest := by
  induction word with
  | nil => rfl
  | cons char word ih =>
      rw [scanWord?, List.cons_append, List.isPrefixOf?, beq_self_eq_true, if_pos rfl]
      exact ih

theorem eq_of_scanWord? {word text rest : List Char} (scanned : scanWord? word text = some rest) :
    text = word ++ rest := by
  induction word generalizing text with
  | nil => exact Option.some.inj scanned
  | cons char word ih =>
      cases text with
      | nil => exact nomatch scanned
      | cons next text =>
          rw [scanWord?, List.isPrefixOf?] at scanned
          split at scanned
          next same =>
              rw [eq_of_beq same, List.cons_append]
              exact congrArg _ (ih scanned)
          next => exact nomatch scanned

/-! ### Strings -/

theorem isRaw_iff {char : Char} : IsRaw char ↔ char ≠ '\\' ∧ ¬(char = '"' ∨ char.toNat < 32) := by
  rw [IsRaw, not_or, Nat.not_lt]
  constructor
  · exact fun ⟨notQuote, notBackslash, noControl⟩ => ⟨notBackslash, notQuote, noControl⟩
  · exact fun ⟨notBackslash, notQuote, noControl⟩ => ⟨notQuote, notBackslash, noControl⟩

theorem ne_u_of_shortEscape? {letter char : Char} (isShort : shortEscape? letter = some char) :
    letter ≠ 'u' := by
  rintro rfl
  have notShort : shortEscape? 'u' = none := by decide
  rw [notShort] at isShort
  exact nomatch isShort

theorem spellsChar_of_scanHexEscape? {text rest : List Char} {char : Char}
    (scanned : scanHexEscape? text = some (char, rest)) :
    ∃ spelled, text = spelled ++ rest ∧ SpellsChar char ('\\' :: 'u' :: spelled) := by
  unfold scanHexEscape? at scanned
  split at scanned
  next a b c d others =>
      split at scanned
      next => exact nomatch scanned
      next unit isUnit =>
          split at scanned
          next => exact nomatch scanned
          next notLow =>
              rw [Bool.not_eq_true] at notLow
              split at scanned
              next isHigh =>
                  split at scanned
                  next e f g h others =>
                      split at scanned
                      next => exact nomatch scanned
                      next low isLowUnit =>
                          split at scanned
                          next isLow =>
                              obtain ⟨rfl, rfl⟩ := Prod.mk.inj (Option.some.inj scanned)
                              exact ⟨[a, b, c, d, '\\', 'u', e, f, g, h], rfl,
                                .pair isUnit isHigh isLowUnit isLow⟩
                          next => exact nomatch scanned
                  next => exact nomatch scanned
              next notHigh =>
                  rw [Bool.not_eq_true] at notHigh
                  obtain ⟨rfl, rfl⟩ := Prod.mk.inj (Option.some.inj scanned)
                  exact ⟨[a, b, c, d], rfl, .unit isUnit notHigh notLow⟩
  next => exact nomatch scanned

theorem spellsChar_of_scanStringChar? {text rest : List Char} {char : Char}
    (scanned : scanStringChar? text = some (char, rest)) :
    ∃ spelled, text = spelled ++ rest ∧ SpellsChar char spelled := by
  cases text with
  | nil => exact nomatch scanned
  | cons first text =>
      rw [scanStringChar?] at scanned
      split at scanned
      next isBackslash =>
          rw [isBackslash]
          cases text with
          | nil => exact nomatch scanned
          | cons letter text =>
              rw [scanEscape?] at scanned
              split at scanned
              next isUnit =>
                  obtain ⟨spelled, rfl, spells⟩ := spellsChar_of_scanHexEscape? scanned
                  rw [isUnit]
                  exact ⟨'\\' :: 'u' :: spelled, rfl, spells⟩
              next =>
                  obtain ⟨next, isShort, same⟩ := Option.map_eq_some_iff.mp scanned
                  cases same
                  exact ⟨['\\', letter], rfl, .short isShort⟩
      next notBackslash =>
          split at scanned
          next => exact nomatch scanned
          next noEnd =>
              cases scanned
              exact ⟨[char], rfl, .raw (isRaw_iff.mpr ⟨notBackslash, noEnd⟩)⟩

theorem scanStringChar?_append {char : Char} {spelled : List Char}
    (spells : SpellsChar char spelled) (rest : List Char) :
    scanStringChar? (spelled ++ rest) = some (char, rest) := by
  cases spells with
  | raw isRaw =>
      rcases isRaw_iff.mp isRaw with ⟨notBackslash, noEnd⟩
      simp only [List.cons_append, List.nil_append, scanStringChar?, notBackslash, noEnd, if_false]
  | short isShort =>
      simp only [List.cons_append, List.nil_append, scanStringChar?, if_true, scanEscape?,
        ne_u_of_shortEscape? isShort, if_false, isShort, Option.map_some]
  | unit isUnit notHigh notLow =>
      simp only [List.cons_append, List.nil_append, scanStringChar?, if_true, scanEscape?,
        scanHexEscape?, isUnit, notHigh, notLow, Bool.false_eq_true, if_false]
  | pair isHighUnit isHigh isLowUnit isLow =>
      have notLow {unit : Nat} (isHigh : isHighSurrogate unit = true) :
          isLowSurrogate unit = false := by
        simp only [isHighSurrogate, isLowSurrogate, Bool.and_eq_true, Bool.and_eq_false_iff,
          decide_eq_true_eq, decide_eq_false_iff_not] at isHigh ⊢
        omega
      simp only [List.cons_append, List.nil_append, scanStringChar?, if_true, scanEscape?,
        scanHexEscape?, isHighUnit, notLow isHigh, isHigh, isLowUnit, isLow, Bool.false_eq_true,
        if_false]

theorem SpellsChar.exists_cons {char : Char} {spelled : List Char}
    (spells : SpellsChar char spelled) :
    ∃ first others, spelled = first :: others ∧ first ≠ '"' := by
  cases spells with
  | raw isRaw => exact ⟨char, [], rfl, isRaw.1⟩
  | _ => exact ⟨'\\', _, rfl, by decide⟩

theorem spellsChars_of_scanStringFrom {rounds taken text rest : List Char} {value : String}
    (scanned : scanStringFrom rounds taken text = some (value, rest)) :
    ∃ chars inside, SpellsChars chars inside ∧ text = inside ++ '"' :: rest ∧
      value = String.ofList (taken.reverse ++ chars) := by
  induction rounds generalizing taken text with
  | nil =>
      cases text with
      | nil => exact nomatch scanned
      | cons char text =>
          rw [scanStringFrom] at scanned
          split at scanned
          next isQuote =>
              cases scanned
              exact ⟨[], [], .nil, by rw [isQuote]; rfl, by rw [List.append_nil]⟩
          next => exact nomatch scanned
  | cons _ rounds ih =>
      cases text with
      | nil => exact nomatch scanned
      | cons char text =>
          rw [scanStringFrom] at scanned
          split at scanned
          next isQuote =>
              cases scanned
              exact ⟨[], [], .nil, by rw [isQuote]; rfl, by rw [List.append_nil]⟩
          next =>
              split at scanned
              next => exact nomatch scanned
              next next tail charScanned =>
                  obtain ⟨spelled, isText, spells⟩ := spellsChar_of_scanStringChar? charScanned
                  obtain ⟨chars, inside, others, rfl, rfl⟩ := ih scanned
                  refine ⟨next :: chars, spelled ++ inside, .cons spells others, ?_, ?_⟩
                  · rw [isText, List.append_assoc]
                  · rw [List.reverse_cons, List.append_assoc]
                    rfl

theorem scanStringFrom_spelled {chars inside : List Char} (spells : SpellsChars chars inside)
    {rounds taken rest : List Char} (enough : inside.length ≤ rounds.length) :
    scanStringFrom rounds taken (inside ++ '"' :: rest) =
      some (String.ofList (taken.reverse ++ chars), rest) := by
  induction spells generalizing rounds taken with
  | nil =>
      rw [List.nil_append, List.append_nil]
      unfold scanStringFrom
      rfl
  | @cons char chars text texts first others ih =>
      obtain ⟨opening, spelled, rfl, notQuote⟩ := first.exists_cons
      cases rounds with
      | nil => exact absurd enough (Nat.not_succ_le_zero _)
      | cons _ rounds =>
          have charScanned := scanStringChar?_append first (texts ++ '"' :: rest)
          have enoughLeft : texts.length ≤ rounds.length := by
            simp only [List.cons_append, List.length_cons, List.length_append] at enough
            omega
          rw [List.append_assoc]
          rw [List.cons_append] at charScanned ⊢
          simp only [scanStringFrom, notQuote, if_false, charScanned, ih enoughLeft,
            List.reverse_cons, List.append_assoc, List.cons_append, List.nil_append]

/-- A string is scanned, from after its opening quote, exactly if the grammar has it. -/
theorem scanString?_eq_some_iff {text rest : List Char} {value : String} :
    scanString? text = some (value, rest) ↔
      ∃ spelled, SpellsString value spelled ∧ '"' :: text = spelled ++ rest := by
  constructor
  · intro scanned
    obtain ⟨chars, inside, spells, rfl, rfl⟩ := spellsChars_of_scanStringFrom scanned
    refine ⟨'"' :: (inside ++ ['"']), ⟨inside, ?_, rfl⟩, ?_⟩
    · rw [List.reverse_nil, List.nil_append, String.toList_ofList]
      exact spells
    · simp only [List.cons_append, List.append_assoc, List.nil_append]
  · rintro ⟨spelled, ⟨inside, spells, rfl⟩, same⟩
    simp only [List.cons_append, List.append_assoc, List.nil_append, List.cons.injEq,
      true_and] at same
    have enough : inside.length ≤ (inside ++ '"' :: rest).length := by
      rw [List.length_append]
      exact Nat.le_add_right _ _
    rw [same, scanString?, scanStringFrom_spelled spells enough, List.reverse_nil,
      List.nil_append, String.ofList_toList]

theorem SpellsString.scanned {value : String} {spelled : List Char}
    (spells : SpellsString value spelled) (rest : List Char) :
    ∃ tail, spelled ++ rest = '"' :: tail ∧ scanString? tail = some (value, rest) := by
  obtain ⟨inside, isInside, rfl⟩ := spells
  have same : '"' :: (inside ++ '"' :: rest) = '"' :: (inside ++ ['"']) ++ rest := by
    simp only [List.cons_append, List.append_assoc, List.nil_append]
  exact ⟨inside ++ '"' :: rest, same.symm,
    scanString?_eq_some_iff.mpr ⟨_, ⟨inside, isInside, rfl⟩, same⟩⟩

end ScopeLint.Json
