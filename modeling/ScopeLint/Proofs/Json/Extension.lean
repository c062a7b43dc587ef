import ScopeLint.Proofs.Json.Nesting
import ScopeLint.Proofs.Json.Skipping

/-!
What more text changes for a scanner. A scanner that comes to an end within a text comes to the
same end in every longer one, unless the text ends inside a number. The brackets that are open
where it ends are those that were open where it began.
-/

set_option autoImplicit false

namespace ScopeLint.Json

/-! ### Where a text may go on -/

/-- A text that does not end inside a number. -/
def Settled (text : List Char) : Prop :=
  ∀ char ∈ text.getLast?, char.isDigit = false

theorem Settled.later {core rest : List Char} (settled : Settled (core ++ rest)) :
    Settled rest := by
  intro char isLast
  refine settled char ?_
  rw [List.getLast?_append, isLast]
  rfl

theorem Settled.tail {char : Char} {rest : List Char} (settled : Settled (char :: rest)) :
    Settled rest := by
  have whole : Settled ([char] ++ rest) := settled
  exact whole.later

/-- A text with a full end, that opens at most `budget` brackets beyond the `opened` ones. -/
structure Within (opened budget : Nat) (text : List Char) : Prop where
  settled : Settled text
  shallow : deepest .outside opened text ≤ opened + budget

/-- A text that closes what it opens, so that the brackets after it count as before. -/
def Passes (core : List Char) : Prop :=
  ∀ opened rest, deepest .outside opened rest ≤ deepest .outside opened (core ++ rest)

section Within

variable {opened budget : Nat} {text core rest : List Char}

theorem Within.later (within : Within opened budget (core ++ rest)) (passes : Passes core) :
    Within opened budget rest :=
  ⟨within.settled.later, (passes opened rest).trans within.shallow⟩

/-- A bracket takes one from the budget. -/
theorem Within.enter {char : Char} (within : Within opened budget (char :: rest))
    (isOpening : char = '[' ∨ char = '\x7b') :
    ∃ inside, budget = inside + 1 ∧ Within (opened + 1) inside rest := by
  have shallow := within.shallow
  rw [deepest_opening isOpening] at shallow
  cases budget with
  | zero =>
      have bound := le_deepest .outside (opened + 1) rest
      omega
  | succ inside => exact ⟨inside, rfl, within.settled.tail, by omega⟩

/-- The end of a bracket gives it back. -/
theorem Within.leave {char : Char} {inside : Nat}
    (within : Within (opened + 1) inside (char :: rest))
    (isClosing : char = ']' ∨ char = '\x7d') : Within opened (inside + 1) rest := by
  have shallow := within.shallow
  rw [deepest_closing isClosing] at shallow
  exact ⟨within.settled.tail, by omega⟩

end Within

/-! ### Texts that close what they open -/

theorem passes_plain {core : List Char} (plain : ∀ char ∈ core, IsPlain char) : Passes core :=
  fun opened rest => (deepest_plain plain opened rest).ge

theorem Passes.append {core other : List Char} (passes : Passes core) (others : Passes other) :
    Passes (core ++ other) := by
  intro opened rest
  rw [List.append_assoc]
  exact (others opened rest).trans (passes opened (other ++ rest))

theorem isPlain_of_isBlank {char : Char} (isBlank : Json.isBlank char = true) : IsPlain char := by
  simp only [Json.isBlank, Bool.or_eq_true, decide_eq_true_eq] at isBlank
  rcases isBlank with ((rfl | rfl) | rfl) | rfl
  all_goals simp [IsPlain]

theorem Blank.passes {blank : List Char} (isBlank : Blank blank) : Passes blank :=
  passes_plain fun char isChar => isPlain_of_isBlank (isBlank char isChar)

theorem LooseString.passes {text : List Char} (loose : LooseString text) : Passes text :=
  fun opened rest => (deepest_looseString loose opened rest).ge

theorem SpellsNumeral.passes {numeral : Numeral} {text : List Char}
    (spells : SpellsNumeral numeral text) : Passes text :=
  passes_plain (isPlain_of_spellsNumeral spells)

theorem passes_comma : Passes [','] :=
  passes_plain (List.forall_mem_singleton.mpr (by simp [IsPlain]))

theorem passes_colon : Passes [':'] :=
  passes_plain (List.forall_mem_singleton.mpr (by simp [IsPlain]))

theorem Following.passes {texts : List (List Char)} {between : List Char}
    (following : Following texts between) (passes : ∀ text ∈ texts, Passes text) :
    Passes between := by
  induction following with
  | nil isBlank => exact isBlank.passes
  | cons blankBefore blankAfter others ih =>
      rw [List.forall_mem_cons] at passes
      exact blankBefore.passes.append
        (passes_comma.append (blankAfter.passes.append (passes.1.append (ih passes.2))))

theorem Separated.passes {texts : List (List Char)} {between : List Char}
    (separated : Separated texts between) (passes : ∀ text ∈ texts, Passes text) :
    Passes between := by
  cases separated with
  | nil isBlank => exact isBlank.passes
  | cons blankBefore others =>
      rw [List.forall_mem_cons] at passes
      exact blankBefore.passes.append (passes.1.append (others.passes passes.2))

theorem passes_bracket (bracket : Bracket) {between : List Char} (passes : Passes between) :
    Passes (bracket.opening :: (between ++ [bracket.closing])) := by
  intro opened rest
  have isOpening : bracket.opening = '[' ∨ bracket.opening = '\x7b' := by
    cases bracket <;> decide
  have isClosing : bracket.closing = ']' ∨ bracket.closing = '\x7d' := by
    cases bracket <;> decide
  have closed := passes (opened + 1) (bracket.closing :: rest)
  rw [deepest_closing isClosing] at closed
  rw [List.cons_append, List.append_assoc, deepest_opening isOpening]
  exact (Nat.le_max_right _ _).trans closed

theorem Valid.passes {text : List Char} (valid : Valid text) : Passes text := by
  induction valid with
  | nullWord => exact passes_plain (by simp [IsPlain])
  | trueWord => exact passes_plain (by simp [IsPlain])
  | falseWord => exact passes_plain (by simp [IsPlain])
  | string loose => exact loose.passes
  | number spells => exact spells.passes
  | array valid separated ih => exact passes_bracket .array (separated.passes ih)
  | @object members inside keys blanks valid separated ih =>
      refine passes_bracket .object (separated.passes ?_)
      rw [List.forall_mem_map]
      intro member isMember
      have blank := blanks member isMember
      exact (keys member isMember).passes.append (blank.1.passes.append
        (passes_colon.append (blank.2.passes.append (ih member isMember))))

/-! ### Blanks, words and strings -/

theorem notBlank_of_skipBlanks {text rest : List Char} {char : Char}
    (skipped : skipBlanks text = char :: rest) : isBlank char = false := by
  have noBlank := List.head?_dropWhile_not isBlank text
  rw [← skipBlanks, skipped] at noBlank
  exact noBlank

theorem skipBlanks_extend {text rest : List Char} {char : Char}
    (skipped : skipBlanks text = char :: rest) (more : List Char) :
    skipBlanks (text ++ more) = char :: (rest ++ more) := by
  obtain ⟨blank, rfl, isBlank⟩ := exists_blank_of_skipBlanks skipped
  rw [List.append_assoc, List.cons_append,
    skipBlanks_spelled isBlank (notBlank_of_skipBlanks skipped)]

theorem scanWord?_extend {word text rest : List Char} (scanned : scanWord? word text = some rest)
    (more : List Char) : scanWord? word (text ++ more) = some (rest ++ more) := by
  rw [eq_of_scanWord? scanned, List.append_assoc, scanWord?_append]

theorem scanString?_extend {text rest : List Char} {value : String}
    (scanned : scanString? text = some (value, rest)) (more : List Char) :
    scanString? (text ++ more) = some (value, rest ++ more) := by
  obtain ⟨spelled, spells, isText⟩ := scanString?_eq_some_iff.mp scanned
  refine scanString?_eq_some_iff.mpr ⟨spelled, spells, ?_⟩
  rw [← List.cons_append, isText, List.append_assoc]

theorem skipString?_extend {text rest : List Char} (skipped : skipString? text = some rest)
    (more : List Char) : skipString? (text ++ more) = some (rest ++ more) := by
  obtain ⟨spelled, loose, isText⟩ := looseString_of_skipString? skipped
  obtain ⟨tail, isTail, tailSkipped⟩ := skipString?_append loose (rest ++ more)
  rw [← List.append_assoc, ← isText, List.cons_append] at isTail
  rw [(List.cons.inj isTail).2, tailSkipped]

/-- Where a text goes on after blanks, it is within the same limits. -/
theorem Within.front {opened budget : Nat} {text rest : List Char}
    (within : Within opened budget text) (skipped : skipBlanks text = rest) :
    Within opened budget rest := by
  obtain ⟨blank, rfl, isBlank⟩ := exists_blank_of_skipBlanks skipped
  exact within.later isBlank.passes

theorem Within.tail {opened budget : Nat} {char : Char} {rest : List Char}
    (within : Within opened budget (char :: rest)) (plain : IsPlain char) :
    Within opened budget rest := by
  have whole : Within opened budget ([char] ++ rest) := within
  exact whole.later (passes_plain (List.forall_mem_singleton.mpr plain))

/-- What is left of a list for its next item, with the comma before it gone. -/
theorem Within.item {opened budget : Nat} {started : Bool} {char : Char} {rest : List Char}
    (within : Within opened budget (char :: rest)) (isComma : ¬(started = true ∧ char ≠ ',')) :
    Within opened budget (if started = true then rest else char :: rest) := by
  cases started with
  | true =>
      have comma : char = ',' := by
        by_contra notComma
        exact isComma ⟨rfl, notComma⟩
      exact within.tail (by rw [comma]; simp [IsPlain])
  | false => exact within

/-! ### Numbers -/

def EndsInDigit (text : List Char) : Prop :=
  ∃ char, text.getLast? = some char ∧ char.isDigit = true

theorem endsInDigit_of_allDigits {digits : List Char} (nonempty : digits ≠ [])
    (allDigits : AllDigits digits) : EndsInDigit digits :=
  ⟨digits.getLast nonempty, List.getLast?_eq_getLast_of_ne_nil nonempty,
    allDigits _ (List.getLast_mem nonempty)⟩

theorem EndsInDigit.append {text : List Char} (ends : EndsInDigit text) (front : List Char) :
    EndsInDigit (front ++ text) := by
  obtain ⟨char, isLast, isDigit⟩ := ends
  refine ⟨char, ?_, isDigit⟩
  rw [List.getLast?_append, isLast]
  rfl

theorem SpellsNumeral.endsInDigit {numeral : Numeral} {text : List Char}
    (spells : SpellsNumeral numeral text) : EndsInDigit text := by
  rcases numeral with ⟨negative, whole, fraction, exponent⟩
  cases spells with
  | mk isWhole isFraction isExponent =>
      cases isExponent with
      | unsigned _ nonempty allDigits =>
          exact ((((endsInDigit_of_allDigits nonempty allDigits).append [_]).append _).append
            _).append _
      | plus _ nonempty allDigits =>
          exact ((((endsInDigit_of_allDigits nonempty allDigits).append [_, '+']).append _).append
            _).append _
      | minus _ nonempty allDigits =>
          exact ((((endsInDigit_of_allDigits nonempty allDigits).append [_, '-']).append _).append
            _).append _
      | none =>
          rw [List.append_nil]
          cases isFraction with
          | some nonempty allDigits =>
              exact (((endsInDigit_of_allDigits nonempty allDigits).append ['.']).append _).append _
          | none =>
              rw [List.append_nil]
              exact (endsInDigit_of_allDigits isWhole.nonempty isWhole.allDigits).append _

/-- In a settled text something stands behind every number. -/
theorem ne_nil_of_scanNumeral? {text rest : List Char} {numeral : Numeral}
    (scanned : scanNumeral? text = some (numeral, rest)) (settled : Settled text) : rest ≠ [] := by
  rintro rfl
  obtain ⟨spelled, rfl, spells⟩ := spellsNumeral_of_scanNumeral? scanned
  obtain ⟨char, isLast, isDigit⟩ := spells.endsInDigit
  rw [List.append_nil] at settled
  rw [settled char isLast] at isDigit
  exact nomatch isDigit

theorem NoDigitNext.append {rest : List Char} (stops : NoDigitNext rest) (left : rest ≠ [])
    (more : List Char) : NoDigitNext (rest ++ more) := by
  intro char isFirst
  rw [List.head?_append_of_ne_nil _ left] at isFirst
  exact stops char isFirst

theorem noDigitNext_dropWhile (text : List Char) : NoDigitNext (text.dropWhile Char.isDigit) := by
  intro char isFirst
  have noDigit := List.head?_dropWhile_not Char.isDigit text
  rw [isFirst] at noDigit
  simpa using noDigit

theorem scanDigits?_extend {text digits rest : List Char}
    (scanned : scanDigits? text = some (digits, rest)) (left : rest ≠ []) (more : List Char) :
    scanDigits? (text ++ more) = some (digits, rest ++ more) := by
  have stops : NoDigitNext rest := by
    unfold scanDigits? at scanned
    split at scanned
    next => exact nomatch scanned
    next =>
        cases scanned
        exact noDigitNext_dropWhile text
  obtain ⟨rfl, nonempty, allDigits⟩ := digits_of_scanDigits? scanned
  rw [List.append_assoc]
  exact scanDigits?_append nonempty allDigits (stops.append left more)

theorem scanWhole?_extend {text digits rest : List Char}
    (scanned : scanWhole? text = some (digits, rest)) (left : rest ≠ []) (more : List Char) :
    scanWhole? (text ++ more) = some (digits, rest ++ more) := by
  have stops : NoDigitNext rest := by
    cases text with
    | nil => cases scanned
    | cons char text =>
        simp only [scanWhole?] at scanned
        split at scanned
        next =>
            split at scanned
            next =>
                cases scanned
                exact absurd rfl left
            next next others =>
                split at scanned
                next => cases scanned
                next noDigit =>
                    cases scanned
                    exact noDigitNext_of_head? rfl (Bool.eq_false_iff.mpr noDigit)
        next =>
            split at scanned
            next =>
                cases scanned
                exact noDigitNext_dropWhile text
            next => cases scanned
  obtain ⟨rfl, whole⟩ := isWhole_of_scanWhole? scanned
  rw [List.append_assoc]
  exact scanWhole?_append whole (stops.append left more)

theorem scanFraction?_extend {text digits rest : List Char}
    (scanned : scanFraction? text = some (digits, rest)) (left : rest ≠ []) (more : List Char) :
    scanFraction? (text ++ more) = some (digits, rest ++ more) := by
  unfold scanFraction? at scanned
  split at scanned
  next others => exact scanDigits?_extend scanned left more
  next noPoint =>
      cases scanned
      refine scanFraction?_none fun isPoint => ?_
      rw [List.head?_append_of_ne_nil _ left] at isPoint
      obtain ⟨others, rfl⟩ := List.head?_eq_some_iff.mp isPoint
      exact noPoint others rfl

theorem scanSignedDigits?_extend {text rest : List Char} {value : Int}
    (scanned : scanSignedDigits? text = some (value, rest)) (left : rest ≠ [])
    (more : List Char) : scanSignedDigits? (text ++ more) = some (value, rest ++ more) := by
  cases text with
  | nil => cases scanned
  | cons char text =>
      simp only [scanSignedDigits?] at scanned
      split at scanned
      next => cases scanned
      next digits others digitsScanned =>
          cases scanned
          have extended := scanDigits?_extend digitsScanned left more
          have signed : (if char = '+' ∨ char = '-' then text else char :: text) ++ more =
              if char = '+' ∨ char = '-' then text ++ more else char :: (text ++ more) := by
            split
            · rfl
            · rfl
          rw [signed] at extended
          simp only [scanSignedDigits?, List.cons_append, extended]

theorem scanExponent?_extend {text rest : List Char} {exponent : Option Int}
    (scanned : scanExponent? text = some (exponent, rest)) (left : rest ≠ [])
    (more : List Char) : scanExponent? (text ++ more) = some (exponent, rest ++ more) := by
  cases text with
  | nil =>
      cases scanned
      exact absurd rfl left
  | cons char text =>
      simp only [scanExponent?] at scanned
      split at scanned
      next isMark =>
          split at scanned
          next => cases scanned
          next signedScanned =>
              cases scanned
              simp only [scanExponent?, List.cons_append, isMark, if_true,
                scanSignedDigits?_extend signedScanned left more]
      next notMark =>
          cases scanned
          simp only [scanExponent?, List.cons_append, notMark, if_false]

theorem scanUnsigned?_extend {negative : Bool} {text rest : List Char} {numeral : Numeral}
    (scanned : scanUnsigned? negative text = some (numeral, rest)) (left : rest ≠ [])
    (more : List Char) :
    scanUnsigned? negative (text ++ more) = some (numeral, rest ++ more) := by
  unfold scanUnsigned? at scanned
  split at scanned
  next => exact nomatch scanned
  next whole afterWhole wholeScanned =>
      split at scanned
      next => exact nomatch scanned
      next fraction afterFraction fractionScanned =>
          split at scanned
          next => exact nomatch scanned
          next exponent afterExponent exponentScanned =>
              cases scanned
              obtain ⟨exponentChars, isExponent, _⟩ :=
                spellsExponent_of_scanExponent? exponentScanned
              obtain ⟨fractionChars, isFraction, _⟩ :=
                spellsFraction_of_scanFraction? fractionScanned
              have leftFraction : afterFraction ≠ [] :=
                isExponent ▸ List.append_ne_nil_of_right_ne_nil _ left
              have leftWhole : afterWhole ≠ [] :=
                isFraction ▸ List.append_ne_nil_of_right_ne_nil _ leftFraction
              simp only [scanUnsigned?, scanWhole?_extend wholeScanned leftWhole more,
                scanFraction?_extend fractionScanned leftFraction more,
                scanExponent?_extend exponentScanned left more]

theorem scanNumeral?_extend {text rest : List Char} {numeral : Numeral}
    (scanned : scanNumeral? text = some (numeral, rest)) (settled : Settled text)
    (more : List Char) : scanNumeral? (text ++ more) = some (numeral, rest ++ more) := by
  have left := ne_nil_of_scanNumeral? scanned settled
  unfold scanNumeral? at scanned
  split at scanned
  next others => exact scanUnsigned?_extend scanned left more
  next noMinus =>
      unfold scanNumeral?
      split
      next others same =>
          cases text with
          | nil => exact nomatch scanned
          | cons char text =>
              rw [List.cons_append] at same
              exact absurd (congrArg (· :: text) (List.cons.inj same).1) (noMinus text)
      next => exact scanUnsigned?_extend scanned left more

/-! ### Values that are passed over -/

theorem enterValue?_extend {text rest : List Char} {entered : Option Bracket}
    (isEntered : enterValue? text = some (entered, rest)) (settled : Settled text)
    (more : List Char) : enterValue? (text ++ more) = some (entered, rest ++ more) := by
  unfold enterValue? at isEntered
  split at isEntered
  next => exact nomatch isEntered
  next char others skipped =>
      have extended := skipBlanks_extend skipped more
      obtain ⟨blank, rfl, _⟩ := exists_blank_of_skipBlanks skipped
      have whole {scan : List Char → Option (List Char)}
          (scanned : (scan others).map (none, ·) = some (entered, rest))
          (goesOn : ∀ left, scan others = some left → scan (others ++ more) = some (left ++ more)) :
          (scan (others ++ more)).map (none, ·) = some (entered, rest ++ more) := by
        obtain ⟨left, isScanned, same⟩ := Option.map_eq_some_iff.mp scanned
        cases same
        rw [goesOn _ isScanned, Option.map_some]
      have word {tail : List Char}
          (scanned : (scanWord? tail others).map (none, ·) = some (entered, rest)) :
          (scanWord? tail (others ++ more)).map (none, ·) = some (entered, rest ++ more) :=
        whole scanned fun _ isScanned => scanWord?_extend isScanned more
      simp only [enterValue?, extended]
      split at isEntered
      next isArray =>
          cases isEntered
          rw [if_pos isArray]
      next notArray =>
      rw [if_neg notArray]
      split at isEntered
      next isObject =>
          cases isEntered
          rw [if_pos isObject]
      next notObject =>
      rw [if_neg notObject]
      split at isEntered
      next isQuote =>
          rw [if_pos isQuote]
          exact whole isEntered fun _ isSkipped => skipString?_extend isSkipped more
      next notQuote =>
      rw [if_neg notQuote]
      split at isEntered
      next isNull =>
          rw [if_pos isNull]
          exact word isEntered
      next notNull =>
      rw [if_neg notNull]
      split at isEntered
      next isTrue =>
          rw [if_pos isTrue]
          exact word isEntered
      next notTrue =>
      rw [if_neg notTrue]
      split at isEntered
      next isFalse =>
          rw [if_pos isFalse]
          exact word isEntered
      next notFalse =>
          rw [if_neg notFalse]
          obtain ⟨⟨numeral, left⟩, scanned, same⟩ := Option.map_eq_some_iff.mp isEntered
          cases same
          have numberExtended := scanNumeral?_extend scanned settled.later more
          rw [List.cons_append] at numberExtended
          rw [numberExtended, Option.map_some]

theorem skipKey?_extend {text rest : List Char} (skipped : skipKey? text = some rest)
    (more : List Char) : skipKey? (text ++ more) = some (rest ++ more) := by
  unfold skipKey? at skipped
  split at skipped
  next others isFirst =>
      split at skipped
      next => exact nomatch skipped
      next left stringSkipped =>
          split at skipped
          next isColon =>
              cases skipped
              simp only [skipKey?, skipBlanks_extend isFirst more,
                skipString?_extend stringSkipped more, skipBlanks_extend isColon more]
          next => exact nomatch skipped
  next => exact nomatch skipped

theorem enterItem?_extend {inside : Bracket} {text rest : List Char} {entered : Option Bracket}
    (isEntered : enterItem? inside text = some (entered, rest)) (settled : Settled text)
    (more : List Char) : enterItem? inside (text ++ more) = some (entered, rest ++ more) := by
  cases inside with
  | array => exact enterValue?_extend isEntered settled more
  | object =>
      simp only [enterItem?] at isEntered
      split at isEntered
      next => cases isEntered
      next left keySkipped =>
          simp only [enterItem?, skipKey?_extend keySkipped more]
          obtain ⟨before, quoted, after, _, _, _, rfl⟩ := key_of_skipKey? keySkipped
          have settledLeft : Settled left := by
            rw [← List.singleton_append, ← List.append_assoc, ← List.append_assoc,
              ← List.append_assoc] at settled
            exact settled.later
          exact enterValue?_extend isEntered settledLeft more

theorem item_append (started : Bool) (char : Char) (others more : List Char) :
    (if started = true then others ++ more else char :: (others ++ more)) =
      (if started = true then others else char :: others) ++ more := by
  cases started with
  | true => rfl
  | false => rfl

theorem skipOpen_extend {rounds : List Char} {started : Bool} {inside : Bracket}
    {outer : List Bracket} {text rest : List Char}
    (skipped : skipOpen rounds started inside outer text = some rest) (settled : Settled text)
    (extra more : List Char) :
    skipOpen (rounds ++ extra) started inside outer (text ++ more) = some (rest ++ more) := by
  induction rounds generalizing started inside outer text with
  | nil => exact nomatch skipped
  | cons _ rounds ih =>
      unfold skipOpen at skipped
      split at skipped
      next => exact nomatch skipped
      next char others isFirst =>
          have extended := skipBlanks_extend isFirst more
          obtain ⟨blank, rfl, _⟩ := exists_blank_of_skipBlanks isFirst
          have settledFirst : Settled (char :: others) := settled.later
          rw [List.cons_append]
          simp only [skipOpen, extended]
          split at skipped
          next isClosing =>
              rw [if_pos isClosing]
              split at skipped
              next =>
                  cases skipped
                  rfl
              next around outer => exact ih skipped settledFirst.tail
          next notClosing =>
              rw [if_neg notClosing]
              split at skipped
              next => exact nomatch skipped
              next isComma =>
                  have settledItem :
                      Settled (if started = true then others else char :: others) := by
                    cases started with
                    | true => exact settledFirst.tail
                    | false => exact settledFirst
                  rw [if_neg isComma, item_append]
                  split at skipped
                  next => exact nomatch skipped
                  next left isEntered =>
                      simp only [enterItem?_extend isEntered settledItem more]
                      obtain ⟨_, _, _, _, isText, _⟩ := entered_of_enterItem? isEntered
                      rw [isText] at settledItem
                      exact ih skipped settledItem.later.later.later
                  next entered left isEntered =>
                      simp only [enterItem?_extend isEntered settledItem more]
                      obtain ⟨_, _, _, _, isText, _⟩ := entered_of_enterItem? isEntered
                      rw [isText] at settledItem
                      exact ih skipped settledItem.later.later.later

theorem skipValue?_extend {text rest : List Char} (skipped : skipValue? text = some rest)
    (settled : Settled text) (more : List Char) :
    skipValue? (text ++ more) = some (rest ++ more) := by
  unfold skipValue? at skipped
  split at skipped
  next => exact nomatch skipped
  next left isEntered =>
      cases skipped
      simp only [skipValue?, enterValue?_extend isEntered settled more]
  next entered left isEntered =>
      simp only [skipValue?, enterValue?_extend isEntered settled more]
      obtain ⟨_, _, _, isText, _⟩ := entered_of_enterValue? isEntered
      rw [isText] at settled
      exact skipOpen_extend skipped settled.later.later more more

end ScopeLint.Json
