import ScopeLint.Proofs.Toml.Integers

/-!
Keys and values are read as the grammar has them, whatever stands behind them on their line.
-/

set_option autoImplicit false

namespace ScopeLint.Toml

/-! ### Blanks -/

theorem isBlank_iff (char : Char) : isBlank char = true ↔ char = ' ' ∨ char = '\t' := by
  simp only [isBlank, Bool.or_eq_true, decide_eq_true_iff]

theorem skipBlanks_append {blank : List Char} (isBlank : Blank blank) (rest : List Char) :
    skipBlanks (blank ++ rest) = skipBlanks rest := by
  rw [skipBlanks, List.dropWhile_append_of_pos isBlank, skipBlanks]

theorem skipBlanks_cons {char : Char} (notBlank : isBlank char = false) (rest : List Char) :
    skipBlanks (char :: rest) = char :: rest := by
  rw [skipBlanks, List.dropWhile_cons, notBlank]
  rfl

/-! ### Strings -/

/-- The rounds suffice as long as there is one for each character. -/
theorem scanStringFrom_plain {quote : Quote} {chars : List Char}
    (plain : ∀ char ∈ chars, quote.Holds char) {rounds : List Char}
    (enough : chars.length ≤ rounds.length) (taken rest : List Char) :
    scanStringFrom quote rounds taken (chars ++ quote.char :: rest) =
      some (String.ofList (taken.reverse ++ chars), rest) := by
  induction chars generalizing rounds taken with
  | nil =>
      rw [List.nil_append, scanStringFrom.eq_def, List.append_nil]
      exact if_pos rfl
  | cons char chars ih =>
      obtain ⟨holds, others⟩ := List.forall_mem_cons.mp plain
      cases rounds with
      | nil => exact absurd enough (Nat.not_succ_le_zero _)
      | cons round rounds =>
          have scanned : scanChar? quote (char :: (chars ++ quote.char :: rest)) =
              some (char, chars ++ quote.char :: rest) := by
            have noEscape : ¬(quote = .double ∧ char = '\\') :=
              fun isEscape => holds.noEscape isEscape.1 isEscape.2
            rw [scanChar?, if_neg noEscape]
            exact if_pos ⟨holds.plain, holds.noQuote⟩
          rw [List.cons_append, scanStringFrom.eq_def]
          simp only [holds.noQuote, if_false, scanned]
          rw [ih others (Nat.le_of_succ_le_succ enough), List.reverse_cons, List.append_assoc,
            List.singleton_append]

/-- What follows the closing quote is no quote, so that not even the empty string is taken for
the beginning of one over several lines. -/
theorem scanAnyString?_plain {quote : Quote} {value : String} {rest : List Char}
    (plain : ∀ char ∈ value.toList, quote.Holds char) (ends : EndsValue rest) :
    scanAnyString? quote (value.toList ++ quote.char :: rest) = some (value, rest) := by
  have scanned :
      scanString? quote (value.toList ++ quote.char :: rest) = some (value, rest) := by
    have enough : value.toList.length ≤ (value.toList ++ quote.char :: rest).length := by
      rw [List.length_append]
      exact Nat.le_add_right _ _
    rw [scanString?, scanStringFrom_plain plain enough, List.reverse_nil, List.nil_append,
      String.ofList_toList]
  unfold scanAnyString?
  split
  next second third later same =>
      have notLong : ¬(second = quote.char ∧ third = quote.char) := by
        rintro ⟨rfl, rfl⟩
        cases isChars : value.toList with
        | nil =>
            rw [isChars, List.nil_append] at same
            refine (((List.cons.inj same).2) ▸ ends).not_cons ?_
            cases quote <;> decide
        | cons char chars =>
            rw [isChars] at same plain
            exact (plain char List.mem_cons_self).noQuote (List.cons.inj same).1
      rw [if_neg notLong]
      exact scanned
  next => exact scanned

/-! ### Values -/

theorem SpellsInteger.exists_cons {value : Int} {text : List Char}
    (spelled : SpellsInteger value text) :
    ∃ char rest, text = char :: rest ∧ (char.isDigit = true ∨ char = '+' ∨ char = '-') := by
  cases spelled with
  | unsigned spelled =>
      obtain ⟨char, rest, digit, isText⟩ := spelled.exists_cons
      exact ⟨char, rest, isText, .inl digit⟩
  | plus => exact ⟨_, _, rfl, .inr (.inl rfl)⟩
  | minus => exact ⟨_, _, rfl, .inr (.inr rfl)⟩
  | based => exact ⟨_, _, rfl, .inl rfl⟩

/-- A value begins with no blank, so that the blanks before it end where it begins. -/
theorem Value.Spells.skipBlanks {value : Value} {spelled : List Char}
    (spells : value.Spells spelled) (rest : List Char) :
    skipBlanks (spelled ++ rest) = spelled ++ rest := by
  cases spells with
  | integer isInteger =>
      obtain ⟨char, later, rfl, first⟩ := isInteger.exists_cons
      refine skipBlanks_cons ?_ _
      cases isBlank : isBlank char with
      | false => rfl
      | true =>
          rcases (isBlank_iff char).mp isBlank with rfl | rfl <;> exact absurd first (by decide)
  | yes => rfl
  | no => rfl
  | @text quote => cases quote <;> rfl

theorem scanValueWith?_integer {inner : Inner} {value : Int} {text rest : List Char}
    (spelled : SpellsInteger value text) (fits : fitsInteger value = true)
    (ends : EndsValue rest) :
    scanValueWith? inner (text ++ rest) = some (.integer value, rest) := by
  have notFirst {char : Char} {more : List Char} (same : text ++ rest = char :: more)
      (other : ¬(char.isDigit = true ∨ char = '+' ∨ char = '-')) : False := by
    obtain ⟨first, later, rfl, isFirst⟩ := spelled.exists_cons
    rw [List.cons_append] at same
    rw [(List.cons.inj same).1] at isFirst
    exact other isFirst
  unfold scanValueWith?
  split
  next same => exact (notFirst same (by decide)).elim
  next same => exact (notFirst same (by decide)).elim
  next same => exact (notFirst same (by decide)).elim
  next same => exact (notFirst same (by decide)).elim
  next same => exact (notFirst same (by decide)).elim
  next same => exact (notFirst same (by decide)).elim
  next =>
      rw [scanScalar?_spelled spelled fits ends]
      rfl

theorem scanValue?_spelled {value : Value} {spelled rest : List Char}
    (spells : value.Spells spelled) (ends : EndsValue rest) :
    scanValue? (spelled ++ rest) = some (value.node, rest) := by
  -- No value of a plain line opens a bracket, so it does not matter how many may be opened.
  obtain ⟨inner, isInner⟩ : ∃ inner, ∀ text, scanValue? text = scanValueWith? inner text :=
    ⟨some (scanValueIn? 78), fun _ => rfl⟩
  rw [isInner]
  cases spells with
  | integer isInteger least greatest =>
      exact scanValueWith?_integer isInteger ((fitsInteger_iff _).mpr ⟨least, greatest⟩) ends
  | yes => rfl
  | no => rfl
  | @text quote value plain =>
      have scanned := scanAnyString?_plain plain ends
      rw [List.cons_append, List.append_assoc, List.singleton_append]
      cases quote with
      | double =>
          change (scanAnyString? .double (value.toList ++ Quote.double.char :: rest)).map _ = _
          rw [scanned]
          rfl
      | single =>
          change (scanAnyString? .single (value.toList ++ Quote.single.char :: rest)).map _ = _
          rw [scanned]
          rfl

/-! ### Keys -/

theorem IsBareKey.exists_cons {key : String} (isKey : IsBareKey key) :
    ∃ char rest, key.toList = char :: rest ∧ isBareKeyChar char = true := by
  cases isChars : key.toList with
  | nil => exact absurd (String.toList_eq_nil_iff.mp isChars) isKey.nonempty
  | cons char rest => exact ⟨char, rest, rfl, isKey.bare char (isChars ▸ List.mem_cons_self)⟩

theorem notBare_of_isBlank {char : Char} (blank : isBlank char = true) :
    isBareKeyChar char = false := by
  rcases (isBlank_iff char).mp blank with rfl | rfl <;> rfl

/-- A bare key begins with no blank, no header and no comment, and it is no end of a line. -/
theorem IsBareKey.first {key : String} (isKey : IsBareKey key) :
    ∃ char rest, key.toList = char :: rest ∧ isBlank char = false ∧
      ∀ other ∈ ['[', '#', '\n', '\r'], char ≠ other := by
  obtain ⟨char, rest, isChars, bare⟩ := isKey.exists_cons
  refine ⟨char, rest, isChars, Bool.eq_false_iff.mpr fun blank => ?_, fun other member => ?_⟩
  · rw [notBare_of_isBlank blank] at bare
    exact nomatch bare
  · have notBare : ['[', '#', '\n', '\r'].any isBareKeyChar = false := rfl
    rintro rfl
    exact List.any_eq_false.mp notBare char member bare

theorem IsBareKey.scanSimpleKey? {key : String} (isKey : IsBareKey key) {char : Char}
    (other : isBareKeyChar char = false) (rest : List Char) :
    scanSimpleKey? (key.toList ++ char :: rest) = some (key, char :: rest) := by
  have taken : (key.toList ++ char :: rest).takeWhile isBareKeyChar = key.toList := by
    rw [List.takeWhile_append_of_pos isKey.bare, List.takeWhile_cons, other]
    exact List.append_nil _
  have dropped : (key.toList ++ char :: rest).dropWhile isBareKeyChar = char :: rest := by
    rw [List.dropWhile_append_of_pos isKey.bare, List.dropWhile_cons, other]
    rfl
  obtain ⟨first, later, isChars, bare⟩ := isKey.exists_cons
  have firstBare {quote : Char} {more : List Char}
      (same : key.toList ++ char :: rest = quote :: more) : isBareKeyChar quote = true := by
    rw [isChars, List.cons_append] at same
    rw [← (List.cons.inj same).1]
    exact bare
  unfold Toml.scanSimpleKey?
  split
  next same => exact absurd (firstBare same) (by decide)
  next same => exact absurd (firstBare same) (by decide)
  next =>
      have whole : String.ofList (first :: later) = key := by
        rw [← isChars, String.ofList_toList]
      rw [taken, dropped, isChars]
      exact congrArg (fun bare => some (bare, char :: rest)) whole

/-- A bare key has one part, and takes one round. -/
theorem scanKeyFrom_bare {key : String} {blank : List Char} (isKey : IsBareKey key)
    (isBlank : Blank blank) (rest : List Char) (round : Char) (rounds : List Char) :
    scanKeyFrom (round :: rounds) (key.toList ++ (blank ++ '=' :: rest)) =
      some ([key], '=' :: rest) := by
  have begins : skipBlanks (key.toList ++ (blank ++ '=' :: rest)) =
      key.toList ++ (blank ++ '=' :: rest) := by
    obtain ⟨first, later, isChars, notBlank, -⟩ := isKey.first
    rw [isChars, List.cons_append]
    exact skipBlanks_cons notBlank _
  have scanned : Toml.scanSimpleKey? (key.toList ++ (blank ++ '=' :: rest)) =
      some (key, blank ++ '=' :: rest) := by
    cases blank with
    | nil => exact isKey.scanSimpleKey? rfl rest
    | cons char blank =>
        exact isKey.scanSimpleKey? (notBare_of_isBlank (isBlank char List.mem_cons_self)) _
  have ended : skipBlanks (blank ++ '=' :: rest) = '=' :: rest := by
    rw [skipBlanks_append isBlank, skipBlanks_cons rfl]
  rw [scanKeyFrom, begins, scanned]
  dsimp only
  rw [ended]
  rfl

theorem scanKey?_bare {key : String} {blank : List Char} (isKey : IsBareKey key)
    (isBlank : Blank blank) (rest : List Char) :
    scanKey? (key.toList ++ (blank ++ '=' :: rest)) = some ([key], '=' :: rest) := by
  obtain ⟨first, later, isChars, -⟩ := isKey.exists_cons
  have scanned := scanKeyFrom_bare isKey isBlank rest first (later ++ (blank ++ '=' :: rest))
  rw [← List.cons_append, ← isChars] at scanned
  rw [scanKey?, scanned]
  rfl

end ScopeLint.Toml
