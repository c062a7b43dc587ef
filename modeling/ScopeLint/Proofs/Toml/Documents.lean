import Mathlib.Data.List.DropRight
import Mathlib.Data.List.ReduceOption
import ScopeLint.Proofs.Toml.Values

/-!
A plain document is read line by line, and its table holds what the lines give in their order.
What the table has under a key does not depend on that order as long as no key is given twice.
-/

set_option autoImplicit false

namespace ScopeLint.Toml

/-! ### Ends of lines -/

/-- How the text goes on after a line: it ends there, or a newline stands before the rest. -/
inductive LineEnds : List Char → List Char → Prop where
  | atEnd : LineEnds [] []
  | newline {newline : List Char} (isNewline : IsNewline newline) (rest : List Char) :
      LineEnds (newline ++ rest) rest

namespace LineEnds

variable {after rest : List Char}

theorem length_lt (ends : LineEnds after rest) {text : List Char} (nonempty : text ++ after ≠ []) :
    rest.length < (text ++ after).length := by
  cases ends with
  | atEnd => exact List.length_pos_iff.mpr nonempty
  | newline isNewline =>
      rw [List.length_append]
      cases isNewline <;> simp only [List.length_append, List.length_cons] <;> omega

/-- A run of characters before the end of a line does not go beyond it. -/
theorem dropWhile (ends : LineEnds after rest) {goesOn : Char → Bool}
    (newline : goesOn '\n' = false) (carriage : goesOn '\r' = false) :
    after.dropWhile goesOn = after := by
  cases ends with
  | atEnd => rfl
  | newline isNewline =>
      cases isNewline with
      | alone => exact List.dropWhile_cons_of_neg (Bool.eq_false_iff.mp newline)
      | afterReturn => exact List.dropWhile_cons_of_neg (Bool.eq_false_iff.mp carriage)

theorem skipBlanks (ends : LineEnds after rest) : skipBlanks after = after :=
  ends.dropWhile rfl rfl

theorem skipComment (ends : LineEnds after rest) : skipComment after = after := by
  cases ends with
  | atEnd => rfl
  | newline isNewline => cases isNewline <;> rfl

theorem scanLineEnd?_of_skipped (ends : LineEnds after rest) {text : List Char}
    (skipped : Toml.skipComment (Toml.skipBlanks text) = after) :
    scanLineEnd? text = some rest := by
  rw [scanLineEnd?, skipped]
  cases ends with
  | atEnd => rfl
  | newline isNewline => cases isNewline <;> rfl

end LineEnds

theorem scanLineEnd?_skipBlanks (text : List Char) :
    scanLineEnd? (skipBlanks text) = scanLineEnd? text := by
  rw [scanLineEnd?, scanLineEnd?, skipBlanks, skipBlanks, List.dropWhile_idempotent]

section Silent

variable {text after rest : List Char}

theorem scanLineEnd?_silent (silent : SpellsLine none text) (ends : LineEnds after rest) :
    scanLineEnd? (text ++ after) = some rest := by
  apply ends.scanLineEnd?_of_skipped
  cases silent with
  | blank isBlank =>
      rw [skipBlanks_append isBlank, ends.skipBlanks, ends.skipComment]
  | comment isBlank plain =>
      rw [List.append_assoc, skipBlanks_append isBlank, List.cons_append, skipBlanks_cons rfl,
        skipComment, List.dropWhile_append_of_pos plain, ends.dropWhile rfl rfl]

/-- A line that gives nothing ends after its blanks, or a comment or the newline begins. -/
theorem skipBlanks_silent (silent : SpellsLine none text) (ends : LineEnds after rest) :
    (skipBlanks (text ++ after) = [] ∧ rest = []) ∨
      ∃ char more, skipBlanks (text ++ after) = char :: more ∧
        (char = '#' ∨ char = '\n' ∨ char = '\r') := by
  cases silent with
  | blank isBlank =>
      rw [skipBlanks_append isBlank, ends.skipBlanks]
      cases ends with
      | atEnd => exact .inl ⟨rfl, rfl⟩
      | newline isNewline =>
          cases isNewline with
          | alone => exact .inr ⟨_, _, rfl, .inr (.inl rfl)⟩
          | afterReturn => exact .inr ⟨_, _, rfl, .inr (.inr rfl)⟩
  | comment isBlank plain =>
      rw [List.append_assoc, skipBlanks_append isBlank, List.cons_append, skipBlanks_cons rfl]
      exact .inr ⟨_, _, rfl, .inl rfl⟩

theorem endsValue_silent (silent : SpellsLine none text) (ends : LineEnds after rest) :
    EndsValue (text ++ after) := by
  intro char isFirst
  obtain ⟨more, isText⟩ := List.head?_eq_some_iff.mp isFirst
  cases blank : isBlank char with
  | true =>
      rcases (isBlank_iff char).mp blank with rfl | rfl <;> decide
  | false =>
      have skipped := skipBlanks_silent silent ends
      rw [isText, skipBlanks_cons blank] at skipped
      rcases skipped with ⟨impossible, -⟩ | ⟨first, later, same, isFirst⟩
      · exact nomatch impossible
      · rw [(List.cons.inj same).1]
        rcases isFirst with rfl | rfl | rfl <;> decide

end Silent

/-! ### Statements -/

def Entry.statement (entry : Entry) : Statement :=
  .assign [] entry.1 entry.2.node

theorem scanStatement?_of_ne {char : Char} (noHeader : char ≠ '[') (rest : List Char) :
    scanStatement? (char :: rest) = scanAssignment? (char :: rest) := by
  unfold scanStatement?
  split
  next same => exact absurd (List.cons.inj same).1 noHeader
  next same => exact absurd (List.cons.inj same).1 noHeader
  next => rfl

theorem scanStatement?_entry {key : String} {value : Value}
    {afterKey beforeValue spelled rest : List Char} (isKey : IsBareKey key)
    (isValue : value.Spells spelled) (blankAfterKey : Blank afterKey)
    (blankBeforeValue : Blank beforeValue) (ends : EndsValue rest) :
    scanStatement? (key.toList ++ (afterKey ++ '=' :: (beforeValue ++ (spelled ++ rest)))) =
      some (Entry.statement (key, value), rest) := by
  have assigned :
      scanAssignment? (key.toList ++ (afterKey ++ '=' :: (beforeValue ++ (spelled ++ rest)))) =
        some (Entry.statement (key, value), rest) := by
    have scanned : scanValue? (skipBlanks (beforeValue ++ (spelled ++ rest))) =
        some (value.node, rest) := by
      rw [skipBlanks_append blankBeforeValue, isValue.skipBlanks, scanValue?_spelled isValue ends]
    rw [scanAssignment?, scanKey?_bare isKey blankAfterKey]
    exact congrArg (Option.map _) scanned
  obtain ⟨char, later, isChars, -, notFirst⟩ := isKey.first
  rw [isChars, List.cons_append] at assigned ⊢
  rw [scanStatement?_of_ne (notFirst '[' (by decide))]
  exact assigned

/-- A line that gives an entry begins, after its blanks, with the statement of that entry. -/
theorem scanStatement?_of_entry {entry : Entry} {text after rest : List Char}
    (spelled : SpellsLine (some entry) text) (ends : LineEnds after rest) :
    ∃ char more behind, skipBlanks (text ++ after) = char :: more ∧
      ¬(char = '#' ∨ char = '\n' ∨ char = '\r') ∧
      scanStatement? (char :: more) = some (entry.statement, behind) ∧
      scanLineEnd? behind = some rest := by
  cases spelled with
  | @entry key value before afterKey beforeValue spelled behind isKey isValue blankBefore
      blankAfterKey blankBeforeValue silentBehind =>
      have scanned := scanStatement?_entry isKey isValue blankAfterKey blankBeforeValue
        (endsValue_silent silentBehind ends)
      obtain ⟨char, more, isChars, notBlank, notFirst⟩ := isKey.first
      have noEnd : ¬(char = '#' ∨ char = '\n' ∨ char = '\r') := by
        rintro (isEnd | isEnd | isEnd) <;> exact notFirst _ (by decide) isEnd
      rw [isChars, List.cons_append] at scanned
      refine ⟨char, _, behind ++ after, ?_, noEnd, scanned, scanLineEnd?_silent silentBehind ends⟩
      simp only [isChars, List.append_assoc, List.cons_append]
      rw [skipBlanks_append blankBefore, skipBlanks_cons notBlank]

/-! ### Lines -/

section Rounds

variable {rounds text : List Char} (taken : List Statement)

theorem scanStatements?_blank (enough : text.length ≤ rounds.length)
    (skipped : skipBlanks text = []) :
    scanStatements? rounds taken text = some taken.reverse := by
  cases rounds with
  | nil =>
      rw [scanStatements?]
      exact if_pos (List.length_eq_zero_iff.mp (Nat.le_zero.mp enough))
  | cons round rounds => rw [scanStatements?, skipped]

theorem scanStatements?_silent {char round : Char} {more rest : List Char}
    (skipped : skipBlanks text = char :: more) (isEnd : char = '#' ∨ char = '\n' ∨ char = '\r')
    (ended : scanLineEnd? (char :: more) = some rest) :
    scanStatements? (round :: rounds) taken text = scanStatements? rounds taken rest := by
  rw [scanStatements?, skipped]
  dsimp only
  rw [if_pos isEnd, ended]

theorem scanStatements?_statement {char round : Char} {more behind rest : List Char}
    {statement : Statement} (skipped : skipBlanks text = char :: more)
    (noEnd : ¬(char = '#' ∨ char = '\n' ∨ char = '\r'))
    (scanned : scanStatement? (char :: more) = some (statement, behind))
    (ended : scanLineEnd? behind = some rest) :
    scanStatements? (round :: rounds) taken text =
      scanStatements? rounds (statement :: taken) rest := by
  rw [scanStatements?, skipped]
  dsimp only
  rw [if_neg noEnd, scanned]
  dsimp only
  rw [ended]

/-- There is a round left for a line on which something stands. -/
theorem exists_round {after rest more : List Char} {char : Char} (ends : LineEnds after rest)
    (enough : (text ++ after).length ≤ rounds.length)
    (skipped : skipBlanks (text ++ after) = char :: more) :
    ∃ round later, rounds = round :: later ∧ rest.length ≤ later.length := by
  have nonempty : text ++ after ≠ [] := by
    intro isEmpty
    rw [isEmpty] at skipped
    exact nomatch skipped
  have shorter := Nat.lt_of_lt_of_le (ends.length_lt nonempty) enough
  cases rounds with
  | nil => exact absurd shorter (Nat.not_lt_zero _)
  | cons round later => exact ⟨round, later, rfl, Nat.le_of_lt_succ shorter⟩

/-- One line takes one round, unless it is blank and the text ends with it. -/
theorem scanStatements?_line {line : Option Entry} {after rest : List Char}
    (spelled : SpellsLine line text) (ends : LineEnds after rest)
    (enough : (text ++ after).length ≤ rounds.length) :
    ∃ later, rest.length ≤ later.length ∧ scanStatements? rounds taken (text ++ after) =
      scanStatements? later ((line.map Entry.statement).toList ++ taken) rest := by
  cases line with
  | none =>
      have ended := scanLineEnd?_silent spelled ends
      rcases skipBlanks_silent spelled ends with ⟨skipped, rfl⟩ | ⟨char, more, skipped, isEnd⟩
      · refine ⟨[], Nat.le_refl _, ?_⟩
        rw [scanStatements?_blank taken enough skipped]
        rfl
      · obtain ⟨round, later, rfl, enoughLater⟩ := exists_round ends enough skipped
        refine ⟨later, enoughLater, scanStatements?_silent taken skipped isEnd ?_⟩
        rw [← ended, ← skipped, scanLineEnd?_skipBlanks]
  | some entry =>
      obtain ⟨char, more, behind, skipped, noEnd, scanned, ended⟩ :=
        scanStatement?_of_entry spelled ends
      obtain ⟨round, later, rfl, enoughLater⟩ := exists_round ends enough skipped
      exact ⟨later, enoughLater, scanStatements?_statement taken skipped noEnd scanned ended⟩

/-- By induction on the lines; each of them leaves rounds enough for the text after it. -/
theorem scanStatements?_lines {lines : List (Option Entry)} (spelled : SpellsLines lines text)
    (enough : text.length ≤ rounds.length) :
    scanStatements? rounds taken text =
      some (taken.reverse ++ lines.reduceOption.map Entry.statement) := by
  have gathered (line : Option Entry) (lines : List (Option Entry)) (taken : List Statement) :
      ((line.map Entry.statement).toList ++ taken).reverse ++
          lines.reduceOption.map Entry.statement =
        taken.reverse ++ (line :: lines).reduceOption.map Entry.statement := by
    cases line with
    | none => rfl
    | some entry =>
        rw [List.reduceOption_cons_of_some, List.map_cons, List.append_cons, Option.map_some,
          Option.toList_some, List.singleton_append, List.reverse_cons]
  induction spelled generalizing rounds taken with
  | nil =>
      rw [scanStatements?_blank taken enough rfl]
      exact congrArg some (List.append_nil _).symm
  | @last line text spelledLine =>
      rw [← List.append_nil text] at enough ⊢
      obtain ⟨later, -, isLine⟩ := scanStatements?_line taken spelledLine .atEnd enough
      rw [isLine, scanStatements?_blank _ (Nat.zero_le _) rfl, ← gathered]
      exact congrArg some (List.append_nil _).symm
  | cons spelledLine isNewline others ih =>
      obtain ⟨later, enoughLater, isLine⟩ :=
        scanStatements?_line taken spelledLine (.newline isNewline _) enough
      rw [isLine, ih _ enoughLater, gathered]

end Rounds

/-- The first line does not begin with a byte order mark. -/
theorem head?_ne_mark {line : Option Entry} {text after rest : List Char}
    (spelled : SpellsLine line text) (ends : LineEnds after rest) :
    (text ++ after).head? ≠ some (Char.ofNat 0xFEFF) := by
  cases line with
  | none =>
      intro isMark
      exact absurd (endsValue_silent spelled ends _ isMark) (by decide)
  | some entry =>
      cases spelled with
      | @entry key value before afterKey beforeValue spelled behind isKey isValue blankBefore =>
          intro isMark
          cases before with
          | cons char before =>
              have blank := blankBefore char List.mem_cons_self
              rw [Option.some.inj isMark] at blank
              exact absurd blank (by decide)
          | nil =>
              obtain ⟨char, more, isChars, bare⟩ := isKey.exists_cons
              rw [isChars] at isMark
              rw [Option.some.inj isMark] at bare
              exact absurd bare (by decide)

theorem statements?_lines {lines : List (Option Entry)} {text : List Char}
    (spelled : SpellsLines lines text) :
    statements? text = some (lines.reduceOption.map Entry.statement) := by
  have noMark : text.head? ≠ some (Char.ofNat 0xFEFF) := by
    cases spelled with
    | nil => exact nofun
    | last spelledLine =>
        have noMark := head?_ne_mark spelledLine .atEnd
        rwa [List.append_nil] at noMark
    | cons spelledLine isNewline => exact head?_ne_mark spelledLine (.newline isNewline _)
  rw [statements?, if_neg noMark, scanStatements?_lines [] spelled (Nat.le_refl _)]
  rfl

/-! ### Tables -/

namespace Table

/-- The table that holds some entries and was not opened by any header or dotted key. -/
def ofEntries (entries : List Entry) : Table :=
  { Table.empty with entries := entries.map fun entry => (entry.1, entry.2.node) }

theorem find?_ofEntries_cons (entry : Entry) (entries : List Entry) (key : String) :
    (ofEntries (entry :: entries)).find? key =
      if entry.1 = key then some entry.2.node else (ofEntries entries).find? key := by
  rw [find?, ofEntries, List.map_cons, List.find?_cons]
  by_cases same : entry.1 = key
  · rw [if_pos same, same, beq_self_eq_true]
    rfl
  · rw [if_neg same, beq_eq_false_iff_ne.mpr same]
    rfl

theorem find?_ofEntries_of_mem {entries : List Entry} (distinct : (entries.map Prod.fst).Nodup)
    {key : String} {value : Value} (member : (key, value) ∈ entries) :
    (ofEntries entries).find? key = some value.node := by
  induction entries with
  | nil => exact absurd member List.not_mem_nil
  | cons entry entries ih =>
      rw [List.map_cons, List.nodup_cons] at distinct
      rw [find?_ofEntries_cons]
      rcases List.mem_cons.mp member with rfl | later
      · exact if_pos rfl
      · have differs : entry.1 ≠ key := by
          rintro rfl
          exact distinct.1 (List.mem_map.mpr ⟨_, later, rfl⟩)
        rw [if_neg differs, ih distinct.2 later]

theorem find?_ofEntries_of_notMem {entries : List Entry} {key : String}
    (absent : key ∉ entries.map Prod.fst) : (ofEntries entries).find? key = none := by
  induction entries with
  | nil => rfl
  | cons entry entries ih =>
      rw [List.map_cons, List.mem_cons, not_or] at absent
      rw [find?_ofEntries_cons, if_neg (Ne.symm absent.1), ih absent.2]

theorem assign?_ofEntries {entries : List Entry} {entry : Entry}
    (absent : entry.1 ∉ entries.map Prod.fst) :
    (ofEntries entries).assign? [] entry.1 entry.2.node =
      some (ofEntries (entries ++ [entry])) := by
  have inserted : (ofEntries entries).assign? [] entry.1 entry.2.node =
      (ofEntries entries).insert? entry.1 entry.2.node := rfl
  rw [inserted, insert?, find?_ofEntries_of_notMem absent, ofEntries, ofEntries, List.map_append]
  rfl

end Table

/-- A document that stays at its root, so far. -/
def Draft.ofEntries (entries : List Entry) : Draft :=
  { Draft.initial with current := .ofEntries entries }

theorem Draft.foldlM_statements {earlier later : List Entry}
    (distinct : ((earlier ++ later).map Prod.fst).Nodup) :
    (later.map Entry.statement).foldlM Draft.add? (.ofEntries earlier) =
      some (.ofEntries (earlier ++ later)) := by
  induction later generalizing earlier with
  | nil =>
      rw [List.append_nil]
      rfl
  | cons entry later ih =>
      have absent : entry.1 ∉ earlier.map Prod.fst := by
        rw [List.map_append, List.map_cons] at distinct
        exact fun member =>
          (List.nodup_append.mp distinct).2.2 _ member _ List.mem_cons_self rfl
      have added : (Draft.ofEntries earlier).add? entry.statement =
          some (.ofEntries (earlier ++ [entry])) :=
        congrArg (Option.map _) (Table.assign?_ofEntries absent)
      rw [List.append_cons] at distinct ⊢
      rw [List.map_cons, List.foldlM_cons, added]
      exact ih distinct

theorem parse?_lines {lines : List (Option Entry)} {text : String}
    (spelled : SpellsLines lines text.toList)
    (distinct : (lines.reduceOption.map Prod.fst).Nodup) :
    parse? text = some (.ofEntries lines.reduceOption) := by
  have folded : (lines.reduceOption.map Entry.statement).foldlM Draft.add? Draft.initial =
      some (.ofEntries lines.reduceOption) :=
    @Draft.foldlM_statements [] _ distinct
  rw [parse?, statements?_lines spelled, Option.bind_some, tableOf?, folded]
  rfl

end ScopeLint.Toml
