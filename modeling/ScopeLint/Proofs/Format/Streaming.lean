import ScopeLint.Proofs.Format.Completeness
import ScopeLint.Proofs.Json.Extension

/-!
The text is read once, from left to right, and what a reader has come to is final: text that
comes after it changes nothing, nor does a larger number of brackets that may be opened. Only
where the text was not well formed, more text can make it so.
-/

set_option autoImplicit false

namespace ScopeLint.Format

open Json (IsPlain Passes Settled Within skipBlanks)

/-- What becomes of an outcome when the text goes on; of the rest of the text `holds` is known. -/
inductive Kept {α : Type} (holds : List Char → Prop) (more : List Char) :
    Outcome α → Outcome α → Prop where
  | lost (extended : Outcome α) : Kept holds more malformed extended
  | refused (problem : DataProblem) : Kept holds more (refuse problem) (refuse problem)
  | read (value : α) {rest : List Char} (held : holds rest) :
      Kept holds more (.ok (value, rest)) (.ok (value, rest ++ more))

section Kept

variable {α β : Type} {holds holdsNext : List Char → Prop} {more : List Char}
  {first second : Outcome α}

theorem Kept.onValue (kept : Kept holds more first second) (make : α → β) :
    Kept holds more (first.onValue make) (second.onValue make) := by
  cases kept with
  | lost _ => exact .lost _
  | refused problem => exact .refused problem
  | read value held => exact .read (make value) held

/-- A value that was kept is gone on from, and an error stays. -/
@[elab_as_elim]
theorem Kept.goOn {motive : Outcome α → Outcome α → Prop} (kept : Kept holds more first second)
    (ofLost : ∀ extended, motive malformed extended)
    (ofRefused : ∀ problem, motive (refuse problem) (refuse problem))
    (ofRead : ∀ value rest, holds rest → motive (.ok (value, rest)) (.ok (value, rest ++ more))) :
    motive first second := by
  cases kept with
  | lost _ => exact ofLost _
  | refused problem => exact ofRefused problem
  | read value held => exact ofRead value _ held

end Kept

/-! ### Tokens -/

section Tokens

variable {α : Type} {holds : List Char → Prop} {text : List Char} (more : List Char)

theorem kept_readWord {tail : List Char} (value : α)
    (ofRest : ∀ rest, text = tail ++ rest → holds rest) :
    Kept holds more (readWord tail value text) (readWord tail value (text ++ more)) := by
  unfold readWord
  cases scanned : Json.scanWord? tail text with
  | none => exact .lost _
  | some rest =>
      rw [Json.scanWord?_extend scanned more]
      exact .read value (ofRest rest (Json.eq_of_scanWord? scanned))

/-- A string that ends is the same in every longer text. -/
theorem kept_scanString {next nextMore : String → List Char → Outcome α}
    (goesOn : ∀ value core rest, Passes core → '"' :: text = core ++ rest →
      Kept holds more (next value rest) (nextMore value (rest ++ more))) :
    Kept holds more
      (match Json.scanString? text with
        | none => malformed
        | some (value, rest) => next value rest)
      (match Json.scanString? (text ++ more) with
        | none => malformed
        | some (value, rest) => nextMore value rest) := by
  cases scanned : Json.scanString? text with
  | none => exact .lost _
  | some result =>
      rcases result with ⟨value, rest⟩
      obtain ⟨core, spells, isText⟩ := Json.scanString?_eq_some_iff.mp scanned
      rw [Json.scanString?_extend scanned more]
      exact goesOn value core rest spells.loose.passes isText

theorem kept_readQuantity (settled : Settled text)
    (ofRest : ∀ core rest, Passes core → text = core ++ rest → holds rest) :
    Kept holds more (readQuantity text) (readQuantity (text ++ more)) := by
  unfold readQuantity
  cases scanned : Json.scanNumeral? text with
  | none => exact .lost _
  | some result =>
      rcases result with ⟨numeral, rest⟩
      rw [Json.scanNumeral?_extend scanned settled more]
      cases isQuantity : numeral.quantity? with
      | none =>
          simp only [isQuantity]
          exact .lost _
      | some quantity =>
          obtain ⟨core, isText, spells⟩ := Json.spellsNumeral_of_scanNumeral? scanned
          simp only [isQuantity]
          exact .read quantity (ofRest core rest spells.passes isText)

theorem kept_describe (settled : Settled text) :
    Kept (fun _ => True) more (describe text) (describe (text ++ more)) := by
  unfold describe
  cases skipped : skipBlanks text with
  | nil => exact .lost _
  | cons char rest =>
      obtain ⟨blank, rfl, _⟩ := Json.exists_blank_of_skipBlanks skipped
      simp only [Json.skipBlanks_extend skipped more]
      split
      next => exact kept_readWord more _ fun _ _ => trivial
      next =>
      split
      next => exact kept_readWord more _ fun _ _ => trivial
      next =>
      split
      next => exact kept_readWord more _ fun _ _ => trivial
      next =>
      split
      next => exact kept_scanString more fun value _ _ _ _ => .read (Found.string value) trivial
      next =>
      split
      next => exact .read _ trivial
      next =>
      split
      next => exact .read _ trivial
      next =>
          exact (kept_readQuantity more settled.later fun _ _ _ _ => trivial).onValue foundNumber

theorem kept_mismatch (wanted : String) (settled : Settled text) :
    Kept holds more (mismatch wanted text : Outcome α) (mismatch wanted (text ++ more)) := by
  unfold mismatch
  exact (kept_describe more settled).goOn (fun _ => .lost _) (fun _ => .refused _)
    fun found _ _ => .refused (.invalidType found wanted)

end Tokens

/-! ### Scalars -/

/-- A reader keeps what it comes to, as another one does on a longer text. -/
def Keeps {α : Type} (opened budget : Nat) (more : List Char) (first second : Reader α) : Prop :=
  ∀ text, Within opened budget text →
    Kept (Within opened budget) more (first text) (second (text ++ more))

section Scalars

variable {opened budget : Nat} (more : List Char)

theorem keeps_readText (wanted : String) :
    Keeps opened budget more (readText wanted) (readText wanted) := by
  intro text within
  unfold readText
  cases skipped : skipBlanks text with
  | nil => exact .lost _
  | cons char rest =>
      have within := within.front skipped
      rw [Json.skipBlanks_extend skipped more]
      by_cases isQuote : char = '"'
      · subst isQuote
        exact kept_scanString more fun value core rest passes isText =>
          .read value ((isText ▸ within).later passes)
      · simp only [List.cons.injEq, isQuote, false_and, imp_self, implies_true]
        exact kept_mismatch more wanted within.settled

/-- A word of plain characters, from after its first one. -/
theorem kept_word {α : Type} {tail text : List Char} {char : Char}
    (within : Within opened budget (char :: text))
    (plain : ∀ other ∈ char :: tail, IsPlain other) (value : α) :
    Kept (Within opened budget) more (readWord tail value text)
      (readWord tail value (text ++ more)) := by
  refine kept_readWord more value fun rest isText => ?_
  rw [isText] at within
  have whole : Within opened budget (char :: tail ++ rest) := within
  exact whole.later (Json.passes_plain plain)

theorem keeps_readCharacter : Keeps opened budget more readCharacter readCharacter := by
  intro text within
  unfold readCharacter
  refine (keeps_readText more "a character" text within).goOn (fun _ => .lost _)
    (fun _ => .refused _) fun value rest withinRest => ?_
  simp only
  cases value.toList with
  | nil => exact .refused _
  | cons char chars =>
      cases chars with
      | nil => exact .read char withinRest
      | cons _ _ => exact .refused _

theorem keeps_readTruth : Keeps opened budget more readTruth readTruth := by
  intro text within
  unfold readTruth
  cases skipped : skipBlanks text with
  | nil => exact .lost _
  | cons char rest =>
      have within := within.front skipped
      rw [Json.skipBlanks_extend skipped more]
      by_cases isTrue : char = 't'
      · subst isTrue
        exact kept_word more within (by simp [IsPlain]) true
      by_cases isFalse : char = 'f'
      · subst isFalse
        exact kept_word more within (by simp [IsPlain]) false
      · simp only [List.cons.injEq, isTrue, isFalse, false_and, imp_self, implies_true]
        exact kept_mismatch more "a boolean" within.settled

theorem keeps_readNull : Keeps opened budget more readNull readNull := by
  intro text within
  unfold readNull
  cases skipped : skipBlanks text with
  | nil => exact .lost _
  | cons char rest =>
      have within := within.front skipped
      rw [Json.skipBlanks_extend skipped more]
      by_cases isNull : char = 'n'
      · subst isNull
        exact kept_word more within (by simp [IsPlain]) ()
      · simp only [List.cons.injEq, isNull, false_and, imp_self, implies_true]
        exact kept_mismatch more "unit" within.settled

theorem kept_quantity {text : List Char} (within : Within opened budget text) :
    Kept (Within opened budget) more (readQuantity text) (readQuantity (text ++ more)) := by
  refine kept_readQuantity more within.settled fun core rest passes isText => ?_
  rw [isText] at within
  exact within.later passes

theorem keeps_readInteger (width : Width) :
    Keeps opened budget more (readInteger width) (readInteger width) := by
  intro text within
  unfold readInteger startsNumber
  cases skipped : skipBlanks text with
  | nil =>
      have described : mismatch width.name text = (malformed : Outcome width.Carrier) := by
        simp only [mismatch, describe, skipped]
        rfl
      rw [if_neg Bool.false_ne_true, described]
      exact .lost _
  | cons char rest =>
      have withinFront := within.front skipped
      rw [Json.skipBlanks_extend skipped more]
      simp only
      split
      next =>
          refine (kept_quantity more withinFront).goOn (fun _ => .lost _) (fun _ => .refused _)
            fun quantity rest withinRest => ?_
          cases quantity with
          | real value => exact .refused _
          | integer value =>
              cases isValue : width.ofInt? value with
              | none =>
                  simp only [isValue]
                  exact .refused _
              | some value =>
                  simp only [isValue]
                  exact .read value withinRest
      next => exact kept_mismatch more width.name within.settled

theorem keeps_readReal : Keeps opened budget more readReal readReal := by
  intro text within
  unfold readReal startsNumber
  cases skipped : skipBlanks text with
  | nil =>
      have described : mismatch "f64" text = (malformed : Outcome Binary64) := by
        simp only [mismatch, describe, skipped]
        rfl
      rw [if_neg Bool.false_ne_true, described]
      exact .lost _
  | cons char rest =>
      have withinFront := within.front skipped
      rw [Json.skipBlanks_extend skipped more]
      simp only
      split
      next => exact (kept_quantity more withinFront).onValue Json.Quantity.toReal
      next => exact kept_mismatch more "f64" within.settled

theorem keeps_readKey : Keeps opened budget more readKey readKey := by
  intro text within
  unfold readKey
  cases skipped : skipBlanks text with
  | nil => exact .lost _
  | cons char rest =>
      have within := within.front skipped
      rw [Json.skipBlanks_extend skipped more]
      by_cases isQuote : char = '"'
      · subst isQuote
        exact kept_scanString more fun value core rest passes isText =>
          .read value ((isText ▸ within).later passes)
      · simp only [List.cons.injEq, isQuote, false_and, imp_self, implies_true]
        exact .lost _

theorem keeps_readColon : Keeps opened budget more readColon readColon := by
  intro text within
  unfold readColon
  cases skipped : skipBlanks text with
  | nil => exact .lost _
  | cons char rest =>
      have within := within.front skipped
      rw [Json.skipBlanks_extend skipped more]
      by_cases isColon : char = ':'
      · subst isColon
        exact .read () (within.tail (by simp [IsPlain]))
      · simp only [List.cons.injEq, isColon, false_and, imp_self, implies_true]
        exact .lost _

end Scalars

/-! ### Lists -/

theorem kept_readItems {α : Type} {item itemMore : Reader α} {opened inside : Nat}
    {more : List Char} (keeps : Keeps (opened + 1) inside more item itemMore)
    (rounds extra : List Char) (started : Bool) (taken : List α) {text : List Char}
    (within : Within (opened + 1) inside text) :
    Kept (Within opened (inside + 1)) more (readItems item rounds started taken text)
      (readItems itemMore (rounds ++ extra) started taken (text ++ more)) := by
  induction rounds generalizing started taken text with
  | nil => exact .lost _
  | cons _ rounds ih =>
      unfold readItems
      cases skipped : skipBlanks text with
      | nil => exact .lost _
      | cons char rest =>
          have within := within.front skipped
          rw [List.cons_append]
          simp only [Json.skipBlanks_extend skipped more]
          split
          next isEnd => exact .read _ (within.leave (.inl isEnd))
          next =>
              split
              next => exact .lost _
              next isComma =>
                  rw [Json.item_append]
                  exact (keeps _ (within.item isComma)).goOn (fun _ => .lost _)
                    (fun _ => .refused _) fun value rest withinRest =>
                      ih true (value :: taken) withinRest

/-! ### Records -/

/-- A reader of forms keeps what it comes to, and gives nothing for an empty text. -/
structure KeepsForms (opened budget : Nat) (more : List Char)
    (first second : (form : Form) → Reader form.Carrier) : Prop where
  keeps : ∀ form, Keeps opened budget more (first form) (second form)
  empty : ∀ form, first form [] = malformed

section Records

variable {first second : (form : Form) → Reader form.Carrier} {opened inside : Nat}
  {more : List Char}

theorem keeps_readField (forms : KeepsForms opened inside more first second) (field : Field) :
    Keeps opened inside more (readField first field) (readField second field) := by
  intro text within
  cases field with
  | required key shape => exact forms.keeps (.value shape) text within
  | optional key shape =>
      cases skipped : skipBlanks text with
      | nil =>
          simp only [readField, skipped, forms.empty]
          exact .lost _
      | cons char rest =>
          have withinFront := within.front skipped
          simp only [readField, skipped, Json.skipBlanks_extend skipped more]
          by_cases isNull : char = 'n'
          · subst isNull
            exact kept_word more withinFront (by simp [IsPlain]) none
          · simp only [List.cons.injEq, isNull, false_and, imp_self, implies_true]
            exact (forms.keeps (.value shape) _ withinFront).onValue some

theorem keeps_readEntry (forms : KeepsForms opened inside more first second) (key : String)
    {fields : List Field} (slots : Slots fields) :
    Keeps opened inside more (readEntry first key fields slots)
      (readEntry second key fields slots) := by
  intro text within
  induction fields with
  | nil =>
      unfold readEntry
      refine (keeps_readColon more text within).goOn (fun _ => .lost _) (fun _ => .refused _)
        fun _ rest withinRest => ?_
      simp only
      cases skipped : Json.skipValue? rest with
      | none => exact .lost _
      | some left =>
          rw [Json.skipValue?_extend skipped withinRest.settled more]
          obtain ⟨before, core, blankBefore, rfl, valid⟩ := Json.valid_of_skipValue? skipped
          exact .read () ((withinRest.later blankBefore.passes).later valid.passes)
  | cons field fields ih =>
      rcases slots with ⟨slot, slots⟩
      unfold readEntry
      split
      next =>
          cases slot with
          | some content => exact .refused _
          | none =>
              exact (keeps_readColon more text within).goOn (fun _ => .lost _)
                (fun _ => .refused _) fun _ rest withinRest =>
                  (keeps_readField forms field rest withinRest).onValue _
      next => exact (ih slots).onValue _

theorem kept_readEntries (forms : KeepsForms (opened + 1) inside more first second)
    {fields : List Field} (rounds extra : List Char) (started : Bool) (slots : Slots fields)
    {text : List Char} (within : Within (opened + 1) inside text) :
    Kept (Within opened (inside + 1)) more (readEntries first fields rounds started slots text)
      (readEntries second fields (rounds ++ extra) started slots (text ++ more)) := by
  induction rounds generalizing started slots text with
  | nil => exact .lost _
  | cons _ rounds ih =>
      unfold readEntries
      cases skipped : skipBlanks text with
      | nil => exact .lost _
      | cons char rest =>
          have within := within.front skipped
          rw [List.cons_append]
          simp only [Json.skipBlanks_extend skipped more]
          split
          next isEnd =>
              cases slots.close with
              | error problem => exact .refused problem
              | ok row => exact .read row (within.leave (.inr isEnd))
          next =>
              split
              next => exact .lost _
              next isComma =>
                  rw [Json.item_append]
                  refine (keeps_readKey more _ (within.item isComma)).goOn (fun _ => .lost _)
                    (fun _ => .refused _) fun key rest withinValue => ?_
                  simp only
                  exact (keeps_readEntry forms key slots rest withinValue).goOn (fun _ => .lost _)
                    (fun _ => .refused _) fun slots rest withinRest => ih true slots withinRest

theorem kept_readPositions (forms : KeepsForms (opened + 1) inside more first second)
    (title : String) (size index : Nat) (fields : List Field) {text : List Char}
    (within : Within (opened + 1) inside text) :
    Kept (Within opened (inside + 1)) more (readPositions first title size index fields text)
      (readPositions second title size index fields (text ++ more)) := by
  induction fields generalizing index text with
  | nil =>
      unfold readPositions
      cases skipped : skipBlanks text with
      | nil => exact .lost _
      | cons char rest =>
          have within := within.front skipped
          rw [Json.skipBlanks_extend skipped more]
          by_cases isEnd : char = ']'
          · subst isEnd
            exact .read () (within.leave (.inl rfl))
          · simp only [List.cons.injEq, isEnd, false_and, imp_self, implies_true]
            exact .lost _
  | cons field fields ih =>
      unfold readPositions
      cases skipped : skipBlanks text with
      | nil => exact .lost _
      | cons char rest =>
          have within := within.front skipped
          simp only [Json.skipBlanks_extend skipped more]
          split
          next => exact .refused _
          next =>
              split
              next => exact .lost _
              next isComma =>
                  have isItem (more : List Char) :
                      (if index = 0 then char :: (rest ++ more) else rest ++ more) =
                        (if decide (0 < index) = true then rest else char :: rest) ++ more := by
                    cases index with
                    | zero => rfl
                    | succ index => rfl
                  have isFirst := isItem []
                  simp only [List.append_nil] at isFirst
                  rw [isFirst, isItem]
                  refine (keeps_readField forms field _ (within.item ?_)).goOn (fun _ => .lost _)
                    (fun _ => .refused _) fun value rest withinRest => ?_
                  · rwa [decide_eq_true_eq]
                  · exact (ih (index + 1) withinRest).onValue _

end Records

/-! ### Forms -/

/-- What is inside a bracket is kept, where a bracket may be opened. -/
inductive Inner.Keeps (opened : Nat) (more : List Char) :
    (budget : Nat) → Inner → Inner → Prop where
  | closed {first second : Inner} : Keeps opened more 0 first second
  | opened {inside : Nat} {first second : (form : Form) → Reader form.Carrier}
      (forms : KeepsForms (opened + 1) inside more first second) :
      Keeps opened more (inside + 1) (some first) (some second)

section Nodes

variable {first second : Inner} {opened budget : Nat} {more : List Char}

/-- Behind an opening bracket there are readers for what is inside it. -/
theorem Inner.Keeps.enter (keeps : Inner.Keeps opened more budget first second) {char : Char}
    {rest : List Char} (within : Within opened budget (char :: rest))
    (isOpening : char = '[' ∨ char = '\x7b') :
    ∃ inside readFirst readSecond, budget = inside + 1 ∧ first = some readFirst ∧
      second = some readSecond ∧ KeepsForms (opened + 1) inside more readFirst readSecond ∧
      Within (opened + 1) inside rest := by
  obtain ⟨inside, rfl, withinRest⟩ := within.enter isOpening
  cases keeps with
  | opened forms => exact ⟨inside, _, _, rfl, rfl, rfl, forms, withinRest⟩

theorem keeps_readRecord (keeps : Inner.Keeps opened more budget first second) (title : String)
    (fields : List Field) :
    Keeps opened budget more (readRecord first title fields) (readRecord second title fields) := by
  intro text within
  unfold readRecord
  cases skipped : skipBlanks text with
  | nil => exact .lost _
  | cons char rest =>
      have within := within.front skipped
      rw [Json.skipBlanks_extend skipped more]
      by_cases isBrace : char = '\x7b'
      · subst isBrace
        obtain ⟨inside, _, _, rfl, rfl, rfl, forms, withinRest⟩ := keeps.enter within (.inr rfl)
        exact kept_readEntries forms rest more false (Slots.empty fields) withinRest
      by_cases isBracket : char = '['
      · subst isBracket
        obtain ⟨inside, _, _, rfl, rfl, rfl, forms, withinRest⟩ := keeps.enter within (.inl rfl)
        exact kept_readPositions forms title fields.length 0 fields withinRest
      · simp only [List.cons.injEq, isBrace, isBracket, false_and, imp_self, implies_true]
        exact kept_mismatch more title within.settled

theorem keeps_readPayload {first second : (form : Form) → Reader form.Carrier} {inside : Nat}
    (forms : KeepsForms opened inside more first second) (payload : Payload) :
    Keeps opened inside more (readPayload first payload) (readPayload second payload) := by
  cases payload with
  | nothing => exact keeps_readNull more
  | one form => exact forms.keeps form
  | several title fields => exact forms.keeps (.record title fields)

theorem kept_readTagged {α : Type} {first second : (form : Form) → Reader form.Carrier}
    {inside : Nat} (forms : KeepsForms (opened + 1) inside more first second)
    (cases : List (Case α)) {text : List Char} (within : Within (opened + 1) inside text) :
    Kept (Within opened (inside + 1)) more (readTagged first cases text)
      (readTagged second cases (text ++ more)) := by
  unfold readTagged
  refine (keeps_readText more "variant identifier" text within).goOn (fun _ => .lost _)
    (fun _ => .refused _) fun tag rest withinColon => ?_
  simp only
  cases findCase tag cases with
  | none => exact .refused _
  | some entry =>
      refine (keeps_readColon more rest withinColon).goOn (fun _ => .lost _)
        (fun _ => .refused _) fun _ rest withinPayload => ?_
      simp only
      refine (keeps_readPayload forms entry.payload rest withinPayload).goOn (fun _ => .lost _)
        (fun _ => .refused _) fun payload rest withinEnd => ?_
      simp only
      cases skipped : skipBlanks rest with
      | nil => exact .lost _
      | cons char left =>
          have within := withinEnd.front skipped
          rw [Json.skipBlanks_extend skipped more]
          by_cases isEnd : char = '\x7d'
          · subst isEnd
            exact .read (entry.make payload) (within.leave (.inr rfl))
          · simp only [List.cons.injEq, isEnd, false_and, imp_self, implies_true]
            exact .lost _

theorem keeps_readChoice {α : Type} (keeps : Inner.Keeps opened more budget first second)
    (cases : List (Case α)) :
    Keeps opened budget more (readChoice first cases) (readChoice second cases) := by
  intro text within
  unfold readChoice
  cases skipped : skipBlanks text with
  | nil => exact .lost _
  | cons char rest =>
      have within := within.front skipped
      rw [Json.skipBlanks_extend skipped more]
      by_cases isQuote : char = '"'
      · subst isQuote
        refine kept_scanString more fun tag core rest passes isText => ?_
        rw [isText] at within
        cases findCase tag cases with
        | none => exact .refused _
        | some entry =>
            rcases entry with ⟨tag, payload, make, part⟩
            cases payload with
            | nothing => exact .read (make ()) (within.later passes)
            | one form => exact .refused _
            | several title fields => exact .refused _
      by_cases isBrace : char = '\x7b'
      · subst isBrace
        obtain ⟨inside, _, _, rfl, rfl, rfl, forms, withinRest⟩ := keeps.enter within (.inr rfl)
        exact kept_readTagged forms cases withinRest
      · simp only [List.cons.injEq, isQuote, isBrace, false_and, imp_self, implies_true]
        exact .lost _

theorem keeps_readNode {α : Type} (keeps : Inner.Keeps opened more budget first second)
    (layout : Layout α) :
    Keeps opened budget more (readNode first layout) (readNode second layout) := by
  cases layout with
  | record title fields make parts =>
      exact fun text within => (keeps_readRecord keeps title fields text within).onValue make
  | choice cases => exact keeps_readChoice keeps cases

theorem keeps_readList (keeps : Inner.Keeps opened more budget first second) (item : Shape) :
    Keeps opened budget more (readList first item) (readList second item) := by
  intro text within
  unfold readList
  cases skipped : skipBlanks text with
  | nil => exact .lost _
  | cons char rest =>
      have within := within.front skipped
      rw [Json.skipBlanks_extend skipped more]
      by_cases isBracket : char = '['
      · subst isBracket
        obtain ⟨inside, _, _, rfl, rfl, rfl, forms, withinRest⟩ := keeps.enter within (.inl rfl)
        exact kept_readItems (forms.keeps (.value item)) rest more false [] withinRest
      · simp only [List.cons.injEq, isBracket, false_and, imp_self, implies_true]
        exact kept_mismatch more "a sequence" within.settled

theorem keeps_readWith (keeps : Inner.Keeps opened more budget first second) :
    KeepsForms opened budget more (readWith first) (readWith second) where
  keeps form := by
    cases form with
    | record title fields => exact keeps_readRecord keeps title fields
    | value shape =>
        cases shape with
        | text => exact keeps_readText more "a string"
        | character => exact keeps_readCharacter more
        | truth => exact keeps_readTruth more
        | integer width => exact keeps_readInteger more width
        | real => exact keeps_readReal more
        | list item => exact keeps_readList keeps item
        | node kind => exact keeps_readNode keeps kind.layout
  empty form := by
    cases form with
    | record title fields => rfl
    | value shape =>
        cases shape with
        | node kind =>
            simp only [readWith, readShape]
            cases kind.layout with
            | record title fields make parts => rfl
            | choice cases => rfl
        | _ => rfl

end Nodes

/-- What is read with more brackets to spare is read without them, if the text does not open
them. -/
theorem keepsForms_readForm (opened budget extra : Nat) (more : List Char) :
    KeepsForms opened budget more (readForm (budget + extra)) (readForm budget) := by
  -- A bracket takes one from both budgets and adds one to those that are open.
  induction budget generalizing opened with
  | zero =>
      rw [Nat.zero_add]
      cases extra with
      | zero => exact keeps_readWith .closed
      | succ extra => exact keeps_readWith .closed
  | succ budget ih =>
      rw [Nat.succ_add]
      exact keeps_readWith (.opened (ih (opened + 1)))

end ScopeLint.Format
