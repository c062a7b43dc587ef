import ScopeLint.Toml.Document

/-!
The grammar of plain TOML documents: lines that are blank, that hold a comment, or that give a
bare key an integer, a truth value or a string on one line. It says which texts there are and
what each line says; tables, headers and dotted keys are not part of it.
-/

set_option autoImplicit false

namespace ScopeLint.Toml

/-! ### Integers -/

/-- Digits, with one underscore or none between any two of them. -/
inductive SpellsDigits (isDigit : Char → Bool) : List Char → List Char → Prop where
  | one {char : Char} (digit : isDigit char = true) : SpellsDigits isDigit [char] [char]
  | cons {char : Char} {digits text : List Char} (digit : isDigit char = true)
      (others : SpellsDigits isDigit digits text) :
      SpellsDigits isDigit (char :: digits) (char :: text)
  | separated {char : Char} {digits text : List Char} (digit : isDigit char = true)
      (others : SpellsDigits isDigit digits text) :
      SpellsDigits isDigit (char :: digits) (char :: '_' :: text)

/-- Decimal digits: a zero in front stands alone. -/
structure SpellsDecimal (digits text : List Char) : Prop where
  spelled : SpellsDigits Char.isDigit digits text
  noLeadingZero : digits.head? = some '0' → digits = ['0']

/-- The base that a letter after a zero announces. -/
def baseOf? : Char → Option Nat
  | 'x' => some 16
  | 'o' => some 8
  | 'b' => some 2
  | _ => none

def digitOf? (base : Nat) (char : Char) : Option Nat :=
  (Text.hexValue? char).filter (· < base)

def valueIn (base : Nat) (digits : List Char) : Nat :=
  digits.foldl (fun sum char => sum * base + (digitOf? base char).getD 0) 0

/-- The ways to write an integer. Only a decimal one can have a sign. -/
inductive SpellsInteger : Int → List Char → Prop where
  | unsigned {digits text : List Char} (spelled : SpellsDecimal digits text) :
      SpellsInteger (Nat.ofDigitChars 10 digits 0) text
  | plus {digits text : List Char} (spelled : SpellsDecimal digits text) :
      SpellsInteger (Nat.ofDigitChars 10 digits 0) ('+' :: text)
  | minus {digits text : List Char} (spelled : SpellsDecimal digits text) :
      SpellsInteger (-(Nat.ofDigitChars 10 digits 0 : Int)) ('-' :: text)
  | based {letter : Char} {base : Nat} {digits text : List Char}
      (isBase : baseOf? letter = some base)
      (spelled : SpellsDigits (fun char => (digitOf? base char).isSome) digits text) :
      SpellsInteger (valueIn base digits) ('0' :: letter :: text)

/-! ### Values -/

/-- What a plain line can give a key. -/
inductive Value where
  | integer (value : Int)
  | truth (value : Bool)
  | text (value : String)
  deriving DecidableEq

def Value.node : Value → Node
  | integer value => .integer value
  | truth value => .boolean value
  | text value => .string value

/-- A character that stands for itself between such quotes. -/
structure Quote.Holds (quote : Quote) (char : Char) : Prop where
  plain : isPlain char = true
  noQuote : char ≠ quote.char
  noEscape : quote = .double → char ≠ '\\'

instance (quote : Quote) (char : Char) : Decidable (quote.Holds char) :=
  decidable_of_iff
    (isPlain char = true ∧ char ≠ quote.char ∧ (quote = .double → char ≠ '\\'))
    ⟨fun holds => ⟨holds.1, holds.2.1, holds.2.2⟩,
      fun holds => ⟨holds.plain, holds.noQuote, holds.noEscape⟩⟩

/-- The ways to write a value on one line: an integer of 64 bits, a truth value, or a string
without escapes between quotes of either kind. -/
inductive Value.Spells : Value → List Char → Prop where
  | integer {value : Int} {text : List Char} (spelled : SpellsInteger value text)
      (least : -9223372036854775808 ≤ value) (greatest : value ≤ 9223372036854775807) :
      Spells (.integer value) text
  | yes : Spells (.truth true) ['t', 'r', 'u', 'e']
  | no : Spells (.truth false) ['f', 'a', 'l', 's', 'e']
  | text {quote : Quote} {value : String} (plain : ∀ char ∈ value.toList, quote.Holds char) :
      Spells (.text value) (quote.char :: (value.toList ++ [quote.char]))

/-! ### Lines -/

def Blank (text : List Char) : Prop :=
  ∀ char ∈ text, isBlank char = true

instance (text : List Char) : Decidable (Blank text) :=
  decidable_of_iff (text.all isBlank = true) List.all_eq_true

structure IsBareKey (key : String) : Prop where
  nonempty : key ≠ ""
  bare : ∀ char ∈ key.toList, isBareKeyChar char = true

instance (key : String) : Decidable (IsBareKey key) :=
  decidable_of_iff (key ≠ "" ∧ key.toList.all isBareKeyChar = true)
    ⟨fun isKey => ⟨isKey.1, List.all_eq_true.mp isKey.2⟩,
      fun isKey => ⟨isKey.nonempty, List.all_eq_true.mpr isKey.bare⟩⟩

/-- A key with its value. -/
abbrev Entry : Type :=
  String × Value

/-- The ways to write a line that gives an entry or none. What may stand on a line of its own
may also stand behind a value. -/
inductive SpellsLine : Option Entry → List Char → Prop where
  | blank {text : List Char} (isBlank : Blank text) : SpellsLine none text
  | comment {before text : List Char} (isBlank : Blank before)
      (plain : ∀ char ∈ text, isPlain char = true) : SpellsLine none (before ++ '#' :: text)
  | entry {key : String} {value : Value} {before afterKey beforeValue spelled behind : List Char}
      (isKey : IsBareKey key) (isValue : value.Spells spelled) (blankBefore : Blank before)
      (blankAfterKey : Blank afterKey) (blankBeforeValue : Blank beforeValue)
      (silentBehind : SpellsLine none behind) :
      SpellsLine (some (key, value))
        (before ++ (key.toList ++ (afterKey ++ '=' :: (beforeValue ++ (spelled ++ behind)))))

inductive IsNewline : List Char → Prop where
  | alone : IsNewline ['\n']
  | afterReturn : IsNewline ['\r', '\n']

/-- Lines with a newline after each; the last one may go without it. -/
inductive SpellsLines : List (Option Entry) → List Char → Prop where
  | nil : SpellsLines [] []
  | last {line : Option Entry} {text : List Char} (spelled : SpellsLine line text) :
      SpellsLines [line] text
  | cons {line : Option Entry} {lines : List (Option Entry)} {text newline rest : List Char}
      (spelled : SpellsLine line text) (isNewline : IsNewline newline)
      (others : SpellsLines lines rest) : SpellsLines (line :: lines) (text ++ (newline ++ rest))

end ScopeLint.Toml
