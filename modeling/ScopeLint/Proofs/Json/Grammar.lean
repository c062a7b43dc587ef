import ScopeLint.Json.Token

/-!
The grammar of JSON texts: blanks, strings, numbers, and values of any nesting. It says which
texts there are, and of a string or a number also what it stands for.
-/

set_option autoImplicit false

namespace ScopeLint.Json

/-! ### Blanks and lists -/

/-- What may stand between two tokens. -/
def Blank (text : List Char) : Prop :=
  ∀ char ∈ text, isBlank char = true

/-- Texts with a comma before each, and with any blanks around the commas. -/
inductive Following : List (List Char) → List Char → Prop where
  | nil {blank : List Char} (isBlank : Blank blank) : Following [] blank
  | cons {before after text rest : List Char} {texts : List (List Char)}
      (blankBefore : Blank before) (blankAfter : Blank after) (others : Following texts rest) :
      Following (text :: texts) (before ++ ',' :: (after ++ (text ++ rest)))

/-- Texts with a comma between any two of them, and with any blanks around each. -/
inductive Separated : List (List Char) → List Char → Prop where
  | nil {blank : List Char} (isBlank : Blank blank) : Separated [] blank
  | cons {before text rest : List Char} {texts : List (List Char)} (blankBefore : Blank before)
      (others : Following texts rest) : Separated (text :: texts) (before ++ (text ++ rest))

/-! ### Strings -/

/-- A character that stands in a string for itself. -/
def IsRaw (char : Char) : Prop :=
  char ≠ '"' ∧ char ≠ '\\' ∧ 32 ≤ char.toNat

/-- The ways to write a character in a string. One beyond the first plane takes two escapes. -/
inductive SpellsChar : Char → List Char → Prop where
  | raw {char : Char} (isRaw : IsRaw char) : SpellsChar char [char]
  | short {char letter : Char} (isShort : shortEscape? letter = some char) :
      SpellsChar char ['\\', letter]
  | unit {a b c d : Char} {unit : Nat} (isUnit : hexUnit? a b c d = some unit)
      (notHigh : isHighSurrogate unit = false) (notLow : isLowSurrogate unit = false) :
      SpellsChar (Char.ofNat unit) ['\\', 'u', a, b, c, d]
  | pair {a b c d e f g h : Char} {high low : Nat} (isHighUnit : hexUnit? a b c d = some high)
      (isHigh : isHighSurrogate high = true) (isLowUnit : hexUnit? e f g h = some low)
      (isLow : isLowSurrogate low = true) :
      SpellsChar (joinSurrogates high low) ['\\', 'u', a, b, c, d, '\\', 'u', e, f, g, h]

inductive SpellsChars : List Char → List Char → Prop where
  | nil : SpellsChars [] []
  | cons {char : Char} {chars text texts : List Char} (first : SpellsChar char text)
      (others : SpellsChars chars texts) : SpellsChars (char :: chars) (text ++ texts)

def SpellsString (value : String) (text : List Char) : Prop :=
  ∃ inside, SpellsChars value.toList inside ∧ text = '"' :: (inside ++ ['"'])

/-- One character of a string by its grammar alone, which lets surrogates stand anywhere. -/
inductive LooseChar : List Char → Prop where
  | raw {char : Char} (isRaw : IsRaw char) : LooseChar [char]
  | short {letter char : Char} (isShort : shortEscape? letter = some char) :
      LooseChar ['\\', letter]
  | unit {a b c d : Char} {unit : Nat} (isUnit : hexUnit? a b c d = some unit) :
      LooseChar ['\\', 'u', a, b, c, d]

inductive LooseChars : List Char → Prop where
  | nil : LooseChars []
  | cons {text texts : List Char} (first : LooseChar text) (others : LooseChars texts) :
      LooseChars (text ++ texts)

def LooseString (text : List Char) : Prop :=
  ∃ inside, LooseChars inside ∧ text = '"' :: (inside ++ ['"'])

/-! ### Numbers -/

/-- Digits that can stand before the point of a number: a zero stands alone there. -/
structure IsWhole (digits : List Char) : Prop where
  nonempty : digits ≠ []
  allDigits : ∀ char ∈ digits, char.isDigit = true
  noLeadingZero : digits.head? = some '0' → digits = ['0']

def signChars (negative : Bool) : List Char :=
  if negative = true then ['-'] else []

def AllDigits (digits : List Char) : Prop :=
  ∀ char ∈ digits, char.isDigit = true

/-- The digits after the point, which is there only if they are. -/
inductive SpellsFraction : List Char → List Char → Prop where
  | none : SpellsFraction [] []
  | some {digits : List Char} (nonempty : digits ≠ []) (allDigits : AllDigits digits) :
      SpellsFraction digits ('.' :: digits)

inductive SpellsExponent : Option Int → List Char → Prop where
  | none : SpellsExponent none []
  | unsigned {mark : Char} {digits : List Char} (isMark : mark = 'e' ∨ mark = 'E')
      (nonempty : digits ≠ []) (allDigits : AllDigits digits) :
      SpellsExponent (some (Nat.ofDigitChars 10 digits 0)) (mark :: digits)
  | plus {mark : Char} {digits : List Char} (isMark : mark = 'e' ∨ mark = 'E')
      (nonempty : digits ≠ []) (allDigits : AllDigits digits) :
      SpellsExponent (some (Nat.ofDigitChars 10 digits 0)) (mark :: '+' :: digits)
  | minus {mark : Char} {digits : List Char} (isMark : mark = 'e' ∨ mark = 'E')
      (nonempty : digits ≠ []) (allDigits : AllDigits digits) :
      SpellsExponent (some (-(Nat.ofDigitChars 10 digits 0 : Int))) (mark :: '-' :: digits)

/-- A number with its parts: sign, digits before and after the point, and exponent. -/
inductive SpellsNumeral : Numeral → List Char → Prop where
  | mk {numeral : Numeral} {fraction exponent : List Char} (isWhole : IsWhole numeral.whole)
      (isFraction : SpellsFraction numeral.fraction fraction)
      (isExponent : SpellsExponent numeral.exponent exponent) :
      SpellsNumeral numeral
        (signChars numeral.negative ++ (numeral.whole ++ (fraction ++ exponent)))

/-! ### Values -/

/-- A member of an object as it is written: its key in quotes and its value, with the blanks
before and after the colon. -/
structure Member where
  quoted : List Char
  before : List Char
  after : List Char
  value : List Char

def Member.text (member : Member) : List Char :=
  member.quoted ++ (member.before ++ ':' :: (member.after ++ member.value))

/-- Texts of JSON values, however deep they nest. -/
inductive Valid : List Char → Prop where
  | nullWord : Valid ['n', 'u', 'l', 'l']
  | trueWord : Valid ['t', 'r', 'u', 'e']
  | falseWord : Valid ['f', 'a', 'l', 's', 'e']
  | string {text : List Char} (isString : LooseString text) : Valid text
  | number {numeral : Numeral} {text : List Char} (isNumeral : SpellsNumeral numeral text) :
      Valid text
  | array {items : List (List Char)} {inside : List Char} (valid : ∀ item ∈ items, Valid item)
      (separated : Separated items inside) : Valid ('[' :: (inside ++ [']']))
  | object {members : List Member} {inside : List Char}
      (keys : ∀ member ∈ members, LooseString member.quoted)
      (blanks : ∀ member ∈ members, Blank member.before ∧ Blank member.after)
      (valid : ∀ member ∈ members, Valid member.value)
      (separated : Separated (members.map Member.text) inside) :
      Valid ('\x7b' :: (inside ++ ['\x7d']))

end ScopeLint.Json
