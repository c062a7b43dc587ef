import ScopeLint.Text.Hexadecimal

/-!
Tokens of JSON, read from the front of a text: blanks, words, strings and numbers. A scanner
returns what it read with the rest of the text, or nothing where the text is malformed; it
never looks beyond the first character that cannot belong to its token.
-/

set_option autoImplicit false

namespace ScopeLint.Json

open Text (hexValue?)

def isBlank (char : Char) : Bool :=
  char = ' ' || char = '\t' || char = '\n' || char = '\r'

def skipBlanks (text : List Char) : List Char :=
  text.dropWhile isBlank

/-- What follows a word that the text must begin with. -/
def scanWord? (word text : List Char) : Option (List Char) :=
  word.isPrefixOf? text

/-! ### Strings -/

def hexUnit? (a b c d : Char) : Option Nat :=
  match hexValue? a, hexValue? b, hexValue? c, hexValue? d with
  | some a, some b, some c, some d => some (((a * 16 + b) * 16 + c) * 16 + d)
  | _, _, _, _ => none

def isHighSurrogate (unit : Nat) : Bool :=
  0xD800 ≤ unit && unit < 0xDC00

def isLowSurrogate (unit : Nat) : Bool :=
  0xDC00 ≤ unit && unit < 0xE000

def joinSurrogates (high low : Nat) : Char :=
  Char.ofNat (0x10000 + (high - 0xD800) * 0x400 + (low - 0xDC00))

/-- The character of a short escape such as a backslash and `n`. -/
def shortEscape? (char : Char) : Option Char :=
  if char = '"' ∨ char = '\\' ∨ char = '/' then some char
  else if char = 'b' then some (Char.ofNat 8)
  else if char = 'f' then some (Char.ofNat 12)
  else if char = 'n' then some '\n'
  else if char = 'r' then some '\r'
  else if char = 't' then some '\t'
  else none

/-- The character of a hexadecimal escape, from what follows its `u`. A high surrogate needs
a second escape with a low one at once, and a low surrogate never stands first. -/
def scanHexEscape? : List Char → Option (Char × List Char)
  | a :: b :: c :: d :: rest =>
      match hexUnit? a b c d with
      | none => none
      | some unit =>
          if isLowSurrogate unit then none
          else if isHighSurrogate unit then
            match rest with
            | '\\' :: 'u' :: e :: f :: g :: h :: rest =>
                match hexUnit? e f g h with
                | none => none
                | some low =>
                    if isLowSurrogate low then some (joinSurrogates unit low, rest) else none
            | _ => none
          else some (Char.ofNat unit, rest)
  | _ => none

def scanEscape? : List Char → Option (Char × List Char)
  | [] => none
  | char :: rest =>
      if char = 'u' then scanHexEscape? rest
      else (shortEscape? char).map (·, rest)

/-- One character of a string, escaped or not, and never a control character. -/
def scanStringChar? : List Char → Option (Char × List Char)
  | [] => none
  | char :: rest =>
      if char = '\\' then scanEscape? rest
      else if char = '"' ∨ char.toNat < 32 then none
      else some (char, rest)

/-- The characters of a string from after its opening quote. Every round takes at least one
character, so a text of `rounds.length` characters is always read to its end. -/
def scanStringFrom (rounds taken text : List Char) : Option (String × List Char) :=
  match text with
  | [] => none
  | char :: rest =>
      if char = '"' then some (String.ofList taken.reverse, rest)
      else
        match rounds with
        | [] => none
        | _ :: rounds =>
            match scanStringChar? (char :: rest) with
            | none => none
            | some (next, rest) => scanStringFrom rounds (next :: taken) rest

def scanString? (text : List Char) : Option (String × List Char) :=
  scanStringFrom text [] text

/-! ### Numbers -/

/-- A number as written: the digits of each part, and the power of ten it names. -/
structure Numeral where
  negative : Bool
  whole : List Char
  /-- Digits after the point; none when there is no point. -/
  fraction : List Char
  exponent : Option Int
  deriving DecidableEq

/-- Digits of the whole part: a zero stands alone. -/
def scanWhole? : List Char → Option (List Char × List Char)
  | [] => none
  | char :: rest =>
      if char = '0' then
        match rest with
        | [] => some (['0'], [])
        | next :: _ => if next.isDigit then none else some (['0'], rest)
      else if char.isDigit then
        some (char :: rest.takeWhile Char.isDigit, rest.dropWhile Char.isDigit)
      else none

def scanDigits? (text : List Char) : Option (List Char × List Char) :=
  match text.takeWhile Char.isDigit with
  | [] => none
  | digits => some (digits, text.dropWhile Char.isDigit)

def scanFraction? : List Char → Option (List Char × List Char)
  | '.' :: rest => scanDigits? rest
  | text => some ([], text)

def scanSignedDigits? : List Char → Option (Int × List Char)
  | [] => none
  | char :: rest =>
      let text := if char = '+' ∨ char = '-' then rest else char :: rest
      match scanDigits? text with
      | none => none
      | some (digits, rest) =>
          let value : Int := Nat.ofDigitChars 10 digits 0
          some (if char = '-' then -value else value, rest)

def scanExponent? : List Char → Option (Option Int × List Char)
  | [] => some (none, [])
  | char :: rest =>
      if char = 'e' ∨ char = 'E' then
        match scanSignedDigits? rest with
        | none => none
        | some (value, rest) => some (some value, rest)
      else some (none, char :: rest)

def scanUnsigned? (negative : Bool) (text : List Char) : Option (Numeral × List Char) :=
  match scanWhole? text with
  | none => none
  | some (whole, text) =>
      match scanFraction? text with
      | none => none
      | some (fraction, text) =>
          match scanExponent? text with
          | none => none
          | some (exponent, text) => some (⟨negative, whole, fraction, exponent⟩, text)

def scanNumeral? : List Char → Option (Numeral × List Char)
  | '-' :: rest => scanUnsigned? true rest
  | text => scanUnsigned? false text

end ScopeLint.Json
