import ScopeLint.Number.Nearest
import ScopeLint.Toml.Token

/-!
Numbers, dates and times of TOML. Integers keep their value; of floats, dates and times only
the form is checked, and that a float does not run over the largest one.
-/

set_option autoImplicit false

namespace ScopeLint.Toml

open Text (hexValue?)

inductive Scalar where
  | integer (value : Int)
  | float
  | moment
  deriving DecidableEq

/-! ### Numbers -/

/-- The digits of a number and what follows them. A separator stands between two digits. -/
def scanMoreDigits? (isDigit : Char → Bool) : List Char → Option (List Char × List Char)
  | [] => some ([], [])
  | char :: rest =>
      if isDigit char then
        (scanMoreDigits? isDigit rest).map fun (more, rest) => (char :: more, rest)
      else if char = '_' then
        match rest with
        | [] => none
        | next :: rest =>
            if isDigit next then
              (scanMoreDigits? isDigit rest).map fun (more, rest) => (next :: more, rest)
            else none
      else some ([], char :: rest)

def scanDigits? (isDigit : Char → Bool) : List Char → Option (List Char × List Char)
  | [] => none
  | char :: rest =>
      if isDigit char then
        (scanMoreDigits? isDigit rest).map fun (more, rest) => (char :: more, rest)
      else none

/-- The digits of a decimal integer: a zero stands alone. -/
def scanDecimal? : List Char → Option (List Char × List Char)
  | '0' :: rest => some (['0'], rest)
  | text => scanDigits? Char.isDigit text

def fitsInteger (value : Int) : Bool :=
  -9223372036854775808 ≤ value && value ≤ 9223372036854775807

def scanRadix? (base : Nat) (text : List Char) : Option (Scalar × List Char) :=
  let digit? (char : Char) := (hexValue? char).filter (· < base)
  match scanDigits? (fun char => (digit? char).isSome) text with
  | none => none
  | some (digits, rest) =>
      let value := digits.foldl (fun sum char => sum * base + (digit? char).getD 0) 0
      if fitsInteger value then some (.integer value, rest) else none

def scanFraction? : List Char → Option (List Char × List Char)
  | '.' :: rest => scanDigits? Char.isDigit rest
  | text => some ([], text)

def scanExponent? : List Char → Option (Option Int × List Char)
  | [] => some (none, [])
  | char :: rest =>
      if char = 'e' ∨ char = 'E' then
        let (negative, rest) :=
          match rest with
          | '-' :: rest => (true, rest)
          | '+' :: rest => (false, rest)
          | rest => (false, rest)
        (scanDigits? Char.isDigit rest).map fun (digits, rest) =>
          let value : Int := Nat.ofDigitChars 10 digits 0
          (some (if negative then -value else value), rest)
      else some (none, char :: rest)

/-- A float must not round to positive infinity; below every float it is let pass. -/
def fitsFloat (negative : Bool) (digits : List Char) (exponent : Int) : Bool :=
  negative || (Binary64.ofDecimal? false (Nat.ofDigitChars 10 digits 0) exponent).isSome

def scanUnsigned? (negative : Bool) (text : List Char) : Option (Scalar × List Char) :=
  match scanDecimal? text with
  | none => none
  | some (whole, text) =>
      match scanFraction? text with
      | none => none
      | some (fraction, text) =>
          match scanExponent? text with
          | none => none
          | some (exponent, text) =>
              if fraction = [] ∧ exponent = none then
                let size : Int := Nat.ofDigitChars 10 whole 0
                let value := if negative then -size else size
                if fitsInteger value then some (.integer value, text) else none
              else
                let order := exponent.getD 0 - fraction.length
                if fitsFloat negative (whole ++ fraction) order then some (.float, text)
                else none

def scanSpecial? : List Char → Option (Scalar × List Char)
  | 'i' :: 'n' :: 'f' :: rest => some (.float, rest)
  | 'n' :: 'a' :: 'n' :: rest => some (.float, rest)
  | _ => none

def scanSigned? (negative : Bool) (text : List Char) : Option (Scalar × List Char) :=
  (scanSpecial? text).or (scanUnsigned? negative text)

def scanNumber? : List Char → Option (Scalar × List Char)
  | '-' :: rest => scanSigned? true rest
  | '+' :: rest => scanSigned? false rest
  | '0' :: 'x' :: rest => scanRadix? 16 rest
  | '0' :: 'o' :: rest => scanRadix? 8 rest
  | '0' :: 'b' :: rest => scanRadix? 2 rest
  | text => scanSigned? false text

/-! ### Dates and times -/

/-- A number of exactly so many digits that lies between two bounds. -/
def scanField? (digits least greatest : Nat) (text : List Char) : Option (Nat × List Char) :=
  let field := text.take digits
  let value := Nat.ofDigitChars 10 field 0
  if field.length = digits ∧ field.all Char.isDigit ∧ least ≤ value ∧ value ≤ greatest then
    some (value, text.drop digits)
  else none

def scanMark? (mark : Char) : List Char → Option (List Char)
  | [] => none
  | char :: rest => if char = mark then some rest else none

def daysOfMonth (year month : Nat) : Nat :=
  if month = 2 then
    if year % 4 = 0 ∧ (year % 100 ≠ 0 ∨ year % 400 = 0) then 29 else 28
  else if month = 4 ∨ month = 6 ∨ month = 9 ∨ month = 11 then 30
  else 31

def scanDate? (text : List Char) : Option (List Char) := do
  let (year, rest) ← scanField? 4 0 9999 text
  let rest ← scanMark? '-' rest
  let (month, rest) ← scanField? 2 1 12 rest
  let rest ← scanMark? '-' rest
  let (_, rest) ← scanField? 2 1 (daysOfMonth year month) rest
  return rest

def skipSecondFraction : List Char → List Char
  | '.' :: digit :: rest =>
      if digit.isDigit then rest.dropWhile Char.isDigit else '.' :: digit :: rest
  | text => text

/-- What follows a time of day; a minute may have a leap second. -/
def scanTime? (text : List Char) : Option (List Char) := do
  let (_, rest) ← scanField? 2 0 23 text
  let rest ← scanMark? ':' rest
  let (_, rest) ← scanField? 2 0 59 rest
  let rest ← scanMark? ':' rest
  let (_, rest) ← scanField? 2 0 60 rest
  return skipSecondFraction rest

/-- What follows the offset from universal time, which may be missing. -/
def scanOffset? : List Char → Option (List Char)
  | [] => some []
  | char :: rest =>
      if char = 'Z' ∨ char = 'z' then some rest
      else if char = '+' ∨ char = '-' then do
        let (_, rest) ← scanField? 2 0 23 rest
        let rest ← scanMark? ':' rest
        let (_, rest) ← scanField? 2 0 59 rest
        return rest
      else some (char :: rest)

def startsTime (text : List Char) : Bool :=
  match scanField? 2 0 23 text with
  | some (_, ':' :: _) => true
  | _ => false

/-- What follows the time of a date, which may be missing. A blank before something else than
a time does not belong to the date. -/
def scanTimeOfDate? : List Char → Option (List Char)
  | [] => some []
  | char :: rest =>
      if (char = 'T' ∨ char = 't' ∨ char = ' ') ∧ startsTime rest then
        (scanTime? rest).bind scanOffset?
      else some (char :: rest)

def startsDate (text : List Char) : Bool :=
  match scanField? 4 0 9999 text with
  | some (_, '-' :: _) => true
  | _ => false

def scanScalar? (text : List Char) : Option (Scalar × List Char) :=
  if startsDate text then
    ((scanDate? text).bind scanTimeOfDate?).map (.moment, ·)
  else if startsTime text then
    (scanTime? text).map (.moment, ·)
  else scanNumber? text

end ScopeLint.Toml
