import ScopeLint.Number.Shortest

/-!
The text of a 64-bit value. What a format decides for itself is one `FloatFormat`: how small
a number is still written without an exponent, whether a positive exponent carries a sign,
and which way a tie goes. Numbers of `10 ^ 16` and more always carry an exponent.
-/

set_option autoImplicit false

namespace ScopeLint

structure FloatFormat where
  /-- Power of ten of the leading digit of the smallest number written without an exponent. -/
  leastPlain : Int
  signedExponent : Bool
  tie : Tie

private def zeros (count : Nat) : List Char :=
  List.replicate count '0'

/-- Digits around a decimal point, with at least one digit on each side of it. -/
def plainNotation (digits : List Char) (exponent : Int) : List Char :=
  let whole := digits.length + exponent
  if 0 ≤ exponent then
    digits ++ zeros exponent.toNat ++ ['.', '0']
  else if 0 < whole then
    digits.take whole.toNat ++ '.' :: digits.drop whole.toNat
  else
    '0' :: '.' :: zeros (-whole).toNat ++ digits

/-- One digit, a point only if more follow, and the power of ten of that first digit. -/
def exponentNotation (signed : Bool) (digits : List Char) (order : Int) : List Char :=
  let sign := if order < 0 then ['-'] else if signed then ['+'] else []
  let fraction := if digits.length ≤ 1 then [] else '.' :: digits.drop 1
  digits.take 1 ++ fraction ++ 'e' :: sign ++ Nat.toDigits 10 order.natAbs

namespace FloatFormat

def finiteChars (format : FloatFormat) (value : Binary64) : List Char :=
  let sign := if value.negative then ['-'] else []
  if value.isZero then
    sign ++ ['0', '.', '0']
  else
    let decimal := value.shortest format.tie
    let digits := Nat.toDigits 10 decimal.digits
    let order := digits.length + decimal.exponent - 1
    if format.leastPlain ≤ order ∧ order < 16 then
      sign ++ plainNotation digits decimal.exponent
    else
      sign ++ exponentNotation format.signedExponent digits order

/-- The characters of any value, with a word for each value that is not finite. -/
def chars (format : FloatFormat) (value : Binary64) : List Char :=
  if value.isFinite then format.finiteChars value
  else if value.isNaN then ['N', 'a', 'N']
  else if value.negative then ['-', 'i', 'n', 'f']
  else ['i', 'n', 'f']

end FloatFormat

end ScopeLint
