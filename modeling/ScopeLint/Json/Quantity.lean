import ScopeLint.Json.Token
import ScopeLint.Number.Scaling

/-!
What a number is taken for. An integer that fits 64 bits stays an integer. Any other number is
a real: as many of its digits as fit 64 bits are scaled by a power of ten in rounded arithmetic,
so that a number with many digits or a large exponent can miss the real nearest to it.
-/

set_option autoImplicit false

namespace ScopeLint.Json

inductive Quantity where
  | integer (value : Int)
  | real (value : Binary64)
  deriving DecidableEq

/-- The nearest real to an integer, and a real as it is. -/
def Quantity.toReal : Quantity → Binary64
  | .integer value =>
      .ofMagnitude (decide (value < 0)) (Binary64.ofNatural value.natAbs).magnitude
  | .real value => value

/-- Goes on with a number as long as it stays within 64 bits, and gives the digits left over. -/
def gatherDigits (number : Nat) : List Char → Nat × List Char
  | [] => (number, [])
  | digit :: digits =>
      let longer := 10 * number + (digit.toNat - '0'.toNat)
      if longer < twoTo 64 then gatherDigits longer digits else (number, digit :: digits)

/-- The digits of a number that fit 64 bits, and the power of ten that they stand for without
the exponent: a digit that is left over counts in the whole part, and not after the point. -/
def Numeral.gathered (numeral : Numeral) : Nat × Int :=
  let (whole, wholeLeft) := gatherDigits 0 numeral.whole
  let (digits, fractionLeft) := gatherDigits whole numeral.fraction
  (digits, wholeLeft.length + fractionLeft.length - numeral.fraction.length)

/-- The real that a number is converted to; nothing is left of a number out of range. An
exponent beyond 32 bits decides by itself. -/
def Numeral.real? (numeral : Numeral) : Option Binary64 :=
  let (digits, places) := numeral.gathered
  let exponent := numeral.exponent.getD 0
  let size? :=
    if exponent.natAbs < twoTo 31 then Binary64.scaled? digits (places + exponent)
    else if 0 < exponent ∧ digits ≠ 0 then none
    else some (.ofMagnitude false 0)
  size?.map fun size => .ofMagnitude numeral.negative size.magnitude

/-- An integer that fits 64 bits, signed or unsigned. A negative zero is none. -/
def Numeral.integer? (numeral : Numeral) : Option Int :=
  let size := Nat.ofDigitChars 10 numeral.whole 0
  if numeral.fraction = [] ∧ numeral.exponent = none then
    if numeral.negative then if 0 < size ∧ size ≤ twoTo 63 then some (-size) else none
    else if size < twoTo 64 then some size else none
  else none

def Numeral.quantity? (numeral : Numeral) : Option Quantity :=
  match numeral.integer? with
  | some value => some (.integer value)
  | none => numeral.real?.map .real

end ScopeLint.Json
