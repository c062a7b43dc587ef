import ScopeLint.Number.Power

/-!
Binary floating-point values of 64 bits, kept as their bit pattern. Two values are equal
as data when their patterns are; `sameNumber` is the numerical comparison, under which the
two zeros agree and a NaN differs even from itself. No arithmetic is defined here.
-/

set_option autoImplicit false

namespace ScopeLint

structure Binary64 where
  bits : UInt64
  deriving DecidableEq

namespace Binary64

/-- The pattern without its sign, read as a natural number; it grows with the magnitude. -/
def magnitude (value : Binary64) : Nat :=
  value.bits.toNat % twoTo 63

def negative (value : Binary64) : Bool :=
  twoTo 63 ≤ value.bits.toNat

def infinity : Nat :=
  2047 * twoTo 52

def ofMagnitude (negative : Bool) (magnitude : Nat) : Binary64 :=
  ⟨UInt64.ofNat (magnitude + if negative then twoTo 63 else 0)⟩

def isNaN (value : Binary64) : Bool :=
  infinity < value.magnitude

def isFinite (value : Binary64) : Bool :=
  value.magnitude < infinity

def isZero (value : Binary64) : Bool :=
  value.magnitude == 0

/-- The integer `m` of a finite value `m * 2 ^ scale`. -/
def significand (value : Binary64) : Nat :=
  if value.magnitude < twoTo 52 then value.magnitude
  else value.magnitude % twoTo 52 + twoTo 52

/-- The power of two that multiplies the significand of a finite value. -/
def scale (value : Binary64) : Int :=
  (max (value.magnitude / twoTo 52) 1 : Nat) - 1075

/-- Numerical equality: the zeros agree, and a NaN agrees with nothing. -/
def sameNumber (left right : Binary64) : Bool :=
  !left.isNaN && !right.isNaN && (left == right || left.isZero && right.isZero)

end Binary64

end ScopeLint
