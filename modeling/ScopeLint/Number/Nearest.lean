import ScopeLint.Number.Binary64

/-!
Reading a decimal as the nearest 64-bit value, a half going to the even neighbour. The
decimal is an exact ratio of naturals throughout, so no digit is ever dropped.
-/

set_option autoImplicit false

namespace ScopeLint

def roundedQuotient (dividend divisor : Nat) : Nat :=
  let quotient := dividend / divisor
  match compare (2 * (dividend % divisor)) divisor with
  | .lt => quotient
  | .gt => quotient + 1
  | .eq => quotient + quotient % 2

/-- The largest `k` with `2 ^ k ≤ dividend / divisor`, for positive arguments. -/
def binaryOrder (dividend divisor : Nat) : Int :=
  let guess : Int := (dividend.log2 : Int) - (divisor.log2 : Int)
  if dividend * twoTo (-guess).toNat < divisor * twoTo guess.toNat then guess - 1 else guess

namespace Binary64

/-- The magnitude nearest to a positive ratio. A significand that rounds up to `2 ^ 53`
carries into the exponent by itself, because the fields are added and not joined. -/
def nearestMagnitude (dividend divisor : Nat) : Nat :=
  let scale := max (binaryOrder dividend divisor - 52) (-1074)
  let significand :=
    roundedQuotient (dividend * twoTo (-scale).toNat) (divisor * twoTo scale.toNat)
  (scale + 1074).toNat * twoTo 52 + significand

/-- The value nearest to `digits * 10 ^ exponent`; nothing when that is out of range. A
decimal whose leading digit lies beyond `10 ^ 400` on either side is settled unrounded. -/
def ofDecimal? (negative : Bool) (digits : Nat) (exponent : Int) : Option Binary64 :=
  let order := exponent + (Nat.toDigits 10 digits).length
  if digits = 0 ∨ order < -400 then
    some (ofMagnitude negative 0)
  else if 400 < order then
    none
  else
    let magnitude := nearestMagnitude (digits * tenTo exponent.toNat) (tenTo (-exponent).toNat)
    if magnitude < infinity then some (ofMagnitude negative magnitude) else none

end Binary64

end ScopeLint
