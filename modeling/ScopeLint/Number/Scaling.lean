import ScopeLint.Number.Nearest

/-!
Decimals in rounded arithmetic. The digits, the power of ten and their product or quotient are
each the nearest value there is. So a decimal is rounded up to three times, and what comes of
it need not be the value nearest to the decimal itself.
-/

set_option autoImplicit false

namespace ScopeLint.Binary64

/-- A finite value without its sign is this natural over `divisor`. -/
def dividend (value : Binary64) : Nat :=
  value.significand * twoTo value.scale.toNat

def divisor (value : Binary64) : Nat :=
  twoTo (-value.scale).toNat

/-- The value nearest to a ratio, or infinity. -/
def ofRatio (dividend divisor : Nat) : Binary64 :=
  if dividend = 0 then ofMagnitude false 0
  else ofMagnitude false (min (nearestMagnitude dividend divisor) infinity)

def ofNatural (number : Nat) : Binary64 :=
  ofRatio number 1

/-- The rounded product of two finite values without their signs. -/
def times (left right : Binary64) : Binary64 :=
  ofRatio (left.dividend * right.dividend) (left.divisor * right.divisor)

/-- The rounded quotient of two finite values without their signs. -/
def dividedBy (left right : Binary64) : Binary64 :=
  ofRatio (left.dividend * right.divisor) (left.divisor * right.dividend)

def powerOfTen (exponent : Nat) : Binary64 :=
  ofNatural (tenTo exponent)

/-- The greatest exponent of a power of ten that is in range. -/
def greatestPower : Nat := 308

/-- Divides by the greatest power of ten, once for every round, as long as something is left. -/
def shrink : (rounds : Nat) → Binary64 → Binary64
  | 0, value => value
  | rounds + 1, value =>
      if value.isZero then value else shrink rounds (value.dividedBy (powerOfTen greatestPower))

/-- The value of `digits * 10 ^ exponent`, rounded at every step; nothing if that is infinite.
Before the last division at most the greatest power of ten is left to divide by. -/
def scaled? (digits : Nat) (exponent : Int) : Option Binary64 :=
  if exponent < 0 then
    let places := exponent.natAbs
    let rounds := (places - 1) / greatestPower
    some ((shrink rounds (ofNatural digits)).dividedBy
      (powerOfTen (places - rounds * greatestPower)))
  else if exponent.toNat ≤ greatestPower then
    let product := (ofNatural digits).times (powerOfTen exponent.toNat)
    if product.isFinite then some product else none
  else if digits = 0 then some (ofMagnitude false 0)
  else none

end ScopeLint.Binary64
