import ScopeLint.Number.Binary64

/-!
The shortest decimal that reads back as a given finite value, by exact comparison of
naturals. On each grid of multiples of a power of ten, from coarse to fine, only the two
neighbours of the value are tried: if any point of a grid reads back, so does one of them.
-/

set_option autoImplicit false

namespace ScopeLint

structure Decimal where
  digits : Nat
  exponent : Int
  deriving DecidableEq

inductive Tie where
  | up
  | toEven
  deriving DecidableEq

namespace Binary64

/-- The reals that round to a positive value, in quarter units of its last place. The lower
half is narrower at a power of two; the ends belong to it when the significand is even. -/
structure Interval where
  lower : Nat
  centre : Nat
  upper : Nat
  closed : Bool

def interval (value : Binary64) : Interval :=
  let significand := value.significand
  let narrow := significand == twoTo 52 && twoTo 53 ≤ value.magnitude
  { lower := 4 * significand - (if narrow then 1 else 2)
    centre := 4 * significand
    upper := 4 * significand + 2
    closed := significand % 2 == 0 }

def Interval.contains (bounds : Interval) (point : Nat) (unit : Nat) : Bool :=
  if bounds.closed then bounds.lower * unit ≤ point && point ≤ bounds.upper * unit
  else bounds.lower * unit < point && point < bounds.upper * unit

/-- The multiple of `10 ^ grid` chosen for the value, if one reads back. Points of the grid
are counted in `step` and quarter units of the value in `unit`, on one common scale. -/
def onGrid? (tie : Tie) (value : Binary64) (grid : Int) : Option Nat :=
  let bounds := value.interval
  let quarter := value.scale - 2
  let step := tenTo grid.toNat * twoTo (-quarter).toNat
  let unit := twoTo quarter.toNat * tenTo (-grid).toNat
  let below := bounds.centre * unit / step
  let lower := bounds.contains (below * step) unit
  let upper := bounds.contains ((below + 1) * step) unit
  match lower, upper with
  | false, false => none
  | true, false => some below
  | false, true => some (below + 1)
  | true, true =>
      match compare (2 * (bounds.centre * unit)) ((2 * below + 1) * step), tie with
      | .lt, _ => some below
      | .gt, _ => some (below + 1)
      | .eq, .up => some (below + 1)
      | .eq, .toEven => some (below + below % 2)

/-- The first of `count` ever finer grids on which the value has a decimal. -/
def searchGrids (tie : Tie) (value : Binary64) : (count : Nat) → (grid : Int) → Decimal
  | 0, grid => ⟨0, grid⟩
  | count + 1, grid =>
      match onGrid? tie value grid with
      | some digits => ⟨digits, grid⟩
      | none => searchGrids tie value count (grid - 1)

/-- The power of ten at or just above a positive finite value, where the search starts. -/
def coarsestGrid (value : Binary64) : Int :=
  let dividend := value.significand * twoTo value.scale.toNat
  let divisor := twoTo (-value.scale).toNat
  if divisor ≤ dividend then (Nat.toDigits 10 (dividend / divisor)).length
  else 1 - ((Nat.toDigits 10 (divisor / dividend)).length : Int)

/-- The shortest decimal of a positive finite value's magnitude, nearest to it among those.
Seventeen digits always suffice, and the search starts at most one grid above the first. -/
def shortest (tie : Tie) (value : Binary64) : Decimal :=
  searchGrids tie value 19 value.coarsestGrid

end Binary64

end ScopeLint
