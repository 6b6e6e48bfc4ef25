import RadioGateway.Decimal.Binary

/-!
# The fewest digits that read back

A double stands for every real that rounds to it. `shortest` looks for the coarsest decimal grid
with a point in that interval and takes the point next to the value. Values are compared as
integers over a common scale, so nothing is rounded on the way.
-/

namespace RadioGateway

structure Decimal where
  digits : Nat
  exponent : Int
  deriving DecidableEq, Repr

namespace Decimal

/-- Where a value exactly between two decimals goes. -/
inductive Tie where
  | even
  | up
  deriving DecidableEq, Repr

/-- A positive value with the reals that round to it, all over one scale: the value is
`value / scale`, and the interval reaches from `low / scale` to `high / scale`. -/
structure Interval where
  low : Nat
  value : Nat
  high : Nat
  scale : Nat
  closed : Bool

/-- The interval is closed when the significand is even. Below a power of two the neighbours lie
twice as close. -/
def Interval.of (significand : Nat) (exponent : Int) : Interval :=
  let below := if significand = 1 <<< 52 ∧ -1074 < exponent then 1 else 2
  let widen := 1 <<< (exponent - 2).toNat
  { low := (4 * significand - below) * widen
    value := 4 * significand * widen
    high := (4 * significand + 2) * widen
    scale := 1 <<< (2 - exponent).toNat
    closed := significand % 2 == 0 }

/-- Whether `point / denominator` rounds to the value, over the scale `denominator`. -/
def Interval.admits (i : Interval) (point low high : Nat) : Bool :=
  if i.closed then low ≤ point && point ≤ high else low < point && point < high

/-- The decimal of the grid `10^exponent` that rounds to the value, the nearer one if there are
two. -/
def Interval.onGrid (i : Interval) (tie : Tie) (exponent : Int) : Option Decimal :=
  let up := Nat.pow 10 (-exponent).toNat
  let unit := Nat.pow 10 exponent.toNat * i.scale
  let value := i.value * up
  let floor := value / unit
  let fits (d : Nat) : Bool := i.admits (d * unit) (i.low * up) (i.high * up)
  let upper : Bool :=
    let twice := 2 * (value % unit)
    unit < twice || (twice == unit && (tie == .up || floor % 2 == 1))
  match fits floor, fits (floor + 1) with
  | true, true => some ⟨if upper then floor + 1 else floor, exponent⟩
  | true, false => some ⟨floor, exponent⟩
  | false, true => some ⟨floor + 1, exponent⟩
  | false, false => none

/-- The exponent of a grid too coarse for `significand · 2^exponent`: `30103 / 100000` is the
logarithm of two. -/
def coarseExponent (significand : Nat) (exponent : Int) : Int :=
  Int.fdiv ((significand.log2 + exponent) * 30103) 100000 + 2

/-- Tries ever finer grids, `count` of them. -/
def Interval.search (i : Interval) (tie : Tie) (exponent : Int) : Nat → Decimal
  | 0 => ⟨0, 0⟩
  | count + 1 => (i.onGrid tie exponent).getD (i.search tie (exponent - 1) count)

/-- The fewest digits that read back as the double `significand · 2^exponent`. Seventeen always
suffice, and the first grid is at most three places too coarse. -/
def shortest (tie : Tie) (significand : Nat) (exponent : Int) : Decimal :=
  if significand = 0 then ⟨0, 0⟩
  else (Interval.of significand exponent).search tie (coarseExponent significand exponent) 20

end Decimal

end RadioGateway
