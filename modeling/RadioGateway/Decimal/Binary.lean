/-!
# Doubles as exact numbers

The bits of a double are decoded into a sign, a significand and a binary exponent. Rounding is
done on that exact value in natural number arithmetic, so it can be computed inside a proof.
-/

namespace RadioGateway.Decimal

/-- What the 64 bits of a double say; a finite one is worth `(-1)^negative · significand ·
2^exponent`. -/
inductive Binary where
  | nan
  | infinite (negative : Bool)
  | finite (negative : Bool) (significand : Nat) (exponent : Int)
  deriving DecidableEq, Repr

def Binary.ofBits (bits : UInt64) : Binary :=
  let negative := bits >>> 63 = 1
  let biased := ((bits >>> 52) &&& 0x7FF).toNat
  let fraction := (bits &&& 0xFFFFFFFFFFFFF).toNat
  if biased = 2047 then
    if fraction = 0 then .infinite negative else .nan
  else if biased = 0 then .finite negative fraction (-1074)
  else .finite negative (fraction + 1 <<< 52) (biased - 1075)

def Binary.ofFloat (x : Float) : Binary := .ofBits x.toBits

/-- The integer nearest to `significand · 2^exponent`, a half going up. -/
def nearest (significand : Nat) : Int → Nat
  | .ofNat k => significand <<< k
  | .negSucc k => (2 * significand + 1 <<< (k + 1)) >>> (k + 2)

/-- The least integer not below `significand · 2^exponent`. -/
def roundUp (significand : Nat) : Int → Nat
  | .ofNat k => significand <<< k
  | .negSucc k => (significand + 1 <<< (k + 1) - 1) >>> (k + 1)

/-- The greatest integer not above `significand · 2^exponent`. -/
def roundDown (significand : Nat) : Int → Nat
  | .ofNat k => significand <<< k
  | .negSucc k => significand >>> (k + 1)

/-- The integer nearest to `numerator / denominator`, a half going to the even neighbour. -/
def nearestEven (numerator denominator : Nat) : Nat :=
  let quotient := numerator / denominator
  let rest := numerator % denominator
  if denominator < 2 * rest || (2 * rest == denominator && quotient % 2 == 1) then quotient + 1
  else quotient

def Binary.toInt? : Binary → Option Int
  | .finite negative m q =>
    if roundDown m q = roundUp m q then
      some (if negative then -(roundDown m q : Int) else roundDown m q)
    else none
  | _ => none

def Binary.round? : Binary → Option Int
  | .finite negative m q => some (if negative then -(nearest m q : Int) else nearest m q)
  | _ => none

/-- The least double integer not below `x`; what is no finite number stays as it is. -/
def ceiling (x : Float) : Float :=
  match Binary.ofFloat x with
  | .finite false m q => Float.ofNat (roundUp m q)
  | .finite true m q => -Float.ofNat (roundDown m q)
  | _ => x

end RadioGateway.Decimal
