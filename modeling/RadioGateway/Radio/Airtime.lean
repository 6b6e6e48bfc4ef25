import RadioGateway.Radio.Config

/-!
# How long a packet is on the air

The duration of a symbol is truncated to whole microseconds. The number of symbols follows the
formula for packets with an explicit header and a checksum.
-/

namespace RadioGateway.Radio

inductive AirtimeFault where
  | divisionByZero
  | notADuration
  deriving DecidableEq, Repr

def AirtimeFault.message : AirtimeFault → String
  | .divisionByZero => "attempt to divide by zero"
  | .notADuration => "cannot convert float seconds to Duration: value is either too big or NaN"

def Config.symbolMicros (c : Config) : Except AirtimeFault Nat :=
  if c.bandwidth = 0 then .error .divisionByZero
  else .ok ((1 <<< c.spreadingFactor) * 1000000 / c.bandwidth)

/-- Symbols of 16 ms and more need the low data rate optimisation. -/
def slowSymbol (micros : Nat) : Bool := 16000 ≤ micros

def preambleLength : Nat := 8

def nanoseconds (seconds : Float) : Except AirtimeFault Nat :=
  match Decimal.Binary.ofFloat seconds with
  | .finite false m q =>
    let nanos := match q with
      | .ofNat k => (m <<< k) * 1000000000
      | .negSucc k => Decimal.nearestEven (m * 1000000000) (1 <<< (k + 1))
    if nanos < UInt64.size * 1000000000 then .ok nanos else .error .notADuration
  | _ => .error .notADuration

def atLeastZero (x : Float) : Float := if 0 ≤ x then x else 0

/-- Nanoseconds on the air of a payload of `length` bytes. -/
def Config.timeOnAir (c : Config) (length : Nat) : Except AirtimeFault Nat := do
  let micros ← c.symbolMicros
  let symbol := Float.ofNat (micros / 1000000) + Float.ofNat (micros % 1000000 * 1000) / 1000000000
  let slow : Float := if slowSymbol micros then 1 else 0
  let factor := Float.ofNat c.spreadingFactor
  let rate := Float.ofNat c.codingRate
  let preamble := (Float.ofNat preambleLength + 4.25) * symbol
  let bits := 8 * Float.ofNat length - 4 * factor + 28 + 16
  let symbols := 8 + atLeastZero (Decimal.ceiling (bits / (4 * (factor - 2 * slow))) * rate)
  nanoseconds (preamble + symbols * symbol)

end RadioGateway.Radio
