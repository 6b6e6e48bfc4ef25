import RadioGateway.Decimal.Layout
import RadioGateway.Json.Record

/-!
# Radio configurations

A configuration, partial updates of it, and the limits of the chip. Merging reads a field of the
update where it is set and the old field elsewhere.
-/

namespace RadioGateway.Radio

structure Config where
  /-- Carrier frequency in MHz. -/
  frequency : Float := 915.0
  /-- Signal bandwidth in Hz. -/
  bandwidth : Nat := 125000
  /-- Denominator of the coding rate: 5 stands for 4/5. -/
  codingRate : Nat := 5
  spreadingFactor : Nat := 7
  /-- Transmit power in dBm. -/
  txPower : Int := 20

structure Update where
  frequency : Option Float := none
  bandwidth : Option Nat := none
  codingRate : Option Nat := none
  spreadingFactor : Option Nat := none
  txPower : Option Int := none

def Update.isEmpty (u : Update) : Bool :=
  u.frequency.isNone && u.bandwidth.isNone && u.codingRate.isNone && u.spreadingFactor.isNone &&
    u.txPower.isNone

def Config.merge (c : Config) (u : Update) : Config :=
  { frequency := u.frequency.getD c.frequency
    bandwidth := u.bandwidth.getD c.bandwidth
    codingRate := u.codingRate.getD c.codingRate
    spreadingFactor := u.spreadingFactor.getD c.spreadingFactor
    txPower := u.txPower.getD c.txPower }

inductive ConfigFault where
  | frequency (mhz : Float)
  | bandwidth (hz : Nat)
  | codingRate (denominator : Nat)
  | spreadingFactor (factor : Nat)
  | txPower (dbm : Int)

def number (n : Nat) : String := String.ofList (Nat.toDigits 10 n)

def signedNumber (i : Int) : String := String.ofList (Json.writeInt i)

def plainNumber (x : Float) : String := String.ofList (Decimal.plain.write x)

def ConfigFault.message : ConfigFault → String
  | .frequency mhz => "frequency " ++ plainNumber mhz ++ " MHz outside 137-1020 MHz"
  | .bandwidth hz => "bandwidth " ++ number hz ++ " Hz outside 7800-500000 Hz"
  | .codingRate denominator => "coding rate 4/" ++ number denominator ++ " outside 4/5-4/8"
  | .spreadingFactor factor => "spreading factor SF" ++ number factor ++ " outside SF6-SF12"
  | .txPower dbm => "tx power " ++ signedNumber dbm ++ " dBm outside 5-23 dBm"

def Config.fault? (c : Config) : Option ConfigFault :=
  if ¬(137 ≤ c.frequency ∧ c.frequency ≤ 1020) then some (.frequency c.frequency)
  else if ¬(7800 ≤ c.bandwidth ∧ c.bandwidth ≤ 500000) then some (.bandwidth c.bandwidth)
  else if ¬(5 ≤ c.codingRate ∧ c.codingRate ≤ 8) then some (.codingRate c.codingRate)
  else if ¬(6 ≤ c.spreadingFactor ∧ c.spreadingFactor ≤ 12) then
    some (.spreadingFactor c.spreadingFactor)
  else if ¬(5 ≤ c.txPower ∧ c.txPower ≤ 23) then some (.txPower c.txPower)
  else none

structure Config.Valid (c : Config) : Prop where
  frequency : 137 ≤ c.frequency ∧ c.frequency ≤ 1020
  bandwidth : 7800 ≤ c.bandwidth ∧ c.bandwidth ≤ 500000
  codingRate : 5 ≤ c.codingRate ∧ c.codingRate ≤ 8
  spreadingFactor : 6 ≤ c.spreadingFactor ∧ c.spreadingFactor ≤ 12
  txPower : 5 ≤ c.txPower ∧ c.txPower ≤ 23

theorem Config.fault?_eq_none_iff (c : Config) : c.fault? = none ↔ c.Valid := by
  unfold Config.fault?
  constructor
  · intro h
    repeat' split at h
    all_goals first | contradiction | skip
    rename_i h₁ h₂ h₃ h₄ h₅
    exact ⟨Decidable.not_not.mp h₁, Decidable.not_not.mp h₂, Decidable.not_not.mp h₃,
      Decidable.not_not.mp h₄, Decidable.not_not.mp h₅⟩
  · intro ⟨h₁, h₂, h₃, h₄, h₅⟩
    simp only [h₁, h₂, h₃, h₄, h₅, and_self, not_true_eq_false, if_false]

theorem Config.valid_default : ({} : Config).Valid := by constructor <;> decide +kernel

/-- The carrier frequency in whole Hz: as near as can be, a half going up, within 64 bits. -/
def Config.hertz (c : Config) : Nat :=
  match Decimal.Binary.ofFloat (c.frequency * 1000000) with
  | .nan => 0
  | .infinite negative => if negative then 0 else UInt64.size - 1
  | .finite negative m q => if negative then 0 else min (Decimal.nearest m q) (UInt64.size - 1)

def Config.toJson (c : Config) : Json.Value :=
  .object
    [("frequency", .real c.frequency),
     ("bandwidth", .integer c.bandwidth),
     ("coding_rate", .integer c.codingRate),
     ("spreading_factor", .integer c.spreadingFactor),
     ("tx_power", .integer c.txPower)]

def Config.dump (c : Config) : String :=
  "RadioConfig \x7b frequency_mhz: " ++ String.ofList (Decimal.dump.write c.frequency) ++
    ", bandwidth_hz: " ++ number c.bandwidth ++ ", coding_rate: " ++ number c.codingRate ++
    ", spreading_factor: " ++ number c.spreadingFactor ++ ", tx_power_dbm: " ++
    signedNumber c.txPower ++ " \x7d"

/-- The written form of a configuration; every field is needed. -/
def Config.schema : Json.Schema Update :=
  { name := "struct RadioConfig"
    fields :=
      [⟨"frequency", .real, false, fun n u => { u with frequency := some n.toFloat }⟩,
       ⟨"bandwidth", .natural 32, false, fun n u => { u with bandwidth := n.toInt?.map Int.toNat }⟩,
       ⟨"coding_rate", .natural 8, false,
         fun n u => { u with codingRate := n.toInt?.map Int.toNat }⟩,
       ⟨"spreading_factor", .natural 8, false,
        fun n u => { u with spreadingFactor := n.toInt?.map Int.toNat }⟩,
       ⟨"tx_power", .integer 8, false, fun n u => { u with txPower := n.toInt? }⟩] }

def Config.read (text : List UInt8) : Except Json.Error Config :=
  (Config.schema.read {} text).map fun u => ({} : Config).merge u

end RadioGateway.Radio
