import RadioGateway.Gateway.Error

/-!
# The body of a connect request

Every field is optional and a number of any kind; converting it to radio units is where numbers that
do not fit are refused.
-/

namespace RadioGateway.Http

open RadioGateway.Gateway (GatewayError)
open RadioGateway.Radio (Update plainNumber)

structure ConnectRequest where
  /-- In MHz. -/
  frequency : Option Float := none
  /-- In kHz. -/
  bandwidth : Option Float := none
  spreadingFactor : Option Float := none
  codingRate : Option Float := none
  /-- In dBm. -/
  txPower : Option Float := none

namespace ConnectRequest

def schema : Json.Schema ConnectRequest :=
  { name := "struct ConnectRequest"
    fields :=
      [⟨"frequency", .real, true, fun n r => { r with frequency := some n.toFloat }⟩,
       ⟨"bandwidth", .real, true, fun n r => { r with bandwidth := some n.toFloat }⟩,
       ⟨"spreadingFactor", .real, true, fun n r => { r with spreadingFactor := some n.toFloat }⟩,
       ⟨"codingRate", .real, true, fun n r => { r with codingRate := some n.toFloat }⟩,
       ⟨"txPower", .real, true, fun n r => { r with txPower := some n.toFloat }⟩] }

def read (text : List UInt8) : Except Json.Error ConnectRequest := schema.read {} text

/-- The carrier frequency: any finite number; the radio has its own limits. -/
def frequency? (mhz : Float) : Except GatewayError Float :=
  if mhz.isFinite then .ok mhz else .error (.configuration "frequency must be a finite number")

/-- A bandwidth in Hz, to the nearest one: positive and of 32 bits. -/
def hertz? (khz : Float) : Except GatewayError Nat :=
  match (Decimal.Binary.ofFloat (khz * 1000)).round? with
  | some hz =>
    if 0 < hz ∧ hz < UInt32.size then .ok hz.toNat
    else .error (.configuration ("bandwidth " ++ plainNumber khz ++ " kHz is out of range"))
  | none => .error (.configuration ("bandwidth " ++ plainNumber khz ++ " kHz is out of range"))

def integer? (field : String) (lowest highest : Int) (x : Float) : Except GatewayError Int :=
  match (Decimal.Binary.ofFloat x).toInt? with
  | none => .error (.configuration (field ++ " must be an integer, got " ++ plainNumber x))
  | some i =>
    if lowest ≤ i ∧ i ≤ highest then .ok i
    else .error (.configuration (field ++ " " ++ plainNumber x ++ " is out of range"))

/-- A field that is not there passes. -/
def convert {α β : Type} (f : α → Except GatewayError β) : Option α → Except GatewayError (Option β)
  | none => .ok none
  | some x => (f x).map some

/-- The request in radio units, or its first field that does not fit. -/
def toUpdate (r : ConnectRequest) : Except GatewayError Update := do
  let frequency ← convert frequency? r.frequency
  let bandwidth ← convert hertz? r.bandwidth
  let codingRate ← convert (integer? "codingRate" 0 255) r.codingRate
  let spreadingFactor ← convert (integer? "spreadingFactor" 0 255) r.spreadingFactor
  let txPower ← convert (integer? "txPower" (-128) 127) r.txPower
  return {
    frequency, bandwidth, txPower
    codingRate := codingRate.map Int.toNat
    spreadingFactor := spreadingFactor.map Int.toNat }

/-- Space, tab, line feed, form feed and carriage return. -/
def isBlank (b : UInt8) : Bool := b = 0x20 || b = 0x09 || b = 0x0A || b = 0x0C || b = 0x0D

/-- What a body asks for. A blank body and `null` ask for nothing to be changed. -/
def ofBody (body : List UInt8) : Except GatewayError Update :=
  if body.all isBlank then toUpdate {}
  else
    match schema.readOptional {} body with
    | .ok r => r.toUpdate
    | .error e => .error (.configuration ("invalid connect request: " ++ e.message))

end ConnectRequest

end RadioGateway.Http
