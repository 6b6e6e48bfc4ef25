import RadioGateway.Station.Driver

/-!
# The station

The one place that owns the radio: the backend that was chosen at the start and the driver that is
attached, if any. A simulated station has no radio; it accepts what is sent and hears nothing.
-/

namespace RadioGateway

open RadioGateway.Radio
open RadioGateway.Log (Event)

namespace Station

inductive Backend where
  | simulated
  | hardware (h : Hardware)
  deriving DecidableEq, Repr

structure Device where
  name : String
  simulated : Bool
  deriving DecidableEq, Repr

def hardwareName : String := "Raspberry Pi LoRa HAT (RFM9x)"

def simulatedDevice : Device := ⟨"Simulated LoRa radio", true⟩

end Station

open Station in
structure Station where
  backend : Backend
  driver : Option Driver := none
  bench : Bench

namespace Station

def simulated (s : Station) : Bool := s.backend = .simulated

def attached (s : Station) : Bool := s.driver.isSome

/-- Puts the driver that is attached to sleep and gives it up, even if it cannot be put to sleep. -/
def release (s : Station) : Effect Station Unit :=
  match s.backend, s.driver with
  | .hardware h, some d =>
    let (bench, result) := d.sleep h s.bench
    { state := { s with bench, driver := none }
      log := match result with
        | .ok () => []
        | .error e => [.sleepFailed e]
      result := () }
  | _, _ => { state := s, result := () }

def attachOpened (s : Station) (bench : Bench) (r : Except RadioError Driver) :
    Station × Except RadioError Device :=
  match r with
  | .ok d => ({ s with bench, driver := some d }, .ok ⟨hardwareName, false⟩)
  | .error e => ({ s with bench }, .error e)

/-- Attaches a driver for a configuration. The old driver is released first, since both would claim
the same bus. -/
def beginAttach (s : Station) (c : Config) :
    Effect Station (Progress Opening (Except RadioError Device)) :=
  match s.backend with
  | .simulated =>
    { state := s, log := [.simulatedConnect], result := .finished (.ok simulatedDevice) }
  | .hardware h =>
    let released := s.release
    let e := Driver.beginOpen h c released.state.bench
    let log := (if s.attached then [.releasing] else []) ++ released.log ++ e.log
    match e.result with
    | .finished r =>
      let (state, result) := released.state.attachOpened e.state r
      { state, log, result := .finished result }
    | .paused ms o =>
      { state := { released.state with bench := e.state }, log, result := .paused ms o }

def finishAttach (s : Station) (o : Opening) : Effect Station (Except RadioError Device) :=
  let e := Driver.finishOpen o s.bench
  let (state, result) := s.attachOpened e.state e.result
  { state, log := e.log, result }

def detach (s : Station) : Effect Station Unit :=
  let released := s.release
  { released with log := released.log ++ if s.attached then [.released] else [] }

def sentLog (length : Nat) (r : Except RadioError Unit) : List Event :=
  match r with
  | .ok () => [.sent length]
  | .error _ => []

def progressSend (s : Station) (length : Nat)
    (e : Effect Bench (Progress Nat (Except RadioError Unit))) :
    Effect Station (Progress Nat (Except RadioError Nat)) :=
  { state := { s with bench := e.state }
    log := e.log ++ match e.result with
      | .finished r => sentLog length r
      | .paused _ _ => []
    result := match e.result with
      | .finished r => .finished (r.map fun _ => length)
      | .paused ms looks => .paused ms looks }

def beginSend (s : Station) (payload : List UInt8) :
    Effect Station (Progress Nat (Except RadioError Nat)) :=
  match s.backend, s.driver with
  | .simulated, _ =>
    { state := s, log := [.simulatedSend payload.length], result := .finished (.ok payload.length) }
  | .hardware _, none => { state := s, result := .finished (.error .notConnected) }
  | .hardware h, some d => s.progressSend payload.length (d.transmit h payload s.bench)

def resumeSend (s : Station) (length looks : Nat) :
    Effect Station (Progress Nat (Except RadioError Nat)) :=
  match s.driver with
  | none => { state := s, result := .finished (.error .notConnected) }
  | some d => s.progressSend length (d.checkTransmit looks s.bench)

/-- A frame, nothing, or an interruption. -/
abbrev Heard := Except Interruption (Option Frame)

def Received.heard (r : Received) (signal : Signal) : Heard :=
  r.map fun data => data.map fun data => { data, signal }

def progressListen (s : Station) (e : Effect (Bench × Driver) (Progress Listening Received)) :
    Effect Station (Progress Listening Heard) :=
  { state := { s with bench := e.state.1, driver := some e.state.2 }
    log := e.log
    result := match e.result with
      | .finished r => .finished (Received.heard r e.state.2.signal)
      | .paused ms l => .paused ms l }

/-- Listens for one frame; `none` if there is no driver to listen with. -/
def beginListen (s : Station) (ms : Nat) : Option (Effect Station (Progress Listening Heard)) :=
  match s.backend, s.driver with
  | .hardware h, some d => some (s.progressListen (d.receive h ms s.bench))
  | _, _ => none

def resumeListen (s : Station) (l : Listening) :
    Option (Effect Station (Progress Listening Heard)) :=
  s.driver.map fun d => s.progressListen (d.resumeReceive l s.bench)

end Station

end RadioGateway
