import RadioGateway.Station.Basic

/-!
# A station with a single user

Whole operations of a station when nobody else waits for its radio. Where time matters, the second
result is the number of milliseconds that went by.
-/

namespace RadioGateway.Station

open RadioGateway.Radio

/-- The longest a receive keeps the radio to itself. -/
def sliceTime : Nat := 50

def attach (s : Station) (c : Config) : Effect Station (Except RadioError Device) :=
  let first := s.beginAttach c
  match first.result with
  | .finished result => { state := first.state, log := first.log, result }
  | .paused _ o =>
    let second := first.state.finishAttach o
    { second with log := first.log ++ second.log }

def send (s : Station) (payload : List UInt8) : Effect Station (Except RadioError Nat) :=
  let e := s.beginSend payload
  match e.result, s.driver with
  | .finished result, _ => { state := e.state, log := e.log, result }
  | .paused _ looks, some d =>
    let rest := d.runChecks looks e.state.bench
    { state := { e.state with bench := rest.state }
      log := e.log ++ rest.log ++ sentLog payload.length rest.result.1
      result := rest.result.1.map fun _ => payload.length }
  | .paused _ _, none => { state := e.state, log := e.log, result := .error .notConnected }

/-- Waits for a frame in slices until `remaining` milliseconds have gone by. -/
def receiveWithin (s : Station) (remaining : Nat) : Effect Station (Heard × Nat) :=
  if remaining = 0 then { state := s, result := (.ok none, 0) }
  else
    let slice := min sliceTime remaining
    match s.backend, s.driver with
    | .hardware h, some d =>
      let e := d.runReceive h slice s.bench
      let s := { s with bench := e.state.1, driver := some e.state.2 }
      match _h : e.result with
      | (.ok none, ms) =>
        let rest := s.receiveWithin (remaining - ms)
        { rest with log := e.log ++ rest.log, result := (rest.result.1, ms + rest.result.2) }
      | (r, ms) => { state := s, log := e.log, result := (Received.heard r e.state.2.signal, ms) }
    | _, _ =>
      let rest := s.receiveWithin (remaining - slice)
      { rest with result := (rest.result.1, slice + rest.result.2) }
termination_by remaining
decreasing_by
  · have hslice : min sliceTime remaining ≤ ms := Driver.le_of_runReceive _h
    unfold sliceTime at hslice
    omega
  · unfold sliceTime
    omega

def receive (s : Station) (timeout : Nat) : Effect Station (Heard × Nat) :=
  if s.simulated then { state := s, result := (.ok none, timeout) } else s.receiveWithin timeout

end RadioGateway.Station
