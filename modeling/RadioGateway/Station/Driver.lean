import RadioGateway.Chip.Transceiver
import RadioGateway.Radio.Scripted
import RadioGateway.Station.Effect

/-!
# Drivers

A driver is an opened radio. Which radio a driver works on is fixed by the hardware: the scripted
radio, the chip on the board, or one whose bus can never be claimed. Every operation is cut where it
waits.
-/

namespace RadioGateway.Station

open RadioGateway.Radio
open RadioGateway.Log (Event)

inductive Hardware where
  | scripted
  | board
  | unavailable (e : BusError)
  deriving DecidableEq, Repr

/-- The radios within reach. -/
structure Bench where
  script : ScriptedRadio := {}
  board : Chip.Board

structure Driver where
  config : Config
  signal : Signal := {}

inductive Opening where
  | resetting (c : Config)
  | settling (c : Config)

/-- A receive that waits in silence, or that will look at most `looks + 1` times more. -/
inductive Listening where
  | quiet
  | looking (looks : Nat)
  deriving DecidableEq, Repr

abbrev Received := Except Interruption (Option (List UInt8))

/-- Milliseconds that the chip needs to change over to LoRa. -/
def settleTime : Nat := 10

/-- Milliseconds between two looks at the interrupt flags. -/
def lookInterval : Nat := 5

/-- Milliseconds that a transmission may take beyond its time on the air. -/
def transmitMargin : Nat := 200

/-- Looks, after the first, that fit into a time.

A wait ends at a deadline on the wall clock, but between two looks there is a sleep, which takes no
less than its interval and may take any time more. How many looks are taken is therefore up to the
surroundings. Here the board has its own clock, which goes on by looks, and one number stands for
all that suffice: those of a wait whose sleeps take no more than their interval, or, where they are
more, those after which no look brings anything any more (`Chip.Board.due`). So a wait that is not
of zero length never ends before something that is due. A wait cut short by a slow host is that of a
shorter time; `Driver.runChecks` takes the number as an argument, and what is said of it holds for
every number that suffices. -/
def looksWithin (ms : Nat) (b : Chip.Board) : Nat :=
  if ms = 0 then 0 else max ((ms + lookInterval - 1) / lookInterval) b.due

def Bench.onBoard {α : Type} (work : Chip.Bus α) (b : Bench) : Bench × Except RadioError α :=
  match work b.board with
  | .ok x board => ({ b with board }, .ok x)
  | .error e board => ({ b with board }, .error e)

def airtime (c : Config) (length : Nat) : Nat :=
  match c.timeOnAir length with
  | .ok nanos => nanos / 1000000
  | .error _ => 0

namespace Driver

def openedLog (c : Config) : List Event :=
  [.tunedTo c.frequency, .powerSet c.txPower, .bandwidthSet c.bandwidth,
    .spreadingSet c.spreadingFactor]

def finishOpen (o : Opening) (b : Bench) : Effect Bench (Except RadioError Driver) :=
  match o with
  | .resetting c =>
    let (script, result) := b.script.openWith c
    { state := { b with script }, result := result.map fun _ => { config := c } }
  | .settling c =>
    match b.onBoard (Chip.bringUp c) with
    | (b, .ok ()) => { state := b, log := openedLog c, result := .ok { config := c } }
    | (b, .error e) => { state := b, result := .error e }

/-- The bus is claimed before the configuration is looked at. -/
def beginOpen (h : Hardware) (c : Config) (b : Bench) :
    Effect Bench (Progress Opening (Except RadioError Driver)) :=
  match h with
  | .scripted =>
    match c.fault? with
    | some fault => { state := b, result := .finished (.error fault.toError) }
    | none =>
      if b.script.openDelay = 0 then (finishOpen (.resetting c) b).map .finished
      else { state := b, result := .paused b.script.openDelay (.resetting c) }
  | .board =>
    match b.onBoard Chip.claim with
    | (b, .error e) => { state := b, result := .finished (.error e) }
    | (b, .ok ()) =>
      match c.fault? with
      | some fault => { state := b, result := .finished (.error fault.toError) }
      | none =>
        match b.onBoard Chip.identify with
        | (b, .error e) => { state := b, result := .finished (.error e) }
        | (b, .ok ()) => { state := b, result := .paused settleTime (.settling c) }
  | .unavailable e => { state := b, result := .finished (.error (.bus e)) }

def checkOnce (d : Driver) (b : Bench) : Bench × Option (Except RadioError Unit) :=
  match b.onBoard (Chip.checkTransmit d.config) with
  | (b, .error e) => (b, some (.error e))
  | (b, .ok true) => (b, some (.ok ()))
  | (b, .ok false) => (b, none)

def abandon (d : Driver) (b : Bench) : Effect Bench (Except RadioError Unit) :=
  let (b, result) := b.onBoard (Chip.abandonTransmit d.config)
  { state := b, log := [.transmitLost], result }

def checkTransmit (d : Driver) (looks : Nat) (b : Bench) :
    Effect Bench (Progress Nat (Except RadioError Unit)) :=
  match d.checkOnce b, looks with
  | (b, some result), _ => { state := b, result := .finished result }
  | (b, none), 0 => (d.abandon b).map .finished
  | (b, none), looks + 1 => { state := b, result := .paused lookInterval looks }

def transmit (h : Hardware) (d : Driver) (payload : List UInt8) (b : Bench) :
    Effect Bench (Progress Nat (Except RadioError Unit)) :=
  match h with
  | .scripted =>
    let (script, result) := b.script.transmit payload
    { state := { b with script }, result := .finished result }
  | .board =>
    match b.onBoard (Chip.beginTransmit d.config payload) with
    | (b, .error e) => { state := b, result := .finished (.error e) }
    | (b, .ok ()) =>
      d.checkTransmit (looksWithin (airtime d.config payload.length + transmitMargin) b.board) b
  | .unavailable e => { state := b, result := .finished (.error (.bus e)) }

/-- A look for a frame; `none` if there is none to be had. The signal of a frame is known as soon as
it has been read, but the frame is received only when its flags have been cleared. -/
def lookOnce (d : Driver) (b : Bench) : Effect (Bench × Driver) (Option Received) :=
  match b.onBoard (Chip.look d.config) with
  | (b, .error e) => { state := (b, d), result := some (.error (.failed e)) }
  | (b, .ok .nothing) => { state := (b, d), result := none }
  | (b, .ok .garbled) =>
    match b.onBoard Chip.clearFlags with
    | (b, .error e) => { state := (b, d), result := some (.error (.failed e)) }
    | (b, .ok ()) => { state := (b, d), log := [.frameGarbled], result := none }
  | (b, .ok (.frame data signal)) =>
    let d := { d with signal }
    match b.onBoard Chip.clearFlags with
    | (b, .error e) => { state := (b, d), result := some (.error (.failed e)) }
    | (b, .ok ()) => { state := (b, d), result := some (.ok (some data)) }

def lookForFrame (d : Driver) (looks : Nat) (b : Bench) :
    Effect (Bench × Driver) (Progress Listening Received) :=
  (d.lookOnce b).map fun
    | some result => .finished result
    | none => match looks with
      | 0 => .finished (.ok none)
      | looks + 1 => .paused lookInterval (.looking looks)

def receive (h : Hardware) (d : Driver) (timeout : Nat) (b : Bench) :
    Effect (Bench × Driver) (Progress Listening Received) :=
  match h with
  | .scripted =>
    let (script, next) := b.script.takeInbound
    let b := { b with script }
    match next with
    | none => { state := (b, d), result := .paused timeout .quiet }
    | some (.frame f) =>
      { state := (b, { d with signal := f.signal }), result := .finished (.ok (some f.data)) }
    | some (.failure reason) =>
      { state := (b, d), result := .finished (.error (.failed (.device reason))) }
    | some .crash => { state := (b, d), result := .finished (.error (.crashed crashMessage)) }
  | .board => d.lookForFrame (looksWithin timeout b.board) b
  | .unavailable e => { state := (b, d), result := .finished (.error (.failed (.bus e))) }

def resumeReceive (d : Driver) (l : Listening) (b : Bench) :
    Effect (Bench × Driver) (Progress Listening Received) :=
  match l with
  | .quiet => { state := (b, d), result := .finished (.ok none) }
  | .looking looks => d.lookForFrame looks b

def sleep (h : Hardware) (d : Driver) (b : Bench) : Bench × Except RadioError Unit :=
  match h with
  | .scripted => ({ b with script := b.script.goToSleep }, .ok ())
  | .board => b.onBoard (Chip.putToSleep d.config)
  | .unavailable e => (b, .error (.bus e))

/-! ## Whole operations, when nobody else waits

The second result is the time in milliseconds that an operation takes. -/

def runOpen (h : Hardware) (c : Config) (b : Bench) :
    Effect Bench (Except RadioError Driver × Nat) :=
  let first := beginOpen h c b
  match first.result with
  | .finished result => { state := first.state, log := first.log, result := (result, 0) }
  | .paused ms o =>
    let second := finishOpen o first.state
    { state := second.state, log := first.log ++ second.log, result := (second.result, ms) }

def runChecks (d : Driver) : Nat → Bench → Effect Bench (Except RadioError Unit × Nat)
  | looks, b =>
    match d.checkOnce b, looks with
    | (b, some result), _ => { state := b, result := (result, 0) }
    | (b, none), 0 => (d.abandon b).map (·, 0)
    | (b, none), looks + 1 => (d.runChecks looks b).map fun (result, ms) =>
      (result, ms + lookInterval)

def runTransmit (h : Hardware) (d : Driver) (payload : List UInt8) (b : Bench) :
    Effect Bench (Except RadioError Unit × Nat) :=
  let e := d.transmit h payload b
  match e.result with
  | .finished result => { state := e.state, log := e.log, result := (result, 0) }
  | .paused ms looks =>
    let rest := d.runChecks looks e.state
    { rest with log := e.log ++ rest.log, result := (rest.result.1, ms + rest.result.2) }

def runLooks (d : Driver) : Nat → Bench → Effect (Bench × Driver) (Received × Nat)
  | looks, b =>
    let e := d.lookOnce b
    match e.result, looks with
    | some result, _ => { state := e.state, log := e.log, result := (result, 0) }
    | none, 0 => { state := e.state, log := e.log, result := (.ok none, 0) }
    | none, looks + 1 =>
      let rest := e.state.2.runLooks looks e.state.1
      { rest with
        log := e.log ++ rest.log
        result := (rest.result.1, rest.result.2 + lookInterval) }

def runReceive (h : Hardware) (d : Driver) (timeout : Nat) (b : Bench) :
    Effect (Bench × Driver) (Received × Nat) :=
  let e := d.receive h timeout b
  match e.result with
  | .finished result => { state := e.state, log := e.log, result := (result, 0) }
  | .paused ms .quiet => { state := e.state, log := e.log, result := (.ok none, ms) }
  | .paused ms (.looking looks) =>
    let rest := e.state.2.runLooks looks e.state.1
    { rest with log := e.log ++ rest.log, result := (rest.result.1, ms + rest.result.2) }

theorem lookOnce_ne_nothing (d : Driver) (b : Bench) : (d.lookOnce b).result ≠ some (.ok none) := by
  unfold lookOnce
  repeat' split
  all_goals simp

/-- All looks are taken before nothing is heard. -/
theorem le_of_runLooks {d : Driver} {looks ms : Nat} {b : Bench}
    (h : (d.runLooks looks b).result = (.ok none, ms)) : looks * lookInterval ≤ ms := by
  induction looks generalizing d b ms with
  | zero => simp
  | succ looks ih =>
    cases hl : (d.lookOnce b).result with
    | some r =>
      rw [runLooks.eq_def] at h
      simp only [hl, Prod.mk.injEq] at h
      exact absurd (h.1 ▸ hl) (d.lookOnce_ne_nothing b)
    | none =>
      rw [runLooks.eq_def] at h
      simp only [hl, Prod.mk.injEq] at h
      have hrest := ih (Prod.ext h.1 rfl)
      rw [← h.2, Nat.succ_mul]
      exact Nat.add_le_add_right hrest _

theorem le_looksWithin (ms : Nat) (b : Chip.Board) : ms ≤ looksWithin ms b * lookInterval := by
  unfold looksWithin lookInterval
  split <;> omega

/-- A receive that brings nothing takes its time. -/
theorem le_of_runReceive {h : Hardware} {d : Driver} {timeout ms : Nat} {b : Bench}
    (hr : (d.runReceive h timeout b).result = (.ok none, ms)) : timeout ≤ ms := by
  cases h with
  | scripted =>
    cases hi : b.script.inbound with
    | nil =>
      simp only [runReceive, receive, ScriptedRadio.takeInbound, hi, Prod.mk.injEq, true_and] at hr
      exact Nat.le_of_eq hr
    | cons x rest => cases x <;> simp [runReceive, receive, ScriptedRadio.takeInbound, hi] at hr
  | board =>
    have htime := le_looksWithin timeout b.board
    cases hl : (d.lookOnce b).result with
    | some r =>
      simp only [runReceive, receive, lookForFrame, Effect.map, hl, Prod.mk.injEq] at hr
      exact absurd (hr.1 ▸ hl) (d.lookOnce_ne_nothing b)
    | none =>
      cases hn : looksWithin timeout b.board with
      | zero =>
        rw [hn, Nat.zero_mul] at htime
        exact Nat.le_trans htime (Nat.zero_le ms)
      | succ looks =>
        simp only [runReceive, receive, lookForFrame, Effect.map, hl, hn, Prod.mk.injEq] at hr
        have hlooks := le_of_runLooks (Prod.ext hr.1 rfl)
        rw [hn, Nat.succ_mul, Nat.add_comm] at htime
        rw [← hr.2]
        exact Nat.le_trans htime (Nat.add_le_add_left hlooks _)
  | unavailable e => simp [runReceive, receive] at hr

end Driver

end RadioGateway.Station
