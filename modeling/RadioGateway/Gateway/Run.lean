import RadioGateway.Gateway.Step

/-!
# Running a gateway

Requests come in, the parties that are ready run until all of them wait, and then time goes by up to
the moment at which somebody wakes.
-/

namespace RadioGateway.Gateway

open RadioGateway.Station

def start (backend : Backend) (bench : Bench) (capacity epoch : Nat) : Gateway :=
  { epoch, station := { backend, bench }, inbox := .withCapacity capacity }

def isQuiet (g : Gateway) : Bool := g.ready.isEmpty && g.yielding.isEmpty

def next (g : Gateway) : Gateway :=
  match g.ready, g.yielding with
  | p :: rest, _ => { g with ready := rest }.resume p
  | [], p :: rest => { g with yielding := rest }.resume p
  | [], [] => g

/-- Runs until all parties wait, `steps` steps at most. -/
def settleWithin : Nat → Gateway → Gateway
  | 0, g => g
  | steps + 1, g => if g.isQuiet then g else settleWithin steps g.next

/-- More steps than can be taken before all parties wait: a client, a receive loop and a thing to be
heard each make for eight at most. -/
def stepBound (g : Gateway) : Nat :=
  8 * (g.clients.length + g.listeners.length + g.station.bench.script.inbound.length +
    g.station.bench.board.chip.arrivals.length) + g.ready.length + g.yielding.length + 16

def settle (g : Gateway) : Gateway := settleWithin g.stepBound g

/-- Time goes by up to `clock`, and whoever had slept up to then can go on, the foreground first. -/
def elapse (g : Gateway) (clock : Nat) : Gateway :=
  let woken := (g.asleep.filter fun (time, _) => time ≤ clock).map Prod.snd
  { g with
    clock
    asleep := g.asleep.filter fun (time, _) => clock < time
    ready := g.ready ++ woken.filter g.inForeground ++ woken.filter fun p => !g.inForeground p }

def passTo (g : Gateway) (clock : Nat) : Gateway := (g.elapse clock).settle

/-- Milliseconds up to the next moment at which somebody wakes, one at least, if that is within
`ms`. -/
def pause? (g : Gateway) (ms : Nat) : Option Nat :=
  match g.nextWake with
  | none => none
  | some time => if max 1 (time - g.clock) ≤ ms then some (max 1 (time - g.clock)) else none

theorem pause?_bounds {g : Gateway} {ms pause : Nat} (h : g.pause? ms = some pause) :
    0 < pause ∧ pause ≤ ms := by
  unfold pause? at h
  split at h
  · simp at h
  · split at h
    · simp only [Option.some.injEq] at h; omega
    · simp at h

def wait (g : Gateway) (ms : Nat) : Gateway :=
  match _h : g.pause? ms with
  | none => { g with clock := g.clock + ms }
  | some pause => (g.passTo (g.clock + pause)).wait (ms - pause)
termination_by ms
decreasing_by have := pause?_bounds _h; omega

/-! ## Requests -/

def arrive (g : Gateway) (origin : Origin) (manner : Manner) (r : Request) : Gateway :=
  let waiting : Gateway :=
    { g with
      clients := g.clients ++ [(g.nextId, { origin, manner, stage := .arrived r })]
      nextId := g.nextId + 1 }
  waiting.wake (.client g.nextId)

def submit (g : Gateway) (origin : Origin) (manner : Manner) (r : Request) : Gateway × Nat :=
  ((g.arrive origin manner r).settle, g.nextId)

def outcome? (g : Gateway) (id : Nat) : Option Outcome :=
  match g.stage? id with
  | some (.finished outcome) => some outcome
  | _ => none

def awaitWithin (g : Gateway) (id ms : Nat) : Gateway :=
  if (g.outcome? id).isSome then g
  else
    match _h : g.pause? ms with
    | none => g
    | some pause => (g.passTo (g.clock + pause)).awaitWithin id (ms - pause)
termination_by ms
decreasing_by have := pause?_bounds _h; omega

theorem awaitWithin_of_outcome {g : Gateway} {id : Nat} (h : (g.outcome? id).isSome) (ms : Nat) :
    g.awaitWithin id ms = g := by
  rw [awaitWithin, if_pos h]

/-- More milliseconds than any request can take. -/
def patience (g : Gateway) : Nat :=
  (g.asleep.map Prod.fst).foldl max 0 +
    (g.clients.length + g.listeners.length + 1) *
      (g.station.bench.script.openDelay + lookInterval * g.station.bench.board.due + 1000000)

def forget (g : Gateway) (id : Nat) : Gateway :=
  { g with clients := g.clients.filter fun (other, _) => other ≠ id }

/-- Waits for the outcome of a request and collects it. -/
def collect (g : Gateway) (id : Nat) : Gateway × Option Outcome :=
  let g := g.awaitWithin id g.patience
  (g.forget id, g.outcome? id)

def request (g : Gateway) (origin : Origin) (r : Request) : Gateway × Option Outcome :=
  let (g, id) := g.submit origin .foreground r
  g.collect id

/-! ## What never waits -/

/-- The link as the clients see it: a simulated radio cannot be lost. -/
def report (g : Gateway) : Report :=
  { stats := g.inbox.stats
    link := { g.link with connected := g.link.connected || g.station.simulated } }

/-- Takes every packet that has come in since the last time. -/
def poll (g : Gateway) : Gateway × List Packet :=
  let (packets, inbox) := g.inbox.drain
  (g.withInbox inbox, packets)

/-! ## Receive loops -/

def enlist (g : Gateway) (t : Timing) : Gateway :=
  let started : Gateway :=
    { g with listeners := g.listeners ++ [(g.nextId, ⟨t, .starting⟩)], nextId := g.nextId + 1 }
  started.wake (.listener g.nextId)

def startListener (g : Gateway) (t : Timing) : Gateway × Nat := ((g.enlist t).settle, g.nextId)

/-- Ends a receive loop wherever it is. A lock it has or waits for is given up.

A request to stop changes nothing until it is seen, and it is seen where the loop, or after a crash
whoever looks after it, waits for it along with something else. Both are one move here, the one in
which it is seen: what the loop does between the two are moves of its own, before this one. -/
def dismiss (g : Gateway) (id : Nat) : Gateway :=
  match g.listener? id with
  | none => g
  | some l =>
    let (radio, next) := g.radio.withdraw (.listener id)
    let g :=
      { g with
        listeners := g.listeners.filter fun (other, _) => other ≠ id
        radio
        ready := g.ready.filter (· ≠ Party.listener id)
        yielding := g.yielding.filter (· ≠ Party.listener id)
        asleep := g.asleep.filter fun (_, p) => p ≠ Party.listener id }
    (g.wakeHolder next).note l.stage.lastWords

def stopListener (g : Gateway) (id : Nat) : Gateway :=
  if (g.listener? id).isSome then (g.dismiss id).settle else g

end RadioGateway.Gateway
