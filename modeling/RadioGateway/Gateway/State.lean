import RadioGateway.Gateway.Client
import RadioGateway.Gateway.Inbox
import RadioGateway.Gateway.Listener
import RadioGateway.Gateway.Lock

/-!
# The state of a gateway

Clients and receive loops run beside each other on one processor: at any moment one of the parties
that are ready takes a step, and time goes by only when all of them wait. Steps are short; a party
that has to wait says what it waits for and where it will go on.
-/

namespace RadioGateway

open RadioGateway.Log (Event)
open RadioGateway.Radio (Config)

namespace Gateway

/-- What the clients are told about the radio: the last configuration that was opened, and whether a
connect has succeeded since the last disconnect. -/
structure Link where
  config : Config := {}
  connected : Bool := false

structure Report where
  stats : Stats
  link : Link

end Gateway

open Gateway in
structure Gateway where
  /-- Milliseconds since the start. -/
  clock : Nat := 0
  /-- Microseconds from 1970 to the start. -/
  epoch : Nat
  station : Station
  inbox : Inbox
  link : Link := {}
  /-- Held by the connect or disconnect whose turn it is. -/
  turn : Lock := {}
  /-- Held by whoever uses the driver. -/
  radio : Lock := {}
  /-- Requests that have come in, in that order, up to the collection of their outcomes. -/
  clients : List (Nat × Client) := []
  /-- Receive loops that run, in the order they were started. -/
  listeners : List (Nat × Listener) := []
  nextId : Nat := 0
  /-- Parties that can go on, in the order they became able to. -/
  ready : List Party := []
  /-- Parties that go on when nobody else can, in the order they became able to. -/
  yielding : List Party := []
  /-- Parties that sleep, with the time each wakes at, in the order they fell asleep. -/
  asleep : List (Nat × Party) := []
  /-- What has come into the log, the newest first. -/
  news : List Event := []

namespace Gateway

def log (g : Gateway) : List Event := g.news.reverse

def clearLog (g : Gateway) : Gateway := { g with news := [] }

def timestamp (g : Gateway) : Float :=
  let micros := g.epoch + g.clock * 1000
  Float.ofNat (micros / 1000000) + Float.ofNat (micros % 1000000) / 1000000

def note (g : Gateway) (events : List Event) : Gateway :=
  { g with news := events.reverse ++ g.news }

def withStation (g : Gateway) (s : Station) (events : List Event) : Gateway :=
  { g with station := s }.note events

def withInbox (g : Gateway) (inbox : Inbox) : Gateway := { g with inbox }

def withLink (g : Gateway) (link : Link) : Gateway := { g with link }

def withTurn (g : Gateway) (turn : Lock) : Gateway := { g with turn }

def withRadio (g : Gateway) (radio : Lock) : Gateway := { g with radio }

def client? (g : Gateway) (id : Nat) : Option Client := g.clients.lookup id

def stage? (g : Gateway) (id : Nat) : Option Stage := (g.client? id).map Client.stage

def origin? (g : Gateway) (id : Nat) : Option Origin := (g.client? id).map Client.origin

def setStage (g : Gateway) (id : Nat) (stage : Stage) : Gateway :=
  { g with clients := g.clients.map fun (other, c) =>
    (other, if other = id then { c with stage } else c) }

def listener? (g : Gateway) (id : Nat) : Option Listener := g.listeners.lookup id

def setListener (g : Gateway) (id : Nat) (stage : ListenerStage) : Gateway :=
  { g with
    listeners := g.listeners.map fun (other, l) =>
      (other, if other = id then { l with stage } else l) }

/-! ## Who goes on -/

def inForeground (g : Gateway) : Party → Bool
  | .client id => (g.client? id).any fun c => c.manner = .foreground
  | .listener _ => false

/-- Lets a party go on after all that are ready now, or, in the foreground, after all who will be
before time goes by. -/
def wake (g : Gateway) (p : Party) : Gateway :=
  if g.inForeground p then { g with yielding := g.yielding ++ [p] }
  else { g with ready := g.ready ++ [p] }

def goOn (g : Gateway) (p : Party) : Gateway := { g with ready := p :: g.ready }

/-- Whoever sleeps no time at all goes on at once. -/
def sleep (g : Gateway) (p : Party) (ms : Nat) : Gateway :=
  if ms = 0 then g.goOn p else { g with asleep := g.asleep ++ [(g.clock + ms, p)] }

def nextWake (g : Gateway) : Option Nat := (g.asleep.map Prod.fst).min?

def wakeHolder (g : Gateway) : Option Party → Gateway
  | none => g
  | some p => g.wake p

def leaveRadio (g : Gateway) : Gateway :=
  let (radio, next) := g.radio.release
  (g.withRadio radio).wakeHolder next

def leaveTurn (g : Gateway) : Gateway :=
  let (turn, next) := g.turn.release
  (g.withTurn turn).wakeHolder next

end Gateway

end RadioGateway
