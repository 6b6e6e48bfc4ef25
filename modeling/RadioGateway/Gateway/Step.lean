import RadioGateway.Gateway.State
import RadioGateway.Station.Solo

/-!
# Steps

What a party does from the moment it goes on to the moment it waits again, is done, or has been
granted a lock; with a lock that was free it goes on before anybody else does.
-/

namespace RadioGateway.Gateway

open RadioGateway.Log (Event)
open RadioGateway.Radio (Config Frame RadioError)
open RadioGateway.Station

/-! ## Clients -/

def failureLog (origin : Option Origin) : Outcome → List Event
  | .error e => if origin = some .http then [.requestFailed e] else []
  | .ok _ => []

def finish (g : Gateway) (id : Nat) (outcome : Outcome) : Gateway :=
  (g.note (failureLog (g.origin? id) outcome)).setStage id (.finished outcome)

def seekTurn (g : Gateway) (id : Nat) (r : Request) : Gateway :=
  let (turn, granted) := g.turn.acquire (.client id)
  let g := (g.withTurn turn).setStage id (.waitingTurn r)
  if granted then g.goOn (.client id) else g

def seekRadio (g : Gateway) (id : Nat) (e : Errand) : Gateway :=
  let (radio, granted) := g.radio.acquire (.client id)
  let g := (g.withRadio radio).setStage id (.waitingRadio e)
  if granted then g.goOn (.client id) else g

/-- A connect whose turn it is. The update is merged into the configuration that was committed last,
and a configuration that is out of range does not get as far as the radio. -/
def takeTurn (g : Gateway) (id : Nat) : Request → Gateway
  | .connect u =>
    let c := g.link.config.merge u
    match c.fault? with
    | some fault => g.leaveTurn.finish id (.error (.configuration fault.message))
    | none => g.seekRadio id (.attach c)
  | _ => g.seekRadio id .detach

/-- The end of a connect that has a driver attached. Configurations are committed here only. -/
def commit (g : Gateway) (id : Nat) (c : Config) (device : Device) : Gateway :=
  let g := (g.withLink { config := c, connected := true }).note [.connected device.name c]
  g.leaveTurn.finish id (.ok (.connected device c))

/-- The end of a connect whose opening failed. A link whose driver is gone is no longer claimed. -/
def giveUp (g : Gateway) (id : Nat) (e : RadioError) : Gateway :=
  let lost := !g.station.attached && !g.station.simulated
  let g := g.withLink { g.link with connected := g.link.connected && !lost }
  g.leaveTurn.finish id (.error (.driver e))

def opened (g : Gateway) (id : Nat) (c : Config) (r : Except RadioError Device) : Gateway :=
  match r with
  | .ok device => g.leaveRadio.commit id c device
  | .error e => (g.leaveRadio.note [.connectFailed e]).seekRadio id (.confirm e)

def transmitted (g : Gateway) (id : Nat) (r : Except RadioError Nat) : Gateway :=
  let g := g.leaveRadio
  match r with
  | .ok length =>
    (g.withInbox { g.inbox with stats := g.inbox.stats.recordSent }).finish id
      (.ok (.sent length g.station.simulated))
  | .error e => g.finish id (.error (.driver e))

def progressTransmit (g : Gateway) (id length : Nat)
    (e : Effect Station (Progress Nat (Except RadioError Nat))) : Gateway :=
  let g := g.withStation e.state e.log
  match e.result with
  | .finished r => g.transmitted id r
  | .paused ms looks => (g.setStage id (.transmitting length looks)).sleep (.client id) ms

def useRadio (g : Gateway) (id : Nat) : Errand → Gateway
  | .attach c =>
    let e := g.station.beginAttach c
    let g := g.withStation e.state e.log
    match e.result with
    | .finished r => g.opened id c r
    | .paused ms o => (g.setStage id (.opening c o)).sleep (.client id) ms
  | .confirm e => g.leaveRadio.giveUp id e
  | .detach =>
    let e := g.station.detach
    let g := (g.withStation e.state e.log).leaveRadio
    let g := g.withLink { g.link with connected := false }
    g.leaveTurn.finish id (.ok .disconnected)
  | .send payload => g.progressTransmit id payload.length (g.station.beginSend payload)

def resumeClient (g : Gateway) (id : Nat) : Gateway :=
  match g.stage? id with
  | none | some (.finished _) => g
  | some (.arrived (.send (.error e))) => g.finish id (.error (.serialization e.message))
  | some (.arrived (.send (.ok payload))) => g.seekRadio id (.send payload)
  | some (.arrived r) => g.seekTurn id r
  | some (.waitingTurn r) => g.takeTurn id r
  | some (.waitingRadio e) => g.useRadio id e
  | some (.opening c o) =>
    let e := g.station.finishAttach o
    (g.withStation e.state e.log).opened id c e.result
  | some (.transmitting length looks) =>
    g.progressTransmit id length (g.station.resumeSend length looks)

/-! ## Receive loops -/

def listenerSleeps (g : Gateway) (id : Nat) (stage : ListenerStage) (ms : Nat) : Gateway :=
  (g.setListener id stage).sleep (.listener id) ms

def listenerProceeds (g : Gateway) (id : Nat) (deadline : Option Nat) : Gateway :=
  (g.setListener id (.proceeding deadline)).goOn (.listener id)

/-- An iteration, from its start: the time of the receive is counted from now on. -/
def iterate (g : Gateway) (id : Nat) (t : Timing) : Gateway :=
  if g.station.simulated then g.listenerSleeps id .simulating t.simulationInterval
  else g.listenerProceeds id (some (g.clock + t.receiveTimeout))

def seekSlice (g : Gateway) (id deadline slice : Nat) : Gateway :=
  let (radio, granted) := g.radio.acquire (.listener id)
  let g := (g.withRadio radio).setListener id (.waitingRadio deadline slice)
  if granted then g.goOn (.listener id) else g

def nextSlice (g : Gateway) (id deadline : Nat) : Gateway :=
  if deadline ≤ g.clock then g.listenerProceeds id none
  else g.seekSlice id deadline (min Station.sliceTime (deadline - g.clock))

def heard (g : Gateway) (id : Nat) (t : Timing) (deadline : Nat) (r : Station.Heard) : Gateway :=
  let g := g.leaveRadio
  match r with
  | .ok none => g.listenerProceeds id (some deadline)
  | .ok (some f) =>
    let (inbox, events) := g.inbox.accept f g.timestamp
    ((g.withInbox inbox).note events).listenerProceeds id none
  | .error (.failed e) =>
    (g.note [.loopFailed (.driver e)]).listenerSleeps id .backingOff t.errorBackoff
  | .error (.crashed reason) => (g.setListener id (.crashed reason)).wake (.listener id)

def progressListen (g : Gateway) (id : Nat) (t : Timing) (deadline : Nat)
    (e : Effect Station (Progress Listening Station.Heard)) : Gateway :=
  let g := g.withStation e.state e.log
  match e.result with
  | .finished r => g.heard id t deadline r
  | .paused ms l => g.listenerSleeps id (.listening deadline l) ms

/-- A slice, with the radio held. Without a driver the slice goes by with the radio free. -/
def listenSlice (g : Gateway) (id : Nat) (t : Timing) (deadline slice : Nat) : Gateway :=
  match g.station.beginListen slice with
  | some e => g.progressListen id t deadline e
  | none => g.leaveRadio.listenerSleeps id (.idle deadline) slice

def resumeListener (g : Gateway) (id : Nat) : Gateway :=
  match g.listener? id with
  | none => g
  | some ⟨t, stage⟩ =>
    match stage with
    | .starting => (g.note [.loopStarted]).iterate id t
    | .proceeding none => g.iterate id t
    | .proceeding (some deadline) => g.nextSlice id deadline
    | .simulating =>
      let (inbox, events) := g.inbox.acceptSynthetic g.timestamp
      ((g.withInbox inbox).note events).iterate id t
    | .waitingRadio deadline slice => g.listenSlice id t deadline slice
    | .listening deadline l =>
      match g.station.resumeListen l with
      | some e => g.progressListen id t deadline e
      | none => g.leaveRadio.listenerSleeps id (.idle deadline) 1
    | .idle deadline => g.nextSlice id deadline
    | .backingOff => g.iterate id t
    | .crashed reason => (g.note [.loopCrashed reason]).listenerSleeps id .restarting t.errorBackoff
    | .restarting => (g.setListener id .starting).wake (.listener id)

def resume (g : Gateway) : Party → Gateway
  | .client id => g.resumeClient id
  | .listener id => g.resumeListener id

end RadioGateway.Gateway
