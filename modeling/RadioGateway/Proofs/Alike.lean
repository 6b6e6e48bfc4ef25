import RadioGateway.Proofs.Footprint

/-!
# Where a request comes from

Two gateways that differ only in where a request came from do the same, whatever happens to both:
nothing that a step does depends on it but whether a failure is reported in the log.
-/

namespace RadioGateway

open RadioGateway.Log (Event)
open RadioGateway.Radio (Config RadioError)
open RadioGateway.Station

namespace Gateway

/-- The report of a request that failed. -/
def reports : Event → Bool
  | .requestFailed _ => true
  | _ => false

def unreported (news : List Event) : List Event := news.filter fun e => !reports e

/-- The clients, without where the request `id` came from. -/
def unsigned (id : Nat) (clients : List (Nat × Client)) : List (Nat × Client) :=
  clients.map fun w => (w.1, if w.1 = id then { w.2 with origin := .direct } else w.2)

/-- The same but for where the request `id` came from and for the reports of requests that
failed. -/
structure Alike (id : Nat) (g g' : Gateway) : Prop where
  clock : g.clock = g'.clock
  epoch : g.epoch = g'.epoch
  station : g.station = g'.station
  inbox : g.inbox = g'.inbox
  link : g.link = g'.link
  turn : g.turn = g'.turn
  radio : g.radio = g'.radio
  clients : unsigned id g.clients = unsigned id g'.clients
  listeners : g.listeners = g'.listeners
  nextId : g.nextId = g'.nextId
  ready : g.ready = g'.ready
  yielding : g.yielding = g'.yielding
  asleep : g.asleep = g'.asleep
  news : unreported g.news = unreported g'.news

/-- The same but for the reports of requests that failed. -/
structure Agrees (g g' : Gateway) : Prop where
  same : g = { g' with news := g.news }
  news : unreported g.news = unreported g'.news

variable {g g' : Gateway} {id : Nat} {α : Type}

namespace Alike

theorem refl (id : Nat) (g : Gateway) : Alike id g g :=
  ⟨rfl, rfl, rfl, rfl, rfl, rfl, rfl, rfl, rfl, rfl, rfl, rfl, rfl, rfl⟩

-- ---------------------------------------------------------------------------
-- What is seen of a client
-- ---------------------------------------------------------------------------

/-- Whatever does not depend on the origin of a client is the same. -/
theorem client (h : Alike id g g') {f : Client → α} (hf : ∀ c, f { c with origin := .direct } = f c)
    (other : Nat) : (g.client? other).map f = (g'.client? other).map f := by
  have hsame (clients : List (Nat × Client)) :
      ((unsigned id clients).lookup other).map f = (clients.lookup other).map f := by
    refine (congrArg (Option.map f)
      (lookup_map_set id clients (fun c => { c with origin := .direct }) other)).trans ?_
    rw [Option.map_map]
    refine Option.map_congr fun c _ => ?_
    rw [Function.comp_apply]
    split
    · exact hf c
    · rfl
  rw [client?, client?, ← hsame g.clients, h.clients, hsame g'.clients]

theorem stage? (h : Alike id g g') (other : Nat) : g.stage? other = g'.stage? other :=
  h.client (fun _ => rfl) other

theorem outcome? (h : Alike id g g') (other : Nat) : g.outcome? other = g'.outcome? other := by
  simp only [Gateway.outcome?, h.stage? other]

theorem inForeground (h : Alike id g g') (p : Party) : g.inForeground p = g'.inForeground p := by
  cases p with
  | listener other => rfl
  | client other =>
    have hmanner := h.client (f := Client.manner) (fun _ => rfl) other
    have hany (o : Option Client) : (o.any fun c => c.manner = .foreground) =
        ((o.map Client.manner).any fun m => m = .foreground) := by
      cases o <;> rfl
    simp only [Gateway.inForeground, hany, hmanner]

-- ---------------------------------------------------------------------------
-- The parts of a step
-- ---------------------------------------------------------------------------

theorem note (h : Alike id g g') (events : List Event) :
    Alike id (g.note events) (g'.note events) :=
  { h with
    news := by
      show unreported (events.reverse ++ g.news) = unreported (events.reverse ++ g'.news)
      exact (List.filter_append _ _).trans
        ((congrArg _ h.news).trans (List.filter_append _ _).symm) }

/-- A report makes no difference. -/
theorem report (h : Alike id g g') {events events' : List Event}
    (he : ∀ e ∈ events, reports e = true) (he' : ∀ e ∈ events', reports e = true) :
    Alike id (g.note events) (g'.note events') := by
  have hnone {events : List Event} (he : ∀ e ∈ events, reports e = true) (news : List Event) :
      unreported (events.reverse ++ news) = unreported news := by
    have hnil : unreported events.reverse = [] := by
      refine List.filter_eq_nil_iff.mpr fun e hmem => ?_
      simp [he e (List.mem_reverse.mp hmem)]
    exact (List.filter_append _ _).trans (congrArg (· ++ unreported news) hnil)
  exact { h with news := (hnone he g.news).trans (h.news.trans (hnone he' g'.news).symm) }

theorem withStation (h : Alike id g g') (s : Station) (events : List Event) :
    Alike id (g.withStation s events) (g'.withStation s events) :=
  { h.note events with station := rfl }

theorem withInbox (h : Alike id g g') (inbox : Inbox) :
    Alike id (g.withInbox inbox) (g'.withInbox inbox) :=
  { h with inbox := rfl }

theorem withLink (h : Alike id g g') (link : Link) :
    Alike id (g.withLink link) (g'.withLink link) :=
  { h with link := rfl }

theorem withTurn (h : Alike id g g') (turn : Lock) :
    Alike id (g.withTurn turn) (g'.withTurn turn) :=
  { h with turn := rfl }

theorem withRadio (h : Alike id g g') (radio : Lock) :
    Alike id (g.withRadio radio) (g'.withRadio radio) :=
  { h with radio := rfl }

theorem setStage (h : Alike id g g') (other : Nat) (stage : Stage) :
    Alike id (g.setStage other stage) (g'.setStage other stage) := by
  have hset (g : Gateway) : unsigned id (g.setStage other stage).clients =
      (unsigned id g.clients).map fun w =>
        (w.1, if w.1 = other then { w.2 with stage } else w.2) := by
    unfold unsigned Gateway.setStage
    rw [List.map_map, List.map_map]
    refine List.map_congr_left fun w _ => ?_
    simp only [Function.comp_apply]
    split <;> split <;> rfl
  exact { h with clients := by rw [hset, hset, h.clients] }

theorem setListener (h : Alike id g g') (other : Nat) (stage : ListenerStage) :
    Alike id (g.setListener other stage) (g'.setListener other stage) :=
  { h with listeners := by simp only [Gateway.setListener, h.listeners] }

theorem wake (h : Alike id g g') (p : Party) : Alike id (g.wake p) (g'.wake p) := by
  unfold Gateway.wake
  rw [h.inForeground p]
  split
  · exact { h with yielding := congrArg (· ++ [p]) h.yielding }
  · exact { h with ready := congrArg (· ++ [p]) h.ready }

theorem goOn (h : Alike id g g') (p : Party) : Alike id (g.goOn p) (g'.goOn p) :=
  { h with ready := congrArg (p :: ·) h.ready }

theorem sleep (h : Alike id g g') (p : Party) (ms : Nat) :
    Alike id (g.sleep p ms) (g'.sleep p ms) := by
  unfold Gateway.sleep
  split
  · exact h.goOn p
  · exact { h with asleep := by rw [h.asleep, h.clock] }

theorem wakeHolder (h : Alike id g g') (o : Option Party) :
    Alike id (g.wakeHolder o) (g'.wakeHolder o) := by
  cases o with
  | none => exact h
  | some p => exact h.wake p

theorem leaveRadio (h : Alike id g g') : Alike id g.leaveRadio g'.leaveRadio := by
  unfold Gateway.leaveRadio
  rw [h.radio]
  exact (h.withRadio _).wakeHolder _

theorem leaveTurn (h : Alike id g g') : Alike id g.leaveTurn g'.leaveTurn := by
  unfold Gateway.leaveTurn
  rw [h.turn]
  exact (h.withTurn _).wakeHolder _

theorem finish (h : Alike id g g') (other : Nat) (outcome : Outcome) :
    Alike id (g.finish other outcome) (g'.finish other outcome) := by
  have hreports (origin : Option Origin) : ∀ e ∈ failureLog origin outcome, reports e = true := by
    intro e he
    unfold failureLog at he
    split at he
    · split at he
      · rw [List.mem_singleton.mp he]
        rfl
      · cases he
    · cases he
  exact (h.report (hreports _) (hreports _)).setStage other _

theorem seekTurn (h : Alike id g g') (other : Nat) (r : Request) :
    Alike id (g.seekTurn other r) (g'.seekTurn other r) := by
  rw [seekTurn_eq, seekTurn_eq, h.turn]
  have hasked := (h.withTurn (g'.turn.acquire (.client other)).1).setStage other (.waitingTurn r)
  split
  · exact hasked.goOn _
  · exact hasked

theorem seekRadio (h : Alike id g g') (other : Nat) (e : Errand) :
    Alike id (g.seekRadio other e) (g'.seekRadio other e) := by
  rw [seekRadio_eq, seekRadio_eq, h.radio]
  have hasked := (h.withRadio (g'.radio.acquire (.client other)).1).setStage other (.waitingRadio e)
  split
  · exact hasked.goOn _
  · exact hasked

-- ---------------------------------------------------------------------------
-- The steps of a client
-- ---------------------------------------------------------------------------

theorem takeTurn (h : Alike id g g') (other : Nat) (r : Request) :
    Alike id (g.takeTurn other r) (g'.takeTurn other r) := by
  cases r with
  | connect u =>
    simp only [Gateway.takeTurn, h.link]
    split
    · exact h.leaveTurn.finish other _
    · exact h.seekRadio other _
  | disconnect => exact h.seekRadio other .detach
  | send payload => exact h.seekRadio other .detach

theorem commit (h : Alike id g g') (other : Nat) (c : Config) (device : Device) :
    Alike id (g.commit other c device) (g'.commit other c device) :=
  ((h.withLink _).note _).leaveTurn.finish other _

theorem giveUp (h : Alike id g g') (other : Nat) (e : RadioError) :
    Alike id (g.giveUp other e) (g'.giveUp other e) := by
  simp only [Gateway.giveUp, h.station, h.link]
  exact (h.withLink _).leaveTurn.finish other _

theorem opened (h : Alike id g g') (other : Nat) (c : Config) (r : Except RadioError Device) :
    Alike id (g.opened other c r) (g'.opened other c r) := by
  cases r with
  | ok device => exact h.leaveRadio.commit other c device
  | error e => exact (h.leaveRadio.note _).seekRadio other _

theorem transmitted (h : Alike id g g') (other : Nat) (r : Except RadioError Nat) :
    Alike id (g.transmitted other r) (g'.transmitted other r) := by
  cases r with
  | error e => exact h.leaveRadio.finish other _
  | ok length =>
    simp only [Gateway.transmitted, h.leaveRadio.inbox, (leaveRadio_keeps _).1, h.station]
    exact (h.leaveRadio.withInbox _).finish other _

theorem progressTransmit (h : Alike id g g') (other length : Nat)
    (e : Effect Station (Progress Nat (Except RadioError Nat))) :
    Alike id (g.progressTransmit other length e) (g'.progressTransmit other length e) := by
  unfold Gateway.progressTransmit
  cases e.result with
  | finished r => exact (h.withStation _ _).transmitted other r
  | paused ms looks => exact ((h.withStation _ _).setStage other _).sleep _ ms

theorem useRadio (h : Alike id g g') (other : Nat) (e : Errand) :
    Alike id (g.useRadio other e) (g'.useRadio other e) := by
  cases e with
  | attach c =>
    simp only [Gateway.useRadio, h.station]
    split
    · exact (h.withStation _ _).opened other c _
    · exact ((h.withStation _ _).setStage other _).sleep _ _
  | confirm e => exact h.leaveRadio.giveUp other e
  | detach =>
    simp only [Gateway.useRadio, h.station]
    have hleft := (h.withStation g'.station.detach.state g'.station.detach.log).leaveRadio
    simp only [hleft.link]
    exact (hleft.withLink _).leaveTurn.finish other _
  | send payload =>
    simp only [Gateway.useRadio, h.station]
    exact h.progressTransmit other _ _

theorem resumeClient (h : Alike id g g') (other : Nat) :
    Alike id (g.resumeClient other) (g'.resumeClient other) := by
  unfold Gateway.resumeClient
  rw [h.stage? other, h.station]
  split
  · exact h
  · exact h
  · exact h.finish other _
  · exact h.seekRadio other _
  · exact h.seekTurn other _
  · exact h.takeTurn other _
  · exact h.useRadio other _
  · exact (h.withStation _ _).opened other _ _
  · exact h.progressTransmit other _ _

-- ---------------------------------------------------------------------------
-- The steps of a receive loop
-- ---------------------------------------------------------------------------

theorem listenerSleeps (h : Alike id g g') (other : Nat) (stage : ListenerStage) (ms : Nat) :
    Alike id (g.listenerSleeps other stage ms) (g'.listenerSleeps other stage ms) :=
  (h.setListener other stage).sleep _ ms

theorem listenerProceeds (h : Alike id g g') (other : Nat) (deadline : Option Nat) :
    Alike id (g.listenerProceeds other deadline) (g'.listenerProceeds other deadline) :=
  (h.setListener other _).goOn _

theorem iterate (h : Alike id g g') (other : Nat) (t : Timing) :
    Alike id (g.iterate other t) (g'.iterate other t) := by
  unfold Gateway.iterate
  rw [h.station, h.clock]
  split
  · exact h.listenerSleeps other _ _
  · exact h.listenerProceeds other _

theorem nextSlice (h : Alike id g g') (other deadline : Nat) :
    Alike id (g.nextSlice other deadline) (g'.nextSlice other deadline) := by
  unfold Gateway.nextSlice
  rw [h.clock]
  split
  · exact h.listenerProceeds other none
  · rw [seekSlice_eq, seekSlice_eq, h.radio]
    have hasked := (h.withRadio (g'.radio.acquire (.listener other)).1).setListener other
      (.waitingRadio deadline (min sliceTime (deadline - g'.clock)))
    split
    · exact hasked.goOn _
    · exact hasked

theorem timestamp (h : Alike id g g') : g.timestamp = g'.timestamp := by
  simp only [Gateway.timestamp, h.epoch, h.clock]

theorem heard (h : Alike id g g') (other : Nat) (t : Timing) (deadline : Nat) (r : Heard) :
    Alike id (g.heard other t deadline r) (g'.heard other t deadline r) := by
  have hleft := h.leaveRadio
  rcases r with (e | reason) | (_ | f)
  · exact (hleft.note _).listenerSleeps other _ _
  · exact (hleft.setListener other _).wake _
  · exact hleft.listenerProceeds other _
  · simp only [Gateway.heard, hleft.inbox, hleft.timestamp]
    exact ((hleft.withInbox _).note _).listenerProceeds other none

theorem progressListen (h : Alike id g g') (other : Nat) (t : Timing) (deadline : Nat)
    (e : Effect Station (Progress Listening Heard)) :
    Alike id (g.progressListen other t deadline e) (g'.progressListen other t deadline e) := by
  unfold Gateway.progressListen
  cases e.result with
  | finished r => exact (h.withStation _ _).heard other t deadline r
  | paused ms l => exact (h.withStation _ _).listenerSleeps other _ ms

theorem listenSlice (h : Alike id g g') (other : Nat) (t : Timing) (deadline slice : Nat) :
    Alike id (g.listenSlice other t deadline slice) (g'.listenSlice other t deadline slice) := by
  unfold Gateway.listenSlice
  rw [h.station]
  split
  · exact h.progressListen other t deadline _
  · exact h.leaveRadio.listenerSleeps other _ _

theorem resumeListener (h : Alike id g g') (other : Nat) :
    Alike id (g.resumeListener other) (g'.resumeListener other) := by
  have hlistener : g.listener? other = g'.listener? other := congrArg (·.lookup other) h.listeners
  unfold Gateway.resumeListener
  rw [hlistener, h.station]
  split
  · exact h
  · split
    · exact (h.note _).iterate other _
    · exact h.iterate other _
    · exact h.nextSlice other _
    · simp only [h.inbox, h.timestamp]
      exact ((h.withInbox _).note _).iterate other _
    · exact h.listenSlice other _ _ _
    · split
      · exact h.progressListen other _ _ _
      · exact h.leaveRadio.listenerSleeps other _ _
    · exact h.nextSlice other _
    · exact h.iterate other _
    · exact (h.note _).listenerSleeps other _ _
    · exact (h.setListener other _).wake _

theorem resume (h : Alike id g g') (p : Party) : Alike id (g.resume p) (g'.resume p) := by
  cases p with
  | client other => exact h.resumeClient other
  | listener other => exact h.resumeListener other

-- ---------------------------------------------------------------------------
-- Moves
-- ---------------------------------------------------------------------------

theorem length_clients (h : Alike id g g') : g.clients.length = g'.clients.length := by
  have := congrArg List.length h.clients
  rwa [unsigned, unsigned, List.length_map, List.length_map] at this

theorem elapse (h : Alike id g g') (clock : Nat) : Alike id (g.elapse clock) (g'.elapse clock) := by
  have hforeground : g.inForeground = g'.inForeground := funext h.inForeground
  exact { h with
    clock := rfl
    asleep := by simp only [Gateway.elapse, h.asleep]
    ready := by simp only [Gateway.elapse, h.ready, h.asleep, hforeground] }

theorem arrive (h : Alike id g g') (origin : Origin) (manner : Manner) (r : Request) :
    Alike id (g.arrive origin manner r) (g'.arrive origin manner r) := by
  let client : Client := { origin, manner, stage := .arrived r }
  have hjoined :
      Alike id { g with clients := g.clients ++ [(g'.nextId, client)], nextId := g'.nextId + 1 }
      { g' with clients := g'.clients ++ [(g'.nextId, client)], nextId := g'.nextId + 1 } :=
    { h with
      nextId := rfl
      clients := by
        simp only [unsigned, List.map_append]
        exact congrArg (· ++ _) h.clients }
  unfold Gateway.arrive
  rw [h.nextId]
  exact hjoined.wake _

theorem enlist (h : Alike id g g') (t : Timing) : Alike id (g.enlist t) (g'.enlist t) := by
  have hjoined (listeners : List (Nat × Listener)) (nextId : Nat) :
      Alike id { g with listeners, nextId } { g' with listeners, nextId } :=
    { h with listeners := rfl, nextId := rfl }
  unfold Gateway.enlist
  rw [h.nextId, h.listeners]
  exact (hjoined _ _).wake _

theorem dismiss (h : Alike id g g') (other : Nat) :
    Alike id (g.dismiss other) (g'.dismiss other) := by
  have hlistener : g.listener? other = g'.listener? other := congrArg (·.lookup other) h.listeners
  unfold Gateway.dismiss
  rw [hlistener]
  split
  · exact h
  · simp only [h.listeners, h.radio, h.ready, h.yielding, h.asleep]
    refine note (wakeHolder ?_ _) _
    exact { h with listeners := rfl, radio := rfl, ready := rfl, yielding := rfl, asleep := rfl }

theorem poll (h : Alike id g g') : Alike id g.poll.1 g'.poll.1 := by
  simp only [Gateway.poll, h.inbox]
  exact h.withInbox _

theorem forget (h : Alike id g g') (other : Nat) : Alike id (g.forget other) (g'.forget other) := by
  have hforget (g : Gateway) : unsigned id (g.forget other).clients =
      (unsigned id g.clients).filter fun w => w.1 ≠ other := by
    unfold unsigned Gateway.forget
    rw [List.filter_map]
    rfl
  exact { h with clients := by rw [hforget, hforget, h.clients] }

theorem depart (h : Alike id g g') (p : Party) : Alike id (g.depart p) (g'.depart p) := by
  unfold Gateway.depart
  rw [h.ready]
  split
  · exact { h with ready := rfl }
  · exact { h with ready := rfl, yielding := congrArg (·.erase p) h.yielding }

theorem after (h : Alike id g g') (m : Move) : Alike id (g.after m) (g'.after m) := by
  cases m with
  | arrive origin manner r => exact h.arrive origin manner r
  | resume p =>
    have hgoes : g.goes p = g'.goes p := by simp only [goes, h.ready, h.yielding]
    simp only [Gateway.after, resumeReady, hgoes]
    split
    · exact (h.depart p).resume p
    · exact h
  | elapse ms =>
    simp only [Gateway.after, h.clock]
    exact h.elapse _
  | forget other =>
    simp only [Gateway.after, h.outcome? other]
    split
    · exact h.forget other
    · exact h
  | poll => exact h.poll
  | enlist t => exact h.enlist t
  | dismiss other => exact h.dismiss other
  | stimulate s =>
    exact { h with station := by simp only [Gateway.after, Gateway.stimulate, h.station] }
  | relog news => exact { h with news := rfl }

theorem through (h : Alike id g g') (moves : List Move) :
    Alike id (g.through moves) (g'.through moves) := by
  induction moves using List.reverseRecOn with
  | nil => exact h
  | append_singleton moves m ih =>
    rw [through_snoc, through_snoc]
    exact ih.after m

-- ---------------------------------------------------------------------------
-- Waiting for an outcome
-- ---------------------------------------------------------------------------

theorem next (h : Alike id g g') : Alike id g.next g'.next := by
  have hqueues (ready yielding : List Party) :
      Alike id { g with ready, yielding } { g' with ready, yielding } :=
    { h with ready := rfl, yielding := rfl }
  unfold Gateway.next
  simp only [h.ready, h.yielding]
  split
  · exact (hqueues _ _).resume _
  · exact (hqueues _ _).resume _
  · exact h

theorem settle (h : Alike id g g') : Alike id g.settle g'.settle := by
  have hbound : g.stepBound = g'.stepBound := by
    simp only [stepBound, h.length_clients, h.listeners, h.station, h.ready, h.yielding]
  unfold Gateway.settle
  rw [hbound]
  clear hbound
  generalize g'.stepBound = steps
  induction steps generalizing g g' with
  | zero => exact h
  | succ steps ih =>
    have hquiet : g.isQuiet = g'.isQuiet := by simp only [isQuiet, h.ready, h.yielding]
    unfold settleWithin
    rw [hquiet]
    split
    · exact h
    · exact ih h.next

theorem awaitWithin (h : Alike id g g') (other ms : Nat) :
    Alike id (g.awaitWithin other ms) (g'.awaitWithin other ms) := by
  induction ms using Nat.strongRecOn generalizing g g' with
  | ind ms ih =>
    have hpause : g.pause? ms = g'.pause? ms := by simp only [pause?, nextWake, h.asleep, h.clock]
    rw [Gateway.awaitWithin, Gateway.awaitWithin, h.outcome? other]
    split
    · exact h
    · split <;> split
      · exact h
      · rename_i hnone pause hsome
        cases hnone.symm.trans (hpause.trans hsome)
      · rename_i pause hsome hnone
        cases hsome.symm.trans (hpause.trans hnone)
      · rename_i pause hsome pause' hsome'
        obtain rfl := Option.some.inj (hsome.symm.trans (hpause.trans hsome'))
        have := pause?_bounds hsome
        rw [h.clock]
        exact ih _ (by omega) (h.elapse _).settle

/-- Once the request is forgotten, nothing is left to tell the two apart but the reports. -/
theorem forgotten (h : Alike id g g') : Agrees (g.forget id) (g'.forget id) := by
  have hkept (clients : List (Nat × Client)) :
      (unsigned id clients).filter (fun w => w.1 ≠ id) = clients.filter fun w => w.1 ≠ id := by
    unfold unsigned
    rw [List.filter_map]
    refine (List.map_congr_left fun w hw => ?_).trans (List.map_id _)
    have hne : w.1 ≠ id := by simpa using (List.mem_filter.mp hw).2
    exact Prod.ext rfl (if_neg hne)
  have hclients : (g.clients.filter fun w => w.1 ≠ id) = g'.clients.filter fun w => w.1 ≠ id := by
    rw [← hkept, h.clients, hkept]
  refine ⟨?_, h.news⟩
  simp only [Gateway.forget, h.clock, h.epoch, h.station, h.inbox, h.link,
    h.turn, h.radio, hclients, h.listeners, h.nextId, h.ready, h.yielding, h.asleep]

/-- The outcome does not depend on where the request came from. -/
theorem collect (h : Alike id g g') :
    Agrees (g.collect id).1 (g'.collect id).1 ∧ (g.collect id).2 = (g'.collect id).2 := by
  have hpatience : g.patience = g'.patience := by
    simp only [patience, h.asleep, h.length_clients, h.listeners, h.station]
  have hwaited := h.awaitWithin id g.patience
  unfold Gateway.collect
  rw [← hpatience]
  exact ⟨hwaited.forgotten, hwaited.outcome? id⟩

end Alike

/-- Whatever the state, taking in the same request from elsewhere makes no other difference. -/
theorem alike_submit (g : Gateway) (origin origin' : Origin) (manner : Manner) (r : Request) :
    Alike g.nextId (g.submit origin manner r).1 (g.submit origin' manner r).1 := by
  have hjoined : Alike g.nextId
      { g with
        clients := g.clients ++ [(g.nextId, ⟨origin, manner, .arrived r⟩)]
        nextId := g.nextId + 1 }
      { g with
        clients := g.clients ++ [(g.nextId, ⟨origin', manner, .arrived r⟩)]
        nextId := g.nextId + 1 } :=
    { Alike.refl g.nextId g with
      nextId := rfl
      clients := by simp [unsigned] }
  exact (hjoined.wake (.client g.nextId)).settle

end Gateway

end RadioGateway
