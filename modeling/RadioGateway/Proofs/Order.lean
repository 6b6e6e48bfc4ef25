import Mathlib.Algebra.Order.Group.Multiset
import Mathlib.Tactic.Abel
import RadioGateway.Proofs.Footprint
import RadioGateway.Proofs.Queues

/-!
# A gateway stays in order

Where a request or a receive loop stands says which locks it claims. `InOrder` says that the locks
and the parties that will go on agree with that, and every move keeps it so: nobody is lost, nobody
goes on twice, and what is done with a lock is done by its holder.
-/

namespace RadioGateway.Gateway

open Function (update)
open RadioGateway.Log (Event)

def Stage.standing : Stage → Standing
  | .arrived _ => .free
  | .waitingTurn _ => ⟨.wants, .none, true⟩
  | .waitingRadio (.send _) => ⟨.none, .wants, true⟩
  | .waitingRadio _ => ⟨.has, .wants, true⟩
  | .opening _ _ => ⟨.has, .has, true⟩
  | .transmitting _ _ => ⟨.none, .has, true⟩
  | .finished _ => .gone

def ListenerStage.standing : ListenerStage → Standing
  | .waitingRadio _ _ => ⟨.none, .wants, true⟩
  | .listening _ _ => ⟨.none, .has, true⟩
  | _ => .free

def standing (g : Gateway) : Party → Standing
  | .client id => ((g.stage? id).map Stage.standing).getD .gone
  | .listener id => ((g.listener? id).map fun l => l.stage.standing).getD .gone

def awake (g : Gateway) : Multiset Party :=
  (g.ready : Multiset Party) + (g.yielding : Multiset Party) +
    (g.asleep.map Prod.snd : List Party)

def queues (g : Gateway) : Queues := ⟨g.turn, g.radio, g.awake⟩

-- ---------------------------------------------------------------------------
-- Standings after a change of stage
-- ---------------------------------------------------------------------------

variable {g g' : Gateway} {id : Nat} {p : Party}

theorem standing_congr (hs : g'.stage? = g.stage?) (hl : g'.listener? = g.listener?) :
    g'.standing = g.standing := by
  funext x
  cases x <;> simp [standing, hs, hl]

theorem standing_of_client {o : Option Stage} (hs : g'.stage? = update g.stage? id o)
    (hl : g'.listener? = g.listener?) :
    g'.standing = update g.standing (.client id) ((o.map Stage.standing).getD .gone) := by
  funext x
  cases x with
  | client other => by_cases h : other = id <;> simp [standing, hs, h]
  | listener other => simp [standing, hl]

theorem standing_of_listener {o : Option Listener} (hs : g'.stage? = g.stage?)
    (hl : g'.listener? = update g.listener? id o) :
    g'.standing =
      update g.standing (.listener id) ((o.map fun l => l.stage.standing).getD .gone) := by
  funext x
  cases x with
  | client other => simp [standing, hs]
  | listener other => by_cases h : other = id <;> simp [standing, hl, h]

-- ---------------------------------------------------------------------------
-- What the parts of a step do to the queues
-- ---------------------------------------------------------------------------

section Parts

variable (g : Gateway) (id : Nat) (p : Party)

@[simp] theorem queues_note (events : List Event) : (g.note events).queues = g.queues := rfl

@[simp] theorem queues_withStation (s : Station) (events : List Event) :
    (g.withStation s events).queues = g.queues := rfl

@[simp] theorem queues_withInbox (inbox : Inbox) : (g.withInbox inbox).queues = g.queues := rfl

@[simp] theorem queues_withLink (link : Link) : (g.withLink link).queues = g.queues := rfl

@[simp] theorem queues_setStage (stage : Stage) : (g.setStage id stage).queues = g.queues := rfl

@[simp] theorem queues_setListener (stage : ListenerStage) :
    (g.setListener id stage).queues = g.queues := rfl

@[simp] theorem queues_wake : (g.wake p).queues = g.queues.wake p := by
  unfold wake
  split <;>
  · simp only [queues, awake, Queues.wake, ← Multiset.coe_add, ← Multiset.singleton_add,
      Multiset.coe_singleton]
    congr 1
    abel

@[simp] theorem queues_goOn : (g.goOn p).queues = g.queues.wake p := by
  simp only [goOn, queues, awake, Queues.wake, ← Multiset.cons_coe, Multiset.cons_add]

@[simp] theorem queues_sleep (ms : Nat) : (g.sleep p ms).queues = g.queues.wake p := by
  unfold sleep
  split
  · exact queues_goOn g p
  · simp only [queues, awake, Queues.wake, ← Multiset.coe_add, ← Multiset.singleton_add,
      Multiset.coe_singleton, List.map_append, List.map_cons, List.map_nil]
    congr 1
    abel

@[simp] theorem queues_wakeHolder (o : Option Party) :
    (g.wakeHolder o).queues = g.queues.wakeHolder o := by
  cases o with
  | none => rfl
  | some p => exact queues_wake g p

@[simp] theorem queues_leaveRadio : g.leaveRadio.queues = g.queues.leaveRadio :=
  queues_wakeHolder _ _

@[simp] theorem queues_leaveTurn : g.leaveTurn.queues = g.queues.leaveTurn :=
  queues_wakeHolder _ _

@[simp] theorem queues_finish (outcome : Outcome) : (g.finish id outcome).queues = g.queues := rfl

@[simp] theorem queues_seekTurn (r : Request) :
    (g.seekTurn id r).queues = g.queues.seekTurn (.client id) := by
  rw [seekTurn_eq]
  simp only [apply_ite queues, queues_goOn, queues_setStage]
  rfl

@[simp] theorem queues_seekRadio (e : Errand) :
    (g.seekRadio id e).queues = g.queues.seekRadio (.client id) := by
  rw [seekRadio_eq]
  simp only [apply_ite queues, queues_goOn, queues_setStage]
  rfl

@[simp] theorem queues_seekSlice (deadline slice : Nat) :
    (g.seekSlice id deadline slice).queues = g.queues.seekRadio (.listener id) := by
  rw [seekSlice_eq]
  simp only [apply_ite queues, queues_goOn, queues_setListener]
  rfl

@[simp] theorem queues_listenerSleeps (stage : ListenerStage) (ms : Nat) :
    (g.listenerSleeps id stage ms).queues = g.queues.wake (.listener id) :=
  queues_sleep _ _ _

@[simp] theorem queues_listenerProceeds (deadline : Option Nat) :
    (g.listenerProceeds id deadline).queues = g.queues.wake (.listener id) :=
  queues_goOn _ _

end Parts

-- ---------------------------------------------------------------------------
-- In order, and in the middle of a step
-- ---------------------------------------------------------------------------

/-- Nobody has a number that is still to be given. -/
structure Fresh (g : Gateway) : Prop where
  client : ∀ id, g.stage? id ≠ none → id < g.nextId
  listener : ∀ id, g.listener? id ≠ none → id < g.nextId

structure InOrder (g : Gateway) : Prop where
  orderly : Orderly g.standing g.queues
  fresh : Fresh g

/-- In order but for one party, which is in the middle of its step and has the standing `s`. -/
structure Acting (g : Gateway) (p : Party) (s : Standing) : Prop where
  orderly : Orderly (update g.standing p s) g.queues
  fresh : Fresh g
  inactive : s.active = false

theorem Fresh.congr (h : Fresh g) (hs : g'.stage? = g.stage?) (hl : g'.listener? = g.listener?)
    (hn : g'.nextId = g.nextId) : Fresh g' :=
  ⟨by rw [hs, hn]; exact h.client, by rw [hl, hn]; exact h.listener⟩

theorem Fresh.of_client {f : Stage → Stage} (h : Fresh g)
    (hs : g'.stage? = update g.stage? id ((g.stage? id).map f)) (hl : g'.listener? = g.listener?)
    (hn : g'.nextId = g.nextId) : Fresh g' := by
  refine ⟨?_, by rw [hl, hn]; exact h.listener⟩
  rw [hs, hn]
  refine (Function.forall_update_iff g.stage? fun x o => o ≠ none → x < g.nextId).mpr
    ⟨fun ho => h.client id ?_, fun x _ => h.client x⟩
  simpa using ho

theorem Fresh.of_listener {f : Listener → Listener} (h : Fresh g) (hs : g'.stage? = g.stage?)
    (hl : g'.listener? = update g.listener? id ((g.listener? id).map f))
    (hn : g'.nextId = g.nextId) : Fresh g' := by
  refine ⟨by rw [hs, hn]; exact h.client, ?_⟩
  rw [hl, hn]
  refine (Function.forall_update_iff g.listener? fun x o => o ≠ none → x < g.nextId).mpr
    ⟨fun ho => h.listener id ?_, fun x _ => h.listener x⟩
  simpa using ho

namespace Acting

variable {t r : Claim} {s : Standing}

theorem congr (h : Acting g p s) (hq : g'.queues = g.queues) (hs : g'.stage? = g.stage?)
    (hl : g'.listener? = g.listener?) (hn : g'.nextId = g.nextId) : Acting g' p s := by
  refine ⟨?_, h.fresh.congr hs hl hn, h.inactive⟩
  rw [standing_congr hs hl, hq]
  exact h.orderly

theorem leaveRadio (h : Acting g p ⟨t, .has, false⟩) : Acting g.leaveRadio p ⟨t, .none, false⟩ := by
  refine ⟨?_, h.fresh.congr (by simp) (by simp) (by simp), rfl⟩
  have hst : g.leaveRadio.standing = g.standing := standing_congr (by simp) (by simp)
  have ho := h.orderly.leaveRadio (p := p) (by simp) (by simp)
  rw [Function.update_self, Function.update_idem] at ho
  rwa [hst, queues_leaveRadio]

theorem leaveTurn (h : Acting g p ⟨.has, r, false⟩) : Acting g.leaveTurn p ⟨.none, r, false⟩ := by
  refine ⟨?_, h.fresh.congr (by simp) (by simp) (by simp), rfl⟩
  have hst : g.leaveTurn.standing = g.standing := standing_congr (by simp) (by simp)
  have ho := h.orderly.leaveTurn (p := p) (by simp) (by simp)
  rw [Function.update_self, Function.update_idem] at ho
  rwa [hst, queues_leaveTurn]

theorem finish (h : Acting g (.client id) .gone) (outcome : Outcome) :
    InOrder (g.finish id outcome) := by
  refine ⟨?_, h.fresh.of_client (by simp; rfl) (by simp) (by simp)⟩
  rw [standing_of_client (by simp; rfl) (by simp), queues_finish]
  have : ((((g.stage? id).map fun _ => Stage.finished outcome).map Stage.standing).getD .gone) =
      Standing.gone := by cases g.stage? id <;> rfl
  rw [this]
  exact h.orderly

theorem seekTurn {k : Stage} (h : Acting g (.client id) .gone) (hid : g.stage? id = some k)
    (req : Request) : InOrder (g.seekTurn id req) := by
  refine ⟨?_, h.fresh.of_client (by simp; rfl) (by simp) (by simp)⟩
  rw [standing_of_client (by simp; rfl) (by simp), queues_seekTurn, hid]
  have ho := h.orderly.seekTurn (p := .client id) (by simp)
  rwa [Function.update_idem] at ho

theorem seekRadio {k : Stage} {e : Errand} (h : Acting g (.client id) ⟨t, .none, false⟩)
    (hid : g.stage? id = some k) (he : (Stage.waitingRadio e).standing = ⟨t, .wants, true⟩) :
    InOrder (g.seekRadio id e) := by
  refine ⟨?_, h.fresh.of_client (by simp; rfl) (by simp) (by simp)⟩
  rw [standing_of_client (by simp; rfl) (by simp), queues_seekRadio, hid]
  have ho := h.orderly.seekRadio (p := .client id) (by simp) (by simp)
  rw [Function.update_idem, Function.update_self] at ho
  simpa [he] using ho

theorem sleep {k stage : Stage} (h : Acting g (.client id) ⟨t, r, false⟩)
    (hid : g.stage? id = some k) (hs : stage.standing = ⟨t, r, true⟩) (ms : Nat) :
    InOrder ((g.setStage id stage).sleep (.client id) ms) := by
  refine ⟨?_, h.fresh.of_client (by simp; rfl) (by simp) (by simp)⟩
  rw [standing_of_client (by simp; rfl) (by simp), queues_sleep, queues_setStage, hid]
  have ho := h.orderly.rest (p := .client id) (by simp)
  rw [Function.update_idem, Function.update_self] at ho
  simpa [hs] using ho

theorem listenerRests {l : Listener} {stage : ListenerStage}
    (h : Acting g (.listener id) ⟨t, r, false⟩) (hid : g.listener? id = some l)
    (hs : stage.standing = ⟨t, r, true⟩) (hg : g'.queues = g.queues.wake (.listener id))
    (hst : g'.stage? = g.stage?)
    (hl : g'.listener? = update g.listener? id ((g.listener? id).map fun l => { l with stage }))
    (hn : g'.nextId = g.nextId) : InOrder g' := by
  refine ⟨?_, h.fresh.of_listener hst hl hn⟩
  rw [standing_of_listener hst hl, hg, hid]
  have ho := h.orderly.rest (p := .listener id) (by simp)
  rw [Function.update_idem, Function.update_self] at ho
  simpa [hs] using ho

theorem listenerSleeps {l : Listener} {stage : ListenerStage}
    (h : Acting g (.listener id) ⟨t, r, false⟩) (hid : g.listener? id = some l)
    (hs : stage.standing = ⟨t, r, true⟩) (ms : Nat) : InOrder (g.listenerSleeps id stage ms) :=
  h.listenerRests hid hs (by simp) (by simp) (by simp) (by simp)

theorem listenerProceeds {l : Listener} (h : Acting g (.listener id) .gone)
    (hid : g.listener? id = some l) (deadline : Option Nat) :
    InOrder (g.listenerProceeds id deadline) := by
  have hs : (ListenerStage.proceeding deadline).standing = .free := rfl
  exact h.listenerRests hid hs (by simp) (by simp) (by simp) (by simp)

theorem leaveTurn_finish (h : Acting g (.client id) ⟨.has, .none, false⟩) (outcome : Outcome) :
    InOrder (g.leaveTurn.finish id outcome) := h.leaveTurn.finish outcome

end Acting

-- ---------------------------------------------------------------------------
-- Clients
-- ---------------------------------------------------------------------------

section Clients

variable {k : Stage}

theorem Acting.takeTurn (h : Acting g (.client id) ⟨.has, .none, false⟩)
    (hid : g.stage? id = some k) (r : Request) : InOrder (g.takeTurn id r) := by
  unfold Gateway.takeTurn
  split
  · simp only
    split
    · exact h.leaveTurn_finish _
    · exact h.seekRadio hid rfl
  · exact h.seekRadio hid rfl

theorem Acting.commit (h : Acting g (.client id) ⟨.has, .none, false⟩) (c : Radio.Config)
    (device : Station.Device) : InOrder (g.commit id c device) := by
  unfold Gateway.commit
  exact (h.congr (by simp) (by simp) (by simp) (by simp)).leaveTurn_finish _

theorem Acting.giveUp (h : Acting g (.client id) ⟨.has, .none, false⟩) (e : Radio.RadioError) :
    InOrder (g.giveUp id e) := by
  unfold Gateway.giveUp
  exact (h.congr (by simp) (by simp) (by simp) (by simp)).leaveTurn_finish _

theorem Acting.opened (h : Acting g (.client id) ⟨.has, .has, false⟩)
    (hid : g.stage? id = some k) (c : Radio.Config) (r : Except Radio.RadioError Station.Device) :
    InOrder (g.opened id c r) := by
  unfold Gateway.opened
  split
  · exact h.leaveRadio.commit _ _
  · exact (h.leaveRadio.congr (by simp) (by simp) (by simp) (by simp)).seekRadio
      (k := k) (by simpa using hid) rfl

theorem Acting.transmitted (h : Acting g (.client id) ⟨.none, .has, false⟩)
    (r : Except Radio.RadioError Nat) : InOrder (g.transmitted id r) := by
  unfold Gateway.transmitted
  simp only
  split
  · exact (h.leaveRadio.congr (by simp) (by simp) (by simp) (by simp)).finish _
  · exact h.leaveRadio.finish _

theorem Acting.progressTransmit (h : Acting g (.client id) ⟨.none, .has, false⟩)
    (hid : g.stage? id = some k) (length : Nat)
    (e : Station.Effect Station (Station.Progress Nat (Except Radio.RadioError Nat))) :
    InOrder (g.progressTransmit id length e) := by
  have hs : Acting (g.withStation e.state e.log) (.client id) ⟨.none, .has, false⟩ :=
    h.congr (by simp) (by simp) (by simp) (by simp)
  unfold Gateway.progressTransmit
  simp only
  split
  · exact hs.transmitted _
  · exact hs.sleep (k := k) (by simpa using hid) rfl _

theorem Acting.useRadio {e : Errand}
    (h : Acting g (.client id) (Stage.waitingRadio e).standing.acting)
    (hid : g.stage? id = some k) : InOrder (g.useRadio id e) := by
  unfold Gateway.useRadio
  split
  · rename_i c
    have hs : Acting (g.withStation (g.station.beginAttach c).state (g.station.beginAttach c).log)
        (.client id) ⟨.has, .has, false⟩ := h.congr (by simp) (by simp) (by simp) (by simp)
    simp only
    split
    · exact hs.opened (k := k) (by simpa using hid) _ _
    · exact hs.sleep (k := k) (by simpa using hid) rfl _
  · exact (Acting.leaveRadio (t := .has) h).giveUp _
  · have hs : Acting (g.withStation g.station.detach.state g.station.detach.log)
        (.client id) ⟨.has, .has, false⟩ := h.congr (by simp) (by simp) (by simp) (by simp)
    exact (hs.leaveRadio.congr (by simp) (by simp) (by simp) (by simp)).leaveTurn_finish _
  · exact Acting.progressTransmit h hid _ _

theorem standing_client (hid : g.stage? id = some k) :
    g.standing (.client id) = k.standing := by simp [standing, hid]

theorem standing_listener {l : Listener} (hid : g.listener? id = some l) :
    g.standing (.listener id) = l.stage.standing := by simp [standing, hid]

theorem Acting.idle (h : Acting g p (g.standing p).acting) (hp : g.standing p = .gone) :
    InOrder g := by
  refine ⟨?_, h.fresh⟩
  have ho := h.orderly
  rwa [hp, show Standing.gone.acting = g.standing p from hp.symm, Function.update_eq_self] at ho

theorem Acting.resumeClient (h : Acting g (.client id) (g.standing (.client id)).acting) :
    InOrder (g.resumeClient id) := by
  unfold Gateway.resumeClient
  split
  next hid => exact h.idle (by simp [standing, hid])
  next hid => exact h.idle (by simp [standing, hid, Stage.standing])
  next hid => rw [standing_client hid] at h; exact Acting.finish h _
  next hid => rw [standing_client hid] at h; exact Acting.seekRadio (t := .none) h hid rfl
  next hid => rw [standing_client hid] at h; exact Acting.seekTurn h hid _
  next hid => rw [standing_client hid] at h; exact Acting.takeTurn h hid _
  next hid => rw [standing_client hid] at h; exact Acting.useRadio h hid
  next c o hid =>
    rw [standing_client hid] at h
    have hs : Acting (g.withStation (g.station.finishAttach o).state (g.station.finishAttach o).log)
        (.client id) ⟨.has, .has, false⟩ := h.congr (by simp) (by simp) (by simp) (by simp)
    exact hs.opened (k := .opening c o) (by simpa using hid) _ _
  next hid => rw [standing_client hid] at h; exact Acting.progressTransmit h hid _ _

end Clients

-- ---------------------------------------------------------------------------
-- Receive loops
-- ---------------------------------------------------------------------------

section Listeners

variable {l : Listener}

theorem Acting.iterate (h : Acting g (.listener id) .gone) (hid : g.listener? id = some l)
    (t : Timing) : InOrder (g.iterate id t) := by
  unfold Gateway.iterate
  split
  · exact Acting.listenerSleeps (t := .none) (r := .none) h hid rfl _
  · exact h.listenerProceeds hid _

theorem Acting.seekSlice (h : Acting g (.listener id) .gone) (hid : g.listener? id = some l)
    (deadline slice : Nat) : InOrder (g.seekSlice id deadline slice) := by
  refine ⟨?_, h.fresh.of_listener (by simp) (by simp; rfl) (by simp)⟩
  rw [standing_of_listener (g := g) (by simp) (by simp; rfl), queues_seekSlice, hid]
  have ho := h.orderly.seekRadio (p := .listener id) (by simp [Standing.gone])
    (by simp [Standing.gone])
  rwa [Function.update_idem, Function.update_self] at ho

theorem Acting.nextSlice (h : Acting g (.listener id) .gone) (hid : g.listener? id = some l)
    (deadline : Nat) : InOrder (g.nextSlice id deadline) := by
  unfold Gateway.nextSlice
  split
  · exact h.listenerProceeds hid _
  · exact h.seekSlice hid _ _

theorem Acting.heard (h : Acting g (.listener id) ⟨.none, .has, false⟩)
    (hid : g.listener? id = some l) (t : Timing) (deadline : Nat) (r : Station.Heard) :
    InOrder (g.heard id t deadline r) := by
  have hl := h.leaveRadio
  have hid' : g.leaveRadio.listener? id = some l := by simpa using hid
  unfold Gateway.heard
  simp only
  split
  · exact Acting.listenerProceeds hl hid' _
  · exact Acting.listenerProceeds (hl.congr (by simp) (by simp) (by simp) (by simp))
      (l := l) (by simpa using hid) _
  · exact Acting.listenerSleeps (hl.congr (by simp) (by simp) (by simp) (by simp))
      (l := l) (by simpa using hid) rfl _
  · rename_i reason
    have hs : (ListenerStage.crashed reason).standing = .free := rfl
    exact Acting.listenerRests hl hid' hs (by simp) (by simp) (by simp) (by simp)

theorem Acting.progressListen (h : Acting g (.listener id) ⟨.none, .has, false⟩)
    (hid : g.listener? id = some l) (t : Timing) (deadline : Nat)
    (e : Station.Effect Station (Station.Progress Station.Listening Station.Heard)) :
    InOrder (g.progressListen id t deadline e) := by
  have hs : Acting (g.withStation e.state e.log) (.listener id) ⟨.none, .has, false⟩ :=
    h.congr (by simp) (by simp) (by simp) (by simp)
  unfold Gateway.progressListen
  simp only
  split
  · exact hs.heard (l := l) (by simpa using hid) _ _ _
  · exact hs.listenerSleeps (l := l) (by simpa using hid) rfl _

theorem Acting.listenSlice (h : Acting g (.listener id) ⟨.none, .has, false⟩)
    (hid : g.listener? id = some l) (t : Timing) (deadline slice : Nat) :
    InOrder (g.listenSlice id t deadline slice) := by
  unfold Gateway.listenSlice
  split
  · exact h.progressListen hid _ _ _
  · exact h.leaveRadio.listenerSleeps (l := l) (by simpa using hid) rfl _

theorem Acting.resumeListener (h : Acting g (.listener id) (g.standing (.listener id)).acting) :
    InOrder (g.resumeListener id) := by
  unfold Gateway.resumeListener
  split
  next hid => exact h.idle (by simp [standing, hid])
  next t stage hid =>
    rw [standing_listener hid] at h
    cases stage with
    | starting =>
      exact Acting.iterate (h.congr (by simp) (by simp) (by simp) (by simp)) (l := ⟨t, .starting⟩)
        (by simpa using hid) _
    | proceeding deadline =>
      cases deadline with
      | none => exact Acting.iterate h hid _
      | some deadline => exact Acting.nextSlice h hid _
    | simulating =>
      exact Acting.iterate (h.congr (by simp) (by simp) (by simp) (by simp)) (l := ⟨t, .simulating⟩)
        (by simpa using hid) _
    | waitingRadio deadline slice => exact Acting.listenSlice h hid _ _ _
    | listening deadline s =>
      have hh : Acting g (.listener id) ⟨.none, .has, false⟩ := h
      simp only
      split
      · exact hh.progressListen hid _ _ _
      · exact hh.leaveRadio.listenerSleeps (l := ⟨t, .listening deadline s⟩) (by simpa using hid)
          rfl _
    | idle deadline => exact Acting.nextSlice h hid _
    | backingOff => exact Acting.iterate h hid _
    | crashed reason =>
      exact Acting.listenerSleeps (h.congr (by simp) (by simp) (by simp) (by simp))
        (l := ⟨t, .crashed reason⟩) (by simpa using hid) rfl _
    | restarting =>
      have hs : ListenerStage.starting.standing = .free := rfl
      exact Acting.listenerRests h hid hs (by simp) (by simp) (by simp) (by simp)

end Listeners

-- ---------------------------------------------------------------------------
-- Moves
-- ---------------------------------------------------------------------------

theorem Acting.resume (h : Acting g p (g.standing p).acting) : InOrder (g.resume p) := by
  cases p with
  | client id => exact h.resumeClient
  | listener id => exact h.resumeListener

namespace InOrder

theorem congr (h : InOrder g) (hq : g'.queues = g.queues) (hs : g'.stage? = g.stage?)
    (hl : g'.listener? = g.listener?) (hn : g'.nextId = g.nextId) : InOrder g' := by
  refine ⟨?_, h.fresh.congr hs hl hn⟩
  rw [standing_congr hs hl, hq]
  exact h.orderly

theorem awake_of_goes (h : g.goes p = true) : p ∈ g.awake := by
  simp only [goes, Bool.or_eq_true, decide_eq_true_eq] at h
  simp only [awake, Multiset.mem_add, Multiset.mem_coe]
  exact .inl h

theorem queues_depart (h : g.goes p = true) : (g.depart p).queues = g.queues.begin p := by
  simp only [goes, Bool.or_eq_true, decide_eq_true_eq] at h
  unfold depart
  split
  next hp =>
    have : p ∈ (g.ready : Multiset Party) := hp
    simp only [queues, awake, Queues.begin, ← Multiset.coe_erase]
    rw [Multiset.erase_add_left_pos _ (Multiset.mem_add.mpr (.inl this)),
      Multiset.erase_add_left_pos _ this]
  next hr =>
    have : p ∈ (g.yielding : Multiset Party) := h.resolve_left hr
    simp only [queues, awake, Queues.begin, ← Multiset.coe_erase]
    rw [Multiset.erase_add_left_pos _ (Multiset.mem_add.mpr (.inr this)),
      Multiset.erase_add_right_pos _ this]

theorem acting (h : InOrder g) (hp : g.goes p = true) :
    Acting (g.depart p) p ((g.depart p).standing p).acting := by
  have hst : (g.depart p).standing = g.standing := standing_congr (by simp) (by simp)
  refine ⟨?_, h.fresh.congr (by simp) (by simp) (by simp), rfl⟩
  rw [hst, queues_depart hp]
  exact h.orderly.begin (awake_of_goes hp)

theorem resumeReady (h : InOrder g) (p : Party) : InOrder (g.resumeReady p) := by
  unfold Gateway.resumeReady
  split
  next hp => exact Acting.resume (h.acting hp)
  next => exact h

theorem stage?_next (h : InOrder g) : g.stage? g.nextId = none := by
  by_contra hne
  exact absurd (h.fresh.client _ hne) (Nat.lt_irrefl _)

theorem listener?_next (h : InOrder g) : g.listener? g.nextId = none := by
  by_contra hne
  exact absurd (h.fresh.listener _ hne) (Nat.lt_irrefl _)

theorem join (h : InOrder g) (hp : g.standing p = .gone)
    (hs : g'.standing = update g.standing p .free) (hq : g'.queues = g.queues.wake p)
    (hf : Fresh g') : InOrder g' := by
  refine ⟨?_, hf⟩
  have ho := h.orderly.rest (p := p) (by simp [hp, Standing.gone])
  rw [hs, hq]
  rwa [hp] at ho

theorem arrive (h : InOrder g) (origin : Origin) (manner : Manner) (r : Request) :
    InOrder (g.arrive origin manner r) := by
  have hs := stage?_arrive g origin manner r h.stage?_next
  refine h.join (p := .client g.nextId) (by simp [standing, h.stage?_next])
    (standing_of_client hs (by simp)) ?_ ⟨?_, ?_⟩
  · unfold Gateway.arrive
    rw [queues_wake]
    rfl
  · rw [hs]
    refine (Function.forall_update_iff g.stage? fun x o => o ≠ none → x < _).mpr
      ⟨fun _ => by simp, fun x _ hx => ?_⟩
    have := h.fresh.client x hx
    simp only [arrive_keeps]
    omega
  · intro x hx
    have := h.fresh.listener x (by simpa using hx)
    simp only [arrive_keeps]
    omega

theorem enlist (h : InOrder g) (t : Timing) : InOrder (g.enlist t) := by
  have hl := listener?_enlist g t h.listener?_next
  refine h.join (p := .listener g.nextId) (by simp [standing, h.listener?_next])
    (standing_of_listener (by simp) hl) ?_ ⟨?_, ?_⟩
  · unfold Gateway.enlist
    rw [queues_wake]
    rfl
  · intro x hx
    have := h.fresh.client x (by simpa using hx)
    simp only [enlist_keeps]
    omega
  · rw [hl]
    refine (Function.forall_update_iff g.listener? fun x o => o ≠ none → x < _).mpr
      ⟨fun _ => by simp, fun x _ hx => ?_⟩
    have := h.fresh.listener x hx
    simp only [enlist_keeps]
    omega

/-- A request that is done has left both queues, so it can be forgotten. -/
theorem forget (h : InOrder g) {outcome : Outcome} (hid : g.stage? id = some (.finished outcome)) :
    InOrder (g.forget id) := by
  refine ⟨?_, ?_, by simpa using h.fresh.listener⟩
  · have hs : g.standing (.client id) = .gone := standing_client hid
    rw [standing_of_client (stage?_forget g id) (by simp)]
    rw [show ((none : Option Stage).map Stage.standing).getD .gone =
      g.standing (.client id) from hs.symm, Function.update_eq_self]
    exact h.orderly
  · rw [stage?_forget]
    exact (Function.forall_update_iff g.stage? fun x o => o ≠ none → x < g.nextId).mpr
      ⟨by simp, fun x _ => h.fresh.client x⟩

/-- Time only makes sleepers ready. -/
theorem awake_elapse (g : Gateway) (clock : Nat) : (g.elapse clock).awake = g.awake := by
  have hsplit : List.Perm ((g.asleep.filter fun s => s.1 ≤ clock).map Prod.snd ++
      (g.asleep.filter fun s => clock < s.1).map Prod.snd) (g.asleep.map Prod.snd) := by
    have hlt : (fun s : Nat × Party => decide (clock < s.1)) = fun s => !decide (s.1 ≤ clock) := by
      funext s; by_cases hs : s.1 ≤ clock <;> simp [hs]; omega
    rw [← List.map_append, hlt]
    exact (List.filter_append_perm (fun s => decide (s.1 ≤ clock)) g.asleep).map Prod.snd
  have hwoken (l : List Party) :
      List.Perm (l.filter g.inForeground ++ l.filter (fun p => !g.inForeground p)) l :=
    List.filter_append_perm _ l
  have hcoe := Multiset.coe_eq_coe.mpr hsplit
  have hcoe' := Multiset.coe_eq_coe.mpr
    (hwoken ((g.asleep.filter fun s => s.1 ≤ clock).map Prod.snd))
  simp only [← Multiset.coe_add] at hcoe hcoe'
  simp only [awake, elapse, ← Multiset.coe_add]
  rw [← hcoe, ← hcoe']
  abel

theorem elapse (h : InOrder g) (clock : Nat) : InOrder (g.elapse clock) := by
  refine h.congr ?_ (by simp) (by simp) (by simp)
  rw [queues, awake_elapse]
  rfl

theorem dismiss (h : InOrder g) (id : Nat) : InOrder (g.dismiss id) := by
  cases hl : g.listener? id with
  | none => simpa [Gateway.dismiss, hl] using h
  | some l =>
    have hst : g.standing (.listener id) = l.stage.standing := standing_listener hl
    have hnone : (g.standing (.listener id)).turn = .none := by
      rw [hst]; cases l.stage <;> rfl
    have hactive : (g.standing (.listener id)).active = true := by
      rw [hst]; cases l.stage <;> rfl
    have ho := h.orderly.dismiss hnone hactive
    refine ⟨?_, by simpa using h.fresh.client, ?_⟩
    · rw [standing_of_listener (by simp) (listener?_dismiss g id)]
      have hq : (g.dismiss id).queues = g.queues.dismiss (.listener id) := by
        simp only [Gateway.dismiss, hl, queues_note, queues_wakeHolder, Queues.dismiss]
        congr 1
        simp only [queues, awake, Multiset.filter_add, Multiset.filter_coe, List.filter_map]
        rfl
      rw [hq]
      exact ho
    · rw [listener?_dismiss, (dismiss_keeps g id).2.2.2.2.2.1]
      exact (Function.forall_update_iff g.listener? fun x o => o ≠ none → x < g.nextId).mpr
        ⟨by simp, fun x _ => h.fresh.listener x⟩

theorem after (h : InOrder g) (m : Move) : InOrder (g.after m) := by
  cases m with
  | arrive origin manner r => exact h.arrive origin manner r
  | resume p => exact h.resumeReady p
  | elapse ms => exact h.elapse _
  | forget id =>
    unfold Gateway.after
    simp only
    split
    · rename_i hout
      obtain ⟨outcome, ho⟩ := Option.isSome_iff_exists.mp hout
      exact h.forget ((outcome?_eq_some g id).mp ho)
    · exact h
  | poll => exact h.congr rfl rfl rfl rfl
  | enlist t => exact h.enlist t
  | dismiss id => exact h.dismiss id
  | stimulate s => exact h.congr rfl rfl rfl rfl
  | relog news => exact h.congr rfl rfl rfl rfl

theorem through (h : InOrder g) (moves : List Move) : InOrder (g.through moves) := by
  induction moves generalizing g with
  | nil => exact h
  | cons m moves ih => exact ih (h.after m)

end InOrder

theorem inOrder_start (backend : Station.Backend) (bench : Station.Bench) (capacity epoch : Nat) :
    InOrder (start backend bench capacity epoch) := by
  have hσ : (start backend bench capacity epoch).standing = fun _ => .gone := by
    funext p; cases p <;> rfl
  refine ⟨?_, ⟨fun id h => absurd rfl h, fun id h => absurd rfl h⟩⟩
  have hempty : Lock.Serves {} fun _ => Claim.none :=
    ⟨fun _ => rfl, List.nodup_nil, fun p => by simp [Lock.parties], fun p hp => by cases hp⟩
  rw [hσ]
  refine ⟨hempty, hempty, Multiset.nodup_zero, fun p => ?_, ?_, ?_⟩
  · simp [queues, awake, start, Queues.LetsGo, Standing.gone]
  · rintro p ⟨⟩
  · rintro p ⟨⟩

-- ---------------------------------------------------------------------------
-- The others stay where they are
-- ---------------------------------------------------------------------------

theorem stage?_resumeClient (g : Gateway) {other : Nat} (hne : other ≠ id) :
    (g.resumeClient id).stage? other = g.stage? other := by
  have hopened (g : Gateway) (c : Radio.Config) (r : Except Radio.RadioError Station.Device) :
      (g.opened id c r).stage? other = g.stage? other := by
    cases r <;> simp [opened, commit, hne]
  unfold resumeClient
  split
  · rfl
  · rfl
  · simp [hne]
  · simp [hne]
  · simp [hne]
  · unfold takeTurn
    split
    · simp only
      split <;> simp [hne]
    · simp [hne]
  · rename_i errand _
    cases errand with
    | attach c =>
      simp only [useRadio]
      split
      · simp [hopened]
      · simp [hne]
    | confirm e => simp [useRadio, giveUp, hne]
    | detach => simp [useRadio, hne]
    | send payload =>
      simp only [useRadio, progressTransmit, transmitted]
      split
      · split <;> simp [hne]
      · simp [hne]
  · simp [hopened]
  · simp only [progressTransmit, transmitted]
    split
    · split <;> simp [hne]
    · simp [hne]

theorem stage?_resumeListener (g : Gateway) (id : Nat) :
    (g.resumeListener id).stage? = g.stage? := by
  have hheard (g : Gateway) (t : Timing) (deadline : Nat) (r : Station.Heard) :
      (g.heard id t deadline r).stage? = g.stage? := by
    unfold heard
    simp only
    split <;> simp
  have hlisten (g : Gateway) (t : Timing) (deadline : Nat)
      (e : Station.Effect Station (Station.Progress Station.Listening Station.Heard)) :
      (g.progressListen id t deadline e).stage? = g.stage? := by
    unfold progressListen
    simp only
    split
    · simp [hheard]
    · simp
  unfold resumeListener
  split
  · rfl
  · rename_i t stage _
    cases stage with
    | proceeding deadline => cases deadline <;> simp
    | waitingRadio deadline slice =>
      simp only [listenSlice]
      split
      · exact hlisten _ _ _ _
      · simp
    | listening deadline l =>
      simp only
      split
      · exact hlisten _ _ _ _
      · simp
    | starting | simulating | idle | backingOff | crashed | restarting => simp

/-- A request stays where it is until it goes on itself, and then until it is collected. -/
theorem InOrder.stage?_after {k : Stage} {m : Move} (ho : InOrder g) (hid : g.stage? id = some k)
    (hk : k.isFinished = false) (hm : m ≠ .resume (.client id)) :
    (g.after m).stage? id = some k := by
  cases m with
  | arrive origin manner r =>
    have hne : id ≠ g.nextId := by
      rintro rfl
      rw [ho.stage?_next] at hid
      cases hid
    simp only [Gateway.after, stage?_arrive g origin manner r ho.stage?_next,
      Function.update_of_ne hne, hid]
  | resume p =>
    cases hp : g.goes p with
    | false => rwa [after_resume_of_not_goes hp]
    | true =>
      rw [after_resume hp]
      cases p with
      | listener other => simpa [Gateway.resume, stage?_resumeListener] using hid
      | client other =>
        have hne : id ≠ other := fun he => hm (he ▸ rfl)
        simpa [Gateway.resume, stage?_resumeClient _ hne] using hid
  | forget other =>
    simp only [Gateway.after]
    split
    · rename_i hout
      obtain ⟨outcome, hother⟩ := Option.isSome_iff_exists.mp hout
      have hne : id ≠ other := by
        rintro rfl
        cases hid.symm.trans ((outcome?_eq_some g id).mp hother)
        cases hk
      rw [stage?_forget, Function.update_of_ne hne, hid]
    · exact hid
  | elapse | poll | stimulate | relog => exact hid
  | enlist | dismiss => simpa [Gateway.after] using hid

end RadioGateway.Gateway
