import Mathlib.Logic.Function.Basic
import RadioGateway.Proofs.Moves

/-!
# What the parts of a step leave alone

The parts that steps are made of change a field or two of a gateway and keep the others. Each lemma
lists the fields that its part keeps, and what becomes of the one it changes.
-/

namespace RadioGateway.Gateway

open Function (update)
open RadioGateway.Log (Event)

variable (g : Gateway) (id : Nat) (p : Party)

-- ---------------------------------------------------------------------------
-- Who goes on
-- ---------------------------------------------------------------------------

@[simp] theorem note_keeps (events : List Event) :
    (g.note events).station = g.station ∧ (g.note events).inbox = g.inbox ∧
    (g.note events).link = g.link ∧ (g.note events).turn = g.turn ∧
    (g.note events).radio = g.radio ∧ (g.note events).clients = g.clients ∧
    (g.note events).listeners = g.listeners ∧ (g.note events).nextId = g.nextId ∧
    (g.note events).clock = g.clock ∧ (g.note events).epoch = g.epoch ∧
    (g.note events).stage? = g.stage? ∧ (g.note events).listener? = g.listener? := by
  exact ⟨rfl, rfl, rfl, rfl, rfl, rfl, rfl, rfl, rfl, rfl, rfl, rfl⟩

@[simp] theorem wake_keeps :
    (g.wake p).station = g.station ∧ (g.wake p).inbox = g.inbox ∧ (g.wake p).link = g.link ∧
    (g.wake p).turn = g.turn ∧ (g.wake p).radio = g.radio ∧ (g.wake p).clients = g.clients ∧
    (g.wake p).listeners = g.listeners ∧ (g.wake p).nextId = g.nextId ∧ (g.wake p).clock = g.clock ∧
    (g.wake p).epoch = g.epoch ∧ (g.wake p).stage? = g.stage? ∧
    (g.wake p).listener? = g.listener? := by
  unfold wake
  split <;> exact ⟨rfl, rfl, rfl, rfl, rfl, rfl, rfl, rfl, rfl, rfl, rfl, rfl⟩

theorem goes_wake : (g.wake p).goes p = true := by
  unfold wake
  split <;> simp [goes]

@[simp] theorem goOn_keeps :
    (g.goOn p).station = g.station ∧ (g.goOn p).inbox = g.inbox ∧ (g.goOn p).link = g.link ∧
    (g.goOn p).turn = g.turn ∧ (g.goOn p).radio = g.radio ∧ (g.goOn p).clients = g.clients ∧
    (g.goOn p).listeners = g.listeners ∧ (g.goOn p).nextId = g.nextId ∧ (g.goOn p).clock = g.clock ∧
    (g.goOn p).epoch = g.epoch ∧ (g.goOn p).stage? = g.stage? ∧
    (g.goOn p).listener? = g.listener? := by
  exact ⟨rfl, rfl, rfl, rfl, rfl, rfl, rfl, rfl, rfl, rfl, rfl, rfl⟩

@[simp] theorem sleep_keeps (ms : Nat) :
    (g.sleep p ms).station = g.station ∧ (g.sleep p ms).inbox = g.inbox ∧
    (g.sleep p ms).link = g.link ∧ (g.sleep p ms).turn = g.turn ∧ (g.sleep p ms).radio = g.radio ∧
    (g.sleep p ms).clients = g.clients ∧ (g.sleep p ms).listeners = g.listeners ∧
    (g.sleep p ms).nextId = g.nextId ∧ (g.sleep p ms).clock = g.clock ∧
    (g.sleep p ms).epoch = g.epoch ∧ (g.sleep p ms).stage? = g.stage? ∧
    (g.sleep p ms).listener? = g.listener? := by
  unfold sleep
  split <;> exact ⟨rfl, rfl, rfl, rfl, rfl, rfl, rfl, rfl, rfl, rfl, rfl, rfl⟩

@[simp] theorem wakeHolder_keeps (o : Option Party) :
    (g.wakeHolder o).station = g.station ∧ (g.wakeHolder o).inbox = g.inbox ∧
    (g.wakeHolder o).link = g.link ∧ (g.wakeHolder o).turn = g.turn ∧
    (g.wakeHolder o).radio = g.radio ∧ (g.wakeHolder o).clients = g.clients ∧
    (g.wakeHolder o).listeners = g.listeners ∧ (g.wakeHolder o).nextId = g.nextId ∧
    (g.wakeHolder o).clock = g.clock ∧ (g.wakeHolder o).epoch = g.epoch ∧
    (g.wakeHolder o).stage? = g.stage? ∧ (g.wakeHolder o).listener? = g.listener? := by
  cases o with
  | none => exact ⟨rfl, rfl, rfl, rfl, rfl, rfl, rfl, rfl, rfl, rfl, rfl, rfl⟩
  | some p => exact g.wake_keeps p

-- ---------------------------------------------------------------------------
-- One field
-- ---------------------------------------------------------------------------

@[simp] theorem withStation_keeps (s : Station) (events : List Event) :
    (g.withStation s events).station = s ∧ (g.withStation s events).inbox = g.inbox ∧
    (g.withStation s events).link = g.link ∧ (g.withStation s events).turn = g.turn ∧
    (g.withStation s events).radio = g.radio ∧ (g.withStation s events).clients = g.clients ∧
    (g.withStation s events).listeners = g.listeners ∧ (g.withStation s events).nextId = g.nextId ∧
    (g.withStation s events).clock = g.clock ∧ (g.withStation s events).epoch = g.epoch ∧
    (g.withStation s events).stage? = g.stage? ∧
    (g.withStation s events).listener? = g.listener? := by
  exact ⟨rfl, rfl, rfl, rfl, rfl, rfl, rfl, rfl, rfl, rfl, rfl, rfl⟩

@[simp] theorem withInbox_keeps (inbox : Inbox) :
    (g.withInbox inbox).station = g.station ∧ (g.withInbox inbox).inbox = inbox ∧
    (g.withInbox inbox).link = g.link ∧ (g.withInbox inbox).turn = g.turn ∧
    (g.withInbox inbox).radio = g.radio ∧ (g.withInbox inbox).clients = g.clients ∧
    (g.withInbox inbox).listeners = g.listeners ∧ (g.withInbox inbox).nextId = g.nextId ∧
    (g.withInbox inbox).clock = g.clock ∧ (g.withInbox inbox).epoch = g.epoch ∧
    (g.withInbox inbox).stage? = g.stage? ∧ (g.withInbox inbox).listener? = g.listener? := by
  exact ⟨rfl, rfl, rfl, rfl, rfl, rfl, rfl, rfl, rfl, rfl, rfl, rfl⟩

@[simp] theorem withLink_keeps (link : Link) :
    (g.withLink link).station = g.station ∧ (g.withLink link).inbox = g.inbox ∧
    (g.withLink link).link = link ∧ (g.withLink link).turn = g.turn ∧
    (g.withLink link).radio = g.radio ∧ (g.withLink link).clients = g.clients ∧
    (g.withLink link).listeners = g.listeners ∧ (g.withLink link).nextId = g.nextId ∧
    (g.withLink link).clock = g.clock ∧ (g.withLink link).epoch = g.epoch ∧
    (g.withLink link).stage? = g.stage? ∧ (g.withLink link).listener? = g.listener? := by
  exact ⟨rfl, rfl, rfl, rfl, rfl, rfl, rfl, rfl, rfl, rfl, rfl, rfl⟩

@[simp] theorem withTurn_keeps (turn : Lock) :
    (g.withTurn turn).station = g.station ∧ (g.withTurn turn).inbox = g.inbox ∧
    (g.withTurn turn).link = g.link ∧ (g.withTurn turn).turn = turn ∧
    (g.withTurn turn).radio = g.radio ∧ (g.withTurn turn).clients = g.clients ∧
    (g.withTurn turn).listeners = g.listeners ∧ (g.withTurn turn).nextId = g.nextId ∧
    (g.withTurn turn).clock = g.clock ∧ (g.withTurn turn).epoch = g.epoch ∧
    (g.withTurn turn).stage? = g.stage? ∧ (g.withTurn turn).listener? = g.listener? := by
  exact ⟨rfl, rfl, rfl, rfl, rfl, rfl, rfl, rfl, rfl, rfl, rfl, rfl⟩

@[simp] theorem withRadio_keeps (radio : Lock) :
    (g.withRadio radio).station = g.station ∧ (g.withRadio radio).inbox = g.inbox ∧
    (g.withRadio radio).link = g.link ∧ (g.withRadio radio).turn = g.turn ∧
    (g.withRadio radio).radio = radio ∧ (g.withRadio radio).clients = g.clients ∧
    (g.withRadio radio).listeners = g.listeners ∧ (g.withRadio radio).nextId = g.nextId ∧
    (g.withRadio radio).clock = g.clock ∧ (g.withRadio radio).epoch = g.epoch ∧
    (g.withRadio radio).stage? = g.stage? ∧ (g.withRadio radio).listener? = g.listener? := by
  exact ⟨rfl, rfl, rfl, rfl, rfl, rfl, rfl, rfl, rfl, rfl, rfl, rfl⟩

-- ---------------------------------------------------------------------------
-- Locks
-- ---------------------------------------------------------------------------

@[simp] theorem leaveRadio_keeps :
    (g.leaveRadio).station = g.station ∧ (g.leaveRadio).inbox = g.inbox ∧
    (g.leaveRadio).link = g.link ∧ (g.leaveRadio).turn = g.turn ∧
    (g.leaveRadio).radio = g.radio.release.1 ∧ (g.leaveRadio).clients = g.clients ∧
    (g.leaveRadio).listeners = g.listeners ∧ (g.leaveRadio).nextId = g.nextId ∧
    (g.leaveRadio).clock = g.clock ∧ (g.leaveRadio).epoch = g.epoch ∧
    (g.leaveRadio).stage? = g.stage? ∧ (g.leaveRadio).listener? = g.listener? := by
  simp [leaveRadio]

@[simp] theorem leaveTurn_keeps :
    (g.leaveTurn).station = g.station ∧ (g.leaveTurn).inbox = g.inbox ∧
    (g.leaveTurn).link = g.link ∧ (g.leaveTurn).turn = g.turn.release.1 ∧
    (g.leaveTurn).radio = g.radio ∧ (g.leaveTurn).clients = g.clients ∧
    (g.leaveTurn).listeners = g.listeners ∧ (g.leaveTurn).nextId = g.nextId ∧
    (g.leaveTurn).clock = g.clock ∧ (g.leaveTurn).epoch = g.epoch ∧
    (g.leaveTurn).stage? = g.stage? ∧ (g.leaveTurn).listener? = g.listener? := by
  simp [leaveTurn]

-- ---------------------------------------------------------------------------
-- Stages
-- ---------------------------------------------------------------------------

@[simp] theorem setStage_keeps (stage : Stage) :
    (g.setStage id stage).station = g.station ∧ (g.setStage id stage).inbox = g.inbox ∧
    (g.setStage id stage).link = g.link ∧ (g.setStage id stage).turn = g.turn ∧
    (g.setStage id stage).radio = g.radio ∧ (g.setStage id stage).listeners = g.listeners ∧
    (g.setStage id stage).nextId = g.nextId ∧ (g.setStage id stage).clock = g.clock ∧
    (g.setStage id stage).epoch = g.epoch ∧ (g.setStage id stage).listener? = g.listener? := by
  exact ⟨rfl, rfl, rfl, rfl, rfl, rfl, rfl, rfl, rfl, rfl⟩

@[simp] theorem setListener_keeps (stage : ListenerStage) :
    (g.setListener id stage).station = g.station ∧ (g.setListener id stage).inbox = g.inbox ∧
    (g.setListener id stage).link = g.link ∧ (g.setListener id stage).turn = g.turn ∧
    (g.setListener id stage).radio = g.radio ∧ (g.setListener id stage).clients = g.clients ∧
    (g.setListener id stage).nextId = g.nextId ∧ (g.setListener id stage).clock = g.clock ∧
    (g.setListener id stage).epoch = g.epoch ∧ (g.setListener id stage).stage? = g.stage? := by
  exact ⟨rfl, rfl, rfl, rfl, rfl, rfl, rfl, rfl, rfl, rfl⟩

theorem lookup_map_set {α : Type} (l : List (Nat × α)) (f : α → α) (other : Nat) :
    (l.map fun e => (e.1, if e.1 = id then f e.2 else e.2)).lookup other =
      (l.lookup other).map fun a => if other = id then f a else a := by
  induction l with
  | nil => rfl
  | cons e rest ih =>
    obtain ⟨k, a⟩ := e
    rw [List.map_cons, List.lookup_cons, List.lookup_cons, ih]
    cases h : other == k with
    | true => rw [eq_of_beq h]; rfl
    | false => rfl

theorem lookup_filter_ne {α : Type} (l : List (Nat × α)) (other : Nat) :
    (l.filter fun e => e.1 ≠ id).lookup other = if other = id then none else l.lookup other := by
  induction l with
  | nil => simp
  | cons e rest ih =>
    obtain ⟨k, a⟩ := e
    rw [List.lookup_cons]
    by_cases hk : k = id
    · rw [List.filter_cons_of_neg (by simp [hk]), ih, hk]
      cases h : other == id with
      | true => simp [eq_of_beq h]
      | false => rfl
    · rw [List.filter_cons_of_pos (by simp [hk]), List.lookup_cons, ih]
      cases h : other == k with
      | true => simp [eq_of_beq h, hk]
      | false => rfl

theorem client?_setStage (stage : Stage) (other : Nat) :
    (g.setStage id stage).client? other =
      (g.client? other).map fun c => if other = id then { c with stage } else c :=
  lookup_map_set id g.clients (fun c => { c with stage }) other

@[simp] theorem stage?_setStage (stage : Stage) :
    (g.setStage id stage).stage? = update g.stage? id ((g.stage? id).map fun _ => stage) := by
  funext other
  rw [stage?, client?_setStage]
  by_cases h : other = id
  · subst h; cases hc : g.client? other <;> simp [stage?, hc]
  · cases hc : g.client? other <;> simp [stage?, hc, h]

@[simp] theorem listener?_setListener (stage : ListenerStage) :
    (g.setListener id stage).listener? =
      update g.listener? id ((g.listener? id).map fun l => { l with stage }) := by
  funext other
  refine (lookup_map_set id g.listeners (fun l => { l with stage }) other).trans ?_
  by_cases h : other = id
  · subst h; simp [listener?]
  · cases hl : g.listeners.lookup other <;> simp [listener?, hl, h]

@[simp] theorem stage?_forget : (g.forget id).stage? = update g.stage? id none := by
  funext other
  unfold stage? client? forget
  rw [lookup_filter_ne]
  by_cases h : other = id <;> simp [h]

-- ---------------------------------------------------------------------------
-- The ends of steps
-- ---------------------------------------------------------------------------

@[simp] theorem finish_keeps (outcome : Outcome) :
    (g.finish id outcome).station = g.station ∧ (g.finish id outcome).inbox = g.inbox ∧
    (g.finish id outcome).link = g.link ∧ (g.finish id outcome).turn = g.turn ∧
    (g.finish id outcome).radio = g.radio ∧ (g.finish id outcome).listeners = g.listeners ∧
    (g.finish id outcome).nextId = g.nextId ∧ (g.finish id outcome).clock = g.clock ∧
    (g.finish id outcome).epoch = g.epoch ∧
    (g.finish id outcome).stage? =
      update g.stage? id ((g.stage? id).map fun _ => .finished outcome) ∧
    (g.finish id outcome).listener? = g.listener? := by
  simp [finish]

theorem seekTurn_eq (r : Request) :
    g.seekTurn id r =
      let asked := (g.withTurn (g.turn.acquire (.client id)).1).setStage id (.waitingTurn r)
      if (g.turn.acquire (.client id)).2 then asked.goOn (.client id) else asked := rfl

theorem seekRadio_eq (e : Errand) :
    g.seekRadio id e =
      let asked := (g.withRadio (g.radio.acquire (.client id)).1).setStage id (.waitingRadio e)
      if (g.radio.acquire (.client id)).2 then asked.goOn (.client id) else asked := rfl

@[simp] theorem seekTurn_keeps (r : Request) :
    (g.seekTurn id r).station = g.station ∧ (g.seekTurn id r).inbox = g.inbox ∧
    (g.seekTurn id r).link = g.link ∧ (g.seekTurn id r).turn = (g.turn.acquire (.client id)).1 ∧
    (g.seekTurn id r).radio = g.radio ∧ (g.seekTurn id r).listeners = g.listeners ∧
    (g.seekTurn id r).nextId = g.nextId ∧ (g.seekTurn id r).clock = g.clock ∧
    (g.seekTurn id r).epoch = g.epoch ∧
    (g.seekTurn id r).stage? = update g.stage? id ((g.stage? id).map fun _ => .waitingTurn r) ∧
    (g.seekTurn id r).listener? = g.listener? := by
  rw [seekTurn_eq]
  split <;> simp

@[simp] theorem seekRadio_keeps (e : Errand) :
    (g.seekRadio id e).station = g.station ∧ (g.seekRadio id e).inbox = g.inbox ∧
    (g.seekRadio id e).link = g.link ∧ (g.seekRadio id e).turn = g.turn ∧
    (g.seekRadio id e).radio = (g.radio.acquire (.client id)).1 ∧
    (g.seekRadio id e).listeners = g.listeners ∧ (g.seekRadio id e).nextId = g.nextId ∧
    (g.seekRadio id e).clock = g.clock ∧ (g.seekRadio id e).epoch = g.epoch ∧
    (g.seekRadio id e).stage? = update g.stage? id ((g.stage? id).map fun _ => .waitingRadio e) ∧
    (g.seekRadio id e).listener? = g.listener? := by
  rw [seekRadio_eq]
  split <;> simp

@[simp] theorem listenerSleeps_keeps (stage : ListenerStage) (ms : Nat) :
    (g.listenerSleeps id stage ms).station = g.station ∧
    (g.listenerSleeps id stage ms).inbox = g.inbox ∧ (g.listenerSleeps id stage ms).link = g.link ∧
    (g.listenerSleeps id stage ms).turn = g.turn ∧ (g.listenerSleeps id stage ms).radio = g.radio ∧
    (g.listenerSleeps id stage ms).clients = g.clients ∧
    (g.listenerSleeps id stage ms).nextId = g.nextId ∧
    (g.listenerSleeps id stage ms).clock = g.clock ∧
    (g.listenerSleeps id stage ms).epoch = g.epoch ∧
    (g.listenerSleeps id stage ms).stage? = g.stage? ∧
    (g.listenerSleeps id stage ms).listener? =
      update g.listener? id ((g.listener? id).map fun l => { l with stage }) := by
  simp [listenerSleeps]

@[simp] theorem listenerProceeds_keeps (deadline : Option Nat) :
    (g.listenerProceeds id deadline).station = g.station ∧
    (g.listenerProceeds id deadline).inbox = g.inbox ∧
    (g.listenerProceeds id deadline).link = g.link ∧
    (g.listenerProceeds id deadline).turn = g.turn ∧
    (g.listenerProceeds id deadline).radio = g.radio ∧
    (g.listenerProceeds id deadline).clients = g.clients ∧
    (g.listenerProceeds id deadline).nextId = g.nextId ∧
    (g.listenerProceeds id deadline).clock = g.clock ∧
    (g.listenerProceeds id deadline).epoch = g.epoch ∧
    (g.listenerProceeds id deadline).stage? = g.stage? ∧
    (g.listenerProceeds id deadline).listener? =
      update g.listener? id ((g.listener? id).map fun l =>
        { l with stage := .proceeding deadline }) := by
  simp [listenerProceeds]

theorem seekSlice_eq (deadline slice : Nat) :
    g.seekSlice id deadline slice =
      let asked := (g.withRadio (g.radio.acquire (.listener id)).1).setListener id
        (.waitingRadio deadline slice)
      if (g.radio.acquire (.listener id)).2 then asked.goOn (.listener id) else asked := rfl

@[simp] theorem seekSlice_keeps (deadline slice : Nat) :
    (g.seekSlice id deadline slice).station = g.station ∧
    (g.seekSlice id deadline slice).inbox = g.inbox ∧
    (g.seekSlice id deadline slice).link = g.link ∧ (g.seekSlice id deadline slice).turn = g.turn ∧
    (g.seekSlice id deadline slice).radio = (g.radio.acquire (.listener id)).1 ∧
    (g.seekSlice id deadline slice).clients = g.clients ∧
    (g.seekSlice id deadline slice).nextId = g.nextId ∧
    (g.seekSlice id deadline slice).clock = g.clock ∧
    (g.seekSlice id deadline slice).epoch = g.epoch ∧
    (g.seekSlice id deadline slice).stage? = g.stage? ∧
    (g.seekSlice id deadline slice).listener? = update g.listener? id
      ((g.listener? id).map fun l => { l with stage := .waitingRadio deadline slice }) := by
  rw [seekSlice_eq]
  split <;> simp

@[simp] theorem iterate_keeps (t : Timing) :
    (g.iterate id t).station = g.station ∧ (g.iterate id t).inbox = g.inbox ∧
    (g.iterate id t).link = g.link ∧ (g.iterate id t).turn = g.turn ∧
    (g.iterate id t).radio = g.radio ∧ (g.iterate id t).clients = g.clients ∧
    (g.iterate id t).nextId = g.nextId ∧ (g.iterate id t).clock = g.clock ∧
    (g.iterate id t).epoch = g.epoch ∧ (g.iterate id t).stage? = g.stage? := by
  unfold iterate
  split <;> simp

@[simp] theorem nextSlice_keeps (deadline : Nat) :
    (g.nextSlice id deadline).station = g.station ∧ (g.nextSlice id deadline).inbox = g.inbox ∧
    (g.nextSlice id deadline).link = g.link ∧ (g.nextSlice id deadline).turn = g.turn ∧
    (g.nextSlice id deadline).clients = g.clients ∧ (g.nextSlice id deadline).nextId = g.nextId ∧
    (g.nextSlice id deadline).clock = g.clock ∧ (g.nextSlice id deadline).epoch = g.epoch ∧
    (g.nextSlice id deadline).stage? = g.stage? := by
  unfold nextSlice
  split <;> simp

theorem outcome?_eq_some {o : Outcome} :
    g.outcome? id = some o ↔ g.stage? id = some (.finished o) := by
  unfold outcome?
  split
  · rename_i hid; simp [hid]
  · rename_i hid
    exact ⟨nofun, fun h => absurd h (hid o)⟩

-- ---------------------------------------------------------------------------
-- Coming and going
-- ---------------------------------------------------------------------------

theorem lookup_snoc {α : Type} {l : List (Nat × α)} (h : l.lookup id = none) (a : α) :
    (fun other => (l ++ [(id, a)]).lookup other) =
      update (fun other => l.lookup other) id (some a) := by
  funext other
  simp only [List.lookup_append]
  by_cases ho : other = id
  · subst ho; simp [h]
  · have : (other == id) = false := by simpa using ho
    simp [List.lookup_cons, this, ho]

@[simp] theorem arrive_keeps (origin : Origin) (manner : Manner) (r : Request) :
    (g.arrive origin manner r).station = g.station ∧ (g.arrive origin manner r).inbox = g.inbox ∧
    (g.arrive origin manner r).link = g.link ∧ (g.arrive origin manner r).turn = g.turn ∧
    (g.arrive origin manner r).radio = g.radio ∧
    (g.arrive origin manner r).listeners = g.listeners ∧
    (g.arrive origin manner r).nextId = g.nextId + 1 ∧
    (g.arrive origin manner r).clock = g.clock ∧ (g.arrive origin manner r).epoch = g.epoch ∧
    (g.arrive origin manner r).listener? = g.listener? := by
  simp [arrive]
  rfl

theorem stage?_arrive (origin : Origin) (manner : Manner) (r : Request)
    (h : g.stage? g.nextId = none) :
    (g.arrive origin manner r).stage? = update g.stage? g.nextId (some (.arrived r)) := by
  have hc : g.clients.lookup g.nextId = none := by simpa [stage?, client?] using h
  unfold arrive
  rw [(wake_keeps _ _).2.2.2.2.2.2.2.2.2.2.1]
  funext other
  have := congrFun (lookup_snoc g.nextId hc ⟨origin, manner, .arrived r⟩) other
  simp only [stage?, client?, this]
  by_cases ho : other = g.nextId
  · simp [ho]
  · simp only [Function.update_of_ne ho]; rfl

@[simp] theorem enlist_keeps (t : Timing) :
    (g.enlist t).station = g.station ∧ (g.enlist t).inbox = g.inbox ∧ (g.enlist t).link = g.link ∧
    (g.enlist t).turn = g.turn ∧ (g.enlist t).radio = g.radio ∧ (g.enlist t).clients = g.clients ∧
    (g.enlist t).nextId = g.nextId + 1 ∧ (g.enlist t).clock = g.clock ∧
    (g.enlist t).epoch = g.epoch ∧ (g.enlist t).stage? = g.stage? := by
  simp [enlist]
  rfl

theorem listener?_enlist (t : Timing) (h : g.listener? g.nextId = none) :
    (g.enlist t).listener? = update g.listener? g.nextId (some ⟨t, .starting⟩) := by
  unfold enlist
  rw [(wake_keeps _ _).2.2.2.2.2.2.2.2.2.2.2]
  exact lookup_snoc g.nextId h ⟨t, .starting⟩

@[simp] theorem elapse_keeps (clock : Nat) :
    (g.elapse clock).station = g.station ∧ (g.elapse clock).inbox = g.inbox ∧
    (g.elapse clock).link = g.link ∧ (g.elapse clock).turn = g.turn ∧
    (g.elapse clock).radio = g.radio ∧ (g.elapse clock).clients = g.clients ∧
    (g.elapse clock).listeners = g.listeners ∧ (g.elapse clock).nextId = g.nextId ∧
    (g.elapse clock).epoch = g.epoch ∧ (g.elapse clock).stage? = g.stage? ∧
    (g.elapse clock).listener? = g.listener? := by
  exact ⟨rfl, rfl, rfl, rfl, rfl, rfl, rfl, rfl, rfl, rfl, rfl⟩

@[simp] theorem depart_keeps :
    (g.depart p).station = g.station ∧ (g.depart p).inbox = g.inbox ∧ (g.depart p).link = g.link ∧
    (g.depart p).turn = g.turn ∧ (g.depart p).radio = g.radio ∧ (g.depart p).clients = g.clients ∧
    (g.depart p).listeners = g.listeners ∧ (g.depart p).nextId = g.nextId ∧
    (g.depart p).clock = g.clock ∧ (g.depart p).epoch = g.epoch ∧ (g.depart p).stage? = g.stage? ∧
    (g.depart p).listener? = g.listener? := by
  unfold depart
  split <;> exact ⟨rfl, rfl, rfl, rfl, rfl, rfl, rfl, rfl, rfl, rfl, rfl, rfl⟩

@[simp] theorem forget_keeps :
    (g.forget id).station = g.station ∧ (g.forget id).inbox = g.inbox ∧
    (g.forget id).link = g.link ∧ (g.forget id).turn = g.turn ∧ (g.forget id).radio = g.radio ∧
    (g.forget id).listeners = g.listeners ∧ (g.forget id).nextId = g.nextId ∧
    (g.forget id).clock = g.clock ∧ (g.forget id).epoch = g.epoch ∧
    (g.forget id).listener? = g.listener? := by
  exact ⟨rfl, rfl, rfl, rfl, rfl, rfl, rfl, rfl, rfl, rfl⟩

@[simp] theorem dismiss_keeps :
    (g.dismiss id).station = g.station ∧ (g.dismiss id).inbox = g.inbox ∧
    (g.dismiss id).link = g.link ∧ (g.dismiss id).turn = g.turn ∧
    (g.dismiss id).clients = g.clients ∧ (g.dismiss id).nextId = g.nextId ∧
    (g.dismiss id).clock = g.clock ∧ (g.dismiss id).epoch = g.epoch ∧
    (g.dismiss id).stage? = g.stage? := by
  unfold dismiss
  split
  · exact ⟨rfl, rfl, rfl, rfl, rfl, rfl, rfl, rfl, rfl⟩
  · simp
    rfl

@[simp] theorem listener?_dismiss : (g.dismiss id).listener? = update g.listener? id none := by
  unfold dismiss
  split
  · rename_i h
    rw [← h, Function.update_eq_self]
  · simp only [note_keeps, wakeHolder_keeps]
    funext other
    simp only [listener?, lookup_filter_ne]
    by_cases h : other = id
    · simp [h]
    · simp only [h, if_false, Function.update_of_ne h]; rfl

end RadioGateway.Gateway
