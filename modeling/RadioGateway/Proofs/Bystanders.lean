import RadioGateway.Proofs.Attachment
import RadioGateway.Proofs.Order

/-!
# Bystanders

The link, the turn and the configuration of the driver are the business of connects and disconnects
alone. Every other step leaves them as they are, and with them every request that waits for its turn
or has it.
-/

namespace RadioGateway.Gateway

open Function (update)
open RadioGateway.Station (SameDriver)

structure Aside (g g' : Gateway) : Prop where
  link : g'.link = g.link
  turn : g'.turn = g.turn
  station : SameDriver g.station g'.station
  stage : ∀ id k, g.stage? id = some k → k.standing.turn ≠ .none → g'.stage? id = some k

variable {g g' g'' : Gateway} {id : Nat}

namespace Aside

theorem trans (h : Aside g g') (h' : Aside g' g'') : Aside g g'' :=
  ⟨h'.link.trans h.link, h'.turn.trans h.turn, h.station.trans h'.station,
    fun id k hk ht => h'.stage id k (h.stage id k hk ht) ht⟩

theorem of_keeps (hs : SameDriver g.station g'.station) (hl : g'.link = g.link)
    (ht : g'.turn = g.turn) (hst : g'.stage? = g.stage?) : Aside g g' :=
  ⟨hl, ht, hs, fun id k hk _ => by rw [hst]; exact hk⟩

theorem of_stage {k : Stage} {o : Option Stage} (hid : g.stage? id = some k)
    (hk : k.standing.turn = .none) (hs : SameDriver g.station g'.station) (hl : g'.link = g.link)
    (ht : g'.turn = g.turn) (hst : g'.stage? = update g.stage? id o) : Aside g g' := by
  refine ⟨hl, ht, hs, fun other m hm hne => ?_⟩
  have : other ≠ id := by
    rintro rfl
    rw [hid] at hm
    exact hne (Option.some.inj hm ▸ hk)
  rw [hst, Function.update_of_ne this]
  exact hm

end Aside

/-- With hardware there is a driver exactly when the link is claimed, and it was opened for the
configuration that the clients are told. -/
def Settled (g : Gateway) : Prop :=
  ∀ h, g.station.backend = .hardware h →
    g.station.tuned = if g.link.connected then some g.link.config else none

theorem Settled.congr (h : Settled g) (hb : g'.station.backend = g.station.backend)
    (hd : g'.station.tuned = g.station.tuned) (hl : g'.link = g.link) : Settled g' := by
  intro hw hb'
  rw [hd, hl]
  exact h hw (hb.symm.trans hb')

-- ---------------------------------------------------------------------------
-- Receive loops
-- ---------------------------------------------------------------------------

section Listeners

variable (g : Gateway) (id : Nat) (t : Timing) (deadline : Nat)

theorem aside_iterate : Aside g (g.iterate id t) :=
  .of_keeps (by simpa using .refl _) (by simp) (by simp) (by simp)

theorem aside_nextSlice : Aside g (g.nextSlice id deadline) :=
  .of_keeps (by simpa using .refl _) (by simp) (by simp) (by simp)

theorem aside_heard (r : Station.Heard) : Aside g (g.heard id t deadline r) := by
  unfold heard
  simp only
  split <;> exact .of_keeps (by simpa using .refl _) (by simp) (by simp) (by simp)

theorem aside_progressListen
    {e : Station.Effect Station (Station.Progress Station.Listening Station.Heard)}
    (he : SameDriver g.station e.state) : Aside g (g.progressListen id t deadline e) := by
  have hs : Aside g (g.withStation e.state e.log) :=
    .of_keeps (by simpa using he) (by simp) (by simp) (by simp)
  unfold progressListen
  simp only
  split
  · exact hs.trans (aside_heard _ id t deadline _)
  · exact hs.trans (.of_keeps (by simpa using .refl _) (by simp) (by simp) (by simp))

theorem aside_listenSlice (slice : Nat) : Aside g (g.listenSlice id t deadline slice) := by
  unfold listenSlice
  split
  · rename_i e he
    exact aside_progressListen g id t deadline (g.station.sameDriver_beginListen he)
  · exact .of_keeps (by simpa using .refl _) (by simp) (by simp) (by simp)

theorem aside_resumeListener : Aside g (g.resumeListener id) := by
  have hrefl (g' : Gateway) (h : g'.station = g.station) (hl : g'.link = g.link)
      (ht : g'.turn = g.turn) (hst : g'.stage? = g.stage?) : Aside g g' :=
    .of_keeps (by simpa [h] using .refl _) hl ht hst
  unfold resumeListener
  split
  · exact hrefl g rfl rfl rfl rfl
  · rename_i t stage hid
    cases stage with
    | starting => exact (hrefl (g.note _) rfl rfl rfl rfl).trans (aside_iterate _ id t)
    | proceeding deadline =>
      cases deadline with
      | none => exact aside_iterate g id t
      | some deadline => exact aside_nextSlice g id deadline
    | simulating =>
      let taken := g.inbox.acceptSynthetic g.timestamp
      exact (hrefl ((g.withInbox taken.1).note taken.2) rfl rfl rfl rfl).trans
        (aside_iterate _ id t)
    | waitingRadio deadline slice => exact aside_listenSlice g id t deadline slice
    | listening deadline l =>
      simp only
      split
      · rename_i e he
        exact aside_progressListen g id t deadline (g.station.sameDriver_resumeListen he)
      · exact hrefl _ (by simp) (by simp) (by simp) (by simp)
    | idle deadline => exact aside_nextSlice g id deadline
    | backingOff => exact aside_iterate g id t
    | crashed reason => exact hrefl _ (by simp) (by simp) (by simp) (by simp)
    | restarting => exact hrefl _ (by simp) (by simp) (by simp) (by simp)

end Listeners

-- ---------------------------------------------------------------------------
-- Clients that send
-- ---------------------------------------------------------------------------

/-- Where a client stands that has nothing to do with the turn and will not ask for it. -/
def Stage.sends : Stage → Bool
  | .arrived (.send _) | .waitingRadio (.send _) | .transmitting _ _ => true
  | _ => false

theorem aside_progressTransmit {k : Stage} (hid : g.stage? id = some k)
    (hk : k.standing.turn = .none) (length : Nat)
    {e : Station.Effect Station (Station.Progress Nat (Except Radio.RadioError Nat))}
    (he : SameDriver g.station e.state) : Aside g (g.progressTransmit id length e) := by
  unfold progressTransmit transmitted
  simp only
  split
  · split <;> exact .of_stage hid hk (by simpa using he) (by simp) (by simp) (by simp; rfl)
  · exact .of_stage hid hk (by simpa using he) (by simp) (by simp) (by simp; rfl)

theorem aside_resumeClient {k : Stage} (hid : g.stage? id = some k) (hk : k.sends = true) :
    Aside g (g.resumeClient id) := by
  unfold resumeClient
  rw [hid]
  cases k with
  | arrived r =>
    cases r with
    | send payload =>
      cases payload <;>
      exact .of_stage hid rfl (by simpa using .refl _) (by simp) (by simp) (by simp; rfl)
    | connect | disconnect => cases hk
  | waitingRadio e =>
    cases e with
    | send payload => exact aside_progressTransmit hid rfl _ (g.station.sameDriver_beginSend _)
    | attach | confirm | detach => cases hk
  | transmitting length looks =>
    exact aside_progressTransmit hid rfl _ (g.station.sameDriver_resumeSend _ _)
  | waitingTurn | opening | finished => cases hk

/-- What was heard and sent, and the receive loops, are no business of connects and disconnects. -/
theorem apart_resumeClient {k : Stage} (hid : g.stage? id = some k) (hk : k.sends = false) :
    (g.resumeClient id).inbox = g.inbox ∧ (g.resumeClient id).listener? = g.listener? := by
  unfold resumeClient
  rw [hid]
  cases k with
  | arrived r =>
    cases r with
    | connect | disconnect => simp
    | send => cases hk
  | waitingTurn r =>
    simp only [takeTurn]
    split
    · split <;> simp
    · simp
  | waitingRadio e =>
    cases e with
    | attach c =>
      simp only [useRadio]
      split
      · rename_i r _
        cases r <;> simp [opened, commit]
      · simp
    | confirm e => simp [useRadio, giveUp]
    | detach => simp [useRadio]
    | send payload => cases hk
  | opening c o =>
    simp only
    cases (g.station.finishAttach o).result <;> simp [opened, commit]
  | transmitting length looks => cases hk
  | finished outcome => exact ⟨rfl, rfl⟩

-- ---------------------------------------------------------------------------
-- Moves from outside
-- ---------------------------------------------------------------------------

theorem sameDriver_stimulate (s : Station) (x : Stimulus) :
    SameDriver s { s with bench := x.apply s.bench } := by
  have hversion : ∀ x ∈ Chip.settingRegisters, x ≠ Chip.Register.version := by decide
  refine ⟨rfl, rfl, ?_, ?_⟩
  · cases x <;> rfl
  · cases x with
    | setVersion version => exact fun x hx => Chip.get_set_of_ne version (hversion x hx)
    | _ => exact .refl _

theorem aside_after (h : InOrder g) (m : Move) (hm : ∀ p, m ≠ .resume p) : Aside g (g.after m) := by
  have hkeep {g' : Gateway} (h : g'.station = g.station) (hl : g'.link = g.link)
      (ht : g'.turn = g.turn) (hst : g'.stage? = g.stage?) : Aside g g' :=
    .of_keeps (by simpa [h] using .refl _) hl ht hst
  cases m with
  | arrive origin manner r =>
    refine ⟨by simp [after], by simp [after], by simpa [after] using .refl _, fun id k hk _ => ?_⟩
    have : id ≠ g.nextId := by
      rintro rfl
      rw [h.stage?_next] at hk
      cases hk
    simp only [after, stage?_arrive g origin manner r h.stage?_next, Function.update_of_ne this, hk]
  | resume p => exact absurd rfl (hm p)
  | elapse ms => exact hkeep rfl rfl rfl rfl
  | forget id =>
    simp only [after]
    split
    · rename_i hout
      obtain ⟨outcome, ho⟩ := Option.isSome_iff_exists.mp hout
      exact .of_stage ((outcome?_eq_some g id).mp ho) rfl (by simpa using .refl _) rfl rfl
        (stage?_forget g id)
    · exact hkeep rfl rfl rfl rfl
  | poll => exact hkeep rfl rfl rfl rfl
  | enlist t => exact hkeep (by simp [after]) (by simp [after]) (by simp [after]) (by simp [after])
  | dismiss id =>
    exact hkeep (by simp [after]) (by simp [after]) (by simp [after]) (by simp [after])
  | stimulate s => exact .of_keeps (sameDriver_stimulate g.station s) rfl rfl rfl
  | relog news => exact hkeep rfl rfl rfl rfl

theorem aside_depart (p : Party) : Aside g (g.depart p) :=
  .of_keeps (by simpa using .refl _) (by simp) (by simp) (by simp)

-- ---------------------------------------------------------------------------
-- What becomes of the station
-- ---------------------------------------------------------------------------

@[simp] theorem station_opened (g : Gateway) (id : Nat) (c : Radio.Config)
    (r : Except Radio.RadioError Station.Device) : (g.opened id c r).station = g.station := by
  cases r <;> simp [opened, commit]

theorem station_progressTransmit (g : Gateway) (id length : Nat)
    (e : Station.Effect Station (Station.Progress Nat (Except Radio.RadioError Nat))) :
    (g.progressTransmit id length e).station = e.state := by
  unfold progressTransmit transmitted
  simp only
  split
  · split <;> simp
  · simp

/-- Where a client stands that is about to do something with the station. -/
def Stage.works : Stage → Bool
  | .waitingRadio (.confirm _) => false
  | .waitingRadio _ | .opening _ _ | .transmitting _ _ => true
  | _ => false

/-- What a client does to the station, by where it stands. -/
inductive Works (s : Station) : Stage → Station → Prop
  | idle {k : Stage} (hk : k.works = false) : Works s k s
  | sends (payload : List UInt8) :
      Works s (.waitingRadio (.send payload)) (s.beginSend payload).state
  | transmits (length looks : Nat) :
      Works s (.transmitting length looks) (s.resumeSend length looks).state
  | attach (c : Radio.Config) : Works s (.waitingRadio (.attach c)) (s.beginAttach c).state
  | finish (c : Radio.Config) (o : Station.Opening) :
      Works s (.opening c o) (s.finishAttach o).state
  | detach : Works s (.waitingRadio .detach) s.release.state

theorem works_resumeClient {k : Stage} (hid : g.stage? id = some k) :
    Works g.station k (g.resumeClient id).station := by
  have hidle {g' : Gateway} (hk : k.works = false) (hs : g'.station = g.station) :
      Works g.station k g'.station := by
    rw [hs]
    exact .idle hk
  unfold resumeClient
  rw [hid]
  cases k with
  | arrived r =>
    cases r with
    | connect u => exact hidle rfl (by simp)
    | disconnect => exact hidle rfl (by simp)
    | send payload => cases payload <;> exact hidle rfl (by simp)
  | waitingTurn r =>
    simp only [takeTurn]
    split
    · split <;> exact hidle rfl (by simp)
    · exact hidle rfl (by simp)
  | waitingRadio e =>
    cases e with
    | attach c =>
      have hstation : (g.useRadio id (.attach c)).station = (g.station.beginAttach c).state := by
        simp only [useRadio]
        split <;> simp
      exact hstation ▸ .attach c
    | confirm e => exact hidle rfl (by simp [useRadio, giveUp])
    | detach =>
      have hstation : (g.useRadio id .detach).station = g.station.release.state := by
        simp [useRadio, Station.detach]
      exact hstation ▸ .detach
    | send payload =>
      simp only [useRadio, station_progressTransmit]
      exact .sends payload
  | opening c o =>
    simp only [station_opened, withStation_keeps]
    exact .finish c o
  | transmitting length looks =>
    simp only [station_progressTransmit]
    exact .transmits length looks
  | finished outcome => exact hidle rfl rfl

/-- Whatever a client does, it works with the driver that is there, or changes over. -/
inductive Handles (s : Station) : Stage → Station → Prop
  | same {k : Stage} {s' : Station} (h : SameDriver s s') : Handles s k s'
  | attach (c : Radio.Config) : Handles s (.waitingRadio (.attach c)) (s.beginAttach c).state
  | finish (c : Radio.Config) (o : Station.Opening) :
      Handles s (.opening c o) (s.finishAttach o).state
  | detach : Handles s (.waitingRadio .detach) s.detach.state

theorem handles_resumeClient {k : Stage} (hid : g.stage? id = some k) :
    Handles g.station k (g.resumeClient id).station := by
  have hworks := works_resumeClient hid
  generalize (g.resumeClient id).station = s at hworks
  cases hworks with
  | idle => exact .same (.refl _)
  | sends payload => exact .same (g.station.sameDriver_beginSend payload)
  | transmits length looks => exact .same (g.station.sameDriver_resumeSend length looks)
  | attach c => exact .attach c
  | finish c o => exact .finish c o
  | detach => exact .detach

theorem Handles.backend {s s' : Station} {k : Stage} (h : Handles s k s') :
    s'.backend = s.backend := by
  cases h with
  | same h => exact h.backend
  | attach c => exact s.backend_beginAttach c
  | finish c o => exact s.backend_finishAttach o
  | detach => exact s.release_keeps.1

theorem backend_after (g : Gateway) (m : Move) :
    (g.after m).station.backend = g.station.backend := by
  cases m with
  | resume p =>
    simp only [after, resumeReady]
    split
    · cases p with
      | client id =>
        cases hid : g.stage? id with
        | none => simp [resume, resumeClient, hid]
        | some k =>
          have hid' : (g.depart (.client id)).stage? id = some k := by simpa using hid
          simpa [resume] using (handles_resumeClient hid').backend
      | listener id =>
        simpa [resume] using (aside_resumeListener (g.depart (.listener id)) id).station.backend
    · rfl
  | forget id => simp only [after]; split <;> rfl
  | arrive | enlist | dismiss => simp [after]
  | elapse | poll | stimulate | relog => rfl

theorem backend_through (g : Gateway) (moves : List Move) :
    (g.through moves).station.backend = g.station.backend := by
  induction moves generalizing g with
  | nil => rfl
  | cons m moves ih => exact (ih (g.after m)).trans (backend_after g m)

-- ---------------------------------------------------------------------------
-- Whoever goes on holds what it claims
-- ---------------------------------------------------------------------------

namespace InOrder

variable {p : Party}

theorem holds_turn (h : InOrder g) (hp : g.goes p = true) (ht : (g.standing p).turn ≠ .none) :
    g.turn.holder = some p := ((h.orderly.mem p).mp (awake_of_goes hp)).2.1 ht

end InOrder

end RadioGateway.Gateway
