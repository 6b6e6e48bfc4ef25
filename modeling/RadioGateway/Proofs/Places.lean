import RadioGateway.Proofs.Bystanders

/-!
# Nobody is overtaken on the way to the radio

Whoever asks for the radio is put at the end of its queue, and whatever anybody else does keeps the
others in their places. So the sends that wait are served in the order in which they have asked.
-/

namespace RadioGateway.Gateway

open Function (update)

namespace Lock

/-- The places of everybody else. -/
def others (l : Lock) (p : Party) : List Party := l.parties.filter (· ≠ p)

variable {l : Lock} {p : Party}

theorem others_acquire (h : l.Sound) : (l.acquire p).1.others p = l.others p := by
  simp [others, parties_acquire p h]

theorem others_release (h : l.holder = some p) : l.release.1.others p = l.others p := by
  simp [others, parties_eq_cons h]

theorem others_requeue (h : l.holder = some p) :
    (l.release.1.acquire p).1.others p = l.others p := by
  rw [others_acquire (sound_release l), others_release h]

end Lock

variable {g g' : Gateway} {id : Nat} {p : Party} {m : Move}

-- ---------------------------------------------------------------------------
-- A step keeps the others in their places
-- ---------------------------------------------------------------------------

section Steps

variable {k : Stage}

theorem others_opened (hr : g.radio.holder = some (.client id)) (c : Radio.Config)
    (r : Except Radio.RadioError Station.Device) :
    (g.opened id c r).radio.others (.client id) = g.radio.others (.client id) := by
  cases r with
  | ok device => simpa [opened, commit] using Lock.others_release hr
  | error e => simpa [opened] using Lock.others_requeue hr

theorem others_progressTransmit (hr : g.radio.holder = some (.client id)) (length : Nat)
    (e : Station.Effect Station (Station.Progress Nat (Except Radio.RadioError Nat))) :
    (g.progressTransmit id length e).radio.others (.client id) = g.radio.others (.client id) := by
  unfold progressTransmit transmitted
  simp only
  split
  · split
    · simpa using Lock.others_release hr
    · simpa using Lock.others_release hr
  · simp

theorem others_resumeClient (hs : g.radio.Sound)
    (hr : (g.standing (.client id)).radio ≠ .none → g.radio.holder = some (.client id)) :
    (g.resumeClient id).radio.others (.client id) = g.radio.others (.client id) := by
  unfold resumeClient
  split
  next => rfl
  next => rfl
  next => simp
  next => simpa using Lock.others_acquire hs
  next => simp
  next =>
    unfold takeTurn
    split
    · simp only
      split
      · simp
      · simpa using Lock.others_acquire hs
    · simpa using Lock.others_acquire hs
  next errand hid =>
    have hholder := hr (by rw [standing_client hid]; cases errand <;> simp [Stage.standing])
    cases errand with
    | attach c =>
      simp only [useRadio]
      split
      · exact others_opened (g := g.withStation _ _) (by simpa using hholder) c _
      · simp
    | confirm e => simpa [useRadio, giveUp] using Lock.others_release hholder
    | detach => simpa [useRadio] using Lock.others_release hholder
    | send payload => exact others_progressTransmit hholder _ _
  next hid =>
    have hholder := hr (by rw [standing_client hid]; simp [Stage.standing])
    exact others_opened (g := g.withStation _ _) (by simpa using hholder) _ _
  next hid =>
    have hholder := hr (by rw [standing_client hid]; simp [Stage.standing])
    exact others_progressTransmit hholder _ _

theorem others_progressListen (hr : g.radio.holder = some (.listener id)) (t : Timing)
    (deadline : Nat)
    (e : Station.Effect Station (Station.Progress Station.Listening Station.Heard)) :
    (g.progressListen id t deadline e).radio.others (.listener id) =
      g.radio.others (.listener id) := by
  unfold progressListen heard
  simp only
  split
  · split <;> simpa using Lock.others_release hr
  · simp

theorem others_resumeListener (hs : g.radio.Sound)
    (hr : (g.standing (.listener id)).radio ≠ .none → g.radio.holder = some (.listener id)) :
    (g.resumeListener id).radio.others (.listener id) = g.radio.others (.listener id) := by
  have hslice (deadline : Nat) :
      (g.nextSlice id deadline).radio.others (.listener id) = g.radio.others (.listener id) := by
    unfold nextSlice
    split
    · simp
    · simpa using Lock.others_acquire hs
  unfold resumeListener
  split
  next => rfl
  next t stage hid =>
    have hholder (h : stage.standing.radio ≠ .none) : g.radio.holder = some (.listener id) :=
      hr (by rwa [standing_listener hid])
    cases stage with
    | proceeding deadline =>
      cases deadline with
      | none => simp
      | some deadline => exact hslice deadline
    | waitingRadio deadline slice =>
      simp only [listenSlice]
      split
      · exact others_progressListen (hholder (by simp [ListenerStage.standing])) t deadline _
      · simpa using Lock.others_release (hholder (by simp [ListenerStage.standing]))
    | listening deadline l =>
      simp only
      split
      · exact others_progressListen (hholder (by simp [ListenerStage.standing])) t deadline _
      · simpa using Lock.others_release (hholder (by simp [ListenerStage.standing]))
    | idle deadline => exact hslice deadline
    | starting | simulating | backingOff | crashed | restarting => simp

end Steps

theorem InOrder.holds_radio (h : InOrder g) (hp : g.goes p = true)
    (hr : (g.standing p).radio ≠ .none) :
    g.radio.holder = some p := ((h.orderly.mem p).mp (awake_of_goes hp)).2.2 hr

theorem InOrder.others_resume (h : InOrder g) (hp : g.goes p = true) :
    (g.after (.resume p)).radio.others p = g.radio.others p := by
  have hst : (g.depart p).standing = g.standing := standing_congr (by simp) (by simp)
  have hradio : (g.depart p).radio = g.radio := (depart_keeps g p).2.2.2.2.1
  have hholder (hr : ((g.depart p).standing p).radio ≠ .none) :
      (g.depart p).radio.holder = some p := by
    rw [hradio]
    exact h.holds_radio hp (hst ▸ hr)
  have hsound : (g.depart p).radio.Sound := hradio ▸ h.orderly.radio.sound
  rw [after_resume hp, ← hradio]
  cases p with
  | client id => exact others_resumeClient hsound hholder
  | listener id => exact others_resumeListener hsound hholder

-- ---------------------------------------------------------------------------
-- The sends that have asked for the radio
-- ---------------------------------------------------------------------------

def Stage.payload? : Stage → Option (List UInt8)
  | .waitingRadio (.send payload) => some payload
  | _ => none

def sending? (g : Gateway) : Party → Option (Nat × List UInt8)
  | .client id => ((g.stage? id).bind Stage.payload?).map fun payload => (id, payload)
  | .listener _ => none

/-- The sends that have asked for the radio, in its queue. -/
def pending (g : Gateway) : List (Nat × List UInt8) := g.radio.parties.filterMap g.sending?

theorem sending?_of_stage? (h : ∀ id, p = .client id → g'.stage? id = g.stage? id) :
    g'.sending? p = g.sending? p := by
  cases p with
  | client id => rw [sending?, sending?, h id rfl]
  | listener id => rfl

theorem sending?_client {k : Stage} (hid : g.stage? id = some k) :
    g.sending? (.client id) = k.payload?.map fun payload => (id, payload) := by
  simp [sending?, hid]

theorem payload?_eq_some {k : Stage} {payload : List UInt8} :
    k.payload? = some payload ↔ k = .waitingRadio (.send payload) := by
  unfold Stage.payload?
  split <;> simp_all

theorem stage?_of_mem_pending {w : Nat × List UInt8} (hw : w ∈ g.pending) :
    g.stage? w.1 = some (.waitingRadio (.send w.2)) := by
  obtain ⟨p, -, hp⟩ := List.mem_filterMap.mp hw
  cases p with
  | listener id => cases hp
  | client id =>
    obtain ⟨payload, hpayload, rfl⟩ := Option.map_eq_some_iff.mp hp
    obtain ⟨k, hk, hkp⟩ := Option.bind_eq_some_iff.mp hpayload
    rw [hk, payload?_eq_some.mp hkp]

theorem filterMap_others {f : Party → Option α} (hp : f p = none) (l : Lock) :
    (l.others p).filterMap f = l.parties.filterMap f := by
  rw [Lock.others, List.filterMap_filter]
  refine List.filterMap_congr fun q _ => ?_
  by_cases hq : q = p
  · simp [hq, hp]
  · simp [hq]

/-- A step of somebody who does not send, and does not ask for it, is nothing to those who do. -/
theorem pending_of_others (hq : g'.radio.others p = g.radio.others p)
    (hs : ∀ q ≠ p, g'.sending? q = g.sending? q) (hp : g.sending? p = none)
    (hp' : g'.sending? p = none) : g'.pending = g.pending := by
  rw [pending, pending, ← filterMap_others hp', ← filterMap_others hp, hq]
  exact List.filterMap_congr fun q hm => hs q (by simpa using (List.mem_filter.mp hm).2)

/-- Whoever asks to send comes after all who have asked before. -/
theorem pending_snoc {payload : List UInt8}
    (hq : g'.radio.parties = g.radio.parties ++ [.client id])
    (hs : ∀ q ≠ .client id, g'.sending? q = g.sending? q) (hp : .client id ∉ g.radio.parties)
    (hp' : g'.sending? (.client id) = some (id, payload)) :
    g'.pending = g.pending ++ [(id, payload)] := by
  have hold : g.radio.parties.filterMap g'.sending? = g.radio.parties.filterMap g.sending? :=
    List.filterMap_congr fun q hm => hs q fun he => hp (he ▸ hm)
  rw [pending, pending, hq, List.filterMap_append, hold, List.filterMap_cons, hp']
  rfl

/-- Whoever has the radio to send has asked for it first. -/
theorem pending_cons {payload : List UInt8} (ho : g.radio.holder = some (.client id))
    (hnd : g.radio.parties.Nodup) (hq : g'.radio = g.radio.release.1)
    (hs : ∀ q ≠ .client id, g'.sending? q = g.sending? q)
    (hp : g.sending? (.client id) = some (id, payload)) :
    g.pending = (id, payload) :: g'.pending := by
  have hparties := Lock.parties_eq_cons ho
  rw [hparties, List.nodup_cons] at hnd
  have hrest : g.radio.release.1.parties.filterMap g'.sending? =
      g.radio.release.1.parties.filterMap g.sending? :=
    List.filterMap_congr fun q hm => hs q fun he => hnd.1 (he ▸ hm)
  rw [pending, pending, hparties, List.filterMap_cons, hp, hq, hrest]

end RadioGateway.Gateway
