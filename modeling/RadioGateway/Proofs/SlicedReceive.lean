import RadioGateway.Gateway.Iteration
import RadioGateway.Proofs.BackOff
import RadioGateway.Proofs.StandIn

/-!
# A receive in slices is a receive in one wait

A receive lets others have the radio at the end of every slice. With the scripted radio or in
simulation nobody can tell: it takes what comes first at once, or waits for exactly as long as it
was told to, and takes nothing.
-/

namespace RadioGateway.Station

open RadioGateway.Radio

/-- What a receive comes to that takes something. -/
def heardOf : Inbound → Heard
  | .frame f => .ok (some f)
  | .failure reason => .error (.failed (.device reason))
  | .crash => .error (.crashed crashMessage)

/-- The driver keeps the signal of the last frame. -/
def Driver.meeting (d : Driver) : Inbound → Driver
  | .frame f => { d with signal := f.signal }
  | .failure _ | .crash => d

/-- The station after what came first has been taken. -/
def taking (s : Station) (d : Driver) (x : Inbound) (rest : List Inbound) : Station :=
  { s with
    bench := { s.bench with script := { s.bench.script with inbound := rest } }
    driver := some (d.meeting x) }

/-- A receive in one wait of the whole timeout. -/
def receiveAtOnce (s : Station) (timeout : Nat) : Effect Station (Heard × Nat) :=
  if timeout = 0 then { state := s, result := (.ok none, 0) }
  else
    match s.backend, s.driver with
    | .hardware h, some d =>
      let e := d.runReceive h timeout s.bench
      { state := { s with bench := e.state.1, driver := some e.state.2 }
        log := e.log
        result := (Received.heard e.result.1 e.state.2.signal, e.result.2) }
    | _, _ => { state := s, result := (.ok none, timeout) }

variable {s : Station} {d : Driver} {b : Bench} {x : Inbound} {rest : List Inbound}

-- ---------------------------------------------------------------------------
-- A driver of the scripted radio
-- ---------------------------------------------------------------------------

/-- When there is nothing to be received the driver waits for exactly as long as it was told to. -/
theorem runReceive_silent (hi : b.script.inbound = []) (d : Driver) (ms : Nat) :
    d.runReceive .scripted ms b = { state := (b, d), result := (.ok none, ms) } := by
  simp [Driver.runReceive, Driver.receive, ScriptedRadio.takeInbound, hi]

/-- Otherwise it takes what comes first, at once. -/
theorem runReceive_takes (hi : b.script.inbound = x :: rest) (d : Driver) (ms : Nat) :
    ∃ r, d.runReceive .scripted ms b =
        { state := ({ b with script := { b.script with inbound := rest } }, d.meeting x),
          result := (r, 0) } ∧
      r ≠ .ok none ∧ Received.heard r (d.meeting x).signal = heardOf x := by
  cases x with
  | frame f =>
    exact ⟨.ok (some f.data),
      by simp [Driver.runReceive, Driver.receive, ScriptedRadio.takeInbound, hi, Driver.meeting],
      by simp, rfl⟩
  | failure reason =>
    exact ⟨.error (.failed (.device reason)), by simp [Driver.runReceive, Driver.receive,
      ScriptedRadio.takeInbound, hi, Driver.meeting], by simp, rfl⟩
  | crash =>
    exact ⟨.error (.crashed crashMessage), by simp [Driver.runReceive, Driver.receive,
      ScriptedRadio.takeInbound, hi, Driver.meeting], by simp, rfl⟩

-- ---------------------------------------------------------------------------
-- A station with a single user
-- ---------------------------------------------------------------------------

/-- Slice by slice the whole time goes by when there is nothing to be received. -/
theorem receiveWithin_silent (hb : s.backend = .hardware .scripted) (hd : s.driver = some d)
    (hi : s.bench.script.inbound = []) (remaining : Nat) :
    s.receiveWithin remaining = { state := s, result := (.ok none, remaining) } := by
  induction remaining using Nat.strongRecOn with
  | ind remaining ih =>
    by_cases hr : remaining = 0
    · rw [hr, receiveWithin_zero]
    · have hless : remaining - min sliceTime remaining < remaining := by
        unfold sliceTime
        omega
      have htotal : min sliceTime remaining + (remaining - min sliceTime remaining) =
          remaining := by omega
      have hsame : { s with backend := .hardware .scripted, driver := some d } = s := by
        rw [← hb, ← hd]
      have hrun := runReceive_silent hi d (min sliceTime remaining)
      rw [receiveWithin, if_neg hr]
      simp only [hb, hd]
      split
      · rename_i ms hresult
        obtain rfl : min sliceTime remaining = ms := congrArg Prod.snd (hrun ▸ hresult)
        simp only [hrun, hsame, ih _ hless, htotal, List.append_nil]
      · rename_i r ms hsome hresult
        obtain rfl : Except.ok none = r := congrArg Prod.fst (hrun ▸ hresult)
        exact absurd rfl hsome

theorem receiveWithin_takes (hb : s.backend = .hardware .scripted) (hd : s.driver = some d)
    (hi : s.bench.script.inbound = x :: rest) {remaining : Nat} (hr : 0 < remaining) :
    s.receiveWithin remaining = { state := s.taking d x rest, result := (heardOf x, 0) } := by
  obtain ⟨r, hrun, hsome, hheard⟩ := runReceive_takes hi d (min sliceTime remaining)
  rw [receiveWithin, if_neg (Nat.ne_of_gt hr)]
  simp only [hb, hd]
  split
  · next hresult =>
    rw [hrun] at hresult
    exact absurd (congrArg Prod.fst hresult) hsome
  · next hresult =>
    rw [hrun] at hresult ⊢
    obtain ⟨rfl, rfl⟩ := Prod.mk.inj hresult
    rw [taking, hb, ← hheard]

/-- Nothing is heard in no time, in simulation, without a driver, or when there is nothing to be
received. -/
def Quiet (s : Station) (timeout : Nat) : Prop :=
  timeout = 0 ∨ s.backend = .simulated ∨ s.driver = none ∨ s.bench.script.inbound = []

theorem receive_quiet (hb : s.backend = .simulated ∨ s.backend = .hardware .scripted)
    {timeout : Nat} (hq : s.Quiet timeout) :
    s.receive timeout = { state := s, result := (.ok none, timeout) } := by
  rcases hb with hb | hb
  · simp [receive, simulated, hb]
  · have hsim : s.simulated = false := by simp [simulated, hb]
    simp only [receive, hsim, Bool.false_eq_true, if_false]
    rcases hq with rfl | hb' | hd | hi
    · exact receiveWithin_zero s
    · cases hb.symm.trans hb'
    · exact receiveWithin_detached hd timeout
    · cases hd : s.driver with
      | none => exact receiveWithin_detached hd timeout
      | some d => exact receiveWithin_silent hb hd hi timeout

theorem receive_takes (hb : s.backend = .hardware .scripted) (hd : s.driver = some d)
    (hi : s.bench.script.inbound = x :: rest) {timeout : Nat} (ht : 0 < timeout) :
    s.receive timeout = { state := s.taking d x rest, result := (heardOf x, 0) } := by
  have hsim : s.simulated = false := by simp [simulated, hb]
  simp only [receive, hsim, Bool.false_eq_true, if_false]
  exact receiveWithin_takes hb hd hi ht

theorem exists_of_not_quiet (hb : s.backend = .simulated ∨ s.backend = .hardware .scripted)
    {timeout : Nat} (hq : ¬ s.Quiet timeout) : s.backend = .hardware .scripted ∧ 0 < timeout ∧
      ∃ d x rest, s.driver = some d ∧ s.bench.script.inbound = x :: rest := by
  simp only [Quiet, not_or] at hq
  obtain ⟨ht, hsim, hd, hi⟩ := hq
  obtain ⟨d, hd⟩ := Option.ne_none_iff_exists'.mp hd
  obtain ⟨x, rest, hi⟩ := List.exists_cons_of_ne_nil hi
  exact ⟨hb.resolve_left hsim, Nat.pos_of_ne_zero ht, d, x, rest, hd, hi⟩

/-- A receive in slices is a receive in one wait. -/
theorem receive_eq_receiveAtOnce (hb : s.backend = .simulated ∨ s.backend = .hardware .scripted)
    (timeout : Nat) : s.receive timeout = s.receiveAtOnce timeout := by
  by_cases hq : s.Quiet timeout
  · rw [receive_quiet hb hq, receiveAtOnce]
    split
    · rename_i hz
      rw [hz]
    · rename_i hz
      split
      · rename_i h d hb' hd
        obtain rfl : h = .scripted := by simpa [hb'] using hb
        have hi : s.bench.script.inbound = [] := by simpa [Quiet, hz, hb', hd] using hq
        have hsame : { s with driver := some d } = s := by rw [← hd]
        simp only [runReceive_silent hi]
        rw [hsame]
        rfl
      · rfl
  · obtain ⟨hb', ht, d, x, rest, hd, hi⟩ := exists_of_not_quiet hb hq
    obtain ⟨r, hrun, -, hheard⟩ := runReceive_takes hi d timeout
    rw [receive_takes hb' hd hi ht, receiveAtOnce, if_neg (Nat.ne_of_gt ht), hb', hd]
    simp only [hrun, hheard, taking, hb']

end RadioGateway.Station

namespace RadioGateway.Gateway

open RadioGateway.Radio (Inbound)
open RadioGateway.Station (Effect Heard heardOf)

variable {g₀ g : Gateway} {id timeout deadline : Nat} {t : Timing} {k : ListenerStage} {m : Move}

-- ---------------------------------------------------------------------------
-- A loop with a radio that nobody else uses
-- ---------------------------------------------------------------------------

theorem Lone.radio_free (h : Lone g id t) (hid : g.listener? id = some ⟨t, k⟩)
    (hk : k.standing.radio = .none) : g.radio = {} := by
  have hradio := h.steady.order.orderly.radio
  have hwaiting := h.radio_waiting
  have hholder : g.radio.holder = none := by
    cases hh : g.radio.holder with
    | none => rfl
    | some p =>
      have hclaim := (hradio.mem p).mp (Lock.mem_parties_of_holder hh)
      obtain rfl := h.eq_of_claim (active_of_radio hclaim)
      refine absurd ?_ hclaim
      simpa [standing_listener hid] using hk
  generalize g.radio = radio at hwaiting hholder
  obtain ⟨holder, waiting⟩ := radio
  simp only at hwaiting hholder
  rw [hwaiting, hholder]

/-- Nothing can be heard: there is no driver, or nothing to be received. -/
def Silent (g : Gateway) : Prop := g.station.attached = false ∨ g.inbound = []

/-- Where a loop stands in a receive that is to end at `deadline`. -/
def ReceivesUntil (g : Gateway) (id deadline : Nat) : ListenerStage → Prop
  | .proceeding (some d) => d = deadline ∧ g.clock ≤ deadline
  | .waitingRadio d slice => d = deadline ∧ 0 < slice ∧ g.clock + slice ≤ deadline
  | .listening d _ | .idle d =>
    d = deadline ∧ Silent g ∧ ∃ wake ≤ deadline, g.clock ≤ wake ∧ Due g (.listener id) wake
  | _ => False

/-- A receive that began in `g₀` and goes on: nothing has been taken, and no time goes by but in
silence. -/
structure Receiving (g₀ g : Gateway) (id : Nat) (t : Timing) (deadline : Nat) : Prop where
  lone : Lone g id t
  attached : g.station.attached = g₀.station.attached
  inbound : g.inbound = g₀.inbound
  inbox : g.inbox = g₀.inbox
  stage : ∃ k, g.listener? id = some ⟨t, k⟩ ∧ ReceivesUntil g id deadline k
  clock : g.clock = g₀.clock ∨ Silent g

/-- Where a loop goes on when a receive has returned. -/
def ListenerStage.following : Heard → ListenerStage
  | .ok _ => .proceeding none
  | .error (.failed _) => .backingOff
  | .error (.crashed reason) => .crashed reason

/-- A receive that began in `g₀` has come to what `e` says, and the radio is free. -/
structure Returned (g₀ g : Gateway) (id : Nat) (t : Timing)
    (e : Effect Station (Heard × Nat)) : Prop where
  clock : g.clock = g₀.clock + e.result.2
  radio : g.radio = {}
  attached : g.station.attached = e.state.attached
  inbound : g.inbound = e.state.bench.script.inbound
  inbox : g.inbox = match e.result.1 with
    | .ok (some f) => (g₀.inbox.accept f g.timestamp).1
    | _ => g₀.inbox
  listener? : g.listener? id = some ⟨t, .following e.result.1⟩

theorem Silent.quiet (h : Silent g) (timeout : Nat) : g.station.Quiet timeout := by
  rcases h with ha | hi
  · exact .inr (.inr (.inl (by simpa [Station.attached] using ha)))
  · exact .inr (.inr (.inr hi))

namespace Receiving

theorem silent (h : Receiving g₀ g id t deadline) (hs : Silent g) : Silent g₀ := by
  rwa [Silent, h.attached, h.inbound] at hs

theorem clock_le (h : Receiving g₀ g id t deadline) : g.clock ≤ deadline := by
  obtain ⟨k, -, hk⟩ := h.stage
  cases k with
  | proceeding d =>
    cases d with
    | none => exact hk.elim
    | some d => exact hk.2
  | waitingRadio d slice => exact Nat.le_trans (Nat.le_add_right _ _) hk.2.2
  | listening d l =>
    obtain ⟨-, -, wake, hle, hc, -⟩ := hk
    exact Nat.le_trans hc hle
  | idle d =>
    obtain ⟨-, -, wake, hle, hc, -⟩ := hk
    exact Nat.le_trans hc hle
  | _ => exact hk.elim

/-- Nothing was heard up to the end, so the whole time has gone by. -/
theorem quiet (h : Receiving g₀ g id t (g₀.clock + timeout)) (hc : g₀.clock + timeout ≤ g.clock) :
    g₀.station.Quiet timeout := by
  rcases h.clock with he | hs
  · exact .inl (by omega)
  · exact (h.silent hs).quiet timeout

/-- While time goes by the loop stays where it listens or idles, up to its next step at most. -/
theorem elapse {ms : Nat} (h : Receiving g₀ g id t deadline) (hm : Busy g (.elapse ms)) :
    Receiving g₀ (g.after (.elapse ms)) id t deadline := by
  obtain ⟨k, hid, hk⟩ := h.stage
  have hgo : g.goes (.listener id) = false := not_goes_of_isQuiet hm.2.1 _
  have hsleeps : k.sleeps = true := by
    by_contra hno
    cases hgo.symm.trans (h.lone.goes hid (by simpa using hno))
  -- the loop sleeps in silence, and not beyond its slice
  have hwait (hs : Silent g) {wake : Nat} (hle : wake ≤ deadline)
      (hdue : Due g (.listener id) wake) :
      Silent (g.after (.elapse ms)) ∧ ∃ wake ≤ deadline, (g.after (.elapse ms)).clock ≤ wake ∧
        Due (g.after (.elapse ms)) (.listener id) wake := by
    have hc : g.clock ≤ wake := Nat.le_of_lt (hdue.clock_lt hm.2.1)
    exact ⟨hs, wake, hle, hdue.clock_after_le hm.paced (Nat.le_refl _) hc,
      hdue.spared (spares_elapse g _ ms)⟩
  have hlone := h.lone.after hm
  cases k with
  | listening d l =>
    obtain ⟨rfl, hs, wake, hle, -, hdue⟩ := hk
    exact ⟨hlone, h.attached, h.inbound, h.inbox, ⟨_, hid, rfl, hwait hs hle hdue⟩, .inr hs⟩
  | idle d =>
    obtain ⟨rfl, hs, wake, hle, -, hdue⟩ := hk
    exact ⟨hlone, h.attached, h.inbound, h.inbox, ⟨_, hid, rfl, hwait hs hle hdue⟩, .inr hs⟩
  | simulating | backingOff | restarting => exact hk.elim
  | _ => cases hsleeps

theorem resume (h : Receiving g₀ g id t (g₀.clock + timeout))
    (hb : g₀.station.backend = .hardware .scripted) (hp : g.goes (.listener id) = true) :
    let g' := g.after (.resume (.listener id))
    Receiving g₀ g' id t (g₀.clock + timeout) ∨
    Returned g₀ g' id t (g₀.station.receive timeout) := by
  intro g'
  obtain ⟨k, hid, hk⟩ := h.stage
  obtain ⟨k', hgoes, hid'⟩ := h.lone.loopGoes hid hp
  have hbusy : Busy g (.resume (.listener id)) := hp
  have hlone : Lone g' id t := h.lone.after hbusy
  have hc : g'.clock = g.clock := clock_resume g _
  have ha : g'.station.attached = g₀.station.attached := h.lone.attached_after.trans h.attached
  have hbox := h.lone.inbox_after hbusy
  have hstill (hi : g'.inbound = g.inbound) : g'.inbound = g₀.inbound ∧ g'.inbox = g₀.inbox := by
    refine ⟨hi.trans h.inbound, ?_⟩
    rw [show g'.inbox = _ from hbox, consumed_eq_nil [] (by rw [List.append_nil]; exact hi)]
    exact h.inbox
  have hsilent (hi : g'.inbound = g.inbound) (hs : Silent g) : Silent g' := by
    rwa [Silent, ha, hi, ← h.attached]
  have hgoing (hi : g'.inbound = g.inbound) (hk' : ReceivesUntil g' id (g₀.clock + timeout) k') :
      Receiving g₀ g' id t (g₀.clock + timeout) :=
    ⟨hlone, ha, (hstill hi).1, (hstill hi).2, ⟨k', hid', hk'⟩, h.clock.imp hc.trans (hsilent hi)⟩
  cases hgoes.step with
  | begins hk' => rcases hk' with rfl | rfl | rfl <;> exact hk.elim
  | @expires _ d hk' hd hr hi =>
    right
    have hend : g₀.clock + timeout ≤ g.clock := by
      rcases hk' with rfl | rfl
      · exact hk.1 ▸ hd
      · exact hk.1 ▸ hd
    rw [Station.receive_quiet (.inr hb) (h.quiet hend)]
    exact ⟨hc.trans (Nat.le_antisymm h.clock_le hend), hlone.radio_free hid' rfl, ha,
      (hstill hi).1, (hstill hi).2, hid'⟩
  | @asks _ d hk' hd hr hi =>
    left
    have hdeadline : d = g₀.clock + timeout := by
      rcases hk' with rfl | rfl
      · exact hk.1
      · exact hk.1
    refine hgoing hi ⟨hdeadline, ?_, ?_⟩
    · unfold Station.sliceTime
      omega
    · unfold Station.sliceTime
      omega
  | listens ha' hr hi hdue hnone =>
    left
    obtain ⟨rfl, hpos, hle⟩ := hk
    exact hgoing hi ⟨rfl, hsilent hi (.inr hnone), _, hle, hc ▸ Nat.le_add_right _ _, hdue⟩
  | takes x hmeets hr hi ha' =>
    right
    obtain ⟨rfl, hpos, hle⟩ := hk
    have hnow : g.clock = g₀.clock := by
      refine h.clock.resolve_right ?_
      rintro (hs | hs)
      · cases ha'.symm.trans hs
      · cases hi.symm.trans hs
    obtain ⟨d, hd⟩ := Option.isSome_iff_exists.mp (h.attached.symm.trans ha')
    have hi₀ : g₀.inbound = x :: g'.inbound := h.inbound.symm.trans hi
    have hts : g'.timestamp = g.timestamp := by simp only [timestamp, hc, g', epoch_after]
    have hbox' : g'.inbox = g.inbox.takeIn g.timestamp x := by
      rw [show g'.inbox = _ from hbox, consumed_eq_singleton hi rfl]
      rfl
    rw [Station.receive_takes hb hd hi₀ (by omega)]
    refine ⟨hc.trans hnow, hlone.radio_free hid' (by cases hmeets <;> rfl),
      ha.trans (h.attached.symm.trans ha'), rfl, ?_, ?_⟩
    · rw [hbox', h.inbox, hts]
      cases x <;> rfl
    · rw [hid']
      cases hmeets <;> rfl
  | idles hr hi hdue ha' =>
    left
    obtain ⟨rfl, hpos, hle⟩ := hk
    exact hgoing hi ⟨rfl, hsilent hi (.inl ha'), _, hle, hc ▸ Nat.le_add_right _ _, hdue⟩
  | ends hr hi =>
    left
    exact hgoing hi ⟨hk.1, hc ▸ h.clock_le⟩
  | reports => exact hk.elim
  | restarts => exact hk.elim

theorem after (h : Receiving g₀ g id t (g₀.clock + timeout))
    (hb : g₀.station.backend = .hardware .scripted) (hm : Busy g m) :
    Receiving g₀ (g.after m) id t (g₀.clock + timeout) ∨
      Returned g₀ (g.after m) id t (g₀.station.receive timeout) := by
  cases m with
  | elapse ms => exact .inl (h.elapse hm)
  | resume p =>
    obtain rfl := h.lone.eq_of_goes hm
    exact h.resume hb hm
  | _ => cases hm

/-- A receive goes on until it returns. -/
theorem through (h : Receiving g₀ g id t (g₀.clock + timeout))
    (hb : g₀.station.backend = .hardware .scripted) {more : List Move} (hm : Always Busy g more) :
    Receiving g₀ (g.through more) id t (g₀.clock + timeout) ∨
      ∃ before rest, more = before ++ rest ∧
        Returned g₀ (g.through before) id t (g₀.station.receive timeout) := by
  induction more generalizing g with
  | nil => exact .inl h
  | cons m more ih =>
    rcases h.after hb hm.1 with h' | hended
    · refine (ih h' hm.2).imp_right ?_
      rintro ⟨before, rest, rfl, hended⟩
      exact ⟨m :: before, rest, rfl, hended⟩
    · exact .inr ⟨[m], more, rfl, hended⟩

/-- No more time goes by than the receive takes. -/
theorem clock_le_of_receive (h : Receiving g₀ g id t (g₀.clock + timeout))
    (hb : g₀.station.backend = .hardware .scripted) :
    g.clock ≤ g₀.clock + (g₀.station.receive timeout).result.2 := by
  by_cases hq : g₀.station.Quiet timeout
  · rw [Station.receive_quiet (.inr hb) hq]
    exact h.clock_le
  · obtain ⟨-, ht, d, x, rest, hd, hi⟩ := Station.exists_of_not_quiet (.inr hb) hq
    rw [Station.receive_takes hb hd hi ht]
    exact Nat.le_of_eq (h.clock.resolve_right fun hs => hq ((h.silent hs).quiet timeout))

end Receiving

-- ---------------------------------------------------------------------------
-- Iterations
-- ---------------------------------------------------------------------------

theorem iteration_of_hardware {s : Station} (hb : s.backend = .hardware .scripted) (t : Timing)
    (ts : Float) (i : Inbox) :
    let heard := s.receive t.receiveTimeout
    let e := iteration t ts s i
    e.state.1 = heard.state ∧ e.result = (heard.result.1.map fun _ => (), heard.result.2) ∧
      e.state.2 = match heard.result.1 with
        | .ok (some f) => (i.accept f ts).1
        | _ => i := by
  intro heard e
  have hsim : s.simulated = false := by simp [Station.simulated, hb]
  simp only [e, iteration, hsim, Bool.false_eq_true, if_false]
  rcases heard.result with ⟨_ | _ | f, ms⟩ <;> exact ⟨rfl, rfl, rfl⟩

/-- A loop that began an iteration in `g₀` has come to what an iteration comes to by itself. -/
structure Iterated (g₀ g : Gateway) (id : Nat) (t : Timing)
    (e : Effect (Station × Inbox) (Except Station.Interruption Unit × Nat)) : Prop where
  clock : g.clock = g₀.clock + e.result.2
  inbox : g.inbox = e.state.2
  attached : g.station.attached = e.state.1.attached
  inbound : g.inbound = e.state.1.bench.script.inbound
  listener? : g.listener? id = some ⟨t, .following (e.result.1.map fun _ => none)⟩

theorem Returned.iterated (h : Returned g₀ g id t (g₀.station.receive t.receiveTimeout))
    (hb : g₀.station.backend = .hardware .scripted) :
    Iterated g₀ g id t (iteration t g.timestamp g₀.station g₀.inbox) := by
  obtain ⟨hstate, hresult, hinbox⟩ := iteration_of_hardware hb t g.timestamp g₀.inbox
  refine ⟨by rw [hresult, h.clock], h.inbox.trans hinbox.symm, by rw [hstate, h.attached],
    by rw [hstate, h.inbound], ?_⟩
  rw [hresult, h.listener?]
  rcases (g₀.station.receive t.receiveTimeout).result.1 with (_ | _) | _ <;> rfl

/-- An iteration of a loop that nobody disturbs, step by step, comes to what an iteration comes to
by itself. -/
theorem loop_iterates (hg : Lone g id t) (hb : g.station.backend = .hardware .scripted)
    (hid : g.listener? id = some ⟨t, .proceeding (some (g.clock + t.receiveTimeout))⟩)
    {more : List Move} (hm : Always Busy g more) :
    Receiving g (g.through more) id t (g.clock + t.receiveTimeout) ∨
      ∃ before rest, more = before ++ rest ∧ Iterated g (g.through before) id t
        (iteration t (g.through before).timestamp g.station g.inbox) := by
  have hstart : Receiving g g id t (g.clock + t.receiveTimeout) :=
    ⟨hg, rfl, rfl, rfl, ⟨_, hid, rfl, Nat.le_add_right _ _⟩, .inl rfl⟩
  refine (hstart.through hb hm).imp_right ?_
  rintro ⟨before, rest, rfl, hreturned⟩
  exact ⟨before, rest, rfl, hreturned.iterated hb⟩

-- ---------------------------------------------------------------------------
-- Slices and waits
-- ---------------------------------------------------------------------------

/-- A receive in slices is a receive in one wait of the whole timeout, with the scripted radio and
in simulation. In no time, in simulation, without a driver, or when there is nothing to be received,
it brings nothing when exactly the timeout has gone by, and changes nothing. Otherwise it takes
exactly what comes first, at once, and is told the frame with its own signal, the failure or the
crash; the driver stays, and so does what comes after.

A loop that nobody disturbs receives in the same way, step by step with the radio held for a slice
at a time: it always goes on, takes nothing and lets no more time go by before it returns, and it
returns within so many steps; then as much time has gone by, what it was told has come to the inbox
or to a pause, and the radio is free. -/
theorem receive_in_one_wait (s : Station)
    (hb : s.backend = .simulated ∨ s.backend = .hardware .scripted) (timeout : Nat) :
    let e := s.receive timeout
    e = s.receiveAtOnce timeout ∧
    (timeout = 0 ∨ s.backend = .simulated ∨ s.driver = none ∨ s.bench.script.inbound = [] →
      e.result = (.ok none, timeout) ∧ e.state = s) ∧
    (∀ d x rest, 0 < timeout → s.backend = .hardware .scripted → s.driver = some d →
      s.bench.script.inbound = x :: rest →
      e.result = (heardOf x, 0) ∧ e.state = s.taking d x rest ∧ e.state.attached = true) ∧
    ∀ bench capacity epoch moves id t,
      Always Paced (start (.hardware .scripted) bench capacity epoch) moves →
      let g := (start (.hardware .scripted) bench capacity epoch).through moves
      g.station = s → AllOver g →
      g.listener? id = some ⟨t, .proceeding (some (g.clock + timeout))⟩ →
      ∀ more, Always Busy g more →
        let later := g.through more
        (∃ m, Busy later m) ∧
        ((later.inbound = g.inbound ∧ later.inbox = g.inbox ∧ later.clock ≤ g.clock + e.result.2 ∧
            more.length ≤ g.work + 6 * e.result.2) ∨
          ∃ before rest, more = before ++ rest ∧ Returned g (g.through before) id t e) := by
  intro e
  refine ⟨Station.receive_eq_receiveAtOnce hb timeout, fun hq => ?_,
    fun d x rest ht hb' hd hi => ?_, ?_⟩
  · rw [show e = _ from Station.receive_quiet hb hq]
    exact ⟨rfl, rfl⟩
  · rw [show e = _ from Station.receive_takes hb' hd hi ht]
    exact ⟨rfl, rfl, rfl⟩
  · intro bench capacity epoch moves id t hmoves g hs hover hid more hmore later
    have hg : Steady g := steady_through hmoves
    have hsteady : Steady later := hmore.through (fun g m h hm => h.after hm.paced) hg
    refine ⟨hsteady.punctual.busy, ?_⟩
    subst hs
    have hstart : Receiving g g id t (g.clock + timeout) :=
      ⟨⟨hg, hover, _, hid⟩, rfl, rfl, rfl, ⟨_, hid, rfl, Nat.le_add_right _ _⟩, .inl rfl⟩
    refine (hstart.through hg.scripted.backend hmore).imp_left fun hlater => ?_
    have hclock : later.clock ≤ g.clock + e.result.2 :=
      hlater.clock_le_of_receive hg.scripted.backend
    have hlength : more.length ≤ g.work + 6 * (later.clock - g.clock) := (hg.length_busy hmore).2
    exact ⟨hlater.inbound, hlater.inbox, hclock, by omega⟩

/-- A receive of 120 milliseconds when there is nothing to be received, in slices of 50, 50 and 20,
and one that is told a frame. -/
theorem receive_in_one_wait_of_slices :
    let g₀ := start (.hardware .scripted) { board := { chip := Chip.fresh Chip.chipVersion } } 8 0
    let moves : List Move :=
      [.arrive .direct .background (.connect {}), .resume (.client 0), .resume (.client 0),
        .resume (.client 0), .enlist { receiveTimeout := 120 }, .resume (.listener 1)]
    let g := g₀.through moves
    let listen : List Move := List.replicate 2 (.resume (.listener 1))
    let more : List Move :=
      listen ++ [.elapse 50, .resume (.listener 1)] ++ listen ++
        [.elapse 50, .resume (.listener 1)] ++ listen ++
        [.elapse 20] ++ listen ++ [.resume (.listener 1)] ++ listen ++ [.elapse 10]
    let f : Radio.Frame := ⟨[0x68, 0x69], {}⟩
    let s : Station := (g.stimulate (.queue (.frame f))).station
    Always Paced g₀ moves ∧ Always Busy g more ∧
      (∃ before rest, more = before ++ rest ∧
        Returned g (g.through before) 1 { receiveTimeout := 120 } (g.station.receive 120)) ∧
      (g.station.receive 120).result = (.ok none, 120) ∧
      (s.receive 120).result = (.ok (some f), 0) ∧ (s.receive 120).state.attached = true := by
  intro g₀ moves g listen more f s
  have hmoves : Always Paced g₀ moves := by decide +kernel
  have hmore : Always Busy g more := by decide +kernel
  have hb : g.station.backend = .hardware .scripted := by decide +kernel
  have hover : AllOver g := by decide +kernel
  have hnone : g.station.bench.script.inbound = [] :=
    List.eq_nil_of_length_eq_zero (by decide +kernel)
  obtain ⟨-, hquiet, -, hrun⟩ := receive_in_one_wait g.station (.inr hb) 120
  obtain ⟨hresult, -⟩ := hquiet (.inr (.inr (.inr hnone)))
  have hid :
      g.listener? 1 = some ⟨{ receiveTimeout := 120 }, .proceeding (some (g.clock + 120))⟩ := by
    decide +kernel
  obtain ⟨-, hlater⟩ := hrun _ _ _ moves 1 { receiveTimeout := 120 } hmoves rfl hover hid more hmore
  refine ⟨hmoves, hmore, hlater.resolve_left fun hstill => ?_, hresult, ?_⟩
  · have hnow := hstill.2.2.1
    rw [hresult] at hnow
    exact absurd hnow (by decide +kernel)
  · obtain ⟨d, hd⟩ := Option.isSome_iff_exists.mp (show s.driver.isSome = true by decide +kernel)
    obtain ⟨-, -, htakes, -⟩ := receive_in_one_wait s (.inr (by decide +kernel)) 120
    have hi : (g.stimulate (.queue (.frame f))).inbound = [.frame f] := by
      rw [inbound_stimulate, show g.inbound = [] from hnone]
      rfl
    obtain ⟨hresult', -, hattached⟩ := htakes d (.frame f) [] (by decide) (by decide +kernel) hd hi
    exact ⟨hresult', hattached⟩

end RadioGateway.Gateway
