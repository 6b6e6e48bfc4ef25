import RadioGateway.Gateway.Iteration
import RadioGateway.Proofs.Accounting
import RadioGateway.Proofs.FailedConnects
import RadioGateway.Proofs.Progress

/-!
# A simulated gateway is driven by the clock

In simulation a loop makes a packet whenever its interval is over, whatever the clients do beside
it. The moments are counted from the start of the loop and not from the moment at which it goes on,
and nothing that the loop needs is shared but the inbox, which nobody keeps.
-/

namespace RadioGateway.Gateway

open Function (update)
open RadioGateway.Radio (Config Update)
open RadioGateway.Station (Bench)

variable {g g' : Gateway} {id c n limit : Nat} {t : Timing} {k : ListenerStage} {m : Move}

-- ---------------------------------------------------------------------------
-- In simulation
-- ---------------------------------------------------------------------------

/-- What holds at every moment of a run in simulation. -/
structure InSimulation (g : Gateway) : Prop where
  order : InOrder g
  punctual : Punctual g
  prompt : Prompt g
  line : InLine g
  simulated : Simulated g

theorem InSimulation.after (h : InSimulation g) (m : Move) : InSimulation (g.after m) :=
  ⟨h.order.after m, h.punctual.after m, h.prompt.after h.order m, h.line.use h.order (.move m),
    h.simulated.after h.prompt h.order h.line m⟩

theorem InSimulation.through (h : InSimulation g) (moves : List Move) :
    InSimulation (g.through moves) := by
  induction moves generalizing g with
  | nil => exact h
  | cons m moves ih => exact ih (h.after m)

theorem inSimulation_start (bench : Bench) (capacity epoch : Nat) :
    InSimulation (start .simulated bench capacity epoch) where
  order := inOrder_start .simulated bench capacity epoch
  punctual := punctual_through .simulated bench capacity epoch []
  prompt := prompt_through (.inl rfl) bench capacity epoch []
  line := inLine_start .simulated bench capacity epoch
  simulated := simulated_through bench capacity epoch []

/-- What is allowed while a loop is left to itself: time goes by as it does in a paced run, and no
loop comes or goes. -/
def Timely (g : Gateway) : Move → Prop
  | .elapse ms => Paced g (.elapse ms)
  | .enlist _ | .dismiss _ => False
  | _ => True

instance (g : Gateway) : (m : Move) → Decidable (Timely g m)
  | .elapse ms => inferInstanceAs (Decidable (Paced g (.elapse ms)))
  | .enlist _ | .dismiss _ => inferInstanceAs (Decidable False)
  | .arrive _ _ _ | .resume _ | .forget _ | .poll | .stimulate _ | .relog _ =>
    inferInstanceAs (Decidable True)

theorem Timely.paced (h : Timely g m) : Paced g m := by
  cases m with
  | elapse ms => exact h
  | enlist t => exact h.elim
  | _ => trivial

theorem Busy.timely (h : Busy g m) : Timely g m := by
  cases m with
  | resume p => trivial
  | elapse ms => exact h.2
  | _ => cases h

-- ---------------------------------------------------------------------------
-- A step of a loop
-- ---------------------------------------------------------------------------

/-- A step of a loop in simulation: it sleeps through its interval once more, and if it has slept
before a packet comes in. -/
structure Beats (g : Gateway) (id : Nat) (t : Timing) (k : ListenerStage)
    (g' : Gateway) : Prop where
  listener? : g'.listener? = update g.listener? id (some ⟨t, .simulating⟩)
  due : Due g' (.listener id) (g.clock + t.simulationInterval)
  station : g'.station = g.station
  nextId : g'.nextId = g.nextId
  inbox : k = .starting ∧ g'.inbox = g.inbox ∨
    k = .simulating ∧ g'.inbox = (g.inbox.publish (.synthetic g.timestamp)).1

theorem beats_resumeListener (hb : g.station.backend = .simulated)
    (hid : g.listener? id = some ⟨t, k⟩) (hk : k = .starting ∨ k = .simulating) :
    Beats g id t k (g.resumeListener id) := by
  have hsim : g.station.simulated = true := by simp [Station.simulated, hb]
  unfold resumeListener
  rw [hid]
  rcases hk with rfl | rfl
  · simp only [iterate, note_keeps, hsim, if_true]
    exact ⟨by simp [hid], due_listenerSleeps (by simp) _ _, by simp, by simp, .inl ⟨rfl, by simp⟩⟩
  · simp only [iterate, note_keeps, withInbox_keeps, hsim, if_true]
    exact ⟨by simp [hid], due_listenerSleeps (by simp) _ _, by simp, by simp,
      .inr ⟨rfl, by simp [Inbox.acceptSynthetic]⟩⟩

theorem InSimulation.beats (h : InSimulation g) (hid : g.listener? id = some ⟨t, k⟩)
    (hp : g.goes (.listener id) = true) : Beats g id t k (g.after (.resume (.listener id))) := by
  have hbeats :
      Beats (g.depart (.listener id)) id t k ((g.depart (.listener id)).resumeListener id) :=
    beats_resumeListener (by simpa using h.simulated.backend) (by simpa using hid)
      (h.simulated.listener id _ hid)
  rw [after_resume hp, resume]
  exact ⟨by simpa using hbeats.listener?, by simpa using hbeats.due, by simpa using hbeats.station,
    by simpa using hbeats.nextId, by simpa [timestamp] using hbeats.inbox⟩

/-- Between two steps of a loop in simulation an iteration goes by. -/
theorem Beats.iterated (h : Beats g id t .simulating g') (hb : g.station.backend = .simulated) :
    let e := iteration t g.timestamp g.station g.inbox
    e.result.1 = .ok () ∧ g'.station = e.state.1 ∧ g'.inbox = e.state.2 ∧
      Due g' (.listener id) (g.clock + e.result.2) := by
  have hsim : g.station.simulated = true := by simp [Station.simulated, hb]
  have hinbox : g'.inbox = (g.inbox.publish (.synthetic g.timestamp)).1 :=
    (h.inbox.resolve_left fun hstart => by cases hstart.1).2
  simp only [iteration, hsim, if_true, Inbox.acceptSynthetic]
  exact ⟨trivial, h.station, hinbox, h.due⟩

-- ---------------------------------------------------------------------------
-- What comes in
-- ---------------------------------------------------------------------------

/-- The packet that comes in at a move, with the moment: a loop that has slept through its interval
goes on. -/
def incoming (g : Gateway) : Move → List (Nat × Packet)
  | .resume (.listener id) =>
    if g.goes (.listener id) = true ∧ (g.listener? id).map Listener.stage = some .simulating then
      [(g.clock, .synthetic g.timestamp)]
    else []
  | _ => []

/-- The packets that come in and find fewer than `limit` packets queued. -/
def admits (limit : Nat) (g : Gateway) (m : Move) : List Packet :=
  (incoming g m).flatMap fun e => g.inbox.admitted limit (.publish e.2)

/-- The packets that come in and find no room. -/
def turnsAway (limit : Nat) (g : Gateway) (m : Move) : List Packet :=
  (incoming g m).flatMap fun e => g.inbox.refused limit (.publish e.2)

/-- What a move comes to for the inbox in simulation. -/
inductive Brings (g : Gateway) (m : Move) : Prop
  | packet (e : Nat × Packet) (hin : incoming g m = [e]) (hm : polled g m = [])
      (hb : (g.after m).inbox = g.inbox.perform (.publish e.2))
  | poll (hm : m = .poll)
  | nothing (hin : incoming g m = []) (hm : polled g m = [])
      (hb : (g.after m).inbox.received = g.inbox.received)

theorem incoming_of_goes (hid : g.listener? id = some ⟨t, .simulating⟩)
    (hp : g.goes (.listener id) = true) :
    incoming g (.resume (.listener id)) = [(g.clock, .synthetic g.timestamp)] := by
  simp [incoming, hid, hp]

/-- Nothing comes in but at a step of a loop. -/
theorem incoming_eq_nil (h : ∀ id l, ¬Attends g m id l) : incoming g m = [] := by
  unfold incoming
  split
  · rename_i id
    split
    · rename_i hgoes
      obtain ⟨l, hid, -⟩ := Option.map_eq_some_iff.mp hgoes.2
      exact absurd ⟨rfl, hgoes.1, hid⟩ (h id l)
    · rfl
  · rfl

theorem InSimulation.brings (h : InSimulation g) (m : Move) : Brings g m := by
  have hpolled (hm : m ≠ .poll) : polled g m = [] := by
    cases m <;> first | rfl | exact absurd rfl hm
  by_cases hattends : ∃ id l, Attends g m id l
  · obtain ⟨id, ⟨t, k⟩, rfl, hp, hid⟩ := hattends
    rcases (h.beats hid hp).inbox with ⟨rfl, hb⟩ | ⟨rfl, hb⟩
    · exact .nothing (by simp [incoming, hid]) rfl (by rw [hb])
    · exact .packet _ (incoming_of_goes hid hp) rfl hb
  · have hnone : ∀ id l, ¬Attends g m id l := fun id l ha => hattends ⟨id, l, ha⟩
    by_cases hm : m = .poll
    · exact .poll hm
    · exact .nothing (incoming_eq_nil hnone) (hpolled hm) ((unattended hnone).2 hm)

/-- The accounts of the packets that have come in from one moment to another. -/
structure Accounted (limit : Nat) (i : Inbox) (arrived admitted refused polled : List Packet)
    (i' : Inbox) : Prop where
  queue : i.packets ++ admitted = polled ++ i'.packets
  received : i'.stats.received = i.stats.received + arrived.length
  dropped : i'.stats.dropped = i.stats.dropped + refused.length
  count : admitted.length + refused.length = arrived.length
  capacity : i'.buffer.capacity = limit

theorem Accounted.trans {i i' i'' : Inbox} {as as' ds ds' rs rs' ps ps' : List Packet}
    (h : Accounted limit i as ds rs ps i') (h' : Accounted limit i' as' ds' rs' ps' i'') :
    Accounted limit i (as ++ as') (ds ++ ds') (rs ++ rs') (ps ++ ps') i'' where
  queue := by rw [← List.append_assoc, h.queue, List.append_assoc, h'.queue, List.append_assoc]
  received := by rw [h'.received, h.received, List.length_append, Nat.add_assoc]
  dropped := by rw [h'.dropped, h.dropped, List.length_append, Nat.add_assoc]
  count := by
    have hfirst := h.count
    have hsecond := h'.count
    simp only [List.length_append]
    omega
  capacity := h'.capacity

theorem InSimulation.accounted (h : InSimulation g) (hl : g.inbox.buffer.capacity = limit)
    (m : Move) :
    Accounted limit g.inbox ((incoming g m).map Prod.snd) (admits limit g m) (turnsAway limit g m)
      (polled g m) (g.after m).inbox := by
  subst hl
  cases h.brings m with
  | packet e hin hm hb =>
    have hqueue := g.inbox.packets_perform (.publish e.2)
    rw [Inbox.accepted_eq_admitted] at hqueue
    simp only [admits, turnsAway, hin, hm, hb, List.flatMap_singleton, List.map_singleton]
    refine ⟨hqueue, g.inbox.received_publish e.2, g.inbox.dropped_perform _, ?_,
      g.inbox.capacity_perform _⟩
    simp only [Inbox.admitted, Inbox.refused]
    split <;> rfl
  | poll hm =>
    subst hm
    exact ⟨g.inbox.packets_perform .poll, rfl, rfl, rfl, rfl⟩
  | nothing hin hm hb =>
    have hbuffer : (g.after m).inbox.buffer = g.inbox.buffer := by
      simpa [Inbox.received] using congrArg Inbox.buffer hb
    have hreceived : (g.after m).inbox.stats.received = g.inbox.stats.received := by
      simpa [Inbox.received] using congrArg (fun i => i.stats.received) hb
    have hdropped : (g.after m).inbox.stats.dropped = g.inbox.stats.dropped := by
      simpa [Inbox.received] using congrArg (fun i => i.stats.dropped) hb
    simp only [admits, turnsAway, hin, hm, List.flatMap_nil, List.map_nil]
    exact ⟨by simp [Inbox.packets, hbuffer], hreceived, hdropped, rfl, by rw [hbuffer]⟩

theorem InSimulation.accounted_through (h : InSimulation g) (hl : g.inbox.buffer.capacity = limit)
    (moves : List Move) : Accounted limit g.inbox ((history incoming g moves).map Prod.snd)
      (history (admits limit) g moves) (history (turnsAway limit) g moves) (history polled g moves)
      (g.through moves).inbox := by
  induction moves generalizing g with
  | nil => exact ⟨by simp [history], rfl, rfl, rfl, hl⟩
  | cons m moves ih =>
    have hstep := h.accounted hl m
    simp only [history, List.map_append]
    exact hstep.trans (ih (h.after m) hstep.capacity)

-- ---------------------------------------------------------------------------
-- A loop that is left to itself
-- ---------------------------------------------------------------------------

/-- When the packet number `k` of a loop is due that started at `c`, and the packet. -/
def duePacket (g : Gateway) (t : Timing) (c k : Nat) : Nat × Packet :=
  let due := c + (k + 1) * t.simulationInterval
  (due, .synthetic { g with clock := due }.timestamp)

theorem duePacket_after (g : Gateway) (t : Timing) (c : Nat) (m : Move) :
    (g.after m).duePacket t c = g.duePacket t c := by
  funext k
  simp only [duePacket, timestamp, epoch_after]

theorem duePacket_through (g : Gateway) (t : Timing) (c : Nat) (moves : List Move) :
    (g.through moves).duePacket t c = g.duePacket t c := by
  induction moves generalizing g with
  | nil => rfl
  | cons m moves ih => exact (ih (g.after m)).trans (g.duePacket_after t c m)

/-- Where a loop stands that started at `c` and has made `n` packets. -/
inductive Awaits (g : Gateway) (id : Nat) (t : Timing) (c : Nat) : Nat → Prop
  | start (hid : g.listener? id = some ⟨t, .starting⟩) (hc : g.clock = c)
      (hp : g.goes (.listener id) = true) : Awaits g id t c 0
  | packet {n : Nat} (hid : g.listener? id = some ⟨t, .simulating⟩)
      (hle : c + n * t.simulationInterval ≤ g.clock)
      (hlt : g.clock ≤ c + (n + 1) * t.simulationInterval)
      (hdue : Due g (.listener id) (c + (n + 1) * t.simulationInterval)) : Awaits g id t c n

/-- The loop that started at `c` is the only one, and it has made `n` packets. -/
structure Ticks (g : Gateway) (id : Nat) (t : Timing) (c n : Nat) : Prop where
  sim : InSimulation g
  alone : ∀ id', g.listener? id' ≠ none → id' = id
  awaits : Awaits g id t c n

theorem Awaits.listener? (h : Awaits g id t c n) : ∃ k, g.listener? id = some ⟨t, k⟩ := by
  cases h with
  | start hid => exact ⟨_, hid⟩
  | packet hid => exact ⟨_, hid⟩

theorem Awaits.clock (h : Awaits g id t c n) :
    c + n * t.simulationInterval ≤ g.clock ∧ g.clock ≤ c + (n + 1) * t.simulationInterval := by
  cases h with
  | start hid hc => simp [hc]
  | packet hid hle hlt => exact ⟨hle, hlt⟩

/-- When all wait, the next packet is not yet due. -/
theorem Awaits.clock_lt (h : Awaits g id t c n) (hq : g.isQuiet = true) :
    g.clock < c + (n + 1) * t.simulationInterval := by
  cases h with
  | start hid hc hp => cases (not_goes_of_isQuiet hq _).symm.trans hp
  | packet hid hle hlt hdue =>
    exact hdue.clock_lt hq

/-- Somebody else's move leaves the loop where it is, and time does not go by beyond the moment at
which it wakes. -/
theorem Awaits.spared (h : Awaits g id t c n) (hm : Timely g m)
    (hs : Spares (.listener id) g (g.after m)) (hl : (g.after m).listener? id = g.listener? id) :
    Awaits (g.after m) id t c n := by
  have hclock {due : Nat} (hdue : Due g (.listener id) due) (hle : g.clock ≤ due) :
      (g.after m).clock ≤ due :=
    hdue.clock_after_le hm.paced (Nat.le_refl _) hle
  cases h with
  | start hid hc hp =>
    have hnow : (g.after m).clock ≤ c := hclock (.inr ⟨Nat.le_of_eq hc.symm, hp⟩) (Nat.le_of_eq hc)
    exact .start (hl.trans hid) (Nat.le_antisymm hnow (hc ▸ hs.clock)) (hs.goes hp)
  | packet hid hle hlt hdue =>
    exact .packet (hl.trans hid) (Nat.le_trans hle hs.clock) (hclock hdue hlt) (hdue.spared hs)

/-- When all wait, every interval that is over has made its packet. -/
theorem Awaits.count_of_isQuiet (h : Awaits g id t c n) (hq : g.isQuiet = true) :
    n = (g.clock - c) / t.simulationInterval := by
  have hle := h.clock.1
  have hlt := h.clock_lt hq
  exact (Nat.div_eq_of_lt_le (by omega) (by omega)).symm

/-- So it is at every moment but those at which an interval is over. -/
theorem Awaits.count_of_not_dvd (h : Awaits g id t c n) (hd : ¬t.simulationInterval ∣ g.clock - c) :
    n = (g.clock - c) / t.simulationInterval := by
  obtain ⟨hle, hlt⟩ := h.clock
  have hne : g.clock - c ≠ (n + 1) * t.simulationInterval := fun he =>
    hd (he ▸ Nat.dvd_mul_left _ _)
  exact (Nat.div_eq_of_lt_le (by omega) (by omega)).symm

namespace Ticks

/-- A step of the loop is its start, or it makes the packet that is due. -/
theorem resume (h : Ticks g id t c n) (hp : g.goes (.listener id) = true) :
    let m : Move := .resume (.listener id)
    Awaits (g.after m) id t c n ∧ incoming g m = [] ∨
      Awaits (g.after m) id t c (n + 1) ∧ incoming g m = [g.duePacket t c n] := by
  intro m
  have hclock : (g.after m).clock = g.clock := clock_resume g _
  have hid' {k : ListenerStage} (hbeats : Beats g id t k (g.after m)) :
      (g.after m).listener? id = some ⟨t, .simulating⟩ := by
    rw [hbeats.listener?, Function.update_self]
  cases h.awaits with
  | start hid hc =>
    have hbeats := h.sim.beats hid hp
    refine .inl ⟨.packet (hid' hbeats) ?_ ?_ ?_, by simp [m, incoming, hid]⟩
    · rw [hclock, hc]
      simp
    · rw [hclock, hc]
      exact Nat.le_add_right _ _
    · simpa [hc] using hbeats.due
  | packet hid hle hlt hdue =>
    have hbeats := h.sim.beats hid hp
    have hnow : g.clock = c + (n + 1) * t.simulationInterval :=
      Nat.le_antisymm hlt (h.sim.order.due_le_clock hp hdue)
    refine .inr ⟨.packet (hid' hbeats) ?_ ?_ ?_, ?_⟩
    · rw [hclock, hnow]
    · rw [hclock, hnow]
      exact Nat.add_le_add_left (Nat.mul_le_mul_right _ (Nat.le_succ _)) _
    · have hnext := hbeats.due
      rwa [hnow, Nat.add_assoc, ← Nat.succ_mul] at hnext
    · rw [incoming_of_goes hid hp, duePacket, ← hnow]

theorem after (h : Ticks g id t c n) (hm : Timely g m) :
    Ticks (g.after m) id t c n ∧ incoming g m = [] ∨
      Ticks (g.after m) id t c (n + 1) ∧ incoming g m = [g.duePacket t c n] := by
  have halone (id' : Nat) (hid' : (g.after m).listener? id' ≠ none) : id' = id := by
    by_contra hne
    have hnone : g.listener? id' = none := by_contra fun hsome => hne (h.alone id' hsome)
    refine hid' (listener?_after_of_none h.sim.order hnone ?_)
    rintro t' rfl
    cases hm
  by_cases hown : m = .resume (.listener id) ∧ g.goes (.listener id) = true
  · obtain ⟨rfl, hp⟩ := hown
    exact (h.resume hp).imp (.imp_left fun ha => ⟨h.sim.after _, halone, ha⟩)
      (.imp_left fun ha => ⟨h.sim.after _, halone, ha⟩)
  · obtain ⟨k, hid⟩ := h.awaits.listener?
    have hne : m ≠ .dismiss id := by
      rintro rfl
      cases hm
    obtain ⟨k', hid', ⟨rfl, hs⟩ | ⟨he, hp, -⟩⟩ := listener?_after h.sim.order hid hne
    · refine .inl ⟨⟨h.sim.after m, halone, h.awaits.spared hm hs (hid'.trans hid.symm)⟩,
        incoming_eq_nil ?_⟩
      rintro id' l ⟨he, hp, hl⟩
      obtain rfl := h.alone id' (by simp [hl])
      exact hown ⟨he, hp⟩
    · exact absurd ⟨he, hp⟩ hown

/-- Whatever happens beside the loop, what comes in are the packets that are due. -/
theorem through (h : Ticks g id t c n) {moves : List Move} (hm : Always Timely g moves) :
    ∃ n', Ticks (g.through moves) id t c n' ∧ (List.range n').map (g.duePacket t c) =
      (List.range n).map (g.duePacket t c) ++ history incoming g moves := by
  induction moves generalizing g n with
  | nil => exact ⟨n, h, by simp [history]⟩
  | cons m moves ih =>
    rcases h.after hm.1 with ⟨h', hin⟩ | ⟨h', hin⟩
    · obtain ⟨n', hlater, hpackets⟩ := ih h' hm.2
      rw [duePacket_after] at hpackets
      exact ⟨n', hlater, by rw [hpackets, history, hin, List.nil_append]⟩
    · obtain ⟨n', hlater, hpackets⟩ := ih h' hm.2
      rw [duePacket_after] at hpackets
      refine ⟨n', hlater, ?_⟩
      rw [hpackets, history, hin, List.range_succ, List.map_append, List.append_assoc]
      rfl

end Ticks

/-- In simulation, and no loop has been started. -/
structure Loopless (g : Gateway) : Prop where
  sim : InSimulation g
  listener? : ∀ id, g.listener? id = none

namespace Loopless

theorem incoming (h : Loopless g) (m : Move) : incoming g m = [] := by
  unfold Gateway.incoming
  split
  · simp [h.listener?]
  · rfl

theorem after (h : Loopless g) (hm : Timely g m) : Loopless (g.after m) := by
  refine ⟨h.sim.after m, fun id => listener?_after_of_none h.sim.order (h.listener? id) ?_⟩
  rintro t rfl
  cases hm

/-- Without a loop nothing comes in. -/
theorem history_incoming (h : Loopless g) {moves : List Move} (hm : Always Timely g moves) :
    history Gateway.incoming g moves = [] := by
  induction moves generalizing g with
  | nil => rfl
  | cons m moves ih => rw [history, h.incoming m, ih (h.after hm.1) hm.2, List.append_nil]

theorem ticks_enlist (h : Loopless g) (t : Timing) :
    Ticks (g.after (.enlist t)) g.nextId t g.clock 0 := by
  have hlisteners := listener?_enlist g t h.sim.order.listener?_next
  refine ⟨h.sim.after _, fun id hid => ?_, .start ?_ ?_ (goes_wake _ _)⟩
  · by_contra hne
    rw [Gateway.after, hlisteners, Function.update_of_ne hne, h.listener?] at hid
    exact hid rfl
  · rw [Gateway.after, hlisteners, Function.update_self]
  · simp [Gateway.after]

end Loopless

-- ---------------------------------------------------------------------------
-- The scheduler
-- ---------------------------------------------------------------------------

theorem Ticks.work_resume (h : Ticks g id t c n) (ht : 0 < t.simulationInterval) {p : Party}
    (hp : g.goes p = true) : (g.after (.resume p)).work < g.work := by
  cases p with
  | client other => exact h.sim.prompt.work_client h.sim.order hp
  | listener other =>
    obtain ⟨⟨t', k⟩, hid⟩ := h.sim.order.listener?_of_goes hp
    obtain rfl := h.alone other (by simp [hid])
    obtain ⟨k', hid'⟩ := h.awaits.listener?
    cases hid.symm.trans hid'
    have hbeats := h.sim.beats hid hp
    have hinbound : (g.after (.resume (.listener other))).inbound = g.inbound := by
      rw [inbound, hbeats.station, inbound]
    have hbefore : 0 < g.loopSteps other := by
      rw [loopSteps_of_goes h.sim.order hid hp]
      rcases h.sim.simulated.listener other _ hid with rfl | rfl <;> simp [ListenerStage.steps]
    have hafter : (g.after (.resume (.listener other))).loopSteps other = 0 :=
      loopSteps_of_due hbeats.due (by rw [clock_resume]; omega)
    refine h.sim.order.work_listener hp hid hbeats.nextId ?_
    rw [hinbound, hafter]
    exact Nat.lt_add_of_pos_right hbefore

theorem unwinds_ticks (ht : 0 < t.simulationInterval) : Unwinds fun g => ∃ n, Ticks g id t c n where
  after g m := by
    rintro ⟨n, h⟩ hm
    rcases h.after hm.timely with ⟨h', -⟩ | ⟨h', -⟩
    · exact ⟨n, h'⟩
    · exact ⟨n + 1, h'⟩
  punctual g := fun ⟨_, h⟩ => h.sim.punctual
  work g p := fun ⟨_, h⟩ hp => h.work_resume ht hp

-- ---------------------------------------------------------------------------
-- Connects
-- ---------------------------------------------------------------------------

/-- What a connect to `c` is told in simulation: it succeeds exactly if its configuration is in
range. -/
inductive Decides (c : Config) : Outcome → Prop
  | takes (hv : c.Valid) : Decides c (.ok (.connected Station.simulatedDevice c))
  | refuses {fault : Radio.ConfigFault} (hv : ¬c.Valid) (hf : c.fault? = some fault) :
      Decides c (.error (.configuration fault.message))

theorem Decides.of_fault {fault : Radio.ConfigFault} {c : Config} (hf : c.fault? = some fault) :
    Decides c (.error (.configuration fault.message)) :=
  .refuses (fun hv => by cases hf.symm.trans ((Config.fault?_eq_none_iff c).mpr hv)) hf

/-- Openings in simulation always come to the same. -/
def simulatedOpening (_ : Nat) : Except Radio.RadioError Station.Device :=
  .ok Station.simulatedDevice

theorem decides_serve (s : Serial) (u : Update) :
    ∃ o, (s.serve simulatedOpening (.connect u)).outcomes = s.outcomes ++ [o] ∧
      Decides (s.link.config.merge u) o := by
  simp only [Serial.serve]
  split
  · rename_i fault hf
    exact ⟨_, rfl, .of_fault hf⟩
  · rename_i hf
    exact ⟨_, rfl, .takes ((Config.fault?_eq_none_iff _).mp hf)⟩

theorem InSimulation.attempts (h : InSimulation g) (m : Move) :
    ∀ r ∈ attempts g m, r = .ok Station.simulatedDevice := by
  intro r hr
  unfold Gateway.attempts at hr
  split at hr
  · rename_i id
    split at hr
    · rename_i hp
      obtain ⟨k, hid, hr⟩ := List.mem_flatMap.mp hr
      have hstage : g.stage? id = some k := Option.mem_toList.mp hid
      unfold Stage.attempt at hr
      split at hr
      · rename_i c
        rw [Station.beginAttach_simulated h.simulated.backend c] at hr
        exact List.mem_singleton.mp hr
      · exact absurd hstage (h.simulated.not_opening h.order h.line hp _ _)
      · cases hr
    · cases hr
  · cases hr

theorem InSimulation.history_attempts (h : InSimulation g) (moves : List Move) :
    ∀ r ∈ history Gateway.attempts g moves, r = .ok Station.simulatedDevice := by
  induction moves generalizing g with
  | nil => rintro r ⟨⟩
  | cons m moves ih =>
    intro r hr
    rcases List.mem_append.mp hr with hr | hr
    · exact h.attempts m r hr
    · exact ih (h.after m) r hr

/-- Connects and disconnects are served one after another, in the order in which they ask for their
turn, and a connect succeeds exactly if its update makes a configuration in range of the one that
was committed before. Nobody is left in line when all wait. -/
def ServedInTurn (g : Gateway) (moves : List Move) : Prop :=
  ∃ served waiting : List (Nat × Change),
    let link (i : Nat) := (serially simulatedOpening ((served.take i).map Prod.snd)).link
    history arrivals g moves = served ++ waiting ∧
    (history endings g moves).map Prod.fst = served.map Prod.fst ∧
    (g.through moves).link = link served.length ∧
    ((g.through moves).isQuiet = true → waiting = []) ∧
    ∀ i id u, served[i]? = some (id, .connect u) →
      ∃ o, (history endings g moves)[i]? = some (id, o) ∧ Decides ((link i).config.merge u) o

theorem servedInTurn (bench : Bench) (capacity epoch : Nat) (moves : List Move) :
    ServedInTurn (start .simulated bench capacity epoch) moves := by
  let g₀ := start .simulated bench capacity epoch
  have hsim : InSimulation g₀ := inSimulation_start bench capacity epoch
  have hopenings : ∀ i r, (history attempts g₀ moves)[i]? = some r → simulatedOpening i = r :=
    fun i r hi => (hsim.history_attempts moves r (List.mem_of_getElem? hi)).symm
  obtain ⟨served, waiting, harrivals, hendings, hline⟩ :=
    line_through .simulated bench capacity epoch moves hopenings
  refine ⟨served, waiting, harrivals, ?_, ?_, fun hq => ?_, fun i id u hi => ?_⟩
  · rw [hendings, List.map_fst_zip]
    simp [length_outcomes_serially]
  · simpa only [List.take_length] using hline.link
  · have hlater := hsim.through moves
    have hfree := hlater.simulated.turn_free hlater.order hq
    have hwaits : (g₀.through moves).turn.waiting = [] := hlater.order.orderly.turn.sound hfree
    have hparties : (g₀.through moves).turn.parties = [] := by
      rw [Lock.parties, hfree, hwaits]
      rfl
    simpa using hline.parties.symm.trans hparties
  · obtain ⟨o, ho, hdecides⟩ :=
      decides_serve (serially simulatedOpening ((served.take i).map Prod.snd)) u
    have hchange : (served.map Prod.snd)[i]? = some (.connect u) := by simp [hi]
    rw [List.map_take] at ho
    refine ⟨o, ?_, hdecides⟩
    rw [hendings, List.getElem?_zip_eq_some]
    exact ⟨by simp [hi], outcomes_serially_getElem? simulatedOpening _ hchange ho⟩

-- ---------------------------------------------------------------------------
-- A request whose outcome is waited for
-- ---------------------------------------------------------------------------

/-- Every request but one is over. -/
def OthersOver (g : Gateway) (id : Nat) : Prop :=
  ∀ other k, other ≠ id → g.stage? other = some k → k.isFinished = true

/-- Where a connect stands that nobody else is beside, from its arrival; `config` has been committed
before. -/
inductive ConnectStands (g : Gateway) (id : Nat) (u : Update) (config : Config) : Prop
  | asks (hid : g.stage? id = some (.arrived (.connect u)) ∨
      g.stage? id = some (.waitingTurn (.connect u))) (hc : g.link.config = config)
  | opens (hid : g.stage? id = some (.waitingRadio (.attach (config.merge u))))
      (hv : (config.merge u).fault? = none)
  | ended {o : Outcome} (hid : g.stage? id = some (.finished o)) (ho : Decides (config.merge u) o)

variable {u : Update} {config : Config}

/-- Nobody forgets a request as long as nothing comes from outside. -/
theorem Busy.known (hm : Busy g m) (h : InSimulation g) (hid : g.stage? id ≠ none) :
    (g.after m).stage? id ≠ none := by
  by_cases hown : m = .resume (.client id)
  · subst hown
    obtain ⟨k, k', -, -, hgoes⟩ := h.prompt.clientGoes h.order hm
    rw [hgoes.stage?, Function.update_self]
    simp
  · rwa [hm.stage?_of_ne hown]

theorem OthersOver.goes (h : OthersOver g id) (ho : InOrder g) {other : Nat}
    (hp : g.goes (.client other) = true) : other = id := by
  by_contra hne
  obtain ⟨k, hk, hf⟩ := ho.stage?_of_goes hp
  cases (h other k hne hk).symm.trans hf

theorem OthersOver.after (h : OthersOver g id) (ho : InOrder g) (hm : Busy g m) :
    OthersOver (g.after m) id := by
  intro other k hne hk
  rw [hm.stage?_of_ne (by rintro rfl; exact hne (h.goes ho hm))] at hk
  exact h other k hne hk

theorem ConnectStands.resume (h : ConnectStands g id u config) (hs : InSimulation g)
    (hp : g.goes (.client id) = true) :
    ConnectStands (g.after (.resume (.client id))) id u config := by
  cases h with
  | asks hid hc =>
    rcases hid with hid | hid
    · obtain ⟨hid', hsame⟩ := change_asks (x := .connect u) hp hid
      exact .asks (.inr hid') (by rw [hsame.link, hc])
    · cases hf : (g.link.config.merge u).fault? with
      | some fault =>
        obtain ⟨hout, -⟩ := connect_refused hp hid hf
        exact .ended ((outcome?_eq_some _ _).mp hout) (hc ▸ .of_fault hf)
      | none =>
        obtain ⟨hid', -⟩ := connect_proceeds hp hid hf
        exact .opens (hc ▸ hid') (hc ▸ hf)
  | opens hid hv =>
    have hattempt : (Stage.waitingRadio (.attach (config.merge u))).attempt g.station =
        [.ok Station.simulatedDevice] := by
      simp only [Stage.attempt, Station.beginAttach_simulated hs.simulated.backend]
    obtain ⟨c, hc, hid', -⟩ := attempt_commits hs.line hs.order hp hid hattempt
    rcases hc with hc | ⟨o, hc⟩ <;> cases hc
    exact .ended hid' (.takes ((Config.fault?_eq_none_iff _).mp hv))
  | ended hid =>
    obtain ⟨k, hk, hf⟩ := hs.order.stage?_of_goes hp
    cases hid.symm.trans hk
    cases hf

theorem ConnectStands.after (h : ConnectStands g id u config) (hs : InSimulation g)
    (hover : OthersOver g id) (hm : Busy g m) : ConnectStands (g.after m) id u config := by
  by_cases hown : m = .resume (.client id)
  · subst hown
    exact h.resume hs hm
  · have hid' := hm.stage?_of_ne hown
    have hlink : (g.after m).link = g.link := by
      cases m with
      | elapse ms => rfl
      | resume p =>
        cases p with
        | client other =>
          exact absurd (congrArg (Move.resume ∘ Party.client) (hover.goes hs.order hm)) hown
        | listener other =>
          rw [after_resume hm]
          exact ((aside_depart _).trans (aside_resumeListener _ other)).link
      | _ => cases hm
    cases h with
    | asks hid hc => exact .asks (by rwa [hid']) (by rw [hlink, hc])
    | opens hid hv => exact .opens (hid'.trans hid) hv
    | ended hid ho => exact .ended (hid'.trans hid) ho

/-- Nothing comes in as long as no time goes by. -/
theorem Ticks.history_incoming (h : Ticks g id t c n) {moves : List Move}
    (hm : Always Timely g moves) (hq : g.isQuiet = true) (hq' : (g.through moves).isQuiet = true)
    (hclock : (g.through moves).clock = g.clock) : history incoming g moves = [] := by
  obtain ⟨n', hlater, hpackets⟩ := h.through hm
  have hsame : n' = n := by
    rw [hlater.awaits.count_of_isQuiet hq', h.awaits.count_of_isQuiet hq, hclock]
  rw [hsame] at hpackets
  simpa using hpackets

/-- Without a poll the inbox stays as it is while nothing comes in. -/
theorem InSimulation.received_through (h : InSimulation g) {moves : List Move}
    (hpoll : Always (fun _ m => m ≠ .poll) g moves) (hin : history incoming g moves = []) :
    (g.through moves).inbox.received = g.inbox.received := by
  induction moves generalizing g with
  | nil => rfl
  | cons m moves ih =>
    obtain ⟨hfirst, hrest⟩ := List.append_eq_nil_iff.mp hin
    refine (ih (h.after m) hpoll.2 hrest).trans ?_
    cases h.brings m with
    | packet e hin' => cases hfirst.symm.trans hin'
    | poll hm => exact absurd hm hpoll.1
    | nothing hin' hm hb => exact hb

theorem ConnectStands.through (h : ConnectStands g id u config) (hs : InSimulation g)
    (hover : OthersOver g id) {moves : List Move} (hm : Always Busy g moves) :
    ConnectStands (g.through moves) id u config := by
  induction moves generalizing g with
  | nil => exact h
  | cons m moves ih =>
    exact ih (h.after hs hover hm.1) (hs.after m) (hover.after hs.order hm.1) hm.2

/-- A connect that has come in when all wait stands alone. -/
theorem connectStands_arrive (h : InSimulation g) (hq : g.isQuiet = true) (origin : Origin)
    (manner : Manner) (u : Update) :
    let arrived := g.after (.arrive origin manner (.connect u))
    OthersOver arrived g.nextId ∧ ConnectStands arrived g.nextId u g.link.config := by
  intro arrived
  have hstage : arrived.stage? = update g.stage? g.nextId (some (.arrived (.connect u))) :=
    stage?_arrive g origin manner _ h.order.stage?_next
  refine ⟨fun other k hne hk => ?_,
    .asks (.inl (by simp [hstage])) (by simp [arrived, Gateway.after])⟩
  rw [hstage, Function.update_of_ne hne] at hk
  obtain ⟨o, rfl⟩ := h.simulated.all_over h.order hq hk
  rfl

/-- What has become of a request that came in when all waited and was left to the scheduler: no time
has gone by, it has its outcome, and all wait again. -/
structure Served (g : Gateway) (r : Request) (g' : Gateway) (o : Outcome) : Prop where
  quiet : g'.isQuiet = true
  clock : g'.clock = g.clock
  outcome : g'.outcome? g.nextId = some o
  decides : ∀ u, r = .connect u → Decides (g.link.config.merge u) o

theorem Ticks.served (h : Ticks g id t c n) (ht : 0 < t.simulationInterval) (hq : g.isQuiet = true)
    (origin : Origin) (manner : Manner) (r : Request) :
    let arrived := g.after (.arrive origin manner r)
    ∃ moves o, Always Busy arrived moves ∧ arrived.through moves = arrived.settle ∧
      Served g r arrived.settle o := by
  intro arrived
  have harrived : Ticks arrived id t c n := by
    rcases h.after (m := .arrive origin manner r) trivial with ⟨h', -⟩ | ⟨-, hin⟩
    · exact h'
    · cases hin
  have hknown : arrived.stage? g.nextId ≠ none := by
    simp [arrived, Gateway.after, stage?_arrive g origin manner r h.sim.order.stage?_next]
  obtain ⟨hquiet, hclock, moves, hbusy, hthrough⟩ := (unwinds_ticks ht).settle ⟨n, harrived⟩
  obtain ⟨hsim, hknown'⟩ :=
    hbusy.through (P := fun g' => InSimulation g' ∧ g'.stage? g.nextId ≠ none)
    (fun g' m hs hm => ⟨hs.1.after m, hm.known hs.1 hs.2⟩) ⟨harrived.sim, hknown⟩
  rw [hthrough] at hsim hknown'
  obtain ⟨k, hk⟩ := Option.ne_none_iff_exists'.mp hknown'
  obtain ⟨o, rfl⟩ := hsim.simulated.all_over hsim.order hquiet hk
  refine ⟨moves, o, hbusy, hthrough, hquiet, hclock.trans (clock_after (by simp)),
    (outcome?_eq_some _ _).mpr hk, ?_⟩
  rintro u rfl
  obtain ⟨hover, hstands⟩ := connectStands_arrive h.sim hq origin manner u
  have hends := hstands.through harrived.sim hover hbusy
  rw [hthrough] at hends
  cases hends with
  | asks hid => rcases hid with hid | hid <;> cases hk.symm.trans hid
  | opens hid => cases hk.symm.trans hid
  | ended hid ho =>
    cases hk.symm.trans hid
    exact ho

/-- From one moment to another nothing but what is timely has happened, and all wait. -/
def Reaches (g g' : Gateway) : Prop :=
  g'.isQuiet = true ∧ ∃ moves, Always Timely g moves ∧ g.through moves = g'

/-- Whoever makes a request is answered before any time goes by, nothing comes in and no packet is
taken, and a connect succeeds exactly if its configuration is in range. -/
def AnswersAtOnce (g : Gateway) : Prop :=
  ∀ (origin : Origin) (r : Request),
    let next := (g.request origin r).1
    Reaches g next ∧ next.clock = g.clock ∧ next.inbox.received = g.inbox.received ∧
      ∃ o, (g.request origin r).2 = some o ∧ ∀ u, r = .connect u → Decides (g.link.config.merge u) o

theorem Ticks.answersAtOnce (h : Ticks g id t c n) (ht : 0 < t.simulationInterval)
    (hq : g.isQuiet = true) : AnswersAtOnce g := by
  intro origin r next
  let arrived := g.after (.arrive origin .foreground r)
  obtain ⟨moves, o, hbusy, hthrough, hserved⟩ := h.served ht hq origin .foreground r
  have hanswered : (arrived.settle.outcome? g.nextId).isSome := by simp [arrived, hserved.outcome]
  have hrequest : g.request origin r = (arrived.settle.forget g.nextId, some o) := by
    show arrived.settle.collect g.nextId = _
    rw [collect, awaitWithin_of_outcome hanswered, hserved.outcome]
  have hnext : next = arrived.settle.forget g.nextId := congrArg Prod.fst hrequest
  let further := .arrive origin .foreground r :: (moves ++ [.forget g.nextId])
  have hfurther : g.through further = next := by
    show arrived.through (moves ++ [.forget g.nextId]) = next
    rw [through_snoc, hthrough, hnext]
    exact if_pos hanswered
  have htimely : Always Timely g further :=
    ⟨trivial, (hbusy.mono fun g m => Busy.timely).append ⟨trivial, trivial⟩⟩
  have hpoll : Always (fun _ m => m ≠ .poll) g further := by
    refine ⟨by simp, (hbusy.mono fun g m hm => ?_).append ⟨by simp, trivial⟩⟩
    rintro rfl
    cases hm
  have hquiet : next.isQuiet = true := hnext ▸ hserved.quiet
  have hclock : next.clock = g.clock := hnext ▸ hserved.clock
  have hin := h.history_incoming htimely hq (hfurther ▸ hquiet) (hfurther ▸ hclock)
  refine ⟨⟨hquiet, further, htimely, hfurther⟩, hclock, ?_, o, by rw [hrequest], hserved.decides⟩
  rw [← hfurther]
  exact h.sim.received_through hpoll hin

theorem Ticks.reaches_wait (h : Ticks g id t c n) (ht : 0 < t.simulationInterval)
    (hq : g.isQuiet = true) (ms : Nat) :
    Reaches g (g.wait ms) ∧ (g.wait ms).clock = g.clock + ms := by
  obtain ⟨hquiet, hclock, moves, hbusy, hthrough⟩ := (unwinds_ticks ht).wait ⟨n, h⟩ hq ms
  exact ⟨⟨hquiet, moves, hbusy.mono fun g m => Busy.timely, hthrough⟩, hclock⟩

-- ---------------------------------------------------------------------------
-- Every run
-- ---------------------------------------------------------------------------

/-- Whoever asks for the statistics or for the state of the service is told that the radio is
connected, and changes nothing by asking. -/
def SaysConnected (g : Gateway) : Prop :=
  g.report.link.connected = true ∧
  ∀ (manner : Manner) (r : Http.Request),
    (r.call = .stats → Http.serve g manner r =
      (g, .answered ((Http.Response.ok (Http.statsBody
        { stats := g.inbox.stats,
          link := { config := g.link.config, connected := true } })).forMethod r.method))) ∧
    (r.call = .health → Http.serve g manner r =
      (g, .answered ((Http.Response.ok (Http.healthBody false true)).forMethod r.method)))

theorem saysConnected (hb : g.station.backend = .simulated) : SaysConnected g := by
  have hsim : g.station.simulated = true := by simp [Station.simulated, hb]
  have hreport : g.report =
      { stats := g.inbox.stats, link := { config := g.link.config, connected := true } } := by
    simp [report, hsim]
  refine ⟨by rw [hreport], fun manner r => ⟨fun hr => ?_, fun hr => ?_⟩⟩
  · simp only [Http.serve, hr, hreport]
  · simp only [Http.serve, hr, hreport, hsim, Bool.not_true]

section Runs

variable {bench : Bench} {capacity epoch : Nat} {before more : List Move}

/-- A loop that is started when there is none, and all that comes in from then on. -/
theorem ticks_run (hbefore : Always Timely (start .simulated bench capacity epoch) before)
    (hmore : Always Timely
      (((start .simulated bench capacity epoch).through before).after (.enlist t)) more) :
    let g₀ := start .simulated bench capacity epoch
    let begun := g₀.through before
    let run := before ++ .enlist t :: more
    let n := (g₀.through run).inbox.stats.received
    Ticks (g₀.through run) begun.nextId t begun.clock n ∧
      history incoming g₀ run = (List.range n).map (g₀.duePacket t begun.clock) ∧
      Accounted (max capacity 1) (.withCapacity capacity) ((history incoming g₀ run).map Prod.snd)
        (history (admits (max capacity 1)) g₀ run) (history (turnsAway (max capacity 1)) g₀ run)
        (history polled g₀ run) (g₀.through run).inbox := by
  intro g₀ begun run n
  have hsim : InSimulation g₀ := inSimulation_start bench capacity epoch
  have hstart : Loopless g₀ := ⟨hsim, fun id => rfl⟩
  have hbegun : Loopless begun := hbefore.through (fun g m h hm => h.after hm) hstart
  have haccounts :=
    hsim.accounted_through (show g₀.inbox.buffer.capacity = max capacity 1 from rfl) run
  obtain ⟨count, hticks, hpackets⟩ := (hbegun.ticks_enlist t).through hmore
  have hin : history incoming g₀ run = (List.range count).map (g₀.duePacket t begun.clock) := by
    rw [duePacket_after, duePacket_through] at hpackets
    rw [history_append, hstart.history_incoming hbefore, List.nil_append, history, hbegun.incoming,
      List.nil_append]
    exact hpackets.symm
  have hcount : count = n := by
    have hreceived : n = 0 + _ := haccounts.received
    rw [hreceived, hin]
    simp
  rw [hcount] at hticks hin
  exact ⟨by rwa [through_append], hin, haccounts⟩

/-- A simulated gateway is driven by the clock alone. A loop is started in simulation, and from then
on time goes by as it does in a paced run, while connects, disconnects, sends, polls and whatever
else come in and go on at any moment and in any order. Then the packets that have come in are those
that were due since the loop began, one for every interval, each at its moment; so at every moment
at which no interval is just over, and whenever all wait, there are as many as there are whole
intervals, and they are the same whatever else was done. Those that were polled and those that are
queued are the packets that found room, in order, and dropped are those that found the buffer full.
Whoever asks is told, in every state, that the radio is connected. Connects and disconnects are
served in turn, and a connect succeeds exactly if its configuration, merged with the one committed
before, is in range. Only the passing of time moves the clock: a request made when all wait is
answered before time goes by, and whoever waits finds every interval that is over to have made its
packet. -/
theorem driven_by_clock (ht : 0 < t.simulationInterval)
    (hbefore : Always Timely (start .simulated bench capacity epoch) before)
    (hmore : Always Timely
      (((start .simulated bench capacity epoch).through before).after (.enlist t)) more) :
    let g₀ := start .simulated bench capacity epoch
    let begun := (g₀.through before).clock
    let run := before ++ .enlist t :: more
    let later := g₀.through run
    let n := later.inbox.stats.received
    (history incoming g₀ run = (List.range n).map fun k =>
      let due := begun + (k + 1) * t.simulationInterval
      (due, .synthetic { g₀ with clock := due }.timestamp)) ∧
    begun + n * t.simulationInterval ≤ later.clock ∧
    later.clock ≤ begun + (n + 1) * t.simulationInterval ∧
    (¬t.simulationInterval ∣ later.clock - begun →
      n = (later.clock - begun) / t.simulationInterval ∧
      ∀ others, Always Timely ((g₀.through before).after (.enlist t)) others →
        (g₀.through (before ++ .enlist t :: others)).clock = later.clock →
        history incoming g₀ (before ++ .enlist t :: others) = history incoming g₀ run) ∧
    history polled g₀ run ++ later.inbox.packets = history (admits (max capacity 1)) g₀ run ∧
    later.inbox.stats.dropped = (history (turnsAway (max capacity 1)) g₀ run).length ∧
    (history polled g₀ run).length + later.inbox.packets.length = n - later.inbox.stats.dropped ∧
    (∀ moves, SaysConnected (g₀.through moves)) ∧
    ServedInTurn g₀ run ∧
    (∀ m, (∀ ms, m ≠ .elapse ms) → (later.after m).clock = later.clock) ∧
    (later.isQuiet = true →
      n = (later.clock - begun) / t.simulationInterval ∧
      AnswersAtOnce later ∧
      ∀ ms, Reaches later (later.wait ms) ∧ (later.wait ms).clock = later.clock + ms ∧
        (later.wait ms).inbox.stats.received = (later.clock + ms - begun) /
          t.simulationInterval) := by
  intro g₀ begun run later n
  obtain ⟨hticks, hpackets, haccounts⟩ := ticks_run hbefore hmore
  have hqueue : history (admits (max capacity 1)) g₀ run = history polled g₀ run ++
      later.inbox.packets := by
    simpa [Inbox.packets, Inbox.withCapacity, Buffer.withCapacity] using haccounts.queue
  have hdropped :
      later.inbox.stats.dropped = (history (turnsAway (max capacity 1)) g₀ run).length := by
    simpa [Inbox.withCapacity] using haccounts.dropped
  refine ⟨hpackets, hticks.awaits.clock.1, hticks.awaits.clock.2,
    fun hd => ⟨hticks.awaits.count_of_not_dvd hd, ?_⟩, hqueue.symm, hdropped, ?_,
    fun moves => saysConnected (backend_through g₀ moves),
    servedInTurn bench capacity epoch run, fun m => clock_after, fun hq =>
    ⟨hticks.awaits.count_of_isQuiet hq, hticks.answersAtOnce ht hq, fun ms => ?_⟩⟩
  · intro others hothers hclock
    obtain ⟨hticks', hpackets', -⟩ := ticks_run hbefore hothers
    have hsame := hticks'.awaits.count_of_not_dvd (by rwa [hclock])
    rw [hclock, ← hticks.awaits.count_of_not_dvd hd] at hsame
    rw [hpackets', hsame]
    exact hpackets.symm
  · have hall := haccounts.count
    rw [hqueue, List.length_append, ← hdropped, hpackets, List.length_map, List.length_map,
      List.length_range] at hall
    exact (Nat.sub_eq_of_eq_add hall.symm).symm
  · obtain ⟨⟨hquiet, further, hfurther, hthrough⟩, hclock⟩ := hticks.reaches_wait ht hq ms
    have hlater : (((g₀.through before).after (.enlist t)).through more) = later :=
      (through_append g₀ before (.enlist t :: more)).symm
    obtain ⟨hticks', -⟩ := ticks_run hbefore (hmore.append (by rwa [hlater]))
    have hwait : g₀.through (before ++ .enlist t :: (more ++ further)) = later.wait ms := by
      rw [← hthrough, ← through_append, List.append_assoc]
      rfl
    rw [hwait] at hticks'
    exact ⟨⟨hquiet, further, hfurther, hthrough⟩, hclock,
      hclock ▸ hticks'.awaits.count_of_isQuiet hquiet⟩

end Runs

/-- Beside a connect that is refused, a poll and a send, three packets have come in after 65 ms: one
was polled, one is queued, and one found the buffer full. -/
theorem driven_by_clock_beside_requests :
    let g₀ := start .simulated { board := { chip := Chip.fresh Chip.chipVersion } } 1 0
    let t : Timing := { simulationInterval := 20 }
    let before : List Move :=
      [.arrive .direct .background (.connect {}), .resume (.client 0), .resume (.client 0),
        .resume (.client 0)]
    let more : List Move :=
      [.resume (.listener 1), .elapse 20, .resume (.listener 1),
        .arrive .http .foreground (.connect { txPower := some 99 }), .resume (.client 2),
        .resume (.client 2), .elapse 7, .poll, .elapse 13, .resume (.listener 1),
        .arrive .direct .background (.send (.ok [0x68, 0x69])), .resume (.client 3),
        .resume (.client 3), .elapse 20, .resume (.listener 1), .elapse 5]
    let run := before ++ .enlist t :: more
    let later := g₀.through run
    Always Timely g₀ before ∧ Always Timely ((g₀.through before).after (.enlist t)) more ∧
      later.isQuiet = true ∧ later.clock = 65 ∧ later.inbox.stats.received = 3 ∧
      (history incoming g₀ run).map Prod.fst = [20, 40, 60] ∧ later.inbox.stats.dropped = 1 ∧
      (history polled g₀ run).length + later.inbox.packets.length = 2 ∧ SaysConnected later ∧
      (∃ fault, (later.request .http (.connect { txPower := some 99 })).2 =
        some (.error (.configuration fault))) ∧
      (later.wait 15).inbox.stats.received = 4 := by
  intro g₀ t before more run later
  have hbefore : Always Timely g₀ before := by decide +kernel
  have hmore : Always Timely ((g₀.through before).after (.enlist t)) more := by decide +kernel
  have hquiet : later.isQuiet = true := by decide +kernel
  have hclock : later.clock = 65 := by decide +kernel
  have hbegun : (g₀.through before).clock = 0 := by decide +kernel
  have hdropped : later.inbox.stats.dropped = 1 := by decide +kernel
  have hpower (c : Config) : ¬(c.merge { txPower := some 99 }).Valid := fun hv =>
    absurd hv.txPower.2 (by decide : ¬(99 : Int) ≤ 23)
  obtain ⟨hpackets, -, -, -, -, -, hkept, htold, -, -, hrest⟩ :=
    driven_by_clock (t := t) (by decide) hbefore hmore
  obtain ⟨hreceived, hanswers, hwaits⟩ := hrest hquiet
  have hinterval : t.simulationInterval = 20 := rfl
  have hthree : later.inbox.stats.received = 3 := by rw [hreceived, hclock, hbegun, hinterval]
  refine ⟨hbefore, hmore, hquiet, hclock, hthree, ?_, hdropped, ?_, htold run, ?_, ?_⟩
  · rw [hpackets, hthree, hbegun]
    rfl
  · rw [hkept, hthree, hdropped]
  · obtain ⟨-, -, -, o, ho, hdecides⟩ := hanswers .http (.connect { txPower := some 99 })
    cases hdecides _ rfl with
    | takes hv => exact absurd hv (hpower _)
    | refuses hv hf => exact ⟨_, ho⟩
  · rw [(hwaits 15).2.2, hclock, hbegun, hinterval]

end RadioGateway.Gateway
