import RadioGateway.Proofs.Waiting

/-!
# Faults delay a receive loop

A failure is paced by the loop itself, a crash by whoever starts the loop again; either way what
comes next is received one pause later, and nothing else takes time while there is something to be
received. So what was queued when a loop starts alone is received at moments that are known
beforehand.
-/

namespace RadioGateway.Radio

/-- Whether a pause follows. -/
def Inbound.faulty : Inbound → Bool
  | .frame _ => false
  | .failure _ | .crash => true

end RadioGateway.Radio

namespace RadioGateway.Gateway

open RadioGateway.Radio (Inbound)

variable {g : Gateway} {id due : Nat} {t : Timing} {k : ListenerStage} {m : Move}

-- ---------------------------------------------------------------------------
-- Schedules
-- ---------------------------------------------------------------------------

/-- When each thing is received if the first is at `due` and every fault is followed by a pause. -/
def schedule (backoff : Nat) : Nat → List Inbound → List (Nat × Inbound)
  | _, [] => []
  | due, x :: rest => (due, x) :: schedule backoff (if x.faulty then due + backoff else due) rest

/-- Whatever is received comes as many pauses after the start as there were faults before it. -/
theorem schedule_eq (backoff due : Nat) (xs : List Inbound) : schedule backoff due xs =
    xs.mapIdx fun i x => (due + (xs.take i).countP Inbound.faulty * backoff, x) := by
  induction xs generalizing due with
  | nil => rfl
  | cons x xs ih =>
    rw [schedule, ih, List.mapIdx_cons]
    cases hx : x.faulty with
    | true => simp [hx, Nat.succ_mul, Nat.add_comm, Nat.add_left_comm, Nat.add_assoc]
    | false => simp [hx]

theorem due_le_of_mem_schedule {backoff : Nat} {xs : List Inbound} {e : Nat × Inbound}
    (he : e ∈ schedule backoff due xs) : due ≤ e.1 := by
  rw [schedule_eq, List.mem_mapIdx] at he
  obtain ⟨i, hi, rfl⟩ := he
  exact Nat.le_add_right _ _

theorem le_due_of_mem_schedule {backoff : Nat} {xs : List Inbound} {e : Nat × Inbound}
    (he : e ∈ schedule backoff due xs) : e.1 ≤ due + xs.countP Inbound.faulty * backoff := by
  rw [schedule_eq, List.mem_mapIdx] at he
  obtain ⟨i, hi, rfl⟩ := he
  exact Nat.add_le_add_left (Nat.mul_le_mul_right _ (List.take_sublist i xs).countP_le) _

theorem map_snd_schedule (backoff due : Nat) (xs : List Inbound) :
    (schedule backoff due xs).map Prod.snd = xs := by
  induction xs generalizing due with
  | nil => rfl
  | cons x xs ih => rw [schedule, List.map_cons, ih]

-- ---------------------------------------------------------------------------
-- A loop that has nobody beside it
-- ---------------------------------------------------------------------------

/-- Every request is over. -/
def AllOver (g : Gateway) : Prop := ∀ id k, g.stage? id = some k → k.isFinished = true

instance (g : Gateway) : Decidable (AllOver g) :=
  decidable_of_iff (∀ c ∈ g.clients, (g.stage? c.1).all Stage.isFinished = true) <| by
    refine ⟨fun h id k hk => ?_, fun h c hc => ?_⟩
    · obtain ⟨c, hc, rfl⟩ := Option.map_eq_some_iff.mp hk
      obtain ⟨before, after, hclients, -⟩ := List.lookup_eq_some_iff.mp hc
      have hall := h (id, c) (by simp [hclients])
      simpa [hk] using hall
    · cases hk : g.stage? c.1 with
      | none => rfl
      | some k => simpa using h c.1 k hk

/-- The loop is the only party that has something to do. -/
structure Lone (g : Gateway) (id : Nat) (t : Timing) : Prop where
  steady : Steady g
  allOver : AllOver g
  loop : ∃ k, g.listener? id = some ⟨t, k⟩

namespace Lone

theorem eq_of_claim {p : Party} (h : Lone g id t) (hp : (g.standing p).active = true) :
    p = .listener id := by
  cases p with
  | client other =>
    cases hk : g.stage? other with
    | none => simp [standing, hk, Standing.gone] at hp
    | some k =>
      rw [standing_client hk] at hp
      have hover := h.allOver other k hk
      cases k with
      | finished o => cases hp
      | _ => cases hover
  | listener other =>
    obtain ⟨k, hid⟩ := h.loop
    cases hl : g.listener? other with
    | none => simp [standing, hl, Standing.gone] at hp
    | some l => rw [h.steady.single other id (by simp [hl]) (by simp [hid])]

theorem eq_of_goes {p : Party} (h : Lone g id t) (hp : g.goes p = true) : p = .listener id :=
  h.eq_of_claim ((h.steady.order.orderly.mem p).mp (InOrder.awake_of_goes hp)).1

/-- Nobody waits for the radio. -/
theorem radio_waiting (h : Lone g id t) : g.radio.waiting = [] := by
  have hradio := h.steady.order.orderly.radio
  have hall (p : Party) (hp : p ∈ g.radio.parties) : p = .listener id :=
    h.eq_of_claim (active_of_radio ((hradio.mem p).mp hp))
  cases hw : g.radio.waiting with
  | nil => rfl
  | cons q rest =>
    cases hh : g.radio.holder with
    | none => cases hw.symm.trans (hradio.sound hh)
    | some p =>
      have hparties : g.radio.parties = p :: q :: rest := by simp [Lock.parties, hh, hw]
      have hp := hall p (by simp [hparties])
      have hq := hall q (by simp [hparties])
      have hnodup : g.radio.parties.Nodup := hradio.nodup
      simp [hparties, hp, hq] at hnodup

/-- The loop is on the agenda, and does not sleep but where it lets time go by. -/
theorem exists_due (h : Lone g id t) : ∃ due, Due g (.listener id) due := by
  obtain ⟨k, hid⟩ := h.loop
  refine (h.steady.order.roused h.steady.punctual hid).resolve_right ?_
  rw [h.radio_waiting]
  exact List.not_mem_nil

theorem goes (h : Lone g id t) (hid : g.listener? id = some ⟨t, k⟩) (hk : k.sleeps = false) :
    g.goes (.listener id) = true := by
  obtain ⟨due, ⟨hs, -⟩ | ⟨-, hp⟩⟩ := h.exists_due
  · obtain ⟨l, hl, hsleeps⟩ := h.steady.sleeper due _ hs
    cases hid.symm.trans hl
    cases hk.symm.trans hsleeps
  · exact hp

theorem attached_after (h : Lone g id t) : (g.after m).station.attached = g.station.attached := by
  refine Gateway.attached_after h.steady.order fun other k _ hp _ => ?_
  cases h.eq_of_goes hp

theorem after (h : Lone g id t) (hm : Busy g m) : Lone (g.after m) id t := by
  refine ⟨h.steady.after hm.paced, ?_, ?_⟩
  · cases m with
    | resume p =>
      obtain rfl := h.eq_of_goes hm
      rw [after_resume hm, Gateway.resume, AllOver, stage?_resumeListener,
        (depart_keeps g _).2.2.2.2.2.2.2.2.2.2.1]
      exact h.allOver
    | elapse ms => exact h.allOver
    | _ => cases hm
  · obtain ⟨k, hid⟩ := h.loop
    have hne : m ≠ .dismiss id := by
      rintro rfl
      cases hm
    obtain ⟨k', hid', -⟩ := listener?_after h.steady.order hid hne
    exact ⟨k', hid'⟩

theorem loopGoes (h : Lone g id t) (hid : g.listener? id = some ⟨t, k⟩)
    (hp : g.goes (.listener id) = true) :
    ∃ k', LoopGoes g id t k k' (g.after (.resume (.listener id))) ∧
      (g.after (.resume (.listener id))).listener? id = some ⟨t, k'⟩ := by
  obtain ⟨k', hgoes⟩ := h.steady.loopGoes hp hid
  exact ⟨k', hgoes, by rw [hgoes.listener?, Function.update_self]⟩

/-- Nothing comes to the inbox but what is received. -/
theorem inbox_after (h : Lone g id t) (hm : Busy g m) :
    (g.after m).inbox = (consumed g m).foldl (fun i x => i.takeIn g.timestamp x) g.inbox := by
  cases m with
  | elapse ms => rw [consumed_eq_nil [] (by simp [Gateway.after, inbound])]; rfl
  | resume p =>
    obtain rfl := h.eq_of_goes hm
    have hafter := after_resume hm
    have hin : (g.depart (.listener id)).inbound = g.inbound := by simp [inbound]
    have hbox : (g.depart (.listener id)).inbox = g.inbox := by simp
    have hts : (g.depart (.listener id)).timestamp = g.timestamp := by simp [timestamp]
    rcases (listens_resumeListener (h.steady.scripted.depart (.listener id)) id).hears with
      ⟨hi, hb⟩ | ⟨hi, hi', hb⟩
    · rw [consumed_eq_nil [] (by rw [hafter, List.append_nil]; exact hi.trans hin), hafter]
      exact hb.trans hbox
    · rw [consumed_eq_singleton (hin ▸ hi) (by rw [hafter]; exact hi'), hafter, ← hbox, ← hts]
      exact hb
  | _ => cases hm

end Lone

-- ---------------------------------------------------------------------------
-- On schedule
-- ---------------------------------------------------------------------------

/-- Where a loop stands that goes on at `wake` and is to receive something at `due`: after a crash
it pauses in between, and otherwise nothing takes time any more. -/
def ListenerStage.Heads (t : Timing) (wake due : Nat) : ListenerStage → Prop
  | .starting | .proceeding none | .waitingRadio _ _ | .backingOff | .restarting => wake = due
  | .proceeding (some deadline) => wake = due ∧ due < deadline
  | .crashed _ => wake + t.errorBackoff = due
  | .simulating | .listening _ _ | .idle _ => False

/-- The loop is to receive something at `due`, not earlier and not later. -/
structure Heads (g : Gateway) (id : Nat) (t : Timing) (due : Nat) : Prop where
  stage : ∃ k wake, g.listener? id = some ⟨t, k⟩ ∧ k.Heads t wake due ∧ g.clock ≤ wake ∧
    Due g (.listener id) wake

theorem ListenerStage.Heads.wake_le {wake : Nat} (h : k.Heads t wake due) : wake ≤ due := by
  cases k with
  | simulating | listening | idle => exact h.elim
  | crashed reason => exact Nat.le_trans (Nat.le_add_right _ _) (Nat.le_of_eq h)
  | proceeding deadline =>
    cases deadline with
    | none => exact Nat.le_of_eq h
    | some deadline => exact Nat.le_of_eq h.1
  | _ => exact Nat.le_of_eq h

/-- What is received at a move, with the moment. -/
def takings (g : Gateway) (m : Move) : List (Nat × Inbound) := (consumed g m).map (g.clock, ·)

namespace Heads

theorem clock_le (h : Heads g id t due) : g.clock ≤ due := by
  obtain ⟨k, wake, -, hk, hle, -⟩ := h.stage
  exact Nat.le_trans hle hk.wake_le

/-- When all wait, nothing that is due is still to be received. -/
theorem clock_lt (h : Heads g id t due) (hq : g.isQuiet = true) : g.clock < due := by
  obtain ⟨k, wake, -, hk, -, hdue⟩ := h.stage
  exact Nat.lt_of_lt_of_le (hdue.clock_lt hq) hk.wake_le

theorem of_goes (hid : g.listener? id = some ⟨t, k⟩) (hp : g.goes (.listener id) = true)
    (hk : k.Heads t g.clock due) : Heads g id t due :=
  ⟨k, g.clock, hid, hk, Nat.le_refl _, .inr ⟨Nat.le_refl _, hp⟩⟩

/-- While time goes by the loop does not change, and it is not kept from going on when it is due. -/
theorem elapse {ms : Nat} (hh : Heads g id t due) (hm : Paced g (.elapse ms)) :
    Heads (g.after (.elapse ms)) id t due := by
  obtain ⟨k, wake, hid, hk, hle, hdue⟩ := hh.stage
  exact ⟨k, wake, hid, hk, hdue.clock_after_le hm (Nat.le_refl _) hle,
    hdue.spared (spares_elapse g _ ms)⟩

/-- A step takes the loop on to what it is to receive, or it receives that. -/
theorem resume (hh : Heads g id t due) (h : Lone g id t) (ha : g.station.attached = true)
    (hx : g.inbound ≠ []) (hp : g.goes (.listener id) = true) :
    let g' := g.after (.resume (.listener id))
    ∃ due', Heads g' id t due' ∧ schedule t.errorBackoff due g.inbound =
      takings g (.resume (.listener id)) ++ schedule t.errorBackoff due' g'.inbound := by
  intro g'
  obtain ⟨k, wake, hid, hk, hle, hdue⟩ := hh.stage
  obtain ⟨k', hgoes, hid'⟩ := h.loopGoes hid hp
  have hc : g'.clock = g.clock := clock_resume g _
  have hwake : wake = g.clock := Nat.le_antisymm (h.steady.order.due_le_clock hp hdue) hle
  have hp' : k'.sleeps = false → g'.goes (.listener id) = true :=
    (h.after (m := .resume _) hp).goes hid'
  -- nothing is received
  have hstill (hi : g'.inbound = g.inbound) (hh' : Heads g' id t due) :
      ∃ due', Heads g' id t due' ∧ schedule t.errorBackoff due g.inbound =
        takings g (.resume (.listener id)) ++ schedule t.errorBackoff due' g'.inbound :=
    ⟨due, hh', by rw [takings, consumed_eq_nil [] (by rw [List.append_nil]; exact hi), hi]; rfl⟩
  subst hwake
  cases hgoes.step with
  | begins hk' hr hi =>
    have hnow : g.clock = due := by rcases hk' with rfl | rfl | rfl <;> exact hk
    have hpatient := (h.steady.loop id t k hid).1
    exact hstill hi (of_goes hid' (hp' rfl) ⟨hc.trans hnow, by omega⟩)
  | expires hk' hd hr hi =>
    rcases hk' with rfl | rfl
    · have hlater : g.clock = due ∧ due < _ := hk
      omega
    · exact hk.elim
  | asks hk' hd hr hi =>
    rcases hk' with rfl | rfl
    · exact hstill hi (of_goes hid' (hp' rfl) (hc.trans hk.1))
    · exact hk.elim
  | listens ha' hr hi hdue' hnone => exact absurd hnone hx
  | takes x hmeets hr hi ha' =>
    have hnow : g.clock = due := hk
    have htaken : takings g (.resume (.listener id)) = [(due, x)] := by
      rw [takings, consumed_eq_singleton hi rfl, hnow]
      rfl
    rw [hi, schedule, htaken]
    refine ⟨_, ?_, rfl⟩
    cases hmeets with
    | frame f => exact of_goes hid' (hp' rfl) (hc.trans hnow)
    | failure reason hagain =>
      exact ⟨_, _, hid', rfl, by rw [hc, ← hnow]; exact Nat.le_add_right _ _, hnow ▸ hagain⟩
    | crash => exact of_goes hid' (hp' rfl) (by rw [hc, hnow]; rfl)
  | idles hr hi hdue' ha' => cases ha.symm.trans ha'
  | ends => exact hk.elim
  | reports hr hi hagain =>
    have hdue' : g.clock + t.errorBackoff = due := hk
    exact hstill hi ⟨_, _, hid', rfl, by rw [hc, ← hdue']; exact Nat.le_add_right _ _,
      hdue' ▸ hagain⟩
  | restarts hr hi => exact hstill hi (of_goes hid' (hp' rfl) (hc.trans hk))

end Heads

/-- A loop alone with a driver, and what is still to be received is received as it is due. -/
structure OnSchedule (g : Gateway) (id : Nat) (t : Timing) (due : Nat) : Prop where
  lone : Lone g id t
  attached : g.station.attached = true
  heads : g.inbound ≠ [] → Heads g id t due

namespace OnSchedule

theorem after (h : OnSchedule g id t due) (hm : Busy g m) :
    ∃ due', OnSchedule (g.after m) id t due' ∧ schedule t.errorBackoff due g.inbound =
      takings g m ++ schedule t.errorBackoff due' (g.after m).inbound := by
  have hlone := h.lone.after hm
  have ha : (g.after m).station.attached = true := h.lone.attached_after.trans h.attached
  have hconserved := conserved_after h.lone.steady.scripted m
  by_cases hx : g.inbound = []
  · -- nothing comes after what was received last
    have hqueued : queued m = [] := by
      cases m with
      | stimulate => cases hm
      | _ => rfl
    rw [hx, hqueued, List.append_nil] at hconserved
    obtain ⟨hnone, hx'⟩ := List.append_eq_nil_iff.mp hconserved.symm
    exact ⟨due, ⟨hlone, ha, fun hne => absurd hx' hne⟩, by rw [hx, hx', takings, hnone]; rfl⟩
  · cases m with
    | elapse ms =>
      refine ⟨due, ⟨hlone, ha, fun _ => (h.heads hx).elapse hm.paced⟩, ?_⟩
      rw [takings, consumed_eq_nil [] (by simp [Gateway.after, inbound])]
      rfl
    | resume p =>
      obtain rfl := h.lone.eq_of_goes hm
      obtain ⟨due', hheads, hschedule⟩ := (h.heads hx).resume h.lone h.attached hx hm
      exact ⟨due', ⟨hlone, ha, fun _ => hheads⟩, hschedule⟩
    | _ => cases hm

end OnSchedule

/-- The inbox after something has been received at a moment. -/
def receiving (g : Gateway) (i : Inbox) (e : Nat × Inbound) : Inbox :=
  i.takeIn { g with clock := e.1 }.timestamp e.2

theorem receiving_after (g : Gateway) (m : Move) : (g.after m).receiving = g.receiving := by
  funext i e
  simp only [receiving, timestamp, epoch_after]

/-- What a run receives is a part of the schedule, from its start on, and comes to the inbox at its
moment. -/
theorem OnSchedule.through (h : OnSchedule g id t due) {more : List Move}
    (hm : Always Busy g more) : ∃ due', OnSchedule (g.through more) id t due' ∧
      schedule t.errorBackoff due g.inbound =
        history takings g more ++ schedule t.errorBackoff due' (g.through more).inbound ∧
      (∀ e ∈ history takings g more, e.1 ≤ (g.through more).clock) ∧
      (g.through more).inbox = (history takings g more).foldl g.receiving g.inbox := by
  induction more generalizing g due with
  | nil => exact ⟨due, h, rfl, by rintro e ⟨⟩, rfl⟩
  | cons m more ih =>
    obtain ⟨due₁, h₁, hstep⟩ := h.after hm.1
    obtain ⟨due₂, h₂, hrest, hpast, hbox⟩ := ih h₁ hm.2
    refine ⟨due₂, h₂, ?_, fun e he => ?_, ?_⟩
    · rw [hstep, hrest, history, List.append_assoc]
      rfl
    · rcases List.mem_append.mp he with he | he
      · obtain ⟨x, -, rfl⟩ := List.mem_map.mp he
        exact (h.lone.steady.length_busy hm).1
      · exact hpast e he
    · rw [history, List.foldl_append, ← receiving_after g m]
      refine hbox.trans (congrArg (fun i => List.foldl _ i _) ?_)
      rw [h.lone.inbox_after hm.1, takings, List.foldl_map, receiving_after]
      rfl

/-- When all wait at the end of a run, it has received what was due by then. -/
theorem OnSchedule.received_of_isQuiet (h : OnSchedule g id t due) {more : List Move}
    (hm : Always Busy g more) (hq : (g.through more).isQuiet = true) :
    let scheduled := schedule t.errorBackoff due g.inbound
    history takings g more = scheduled.filter (fun e => e.1 ≤ (g.through more).clock) ∧
      (g.through more).inbound =
        (scheduled.filter fun e => (g.through more).clock < e.1).map Prod.snd := by
  intro scheduled
  obtain ⟨due', h', hsplit, hpast, -⟩ := h.through hm
  have hlater (e : Nat × Inbound) (he : e ∈ schedule t.errorBackoff due' (g.through more).inbound) :
      (g.through more).clock < e.1 := by
    have hne : (g.through more).inbound ≠ [] := by
      rintro hnil
      simp [hnil, schedule] at he
    exact Nat.lt_of_lt_of_le ((h'.heads hne).clock_lt hq) (due_le_of_mem_schedule he)
  have htaken : (history takings g more).filter (fun e => (g.through more).clock < e.1) = [] :=
    List.filter_eq_nil_iff.mpr fun e he => by simpa using hpast e he
  have hrest : (schedule t.errorBackoff due' (g.through more).inbound).filter
      (fun e => e.1 ≤ (g.through more).clock) = [] :=
    List.filter_eq_nil_iff.mpr fun e he => by simpa using hlater e he
  rw [show scheduled = _ from hsplit, List.filter_append, List.filter_append, hrest, htaken,
    List.filter_eq_self.mpr fun e he => by simpa using hpast e he,
    List.filter_eq_self.mpr fun e he => by simpa using hlater e he, List.append_nil,
    List.nil_append, map_snd_schedule]
  exact ⟨rfl, rfl⟩

theorem onSchedule_enlist (h : Steady g) (ha : g.station.attached = true) (hl : g.listeners = [])
    (hover : AllOver g) (ht : 0 < t.receiveTimeout) :
    OnSchedule (g.after (.enlist t)) g.nextId t g.clock := by
  have hsteady : Steady (g.after (.enlist t)) := h.after ⟨hl, ht⟩
  have hid : (g.after (.enlist t)).listener? g.nextId = some ⟨t, .starting⟩ := by
    rw [Gateway.after, listener?_enlist g t h.order.listener?_next, Function.update_self]
  have hlone : Lone (g.after (.enlist t)) g.nextId t :=
    ⟨hsteady, by simpa [AllOver, Gateway.after] using hover, _, hid⟩
  have hclock : (g.after (.enlist t)).clock = g.clock := by simp [Gateway.after]
  exact ⟨hlone, by simpa [Gateway.after] using ha,
    fun _ => .of_goes hid (hlone.goes hid rfl) hclock⟩

-- ---------------------------------------------------------------------------
-- Every fault, one pause
-- ---------------------------------------------------------------------------

/-- Faults delay a loop by one pause each, and by nothing else. A loop is started in a paced run,
with a driver attached to the scripted radio and nobody else about. Whatever is queued then is
received in order, each thing as many pauses later as there are faults before it: at any later
moment of a run in which nothing comes from outside what has been received is the part of the
schedule that is past, what is due now is still to be received only if somebody can go on, and the
inbox is what it becomes by taking in what has been received, in order, at its moments. There is
always something that can happen, and a run that is long enough has received everything. So whoever
starts the loop and waits finds what is due by then received. -/
theorem received_on_schedule {bench : Station.Bench} {capacity epoch : Nat} {before : List Move}
    {t : Timing} (hbefore : Always Paced (start (.hardware .scripted) bench capacity epoch) before)
    (ht : 0 < t.receiveTimeout) :
    let g := (start (.hardware .scripted) bench capacity epoch).through before
    let loop := g.after (.enlist t)
    let scheduled := g.inbound.mapIdx fun i x =>
      (g.clock + (g.inbound.take i).countP Inbound.faulty * t.errorBackoff, x)
    g.station.attached = true → g.listeners = [] → AllOver g →
      (∀ more, Always Busy loop more →
        let later := loop.through more
        let received := history takings loop more
        (∃ rest, scheduled = received ++ rest ∧ later.inbound = rest.map Prod.snd ∧
          ∀ e ∈ rest, later.clock ≤ e.1 ∧ (later.isQuiet = true → later.clock < e.1)) ∧
        later.inbox = received.foldl g.receiving g.inbox ∧
        (∃ m, Busy later m) ∧
        (loop.work + 6 * (g.inbound.countP Inbound.faulty * t.errorBackoff) < more.length →
          received = scheduled ∧ later.inbound = [])) ∧
      ∀ ms,
        let later := (g.startListener t).1.wait ms
        later.clock = g.clock + ms ∧
        later.inbound = (scheduled.filter fun e => g.clock + ms < e.1).map Prod.snd ∧
        later.inbox = (scheduled.filter fun e => e.1 ≤ g.clock + ms).foldl g.receiving g.inbox := by
  intro g loop scheduled ha hl hover
  have hg : Steady g := steady_through hbefore
  have hloop : OnSchedule loop g.nextId t g.clock := onSchedule_enlist hg ha hl hover ht
  have hinbound : loop.inbound = g.inbound := by simp [loop, Gateway.after, inbound]
  have hinbox : loop.inbox = g.inbox := by simp [loop, Gateway.after]
  have hclock : loop.clock = g.clock := by simp [loop, Gateway.after]
  have hscheduled : schedule t.errorBackoff g.clock loop.inbound = scheduled := by
    rw [hinbound, schedule_eq]
  refine ⟨fun more hmore => ?_, fun ms => ?_⟩
  · intro later received
    obtain ⟨due, hlater, hsplit, hpast, hbox⟩ := hloop.through hmore
    rw [hscheduled] at hsplit
    rw [hinbox, receiving_after] at hbox
    refine ⟨⟨_, hsplit, (map_snd_schedule _ _ _).symm, fun e he => ?_⟩, hbox,
      hlater.lone.steady.punctual.busy, fun hlong => ?_⟩
    · have hne : later.inbound ≠ [] := by
        rintro hnil
        simp [later, hnil, schedule] at he
      have hdue := due_le_of_mem_schedule he
      have hheads := hlater.heads hne
      exact ⟨Nat.le_trans hheads.clock_le hdue,
        fun hq => Nat.lt_of_lt_of_le (hheads.clock_lt hq) hdue⟩
    · have hall : later.inbound = [] := by
        by_contra hne
        obtain ⟨x, rest, hx⟩ := List.exists_cons_of_ne_nil hne
        have hmem : (due, x) ∈ schedule t.errorBackoff g.clock g.inbound := by
          rw [← hinbound, hscheduled, hsplit, hx]
          exact List.mem_append_right _ List.mem_cons_self
        have hdue := le_due_of_mem_schedule hmem
        have hnow := (hlater.heads hne).clock_le
        have hlength := (hloop.lone.steady.length_busy hmore).2
        simp only at hdue
        omega
      rw [hall, schedule, List.append_nil] at hsplit
      exact ⟨hsplit.symm, hall⟩
  · obtain ⟨hquiet, hsettled, moves, hmoves, hthrough⟩ := hloop.lone.steady.settle
    have hsteady : Steady (loop.through moves) :=
      hmoves.through (fun g m h hm => h.after hm.paced) hloop.lone.steady
    rw [hthrough] at hsteady
    obtain ⟨hquiet', hwaited, more, hmore, hwait⟩ := hsteady.wait hquiet ms
    have hrun : loop.through (moves ++ more) = loop.settle.wait ms := by
      rw [through_append, hthrough, hwait]
    have hbusy : Always Busy loop (moves ++ more) := hmoves.append (hthrough ▸ hmore)
    obtain ⟨due, -, -, -, hbox⟩ := hloop.through hbusy
    obtain ⟨hreceived, hleft⟩ := hloop.received_of_isQuiet hbusy (hrun ▸ hquiet')
    rw [hscheduled, hrun, hwaited, hsettled, hclock] at hreceived hleft
    rw [hrun, hreceived, hinbox, receiving_after] at hbox
    exact ⟨by rw [← hclock, ← hsettled]; exact hwaited, hleft, hbox⟩

/-- A failure, a crash, a frame that is no text and a text: the text is received two pauses after
the start. -/
theorem received_on_schedule_after_faults :
    let inbound : List Inbound :=
      [.failure "SPI transfer failed", .crash, .frame ⟨[0xFF, 0xFE], {}⟩, .frame ⟨[0x68, 0x69], {}⟩]
    let g₀ := start (.hardware .scripted)
      { script := { inbound }, board := { chip := Chip.fresh Chip.chipVersion } } 8 0
    let before : List Move :=
      [.arrive .direct .background (.connect {}), .resume (.client 0), .resume (.client 0),
        .resume (.client 0)]
    let g := g₀.through before
    let loop := g.after (.enlist {})
    let slice : List Move := List.replicate 3 (.resume (.listener 1))
    let more : List Move :=
      slice ++ [.elapse 1000] ++ slice ++ [.resume (.listener 1), .elapse 400, .elapse 600,
        .resume (.listener 1)] ++ slice ++ slice
    Always Paced g₀ before ∧ g.station.attached = true ∧ g.listeners = [] ∧ AllOver g ∧
      Always Busy loop more ∧
      (history takings loop more).map Prod.fst = [0, 1000, 2000, 2000] ∧
      (loop.through more).inbound = [] ∧
      let later := (g.startListener {}).1.wait 2000
      later.clock = 2000 ∧ later.inbound = [] ∧ later.inbox.stats.received = 1 ∧
        later.inbox.stats.decodeErrors = 1 := by
  intro inbound g₀ before g loop slice more
  have hbefore : Always Paced g₀ before := by decide +kernel
  have hattached : g.station.attached = true := by decide +kernel
  have hlisteners : g.listeners = [] := List.eq_nil_of_length_eq_zero (by decide +kernel)
  have hover : AllOver g := by decide +kernel
  have hmore : Always Busy loop more := by decide +kernel
  have hclock : g.clock = 0 := by decide +kernel
  obtain ⟨hruns, hwaits⟩ :=
    received_on_schedule (t := {}) hbefore (by decide) hattached hlisteners hover
  obtain ⟨⟨rest, hsplit, hleft, -⟩, -⟩ := hruns more hmore
  have hempty : (loop.through more).inbound = [] :=
    List.eq_nil_of_length_eq_zero (by decide +kernel)
  obtain rfl : rest = [] := List.map_eq_nil_iff.mp (hleft.symm.trans hempty)
  rw [List.append_nil] at hsplit
  obtain ⟨hnow, hnone, hbox⟩ := hwaits 2000
  refine ⟨hbefore, hattached, hlisteners, hover, hmore, ?_, hempty, ?_, ?_, ?_, ?_⟩
  · rw [← hsplit]
    decide +kernel
  · rw [hnow, hclock]
  · rw [hnone]
    exact List.eq_nil_of_length_eq_zero (by decide +kernel)
  · rw [hbox]
    decide +kernel
  · rw [hbox]
    decide +kernel

end RadioGateway.Gateway
