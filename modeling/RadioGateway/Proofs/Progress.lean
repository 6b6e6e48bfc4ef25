import Mathlib.Algebra.BigOperators.Group.Finset.Piecewise
import Mathlib.Algebra.Order.BigOperators.Group.Finset
import RadioGateway.Proofs.Pacing

/-!
# What is done before time goes by

Everything that can go on comes to wait, or is done: `work` counts the steps that can be taken
before time has to go by, and every step takes at least one off. Time that goes by wakes the loop,
which makes for a few steps more. So a run in which nothing comes from outside is no longer than the
work at its start and the time it takes allow.
-/

namespace RadioGateway.Gateway

variable {g g' : Gateway} {id due : Nat} {p : Party} {m : Move} {k : Stage}

-- ---------------------------------------------------------------------------
-- Steps that are left
-- ---------------------------------------------------------------------------

/-- Steps that a request takes at most up to its end. -/
def Stage.steps : Stage → Nat
  | .arrived _ => 5
  | .waitingTurn _ => 4
  | .waitingRadio (.attach _) => 3
  | .opening _ _ => 2
  | .waitingRadio _ | .transmitting _ _ => 1
  | .finished _ => 0

/-- Steps that a loop takes at most before it lets time go by, unless there is something to be
received. -/
def ListenerStage.steps (clock : Nat) : ListenerStage → Nat
  | .waitingRadio _ _ => 1
  | .proceeding (some deadline) => if deadline ≤ clock then 4 else 2
  | .proceeding none | .starting | .backingOff => 3
  | .restarting => 4
  | .simulating | .listening _ _ | .idle _ | .crashed _ => 5

theorem ListenerStage.steps_proceeding (clock : Nat) (deadline : Option Nat) :
    (ListenerStage.proceeding deadline).steps clock ≤ 4 := by
  cases deadline with
  | none => simp [steps]
  | some deadline => simp only [steps]; split <;> omega

theorem ListenerStage.steps_le (clock : Nat) (k : ListenerStage) : k.steps clock ≤ 5 := by
  cases k with
  | proceeding deadline => exact Nat.le_succ_of_le (steps_proceeding clock deadline)
  | _ => simp [steps]

def loopSteps (g : Gateway) (id : Nat) : Nat :=
  match g.listener? id with
  | none => 0
  | some l => if .listener id ∈ g.asleep.map Prod.snd then 0 else l.stage.steps g.clock

/-- Steps that are left to the parties of that number. -/
def steps (g : Gateway) (id : Nat) : Nat := ((g.stage? id).map Stage.steps).getD 0 + g.loopSteps id

/-- Steps that can be taken before time has to go by. Whatever is received makes for eight at
most. -/
def work (g : Gateway) : Nat := 8 * g.inbound.length + ∑ id ∈ Finset.range g.nextId, g.steps id

/-- The work changes by what changes for the one whose move it is. -/
theorem work_add (hid : id < g.nextId) (hn : g'.nextId = g.nextId)
    (hothers : ∀ x ≠ id, g'.steps x = g.steps x) :
    g'.work + (8 * g.inbound.length + g.steps id) = g.work +
      (8 * g'.inbound.length + g'.steps id) := by
  have hmem : id ∈ Finset.range g.nextId := Finset.mem_range.mpr hid
  have hrest : ∑ x ∈ (Finset.range g.nextId).erase id, g'.steps x =
      ∑ x ∈ (Finset.range g.nextId).erase id, g.steps x :=
    Finset.sum_congr rfl fun x hx => hothers x (Finset.ne_of_mem_erase hx)
  have hsum := Finset.add_sum_erase _ g.steps hmem
  have hsum' := Finset.add_sum_erase _ g'.steps hmem
  simp only [work, hn]
  omega

theorem loopSteps_le (g : Gateway) (id : Nat) : g.loopSteps id ≤ 5 := by
  unfold loopSteps
  split
  · exact Nat.zero_le _
  · split
    · exact Nat.zero_le _
    · exact ListenerStage.steps_le _ _

/-- A loop that can go on does not sleep. -/
theorem loopSteps_of_goes {l : Listener} (ho : InOrder g) (hid : g.listener? id = some l)
    (hp : g.goes (.listener id) = true) : g.loopSteps id = l.stage.steps g.clock := by
  have hnot : Party.listener id ∉ g.asleep.map Prod.snd := by
    intro hm
    obtain ⟨⟨due, q⟩, hs, rfl⟩ := List.mem_map.mp hm
    exact ho.not_asleep hp due hs
  simp [loopSteps, hid, hnot]

/-- A loop that is not to go on yet has nothing to do. -/
theorem loopSteps_of_due (hdue : Due g (.listener id) due) (hlt : g.clock < due) :
    g.loopSteps id = 0 := by
  rcases hdue with ⟨hs, -⟩ | ⟨hle, -⟩
  · have hm : Party.listener id ∈ g.asleep.map Prod.snd := List.mem_map.mpr ⟨_, hs, rfl⟩
    unfold loopSteps
    split
    · rfl
    · rw [if_pos hm]
  · omega

-- ---------------------------------------------------------------------------
-- Every step takes one off
-- ---------------------------------------------------------------------------

/-- A step makes nobody else fall asleep or wake. -/
theorem mem_asleep_resume {q : Party} (hne : q ≠ p) :
    q ∈ (g.after (.resume p)).asleep.map Prod.snd ↔ q ∈ g.asleep.map Prod.snd := by
  cases hp : g.goes p with
  | false => rw [after_resume_of_not_goes hp]
  | true =>
    obtain ⟨naps, hn, hnaps⟩ := (lasting_resume (g.depart p) p).asleep
    have hasleep : (g.after (.resume p)).asleep = g.asleep ++ naps := by
      rw [after_resume hp, ← (depart_keeps_others g p).1]
      exact hn
    have hnot : q ∉ naps.map Prod.snd := by
      intro hq
      obtain ⟨s, hs, rfl⟩ := List.mem_map.mp hq
      exact hne (hnaps s hs).1
    rw [hasleep, List.map_append, List.mem_append, or_iff_left hnot]

/-- The steps of a loop that somebody else's step leaves alone. -/
theorem loopSteps_resume (hne : .listener id ≠ p) :
    (g.after (.resume p)).loopSteps id = g.loopSteps id := by
  have hl : (g.after (.resume p)).listener? id = g.listener? id := by
    cases hp : g.goes p with
    | false => rw [after_resume_of_not_goes hp]
    | true =>
      rw [after_resume hp, listener?_resume fun he => absurd he.symm hne]
      simp
  simp only [loopSteps, hl, clock_resume, mem_asleep_resume hne]

theorem Prompt.work_client (h : Prompt g) (ho : InOrder g) (hp : g.goes (.client id) = true) :
    (g.after (.resume (.client id))).work < g.work := by
  obtain ⟨k, k', hid, -, hgoes⟩ := h.clientGoes ho hp
  have hknown : id < g.nextId := ho.fresh.client id (by simp [hid])
  have hinbound : (g.after (.resume (.client id))).inbound = g.inbound := by
    rw [after_resume hp]
    exact (sends_resumeClient (g.depart (.client id)) id).inbound.trans (by simp [inbound])
  have hloop (x : Nat) : (g.after (.resume (.client id))).loopSteps x = g.loopSteps x :=
    loopSteps_resume (by simp)
  have hadd := work_add hknown hgoes.nextId fun x hx => by
    simp only [steps, hloop, hgoes.stage?, Function.update_of_ne hx]
  have hless : k'.steps < k.steps := by
    cases hgoes.step with
    | refuses | queues | rejects | opens => simp [Stage.steps]
    | asks hk => cases hk <;> simp [Stage.steps]
    | retries e hk =>
      cases k with
      | waitingRadio e => cases e <;> simp [Stage.attaches, Stage.steps] at hk ⊢
      | opening => simp [Stage.steps]
      | _ => cases hk
    | ends o hk =>
      cases k with
      | waitingRadio e => cases e <;> simp [Stage.steps]
      | opening | transmitting => simp [Stage.steps]
      | _ => simp [Stage.standing, Standing.free, Standing.gone] at hk
  simp only [steps, hloop, hgoes.stage?, Function.update_self, hid,
    Option.map_some, Option.getD_some, hinbound] at hadd
  omega

/-- A step of a loop takes work off if it does so for the loop itself. -/
theorem InOrder.work_listener {l : Listener} (h : InOrder g) (hp : g.goes (.listener id) = true)
    (hid : g.listener? id = some l) (hn : (g.after (.resume (.listener id))).nextId = g.nextId)
    (hless : 8 * (g.after (.resume (.listener id))).inbound.length +
      (g.after (.resume (.listener id))).loopSteps id < 8 * g.inbound.length + g.loopSteps id) :
    (g.after (.resume (.listener id))).work < g.work := by
  have hstage : (g.after (.resume (.listener id))).stage? = g.stage? := by
    rw [after_resume hp, resume, stage?_resumeListener]
    simp
  have hadd := work_add (h.fresh.listener id (by simp [hid])) hn fun x hx => by
    simp only [steps, hstage, loopSteps_resume (p := .listener id) (by simpa using hx)]
  simp only [steps, hstage] at hadd
  omega

namespace Steady

theorem work_loop (h : Steady g) (hp : g.goes (.listener id) = true) :
    (g.after (.resume (.listener id))).work < g.work := by
  obtain ⟨⟨t, k⟩, hid⟩ := h.order.listener?_of_goes hp
  obtain ⟨k', hgoes⟩ := h.loopGoes hp hid
  obtain ⟨hpatient, hin⟩ := h.loop id t k hid
  have hbefore : g.loopSteps id = k.steps g.clock := loopSteps_of_goes h.order hid hp
  have hafter : (g.after (.resume (.listener id))).loopSteps id ≤ k'.steps g.clock := by
    simp only [loopSteps, hgoes.listener?, Function.update_self, clock_resume]
    split <;> omega
  have hasleep {due : Nat} (hdue : Due (g.after (.resume (.listener id))) (.listener id) due)
      (hlt : g.clock < due) : (g.after (.resume (.listener id))).loopSteps id = 0 :=
    loopSteps_of_due hdue (by rwa [clock_resume])
  refine h.order.work_listener hp hid hgoes.nextId ?_
  rw [hbefore]
  cases hgoes.step with
  | begins hk hr hi =>
    have hlater : ¬ g.clock + t.receiveTimeout ≤ g.clock := by omega
    simp only [ListenerStage.steps, hlater, if_false] at hafter
    rcases hk with rfl | rfl | rfl <;> simp only [ListenerStage.steps, hi] <;> omega
  | expires hk hd hr hi =>
    simp only [ListenerStage.steps] at hafter
    rcases hk with rfl | rfl <;> simp only [ListenerStage.steps, hi, hd, if_true] <;> omega
  | asks hk hd hr hi =>
    have hlater := Nat.not_le.mpr hd
    simp only [ListenerStage.steps] at hafter
    rcases hk with rfl | rfl <;> simp only [ListenerStage.steps, hi, hlater, if_false] <;> omega
  | listens ha hr hi hdue =>
    rw [hi, hasleep hdue (Nat.lt_add_of_pos_right hin.1)]
    exact Nat.lt_add_of_pos_right Nat.one_pos
  | takes x hx hr hi =>
    have hle := k'.steps_le g.clock
    rw [hi, List.length_cons]
    simp only [ListenerStage.steps]
    omega
  | idles hr hi hdue =>
    rw [hi, hasleep hdue (Nat.lt_add_of_pos_right hin.1)]
    exact Nat.lt_add_of_pos_right Nat.one_pos
  | ends hr hi =>
    have hle := Nat.le_trans hafter (ListenerStage.steps_proceeding g.clock _)
    simp only [ListenerStage.steps, hi]
    omega
  | reports hr hi =>
    simp only [ListenerStage.steps, hi] at hafter ⊢
    omega
  | restarts hr hi =>
    simp only [ListenerStage.steps, hi] at hafter ⊢
    omega

theorem work_resume (h : Steady g) (hp : g.goes p = true) :
    (g.after (.resume p)).work < g.work := by
  cases p with
  | client id => exact h.prompt.work_client h.order hp
  | listener id => exact h.work_loop hp

/-- Nobody but the loop that is there has more to do when time has gone by. -/
theorem work_elapse (h : Steady g) (ms : Nat) : (g.after (.elapse ms)).work ≤ g.work + 5 := by
  have hnone {x : Nat} (hx : g.listener? x = none) :
      (g.after (.elapse ms)).steps x = g.steps x := by
    have hx' : (g.after (.elapse ms)).listener? x = none := hx
    simp only [steps, loopSteps, hx, hx']
    rfl
  by_cases hl : ∃ id, g.listener? id ≠ none
  · obtain ⟨id, hid⟩ := hl
    have hothers (x : Nat) (hx : x ≠ id) : (g.after (.elapse ms)).steps x = g.steps x :=
      hnone (by_contra fun hne => hx (h.single x id hne hid))
    have hnext : (g.after (.elapse ms)).nextId = g.nextId := rfl
    have hadd := work_add (h.order.fresh.listener id hid) hnext hothers
    have hloop := loopSteps_le (g.after (.elapse ms)) id
    have hinbound : (g.after (.elapse ms)).inbound = g.inbound := rfl
    have hstage : (g.after (.elapse ms)).stage? id = g.stage? id := rfl
    simp only [steps, hstage, hinbound] at hadd
    omega
  · have hsteps (x : Nat) : (g.after (.elapse ms)).steps x = g.steps x :=
      hnone (by_contra fun hne => hl ⟨x, hne⟩)
    have hsame : (g.after (.elapse ms)).work = g.work := by
      simp only [work, hsteps]
      rfl
    omega

end Steady

-- ---------------------------------------------------------------------------
-- Runs in which nothing comes from outside
-- ---------------------------------------------------------------------------

/-- What happens when nothing comes from outside: somebody goes on, or time goes by. -/
def Busy (g : Gateway) : Move → Prop
  | .resume p => g.goes p = true
  | .elapse ms => 0 < ms ∧ Paced g (.elapse ms)
  | _ => False

instance (g : Gateway) : (m : Move) → Decidable (Busy g m)
  | .resume p => inferInstanceAs (Decidable (g.goes p = true))
  | .elapse ms => inferInstanceAs (Decidable (0 < ms ∧ Paced g (.elapse ms)))
  | .arrive _ _ _ | .forget _ | .poll | .enlist _ | .dismiss _ | .stimulate _ | .relog _ =>
    inferInstanceAs (Decidable False)

theorem Busy.paced (h : Busy g m) : Paced g m := by
  cases m with
  | resume p => trivial
  | elapse ms => exact h.2
  | _ => cases h

/-- As long as not all wait, whoever comes next goes on. -/
theorem next_of_not_quiet (hq : g.isQuiet = false) :
    ∃ p, g.goes p = true ∧ g.next = g.after (.resume p) := by
  unfold next
  split
  · rename_i p rest hr
    exact ⟨p, by simp [goes, hr], by simp [after, resumeReady, goes, depart, hr]⟩
  · rename_i p rest hr hy
    exact ⟨p, by simp [goes, hy], by simp [after, resumeReady, goes, depart, hr, hy]⟩
  · rename_i hr hy
    simp [isQuiet, hr, hy] at hq

/-- There is always something that can happen. -/
theorem Punctual.busy (h : Punctual g) : ∃ m, Busy g m := by
  cases hq : g.isQuiet with
  | true => exact ⟨.elapse 1, Nat.one_pos, hq, h⟩
  | false =>
    obtain ⟨p, hp, -⟩ := next_of_not_quiet hq
    exact ⟨.resume p, hp⟩

/-- A run in which nothing comes from outside is no longer than the work at its start and the time
it takes allow. -/
theorem Steady.length_busy (h : Steady g) {moves : List Move} (hm : Always Busy g moves) :
    g.clock ≤ (g.through moves).clock ∧
      moves.length ≤ g.work + 6 * ((g.through moves).clock - g.clock) := by
  suffices hstrong : g.clock ≤ (g.through moves).clock ∧
      moves.length + (g.through moves).work ≤ g.work + 6 * ((g.through moves).clock - g.clock) by
    exact ⟨hstrong.1, Nat.le_trans (Nat.le_add_right _ _) hstrong.2⟩
  induction moves generalizing g with
  | nil => simp
  | cons m moves ih =>
    obtain ⟨hclock, hlength⟩ := ih (h.after hm.1.paced) hm.2
    rw [List.length_cons, show g.through (m :: moves) = (g.after m).through moves from rfl]
    cases m with
    | resume p =>
      have hwork := h.work_resume hm.1
      rw [clock_resume] at hclock hlength
      exact ⟨hclock, by omega⟩
    | elapse ms =>
      have hwork := h.work_elapse ms
      have hms : 0 < ms := hm.1.1
      have hlater : (g.after (.elapse ms)).clock = g.clock + ms := rfl
      rw [hlater] at hclock hlength
      exact ⟨by omega, by omega⟩
    | _ => cases hm.1

-- ---------------------------------------------------------------------------
-- The scheduler
-- ---------------------------------------------------------------------------

theorem sum_lookup_le {α : Type} {f : α → Nat} {c : Nat} (hf : ∀ a, f a ≤ c) (n : Nat)
    (l : List (Nat × α)) : ∑ id ∈ Finset.range n, ((l.lookup id).map f).getD 0 ≤ c * l.length := by
  induction l with
  | nil => simp
  | cons x l ih =>
    obtain ⟨key, a⟩ := x
    have hhead (id : Nat) : ((((key, a) :: l).lookup id).map f).getD 0 ≤
        (if id = key then c else 0) + ((l.lookup id).map f).getD 0 := by
      by_cases he : id = key
      · subst he
        simpa [List.lookup_cons] using Nat.le_add_right_of_le (hf a)
      · have hne : (id == key) = false := by simpa using he
        simp [List.lookup_cons, hne]
    have hone : ∑ id ∈ Finset.range n, (if id = key then c else 0) ≤ c := by
      rw [Finset.sum_ite_eq']
      split <;> omega
    have hsum := Finset.sum_le_sum fun id (_ : id ∈ Finset.range n) => hhead id
    rw [Finset.sum_add_distrib] at hsum
    rw [List.length_cons, Nat.mul_succ]
    omega

theorem Stage.steps_le (k : Stage) : k.steps ≤ 5 := by
  cases k with
  | waitingRadio e => cases e <;> simp [steps]
  | _ => simp [steps]

/-- There are more steps than can be taken before all wait. -/
theorem work_le_stepBound (g : Gateway) : g.work ≤ g.stepBound := by
  have hclients : ∑ id ∈ Finset.range g.nextId, ((g.stage? id).map Stage.steps).getD 0 ≤
      5 * g.clients.length := by
    have hsum := sum_lookup_le (fun c : Client => Stage.steps_le c.stage) g.nextId g.clients
    simpa only [stage?, client?, Option.map_map, Function.comp_def] using hsum
  have hloops : ∑ id ∈ Finset.range g.nextId, g.loopSteps id ≤ 5 * g.listeners.length := by
    refine le_trans (Finset.sum_le_sum fun id _ => ?_)
      (sum_lookup_le (f := fun _ : Listener => 5) (fun _ => Nat.le_refl 5) g.nextId g.listeners)
    have hle := g.loopSteps_le id
    cases hid : g.listener? id with
    | none => simp [loopSteps, hid]
    | some l =>
      rw [listener?] at hid
      simpa [hid] using hle
  have hinbound : g.inbound.length = g.station.bench.script.inbound.length := rfl
  simp only [work, steps, Finset.sum_add_distrib, stepBound, hinbound]
  omega

/-- The next pause is over when the first of those who sleep wakes. -/
theorem Punctual.le_of_pause? {ms pause : Nat} (h : Punctual g) (hp : g.pause? ms = some pause) :
    ∀ s ∈ g.asleep, g.clock + pause ≤ s.1 := by
  intro s hs
  have hlater := h s hs
  unfold pause? nextWake at hp
  split at hp
  · cases hp
  · rename_i time hn
    have hle : time ≤ s.1 := (List.min?_eq_some_iff.mp hn).2 s.1 (List.mem_map_of_mem hs)
    split at hp
    · obtain rfl := Option.some.inj hp
      omega
    · cases hp

/-- What lasts as long as nothing comes from outside, while every step leaves less to be done. -/
structure Unwinds (P : Gateway → Prop) : Prop where
  after : ∀ g m, P g → Busy g m → P (g.after m)
  punctual : ∀ g, P g → Punctual g
  work : ∀ g p, P g → g.goes p = true → (g.after (.resume p)).work < g.work

namespace Unwinds

variable {P : Gateway → Prop}

theorem settleWithin (hP : Unwinds P) (h : P g) (steps : Nat) (hs : g.work ≤ steps) :
    (settleWithin steps g).isQuiet = true ∧ (settleWithin steps g).clock = g.clock ∧
      ∃ moves, Always Busy g moves ∧ g.through moves = settleWithin steps g := by
  induction steps generalizing g with
  | zero =>
    cases hq : g.isQuiet with
    | true => exact ⟨hq, rfl, [], trivial, rfl⟩
    | false =>
      obtain ⟨p, hp, -⟩ := next_of_not_quiet hq
      have hless := hP.work g p h hp
      omega
  | succ steps ih =>
    rw [Gateway.settleWithin]
    cases hq : g.isQuiet with
    | true => exact ⟨hq, rfl, [], trivial, rfl⟩
    | false =>
      obtain ⟨p, hp, hnext⟩ := next_of_not_quiet hq
      have hless := hP.work g p h hp
      obtain ⟨hquiet, hclock, moves, hbusy, hthrough⟩ := ih (hP.after g (.resume p) h hp) (by omega)
      simp only [Bool.false_eq_true, if_false]
      rw [hnext]
      exact ⟨hquiet, hclock.trans (clock_resume g p), .resume p :: moves, ⟨hp, hbusy⟩, hthrough⟩

/-- The parties go on until all of them wait, and no time goes by. -/
theorem settle (hP : Unwinds P) (h : P g) : g.settle.isQuiet = true ∧ g.settle.clock = g.clock ∧
    ∃ moves, Always Busy g moves ∧ g.through moves = g.settle :=
  hP.settleWithin h g.stepBound g.work_le_stepBound

/-- Time that has been waited for has gone by, and all parties wait again. -/
theorem wait (hP : Unwinds P) (h : P g) (hq : g.isQuiet = true) (ms : Nat) :
    (g.wait ms).isQuiet = true ∧ (g.wait ms).clock = g.clock + ms ∧
      ∃ moves, Always Busy g moves ∧ g.through moves = g.wait ms := by
  induction ms using Nat.strongRecOn generalizing g with
  | _ ms ih =>
    rw [Gateway.wait]
    split
    · rename_i hpause
      refine ⟨hq, rfl, ?_⟩
      rcases Nat.eq_zero_or_pos ms with rfl | hpos
      · exact ⟨[], trivial, rfl⟩
      · have hlater := lt_of_pause?_eq_none hpause hpos
        exact ⟨[.elapse ms], ⟨⟨hpos, hq, fun s hs => Nat.le_of_lt (hlater s hs)⟩, trivial⟩,
          after_elapse_of_pause?_eq_none hpause hpos⟩
    · rename_i pause hpause
      obtain ⟨hpos, hle⟩ := pause?_bounds hpause
      have hbusy : Busy g (.elapse pause) := ⟨hpos, hq, (hP.punctual g h).le_of_pause? hpause⟩
      have hafter := hP.after g _ h hbusy
      rw [show g.passTo (g.clock + pause) = (g.after (.elapse pause)).settle from rfl]
      obtain ⟨hquiet, hclock, moves, hmoves, hsettle⟩ := hP.settle hafter
      have hsettled : P ((g.after (.elapse pause)).through moves) := hmoves.through hP.after hafter
      rw [hsettle] at hsettled
      obtain ⟨hquiet', hclock', more, hmore, hwait⟩ := ih (ms - pause) (by omega) hsettled hquiet
      refine ⟨hquiet', ?_, .elapse pause :: (moves ++ more), ⟨hbusy, hmoves.append ?_⟩, ?_⟩
      · have hlater : (g.after (.elapse pause)).clock = g.clock + pause := rfl
        omega
      · rw [hsettle]
        exact hmore
      · rw [← hwait, ← hsettle]
        exact through_append (g.after (.elapse pause)) moves more

end Unwinds

theorem unwinds_steady : Unwinds Steady :=
  ⟨fun _ _ h hm => h.after hm.paced, fun _ h => h.punctual, fun _ _ h hp => h.work_resume hp⟩

theorem Steady.settle (h : Steady g) : g.settle.isQuiet = true ∧ g.settle.clock = g.clock ∧
    ∃ moves, Always Busy g moves ∧ g.through moves = g.settle :=
  unwinds_steady.settle h

theorem Steady.wait (h : Steady g) (hq : g.isQuiet = true) (ms : Nat) :
    (g.wait ms).isQuiet = true ∧ (g.wait ms).clock = g.clock + ms ∧
      ∃ moves, Always Busy g moves ∧ g.through moves = g.wait ms :=
  unwinds_steady.wait h hq ms

-- ---------------------------------------------------------------------------
-- The end of a request
-- ---------------------------------------------------------------------------

/-- The request is over by `due`: it is not later than that, and whoever waits for it as long is
told its outcome by then. However the parties are taken in turn, there is always something that can
happen, and if nothing comes from outside then in every run that is long enough there is a moment,
not later than `due`, at which the request has its outcome. -/
structure EndsBy (g : Gateway) (id due : Nat) : Prop where
  clock : g.clock ≤ due
  awaited : ∀ ms, due ≤ g.clock + ms →
    ((g.settle.awaitWithin id ms).outcome? id).isSome ∧ (g.settle.awaitWithin id ms).clock ≤ due
  busy : ∃ m, Busy g m
  ends : ∀ further, Always Busy g further → g.work + 6 * (due - g.clock) < further.length →
    ∃ before rest, further = before ++ rest ∧ ((g.through before).outcome? id).isSome ∧
      (g.through before).clock ≤ due

/-- When nothing comes from outside a request goes on until it has its outcome, which it gets by a
step of its own. -/
theorem Busy.stage? (hm : Busy g m) (h : Steady g) (hid : g.stage? id = some k)
    (hk : k.isFinished = false) : (∃ k', (g.after m).stage? id = some k' ∧ k'.isFinished = false) ∨
      (∃ o, (g.after m).stage? id = some (.finished o)) ∧ (g.after m).clock = g.clock := by
  by_cases hown : m = .resume (.client id)
  · subst hown
    obtain ⟨k₀, k', -, -, hgoes⟩ := h.clientGoes hm
    have hid' : (g.after (.resume (.client id))).stage? id = some k' := by
      rw [hgoes.stage?, Function.update_self]
    cases k' with
    | finished o => exact .inr ⟨⟨o, hid'⟩, clock_resume g _⟩
    | _ => exact .inl ⟨_, hid', rfl⟩
  · exact .inl ⟨k, h.order.stage?_after hid hk hown, hk⟩

theorem awaitWithin_zero (g : Gateway) (id : Nat) : g.awaitWithin id 0 = g := by
  rw [awaitWithin]
  split
  · rfl
  · split
    · rfl
    · rename_i pause hp
      have := pause?_bounds hp
      omega

/-- When nothing comes from outside a request stays where it is until it goes on itself. -/
theorem Busy.stage?_of_ne (hm : Busy g m) (hne : m ≠ .resume (.client id)) :
    (g.after m).stage? id = g.stage? id := by
  cases m with
  | elapse ms => rfl
  | resume p =>
    rw [after_resume hm]
    cases p with
    | listener other => simp [Gateway.resume, stage?_resumeListener]
    | client other =>
      have hother : id ≠ other := by
        rintro rfl
        exact hne rfl
      simp [Gateway.resume, stage?_resumeClient _ hother]
  | _ => cases hm

/-- What has an outcome keeps it, if nothing comes from outside. -/
theorem Busy.outcome? (hm : Busy g m) (ho : InOrder g) (h : (g.outcome? id).isSome) :
    ((g.after m).outcome? id).isSome := by
  obtain ⟨o, hout⟩ := Option.isSome_iff_exists.mp h
  have hid := (outcome?_eq_some g id).mp hout
  have hne : m ≠ .resume (.client id) := by
    rintro rfl
    obtain ⟨k, hk, hf⟩ := ho.stage?_of_goes hm
    cases hid.symm.trans hk
    cases hf
  rw [(outcome?_eq_some _ _).mpr ((hm.stage?_of_ne hne).trans hid)]
  rfl

/-- What holds of a request up to its outcome, and not beyond `due`. -/
structure Lasts (P : Gateway → Prop) (id due : Nat) : Prop where
  steady : ∀ g, P g → Steady g
  clock : ∀ g, P g → g.clock ≤ due
  stage : ∀ g, P g → ∃ k, g.stage? id = some k ∧ k.isFinished = false
  step : ∀ g m, P g → Busy g m →
    (∃ k, (g.after m).stage? id = some k ∧ k.isFinished = false) → P (g.after m)

namespace Lasts

variable {P : Gateway → Prop}

theorem after (hP : Lasts P id due) (h : P g) (hm : Busy g m) :
    P (g.after m) ∨ ((g.after m).outcome? id).isSome ∧ (g.after m).clock ≤ due := by
  obtain ⟨k, hid, hk⟩ := hP.stage g h
  refine (hm.stage? (hP.steady g h) hid hk).imp (hP.step g m h hm) ?_
  rintro ⟨⟨o, ho⟩, hc⟩
  rw [(outcome?_eq_some _ _).mpr ho, hc]
  exact ⟨rfl, hP.clock g h⟩

/-- Up to the moment at which the request has its outcome `P` holds. -/
theorem through (hP : Lasts P id due) (h : P g) {further : List Move} (hf : Always Busy g further) :
    P (g.through further) ∨ ∃ before rest, further = before ++ rest ∧
      ((g.through before).outcome? id).isSome ∧ (g.through before).clock ≤ due := by
  induction further generalizing g with
  | nil => exact .inl h
  | cons m further ih =>
    rcases hP.after h hf.1 with h' | hended
    · refine (ih h' hf.2).imp_right ?_
      rintro ⟨before, rest, rfl, hended⟩
      exact ⟨m :: before, rest, rfl, hended⟩
    · exact .inr ⟨[m], further, rfl, hended⟩

/-- No time goes by before all parties wait. -/
theorem settle (hP : Lasts P id due) (h : P g) :
    P g.settle ∨ (g.settle.outcome? id).isSome ∧ g.settle.clock ≤ due := by
  obtain ⟨-, hclock, moves, hbusy, hthrough⟩ := (hP.steady g h).settle
  have hend : Steady (g.through moves) ∧
      (P (g.through moves) ∨ ((g.through moves).outcome? id).isSome) := by
    refine hbusy.through (P := fun g => Steady g ∧ (P g ∨ (g.outcome? id).isSome)) ?_
      ⟨hP.steady g h, .inl h⟩
    rintro g m ⟨hs, h⟩ hm
    refine ⟨hs.after hm.paced, ?_⟩
    rcases h with h | hout
    · exact (hP.after h hm).imp_right And.left
    · exact .inr (hm.outcome? hs.order hout)
  rw [hthrough] at hend
  exact hend.2.imp_right fun hout => ⟨hout, hclock.trans_le (hP.clock g h)⟩

/-- Whoever waits for the outcome is told it. -/
theorem awaited (hP : Lasts P id due) (ms : Nat) (hq : g.isQuiet = true)
    (h : P g ∨ (g.outcome? id).isSome ∧ g.clock ≤ due) (hms : due ≤ g.clock + ms) :
    ((g.awaitWithin id ms).outcome? id).isSome ∧ (g.awaitWithin id ms).clock ≤ due := by
  induction ms using Nat.strongRecOn generalizing g with
  | _ ms ih =>
    rw [awaitWithin]
    split
    · rename_i hout
      refine ⟨hout, ?_⟩
      exact h.elim (hP.clock g) And.right
    · rename_i hout
      have h' : P g := h.resolve_right fun hended => hout hended.1
      have hsteady := hP.steady g h'
      obtain ⟨k, hid, hk⟩ := hP.stage g h'
      -- time that goes by leaves the request where it is
      have hlater {pause : Nat} (hm : Busy g (.elapse pause)) : P (g.after (.elapse pause)) :=
        hP.step g _ h' hm ⟨k, hid, hk⟩
      split
      · rename_i hpause
        have hbusy : Busy g (.elapse (ms + 1)) := by
          refine ⟨Nat.succ_pos ms, hq, fun s hs => ?_⟩
          rcases Nat.eq_zero_or_pos ms with rfl | hpos
          · exact hsteady.punctual s hs
          · exact lt_of_pause?_eq_none hpause hpos s hs
        have hclock : g.clock + (ms + 1) ≤ due := hP.clock _ (hlater hbusy)
        omega
      · rename_i pause hpause
        obtain ⟨hpos, hle⟩ := pause?_bounds hpause
        have hbusy : Busy g (.elapse pause) := ⟨hpos, hq, hsteady.punctual.le_of_pause? hpause⟩
        have hafter := hlater hbusy
        obtain ⟨hquiet, hclock, -⟩ := (hP.steady _ hafter).settle
        refine ih (ms - pause) (by omega) hquiet (hP.settle hafter) ?_
        rw [show g.passTo (g.clock + pause) = (g.after (.elapse pause)).settle from rfl, hclock]
        have hc : (g.after (.elapse pause)).clock = g.clock + pause := rfl
        omega

/-- What goes on until the request has its outcome, and not beyond `due`, is over by then. -/
theorem endsBy (hP : Lasts P id due) (h : P g) : EndsBy g id due := by
  have hsteady := hP.steady g h
  obtain ⟨hquiet, hclock, -⟩ := hsteady.settle
  refine ⟨hP.clock g h, fun ms hms => ?_, hsteady.punctual.busy, fun further hf hlong => ?_⟩
  · exact hP.awaited ms hquiet (hP.settle h) (hclock.symm ▸ hms)
  · refine (hP.through h hf).resolve_left fun h' => ?_
    have hlength := (hsteady.length_busy hf).2
    have hclock' := hP.clock _ h'
    omega

end Lasts

end RadioGateway.Gateway
