import RadioGateway.Proofs.Supervision

/-!
# A receive loop that is dismissed is gone

A loop can be dismissed at every moment of its run. It gives up whatever it has and waits for, so
the next who waits for the radio goes on, and what it took before has gone through the inbox
already. From then on nothing comes into the inbox but by a step of another loop.
-/

namespace RadioGateway.Gateway

open Function (update)
open RadioGateway.Radio (Inbound crashMessage)
open RadioGateway.Station (Backend Bench)

variable {g g' : Gateway} {id : Nat} {t : Timing} {m : Move}

-- ---------------------------------------------------------------------------
-- Moves that are no step of a loop
-- ---------------------------------------------------------------------------

/-- The move is a step of a loop. -/
structure Attends (g : Gateway) (m : Move) (id : Nat) (l : Listener) : Prop where
  move : m = .resume (.listener id)
  goes : g.goes (.listener id) = true
  listener? : g.listener? id = some l

/-- The inbox but for the number of payloads that were sent: the buffer, and the accounts of what
was received. -/
def Inbox.received (i : Inbox) : Inbox := { i with stats := { i.stats with sent := 0 } }

theorem Sends.received (h : Sends g g') : g'.inbox.received = g.inbox.received := by
  rcases h.inbox with hb | hb
  · rw [hb]
  · rw [hb]
    rfl

/-- What is to be received stays, and what was received stays or is polled, at every move that is no
step of a loop. -/
theorem unattended (hm : ∀ id l, ¬ Attends g m id l) :
    (g.after m).inbound = g.inbound ++ queued m ∧
      (m ≠ .poll → (g.after m).inbox.received = g.inbox.received) := by
  have hstays {g' : Gateway} (hs : g'.station = g.station) (hb : g'.inbox = g.inbox) :
      g'.inbound = g.inbound ++ [] ∧ (m ≠ .poll → g'.inbox.received = g.inbox.received) :=
    ⟨by rw [List.append_nil, inbound, hs]; rfl, fun _ => by rw [hb]⟩
  cases m with
  | resume p =>
    cases hp : g.goes p with
    | false =>
      exact hstays (by rw [after_resume_of_not_goes hp]) (by rw [after_resume_of_not_goes hp])
    | true =>
      rw [after_resume hp]
      cases p with
      | client id =>
        have hs := sends_resumeClient (g.depart (.client id)) id
        have hin : (g.depart (.client id)).inbound = g.inbound := by simp [inbound]
        have hq : queued (.resume (.client id)) = [] := rfl
        refine ⟨?_, fun _ => by simpa [resume] using hs.received⟩
        rw [hq, List.append_nil]
        exact hs.inbound.trans hin
      | listener id =>
        have hid : g.listener? id = none := by
          cases hl : g.listener? id with
          | none => rfl
          | some l => exact absurd ⟨rfl, hp, hl⟩ (hm id l)
        exact hstays (by simp [resume, resumeListener, hid]) (by simp [resume, resumeListener, hid])
  | forget id =>
    exact hstays (by simp only [after]; split <;> rfl) (by simp only [after]; split <;> rfl)
  | arrive | enlist | dismiss => exact hstays (by simp [after]) (by simp [after])
  | elapse | relog => exact hstays rfl rfl
  | poll => exact ⟨(List.append_nil _).symm, fun hne => absurd rfl hne⟩
  | stimulate x => exact ⟨inbound_stimulate g x, fun _ => rfl⟩

-- ---------------------------------------------------------------------------
-- Crashes
-- ---------------------------------------------------------------------------

/-- With the scripted radio a loop takes something only when it has been given the radio for a
slice. -/
theorem inbound_resumeListener {k : ListenerStage} (h : Scripted g)
    (hid : g.listener? id = some ⟨t, k⟩) (hk : ∀ deadline slice, k ≠ .waitingRadio deadline slice) :
    (g.resumeListener id).inbound = g.inbound := by
  unfold resumeListener
  rw [hid]
  cases k with
  | waitingRadio deadline slice => exact absurd rfl (hk deadline slice)
  | proceeding deadline => cases deadline <;> simp [inbound]
  | starting | simulating | backingOff | idle | crashed | restarting => simp [inbound]
  | listening deadline l =>
    cases l with
    | looking looks => cases h.stage id _ hid
    | quiet =>
      cases hd : g.station.driver with
      | none => simp [inbound, Station.resumeListen, hd]
      | some d =>
        simp [inbound, Station.resumeListen, hd, Station.Driver.resumeReceive, progressListen,
          Station.progressListen, Station.Received.heard, heard, Except.map]

theorem listenSlice_crash {rest : List Inbound} {deadline slice : Nat} {l : Listener}
    (hb : g.station.backend = .hardware .scripted) (hi : g.inbound = .crash :: rest)
    (hi' : (g.listenSlice id t deadline slice).inbound = rest) (hid : g.listener? id = some l) :
    (g.listenSlice id t deadline slice).listener? id =
      some { l with stage := .crashed crashMessage } ∧
      (g.listenSlice id t deadline slice).goes (.listener id) = true := by
  unfold listenSlice Station.beginListen at *
  rw [hb] at *
  cases hd : g.station.driver with
  | none =>
    -- without a driver nothing is taken
    have hkept : g.inbound = rest := by simpa [hd, inbound] using hi'
    exact absurd (hi.symm.trans hkept) (List.cons_ne_self _ _)
  | some d =>
    have hscript : g.station.bench.script.inbound = .crash :: rest := hi
    simp only [Station.Driver.receive, Radio.ScriptedRadio.takeInbound, hscript, progressListen,
      Station.progressListen, Station.Received.heard, heard, Except.map]
    exact ⟨by simp [hid], goes_wake _ _⟩

/-- The loop that takes a crash from the scripted radio has crashed, and goes on to report it. -/
theorem crashes_of_consumed (h : Scripted g) (hc : consumed g m = [.crash]) :
    ∃ id l, Attends g m id l ∧
      (g.after m).listener? id = some { l with stage := .crashed crashMessage } ∧
      (g.after m).goes (.listener id) = true := by
  have hne : ¬ ∀ id l, ¬ Attends g m id l := fun hm => by
    rw [consumed_eq_nil _ (unattended hm).1] at hc
    cases hc
  push Not at hne
  obtain ⟨id, ⟨t, k⟩, ha⟩ := hne
  refine ⟨id, ⟨t, k⟩, ha, ?_⟩
  obtain ⟨rfl, hp, hid⟩ := ha
  have hid' : (g.depart (.listener id)).listener? id = some ⟨t, k⟩ := by simpa using hid
  have hin : (g.depart (.listener id)).inbound = g.inbound := by simp [inbound]
  have hafter : g.after (.resume (.listener id)) = (g.depart (.listener id)).resumeListener id :=
    after_resume hp
  have hsome : (g.after (.resume (.listener id))).inbound ≠ g.inbound := fun he => by
    rw [consumed_eq_nil [] (by rw [he, List.append_nil])] at hc
    cases hc
  cases passes h (.resume (.listener id)) with
  | takes hm hq hi hi' hb =>
    rw [consumed_eq_singleton hi hi'] at hc
    obtain rfl := List.singleton_injective hc
    -- of all stages only the one that begins a slice takes from the scripted radio
    cases k with
    | waitingRadio deadline slice =>
      have hslice : (g.depart (.listener id)).resumeListener id =
          (g.depart (.listener id)).listenSlice id t deadline slice := by
        simp only [resumeListener, hid']
      rw [hafter, hslice] at hi' ⊢
      exact listenSlice_crash (h.depart _).backend (hin.trans hi) hi' hid'
    | _ =>
      exact absurd (hafter ▸ (inbound_resumeListener (h.depart _) hid' (by simp)).trans hin) hsome
  | keeps hm hi => exact absurd (hi.trans (List.append_nil _)) hsome
  | sends hm hi => exact absurd (hi.trans (List.append_nil _)) hsome
  | polls hm => cases hm

-- ---------------------------------------------------------------------------
-- Loops that are gone
-- ---------------------------------------------------------------------------

/-- A loop that was there and no longer is. -/
structure Gone (g : Gateway) (id : Nat) : Prop where
  listener? : g.listener? id = none
  known : id < g.nextId

/-- Nobody but a new loop comes to be there. -/
theorem listener?_after_of_none (ho : InOrder g) (hid : g.listener? id = none)
    (hm : ∀ t, m = .enlist t → id ≠ g.nextId) : (g.after m).listener? id = none := by
  cases m with
  | resume p =>
    cases hp : g.goes p with
    | false => rw [after_resume_of_not_goes hp, hid]
    | true =>
      have hid' : (g.depart p).listener? id = none := by simpa using hid
      rw [after_resume hp, listener?_resume fun _ => hid', hid']
  | enlist t =>
    rw [after, listener?_enlist g t ho.listener?_next, Function.update_of_ne (hm t rfl), hid]
  | dismiss other => rw [after, listener?_dismiss, Function.update_apply, hid, ite_self]
  | forget other =>
    simp only [after]
    split <;> simpa using hid
  | arrive => simpa [after] using hid
  | elapse | poll | stimulate | relog => exact hid

namespace Gone

theorem after (h : Gone g id) (ho : InOrder g) (m : Move) : Gone (g.after m) id :=
  ⟨listener?_after_of_none ho h.listener? fun _ _ => Nat.ne_of_lt h.known,
    Nat.lt_of_lt_of_le h.known (nextId_le_after g m)⟩

theorem through (h : Gone g id) (ho : InOrder g) (more : List Move) : Gone (g.through more) id := by
  induction more generalizing g with
  | nil => exact h
  | cons m more ih => exact ih (h.after ho m) (ho.after m)

/-- Who is gone claims nothing and does not go on. -/
theorem claims_nothing (h : Gone g id) (ho : InOrder g) :
    .listener id ∉ g.radio.parties ∧ .listener id ∉ g.awake := by
  have hst : g.standing (.listener id) = .gone := by simp [standing, h.listener?]
  refine ⟨fun hm => (ho.orderly.radio.mem _).mp hm (congrArg Standing.radio hst), ?_⟩
  exact ho.orderly.not_mem_of_inactive (congrArg Standing.active hst)

end Gone

theorem gone_dismiss {l : Listener} (ho : InOrder g) (hid : g.listener? id = some l) :
    Gone (g.dismiss id) id := by
  refine ⟨by simp, ?_⟩
  have hlt : id < g.nextId := ho.fresh.listener id (by simp [hid])
  simpa using hlt

/-- Dismissing a loop takes it out of the queue for the radio, and if it has the radio the first who
waits is given it. -/
theorem radio_dismiss {l : Listener} (hid : g.listener? id = some l) :
    (g.dismiss id).radio.parties = g.radio.parties.erase (.listener id) ∧
      (g.radio.holder = some (.listener id) → ∀ p, (g.dismiss id).radio.holder = some p →
        (g.dismiss id).goes p = true) := by
  simp only [dismiss, hid]
  refine ⟨by simpa using g.radio.parties_withdraw (.listener id), fun hheld p hp => ?_⟩
  rw [Lock.withdraw_of_holder hheld] at hp ⊢
  have hnext : g.radio.release.2 = some p := by simpa using hp
  rw [hnext]
  exact goes_wake _ p

-- ---------------------------------------------------------------------------
-- Nobody listens
-- ---------------------------------------------------------------------------

/-- When no loop is there and none is started, nothing but polls changes what was received: the
polls take from the buffer what was in it, in order, and nothing is counted. -/
theorem only_polls_drain (ho : InOrder g) (hg : ∀ id, g.listener? id = none) {more : List Move}
    (hmore : ∀ t, .enlist t ∉ more) :
    history polled g more ++ (g.through more).inbox.buffer.packets.toList =
      g.inbox.buffer.packets.toList ∧
      (g.through more).inbox.received.stats = g.inbox.received.stats := by
  induction more generalizing g with
  | nil => exact ⟨rfl, rfl⟩
  | cons m more ih =>
    have hnone (id : Nat) : (g.after m).listener? id = none :=
      listener?_after_of_none ho (hg id) fun t ht => absurd (ht ▸ List.mem_cons_self) (hmore t)
    obtain ⟨hpolled, hstats⟩ :=
      ih (ho.after m) hnone fun t ht => hmore t (List.mem_cons_of_mem m ht)
    have hstep :
        polled g m ++ (g.after m).inbox.buffer.packets.toList = g.inbox.buffer.packets.toList ∧
        (g.after m).inbox.received.stats = g.inbox.received.stats := by
      by_cases hpoll : m = .poll
      · subst hpoll
        simp [polled, after, poll, Inbox.drain, Buffer.drain, Inbox.received]
      · have hsame : (g.after m).inbox.received = g.inbox.received :=
          (unattended fun id l ha => by cases (hg id).symm.trans ha.listener?).2 hpoll
        have hnothing : polled g m = [] := by cases m <;> first | rfl | exact absurd rfl hpoll
        rw [hnothing, List.nil_append]
        exact ⟨congrArg (fun i => i.buffer.packets.toList) hsame, congrArg Inbox.stats hsame⟩
    refine ⟨?_, hstats.trans hstep.2⟩
    rw [history, List.append_assoc]
    exact (congrArg (polled g m ++ ·) hpolled).trans hstep.1

-- ---------------------------------------------------------------------------
-- Every run
-- ---------------------------------------------------------------------------

/-- A loop goes on until it is dismissed, and no longer. Whatever happens after it was started, as
long as it is not dismissed it works, or has crashed and is to be reported, or is to start again.
The loop that takes a crash has crashed; once that is reported the loop pauses, and starts again
when the pause is over, or is dismissed. Dismissing a loop, wherever it is, takes it out of the
queue for the radio, hands the radio on if the loop has it, and touches neither the inbox nor the
station. Whatever happens later, the loop is not there, claims nothing and never goes on, and what
was taken from the scripted radio is accounted for. What was received changes only by polls and by
steps of other loops; if there are none, by polls alone. -/
theorem loop_runs_until_dismissed (backend : Backend) (bench : Bench) (capacity epoch : Nat)
    (moves : List Move) :
    let g := (start backend bench capacity epoch).through moves
    (∀ t more, .dismiss g.nextId ∉ more → Alive ((g.after (.enlist t)).through more) g.nextId t) ∧
    (backend = .hardware .scripted → ∀ m, consumed g m = [.crash] →
      ∃ id l, Attends g m id l ∧
        (g.after m).listener? id = some { l with stage := .crashed crashMessage } ∧
        (g.after m).goes (.listener id) = true) ∧
    (∀ id t reason, g.listener? id = some ⟨t, .crashed reason⟩ → g.goes (.listener id) = true →
      let reported := g.after (.resume (.listener id))
      let due := g.clock + t.errorBackoff
      Pausing reported id t due ∧
      ∀ more, Pausing (reported.through more) id t due ∨
        ∃ before m rest, more = before ++ m :: rest ∧ Pausing (reported.through before) id t due ∧
          (m = .dismiss id ∨ Restarts (reported.through before) m id t due)) ∧
    ∀ id l, g.listener? id = some l →
      let stopped := g.after (.dismiss id)
      Leads stopped (g.stopListener id) ∧
      stopped.inbox = g.inbox ∧ stopped.station = g.station ∧ stopped.link = g.link ∧
      stopped.radio.parties = g.radio.parties.erase (.listener id) ∧
      (g.radio.holder = some (.listener id) → ∀ p, stopped.radio.holder = some p →
        stopped.goes p = true) ∧
      ∀ more,
        let later := stopped.through more
        later.listener? id = none ∧ .listener id ∉ later.radio.parties ∧
        .listener id ∉ later.awake ∧
        (backend = .hardware .scripted →
          Conserved bench capacity epoch (moves ++ .dismiss id :: more)) ∧
        (∀ m, (∀ other l, ¬ Attends later m other l) → m ≠ .poll →
          (later.after m).inbox.received = later.inbox.received) ∧
        ((∀ other, other ≠ id → g.listener? other = none) → (∀ t, .enlist t ∉ more) →
          history polled stopped more ++ later.inbox.buffer.packets.toList =
            g.inbox.buffer.packets.toList ∧
          later.inbox.received.stats = g.inbox.received.stats) := by
  intro g
  have ho : InOrder g := (inOrder_start backend bench capacity epoch).through moves
  have hp : Punctual g := punctual_through backend bench capacity epoch moves
  refine ⟨fun t more hmore => ?_, fun hb m hc => ?_,
    fun id t reason hid hgo => ?_, fun id l hid => ?_⟩
  · exact (alive_enlist ho hp t).through (ho.after _) (hp.after _) more hmore
  · subst hb
    exact crashes_of_consumed (scripted_through bench capacity epoch moves) hc
  · have hpause := crash_reported hid hgo
    exact ⟨hpause, hpause.through (ho.after _)⟩
  · intro stopped
    have hdismiss := dismiss_keeps g id
    have hstopped : InOrder stopped := ho.after (.dismiss id)
    have hgone : Gone stopped id := gone_dismiss ho hid
    obtain ⟨hparties, hnext⟩ := radio_dismiss hid
    refine ⟨?_, hdismiss.2.1, hdismiss.1, hdismiss.2.2.1, hparties, hnext, fun more => ?_⟩
    · rw [stopListener, hid, Option.isSome_some, if_pos rfl]
      exact leads_settle stopped
    · intro later
      have hlater : Gone later id := hgone.through hstopped more
      obtain ⟨hradio, hawake⟩ := hlater.claims_nothing (hstopped.through more)
      refine ⟨hlater.listener?, hradio, hawake, fun _ => conserved_through bench capacity epoch _,
        fun m hm => (unattended hm).2, fun hothers hmore => ?_⟩
      have hnone (other : Nat) : stopped.listener? other = none := by
        rw [show stopped.listener? = update g.listener? id none from listener?_dismiss g id]
        by_cases he : other = id
        · rw [he, Function.update_self]
        · rw [Function.update_of_ne he, hothers other he]
      have hinbox : stopped.inbox = g.inbox := hdismiss.2.1
      rw [← hinbox]
      exact only_polls_drain hstopped hnone hmore

end RadioGateway.Gateway
