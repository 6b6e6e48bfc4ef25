import RadioGateway.Proofs.Dismissal
import RadioGateway.Proofs.SendOutcomes

/-!
# Time goes by when all wait

In a paced run time goes by only when nobody can go on, and never beyond the moment at which
somebody wakes. With the scripted radio a loop then listens for a slice at most, and everything that
is to be done before time goes by again is done in so many steps.
-/

namespace RadioGateway.Station

open RadioGateway.Radio

-- ---------------------------------------------------------------------------
-- The time that an opening takes
-- ---------------------------------------------------------------------------

variable {s : Station} (c : Config) (o : Opening)

theorem openDelay_release (s : Station) :
    s.release.state.bench.script.openDelay = s.bench.script.openDelay := by
  unfold release
  split
  · rename_i h d _ _
    cases h with
    | board => exact congrArg ScriptedRadio.openDelay (Bench.script_onBoard _ _)
    | scripted | unavailable e => rfl
  · rfl

theorem openDelay_openWith (r : ScriptedRadio) (c : Config) :
    (r.openWith c).1.openDelay = r.openDelay := by
  unfold ScriptedRadio.openWith
  split <;> rfl

theorem openDelay_beginAttach (s : Station) :
    (s.beginAttach c).state.bench.script.openDelay = s.bench.script.openDelay :=
  (keeps_beginAttach openDelay_openWith s c).trans s.openDelay_release

theorem openDelay_finishAttach (s : Station) :
    (s.finishAttach o).state.bench.script.openDelay = s.bench.script.openDelay :=
  keeps_finishAttach openDelay_openWith s o

theorem openDelay_beginSend (s : Station) (hs : s.Prompt) (payload : List UInt8) :
    (s.beginSend payload).state.bench.script.openDelay = s.bench.script.openDelay := by
  unfold beginSend
  rcases hs with hb | hb
  · rw [hb]
  · rw [hb]
    cases s.driver with
    | none => rfl
    | some d =>
      simp only [progressSend, Driver.transmit, ScriptedRadio.transmit]
      split <;> rfl

/-- With the scripted radio an opening pauses for as long as it was told to take. -/
theorem pause_beginAttach {c : Config} {o : Opening} {ms : Nat}
    (hb : s.backend = .hardware .scripted) (hr : (s.beginAttach c).result = .paused ms o) :
    ms = s.bench.script.openDelay := by
  rw [← s.openDelay_release]
  simp only [beginAttach, hb, Driver.beginOpen] at hr
  cases hf : c.fault? with
  | some fault => simp [hf] at hr
  | none =>
    by_cases hz : s.release.state.bench.script.openDelay = 0
    · simp [hf, hz, Effect.map] at hr
    · simp only [hf, hz, if_false] at hr
      injection hr with hms _
      exact hms.symm

theorem detached_finishAttach {o : Opening} {e : RadioError} (hd : s.attached = false)
    (he : (s.finishAttach o).result = .error e) : (s.finishAttach o).state.attached = false := by
  unfold finishAttach at *
  simp only at *
  generalize (Driver.finishOpen o s.bench).result = r at *
  cases r with
  | ok d => cases he
  | error e => exact hd

end RadioGateway.Station

namespace RadioGateway.Gateway

open Function (update)
open RadioGateway.Radio (Config Frame Inbound RadioError)
open RadioGateway.Station (Listening Opening SameDriver)

variable {g g' : Gateway} {id : Nat} {p : Party} {t : Timing} {k : ListenerStage} {m : Move}

-- ---------------------------------------------------------------------------
-- Runs
-- ---------------------------------------------------------------------------

/-- Every move of a run is one that is allowed in the state it is made in. -/
def Always (ok : Gateway → Move → Prop) (g : Gateway) : List Move → Prop
  | [] => True
  | m :: moves => ok g m ∧ Always ok (g.after m) moves

theorem Always.through {ok : Gateway → Move → Prop} {P : Gateway → Prop}
    (hstep : ∀ g m, P g → ok g m → P (g.after m)) (h : P g) {moves : List Move}
    (hm : Always ok g moves) : P (g.through moves) := by
  induction moves generalizing g with
  | nil => exact h
  | cons m moves ih => exact ih (hstep g m h hm.1) hm.2

theorem Always.append {ok : Gateway → Move → Prop} {moves more : List Move} (h : Always ok g moves)
    (h' : Always ok (g.through moves) more) : Always ok g (moves ++ more) := by
  induction moves generalizing g with
  | nil => exact h'
  | cons m moves ih => exact ⟨h.1, ih h.2 h'⟩

theorem Always.mono {ok ok' : Gateway → Move → Prop} {moves : List Move} (h : Always ok g moves)
    (himp : ∀ g m, ok g m → ok' g m) : Always ok' g moves := by
  induction moves generalizing g with
  | nil => trivial
  | cons m moves ih => exact ⟨himp g m h.1, ih h.2⟩

instance Always.decidable {ok : Gateway → Move → Prop} [∀ g m, Decidable (ok g m)] (g : Gateway) :
    (moves : List Move) → Decidable (Always ok g moves)
  | [] => inferInstanceAs (Decidable True)
  | m :: moves => @instDecidableAnd _ _ inferInstance (Always.decidable (g.after m) moves)

/-- What is allowed when virtual time is kept: it goes by only when nobody can go on, and not beyond
the moment at which somebody wakes. There is one loop at a time, and it waits some time for a
packet. -/
def Paced (g : Gateway) : Move → Prop
  | .elapse ms => g.isQuiet = true ∧ ∀ s ∈ g.asleep, g.clock + ms ≤ s.1
  | .enlist t => g.listeners = [] ∧ 0 < t.receiveTimeout
  | _ => True

instance (g : Gateway) : (m : Move) → Decidable (Paced g m)
  | .elapse ms =>
    inferInstanceAs (Decidable (g.isQuiet = true ∧ ∀ s ∈ g.asleep, g.clock + ms ≤ s.1))
  | .enlist t => inferInstanceAs (Decidable (g.listeners = [] ∧ 0 < t.receiveTimeout))
  | .arrive _ _ _ | .resume _ | .forget _ | .poll | .dismiss _ | .stimulate _ | .relog _ =>
    inferInstanceAs (Decidable True)

theorem not_goes_of_isQuiet (hq : g.isQuiet = true) (p : Party) : g.goes p = false := by
  have hempty : g.ready = [] ∧ g.yielding = [] := by simpa [isQuiet] using hq
  simp [goes, hempty.1, hempty.2]

/-- Milliseconds that an opening of the scripted radio takes. -/
def openDelay (g : Gateway) : Nat := g.station.bench.script.openDelay

-- ---------------------------------------------------------------------------
-- A step of a loop
-- ---------------------------------------------------------------------------

section Asleep

variable (g : Gateway) (id : Nat)

@[simp] theorem asleep_setListener (k : ListenerStage) :
    (g.setListener id k).asleep = g.asleep := rfl

@[simp] theorem asleep_listenerProceeds (deadline : Option Nat) :
    (g.listenerProceeds id deadline).asleep = g.asleep := rfl

@[simp] theorem asleep_seekSlice (deadline slice : Nat) :
    (g.seekSlice id deadline slice).asleep = g.asleep := by
  rw [seekSlice_eq]
  simp only
  split <;> rfl

end Asleep

/-- Where a loop stands that lets time go by. -/
def ListenerStage.sleeps : ListenerStage → Bool
  | .simulating | .listening _ _ | .idle _ | .backingOff | .restarting => true
  | _ => false

/-- Where a loop stands that has just received something: a failure is followed by a pause, and a
crash is reported before anything else. -/
inductive Meets (g' : Gateway) (id again : Nat) : Inbound → ListenerStage → Prop
  | frame (f : Frame) : Meets g' id again (.frame f) (.proceeding none)
  | failure (reason : String) (hdue : Due g' (.listener id) again) :
      Meets g' id again (.failure reason) .backingOff
  | crash : Meets g' id again .crash (.crashed Radio.crashMessage)

/-- All that a step of a loop can come to with the scripted radio, by where it stood and stands:
what becomes of the radio and of what is to be received, and when the loop goes on. -/
inductive LoopStep (g : Gateway) (id : Nat) (t : Timing) (g' : Gateway) :
    ListenerStage → ListenerStage → Prop
  | begins {k : ListenerStage} (hk : k = .starting ∨ k = .proceeding none ∨ k = .backingOff)
      (hr : g'.radio = g.radio) (hi : g'.inbound = g.inbound) :
      LoopStep g id t g' k (.proceeding (some (g.clock + t.receiveTimeout)))
  | expires {k : ListenerStage} {deadline : Nat}
      (hk : k = .proceeding (some deadline) ∨ k = .idle deadline) (hd : deadline ≤ g.clock)
      (hr : g'.radio = g.radio) (hi : g'.inbound = g.inbound) :
      LoopStep g id t g' k (.proceeding none)
  | asks {k : ListenerStage} {deadline : Nat}
      (hk : k = .proceeding (some deadline) ∨ k = .idle deadline) (hd : g.clock < deadline)
      (hr : g'.radio = (g.radio.acquire (.listener id)).1) (hi : g'.inbound = g.inbound) :
      LoopStep g id t g' k (.waitingRadio deadline (min Station.sliceTime (deadline - g.clock)))
  | listens {deadline slice : Nat} (ha : g'.station.attached = true) (hr : g'.radio = g.radio)
      (hi : g'.inbound = g.inbound) (hdue : Due g' (.listener id) (g.clock + slice))
      (hnone : g.inbound = []) :
      LoopStep g id t g' (.waitingRadio deadline slice) (.listening deadline .quiet)
  | takes {deadline slice : Nat} {k' : ListenerStage} (x : Inbound)
      (hx : Meets g' id (g.clock + t.errorBackoff) x k') (hr : g'.radio = g.radio.release.1)
      (hi : g.inbound = x :: g'.inbound) (ha : g.station.attached = true) :
      LoopStep g id t g' (.waitingRadio deadline slice) k'
  | idles {deadline slice : Nat} (hr : g'.radio = g.radio.release.1) (hi : g'.inbound = g.inbound)
      (hdue : Due g' (.listener id) (g.clock + slice)) (ha : g.station.attached = false) :
      LoopStep g id t g' (.waitingRadio deadline slice) (.idle deadline)
  | ends {deadline : Nat} {l : Listening} (hr : g'.radio = g.radio.release.1)
      (hi : g'.inbound = g.inbound) :
      LoopStep g id t g' (.listening deadline l) (.proceeding (some deadline))
  | reports {reason : String} (hr : g'.radio = g.radio) (hi : g'.inbound = g.inbound)
      (hdue : Due g' (.listener id) (g.clock + t.errorBackoff)) :
      LoopStep g id t g' (.crashed reason) .restarting
  | restarts (hr : g'.radio = g.radio) (hi : g'.inbound = g.inbound) :
      LoopStep g id t g' .restarting .starting

/-- A step of a loop to the stage `k'`; unless it lets time go by there, nobody falls asleep. -/
structure LoopGoes (g : Gateway) (id : Nat) (t : Timing) (k k' : ListenerStage)
    (g' : Gateway) : Prop where
  listener? : g'.listener? = update g.listener? id (some ⟨t, k'⟩)
  asleep : g'.asleep = g.asleep ∨ k'.sleeps = true
  nextId : g'.nextId = g.nextId
  delay : g'.openDelay = g.openDelay
  step : LoopStep g id t g' k k'

theorem due_listenerSleeps {clock : Nat} (hc : g.clock = clock) (k : ListenerStage) (ms : Nat) :
    Due (g.listenerSleeps id k ms) (.listener id) (clock + ms) :=
  hc ▸ due_sleep (g.setListener id k) (.listener id) ms

theorem loopGoes_iterate (h : Scripted g) (hid : g.listener? id = some ⟨t, k⟩)
    (hk : k = .starting ∨ k = .proceeding none ∨ k = .backingOff) (events : List Log.Event) :
    LoopGoes g id t k (.proceeding (some (g.clock + t.receiveTimeout)))
      ((g.note events).iterate id t) := by
  have hsim : (g.note events).station.simulated = false := by simp [Station.simulated, h.backend]
  unfold iterate
  rw [hsim]
  exact ⟨by simp [hid], .inl (by simp), by simp, by simp [openDelay],
    .begins hk (by simp) (by simp [inbound])⟩

theorem loopGoes_nextSlice {deadline : Nat} (hid : g.listener? id = some ⟨t, k⟩)
    (hk : k = .proceeding (some deadline) ∨ k = .idle deadline) :
    ∃ k', LoopGoes g id t k k' (g.nextSlice id deadline) := by
  unfold nextSlice
  split
  · rename_i hd
    exact ⟨_, by simp [hid], .inl (by simp), by simp, by simp [openDelay],
      .expires hk hd (by simp) (by simp [inbound])⟩
  · rename_i hd
    exact ⟨_, by simp [hid], .inl (by simp), by simp, by simp [openDelay],
      .asks hk (by omega) (by simp) (by simp [inbound])⟩

theorem loopGoes_listenSlice {deadline slice : Nat} (h : Scripted g)
    (hid : g.listener? id = some ⟨t, .waitingRadio deadline slice⟩) :
    ∃ k',
    LoopGoes g id t (.waitingRadio deadline slice) k' (g.listenSlice id t deadline slice) := by
  unfold listenSlice Station.beginListen
  rw [h.backend]
  cases hd : g.station.driver with
  | none =>
    exact ⟨_, by simp [hid], .inr rfl, by simp, by simp [openDelay],
      .idles (by simp) (by simp [inbound]) (due_listenerSleeps (by simp) _ _)
        (by simp [Station.attached, hd])⟩
  | some d =>
    have hattached : g.station.attached = true := by simp [Station.attached, hd]
    cases hi : g.station.bench.script.inbound with
    | nil =>
      simp only [Station.Driver.receive, Radio.ScriptedRadio.takeInbound, hi, progressListen,
        Station.progressListen]
      exact ⟨_, by simp [hid], .inr rfl, by simp, by simp [openDelay],
        .listens (by simp [Station.attached]) (by simp) (by simp [inbound, hi])
          (due_listenerSleeps (by simp) _ _) hi⟩
    | cons x rest =>
      cases x with
      | frame f =>
        simp only [Station.Driver.receive, Radio.ScriptedRadio.takeInbound, hi, progressListen,
          Station.progressListen, Station.Received.heard, heard, Except.map, Option.map]
        exact ⟨.proceeding none, by simp [hid], .inl (by simp), by simp, by simp [openDelay],
          .takes (.frame f) (.frame f) (by simp) (by simp [inbound, hi]) hattached⟩
      | failure reason =>
        simp only [Station.Driver.receive, Radio.ScriptedRadio.takeInbound, hi, progressListen,
          Station.progressListen, Station.Received.heard, heard, Except.map]
        exact ⟨.backingOff, by simp [hid], .inr rfl, by simp, by simp [openDelay],
          .takes (.failure reason) (.failure reason (due_listenerSleeps (by simp) _ _)) (by simp)
            (by simp [inbound, hi]) hattached⟩
      | crash =>
        simp only [Station.Driver.receive, Radio.ScriptedRadio.takeInbound, hi, progressListen,
          Station.progressListen, Station.Received.heard, heard, Except.map]
        exact ⟨.crashed Radio.crashMessage, by simp [hid], .inl (by simp), by simp,
          by simp [openDelay],
          .takes .crash .crash (by simp) (by simp [inbound, hi]) hattached⟩

theorem loopGoes_resumeListener (h : Scripted g) (hid : g.listener? id = some ⟨t, k⟩)
    (hl : ∀ deadline l, k = .listening deadline l → g.station.attached = true) :
    ∃ k', LoopGoes g id t k k' (g.resumeListener id) := by
  unfold resumeListener
  rw [hid]
  cases k with
  | starting => exact ⟨_, loopGoes_iterate h hid (by simp) [.loopStarted]⟩
  | proceeding deadline =>
    cases deadline with
    | none => exact ⟨_, loopGoes_iterate h hid (by simp) []⟩
    | some deadline => exact loopGoes_nextSlice hid (.inl rfl)
  | simulating => cases h.stage id _ hid
  | waitingRadio deadline slice => exact loopGoes_listenSlice h hid
  | listening deadline l =>
    cases l with
    | looking looks => cases h.stage id _ hid
    | quiet =>
      obtain ⟨d, hd⟩ := Option.isSome_iff_exists.mp (hl deadline .quiet rfl)
      simp only [Station.resumeListen, hd, Option.map_some, Station.Driver.resumeReceive,
        progressListen, Station.progressListen, Station.Received.heard, heard, Except.map,
        Option.map_none]
      exact ⟨_, by simp [hid], .inl (by simp), by simp, by simp [openDelay],
        .ends (by simp) (by simp [inbound])⟩
  | idle deadline => exact loopGoes_nextSlice hid (.inr rfl)
  | backingOff => exact ⟨_, loopGoes_iterate h hid (by simp) []⟩
  | crashed reason =>
    exact ⟨.restarting, by simp [hid], .inr rfl, by simp, by simp [openDelay],
      .reports (by simp) (by simp [inbound]) (due_listenerSleeps (by simp) _ _)⟩
  | restarting =>
    exact ⟨.starting, by simp [hid], .inl (by simp), by simp, by simp [openDelay],
      .restarts (by simp) (by simp [inbound])⟩

-- ---------------------------------------------------------------------------
-- A step of a client
-- ---------------------------------------------------------------------------

/-- What a request asks the radio for, when it comes to that. -/
inductive Asks : Stage → Errand → Prop
  | send (payload : List UInt8) : Asks (.arrived (.send (.ok payload))) (.send payload)
  | attach (u : Radio.Update) (c : Config) : Asks (.waitingTurn (.connect u)) (.attach c)
  | detach {r : Request} (hr : ∀ u, r ≠ .connect u) : Asks (.waitingTurn r) .detach

/-- Where a connect stands that is about to open the radio, or has begun to. -/
def Stage.attaches : Stage → Bool
  | .waitingRadio (.attach _) | .opening _ _ => true
  | _ => false

theorem Stage.radio_of_attaches {k : Stage} (hk : k.attaches = true) :
    k.standing.radio ≠ .none := by
  cases k with
  | waitingRadio e => cases e <;> simp [attaches, standing] at hk ⊢
  | opening => simp [standing]
  | _ => cases hk

/-- All that a step of a client can come to with the scripted radio, by where its request stood and
stands. -/
inductive ClientStep (g : Gateway) (id : Nat) (g' : Gateway) : Stage → Stage → Prop
  | refuses (e : Json.Error) (hr : g'.radio = g.radio) :
      ClientStep g id g' (.arrived (.send (.error e)))
        (.finished (.error (.serialization e.message)))
  | queues {r : Request} (hs : ∀ payload, r ≠ .send payload) (hr : g'.radio = g.radio)
      (ht : g.turn.holder = none → g'.goes (.client id) = true) :
      ClientStep g id g' (.arrived r) (.waitingTurn r)
  | rejects (u : Radio.Update) (o : Outcome) (hr : g'.radio = g.radio) :
      ClientStep g id g' (.waitingTurn (.connect u)) (.finished o)
  | asks {k : Stage} {e : Errand} (hk : Asks k e)
      (hr : g'.radio = (g.radio.acquire (.client id)).1) : ClientStep g id g' k (.waitingRadio e)
  | opens (c : Config) (o : Opening) (hr : g'.radio = g.radio) (hd : g'.station.attached = false)
      (hdue : Due g' (.client id) (g.clock + g.openDelay)) :
      ClientStep g id g' (.waitingRadio (.attach c)) (.opening c o)
  | retries {k : Stage} (e : RadioError) (hk : k.attaches = true)
      (hr : g'.radio = (g.radio.release.1.acquire (.client id)).1)
      (hd : (∀ c o, k = .opening c o → g.station.attached = false) → g'.station.attached = false) :
      ClientStep g id g' k (.waitingRadio (.confirm e))
  | ends {k : Stage} (o : Outcome) (hk : k.standing.radio ≠ .none)
      (hr : g'.radio = g.radio.release.1) (ho : ∀ payload, k = .waitingRadio (.send payload) →
        o = reported g.station.simulated (g.station.verdict payload)) :
      ClientStep g id g' k (.finished o)

/-- A step of a client to the stage `k'`; nobody falls asleep but for an opening. -/
structure ClientGoes (g : Gateway) (id : Nat) (k k' : Stage) (g' : Gateway) : Prop where
  stage? : g'.stage? = update g.stage? id (some k')
  asleep : g'.asleep = g.asleep ∨ ∃ c o, k' = .opening c o
  nextId : g'.nextId = g.nextId
  delay : g'.openDelay = g.openDelay
  step : ClientStep g id g' k k'

section Clients

variable {k : Stage}

theorem clientGoes_opened {s : Station} {r : Except RadioError Station.Device}
    (hid : g.stage? id = some k) (hk : k.attaches = true)
    (hdelay : s.bench.script.openDelay = g.openDelay) (hd : ∀ e, r = .error e →
      (∀ c o, k = .opening c o → g.station.attached = false) → s.attached = false)
    (events : List Log.Event) (c : Config) :
    ∃ k', ClientGoes g id k k' ((g.withStation s events).opened id c r) := by
  cases r with
  | ok device =>
    exact ⟨.finished (.ok (.connected device c)), by simp [opened, commit, hid],
      .inl (by simp [opened, commit]), by simp [opened, commit],
      by simpa [opened, commit, openDelay] using hdelay,
      .ends _ (Stage.radio_of_attaches hk) (by simp [opened, commit]) fun payload he => by
        subst he; cases hk⟩
  | error e =>
    exact ⟨_, by simp [opened, hid], .inl (by simp [opened]), by simp [opened],
      by simpa [opened, openDelay] using hdelay, .retries e hk (by simp [opened])
        fun ho => by simpa [opened] using hd e rfl ho⟩

theorem clientGoes_attach {c : Config} (h : g.station.Prompt)
    (hid : g.stage? id = some (.waitingRadio (.attach c))) :
    ∃ k', ClientGoes g id (.waitingRadio (.attach c)) k' (g.useRadio id (.attach c)) := by
  have hdelay := g.station.openDelay_beginAttach c
  simp only [useRadio]
  rcases h with hb | hb
  · have hr := Station.beginAttach_simulated hb c
    rw [hr] at hdelay ⊢
    exact clientGoes_opened hid rfl hdelay (by simp) _ c
  · have hopens := Station.opens_beginAttach (c := c) hb
    split
    · rename_i r hr
      rw [hr] at hopens
      refine clientGoes_opened hid rfl hdelay ?_ _ c
      rintro e rfl -
      rw [Station.attached_eq_isSome_tuned, hopens.2.1]
      rfl
    · rename_i ms o hr
      rw [hr] at hopens
      have hms : ms = g.openDelay := Station.pause_beginAttach hb hr
      have hdue := due_sleep ((g.withStation (g.station.beginAttach c).state
        (g.station.beginAttach c).log).setStage id (.opening c o)) (.client id) ms
      refine ⟨_, by simp [hid], .inr ⟨c, o, rfl⟩, by simp, by simpa [openDelay] using hdelay,
        .opens c o (by simp) ?_ ?_⟩
      · simp [Station.attached_eq_isSome_tuned, hopens.2.2.1]
      · simpa [hms] using hdue

theorem clientGoes_resumeClient (h : Prompt g) (hid : g.stage? id = some k)
    (hk : k.isFinished = false) : ∃ k', ClientGoes g id k k' (g.resumeClient id) := by
  unfold resumeClient
  rw [hid]
  cases k with
  | arrived r =>
    cases r with
    | connect u =>
      exact ⟨_, by simp [hid], .inl (by simp), by simp, by simp [openDelay],
        .queues (by simp) (by simp) fun ht => goes_seekTurn ht id _⟩
    | disconnect =>
      exact ⟨_, by simp [hid], .inl (by simp), by simp, by simp [openDelay],
        .queues (by simp) (by simp) fun ht => goes_seekTurn ht id _⟩
    | send encoded =>
      cases encoded with
      | error e =>
        exact ⟨_, by simp [hid], .inl (by simp), by simp, by simp [openDelay], .refuses e (by simp)⟩
      | ok payload =>
        exact ⟨_, by simp [hid], .inl (by simp), by simp, by simp [openDelay],
          .asks (.send payload) (by simp)⟩
  | waitingTurn r =>
    have hdetach (hr : ∀ u, r ≠ .connect u) :
        ClientGoes g id (.waitingTurn r) (.waitingRadio .detach) (g.seekRadio id .detach) :=
      ⟨by simp [hid], .inl (by simp), by simp, by simp [openDelay], .asks (.detach hr) (by simp)⟩
    cases r with
    | connect u =>
      simp only [takeTurn]
      split
      · rename_i fault _
        exact ⟨.finished (.error (.configuration fault.message)), by simp [hid],
          .inl (by simp), by simp, by simp [openDelay], .rejects u _ (by simp)⟩
      · exact ⟨.waitingRadio (.attach (g.link.config.merge u)), by simp [hid],
          .inl (by simp), by simp, by simp [openDelay], .asks (.attach u _) (by simp)⟩
    | disconnect | send => exact ⟨_, hdetach (by simp)⟩
  | waitingRadio e =>
    cases e with
    | attach c => exact clientGoes_attach h.station hid
    | confirm e =>
      exact ⟨.finished (.error (.driver e)), by simp [useRadio, giveUp, hid],
        .inl (by simp [useRadio, giveUp]), by simp [useRadio, giveUp],
        by simp [useRadio, giveUp, openDelay],
        .ends _ (by simp [Stage.standing]) (by simp [useRadio, giveUp]) (by simp)⟩
    | detach =>
      have hdelay : g.station.detach.state.bench.script.openDelay = g.openDelay :=
        g.station.openDelay_release
      exact ⟨.finished (.ok .disconnected), by simp [useRadio, hid], .inl (by simp [useRadio]),
        by simp [useRadio], by simpa [useRadio, openDelay] using hdelay,
        .ends _ (by simp [Stage.standing]) (by simp [useRadio]) (by simp)⟩
    | send payload =>
      obtain ⟨hresult, -, hbackend, -⟩ := Station.beginSend_prompt h.station payload
      have hsim : (g.station.beginSend payload).state.simulated = g.station.simulated := by
        rw [Station.simulated, hbackend, Station.simulated]
      have hdelay := g.station.openDelay_beginSend h.station payload
      refine ⟨.finished (reported g.station.simulated (g.station.verdict payload)), ?_⟩
      simp only [useRadio, progressTransmit, hresult, transmitted]
      cases hv : g.station.verdict payload with
      | ok length =>
        exact ⟨by simp [reported, hid, hsim], .inl (by simp), by simp,
          by simpa [openDelay] using hdelay,
          .ends _ (by simp [Stage.standing]) (by simp) (by simp [hv])⟩
      | error e =>
        exact ⟨by simp [reported, hid], .inl (by simp), by simp, by simpa [openDelay] using hdelay,
          .ends _ (by simp [Stage.standing]) (by simp) (by simp [hv])⟩
  | opening c o =>
    refine clientGoes_opened hid rfl (g.station.openDelay_finishAttach o) ?_ _ c
    rintro e he ho
    exact Station.detached_finishAttach (ho c o rfl) he
  | transmitting length looks => exact absurd hid (h.stage id length looks)
  | finished o => cases hk

end Clients

-- ---------------------------------------------------------------------------
-- Loops in time
-- ---------------------------------------------------------------------------

/-- Where a client stands that is about to change over to another driver, or to give it up. -/
def Stage.changesOver : Stage → Bool
  | .waitingRadio (.attach _) | .waitingRadio .detach | .opening _ _ => true
  | _ => false

theorem Stage.radio_of_changesOver {k : Stage} (hk : k.changesOver = true) :
    k.standing.radio ≠ .none := by
  cases k with
  | waitingRadio e => cases e <;> simp [changesOver, standing] at hk ⊢
  | opening => simp [standing]
  | _ => cases hk

/-- Whether a driver is attached changes only with a step of a client that is about to change it. -/
theorem attached_after (ho : InOrder g)
    (hm : ∀ id k, m = .resume (.client id) → g.goes (.client id) = true →
      g.stage? id = some k → k.changesOver = false) :
    (g.after m).station.attached = g.station.attached := by
  have hsame {s : Station} (hs : SameDriver g.station s) : s.attached = g.station.attached := by
    rw [Station.attached_eq_isSome_tuned, Station.attached_eq_isSome_tuned, hs.tuned]
  by_cases hr : ∃ p, m = .resume p
  · obtain ⟨p, rfl⟩ := hr
    cases hp : g.goes p with
    | false => rw [after_resume_of_not_goes hp]
    | true =>
      have hstation : (g.depart p).station = g.station := (depart_keeps g p).1
      rw [after_resume hp]
      cases p with
      | listener id =>
        exact hsame (hstation ▸ (aside_resumeListener (g.depart (.listener id)) id).station)
      | client id =>
        obtain ⟨k, hid, -⟩ := ho.stage?_of_goes hp
        have hk := hm id k rfl hp hid
        have hhandles := handles_resumeClient (g := g.depart (.client id)) (by simpa using hid)
        rw [hstation] at hhandles
        simp only [resume]
        generalize ((g.depart (.client id)).resumeClient id).station = s at hhandles
        cases hhandles with
        | same hs => exact hsame hs
        | attach | finish | detach => cases hk
  · exact hsame (aside_after ho m fun p he => hr ⟨p, he⟩).station

/-- Leaving the queue of those who can go on is nothing to a step. -/
theorem LoopGoes.of_depart {k' : ListenerStage} (h : LoopGoes (g.depart p) id t k k' g') :
    LoopGoes g id t k k' g' := by
  have hstep : LoopStep g id t g' k k' := by
    have h' := h.step
    unfold Gateway.depart at h'
    split at h' <;>
    cases h' with
    | begins hk hr hi => exact .begins hk hr hi
    | expires hk hd hr hi => exact .expires hk hd hr hi
    | asks hk hd hr hi => exact .asks hk hd hr hi
    | listens ha hr hi hdue hnone => exact .listens ha hr hi hdue hnone
    | takes x hx hr hi ha => exact .takes x hx hr hi ha
    | idles hr hi hdue ha => exact .idles hr hi hdue ha
    | ends hr hi => exact .ends hr hi
    | reports hr hi hdue => exact .reports hr hi hdue
    | restarts hr hi => exact .restarts hr hi
  exact ⟨by simpa using h.listener?, by simpa [(depart_keeps_others g p).1] using h.asleep,
    by simpa using h.nextId, by simpa [openDelay] using h.delay, hstep⟩

theorem ClientGoes.of_depart {k k' : Stage} (h : ClientGoes (g.depart p) id k k' g') :
    ClientGoes g id k k' g' := by
  have hstep : ClientStep g id g' k k' := by
    have h' := h.step
    unfold Gateway.depart at h'
    split at h' <;>
    cases h' with
    | refuses e hr => exact .refuses e hr
    | queues hs hr ht => exact .queues hs hr ht
    | rejects u o hr => exact .rejects u o hr
    | asks hk hr => exact .asks hk hr
    | opens c o hr hd hdue => exact .opens c o hr hd hdue
    | retries e hk hr hd => exact .retries e hk hr hd
    | ends o hk hr ho => exact .ends o hk hr ho
  exact ⟨by simpa using h.stage?, by simpa [(depart_keeps_others g p).1] using h.asleep,
    by simpa using h.nextId, by simpa [openDelay] using h.delay, hstep⟩

theorem Prompt.clientGoes (h : Prompt g) (ho : InOrder g) (hp : g.goes (.client id) = true) :
    ∃ k k', g.stage? id = some k ∧ k.isFinished = false ∧
      ClientGoes g id k k' (g.after (.resume (.client id))) := by
  obtain ⟨k, hid, hk⟩ := ho.stage?_of_goes hp
  have hprompt : Prompt (g.depart (.client id)) :=
    ⟨by simpa using h.station, by simpa using h.stage⟩
  obtain ⟨k', hgoes⟩ := clientGoes_resumeClient hprompt (by simpa using hid) hk
  rw [after_resume hp]
  exact ⟨k, k', hid, hk, hgoes.of_depart⟩

/-- Where a party stands that sleeps. -/
def Rests (g : Gateway) : Party → Prop
  | .client id => ∃ c o, g.stage? id = some (.opening c o)
  | .listener id => ∃ l, g.listener? id = some l ∧ l.stage.sleeps = true

/-- A loop waits and listens for a slice at most, and listens only with a driver. -/
def InTime (g : Gateway) (id : Nat) : ListenerStage → Prop
  | .waitingRadio _ slice => 0 < slice ∧ slice ≤ Station.sliceTime
  | .listening _ _ => g.station.attached = true ∧
      ∃ due ≤ g.clock + Station.sliceTime, Due g (.listener id) due
  | _ => True

/-- What holds at every moment of a paced run with the scripted radio. -/
structure Steady (g : Gateway) : Prop where
  order : InOrder g
  punctual : Punctual g
  prompt : Prompt g
  scripted : Scripted g
  sleeper : ∀ due p, (due, p) ∈ g.asleep → g.Rests p
  loop : ∀ id t k, g.listener? id = some ⟨t, k⟩ → 0 < t.receiveTimeout ∧ g.InTime id k
  single : ∀ id id', g.listener? id ≠ none → g.listener? id' ≠ none → id = id'

theorem InOrder.listener?_of_goes (h : InOrder g) (hp : g.goes (.listener id) = true) :
    ∃ l, g.listener? id = some l := by
  have hactive : (g.standing (.listener id)).active = true :=
    ((h.orderly.mem _).mp (awake_of_goes hp)).1
  cases hid : g.listener? id with
  | none =>
    rw [standing, hid] at hactive
    cases hactive
  | some l => exact ⟨l, rfl⟩

/-- Who sleeps after a move has slept before, or has just taken a step. -/
theorem mem_asleep_of_after {s : Nat × Party} (hs : s ∈ (g.after m).asleep) :
    s ∈ g.asleep ∨ m = .resume s.2 ∧ g.goes s.2 = true := by
  cases m with
  | resume p =>
    cases hp : g.goes p with
    | false =>
      rw [after_resume_of_not_goes hp] at hs
      exact .inl hs
    | true =>
      obtain ⟨naps, hn, hnaps⟩ := (lasting_resume (g.depart p) p).asleep
      have hm : s ∈ (g.depart p).asleep ++ naps := by
        rw [after_resume hp] at hs
        exact hn ▸ hs
      rcases List.mem_append.mp hm with hold | hnew
      · exact .inl ((depart_keeps_others g p).1 ▸ hold)
      · obtain rfl := (hnaps s hnew).1
        exact .inr ⟨rfl, hp⟩
  | elapse ms => exact .inl (List.mem_of_mem_filter hs)
  | dismiss id =>
    refine .inl ?_
    simp only [after, dismiss] at hs
    split at hs
    · exact hs
    · have hkept : s ∈ g.asleep ∧ s.2 ≠ .listener id := by simpa using hs
      exact hkept.1
  | forget id =>
    simp only [after] at hs
    split at hs <;> exact .inl hs
  | arrive origin manner r => exact .inl (by simpa [after, arrive] using hs)
  | enlist t => exact .inl (by simpa [after, enlist] using hs)
  | poll | stimulate | relog => exact .inl hs

theorem not_mem_asleep_dismiss {l : Listener} (hid : g.listener? id = some l) (due : Nat) :
    (due, .listener id) ∉ (g.dismiss id).asleep := by
  simp [dismiss, hid]

theorem clock_resume (g : Gateway) (p : Party) : (g.after (.resume p)).clock = g.clock := by
  cases hp : g.goes p with
  | false => rw [after_resume_of_not_goes hp]
  | true =>
    rw [after_resume hp]
    exact (lasting_resume (g.depart p) p).clock.trans (by simp [agenda])

theorem clock_after (hm : ∀ ms, m ≠ .elapse ms) : (g.after m).clock = g.clock := by
  cases m with
  | resume p => exact clock_resume g p
  | elapse ms => exact absurd rfl (hm ms)
  | forget id => simp only [Gateway.after]; split <;> rfl
  | arrive | enlist | dismiss => simp [Gateway.after]
  | poll | stimulate | relog => rfl

/-- When all wait, who is due is due later. -/
theorem Due.clock_lt {due : Nat} (h : Due g p due) (hq : g.isQuiet = true) : g.clock < due := by
  rcases h with ⟨-, hlt⟩ | ⟨-, hp⟩
  · exact hlt
  · cases (not_goes_of_isQuiet hq _).symm.trans hp

/-- Time does not go by beyond a moment at which somebody is due. -/
theorem Due.clock_after_le {due late : Nat} (h : Due g p due) (hm : Paced g m) (hdue : due ≤ late)
    (hc : g.clock ≤ late) : (g.after m).clock ≤ late := by
  by_cases helapse : ∃ ms, m = .elapse ms
  · obtain ⟨ms, rfl⟩ := helapse
    rcases h with ⟨hs, -⟩ | ⟨-, hp⟩
    · exact Nat.le_trans (hm.2 _ hs) hdue
    · cases (not_goes_of_isQuiet hm.1 _).symm.trans hp
  · rwa [clock_after fun ms he => helapse ⟨ms, he⟩]

theorem epoch_resumeClient (g : Gateway) (id : Nat) : (g.resumeClient id).epoch = g.epoch := by
  have hopened (g : Gateway) (c : Config) (r : Except RadioError Station.Device) :
      (g.opened id c r).epoch = g.epoch := by
    cases r <;> simp [opened, commit]
  have htransmit (g : Gateway) (length : Nat)
      (e : Station.Effect Station (Station.Progress Nat (Except RadioError Nat))) :
      (g.progressTransmit id length e).epoch = g.epoch := by
    unfold progressTransmit transmitted
    simp only
    split
    · split <;> simp
    · simp
  unfold resumeClient
  split
  · rfl
  · rfl
  · simp
  · simp
  · simp
  · unfold takeTurn
    split
    · simp only
      split <;> simp
    · simp
  · rename_i errand _
    cases errand with
    | attach c =>
      simp only [useRadio]
      split <;> simp [hopened]
    | confirm e => simp [useRadio, giveUp]
    | detach => simp [useRadio]
    | send payload => exact htransmit _ _ _
  · simp [hopened]
  · exact htransmit _ _ _

theorem epoch_resumeListener (g : Gateway) (id : Nat) : (g.resumeListener id).epoch = g.epoch := by
  have hheard (g : Gateway) (t : Timing) (deadline : Nat) (r : Station.Heard) :
      (g.heard id t deadline r).epoch = g.epoch := by
    unfold heard
    simp only
    split <;> simp
  have hlisten (g : Gateway) (t : Timing) (deadline : Nat)
      (e : Station.Effect Station (Station.Progress Listening Station.Heard)) :
      (g.progressListen id t deadline e).epoch = g.epoch := by
    unfold progressListen
    simp only
    split <;> simp [hheard]
  unfold resumeListener
  split
  · rfl
  · rename_i t stage _
    cases stage with
    | proceeding deadline => cases deadline <;> simp
    | waitingRadio deadline slice =>
      simp only [listenSlice]
      split <;> simp [hlisten]
    | listening deadline l =>
      simp only
      split <;> simp [hlisten]
    | starting | simulating | idle | backingOff | crashed | restarting => simp

/-- The start of a run is a moment of its own: nothing moves it. -/
theorem epoch_after (g : Gateway) (m : Move) : (g.after m).epoch = g.epoch := by
  cases m with
  | resume p =>
    cases hp : g.goes p with
    | false => rw [after_resume_of_not_goes hp]
    | true =>
      rw [after_resume hp]
      cases p with
      | client id => exact (epoch_resumeClient _ id).trans (by simp)
      | listener id => exact (epoch_resumeListener _ id).trans (by simp)
  | forget id => simp only [after]; split <;> rfl
  | dismiss | arrive | enlist => simp [after]
  | elapse | poll | stimulate | relog => rfl

namespace Steady

theorem loopGoes {l : Listener} (h : Steady g) (hp : g.goes (.listener id) = true)
    (hid : g.listener? id = some l) :
    ∃ k', LoopGoes g id l.timing l.stage k' (g.after (.resume (.listener id))) := by
  have hl (deadline : Nat) (s : Listening) (hs : l.stage = .listening deadline s) :
      (g.depart (.listener id)).station.attached = true := by
    obtain ⟨t, k⟩ := l
    have hin := (h.loop id t k hid).2
    simp only at hs
    subst hs
    simpa using hin.1
  obtain ⟨k', hgoes⟩ := loopGoes_resumeListener (h.scripted.depart _) (by simpa using hid) hl
  rw [after_resume hp]
  exact ⟨k', hgoes.of_depart⟩

theorem clientGoes (h : Steady g) (hp : g.goes (.client id) = true) :
    ∃ k k', g.stage? id = some k ∧ k.isFinished = false ∧
      ClientGoes g id k k' (g.after (.resume (.client id))) :=
  h.prompt.clientGoes h.order hp

theorem sleeper_after (h : Steady g) {due : Nat} (hs : (due, p) ∈ (g.after m).asleep) :
    (g.after m).Rests p := by
  by_cases hown : m = .resume p ∧ g.goes p = true
  · obtain ⟨rfl, hp⟩ := hown
    have hnot : (due, p) ∉ g.asleep := h.order.not_asleep hp due
    cases p with
    | client id =>
      obtain ⟨k, k', -, -, hgoes⟩ := h.clientGoes hp
      rcases hgoes.asleep with ha | ⟨c, o, rfl⟩
      · exact absurd (ha ▸ hs) hnot
      · exact ⟨c, o, by rw [hgoes.stage?, Function.update_self]⟩
    | listener id =>
      obtain ⟨l, hid⟩ := h.order.listener?_of_goes hp
      obtain ⟨k', hgoes⟩ := h.loopGoes hp hid
      rcases hgoes.asleep with ha | hk
      · exact absurd (ha ▸ hs) hnot
      · exact ⟨⟨l.timing, k'⟩, by rw [hgoes.listener?, Function.update_self], hk⟩
  · have hold : (due, p) ∈ g.asleep := (mem_asleep_of_after hs).resolve_right hown
    have hrests := h.sleeper due p hold
    by_cases hm : m = .resume p
    · subst hm
      rw [after_resume_of_not_goes (by simpa using hown)]
      exact hrests
    · cases p with
      | client id =>
        obtain ⟨c, o, hid⟩ := hrests
        exact ⟨c, o, h.order.stage?_after hid rfl hm⟩
      | listener id =>
        obtain ⟨⟨t, k⟩, hid, hk⟩ := hrests
        have hne : m ≠ .dismiss id := by
          rintro rfl
          exact not_mem_asleep_dismiss hid due hs
        obtain ⟨k', hid', ⟨rfl, -⟩ | ⟨he, -⟩⟩ := listener?_after h.order hid hne
        · exact ⟨_, hid', hk⟩
        · exact absurd he hm

/-- Whoever listens has the radio, so nobody else can take the driver away. -/
theorem attached_of_listening {deadline : Nat} {s : Listening} (h : Steady g)
    (hid : g.listener? id = some ⟨t, .listening deadline s⟩) :
    (g.after m).station.attached = g.station.attached := by
  refine attached_after h.order fun other k _ hp hother => ?_
  have hheld : g.radio.holder = some (.listener id) :=
    h.order.orderly.radio.held _ (by simp [standing_listener hid, ListenerStage.standing])
  by_contra hk
  have hclaim : (g.standing (.client other)).radio ≠ .none := by
    rw [standing_client hother]
    exact Stage.radio_of_changesOver (by simpa using hk)
  have hheld' := h.order.holds_radio hp hclaim
  cases hheld.symm.trans hheld'

theorem loop_after (h : Steady g) (hm : Paced g m) (hid : (g.after m).listener? id = some ⟨t, k⟩) :
    0 < t.receiveTimeout ∧ (g.after m).InTime id k := by
  cases hold : g.listener? id with
  | none =>
    -- only a loop that has just been started was not there before
    by_cases hnew : ∃ t', m = .enlist t' ∧ id = g.nextId
    · obtain ⟨t', rfl, rfl⟩ := hnew
      rw [Gateway.after, listener?_enlist g t' h.order.listener?_next, Function.update_self] at hid
      cases hid
      exact ⟨hm.2, trivial⟩
    · rw [listener?_after_of_none h.order hold fun t' he hn => hnew ⟨t', he, hn⟩] at hid
      cases hid
  | some l =>
    obtain ⟨t', k'⟩ := l
    obtain ⟨hpatient, hin⟩ := h.loop id t' k' hold
    have hne : m ≠ .dismiss id := by
      rintro rfl
      simp [Gateway.after] at hid
    obtain ⟨k'', hid', hstep⟩ := listener?_after h.order hold hne
    cases hid.symm.trans hid'
    refine ⟨hpatient, ?_⟩
    rcases hstep with ⟨rfl, hs⟩ | ⟨rfl, hp, -⟩
    · cases k with
      | listening deadline l =>
        obtain ⟨ha, due, hle, hdue⟩ := hin
        exact ⟨(h.attached_of_listening hold).trans ha, due,
          Nat.le_trans hle (Nat.add_le_add_right hs.clock _), hdue.spared hs⟩
      | waitingRadio deadline slice => exact hin
      | _ => trivial
    · obtain ⟨k₂, hgoes⟩ := h.loopGoes hp hold
      have hid₂ := congrFun hgoes.listener? id
      rw [hid, Function.update_self] at hid₂
      cases hid₂
      cases hgoes.step with
      | begins | expires | idles | ends | reports | restarts => trivial
      | asks hk hd => exact ⟨by simp only [Station.sliceTime]; omega, Nat.min_le_left _ _⟩
      | listens ha hr hi hdue =>
        exact ⟨ha, _, by rw [clock_resume]; exact Nat.add_le_add_left hin.2 _, hdue⟩
      | takes x hx => cases hx <;> trivial

theorem single_after (h : Steady g) (hm : Paced g m) {id' : Nat}
    (hid : (g.after m).listener? id ≠ none) (hid' : (g.after m).listener? id' ≠ none) :
    id = id' := by
  have hold {x : Nat} (hx : (g.after m).listener? x ≠ none) :
      g.listener? x ≠ none ∨ ∃ t, m = .enlist t ∧ x = g.nextId := by
    by_contra hno
    rw [not_or, not_not] at hno
    exact hx (listener?_after_of_none h.order hno.1 fun t he hn => hno.2 ⟨t, he, hn⟩)
  have hnone {t : Timing} (he : m = .enlist t) (x : Nat) : g.listener? x = none := by
    subst he
    rw [listener?, hm.1]
    rfl
  rcases hold hid with h₁ | ⟨t, he, h₁⟩ <;> rcases hold hid' with h₂ | ⟨t', he', h₂⟩
  · exact h.single id id' h₁ h₂
  · exact absurd (hnone he' id) h₁
  · exact absurd (hnone he id') h₂
  · rw [h₁, h₂]

theorem after (h : Steady g) (hm : Paced g m) : Steady (g.after m) where
  order := h.order.after m
  punctual := h.punctual.after m
  prompt := h.prompt.after h.order m
  scripted := h.scripted.after h.order m
  sleeper _ _ hs := h.sleeper_after hs
  loop _ _ _ hid := h.loop_after hm hid
  single _ _ hid hid' := h.single_after hm hid hid'

end Steady

theorem steady_through {bench : Station.Bench} {capacity epoch : Nat} {moves : List Move}
    (hm : Always Paced (start (.hardware .scripted) bench capacity epoch) moves) :
    Steady ((start (.hardware .scripted) bench capacity epoch).through moves) := by
  refine hm.through (fun g m h ok => h.after ok) ?_
  exact
    { order := inOrder_start _ bench capacity epoch
      punctual := punctual_through _ bench capacity epoch []
      prompt := prompt_through (.inr rfl) bench capacity epoch []
      scripted := scripted_start bench capacity epoch
      sleeper := by rintro due p ⟨⟩
      loop := by rintro id t k ⟨⟩
      single := fun id id' hid => absurd rfl hid }

end RadioGateway.Gateway
