import RadioGateway.Proofs.Health
import RadioGateway.Station.Solo

/-!
# The scripted radio stands in for the chip

As long as nothing goes wrong, whoever uses a station cannot tell the scripted radio from the chip.
Both do what a plain radio does, of which nothing is known but whether it is attached, the data of
the frames that wait, and what has been sent.
-/

namespace RadioGateway.Station

open RadioGateway.Chip (Arrival payloadLimit)
open RadioGateway.Gateway (Stimulus)
open RadioGateway.Radio

variable {s : Station} {h : Hardware} {d : Driver} {c : Config}

-- ---------------------------------------------------------------------------
-- Tasks
-- ---------------------------------------------------------------------------

/-- What the only user of a station does, and what happens to its radios: a frame comes in at both
of them, or from now on the chip takes another number of looks to report the end of a
transmission. -/
inductive Task where
  | connect (c : Config)
  | disconnect
  | send (payload : List UInt8)
  | receive (timeout : Nat)
  | frame (f : Arrival) (signal : Signal)
  | finishAfter (looks : Nat)

/-- What a task comes to, but for the time that it takes and how well a frame is heard. -/
inductive Answer where
  | connected (r : Except RadioError Device)
  | sent (r : Except RadioError Nat)
  | heard (r : Except Interruption (Option (List UInt8)))
  | nothing

/-- A payload fits, and a frame that comes in is a good one. -/
def Task.Usual : Task → Prop
  | .send payload => payload.length ≤ 252
  | .frame f _ => f.Good
  | _ => True

def stimulate (s : Station) (x : Stimulus) : Station := { s with bench := x.apply s.bench }

def perform (s : Station) : Task → Station × Answer
  | .connect c => ((s.attach c).state, .connected (s.attach c).result)
  | .disconnect => (s.detach.state, .nothing)
  | .send payload => ((s.send payload).state, .sent (s.send payload).result)
  | .receive timeout =>
    ((s.receive timeout).state, .heard ((s.receive timeout).result.1.map fun f => f.map Frame.data))
  | .frame f signal =>
    ((s.stimulate (.queue (.frame ⟨f.data, signal⟩))).stimulate (.inject f), .nothing)
  | .finishAfter looks => (s.stimulate (.finishAfter (some looks)), .nothing)

def through (s : Station) (tasks : List Task) : Station :=
  tasks.foldl (fun s t => (s.perform t).1) s

/-- What the tasks come to, and whether a driver is attached after each. -/
def answers (s : Station) : List Task → List (Answer × Bool)
  | [] => []
  | t :: rest => ((s.perform t).2, (s.perform t).1.attached) :: (s.perform t).1.answers rest

-- ---------------------------------------------------------------------------
-- Whole operations
-- ---------------------------------------------------------------------------

theorem release_detached (hd : s.driver = none) : s.release.state = s := by
  unfold release
  rw [hd]
  cases s.backend <;> rfl

theorem release_attached (hb : s.backend = .hardware h) (hd : s.driver = some d) :
    s.release.state = { s with bench := (d.sleep h s.bench).1, driver := none } := by
  unfold release
  rw [hb, hd]

theorem attach_hardware (hb : s.backend = .hardware h) (c : Config) :
    let e := Driver.runOpen h c s.release.state.bench
    ((s.attach c).state, (s.attach c).result) = s.release.state.attachOpened e.state
      e.result.1 := by
  simp only [attach, beginAttach, hb, Driver.runOpen]
  generalize s.release = released
  cases hr : (Driver.beginOpen h c released.state.bench).result with
  | finished r => rfl
  | paused ms o =>
    simp only [finishAttach]
    cases (Driver.finishOpen o (Driver.beginOpen h c released.state.bench).state).result <;> rfl

theorem send_hardware (hb : s.backend = .hardware h) (hd : s.driver = some d)
    (payload : List UInt8) :
    let e := d.runTransmit h payload s.bench
    (s.send payload).state = { s with bench := e.state } ∧
      (s.send payload).result = e.result.1.map fun _ => payload.length := by
  simp only [send, beginSend, hb, hd, progressSend, Driver.runTransmit]
  cases (d.transmit h payload s.bench).result with
  | finished r => exact ⟨rfl, rfl⟩
  | paused ms looks => exact ⟨rfl, rfl⟩

theorem receiveWithin_zero (s : Station) :
    s.receiveWithin 0 = { state := s, result := (.ok none, 0) } := by
  unfold receiveWithin
  rfl

/-- Without a driver a receive waits for as long as it was told to. -/
theorem receiveWithin_detached (hd : s.driver = none) (remaining : Nat) :
    s.receiveWithin remaining = { state := s, result := (.ok none, remaining) } := by
  induction remaining using Nat.strongRecOn with
  | ind remaining ih =>
    by_cases hr : remaining = 0
    · rw [hr, receiveWithin_zero]
    · have hless : remaining - min sliceTime remaining < remaining := by
        unfold sliceTime
        omega
      have htotal : min sliceTime remaining + (remaining - min sliceTime remaining) =
          remaining := by omega
      rw [receiveWithin, if_neg hr, hd]
      cases s.backend <;> simp only [ih _ hless, htotal]

/-- A receive that takes any time begins with a slice, and goes on only if the slice brings
nothing. -/
theorem receiveWithin_attached (hb : s.backend = .hardware h) (hd : s.driver = some d)
    {remaining : Nat} (hr : 0 < remaining) :
    let e := d.runReceive h (min sliceTime remaining) s.bench
    let next : Station := { s with bench := e.state.1, driver := some e.state.2 }
    (e.result.1 = .ok none → ∃ less < remaining,
      (s.receiveWithin remaining).state = (next.receiveWithin less).state ∧
      (s.receiveWithin remaining).result.1 = (next.receiveWithin less).result.1) ∧
    (e.result.1 ≠ .ok none → (s.receiveWithin remaining).state = next ∧
      (s.receiveWithin remaining).result.1 = Received.heard e.result.1 e.state.2.signal) := by
  obtain ⟨backend, driver, bench⟩ := s
  obtain rfl : backend = .hardware h := hb
  obtain rfl : driver = some d := hd
  intro e next
  rw [receiveWithin, if_neg (Nat.ne_of_gt hr)]
  simp only
  split
  · rename_i ms hresult
    have hslice : min sliceTime remaining ≤ ms := Driver.le_of_runReceive hresult
    have hless : remaining - ms < remaining := by
      unfold sliceTime at hslice
      omega
    exact ⟨fun _ => ⟨_, hless, rfl, rfl⟩, fun hn => absurd (congrArg Prod.fst hresult) hn⟩
  · rename_i r ms hsome hresult
    have hr : e.result.1 = r := congrArg Prod.fst hresult
    exact ⟨fun hn => absurd (hr.symm.trans hn) hsome, fun _ => ⟨rfl, by rw [hr]⟩⟩

-- ---------------------------------------------------------------------------
-- A plain radio
-- ---------------------------------------------------------------------------

/-- The data of the frames that wait to be received, and what has been sent. -/
structure Traffic where
  awaited : List (List UInt8) := []
  sent : List (List UInt8) := []

namespace Traffic

def hear (t : Traffic) : Traffic × Option (List UInt8) :=
  match t.awaited with
  | [] => (t, none)
  | data :: rest => ({ t with awaited := rest }, some data)

def join (t : Traffic) (data : List UInt8) : Traffic := { t with awaited := t.awaited ++ [data] }

def send (t : Traffic) (payload : List UInt8) : Traffic := { t with sent := t.sent ++ [payload] }

theorem hear_silent {t : Traffic} (h : t.hear.2 = none) : t.hear = (t, none) := by
  unfold hear at h ⊢
  cases ha : t.awaited with
  | nil => rfl
  | cons data rest =>
    rw [ha] at h
    cases h

end Traffic

/-- All there is to a radio for whoever uses it. -/
structure Plain where
  attached : Bool := false
  traffic : Traffic := {}

namespace Plain

def hear (p : Plain) (timeout : Nat) : Plain × Option (List UInt8) :=
  if p.attached ∧ 0 < timeout then ({ p with traffic := p.traffic.hear.1 }, p.traffic.hear.2)
  else (p, none)

def perform (p : Plain) : Task → Plain × Answer
  | .connect c =>
    match c.fault? with
    | some fault => ({ p with attached := false }, .connected (.error fault.toError))
    | none => ({ p with attached := true }, .connected (.ok ⟨hardwareName, false⟩))
  | .disconnect => ({ p with attached := false }, .nothing)
  | .send payload =>
    if p.attached then ({ p with traffic := p.traffic.send payload }, .sent (.ok payload.length))
    else (p, .sent (.error .notConnected))
  | .receive timeout => ((p.hear timeout).1, .heard (.ok (p.hear timeout).2))
  | .frame f _ => ({ p with traffic := p.traffic.join f.data }, .nothing)
  | .finishAfter _ => (p, .nothing)

def through (p : Plain) (tasks : List Task) : Plain := tasks.foldl (fun p t => (p.perform t).1) p

def answers (p : Plain) : List Task → List (Answer × Bool)
  | [] => []
  | t :: rest => ((p.perform t).2, (p.perform t).1.attached) :: (p.perform t).1.answers rest

end Plain

-- ---------------------------------------------------------------------------
-- Stations with a radio that does what a plain one does
-- ---------------------------------------------------------------------------

/-- What the radio of some hardware does for its drivers. `Q` says with what traffic a bench agrees,
and `A` how a driver stands between two operations. -/
structure Serves (h : Hardware) (Q : Traffic → Bench → Prop)
    (A : Driver → Bench → Prop) : Prop where
  opens : ∀ {t b}, Q t b → ∀ c,
    let e := Driver.runOpen h c b
    Q t e.state ∧
    match c.fault? with
    | some fault => e.result.1 = .error fault.toError
    | none => ∃ d, e.result.1 = .ok d ∧ A d e.state
  sleeps : ∀ {t b}, Q t b → ∀ d, Q t (Driver.sleep h d b).1
  transmits : ∀ {t b d}, Q t b → A d b → ∀ payload : List UInt8, payload.length ≤ payloadLimit →
    let e := d.runTransmit h payload b
    e.result.1 = .ok () ∧ Q (t.send payload) e.state ∧ A d e.state
  receives : ∀ {t b d}, Q t b → A d b → ∀ slice, 0 < slice →
    let e := d.runReceive h slice b
    e.result.1 = .ok t.hear.2 ∧ Q t.hear.1 e.state.1 ∧ A e.state.2 e.state.1
  frame : ∀ {t b}, Q t b → ∀ f : Arrival, f.Good → ∀ signal,
    let b' := (Stimulus.inject f).apply ((Stimulus.queue (.frame ⟨f.data, signal⟩)).apply b)
    Q (t.join f.data) b' ∧ ∀ d, A d b → A d b'
  finishAfter : ∀ {t b}, Q t b → ∀ looks,
    let b' := (Stimulus.finishAfter (some looks)).apply b
    Q t b' ∧ ∀ d, A d b → A d b'

/-- A station that stands where a plain radio stands. -/
structure Follows (h : Hardware) (Q : Traffic → Bench → Prop)
    (A : Driver → Bench → Prop) (p : Plain) (s : Station) : Prop where
  backend : s.backend = .hardware h
  attached : s.attached = p.attached
  traffic : Q p.traffic s.bench
  driver : ∀ d, s.driver = some d → A d s.bench

section Follows

variable {Q : Traffic → Bench → Prop} {A : Driver → Bench → Prop} {p : Plain}

namespace Follows

theorem detached (hf : Follows h Q A p s) (hd : s.driver = none) : p.attached = false := by
  rw [← hf.attached, Station.attached, hd]
  rfl

theorem isAttached (hf : Follows h Q A p s) (hd : s.driver = some d) : p.attached = true := by
  rw [← hf.attached, Station.attached, hd]
  rfl

theorem release (hf : Follows h Q A p s) (hs : Serves h Q A) :
    Follows h Q A { p with attached := false } s.release.state ∧ s.release.state.driver = none := by
  cases hd : s.driver with
  | none =>
    rw [release_detached hd]
    exact ⟨⟨hf.backend, hf.attached.trans (hf.detached hd), hf.traffic, hf.driver⟩, hd⟩
  | some d =>
    rw [release_attached hf.backend hd]
    exact ⟨⟨hf.backend, rfl, hs.sleeps hf.traffic d, nofun⟩, rfl⟩

theorem connect (hf : Follows h Q A p s) (hs : Serves h Q A) (c : Config) :
    Follows h Q A (p.perform (.connect c)).1 (s.perform (.connect c)).1 ∧
      (s.perform (.connect c)).2 = (p.perform (.connect c)).2 := by
  obtain ⟨hreleased, hd⟩ := hf.release hs
  obtain ⟨htraffic, hresult⟩ := hs.opens hreleased.traffic c
  have hattach := attach_hardware hf.backend c
  unfold perform Plain.perform
  simp only
  rw [show (s.attach c).state = _ from congrArg Prod.fst hattach,
    show (s.attach c).result = _ from congrArg Prod.snd hattach]
  cases hv : c.fault? with
  | some fault =>
    rw [hv] at hresult
    rw [hresult]
    exact ⟨⟨hreleased.backend, hreleased.attached, htraffic,
      fun d' hd' => absurd (hd.symm.trans hd') nofun⟩, rfl⟩
  | none =>
    rw [hv] at hresult
    obtain ⟨d, hok, hready⟩ := hresult
    rw [hok]
    refine ⟨⟨hreleased.backend, rfl, htraffic, ?_⟩, rfl⟩
    rintro _ ⟨⟩
    exact hready

theorem send (hf : Follows h Q A p s) (hs : Serves h Q A) {payload : List UInt8}
    (hl : payload.length ≤ payloadLimit) :
    Follows h Q A (p.perform (.send payload)).1 (s.perform (.send payload)).1 ∧
      (s.perform (.send payload)).2 = (p.perform (.send payload)).2 := by
  unfold perform Plain.perform
  simp only
  cases hd : s.driver with
  | none =>
    have hsend : s.send payload = { state := s, result := .error .notConnected } := by
      simp only [Station.send, beginSend, hf.backend, hd]
    rw [hf.detached hd, hsend]
    exact ⟨hf, rfl⟩
  | some d =>
    obtain ⟨hresult, htraffic, hready⟩ := hs.transmits hf.traffic (hf.driver d hd) payload hl
    obtain ⟨hstate, hsent⟩ := send_hardware hf.backend hd payload
    rw [hf.isAttached hd, hstate, hsent, hresult]
    refine ⟨⟨hf.backend, hf.attached.trans (hf.isAttached hd), htraffic, fun d' hd' => ?_⟩, rfl⟩
    obtain rfl : d = d' := Option.some.inj (hd.symm.trans hd')
    exact hready

/-- Slices that bring nothing change nothing; the first that brings a frame is the last. -/
theorem receiveWithin (hf : Follows h Q A p s) (hs : Serves h Q A) (timeout : Nat) :
    Follows h Q A (p.hear timeout).1 (s.receiveWithin timeout).state ∧
      (s.receiveWithin timeout).result.1.map (fun f => f.map Frame.data) =
        .ok (p.hear timeout).2 := by
  -- a slice in which nothing is heard leaves less of the time, and the same plain radio
  induction timeout using Nat.strongRecOn generalizing p s with
  | ind timeout ih =>
    rcases Nat.eq_zero_or_pos timeout with rfl | ht
    · rw [Plain.hear, if_neg (fun hp => Nat.lt_irrefl 0 hp.2), receiveWithin_zero]
      exact ⟨hf, rfl⟩
    cases hd : s.driver with
    | none =>
      rw [Plain.hear, if_neg (by simp [hf.detached hd]), receiveWithin_detached hd]
      exact ⟨hf, rfl⟩
    | some d =>
      have hp := hf.isAttached hd
      have hpos : 0 < min sliceTime timeout := by unfold sliceTime; omega
      obtain ⟨hresult, htraffic, hready⟩ := hs.receives hf.traffic (hf.driver d hd) _ hpos
      obtain ⟨hgoes, hends⟩ := receiveWithin_attached hf.backend hd ht
      have hnext : Follows h Q A { p with traffic := p.traffic.hear.1 }
          { s with bench := (d.runReceive h (min sliceTime timeout) s.bench).state.1,
                   driver := some (d.runReceive h (min sliceTime timeout) s.bench).state.2 } := by
        refine ⟨hf.backend, hp.symm, htraffic, ?_⟩
        rintro _ ⟨⟩
        exact hready
      cases hx : p.traffic.hear.2 with
      | none =>
        rw [hx] at hresult
        obtain ⟨less, hless, hstate, hrest⟩ := hgoes hresult
        rw [Traffic.hear_silent hx] at hnext
        have hlater := ih less hless hnext
        have hsame (n : Nat) : p.hear n = (p, none) := by
          unfold Plain.hear
          rw [Traffic.hear_silent hx]
          split <;> rfl
        rw [hsame] at hlater ⊢
        rw [hstate, hrest]
        exact hlater
      | some data =>
        rw [hx] at hresult
        obtain ⟨hstate, hrest⟩ := hends (by rw [hresult]; nofun)
        rw [Plain.hear, if_pos ⟨hp, ht⟩, hstate, hrest, hresult, hx]
        exact ⟨hnext, rfl⟩

theorem receive (hf : Follows h Q A p s) (hs : Serves h Q A) (timeout : Nat) :
    Follows h Q A (p.perform (.receive timeout)).1 (s.perform (.receive timeout)).1 ∧
      (s.perform (.receive timeout)).2 = (p.perform (.receive timeout)).2 := by
  have hreceive : s.receive timeout = s.receiveWithin timeout := by
    unfold Station.receive simulated
    rw [hf.backend]
    rfl
  obtain ⟨hnext, hresult⟩ := hf.receiveWithin hs timeout
  unfold perform Plain.perform
  simp only [hreceive]
  exact ⟨hnext, congrArg Answer.heard hresult⟩

theorem perform (hf : Follows h Q A p s) (hs : Serves h Q A) (t : Task) (ht : t.Usual) :
    Follows h Q A (p.perform t).1 (s.perform t).1 ∧ (s.perform t).2 = (p.perform t).2 := by
  cases t with
  | connect c => exact hf.connect hs c
  | disconnect => exact ⟨(hf.release hs).1, rfl⟩
  | send payload => exact hf.send hs ht
  | receive timeout => exact hf.receive hs timeout
  | frame f signal =>
    obtain ⟨htraffic, hready⟩ := hs.frame hf.traffic f ht signal
    exact ⟨⟨hf.backend, hf.attached, htraffic, fun d hd => hready d (hf.driver d hd)⟩, rfl⟩
  | finishAfter looks =>
    obtain ⟨htraffic, hready⟩ := hs.finishAfter hf.traffic looks
    exact ⟨⟨hf.backend, hf.attached, htraffic, fun d hd => hready d (hf.driver d hd)⟩, rfl⟩

/-- What is so for one task is so for a row of them. -/
theorem through (hf : Follows h Q A p s) (hs : Serves h Q A) {tasks : List Task}
    (ht : ∀ t ∈ tasks, t.Usual) :
    Follows h Q A (p.through tasks) (s.through tasks) ∧ s.answers tasks = p.answers tasks := by
  induction tasks generalizing p s with
  | nil => exact ⟨hf, rfl⟩
  | cons t rest ih =>
    obtain ⟨hnext, hanswer⟩ := hf.perform hs t (ht t List.mem_cons_self)
    obtain ⟨hend, hanswers⟩ := ih hnext fun u hu => ht u (List.mem_cons_of_mem t hu)
    refine ⟨hend, ?_⟩
    rw [answers, Plain.answers, hanswer, hnext.attached, hanswers]

end Follows

end Follows

-- ---------------------------------------------------------------------------
-- The scripted radio
-- ---------------------------------------------------------------------------

def heard? : Inbound → Option (List UInt8)
  | .frame f => some f.data
  | _ => none

/-- Nothing is set to go wrong with the scripted radio. -/
structure Plays (t : Traffic) (b : Bench) : Prop where
  opens : b.script.nextOpenError = none
  sends : b.script.nextSendError = none
  awaited : b.script.inbound.map heard? = t.awaited.map some
  sent : b.script.transmitted = t.sent

namespace Plays

variable {t : Traffic} {b : Bench}

theorem runOpen (hp : Plays t b) (c : Config) :
    let e := Driver.runOpen .scripted c b
    Plays t e.state ∧
    match c.fault? with
    | some fault => e.result.1 = .error fault.toError
    | none => ∃ d, e.result.1 = .ok d := by
  have hopen :
      b.script.openWith c = ({ b.script with opened := b.script.opened ++ [c] }, .ok ()) := by
    unfold ScriptedRadio.openWith
    split
    · rename_i he
      cases hp.opens.symm.trans he
    · rfl
  unfold Driver.runOpen Driver.beginOpen
  cases c.fault? with
  | some fault => exact ⟨hp, rfl⟩
  | none =>
    have hplays : Plays t { b with script := { b.script with opened := b.script.opened ++ [c] } } :=
      ⟨hp.opens, hp.sends, hp.awaited, hp.sent⟩
    by_cases hdelay : b.script.openDelay = 0
    · simp only [if_pos hdelay, Driver.finishOpen, hopen]
      exact ⟨hplays, _, rfl⟩
    · simp only [if_neg hdelay, Driver.finishOpen, hopen]
      exact ⟨hplays, _, rfl⟩

theorem receive (hp : Plays t b) (d : Driver) (slice : Nat) :
    let e := d.runReceive .scripted slice b
    e.result.1 = .ok t.hear.2 ∧ Plays t.hear.1 e.state.1 := by
  have hawaited := hp.awaited
  unfold Driver.runReceive Driver.receive ScriptedRadio.takeInbound Traffic.hear
  cases hi : b.script.inbound with
  | nil =>
    rw [hi, List.map_nil] at hawaited
    rw [List.map_eq_nil_iff.mp hawaited.symm]
    exact ⟨rfl, hp⟩
  | cons x rest =>
    rw [hi] at hawaited
    obtain ⟨data, datas, ha, hx, hrest⟩ := List.map_eq_cons_iff.mp hawaited.symm
    rw [ha]
    cases x with
    | frame f =>
      obtain rfl : data = f.data := Option.some.inj hx
      exact ⟨rfl, hp.opens, hp.sends, hrest.symm, hp.sent⟩
    | failure reason => cases hx
    | crash => cases hx

end Plays

theorem serves_scripted : Serves .scripted Plays fun _ _ => True where
  opens hp c := by
    obtain ⟨hplays, hresult⟩ := hp.runOpen c
    refine ⟨hplays, ?_⟩
    cases hv : c.fault? with
    | some fault =>
      rw [hv] at hresult
      exact hresult
    | none =>
      rw [hv] at hresult
      obtain ⟨d, hd⟩ := hresult
      exact ⟨d, hd, trivial⟩
  sleeps hp _ := ⟨hp.opens, hp.sends, hp.awaited, hp.sent⟩
  transmits {t b d} hp _ payload _ := by
    have hsend : b.script.transmit payload =
        ({ b.script with transmitted := b.script.transmitted ++ [payload] }, .ok ()) := by
      unfold ScriptedRadio.transmit
      split
      · rename_i he
        cases hp.sends.symm.trans he
      · rfl
    simp only [Driver.runTransmit, Driver.transmit, hsend]
    exact ⟨trivial, ⟨hp.opens, hp.sends, hp.awaited, congrArg (· ++ [payload]) hp.sent⟩, trivial⟩
  receives {t b d} hp _ slice _ := by
    obtain ⟨hresult, hplays⟩ := hp.receive d slice
    exact ⟨hresult, hplays, trivial⟩
  frame hp f _ signal := by
    refine ⟨⟨hp.opens, hp.sends, ?_, hp.sent⟩, fun _ _ => trivial⟩
    simp only [Stimulus.apply, Traffic.join, List.map_append, hp.awaited]
    rfl
  finishAfter hp _ := ⟨⟨hp.opens, hp.sends, hp.awaited, hp.sent⟩, fun _ _ => trivial⟩

-- ---------------------------------------------------------------------------
-- The chip
-- ---------------------------------------------------------------------------

/-- The board is healthy. -/
structure Works (t : Traffic) (b : Bench) : Prop where
  healthy : b.board.Healthy t.sent
  awaited : b.board.chip.awaited = t.awaited

theorem serves_board : Serves .board Works Attentive where
  opens hw c := by
    obtain ⟨hhealthy, hawaited, hresult⟩ := Driver.runOpen_of_healthy hw.healthy c
    exact ⟨⟨hhealthy, hawaited.trans hw.awaited⟩, hresult⟩
  sleeps hw d := by
    obtain ⟨hhealthy, hawaited⟩ := Driver.sleep_of_healthy hw.healthy d
    exact ⟨hhealthy, hawaited.trans hw.awaited⟩
  transmits hw ha payload hl := by
    obtain ⟨hresult, hhealthy, hawaited, hready⟩ := Driver.runTransmit_of_healthy hw.healthy ha hl
    exact ⟨hresult, ⟨hhealthy, hawaited.trans hw.awaited⟩, hready⟩
  receives {t b d} hw ha slice hpos := by
    obtain ⟨hhealthy, hready, hcomes⟩ := Driver.runReceive_of_healthy hw.healthy ha hpos
    rw [hw.awaited] at hcomes
    unfold Traffic.hear
    rcases hcomes with ⟨hnone, hresult, hafter⟩ | ⟨data, hresult, hsome⟩
    · rw [hnone]
      exact ⟨hresult, ⟨hhealthy, hafter.trans hnone.symm⟩, hready⟩
    · rw [hsome]
      exact ⟨hresult, ⟨hhealthy, rfl⟩, hready⟩
  frame {t b} hw f hgood signal := by
    have hall {P : Arrival → Prop} (hP : ∀ g ∈ b.board.chip.arrivals, P g) (hf : P f) :
        ∀ g ∈ b.board.chip.arrivals ++ [f], P g := by
      intro g hg
      rcases List.mem_append.mp hg with hg | hg
      · exact hP g hg
      · exact List.mem_singleton.mp hg ▸ hf
    obtain ⟨hsure, hclaim, hchip⟩ := hw.healthy
    refine ⟨⟨⟨hsure, hclaim, ?_⟩, ?_⟩, fun d ha => ⟨?_, ?_, ha.rested⟩⟩
    · exact ⟨hchip.version, hchip.lora, hchip.finishes, hchip.sent, hall hchip.good hgood⟩
    · show (b.board.chip.arrivals ++ [f]).map Arrival.data = t.awaited ++ [f.data]
      rw [List.map_append, ← hw.awaited]
      rfl
    · exact ⟨rfl, ha.ready.lora, ha.ready.mode, ha.ready.programmed, ha.ready.sure⟩
    · exact ⟨ha.listens.mode, ha.listens.countdown, ha.listens.clear,
        hall ha.listens.sound hgood.toSound⟩
  finishAfter {t b} hw looks := by
    obtain ⟨hsure, hclaim, hchip⟩ := hw.healthy
    refine ⟨⟨⟨hsure, hclaim, ?_⟩, hw.awaited⟩, fun d ha => ⟨?_, ?_, ha.rested⟩⟩
    · exact ⟨hchip.version, hchip.lora, rfl, hchip.sent, hchip.good⟩
    · exact ⟨rfl, ha.ready.lora, ha.ready.mode, ha.ready.programmed, ha.ready.sure⟩
    · exact ⟨ha.listens.mode, ha.listens.countdown, ha.listens.clear, ha.listens.sound⟩

-- ---------------------------------------------------------------------------
-- One for the other
-- ---------------------------------------------------------------------------

/-- A scripted radio and a board that wait for the same frames and have sent the same, and nothing
is set to go wrong with either. -/
structure Twins (r : ScriptedRadio) (b : Chip.Board) : Prop where
  opens : r.nextOpenError = none
  sends : r.nextSendError = none
  awaited : r.inbound.map heard? = b.chip.awaited.map some
  healthy : b.Healthy r.transmitted

/-- The scripted radio stands in for the chip. Start from either of them, with nothing attached, and
do the same with both: connect with any configuration, disconnect, send payloads that fit, and
receive for any time, attached or not. Good frames come in at both at the same points, each with any
signal and after any number of looks at the chip, and the end of a transmission is reported after
however many looks. Then each task comes to the same with both, up to the time and the signal: the
same number of bytes, the same data or none, the same error. A driver is attached to both or to
neither after each of them, and both have sent the same. -/
theorem scripted_stands_in (b : Bench) (tasks : List Task) (hb : Twins b.script b.board)
    (ht : ∀ t ∈ tasks, t.Usual) :
    let scripted : Station := { backend := .hardware .scripted, bench := b }
    let driven : Station := { backend := .hardware .board, bench := b }
    scripted.answers tasks = driven.answers tasks ∧
      (scripted.through tasks).bench.script.transmitted =
        (driven.through tasks).bench.board.chip.sent := by
  intro scripted driven
  let p : Plain := { traffic := { awaited := b.board.chip.awaited, sent := b.script.transmitted } }
  have hscripted : Follows .scripted Plays (fun _ _ => True) p scripted :=
    ⟨rfl, rfl, ⟨hb.opens, hb.sends, hb.awaited, rfl⟩, fun _ _ => trivial⟩
  have hdriven : Follows .board Works Attentive p driven := ⟨rfl, rfl, ⟨hb.healthy, rfl⟩, nofun⟩
  obtain ⟨hplays, hanswers⟩ := hscripted.through serves_scripted ht
  obtain ⟨hworks, hanswers'⟩ := hdriven.through serves_board ht
  exact ⟨hanswers.trans hanswers'.symm,
    hplays.traffic.sent.trans hworks.traffic.healthy.chip.sent.symm⟩

/-- A frame that comes in while nothing is attached waits through a connect that is refused and one
that is not. Another one, which goes round the end of the packet memory, waits through a
transmission and a reconnect. -/
theorem frames_wait_for_both :
    let b : Bench := { board := { chip := Chip.fresh Chip.chipVersion } }
    let hey : Arrival :=
      ⟨[0x68, 0x65, 0x79], 0xFE, 0xF8, 0x40, Chip.Irq.rxDone ||| Chip.Irq.validHeader, 0⟩
    let oh : Arrival := { hey with data := [0x6F, 0x68] }
    let tasks : List Task :=
      [.frame oh {}, .receive 70, .connect { spreadingFactor := 5 }, .connect {},
        .receive 70, .finishAfter 3,
       .frame hey {}, .send [0x61], .connect {}, .receive 70, .disconnect]
    let scripted : Station := { backend := .hardware .scripted, bench := b }
    let driven : Station := { backend := .hardware .board, bench := b }
    Twins b.script b.board ∧ (∀ t ∈ tasks, t.Usual) ∧
    scripted.answers tasks = driven.answers tasks ∧
      (driven.through tasks).bench.board.chip.sent = [[0x61]] := by
  intro b hey oh tasks scripted driven
  have hhey : hey.Good := ⟨⟨by decide, by decide⟩, by decide⟩
  have hoh : oh.Good := ⟨⟨by decide, by decide⟩, by decide⟩
  have htwins : Twins b.script b.board :=
    ⟨rfl, rfl, rfl, rfl, rfl, Chip.Memory.get_set_self _ _ _, rfl, rfl, rfl, nofun⟩
  have husual : ∀ t ∈ tasks, t.Usual := by simp [tasks, Task.Usual, hhey, hoh]
  obtain ⟨hanswers, hsent⟩ := scripted_stands_in b tasks htwins husual
  have hplayed : (scripted.through tasks).bench.script.transmitted = [[0x61]] := by decide +kernel
  exact ⟨htwins, husual, hanswers, hsent.symm.trans hplayed⟩

end RadioGateway.Station
