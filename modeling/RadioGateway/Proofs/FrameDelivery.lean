import RadioGateway.Proofs.Openings
import RadioGateway.Proofs.Transmission

/-!
# Every good frame is received once

A driver that was opened on the chip returns the good frames that come in, each once, in order and
byte for byte, with the signal of that very frame. A receive that meets a fault loses nothing.
-/

namespace RadioGateway.Station

open RadioGateway.Chip
open RadioGateway.Radio

variable {c : Config} {d : Driver} {b b' b'' : Bench} {signal : Signal}

-- ---------------------------------------------------------------------------
-- Receives
-- ---------------------------------------------------------------------------

/-- What a receive may come to: it fails at a fault and nothing is lost, nothing has come in, or the
first frame that is owed is returned, with its signal. -/
inductive Receives (c : Config) (b b' : Bench) (signal : Signal) : Received → Prop
  | failed (e : RadioError) (hc : Carries c b.board.chip b'.board.chip)
      (hm : Met b.board b'.board) : Receives c b b' signal (.error (.failed e))
  | nothing (hc : Carries c b.board.chip b'.board.chip) (hn : held? c b.board.chip = none)
      (hf : b'.board.faults.length = b.board.faults.length) : Receives c b b' signal (.ok none)
  | frame (data : List UInt8) (hl : Listens b'.board.chip)
      (ho : owed c b.board.chip = (data, signal) :: owed c b'.board.chip) :
      Receives c b b' signal (.ok (some data))

theorem Receives.after {r : Received} {silent : Signal} (h : Receives c b b' silent (.ok none))
    (h' : Receives c b' b'' signal r) : Receives c b b'' signal r := by
  cases h with
  | nothing hc hn hf =>
    cases h' with
    | failed e hc' hm => exact .failed e (hc.trans hc') (by unfold Met at hm ⊢; omega)
    | nothing hc' hn' hf' => exact .nothing (hc.trans hc') hn (hf'.trans hf)
    | frame data hl ho => exact .frame data hl (hc.owed.symm.trans ho)

namespace Driver

theorem receives_lookOnce (d : Driver) (hl : Listens b.board.chip) :
    Receives d.config b (d.lookOnce b).state.1 (d.lookOnce b).state.2.signal
      ((d.lookOnce b).result.getD (.ok none)) := by
  have hlook := runs_look d.config hl
  unfold Runs at hlook
  unfold lookOnce Bench.onBoard
  cases hr : look d.config b.board with
  | error e b₁ =>
    rw [hr] at hlook
    exact .failed e hlook.1 hlook.2
  | ok l b₁ =>
    rw [hr] at hlook
    obtain ⟨hc, hf, hfound⟩ := hlook
    have hclear := runs_clearFlags (c := d.config) hc.listens
    unfold Runs at hclear
    -- clearing the flags is the last thing that can go wrong
    have lost (e : RadioError) (b₂ : Board) (hf' : Faulted b₁ b₂) (signal : Signal) :
        Receives d.config b { b with board := b₂ } signal (.error (.failed e)) := by
      have hm := hf'.met
      unfold Met at hm
      exact .failed e (hf'.chip ▸ hc) (by unfold Met; rw [← hf]; exact hm)
    cases l with
    | nothing => exact .nothing hc (hc.held?_eq_none hfound) hf
    | garbled =>
      simp only
      cases hr' : clearFlags b₁ with
      | error e b₂ =>
        rw [hr'] at hclear
        exact lost e b₂ hclear _
      | ok u b₂ =>
        rw [hr'] at hclear
        obtain ⟨hl', hn, ha, hf'⟩ := hclear
        have howed : owed d.config b₂.chip = owed d.config b₁.chip := by simp [owed, hn, ha, hfound]
        refine .nothing ⟨hl', howed.trans hc.owed, fun r hr => ?_⟩ (hc.held?_eq_none hfound)
          (hf'.trans hf)
        cases hr.symm.trans (hc.held?_eq_none hfound)
    | frame data signal =>
      simp only
      cases hr' : clearFlags b₁ with
      | error e b₂ =>
        rw [hr'] at hclear
        exact lost e b₂ hclear _
      | ok u b₂ =>
        rw [hr'] at hclear
        obtain ⟨hl', hn, ha, -⟩ := hclear
        refine .frame data hl' ?_
        rw [← hc.owed]
        simp [owed, hn, ha, hfound]

theorem receives_runLooks (d : Driver) (hl : Listens b.board.chip) (looks : Nat) :
    Receives d.config b (d.runLooks looks b).state.1 (d.runLooks looks b).state.2.signal
      (d.runLooks looks b).result.1 := by
  induction looks generalizing d b with
  | zero =>
    have hlook := d.receives_lookOnce hl
    cases hr : (d.lookOnce b).result with
    | none =>
      rw [hr] at hlook
      rwa [runLooks_zero d b hr]
    | some r =>
      rw [hr] at hlook
      rwa [runLooks_some d b hr]
  | succ looks ih =>
    have hlook := d.receives_lookOnce hl
    cases hr : (d.lookOnce b).result with
    | none =>
      rw [hr] at hlook
      rw [(runLooks_succ d b hr looks).1, (runLooks_succ d b hr looks).2]
      have hl' : Listens (d.lookOnce b).state.1.board.chip := by
        cases hlook with
        | nothing hc => exact hc.listens
      have hrest := ih (d.lookOnce b).state.2 hl'
      rw [(d.lookOnce_keeps b).2] at hrest
      exact hlook.after hrest
    | some r =>
      rw [hr] at hlook
      rwa [runLooks_some d b hr]

theorem runReceive_board (d : Driver) (timeout : Nat) (b : Bench) :
    (d.runReceive .board timeout b).state = (d.runLooks (looksWithin timeout b.board) b).state ∧
    (d.runReceive .board timeout b).result.1 =
      (d.runLooks (looksWithin timeout b.board) b).result.1 := by
  have hreceive : d.receive .board timeout b = d.lookForFrame (looksWithin timeout b.board) b := rfl
  unfold runReceive
  rw [hreceive]
  generalize looksWithin timeout b.board = looks
  unfold lookForFrame
  cases hr : (d.lookOnce b).result with
  | some r =>
    rw [runLooks_some d b hr]
    simp [Effect.map, hr]
  | none =>
    cases looks with
    | zero =>
      rw [runLooks_zero d b hr]
      simp [Effect.map, hr]
    | succ looks =>
      rw [(runLooks_succ d b hr looks).1, (runLooks_succ d b hr looks).2]
      simp [Effect.map, hr]

theorem receives_runReceive (d : Driver) (hl : Listens b.board.chip) (timeout : Nat) :
    Receives d.config b (d.runReceive .board timeout b).state.1
      (d.runReceive .board timeout b).state.2.signal (d.runReceive .board timeout b).result.1 := by
  obtain ⟨hs, hr⟩ := runReceive_board d timeout b
  rw [hs, hr]
  exact d.receives_runLooks hl _

end Driver

-- ---------------------------------------------------------------------------
-- Openings
-- ---------------------------------------------------------------------------

/-- A driver can be opened only on a chip that keeps the LoRa bit, and then the chip is
configured. -/
theorem Driver.configured_runOpen (h : (runOpen .board c b).result.1 = .ok d) :
    d = { config := c } ∧ b.board.chip.refusesLora = false ∧
      ∃ chip, SameAir b.board.chip chip ∧
        (runOpen .board c b).state.board.chip = chip.writes (configure c) := by
  unfold runOpen beginOpen at h ⊢
  cases hclaim : b.board.claimFaults with
  | cons e rest => simp [Bench.onBoard, claim, hclaim] at h
  | nil =>
    cases hv : c.fault? with
    | some fault => simp [Bench.onBoard, claim, hclaim, hv] at h
    | none =>
      rcases identify_cases b.board with ⟨e, b₁, he, -⟩ | ⟨b₁, he, -, -, hchip⟩
      · simp [Bench.onBoard, claim, hclaim, hv, he] at h
      · rcases bringUp_cases c b₁ with ⟨e, b₂, he₂, -⟩ | ⟨b₂, he₂, hlora, -, hchip₂⟩
        · simp [Bench.onBoard, claim, hclaim, hv, he, finishOpen, he₂] at h
        · have hd : { config := c } = d := by
            simpa [Bench.onBoard, claim, hclaim, hv, he, finishOpen, he₂] using h
          rw [hchip, speaksLora_enterMode, Bool.not_eq_true'] at hlora
          have hreset : SameAir b.board.chip b.board.chip.reset := ⟨rfl, rfl⟩
          have hair : SameAir b.board.chip b₁.chip := hchip ▸ hreset.trans (sameAir_enterMode _ _)
          simp only [Bench.onBoard, claim, hclaim, he, finishOpen, he₂]
          exact ⟨hd.symm, hlora, b₁.chip, hair, hchip₂⟩

/-- A chip that is configured listens. -/
theorem Driver.back_runOpen (h : (runOpen .board c b).result.1 = .ok d) :
    d = { config := c } ∧ b.board.chip.refusesLora = false ∧
      Back c b.board.chip (runOpen .board c b).state.board.chip := by
  obtain ⟨hd, hlora, chip, hair, hchip⟩ := configured_runOpen h
  exact ⟨hd, hlora, hchip ▸ .trans hair (back_configure c chip (hair.refusesLora.trans hlora))⟩

/-- A chip that has just been opened listens, and all that it owes is still on its way. -/
theorem Driver.listens_runOpen (h : (runOpen .board c b).result.1 = .ok d)
    (hs : ∀ f ∈ b.board.chip.arrivals, f.Sound) :
    d.config = c ∧ Listens (runOpen .board c b).state.board.chip ∧
      owed c (runOpen .board c b).state.board.chip = intact c b.board.chip.arrivals := by
  obtain ⟨rfl, -, hback⟩ := Driver.back_runOpen h
  exact ⟨rfl, hback.listens hs, hback.owed⟩

-- ---------------------------------------------------------------------------
-- Runs
-- ---------------------------------------------------------------------------

/-- What happens to an open driver: a frame comes on its way, an access is to fail, or a receive. -/
inductive Incident where
  | frame (f : Arrival)
  | fault (f : Fault)
  | receive (timeout : Nat)

def Incident.frame? : Incident → Option Arrival
  | .frame f => some f
  | _ => none

/-- An open driver, and what its receives have returned so far, with the signal right after each. -/
structure Session where
  bench : Bench
  driver : Driver
  heard : List Reading := []

namespace Session

def chip (s : Session) : RadioGateway.Chip := s.bench.board.chip

def receive (s : Session) (timeout : Nat) : Effect (Bench × Driver) (Received × Nat) :=
  s.driver.runReceive .board timeout s.bench

def step (s : Session) : Incident → Session
  | .frame f => { s with bench := (Gateway.Stimulus.inject f).apply s.bench }
  | .fault f => { s with bench := (Gateway.Stimulus.fault f).apply s.bench }
  | .receive timeout =>
    let e := s.receive timeout
    { bench := e.state.1
      driver := e.state.2
      heard := s.heard ++ match e.result.1 with
        | .ok (some data) => [(data, e.state.2.signal)]
        | _ => [] }

def run (s : Session) (incidents : List Incident) : Session := incidents.foldl step s

/-- What was heard and what is owed are a list of readings, in order. -/
structure Owes (c : Config) (told : List Reading) (s : Session) : Prop where
  config : s.driver.config = c
  listens : Listens s.chip
  heard : s.heard ++ owed c s.chip = told

/-- What was heard and what is owed are the good ones among the frames, in order. -/
structure Complete (c : Config) (frames : List Arrival) (s : Session) : Prop where
  config : s.driver.config = c
  listens : Listens s.chip
  heard : s.heard ++ owed c s.chip = intact c frames

variable {s : Session} {frames : List Arrival} {r : Reading} {told : List Reading}

theorem complete_iff : Complete c frames s ↔ Owes c (intact c frames) s :=
  ⟨fun h => ⟨h.config, h.listens, h.heard⟩, fun h => ⟨h.config, h.listens, h.heard⟩⟩

namespace Owes

theorem receives (h : Owes c told s) (timeout : Nat) :
    Receives c s.bench (s.receive timeout).state.1 (s.receive timeout).state.2.signal
      (s.receive timeout).result.1 :=
  h.config ▸ s.driver.receives_runReceive h.listens timeout

theorem receive (h : Owes c told s) (timeout : Nat) : Owes c told (s.step (.receive timeout)) := by
  have hconfig : (s.step (.receive timeout)).driver.config = c :=
    (s.driver.runReceive_keeps .board s.bench timeout).2.1.trans h.config
  have hr := h.receives timeout
  unfold step at hconfig ⊢
  simp only at hconfig ⊢
  generalize s.receive timeout = e at hr hconfig ⊢
  rcases e with ⟨⟨b', d'⟩, log, result, ms⟩
  cases hr with
  | failed e hc hm =>
    exact ⟨hconfig, hc.listens, by rw [List.append_nil]; exact hc.owed ▸ h.heard⟩
  | nothing hc hn hf =>
    exact ⟨hconfig, hc.listens, by rw [List.append_nil]; exact hc.owed ▸ h.heard⟩
  | frame data hl ho =>
    refine ⟨hconfig, hl, ?_⟩
    rw [← h.heard, List.append_assoc]
    exact congrArg (s.heard ++ ·) ho.symm

theorem step (h : Owes c told s) (i : Incident) (hi : ∀ f ∈ i.frame?, f.Sound) :
    Owes c (told ++ intact c i.frame?.toList) (s.step i) := by
  cases i with
  | fault f =>
    simpa [Incident.frame?, intact] using
      (⟨h.config, h.listens, h.heard⟩ : Owes c told (s.step (.fault f)))
  | receive timeout => simpa [Incident.frame?, intact] using h.receive timeout
  | frame f =>
    refine ⟨h.config, ⟨h.listens.mode, h.listens.countdown, h.listens.clear, ?_⟩, ?_⟩
    · intro g hg
      rcases List.mem_append.mp hg with hg | hg
      · exact h.listens.sound g hg
      · exact hi g (by simpa [Incident.frame?, eq_comm] using hg)
    · calc s.heard ++ owed c (s.step (.frame f)).chip
          = s.heard ++ (owed c s.chip ++ intact c [f]) := by
            unfold owed
            rw [List.append_assoc, ← intact_append]
            rfl
        _ = told ++ intact c [f] := by rw [← List.append_assoc, h.heard]

theorem run (h : Owes c told s) (incidents : List Incident)
    (hi : ∀ f ∈ incidents.filterMap Incident.frame?, f.Sound) :
    Owes c (told ++ intact c (incidents.filterMap Incident.frame?)) (s.run incidents) := by
  induction incidents generalizing s told with
  | nil => simpa [intact, Session.run] using h
  | cons i rest ih =>
    have hstep := h.step i fun f hf => hi f (List.mem_filterMap.mpr ⟨i, List.mem_cons_self, hf⟩)
    have hrest : ∀ f ∈ rest.filterMap Incident.frame?, f.Sound := fun f hf => by
      obtain ⟨j, hj, he⟩ := List.mem_filterMap.mp hf
      exact hi f (List.mem_filterMap.mpr ⟨j, List.mem_cons_of_mem i hj, he⟩)
    have hrun := ih hstep hrest
    rw [List.append_assoc, ← intact_append] at hrun
    cases i <;> exact hrun

end Owes

theorem receives (h : Complete c frames s) (timeout : Nat) :
    Receives c s.bench (s.receive timeout).state.1 (s.receive timeout).state.2.signal
      (s.receive timeout).result.1 :=
  (complete_iff.mp h).receives timeout

namespace Complete

theorem receive (h : Complete c frames s) (timeout : Nat) :
    Complete c frames (s.step (.receive timeout)) :=
  complete_iff.mpr ((complete_iff.mp h).receive timeout)

theorem fails (h : Complete c frames s) {timeout : Nat} {e : Interruption}
    (he : (s.receive timeout).result.1 = .error e) :
    (s.step (.receive timeout)).heard = s.heard ∧
      Carries c s.chip (s.step (.receive timeout)).chip := by
  have hr := s.receives h timeout
  rw [he] at hr
  refine ⟨?_, ?_⟩
  · unfold Session.step
    simp only [he, List.append_nil]
  · cases hr with
    | failed e hc hm => exact hc

theorem run (h : Complete c frames s) (incidents : List Incident)
    (hi : ∀ f ∈ incidents.filterMap Incident.frame?, f.Sound) :
    Complete c (frames ++ incidents.filterMap Incident.frame?) (s.run incidents) := by
  rw [complete_iff, intact_append]
  exact (complete_iff.mp h).run incidents hi

theorem heard_all (h : Complete c frames s) (ha : s.chip.arrivals = [])
    (hd : s.chip.flagged Irq.rxDone = false) : s.heard = intact c frames := by
  have howed : owed c s.chip = [] := by
    unfold owed
    rw [held?_eq_none hd, ha]
    rfl
  simpa [howed] using h.heard

theorem heard_step (s : Session) (i : Incident) : s.heard <+: (s.step i).heard := by
  cases i with
  | frame f => exact List.prefix_rfl
  | fault f => exact List.prefix_rfl
  | receive timeout => exact List.prefix_append _ _

theorem heard_run (s : Session) (incidents : List Incident) :
    s.heard <+: (s.run incidents).heard := by
  induction incidents generalizing s with
  | nil => exact List.prefix_rfl
  | cons i rest ih => exact (heard_step s i).trans (ih (s.step i))

/-- A frame that is held is returned as soon as no more faults are met: each receive returns it or
uses a fault up. -/
theorem returned_soon (h : Complete c frames s) (hr : held? c s.chip = some r) {timeouts : List Nat}
    (hlen : s.bench.board.faults.length < timeouts.length) :
    s.heard ++ [r] <+: (s.run (timeouts.map .receive)).heard := by
  induction timeouts generalizing s with
  | nil => cases hlen
  | cons timeout rest ih =>
    have hcomes := s.receives h timeout
    have hnext := h.receive timeout
    have hrun := heard_run (s.step (.receive timeout)) (rest.map .receive)
    unfold Session.chip at hr
    show _ <+: ((s.step (.receive timeout)).run (rest.map .receive)).heard
    have hheard : (s.step (.receive timeout)).heard = s.heard ++
        match (s.receive timeout).result.1 with
        | .ok (some data) => [(data, (s.receive timeout).state.2.signal)]
        | _ => [] := rfl
    have hbench : (s.step (.receive timeout)).bench = (s.receive timeout).state.1 := rfl
    generalize (s.receive timeout) = e at hcomes hheard hbench
    rcases e with ⟨⟨b', d'⟩, log, result, ms⟩
    cases hcomes with
    | failed e hc hm =>
      have hheld : held? c (s.step (.receive timeout)).chip = some r := by
        unfold Session.chip
        rw [hbench]
        exact hc.held r hr
      have hshort : (s.step (.receive timeout)).bench.board.faults.length < rest.length := by
        rw [hbench]
        show b'.board.faults.length < rest.length
        unfold Met at hm
        simp only [List.length_cons] at hlen hm
        omega
      rw [← List.append_nil s.heard, ← hheard]
      exact ih hnext hheld hshort
    | nothing hc hn hf => cases hr.symm.trans hn
    | frame data hl ho =>
      unfold owed at ho
      rw [hr] at ho
      obtain rfl : r = (data, d'.signal) := (List.cons.inj ho).1
      exact hheard ▸ hrun

end Complete

end Session

/-- Every good frame is received exactly once, in order and byte for byte, with its own signal,
whatever faults are met. What a driver has returned are the first of the good frames, and all of
them once no more are on their way and none waits to be read. A receive that fails returns nothing
and loses nothing: a frame that waits before or after it is the next to be returned, by one of the
next receives, of which no more can fail than there are faults to come. -/
theorem good_frames_received_once (c : Config) (b : Bench) (d : Driver) (incidents : List Incident)
    (hopen : (Driver.runOpen .board c b).result.1 = .ok d)
    (hsound : ∀ f ∈ b.board.chip.arrivals ++ incidents.filterMap Incident.frame?, f.Sound) :
    let s := Session.run ⟨(Driver.runOpen .board c b).state, d, []⟩ incidents
    let good := intact c (b.board.chip.arrivals ++ incidents.filterMap Incident.frame?)
    s.heard <+: good ∧
    (s.chip.arrivals = [] → s.chip.flagged Irq.rxDone = false → s.heard = good) ∧
    ∀ timeout e, (s.receive timeout).result.1 = .error e →
      let failed := s.step (.receive timeout)
      failed.heard = s.heard ∧ owed c failed.chip = owed c s.chip ∧
      ∀ r, held? c s.chip = some r ∨ held? c failed.chip = some r →
        ∀ timeouts : List Nat, failed.bench.board.faults.length < timeouts.length →
          s.heard ++ [r] <+: (failed.run (timeouts.map .receive)).heard := by
  intro s good
  obtain ⟨hconfig, hl, howed⟩ := Driver.listens_runOpen hopen fun f hf =>
    hsound f (List.mem_append_left _ hf)
  have hstart :
      Session.Complete c b.board.chip.arrivals ⟨(Driver.runOpen .board c b).state, d, []⟩ :=
    ⟨hconfig, hl, howed⟩
  have h : Session.Complete c _ s := hstart.run incidents fun f hf =>
    hsound f (List.mem_append_right _ hf)
  refine ⟨⟨_, h.heard⟩, h.heard_all, ?_⟩
  intro timeout e he failed
  have hfails := h.fails he
  refine ⟨hfails.1, hfails.2.owed, fun r hr timeouts hlen => ?_⟩
  have hheld : held? c failed.chip = some r := hr.elim (hfails.2.held r) id
  exact hfails.1 ▸ (h.receive timeout).returned_soon hheld hlen

/-- A frame that comes round the end of the packet memory, and a fault at its last byte of news. -/
theorem frame_received_after_fault :
    let b : Bench := { board := { chip := Chip.fresh chipVersion } }
    let f : Arrival := ⟨[0x68, 0x65, 0x79], 0xFE, 0xF8, 0x40, Irq.rxDone ||| Irq.validHeader, 1⟩
    let fault : Fault := ⟨.read, some Register.packetRssi, 0, .spi "no answer"⟩
    ∃ d, (Driver.runOpen .board {} b).result.1 = .ok d ∧ f.Sound ∧
      (Session.run ⟨(Driver.runOpen .board {} b).state, d, []⟩
        [.frame f, .fault fault, .receive 0, .receive 5, .receive 0]).heard <+: intact {} [f] := by
  intro b f fault
  have hsome : (Driver.runOpen .board {} b).result.1.toOption.isSome = true := by decide +kernel
  have hsound : f.Sound := ⟨by decide, by decide⟩
  cases hopen : (Driver.runOpen .board {} b).result.1 with
  | error e =>
    rw [hopen] at hsome
    cases hsome
  | ok d =>
    refine ⟨d, rfl, hsound, ?_⟩
    have hall := good_frames_received_once {} b d
      [.frame f, .fault fault, .receive 0, .receive 5, .receive 0] hopen fun g hg => by
        obtain rfl : g = f := by simpa [b, Chip.fresh, Incident.frame?] using hg
        exact hsound
    exact hall.1

end RadioGateway.Station
