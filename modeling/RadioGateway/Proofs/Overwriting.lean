import RadioGateway.Proofs.Decoding
import RadioGateway.Proofs.Health

/-!
# What a transmission costs the receiver

Sent and received packets share the packet memory and the interrupt flags. A frame that has come in
is held there until a receive has read it and has cleared the flags. A transmission in between
clears them without a look: the frame that is held is lost, and no other.
-/

namespace RadioGateway.Station

open RadioGateway.Chip
open RadioGateway.Radio

variable {c : Config} {d : Driver} {b : Bench} {payload : List UInt8}

-- ---------------------------------------------------------------------------
-- Receives that do not fail
-- ---------------------------------------------------------------------------

namespace Driver

/-- After a look that does not fail no frame is held: there was none, or its flags were cleared. -/
theorem empty_lookOnce (d : Driver) (b : Bench) (h : ∀ e, (d.lookOnce b).result ≠ some (.error e)) :
    (d.lookOnce b).state.1.board.chip.flagged Irq.rxDone = false := by
  have hrested := runs_look_rested d.config b.board
  unfold Runs at hrested
  revert h
  unfold lookOnce Bench.onBoard
  cases hr : look d.config b.board with
  | error e b₁ => exact fun h => absurd rfl (h _)
  | ok l b₁ =>
    rw [hr] at hrested
    have hclear := rested_clearFlags b₁
    unfold Runs at hclear
    cases l with
    | nothing => exact fun _ => hrested
    | garbled =>
      simp only
      cases hr' : clearFlags b₁ with
      | error e b₂ => exact fun h => absurd rfl (h _)
      | ok u b₂ =>
        rw [hr'] at hclear
        exact fun _ => hclear
    | frame data signal =>
      simp only
      cases hr' : clearFlags b₁ with
      | error e b₂ => exact fun h => absurd rfl (h _)
      | ok u b₂ =>
        rw [hr'] at hclear
        exact fun _ => hclear

theorem empty_runLooks (d : Driver) (looks : Nat) (b : Bench)
    (h : (d.runLooks looks b).result.1.isOk = true) :
    (d.runLooks looks b).state.1.board.chip.flagged Irq.rxDone = false := by
  have hfails {r : Received} {d : Driver} {b : Bench} (hr : (d.lookOnce b).result = some r)
      (hok : r.isOk = true) (e : Interruption) : (d.lookOnce b).result ≠ some (.error e) := by
    rw [hr]
    rintro ⟨⟩
    cases hok
  induction looks generalizing d b with
  | zero =>
    cases hr : (d.lookOnce b).result with
    | none =>
      rw [runLooks_zero d b hr]
      exact d.empty_lookOnce b (by simp [hr])
    | some r =>
      rw [runLooks_some d b hr] at h ⊢
      exact d.empty_lookOnce b (hfails hr h)
  | succ looks ih =>
    cases hr : (d.lookOnce b).result with
    | none =>
      rw [(runLooks_succ d b hr looks).2] at h
      rw [(runLooks_succ d b hr looks).1]
      exact ih _ _ h
    | some r =>
      rw [runLooks_some d b hr] at h ⊢
      exact d.empty_lookOnce b (hfails hr h)

end Driver

namespace Session

variable {s : Session}

theorem empty_receive (s : Session) (timeout : Nat) (h : (s.receive timeout).result.1.isOk = true) :
    held? c (s.step (.receive timeout)).chip = none := by
  obtain ⟨hs, hr⟩ := s.driver.runReceive_board timeout s.bench
  unfold Session.receive at h
  rw [hr] at h
  have hempty := s.driver.empty_runLooks _ _ h
  rw [← hs] at hempty
  exact held?_eq_none hempty

-- ---------------------------------------------------------------------------
-- Transmissions
-- ---------------------------------------------------------------------------

/-- A transmission that no fault is met in leaves the chip in its receiving mode, with every flag
cleared. -/
theorem Open.back (h : Open c s) (hl : payload.length ≤ payloadLimit)
    (hm : ¬Met s.bench.board (s.deal (.transmit payload)).bench.board) :
    Back c s.chip (s.deal (.transmit payload)).chip := by
  have hcomes := h.transmits payload
  generalize (s.transmit payload).result.1 = r at hcomes
  cases hcomes with
  | tooLarge hlong hb => exact absurd hl (Nat.not_le.mpr hlong)
  | refused e _ hf hmet hc => exact absurd hmet hm
  | begun r _ hf hends =>
    cases hends with
    | stuck e hmet hd => exact absurd hmet hm
    | back r hf hb => exact hb

theorem open_runOpen (hopen : (Driver.runOpen .board c b).result.1 = .ok d)
    (hsound : ∀ f ∈ b.board.chip.arrivals, f.Sound) :
    Open c ⟨(Driver.runOpen .board c b).state, d, []⟩ := by
  obtain ⟨hd, hlora, hback⟩ := Driver.back_runOpen hopen
  exact ⟨congrArg Driver.config hd, hback.air.refusesLora.trans hlora,
    fun f hf => hsound f (hback.air.arrivals ▸ hf), .inl ⟨hback.mode, hback.listens hsound⟩⟩

/-- If nothing is on its way, nothing is heard after it. -/
theorem Open.silent (h : Open c s) (hl : payload.length ≤ payloadLimit)
    (hm : ¬Met s.bench.board (s.deal (.transmit payload)).bench.board)
    (harrivals : s.chip.arrivals = []) (hheard : s.heard = []) (timeouts : List Nat) :
    ((s.deal (.transmit payload)).run (timeouts.map .receive)).heard = [] := by
  have hback := h.back hl hm
  have howed : (s.deal (.transmit payload)).heard ++
      owed c (s.deal (.transmit payload)).chip = [] := by
    rw [hback.owed, harrivals, show (s.deal (.transmit payload)).heard = [] from hheard]
    rfl
  have hquiet : (timeouts.map Incident.receive).filterMap Incident.frame? = [] := by
    simp [List.filterMap_map, Function.comp_def, Incident.frame?]
  have hlast := (((h.transmit payload).owes hback.mode).run (timeouts.map .receive)
    (by simp [hquiet])).heard
  rw [howed, hquiet] at hlast
  exact (List.append_eq_nil_iff.mp hlast).1

end Session

/-- What a transmission takes away, after whatever an open driver has sent and received and whatever
faults it has met. A payload that fits is sent without a fault: then of all the frames that are owed
exactly the one that is held, if there is one, is lost, and every receive after it returns what the
next frames are, as if that one had never come. No frame is held after a receive that did not fail;
so nothing is lost if one came last. -/
theorem transmission_overwrites (c : Config) (b : Bench) (d : Driver) (dealings : List Dealing)
    (payload : List UInt8) (hopen : (Driver.runOpen .board c b).result.1 = .ok d)
    (hsound : ∀ f ∈ b.board.chip.arrivals ++ dealings.filterMap Dealing.frame?, f.Sound)
    (hfits : payload.length ≤ 252) :
    let before := Session.deals ⟨(Driver.runOpen .board c b).state, d, []⟩ dealings
    let after := before.deal (.transmit payload)
    (¬Met before.bench.board after.bench.board →
      owed c before.chip = (held? c before.chip).toList ++ owed c after.chip ∧
      held? c after.chip = none ∧ after.heard = before.heard ∧
      ∀ more : List Incident, (∀ f ∈ more.filterMap Incident.frame?, f.Sound) →
        let later := after.run more
        let awaited := intact c before.chip.arrivals ++ intact c (more.filterMap Incident.frame?)
        later.heard <+: before.heard ++ awaited ∧
        ∀ timeouts : List Nat, (∀ t ∈ timeouts, 0 < t) →
          (owed c later.chip).length + later.bench.board.faults.length ≤ timeouts.length →
          (later.run (timeouts.map .receive)).heard = before.heard ++ awaited) ∧
    ∀ timeout, (before.receive timeout).result.1.isOk = true →
      held? c (before.step (.receive timeout)).chip = none := by
  intro before after
  have hbefore : Session.Open c before :=
    (Session.open_runOpen hopen fun f hf => hsound f (List.mem_append_left _ hf)).deals dealings
      fun f hf => hsound f (List.mem_append_right _ hf)
  refine ⟨fun hm => ?_, fun timeout hok => before.empty_receive timeout hok⟩
  have hback : Back c before.chip after.chip := hbefore.back hfits hm
  have howed : owed c after.chip = intact c before.chip.arrivals := hback.owed
  refine ⟨by rw [howed]; rfl, held?_eq_none (hback.flagged _), rfl, ?_⟩
  intro more hmore later awaited
  have howes : Session.Owes c (before.heard ++ awaited) later := by
    have hstart := (hbefore.transmit payload).owes hback.mode
    have hrun := hstart.run more hmore
    rwa [howed, List.append_assoc] at hrun
  exact ⟨⟨_, howes.heard⟩, fun timeouts ht hlen => howes.hears_all ht fun _ => hlen⟩

/-- A frame that nobody has looked for is still on its way after a transmission, and the next
receive returns it. -/
theorem frame_received_after_transmission :
    let b : Bench := { board := { chip := Chip.fresh chipVersion } }
    let f : Arrival := ⟨[0x68, 0x69], 0, 0, 0, Irq.rxDone ||| Irq.validHeader, 0⟩
    ∃ d, (Driver.runOpen .board {} b).result.1 = .ok d ∧ f.Sound ∧
      let after := (Session.deals ⟨(Driver.runOpen .board {} b).state, d, []⟩
        [.incident (.frame f)]).deal (.transmit [0x61])
      (after.run [.receive 5]).heard = [f.reading {}] := by
  intro b f
  have hsome : (Driver.runOpen .board {} b).result.1.toOption.isSome = true := by decide +kernel
  have hsound : f.Sound := ⟨by decide, by decide⟩
  cases hopen : (Driver.runOpen .board {} b).result.1 with
  | error e =>
    rw [hopen] at hsome
    cases hsome
  | ok d =>
    refine ⟨d, rfl, hsound, ?_⟩
    intro after
    have hall := transmission_overwrites {} b d [.incident (.frame f)] [0x61] hopen
      (by simpa [b, Chip.fresh, Dealing.frame?, Incident.frame?] using hsound) (by decide)
    obtain ⟨rfl, -, -⟩ := Driver.back_runOpen hopen
    have hevents : (Session.deals ⟨(Driver.runOpen .board {} b).state, { config := {} }, []⟩
          [.incident (.frame f)]).chip.arrivals = [f] ∧
        (Session.deals ⟨(Driver.runOpen .board {} b).state, { config := {} }, []⟩
          [.incident (.frame f)]).bench.board.Sure ∧
        after.bench.board.faults = [] ∧ (owed {} after.chip).length ≤ 1 := by
      unfold Board.Sure
      decide +kernel
    obtain ⟨harrivals, hsure, hfaults, howed⟩ := hevents
    obtain ⟨-, -, -, hruns⟩ := hall.1 (hsure.not_met _)
    have hheard := (hruns [] (by simp)).2 [5] (by simp) (by
      show (owed {} after.chip).length + after.bench.board.faults.length ≤ 1
      rwa [hfaults])
    have hgood : f.garbled = false := by decide
    refine hheard.trans ?_
    rw [harrivals]
    simp [Session.deals, Session.deal, Session.step, intact, hgood]

/-- No transmission of a run meets a fault. -/
def Session.Spares (s : Session) : List Dealing → Prop
  | [] => True
  | x :: rest => (∀ payload, x = .transmit payload → ¬Met s.bench.board (s.deal x).bench.board) ∧
      (s.deal x).Spares rest

/-- A frame, and a receive that fails when it is to read how long the frame is. -/
def halfRead (f : Arrival) : List Dealing :=
  [.incident (.frame f),
   .incident (.fault ⟨.read, some Register.rxBytes, 0, .spi "no answer"⟩), .incident (.receive 0)]

/-- The frame of a receive that failed is held, and after the next transmission no receive returns
it, though no other access has failed. -/
theorem frame_lost_to_transmission :
    ¬∀ (c : Config) (b : Bench) (d : Driver) (dealings : List Dealing) (payload : List UInt8)
        (before : Session) (r : Reading),
      (Driver.runOpen .board c b).result.1 = .ok d →
      (∀ f ∈ b.board.chip.arrivals ++ dealings.filterMap Dealing.frame?, f.Sound) →
      Session.Spares ⟨(Driver.runOpen .board c b).state, d, []⟩ dealings →
      before = Session.deals ⟨(Driver.runOpen .board c b).state, d, []⟩ dealings →
      payload.length ≤ 252 → ¬Met before.bench.board (before.deal (.transmit payload)).bench.board →
      held? c before.chip = some r → r ∉ before.heard →
        ∃ timeouts : List Nat,
        r ∈ ((before.deal (.transmit payload)).run (timeouts.map .receive)).heard := by
  intro hclaim
  let f : Arrival := ⟨[0x68, 0x69], 0, 0, 0, Irq.rxDone ||| Irq.validHeader, 0⟩
  have hopen : (Driver.runOpen .board {} freshBench).result.1 = .ok { config := {} } :=
    Driver.runOpen_of_sure Config.valid_default rfl rfl (by decide) rfl
  have hsound : ∀ f' ∈ freshBench.board.chip.arrivals ++ (halfRead f).filterMap Dealing.frame?,
      f'.Sound := by
    intro f' hf
    obtain rfl : f' = f := by
      simpa [freshBench, halfRead, Chip.fresh, Dealing.frame?, Incident.frame?] using hf
    exact ⟨by decide, by decide⟩
  have hopened : Session.Open {}
      (Session.deals ⟨(Driver.runOpen .board {} freshBench).state, { config := {} }, []⟩
        (halfRead f)) :=
    (Session.open_runOpen hopen fun f hf => hsound f (List.mem_append_left _ hf)).deals (halfRead f)
      fun f hf => hsound f (List.mem_append_right _ hf)
  have hevents :
      let before := Session.deals ⟨(Driver.runOpen .board {} freshBench).state,
        { config := {} }, []⟩ (halfRead f)
      before.bench.board.faults = [] ∧ before.chip.arrivals = [] ∧ before.heard = [] ∧
        (held? {} before.chip).isSome = true := by
    decide +kernel
  have hspares : Session.Spares ⟨(Driver.runOpen .board {} freshBench).state, { config := {} }, []⟩
      (halfRead f) :=
    ⟨by simp, by simp, by simp, trivial⟩
  have hreturned := fun r => hclaim {} freshBench _ (halfRead f) [0x61] _ r hopen hsound
    hspares rfl (by decide)
  generalize Session.deals ⟨(Driver.runOpen .board {} freshBench).state, { config := {} }, []⟩
    (halfRead f) = before at hopened hevents hreturned
  obtain ⟨hsure, harrivals, hheard, hheld⟩ := hevents
  obtain ⟨r, hr⟩ := Option.isSome_iff_exists.mp hheld
  have hmet : ¬Met before.bench.board (before.deal (.transmit [0x61])).bench.board :=
    Board.Sure.not_met hsure _
  obtain ⟨timeouts, hmem⟩ := hreturned r hmet hr (by simp [hheard])
  have hnothing := hopened.silent (by decide) hmet harrivals hheard timeouts
  rw [hnothing] at hmem
  cases hmem

end RadioGateway.Station
