import RadioGateway.Proofs.FrameDelivery

/-!
# Listening again after a transmission

A transmission that meets no fault leaves the chip listening, and every good frame is received from
then on. One that meets a fault once the chip has gone to standby leaves it deaf.
-/

namespace RadioGateway.Station

open RadioGateway.Chip
open RadioGateway.Radio

variable {c : Config} {d : Driver} {b b' b'' : Bench} {chip : RadioGateway.Chip}
  {payload : List UInt8}

-- ---------------------------------------------------------------------------
-- Transmissions
-- ---------------------------------------------------------------------------

abbrev Transmitted := Except RadioError Unit

/-- How a transmission ends that has begun: it meets a fault and the chip stays deaf, or it does
not, and then the chip listens again even if nothing was reported done. -/
inductive Ends (c : Config) (chip : RadioGateway.Chip) (b b' : Board) : Transmitted → Prop
  | stuck (e : RadioError) (hm : Met b b') (hd : Deaf chip b'.chip) : Ends c chip b b' (.error e)
  | back (r : Transmitted) (hf : b'.faults.length = b.faults.length) (hb : Back c chip b'.chip) :
      Ends c chip b b' r

theorem Ends.after {b b₁ b' : Board} {r : Transmitted} (hf : b₁.faults.length = b.faults.length)
    (h : Ends c chip b₁ b' r) : Ends c chip b b' r := by
  cases h with
  | stuck e hm hd => exact .stuck e (by unfold Met at hm ⊢; rwa [← hf]) hd
  | back r hf' hb => exact .back r (hf'.trans hf) hb

/-- What a transmission may come to: it is refused before anything happens, it fails at its first
access or at a later one, or it ends and the chip listens again. -/
inductive Transmits (c : Config) (payload : List UInt8) (b b' : Board) : Transmitted → Prop
  | tooLarge (hl : payloadLimit < payload.length) (hb : b' = b) :
      Transmits c payload b b' (.error (.payloadTooLarge payload.length payloadLimit))
  | refused (e : RadioError) (hl : payload.length ≤ payloadLimit)
      (hf : b.meets .write Register.opMode = true) (hm : Met b b') (hc : b'.chip = b.chip) :
      Transmits c payload b b' (.error e)
  | begun (r : Transmitted) (hl : payload.length ≤ payloadLimit)
      (hf : b.meets .write Register.opMode = false) (h : Ends c b.chip b b' r) :
      Transmits c payload b b' r

section Outcome

variable {b b' : Board} {r : Transmitted}

theorem Transmits.receiving_iff (h : Transmits c payload b b' r) :
    receiving c b'.chip ↔
      payload.length ≤ payloadLimit ∧ ¬Met b b' ∨
      receiving c b.chip ∧
      (payloadLimit < payload.length ∨ b.meets .write Register.opMode = true) := by
  cases h with
  | tooLarge hl hb =>
    rw [hb]
    simp [hl, Nat.not_le.mpr hl]
  | refused e hl hf hm hc =>
    rw [hc]
    simp [hf, hm]
  | begun r hl hf hends =>
    cases hends with
    | stuck e hm hd => simp [hf, hm, hd.not_receiving, Nat.not_lt.mpr hl]
    | back r hfaults hb => simp [hl, hb.mode, Met, hfaults]

theorem Transmits.isOk_of_met (h : Transmits c payload b b' r) (hm : Met b b') :
    r.isOk = false := by
  cases h with
  | tooLarge hl hb => rfl
  | refused e hl hf hm hc => rfl
  | begun r hl hf hends =>
    cases hends with
    | stuck e hm hd => rfl
    | back r hfaults hb => exact absurd hm (by simp [Met, hfaults])

end Outcome

namespace Driver

theorem checkOnce_cases (d : Driver) (hd : Deaf chip b.board.chip) (hr : chip.refusesLora = false) :
    (∃ b₁ r, d.checkOnce b = (b₁, some r) ∧ Ends d.config chip b.board b₁.board r) ∨
    ∃ b₁, d.checkOnce b = (b₁, none) ∧ b₁.board.faults.length = b.board.faults.length ∧
      Deaf chip b₁.board.chip := by
  have hcheck := stalls_checkTransmit d.config hd hr
  unfold Stalls Runs at hcheck
  unfold checkOnce Bench.onBoard
  cases hw : Chip.checkTransmit d.config b.board with
  | error e b' =>
    rw [hw] at hcheck
    exact .inl ⟨_, _, rfl, .stuck e hcheck.1 hcheck.2⟩
  | ok done b' =>
    rw [hw] at hcheck
    cases done with
    | true => exact .inl ⟨_, _, rfl, .back _ hcheck.1 hcheck.2⟩
    | false => exact .inr ⟨_, rfl, hcheck.1, hcheck.2⟩

theorem ends_abandon (d : Driver) (hd : Deaf chip b.board.chip) (hr : chip.refusesLora = false) :
    Ends d.config chip b.board (d.abandon b).state.board (d.abandon b).result := by
  unfold abandon Bench.onBoard
  rcases abandonTransmit_cases d.config hd hr
    with ⟨e, b', he, hm, hd'⟩ | ⟨b', he, hf, hb⟩ <;> rw [he]
  · exact .stuck e hm hd'
  · exact .back _ hf hb

section Checks

variable {b₁ : Bench}

theorem runChecks_some {r : Transmitted} (h : d.checkOnce b = (b₁, some r)) (looks : Nat) :
    d.runChecks looks b = { state := b₁, result := (r, 0) } := by
  unfold runChecks
  simp only [h]

theorem runChecks_zero (h : d.checkOnce b = (b₁, none)) :
    (d.runChecks 0 b).state = (d.abandon b₁).state ∧
      (d.runChecks 0 b).result.1 = (d.abandon b₁).result := by
  unfold runChecks
  simp only [h]
  exact ⟨rfl, rfl⟩

theorem runChecks_succ (h : d.checkOnce b = (b₁, none)) (looks : Nat) :
    (d.runChecks (looks + 1) b).state = (d.runChecks looks b₁).state ∧
      (d.runChecks (looks + 1) b).result.1 = (d.runChecks looks b₁).result.1 := by
  rw [show d.runChecks (looks + 1) b = _ by unfold runChecks; simp only [h]; rfl]
  exact ⟨rfl, rfl⟩

end Checks

theorem ends_runChecks (d : Driver) (hd : Deaf chip b.board.chip) (hr : chip.refusesLora = false)
    (looks : Nat) :
    Ends d.config chip b.board (d.runChecks looks b).state.board
      (d.runChecks looks b).result.1 := by
  induction looks generalizing b with
  | zero =>
    rcases d.checkOnce_cases hd hr with ⟨b₁, r, he, hends⟩ | ⟨b₁, he, hf, hd'⟩
    · rwa [runChecks_some he]
    · rw [(runChecks_zero he).1, (runChecks_zero he).2]
      exact (d.ends_abandon hd' hr).after hf
  | succ looks ih =>
    rcases d.checkOnce_cases hd hr with ⟨b₁, r, he, hends⟩ | ⟨b₁, he, hf, hd'⟩
    · rwa [runChecks_some he]
    · rw [(runChecks_succ he looks).1, (runChecks_succ he looks).2]
      exact (ih hd').after hf

/-- Once it has begun, a transmission is a row of looks whether it is done. -/
theorem runTransmit_begun (d : Driver) (payload : List UInt8) {board : Board}
    (h : beginTransmit d.config payload b.board = .ok () board) :
    let looks := looksWithin (airtime d.config payload.length + transmitMargin) board
    (d.runTransmit .board payload b).state = (d.runChecks looks { b with board }).state ∧
    (d.runTransmit .board payload b).result.1 = (d.runChecks looks { b with board }).result.1 := by
  intro looks
  have htransmit : d.transmit .board payload b = d.checkTransmit looks { b with board } := by
    simp only [transmit, Bench.onBoard, h, looks]
  unfold runTransmit
  rw [htransmit]
  generalize looks = looks
  unfold checkTransmit
  rcases hc : d.checkOnce { b with board } with ⟨b₁, _ | r⟩
  · cases looks with
    | zero => simp [(runChecks_zero hc).1, (runChecks_zero hc).2, Effect.map]
    | succ looks => simp [(runChecks_succ hc looks).1, (runChecks_succ hc looks).2]
  · simp [runChecks_some hc]

theorem transmits_runTransmit (d : Driver) (payload : List UInt8) (b : Bench)
    (hr : b.board.chip.refusesLora = false) :
    Transmits d.config payload b.board (d.runTransmit .board payload b).state.board
      (d.runTransmit .board payload b).result.1 := by
  have failed {e : RadioError} {board : Board}
      (he : beginTransmit d.config payload b.board = .error e board) :
      (d.runTransmit .board payload b).state.board = board ∧
        (d.runTransmit .board payload b).result.1 = .error e := by
    simp [runTransmit, transmit, Bench.onBoard, he]
  by_cases hl : payloadLimit < payload.length
  · have he : beginTransmit d.config payload b.board =
        .error (.payloadTooLarge payload.length payloadLimit) b.board := by
      unfold beginTransmit
      rw [if_pos hl]
      rfl
    rw [(failed he).1, (failed he).2]
    exact .tooLarge hl rfl
  · have hfits := Nat.not_lt.mp hl
    rcases beginTransmit_cases d.config hfits b.board
      with ⟨e, b₁, he, hm, hleft⟩ | ⟨b₁, he, hf, hmeets, hd⟩
    · rw [(failed he).1, (failed he).2]
      cases hmeets : b.board.meets .write Register.opMode with
      | true => exact .refused e hfits hmeets hm (by simpa [hmeets] using hleft)
      | false => exact .begun _ hfits hmeets (.stuck e hm (by simpa [hmeets] using hleft))
    · rw [(runTransmit_begun d payload he).1, (runTransmit_begun d payload he).2]
      exact .begun _ hfits hmeets
        ((d.ends_runChecks (b := { b with board := b₁ }) hd hr _).after hf)

end Driver

-- ---------------------------------------------------------------------------
-- Receives in which nothing comes in
-- ---------------------------------------------------------------------------

section Ahead

variable {b b' : Board}

/-- Looks that it takes until all of the frames have come in. -/
def looksFor : List Arrival → Nat
  | [] => 0
  | f :: rest => f.after + 1 + looksFor rest

/-- Looks that it takes until nothing is left to come in. -/
def ahead (chip : RadioGateway.Chip) : Nat :=
  (if chip.flagged Irq.rxDone then 1 else 0) + looksFor chip.arrivals

theorem ahead_le_due (b : Board) : ahead b.chip ≤ b.due := by
  have hfold (n : Nat) (frames : List Arrival) :
      frames.foldl (fun looks f => looks + f.after + 1) n = n + looksFor frames := by
    induction frames generalizing n with
    | nil => rfl
    | cons f rest ih =>
      simp only [List.foldl_cons, ih, looksFor]
      omega
  simp only [ahead, Board.due, hfold]
  split <;> omega

theorem owed_of_ahead (h : ahead chip = 0) : owed c chip = [] := by
  unfold ahead at h
  have hd : chip.flagged Irq.rxDone = false := by
    cases hd : chip.flagged Irq.rxDone with
    | false => rfl
    | true => simp [hd] at h
  have ha : chip.arrivals = [] := by
    cases ha : chip.arrivals with
    | nil => rfl
    | cons f rest => simp [ha, looksFor] at h
  simp [owed, held?_eq_none hd, ha, intact]

/-- Each look brings the first frame on its way closer. -/
theorem ahead_tick (h : Listens chip) : ahead chip.tick ≤ ahead chip ∧
    (chip.tick.flagged Irq.rxDone = false → ahead chip.tick ≤ ahead chip - 1) := by
  rw [h.tick]
  unfold tickArrival
  split
  · rename_i hl
    have hd : chip.flagged Irq.rxDone = false := by
      simp only [listening, Bool.and_eq_true, Bool.not_eq_true'] at hl
      exact hl.2
    split
    · rename_i ha
      simp [ahead, looksFor, ha, hd]
    · rename_i f rest ha
      split
      · rename_i hf
        have hrx : ({ chip with arrivals := rest }.deliver f).flagged Irq.rxDone = true := by
          rw [flagged_deliver, (h.sound f (by simp [ha])).reported, Bool.or_true]
        refine ⟨?_, fun hn => absurd (hrx.symm.trans hn) (by simp)⟩
        have hrest : ({ chip with arrivals := rest }.deliver f).arrivals = rest := rfl
        simp [ahead, looksFor, hrx, hrest, ha, hd, hf]
      · rename_i n hn
        have hd' : ({ chip with arrivals := { f with after := n } :: rest } :
            RadioGateway.Chip).flagged Irq.rxDone = false := hd
        simp only [ahead, looksFor, ha, hd, hd', hn]
        exact ⟨by simp, fun _ => by simp⟩
  · rename_i hl
    refine ⟨Nat.le_refl _, fun hd => absurd ?_ hl⟩
    unfold flagged at hd
    simp [listening, h.mode, hd]

theorem runs_look_ahead (c : Config) (h : Listens b.chip) :
    Runs (look c) b
      (fun l b' => match l with
        | .nothing => ahead b'.chip ≤ ahead b.chip - 1
        | .garbled => b'.chip.flagged Irq.rxDone = true ∧ ahead b'.chip ≤ ahead b.chip
        | .frame _ _ => True)
      (fun _ => True) := by
  unfold look
  refine (runs_readByte _ b).bind (fun _ _ => trivial) ?_
  rintro flags b₁ ⟨rfl, ha⟩
  have hflags : (b.chip.read Register.irqFlags 1).2.headD 0 = b₁.chip.get Register.irqFlags := by
    rw [ha.chip]
    rfl
  have htick : b₁.chip = b.chip.tick := ha.chip
  have hahead := ahead_tick h
  rw [← htick] at hahead
  rw [hflags]
  cases hrx : Irq.raised (b₁.chip.get Register.irqFlags) Irq.rxDone with
  | false => exact runs_pure (hahead.2 hrx)
  | true =>
    cases Irq.raised (b₁.chip.get Register.irqFlags) Irq.crcError with
    | true => exact runs_pure ⟨hrx, hahead.1⟩
    | false => exact (runs_readPacket c b₁).bind (fun _ _ => trivial) fun _ _ _ => runs_pure trivial

theorem ahead_clearFlags (b : Board) :
    Runs clearFlags b
      (fun _ b' => b'.faults.length = b.faults.length ∧
        (b.chip.flagged Irq.rxDone = true → ahead b'.chip ≤ ahead b.chip - 1))
      (fun b' => b'.faults.length ≤ b.faults.length) := by
  refine (runs_writeByte _ _ b).mono ?_ fun _ hf => Nat.le_of_lt hf.met
  rintro - b' ha
  refine ⟨ha.faults, fun hd => ?_⟩
  have hwrite :
      b'.chip = b.chip.set Register.irqFlags (b.chip.get Register.irqFlags &&& ~~~Irq.all) :=
    ha.chip
  have hclear : b'.chip.flagged Irq.rxDone = false := by
    unfold flagged
    rw [hwrite, get_set_self, show ~~~Irq.all = 0 by decide, UInt8.and_zero]
    rfl
  have harrivals : b'.chip.arrivals = b.chip.arrivals := by
    rw [hwrite]
    rfl
  simp [ahead, hclear, hd, harrivals]

end Ahead

namespace Driver

/-- A look adds nothing to the faults, and if it finds nothing then less is left to come in. -/
theorem lookOnce_waits (d : Driver) (hl : Listens b.board.chip) :
    (d.lookOnce b).state.1.board.faults.length ≤ b.board.faults.length ∧
    (d.lookOnce b).result ≠ some (.ok none) ∧
    ((d.lookOnce b).result = none →
      ahead (d.lookOnce b).state.1.board.chip ≤ ahead b.board.chip - 1) := by
  have hlook := runs_look d.config hl
  have hahead := runs_look_ahead d.config hl
  unfold Runs at hlook hahead
  unfold lookOnce Bench.onBoard
  cases hr : look d.config b.board with
  | error e b₁ =>
    rw [hr] at hlook
    exact ⟨Nat.le_of_lt hlook.2, nofun, nofun⟩
  | ok l b₁ =>
    rw [hr] at hlook hahead
    have hf := hlook.2.1
    have hclear := ahead_clearFlags b₁
    unfold Runs at hclear
    cases l with
    | nothing => exact ⟨Nat.le_of_eq hf, nofun, fun _ => hahead⟩
    | garbled =>
      simp only
      cases hr' : clearFlags b₁ with
      | error e b₂ =>
        rw [hr'] at hclear
        exact ⟨Nat.le_trans hclear (Nat.le_of_eq hf), nofun, nofun⟩
      | ok u b₂ =>
        rw [hr'] at hclear
        refine ⟨Nat.le_of_eq (hclear.1.trans hf), nofun, fun _ => ?_⟩
        exact Nat.le_trans (hclear.2 hahead.1) (Nat.sub_le_sub_right hahead.2 1)
    | frame data signal =>
      simp only
      cases hr' : clearFlags b₁ with
      | error e b₂ =>
        rw [hr'] at hclear
        exact ⟨Nat.le_trans hclear (Nat.le_of_eq hf), nofun, nofun⟩
      | ok u b₂ =>
        rw [hr'] at hclear
        exact ⟨Nat.le_of_eq (hclear.1.trans hf), nofun, nofun⟩

theorem listens_lookOnce (d : Driver) (hl : Listens b.board.chip)
    (hr : (d.lookOnce b).result = none) : Listens (d.lookOnce b).state.1.board.chip := by
  have hlook := d.receives_lookOnce hl
  rw [hr] at hlook
  cases hlook with
  | nothing hc hn hf => exact hc.listens

theorem runLooks_waits (d : Driver) (hl : Listens b.board.chip) (looks : Nat) :
    (d.runLooks looks b).state.1.board.faults.length ≤ b.board.faults.length ∧
    ((d.runLooks looks b).result.1 = .ok none →
      ahead (d.runLooks looks b).state.1.board.chip ≤ ahead b.board.chip - (looks + 1)) := by
  induction looks generalizing d b with
  | zero =>
    obtain ⟨hf, hnever, hahead⟩ := d.lookOnce_waits hl
    cases hr : (d.lookOnce b).result with
    | none =>
      rw [runLooks_zero d b hr]
      exact ⟨hf, fun _ => hahead hr⟩
    | some r =>
      rw [runLooks_some d b hr]
      exact ⟨hf, fun he => absurd (he ▸ hr) hnever⟩
  | succ looks ih =>
    obtain ⟨hf, hnever, hahead⟩ := d.lookOnce_waits hl
    cases hr : (d.lookOnce b).result with
    | none =>
      rw [(runLooks_succ d b hr looks).1, (runLooks_succ d b hr looks).2]
      obtain ⟨hf', hahead'⟩ := ih (d.lookOnce b).state.2 (d.listens_lookOnce hl hr)
      refine ⟨Nat.le_trans hf' hf, fun he => ?_⟩
      have hfirst := hahead hr
      have hrest := hahead' he
      omega
    | some r =>
      rw [runLooks_some d b hr]
      exact ⟨hf, fun he => absurd (he ▸ hr) hnever⟩

/-- A receive that takes any time at all returns nothing only if nothing is owed. -/
theorem runReceive_waits (d : Driver) (hl : Listens b.board.chip) (timeout : Nat) :
    (d.runReceive .board timeout b).state.1.board.faults.length ≤ b.board.faults.length ∧
    (0 < timeout → (d.runReceive .board timeout b).result.1 = .ok none →
      owed d.config (d.runReceive .board timeout b).state.1.board.chip = []) := by
  obtain ⟨hs, hr⟩ := runReceive_board d timeout b
  rw [hs, hr]
  obtain ⟨hf, hahead⟩ := d.runLooks_waits hl (looksWithin timeout b.board)
  refine ⟨hf, fun ht he => owed_of_ahead ?_⟩
  have hlooks : b.board.due ≤ looksWithin timeout b.board := by
    unfold looksWithin
    rw [if_neg (Nat.pos_iff_ne_zero.mp ht)]
    exact Nat.le_max_right _ _
  have := hahead he
  have := ahead_le_due b.board
  omega

section Stays

variable {P : Board → Prop}

theorem stays_onBoard {α : Type} {work : Bus α} (hw : Stays P work) (h : P b.board) :
    P (b.onBoard work).1.board := by
  have hfinal := hw b.board h
  unfold final at hfinal
  unfold Bench.onBoard
  cases hr : work b.board <;> rwa [hr] at hfinal

theorem stays_lookOnce (d : Driver) (hlook : Stays P (look d.config)) (hclear : Stays P clearFlags)
    (h : P b.board) : P (d.lookOnce b).state.1.board := by
  have hfirst := stays_onBoard hlook h
  unfold lookOnce
  split
  · rename_i he
    simpa only [he] using hfirst
  · rename_i he
    simpa only [he] using hfirst
  · rename_i b₁ he
    rw [he] at hfirst
    have hsecond := stays_onBoard hclear hfirst
    split <;> rename_i he₂ <;> simpa only [he₂] using hsecond
  · rename_i b₁ data signal he
    rw [he] at hfirst
    have hsecond := stays_onBoard hclear hfirst
    simp only
    split <;> rename_i he₂ <;> simpa only [he₂] using hsecond

theorem stays_runLooks (d : Driver) (hlook : Stays P (look d.config)) (hclear : Stays P clearFlags)
    (h : P b.board) (looks : Nat) : P (d.runLooks looks b).state.1.board := by
  induction looks generalizing d b with
  | zero =>
    have hfirst := d.stays_lookOnce hlook hclear h
    cases hr : (d.lookOnce b).result with
    | none => rwa [runLooks_zero d b hr]
    | some r => rwa [runLooks_some d b hr]
  | succ looks ih =>
    have hfirst := d.stays_lookOnce hlook hclear h
    cases hr : (d.lookOnce b).result with
    | none =>
      rw [(runLooks_succ d b hr looks).1]
      exact ih (d.lookOnce b).state.2 (by rwa [(d.lookOnce_keeps b).2]) hfirst
    | some r => rwa [runLooks_some d b hr]

theorem stays_runReceive (d : Driver) (hlook : Stays P (look d.config))
    (hclear : Stays P clearFlags) (h : P b.board) (timeout : Nat) :
    P (d.runReceive .board timeout b).state.1.board := by
  rw [(runReceive_board d timeout b).1]
  exact d.stays_runLooks hlook hclear h _

end Stays

theorem chip_runReceive {P : RadioGateway.Chip → Prop} (d : Driver)
    (hlook : Keeps P (look d.config)) (hclear : Keeps P clearFlags) (h : P b.board.chip)
    (timeout : Nat) : P (d.runReceive .board timeout b).state.1.board.chip :=
  stays_runReceive (P := fun board => P board.chip) d hlook hclear h timeout

end Driver

-- ---------------------------------------------------------------------------
-- Runs
-- ---------------------------------------------------------------------------

/-- What is done with an open driver: an incident, or a transmission. -/
inductive Dealing where
  | incident (i : Incident)
  | transmit (payload : List UInt8)

def Dealing.frame? : Dealing → Option Arrival
  | .incident i => i.frame?
  | .transmit _ => none

namespace Session

variable {s : Session} {told : List Reading}

def transmit (s : Session) (payload : List UInt8) : Effect Bench (Transmitted × Nat) :=
  s.driver.runTransmit .board payload s.bench

def deal (s : Session) : Dealing → Session
  | .incident i => s.step i
  | .transmit payload => { s with bench := (s.transmit payload).state }

def deals (s : Session) (dealings : List Dealing) : Session := dealings.foldl deal s

/-- Opened on a chip that keeps the LoRa bit. The chip listens, or it has left the receiving
mode. -/
structure Open (c : Config) (s : Session) : Prop where
  config : s.driver.config = c
  lora : s.chip.refusesLora = false
  sound : ∀ f ∈ s.chip.arrivals, f.Sound
  mode : receiving c s.chip ∧ Listens s.chip ∨ Mode.of (s.chip.get Register.opMode) ≠ Mode.receive

namespace Open

theorem listens (h : Open c s) (hr : receiving c s.chip) : Listens s.chip := by
  rcases h.mode with ⟨-, hl⟩ | hdeaf
  · exact hl
  · exact absurd hr.mode hdeaf

theorem deaf (h : Open c s) (hr : ¬receiving c s.chip) : Deaf s.chip s.chip := by
  rcases h.mode with ⟨hr', -⟩ | hdeaf
  · exact absurd hr' hr
  · exact ⟨hdeaf, .refl _⟩

theorem owes (h : Open c s) (hr : receiving c s.chip) : Owes c (s.heard ++ owed c s.chip) s :=
  ⟨h.config, h.listens hr, rfl⟩

theorem sameMode_receive (h : Open c s) (timeout : Nat) :
    SameMode s.chip (s.step (.receive timeout)).chip :=
  s.driver.chip_runReceive (h.config ▸ sameMode_look _) sameMode_clearFlags (.refl _) timeout

/-- A receive changes nothing for a chip that is deaf, but maybe its flags. -/
theorem deaf_receive (h : Open c s) (hr : ¬receiving c s.chip) (timeout : Nat) :
    Deaf s.chip (s.step (.receive timeout)).chip :=
  s.driver.chip_runReceive (h.config ▸ deaf_look _) deaf_clearFlags (h.deaf hr) timeout

theorem receive (h : Open c s) (timeout : Nat) : Open c (s.step (.receive timeout)) := by
  have hconfig : (s.step (.receive timeout)).driver.config = c :=
    (s.driver.runReceive_keeps .board s.bench timeout).2.1.trans h.config
  have hsame := h.sameMode_receive timeout
  by_cases hr : receiving c s.chip
  · have hl := ((h.owes hr).receive timeout).listens
    exact ⟨hconfig, hsame.refusesLora.trans h.lora, hl.sound, .inl ⟨hsame.mode.trans hr, hl⟩⟩
  · have hdeaf := h.deaf_receive hr timeout
    exact ⟨hconfig, hsame.refusesLora.trans h.lora, hdeaf.air.arrivals ▸ h.sound, .inr hdeaf.mode⟩

theorem step (h : Open c s) (i : Incident) (hi : ∀ f ∈ i.frame?, f.Sound) : Open c (s.step i) := by
  cases i with
  | fault f => exact ⟨h.config, h.lora, h.sound, h.mode⟩
  | receive timeout => exact h.receive timeout
  | frame f =>
    have hsound : ∀ g ∈ s.chip.arrivals ++ [f], g.Sound := by
      intro g hg
      rcases List.mem_append.mp hg with hg | hg
      · exact h.sound g hg
      · exact hi g (by simpa [Incident.frame?, eq_comm] using hg)
    refine ⟨h.config, h.lora, hsound, h.mode.imp_left fun hm => ⟨hm.1, ?_⟩⟩
    exact ⟨hm.2.mode, hm.2.countdown, hm.2.clear, hsound⟩

theorem transmits (h : Open c s) (payload : List UInt8) :
    Transmits c payload s.bench.board (s.deal (.transmit payload)).bench.board
      (s.transmit payload).result.1 :=
  h.config ▸ s.driver.transmits_runTransmit payload s.bench h.lora

theorem transmit (h : Open c s) (payload : List UInt8) : Open c (s.deal (.transmit payload)) := by
  have hends := h.transmits payload
  generalize (s.transmit payload).result.1 = r at hends
  have hsame : (s.deal (.transmit payload)).chip = s.chip → Open c (s.deal (.transmit payload)) :=
    fun he => ⟨h.config, he ▸ h.lora, he ▸ h.sound, he ▸ h.mode⟩
  cases hends with
  | tooLarge hl hb => exact hsame (congrArg Board.chip hb)
  | refused e hl hf hm hc => exact hsame hc
  | begun r hl hf hends =>
    cases hends with
    | stuck e hm hd =>
      exact ⟨h.config, hd.air.refusesLora.trans h.lora,
        fun f hf => h.sound f (hd.air.arrivals ▸ hf), .inr hd.mode⟩
    | back r hf hb =>
      exact ⟨h.config, hb.air.refusesLora.trans h.lora,
        fun f hf => h.sound f (hb.air.arrivals ▸ hf), .inl ⟨hb.mode, hb.listens h.sound⟩⟩

theorem deals (h : Open c s) (dealings : List Dealing)
    (hs : ∀ f ∈ dealings.filterMap Dealing.frame?, f.Sound) : Open c (s.deals dealings) := by
  induction dealings generalizing s with
  | nil => exact h
  | cons x rest ih =>
    have hfirst : ∀ f ∈ x.frame?, f.Sound := fun f hf =>
      hs f (List.mem_filterMap.mpr ⟨x, List.mem_cons_self, hf⟩)
    have hrest : ∀ f ∈ rest.filterMap Dealing.frame?, f.Sound := fun f hf => by
      obtain ⟨y, hy, he⟩ := List.mem_filterMap.mp hf
      exact hs f (List.mem_filterMap.mpr ⟨y, List.mem_cons_of_mem x hy, he⟩)
    cases x with
    | incident i => exact ih (h.step i hfirst) hrest
    | transmit payload => exact ih (h.transmit payload) hrest

/-- Nothing comes in at a chip that is deaf, and none of the next receives changes that. -/
theorem deaf_run (h : Open c s) (hr : ¬receiving c s.chip) (incidents : List Incident)
    (hs : ∀ f ∈ incidents.filterMap Incident.frame?, f.Sound) :
    (s.run incidents).chip.arrivals = s.chip.arrivals ++ incidents.filterMap Incident.frame? := by
  induction incidents generalizing s with
  | nil => exact (List.append_nil _).symm
  | cons i rest ih =>
    have hfirst : ∀ f ∈ i.frame?, f.Sound := fun f hf =>
      hs f (List.mem_filterMap.mpr ⟨i, List.mem_cons_self, hf⟩)
    have hrest : ∀ f ∈ rest.filterMap Incident.frame?, f.Sound := fun f hf => by
      obtain ⟨j, hj, he⟩ := List.mem_filterMap.mp hf
      exact hs f (List.mem_filterMap.mpr ⟨j, List.mem_cons_of_mem i hj, he⟩)
    cases i with
    | frame f =>
      rw [show ((Incident.frame f :: rest).filterMap Incident.frame?) =
        [f] ++ rest.filterMap Incident.frame? from rfl, ← List.append_assoc]
      exact ih (h.step (.frame f) hfirst) hr hrest
    | fault f => exact ih (h.step (.fault f) hfirst) hr hrest
    | receive timeout =>
      have hdeaf := h.deaf_receive hr timeout
      have hnext := ih (h.receive timeout) hdeaf.not_receiving hrest
      rwa [hdeaf.air.arrivals] at hnext

end Open

/-- A receive that takes any time returns a frame or uses a fault up, as long as frames are owed. -/
theorem Owes.receive_spends (h : Owes c told s) {t : Nat} (ht : 0 < t)
    (hsome : owed c (s.step (.receive t)).chip ≠ []) :
    owed c s.chip ≠ [] ∧
    (owed c (s.step (.receive t)).chip).length + (s.step (.receive t)).bench.board.faults.length <
      (owed c s.chip).length + s.bench.board.faults.length := by
  have hcomes := h.receives t
  obtain ⟨hspent, hwaits⟩ := s.driver.runReceive_waits h.listens t
  have hwaits := hwaits ht
  have hbench : (s.step (.receive t)).bench = (s.receive t).state.1 := rfl
  unfold chip at hsome ⊢
  rw [hbench] at hsome ⊢
  unfold Session.receive at hcomes hsome ⊢
  rw [h.config] at hwaits
  generalize s.driver.runReceive .board t s.bench = e at hcomes hspent hwaits hsome ⊢
  rcases e with ⟨⟨b', d'⟩, log, result, ms⟩
  simp only at hcomes hspent hwaits hsome ⊢
  cases hcomes with
  | failed e hc hm =>
    unfold Met at hm
    rw [hc.owed] at hsome ⊢
    exact ⟨hsome, Nat.add_lt_add_left hm _⟩
  | nothing hc hn hf => exact absurd (hwaits rfl) hsome
  | frame data hl ho =>
    rw [ho, List.length_cons]
    exact ⟨List.cons_ne_nil _ _, by omega⟩

/-- Everything that is owed is heard by as many receives as there are frames and faults. -/
theorem Owes.hears_all (h : Owes c told s) {timeouts : List Nat} (ht : ∀ t ∈ timeouts, 0 < t)
    (hlen : owed c s.chip ≠ [] →
      (owed c s.chip).length + s.bench.board.faults.length ≤ timeouts.length) :
    (s.run (timeouts.map .receive)).heard = told := by
  induction timeouts generalizing s with
  | nil =>
    have hnone : owed c s.chip = [] := by
      cases ho : owed c s.chip with
      | nil => rfl
      | cons r rest =>
        have hzero := hlen (by simp [ho])
        simp [ho] at hzero
    have hheard := h.heard
    rwa [hnone, List.append_nil] at hheard
  | cons t rest ih =>
    refine ih (h.receive t) (fun u hu => ht u (List.mem_cons_of_mem t hu)) fun hsome => ?_
    obtain ⟨howed, hless⟩ := h.receive_spends (ht t List.mem_cons_self) hsome
    have hbound := hlen howed
    rw [List.length_cons] at hbound
    omega

end Session

/-- When a transmission ends, whether well or not, the chip receives continuously exactly if every
access succeeded, or if it did so before and the switch to standby was not made. A fault later than
that leaves it deaf, though the driver stays open. A chip that receives returns every good frame
that comes from then on; to one that does not, no frame comes in. -/
theorem listens_after_transmit (c : Config) (b : Bench) (d : Driver) (dealings : List Dealing)
    (payload : List UInt8) (hopen : (Driver.runOpen .board c b).result.1 = .ok d)
    (hsound : ∀ f ∈ b.board.chip.arrivals ++ dealings.filterMap Dealing.frame?, f.Sound) :
    let before := Session.deals ⟨(Driver.runOpen .board c b).state, d, []⟩ dealings
    let after := before.deal (.transmit payload)
    let faulted := Met before.bench.board after.bench.board
    (receiving c after.chip ↔
      payload.length ≤ payloadLimit ∧ ¬faulted ∨
      receiving c before.chip ∧
        (payloadLimit < payload.length ∨ before.bench.board.meets .write Register.opMode = true)) ∧
    (faulted → (before.transmit payload).result.1.isOk = false) ∧
    ∀ more : List Incident, (∀ f ∈ more.filterMap Incident.frame?, f.Sound) →
      let later := after.run more
      (receiving c after.chip → ∀ timeouts : List Nat, (∀ t ∈ timeouts, 0 < t) →
        (owed c later.chip).length + later.bench.board.faults.length ≤ timeouts.length →
        (later.run (timeouts.map .receive)).heard =
          after.heard ++ owed c after.chip ++ intact c (more.filterMap Incident.frame?)) ∧
      (¬receiving c after.chip →
        later.chip.arrivals = after.chip.arrivals ++ more.filterMap Incident.frame?) := by
  intro before after faulted
  obtain ⟨hd, hlora, hback⟩ := Driver.back_runOpen hopen
  have hstart : Session.Open c ⟨(Driver.runOpen .board c b).state, d, []⟩ :=
    ⟨congrArg Driver.config hd, hback.air.refusesLora.trans hlora,
      fun f hf => hsound f (List.mem_append_left _ (hback.air.arrivals ▸ hf)),
      .inl ⟨hback.mode, hback.listens fun f hf => hsound f (List.mem_append_left _ hf)⟩⟩
  have hbefore : Session.Open c before := hstart.deals dealings fun f hf =>
    hsound f (List.mem_append_right _ hf)
  have hafter : Session.Open c after := hbefore.transmit payload
  have hcomes : Transmits c payload before.bench.board after.bench.board
      (before.transmit payload).result.1 := hbefore.transmits payload
  refine ⟨hcomes.receiving_iff, hcomes.isOk_of_met, ?_⟩
  intro more hmore later
  refine ⟨fun hr timeouts ht hlen => ?_, fun hr => hafter.deaf_run hr more hmore⟩
  exact ((hafter.owes hr).run more hmore).hears_all ht fun _ => hlen

/-- A fault when the chip is in standby already: whatever is sent to it afterwards stays on its
way. -/
theorem deaf_after_fault_in_standby :
    let b : Bench := { board := { chip := Chip.fresh chipVersion } }
    let fault : Fault := ⟨.write, some Register.fifoPointer, 0, .spi "no answer"⟩
    ∃ d, (Driver.runOpen .board {} b).result.1 = .ok d ∧ (∀ f ∈ b.board.chip.arrivals, f.Sound) ∧
      let after := (Session.deals ⟨(Driver.runOpen .board {} b).state, d, []⟩
        [.incident (.fault fault)]).deal (.transmit [0x61])
      ∀ f : Arrival, f.Sound → ∀ timeout,
        (after.run [.frame f, .receive timeout]).chip.arrivals = [f] := by
  intro b fault
  have hsome : (Driver.runOpen .board {} b).result.1.toOption.isSome = true := by decide +kernel
  have hsound : ∀ f ∈ b.board.chip.arrivals, f.Sound := nofun
  cases hopen : (Driver.runOpen .board {} b).result.1 with
  | error e =>
    rw [hopen] at hsome
    cases hsome
  | ok d =>
    refine ⟨d, rfl, hsound, ?_⟩
    intro after f hf timeout
    have hall := listens_after_transmit {} b d [.incident (.fault fault)] [0x61] hopen
      (by simpa [Dealing.frame?, Incident.frame?] using hsound)
    obtain ⟨rfl, -, -⟩ := Driver.back_runOpen hopen
    have hdeaf : ¬receiving {} after.chip ∧ after.chip.arrivals = [] := by decide +kernel
    have hstays :=
      (hall.2.2 [.frame f, .receive timeout] (by simpa [Incident.frame?] using hf)).2 hdeaf.1
    exact hstays.trans (by rw [hdeaf.2]; rfl)

end RadioGateway.Station

namespace RadioGateway.Gateway

open RadioGateway.Chip
open RadioGateway.Station

/-- A send that fails at its second access. The clients are still told that the radio is connected,
and the frame that comes next does not get in, however long somebody listens. -/
theorem deaf_though_connected :
    let fault : Fault := ⟨.write, some Register.fifoPointer, 0, .spi "no answer"⟩
    let frame : Arrival := ⟨[0x68, 0x69], 0, 0, 0, Irq.rxDone ||| Irq.validHeader, 0⟩
    let g := (start (.hardware .board) { board := { chip := Chip.fresh chipVersion } } 16 0).through
      [.arrive .direct .background (.connect {}), .resume (.client 0), .resume (.client 0),
       .resume (.client 0), .elapse settleTime, .resume (.client 0), .resume (.client 0),
       .stimulate (.fault fault),
       .arrive .direct .background (.send (.ok [0x61])), .resume (.client 1), .resume (.client 1),
       .stimulate (.inject frame)]
    g.report.link.connected = true ∧ g.station.bench.board.faults = [] ∧
    ∃ d, g.station.driver = some d ∧ ¬receiving d.config g.station.bench.board.chip ∧
      ∀ timeout, (d.runReceive .board timeout g.station.bench).state.1.board.chip.arrivals =
        [frame] := by
  intro fault frame g
  have hevents : g.report.link.connected = true ∧ g.station.bench.board.faults = [] ∧
      g.station.driver.isSome = true ∧
      Mode.of (g.station.bench.board.chip.get Register.opMode) ≠ Mode.receive ∧
      g.station.bench.board.chip.arrivals = [frame] := by decide +kernel
  obtain ⟨hconnected, hfaults, hdriver, hmode, harrivals⟩ := hevents
  obtain ⟨d, hd⟩ := Option.isSome_iff_exists.mp hdriver
  have hdeaf : Deaf g.station.bench.board.chip g.station.bench.board.chip := ⟨hmode, .refl _⟩
  refine ⟨hconnected, hfaults, d, hd, hdeaf.not_receiving, fun timeout => ?_⟩
  have hstays := d.chip_runReceive (deaf_look _) deaf_clearFlags hdeaf timeout
  exact hstays.air.arrivals.trans harrivals

end RadioGateway.Gateway
