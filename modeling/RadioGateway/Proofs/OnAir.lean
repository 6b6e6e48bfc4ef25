import RadioGateway.Proofs.ListeningAgain

/-!
# What a transmission puts on the air

A driver whose accesses all succeed sends exactly the bytes it is given, whatever was received and
sent before, and goes back to receiving with the settings it was opened for.
-/

namespace RadioGateway.Chip

open RadioGateway.Radio (Config RadioError)

variable {chip : Chip} {b : Board} {payload : List UInt8} {sent : List (List UInt8)}
  {left : Option Nat}

-- ---------------------------------------------------------------------------
-- The writes of a transmission
-- ---------------------------------------------------------------------------

/-- The writes that prepare a transmission, up to the switch of the mode that starts it. -/
def loading (c : Config) (payload : List UInt8) : List RegisterWrite := (launch c payload).dropLast

theorem writes_launch (c : Config) (payload : List UInt8) (chip : Chip) :
    chip.writes (launch c payload) =
      (chip.writes (loading c payload)).enterMode (modeByte c Mode.transmit) := rfl

/-- All is ready to go: the payload is where the chip looks for it, and no interrupt is raised. -/
structure Loaded (payload : List UInt8) (chip chip' : Chip) : Prop where
  outgoing : chip'.outgoing = payload
  clear : chip'.get Register.irqFlags = 0
  sent : chip'.sent = chip.sent
  txDoneAfter : chip'.txDoneAfter = chip.txDoneAfter

theorem outgoing_set (chip : Chip) (mode : UInt8) :
    (chip.set Register.opMode mode).outgoing = chip.outgoing := by
  unfold outgoing
  rw [get_set_of_ne _ (by decide), get_set_of_ne _ (by decide)]
  rfl

theorem enterMode_transmit {mode : UInt8} (h : Mode.of mode = Mode.transmit) (chip : Chip) :
    (chip.enterMode mode).sent = chip.sent ++ [chip.outgoing] ∧
    (chip.enterMode mode).countdown = chip.txDoneAfter := by
  have hmode := (mode_of_enterMode chip mode).trans h
  rw [get_enterMode_self] at hmode
  unfold enterMode
  simp only
  rw [if_pos hmode]
  exact ⟨congrArg (chip.sent ++ [·]) (outgoing_set chip _), rfl⟩

theorem enterMode_of_ne {mode : UInt8} (h : Mode.of mode ≠ Mode.transmit) (chip : Chip) :
    (chip.enterMode mode).sent = chip.sent ∧
    (chip.enterMode mode).txDoneAfter = chip.txDoneAfter := by
  have hmode : ¬_ = Mode.transmit := (mode_of_enterMode chip mode).symm ▸ h
  rw [get_enterMode_self] at hmode
  unfold enterMode
  simp only
  rw [if_neg hmode]
  exact ⟨rfl, rfl⟩

/-- A payload goes to the start of the packet memory over whatever is there, and that is where the
chip takes it from, since the base address for sending has been zero since the chip was opened. -/
theorem loaded (c : Config) (chip : Chip) (hl : payload.length ≤ payloadLimit)
    (hbase : chip.get Register.txBase = 0) :
    Loaded payload chip (chip.writes (loading c payload)) := by
  unfold payloadLimit at hl
  have hstandby : Mode.of (modeByte c Mode.standby) ≠ Mode.transmit := by
    rw [mode_of_modeByte c (by simp)]
    decide
  obtain ⟨hsent, hafter⟩ := enterMode_of_ne hstandby chip
  have hlength : (UInt8.ofNat payload.length).toNat = payload.length :=
    UInt8.toNat_ofNat_of_lt' (show payload.length < 256 by omega)
  let pointed := (chip.enterMode (modeByte c Mode.standby)).set Register.fifoPointer 0x00
  let filled := pointed.fill payload
  let sized := filled.set Register.payloadLength (UInt8.ofNat payload.length)
  have hwrites : chip.writes (loading c payload) =
      sized.set Register.irqFlags (sized.get Register.irqFlags &&& ~~~Irq.all) := rfl
  have hpointer : pointed.fifoPointer = 0 := by
    unfold fifoPointer
    rw [get_set_self]
    rfl
  have hpackets : (chip.writes (loading c payload)).packets = pointed.packets.store 0 payload := by
    rw [hwrites, ← hpointer]
    rfl
  have htx : (chip.writes (loading c payload)).get Register.txBase = 0 := by
    rw [hwrites, get_set_of_ne _ (by decide), get_set_of_ne _ (by decide)]
    show (Chip.setFifoPointer _ _).get Register.txBase = 0
    unfold setFifoPointer
    rw [get_set_of_ne _ (by decide)]
    show pointed.get Register.txBase = 0
    rw [get_set_of_ne _ (by decide), get_enterMode_of_ne _ (by decide), hbase]
  have hsize : (chip.writes (loading c payload)).get Register.payloadLength =
      UInt8.ofNat payload.length := by
    rw [hwrites, get_set_of_ne _ (by decide), get_set_self]
  refine ⟨?_, ?_, hsent, hafter⟩
  · unfold outgoing
    rw [htx, hsize, hlength, hpackets]
    exact Memory.load_store (by omega)
  · rw [hwrites, get_set_self, show ~~~Irq.all = 0 by decide, UInt8.and_zero]

/-- A transmission is going on: what has been sent, with the frame that is on the air, and the looks
until it is reported done. -/
structure InFlight (sent : List (List UInt8)) (left : Option Nat) (chip : Chip) : Prop where
  mode : Mode.of (chip.get Register.opMode) = Mode.transmit
  sent : chip.sent = sent
  countdown : chip.countdown = left
  pending : chip.flagged Irq.txDone = false

theorem inFlight_launch (c : Config) (chip : Chip) (hl : payload.length ≤ payloadLimit)
    (hbase : chip.get Register.txBase = 0) :
    InFlight (chip.sent ++ [payload]) chip.txDoneAfter (chip.writes (launch c payload)) := by
  obtain ⟨houtgoing, hclear, hsent, hafter⟩ := loaded c chip hl hbase
  rw [writes_launch]
  generalize chip.writes (loading c payload) = ready at houtgoing hclear hsent hafter ⊢
  have hmode : Mode.of (modeByte c Mode.transmit) = Mode.transmit := mode_of_modeByte c (by simp)
  obtain ⟨hsent', hcountdown⟩ := enterMode_transmit hmode ready
  refine ⟨(mode_of_enterMode ready _).trans hmode, ?_, hcountdown.trans hafter, ?_⟩
  · rw [hsent', hsent, houtgoing]
  · unfold flagged
    rw [get_enterMode_of_ne _ (by decide), hclear]
    rfl

/-- Nothing comes in while the chip sends, so a look only brings the end of the transmission
closer. -/
theorem InFlight.tick (h : InFlight sent left chip) :
    chip.tick.sent = sent ∧
    match left with
    | none => InFlight sent none chip.tick
    | some 0 => chip.tick.flagged Irq.txDone = true
    | some (looks + 1) => InFlight sent (some looks) chip.tick := by
  have hmode : Mode.of (chip.tickTransmission.get Register.opMode) = Mode.transmit := by
    rw [get_tickTransmission_of_ne (by decide)]
    exact h.mode
  have htick : chip.tick = chip.tickTransmission := by
    unfold Chip.tick tickArrival listening
    rw [hmode, show (Mode.transmit == Mode.receive) = false by decide, Bool.false_and]
    rfl
  rw [htick]
  unfold tickTransmission at hmode ⊢
  rw [h.countdown] at hmode ⊢
  cases left with
  | none => exact ⟨h.sent, h⟩
  | some looks =>
    cases looks with
    | zero =>
      refine ⟨h.sent, ?_⟩
      unfold flagged
      have hraised : Irq.raised Irq.txDone Irq.txDone = true := by decide
      rw [get_set_self, raised_or, hraised, Bool.or_true]
    | succ looks => exact ⟨h.sent, hmode, h.sent, rfl, h.pending⟩

theorem sent_listen (c : Config) (chip : Chip) : (chip.writes (listen c)).sent = chip.sent := by
  have hreceive : Mode.of (modeByte c Mode.receive) ≠ Mode.transmit := by
    rw [mode_of_modeByte c (by simp)]
    decide
  exact (enterMode_of_ne hreceive _).1

-- ---------------------------------------------------------------------------
-- Work that meets no fault
-- ---------------------------------------------------------------------------

/-- No access is going to fail. -/
def Board.Sure (b : Board) : Prop := b.faults = []

theorem Board.Sure.not_met (h : b.Sure) (b' : Board) : ¬Met b b' := by
  unfold Met
  rw [show b.faults = [] from h]
  exact Nat.not_lt_zero _

theorem Board.Sure.not_faulted (h : b.Sure) {b' : Board} (hf : Faulted b b') : False :=
  h.not_met b' hf.met

theorem Board.Sure.of_length_le {b' : Board} (h : b.Sure)
    (hl : b'.faults.length ≤ b.faults.length) : b'.Sure := by
  rw [show b.faults = [] from h] at hl
  exact List.length_eq_zero_iff.mp (Nat.le_zero.mp hl)

theorem Accessed.sure {b' : Board} (ha : Accessed b b' chip) (h : b.Sure) : b'.Sure :=
  h.of_length_le (Nat.le_of_eq ha.faults)

theorem sure_readBytes (a : Address) (count : Nat) : Stays Board.Sure (readBytes a count) := by
  intro b h
  unfold final
  rcases readBytes_cases a count b with ⟨e, b', he, hf⟩ | ⟨b', he, ha⟩ <;> rw [he]
  · exact (h.not_faulted hf).elim
  · exact ha.sure h

theorem sure_writeByte (a : Address) (v : UInt8) : Stays Board.Sure (writeByte a v) := by
  intro b h
  unfold final writeByte
  rcases writeBytes_cases a [v] b with ⟨e, b', he, hf⟩ | ⟨b', he, ha⟩ <;> rw [he]
  · exact (h.not_faulted hf).elim
  · exact ha.sure h

theorem sure_resetChip : Stays Board.Sure resetChip := by
  intro b h
  unfold final
  rcases resetChip_cases b with ⟨e, b', he, hf⟩ | ⟨b', he, ha⟩ <;> rw [he]
  · exact (h.not_faulted hf).elim
  · exact ha.sure h

theorem sure_claim : Stays Board.Sure claim := by
  intro b h
  unfold final claim
  cases b.claimFaults <;> exact h

theorem sure_readByte (a : Address) : Stays Board.Sure (readByte a) :=
  (sure_readBytes a 1).bind fun _ => stays_pure _

theorem sure_identify : Stays Board.Sure identify := by
  refine sure_resetChip.bind fun _ => (sure_readByte _).bind fun version => ?_
  split
  · exact (stays_throw _).bind fun _ => sure_writeByte _ _
  · exact sure_writeByte _ _

theorem sure_writeAll (ws : List RegisterWrite) : Stays Board.Sure (writeAll ws) :=
  fun b h => h.of_length_le (faults_writeAll ws b)

theorem sure_bringUp (c : Config) : Stays Board.Sure (bringUp c) := by
  refine (sure_readByte _).bind fun mode => ?_
  split
  · exact (stays_throw _).bind fun _ => sure_writeAll _
  · exact sure_writeAll _

theorem writeAll_of_sure (h : b.Sure) (ws : List RegisterWrite) :
    ∃ b', writeAll ws b = .ok () b' ∧ b'.Sure ∧ b'.chip = b.chip.writes ws := by
  have hspent := faults_writeAll ws b
  unfold final at hspent
  rcases writeAll_cases ws b with ⟨e, b', he, hm⟩ | ⟨b', he, -, hc⟩
  · exact (h.not_met b' hm).elim
  · rw [he] at hspent
    exact ⟨b', he, h.of_length_le hspent, hc⟩

theorem beginTransmit_of_sure (h : b.Sure) (c : Config) (hl : payload.length ≤ payloadLimit) :
    ∃ b', beginTransmit c payload b = .ok () b' ∧ b'.Sure ∧
    b'.chip = b.chip.writes (launch c payload) := by
  unfold beginTransmit
  rw [if_neg (Nat.not_lt.mpr hl)]
  exact writeAll_of_sure h (launch c payload)

theorem checkTransmit_of_sure (h : b.Sure) (c : Config) :
    ∃ b', checkTransmit c b = .ok (b.chip.tick.flagged Irq.txDone) b' ∧ b'.Sure ∧
      b'.chip =
        if b.chip.tick.flagged Irq.txDone then b.chip.tick.writes (listen c) else b.chip.tick := by
  rcases readByte_cases Register.irqFlags b with ⟨e, b', he, hf⟩ | ⟨b₁, he, ha⟩
  · exact (h.not_faulted hf).elim
  have hchip : b₁.chip = b.chip.tick := ha.chip
  have hdone : Irq.raised ((b.chip.read Register.irqFlags 1).2.headD 0) Irq.txDone =
      b.chip.tick.flagged Irq.txDone := rfl
  unfold checkTransmit
  rw [bind_ok _ he, hdone]
  cases b.chip.tick.flagged Irq.txDone with
  | false => exact ⟨b₁, rfl, ha.sure h, hchip⟩
  | true =>
    obtain ⟨b₂, he₂, hs₂, hc₂⟩ := writeAll_of_sure (ha.sure h) (listen c)
    exact ⟨b₂, bind_ok _ he₂, hs₂, by rw [hc₂, hchip]; rfl⟩

theorem abandonTransmit_of_sure (h : b.Sure) (c : Config) :
    ∃ b', abandonTransmit c b = .error (.timeout "transmit did not complete") b' ∧
      b'.chip = b.chip.writes (listen c) := by
  obtain ⟨b', he, -, hc⟩ := writeAll_of_sure h (listen c)
  exact ⟨b', bind_ok _ he, hc⟩

end RadioGateway.Chip

namespace RadioGateway.Station

open RadioGateway.Chip
open RadioGateway.Radio

variable {c : Config} {d : Driver} {b : Bench} {payload : List UInt8} {sent : List (List UInt8)}
  {left : Option Nat}

-- ---------------------------------------------------------------------------
-- Transmissions that meet no fault
-- ---------------------------------------------------------------------------

namespace Driver

/-- How a transmission ends that is reported done after some looks, or never. -/
def verdict : Option Nat → Transmitted
  | some _ => .ok ()
  | none => .error (.timeout "transmit did not complete")

theorem checkOnce_inFlight (d : Driver) (hs : b.board.Sure) (h : InFlight sent left b.board.chip) :
    match left with
    | none => ∃ b', d.checkOnce b = (b', none) ∧ b'.board.Sure ∧ InFlight sent none b'.board.chip
    | some 0 => ∃ b', d.checkOnce b = (b', some (.ok ())) ∧ b'.board.chip.sent = sent
    | some (looks + 1) =>
      ∃ b', d.checkOnce b = (b', none) ∧ b'.board.Sure ∧
      InFlight sent (some looks) b'.board.chip := by
  obtain ⟨board, he, hs', hchip⟩ := checkTransmit_of_sure hs d.config
  obtain ⟨hsent, htick⟩ := h.tick
  unfold checkOnce Bench.onBoard
  rw [he]
  rcases left with _ | _ | looks
  · rw [htick.pending] at hchip ⊢
    exact ⟨_, rfl, hs', hchip ▸ htick⟩
  · rw [htick] at hchip ⊢
    exact ⟨_, rfl, by rw [hchip, if_pos rfl, sent_listen, hsent]⟩
  · rw [htick.pending] at hchip ⊢
    exact ⟨_, rfl, hs', hchip ▸ htick⟩

theorem abandon_inFlight (d : Driver) (hs : b.board.Sure) (h : InFlight sent none b.board.chip) :
    (d.abandon b).result = verdict none ∧ (d.abandon b).state.board.chip.sent = sent := by
  obtain ⟨board, he, hchip⟩ := abandonTransmit_of_sure hs d.config
  unfold abandon Bench.onBoard
  rw [he]
  exact ⟨rfl, by rw [hchip, sent_listen, h.sent]⟩

/-- Whoever looks often enough sees the end of a transmission that has one. -/
theorem runChecks_inFlight (d : Driver) (hs : b.board.Sure) (h : InFlight sent left b.board.chip)
    {looks : Nat} (hlooks : ∀ n, left = some n → n ≤ looks) :
    (d.runChecks looks b).result.1 = verdict left ∧
    (d.runChecks looks b).state.board.chip.sent = sent := by
  induction looks generalizing left b with
  | zero =>
    have hcheck := d.checkOnce_inFlight hs h
    rcases left with _ | _ | n
    · obtain ⟨b', he, hs', h'⟩ := hcheck
      rw [(runChecks_zero he).1, (runChecks_zero he).2]
      exact d.abandon_inFlight hs' h'
    · obtain ⟨b', he, hsent⟩ := hcheck
      rw [runChecks_some he]
      exact ⟨rfl, hsent⟩
    · exact absurd (hlooks (n + 1) rfl) (Nat.not_succ_le_zero n)
  | succ looks ih =>
    have hcheck := d.checkOnce_inFlight hs h
    rcases left with _ | _ | n
    · obtain ⟨b', he, hs', h'⟩ := hcheck
      rw [(runChecks_succ he looks).1, (runChecks_succ he looks).2]
      exact ih hs' h' nofun
    · obtain ⟨b', he, hsent⟩ := hcheck
      rw [runChecks_some he]
      exact ⟨rfl, hsent⟩
    · obtain ⟨b', he, hs', h'⟩ := hcheck
      have hn := Nat.le_of_succ_le_succ (hlooks (n + 1) rfl)
      have hrest := ih hs' h' fun m hm => Option.some.inj hm ▸ hn
      rw [(runChecks_succ he looks).1, (runChecks_succ he looks).2]
      exact hrest

theorem runTransmit_of_sure (d : Driver) (hs : b.board.Sure) (hl : payload.length ≤ payloadLimit)
    (hbase : b.board.chip.get Register.txBase = 0) :
    (d.runTransmit .board payload b).result.1 = verdict b.board.chip.txDoneAfter ∧
    (d.runTransmit .board payload b).state.board.chip.sent = b.board.chip.sent ++ [payload] := by
  obtain ⟨board, he, hs', hchip⟩ := beginTransmit_of_sure hs d.config hl
  have hflight : InFlight (b.board.chip.sent ++ [payload]) b.board.chip.txDoneAfter board.chip :=
    hchip ▸ inFlight_launch d.config b.board.chip hl hbase
  obtain ⟨hstate, hresult⟩ := runTransmit_begun d payload he
  rw [hstate, hresult]
  refine d.runChecks_inFlight (b := { b with board }) hs' hflight fun n hn => ?_
  -- the time that a transmission may take never ends before the transmission does
  have hdue : n ≤ board.due := by
    unfold Board.due
    rw [hflight.countdown, hn, Option.getD_some]
    simp only
    omega
  refine Nat.le_trans hdue ?_
  unfold looksWithin transmitMargin
  rw [if_neg (by omega)]
  exact Nat.le_max_right _ _

theorem stays_beginOpen {P : Board → Prop} (hclaim : Stays P claim) (hidentify : Stays P identify)
    (h : P b.board) : P (beginOpen .board c b).state.board := by
  have hclaimed := stays_onBoard hclaim h
  unfold beginOpen
  rcases hr : b.onBoard claim with ⟨b₁, e | u⟩ <;> rw [hr] at hclaimed
  · exact hclaimed
  cases hv : c.fault? with
  | some fault => exact hclaimed
  | none =>
    have hidentified := stays_onBoard hidentify hclaimed
    rcases hr' : b₁.onBoard identify with ⟨b₂, e | u'⟩ <;> rw [hr'] at hidentified
    · simpa only [hr'] using hidentified
    · simpa only [hr'] using hidentified

theorem stays_finishOpen {P : Board → Prop} (hbring : Stays P (bringUp c)) (h : P b.board) :
    P (finishOpen (.settling c) b).state.board := by
  have hup := stays_onBoard hbring h
  unfold finishOpen
  simp only
  rcases hr : b.onBoard (bringUp c) with ⟨b₁, e | u⟩ <;> rwa [hr] at hup

theorem stays_runOpen {P : Board → Prop} (hclaim : Stays P claim) (hidentify : Stays P identify)
    (hbring : Stays P (bringUp c)) (h : P b.board) : P (runOpen .board c b).state.board := by
  have hbegun := stays_beginOpen (c := c) hclaim hidentify h
  have hbegin := opens_beginOpen (h := .board) (c := c) b
  unfold runOpen
  cases hr : (beginOpen .board c b).result with
  | finished r => simpa only [hr] using hbegun
  | paused ms o =>
    rw [hr] at hbegin
    obtain rfl : o = .settling c := hbegin.1
    simpa only [hr] using stays_finishOpen hbring hbegun

theorem sure_runOpen (hs : b.board.Sure) : (runOpen .board c b).state.board.Sure :=
  stays_runOpen sure_claim sure_identify (sure_bringUp c) hs

theorem steady_runChecks (d : Driver) (looks : Nat) (b : Bench) :
    b.Steady (d.runChecks looks b).state := by
  induction looks generalizing b with
  | zero =>
    have hcheck := d.steady_checkOnce b
    rcases hc : d.checkOnce b with ⟨b', _ | r⟩ <;> rw [hc] at hcheck
    · rw [(runChecks_zero hc).1]
      exact hcheck.trans (Bench.steady_onBoard _ (settings_abandonTransmit d.config))
    · rwa [runChecks_some hc]
  | succ looks ih =>
    have hcheck := d.steady_checkOnce b
    rcases hc : d.checkOnce b with ⟨b', _ | r⟩ <;> rw [hc] at hcheck
    · rw [(runChecks_succ hc looks).1]
      exact hcheck.trans (ih b')
    · rwa [runChecks_some hc]

theorem settings_runTransmit (d : Driver) (payload : List UInt8) (b : Bench) :
    SameSettings b.board.chip (d.runTransmit .board payload b).state.board.chip := by
  obtain ⟨-, -, hsame⟩ := transmit_keeps .board d b payload
  unfold runTransmit
  simp only
  split
  · exact hsame
  · exact hsame.trans (d.steady_runChecks _ _).settings

end Driver

-- ---------------------------------------------------------------------------
-- Runs without faults
-- ---------------------------------------------------------------------------

/-- What is done with an open driver when no access fails. From one transmission to the next the
chip may change how long it takes to report the end, or stop reporting it. -/
inductive Errand where
  | frame (f : Arrival)
  | finishAfter (looks : Option Nat)
  | receive (timeout : Nat)
  | transmit (payload : List UInt8)

namespace Session

variable {s : Session}

def go (s : Session) : Errand → Session
  | .frame f => s.step (.frame f)
  | .finishAfter looks => { s with bench := (Gateway.Stimulus.finishAfter looks).apply s.bench }
  | .receive timeout => s.step (.receive timeout)
  | .transmit payload => s.deal (.transmit payload)

def goes (s : Session) (errands : List Errand) : Session := errands.foldl go s

/-- Between two errands the chip receives, and is as it was set up when it was opened. -/
structure Ready (c : Config) (s : Session) : Prop where
  config : s.driver.config = c
  lora : s.chip.refusesLora = false
  mode : receiving c s.chip
  programmed : Programmed c s.chip
  sure : s.bench.board.Sure

namespace Ready

theorem txBase (h : Ready c s) : s.chip.get Register.txBase = 0 :=
  List.head_eq_of_cons_eq
    (h.programmed (Register.txBase, [0x00]) (by simp [programming, baseAddresses]))

theorem receive (h : Ready c s) (timeout : Nat) : Ready c (s.step (.receive timeout)) := by
  obtain ⟨-, hconfig, hsettings⟩ := s.driver.runReceive_keeps .board s.bench timeout
  have hsame : SameMode s.chip (s.step (.receive timeout)).chip :=
    s.driver.chip_runReceive (sameMode_look _) sameMode_clearFlags (.refl _) timeout
  have hsure : (s.step (.receive timeout)).bench.board.Sure :=
    s.driver.stays_runReceive (stays_look sure_readBytes (sure_writeByte _) _) (sure_writeByte _ _)
      h.sure timeout
  exact ⟨hconfig.trans h.config, hsame.refusesLora.trans h.lora, hsame.mode.trans h.mode,
    h.programmed.congr hsettings, hsure⟩

/-- A payload that fits is sent; then the chip receives again and no interrupt is raised. -/
theorem transmits (h : Ready c s) {payload : List UInt8} (hl : payload.length ≤ payloadLimit) :
    (s.transmit payload).result.1 = Driver.verdict s.chip.txDoneAfter ∧
    (s.deal (.transmit payload)).chip.sent = s.chip.sent ++ [payload] ∧
    Back c s.chip (s.deal (.transmit payload)).chip ∧
    (s.deal (.transmit payload)).bench.board.Sure := by
  obtain ⟨hresult, hsent⟩ := s.driver.runTransmit_of_sure h.sure hl h.txBase
  refine ⟨hresult, hsent, ?_⟩
  have hends := s.driver.transmits_runTransmit payload s.bench h.lora
  rw [h.config] at hends
  generalize (s.driver.runTransmit .board payload s.bench).result.1 = r at hends
  cases hends with
  | tooLarge hl' => exact absurd hl' (Nat.not_lt.mpr hl)
  | refused e hl' hf hm => exact (h.sure.not_met _ hm).elim
  | begun r hl' hf hends =>
    cases hends with
    | stuck e hm => exact (h.sure.not_met _ hm).elim
    | back r hf hb => exact ⟨hb, h.sure.of_length_le (Nat.le_of_eq hf)⟩

theorem transmit_tooLarge {payload : List UInt8} (hl : payloadLimit < payload.length)
    (s : Session) :
    (s.transmit payload).result.1 = .error (.payloadTooLarge payload.length payloadLimit) ∧
    s.deal (.transmit payload) = s := by
  have hbegin : beginTransmit s.driver.config payload s.bench.board =
      .error (.payloadTooLarge payload.length payloadLimit) s.bench.board := by
    unfold beginTransmit
    rw [if_pos hl]
    rfl
  simp [Session.transmit, deal, Driver.runTransmit, Driver.transmit, Bench.onBoard, hbegin]

theorem transmit (h : Ready c s) (payload : List UInt8) : Ready c (s.deal (.transmit payload)) := by
  by_cases hl : payload.length ≤ payloadLimit
  · obtain ⟨-, -, hback, hsure⟩ := h.transmits hl
    exact ⟨h.config, hback.air.refusesLora.trans h.lora, hback.mode,
      h.programmed.congr (s.driver.settings_runTransmit payload s.bench), hsure⟩
  · rwa [(transmit_tooLarge (Nat.not_le.mp hl) s).2]

theorem go (h : Ready c s) (e : Errand) : Ready c (s.go e) := by
  cases e with
  | frame f => exact ⟨h.config, h.lora, h.mode, h.programmed, h.sure⟩
  | finishAfter looks => exact ⟨h.config, h.lora, h.mode, h.programmed, h.sure⟩
  | receive timeout => exact h.receive timeout
  | transmit payload => exact h.transmit payload

theorem goes (h : Ready c s) (errands : List Errand) : Ready c (s.goes errands) := by
  induction errands generalizing s with
  | nil => exact h
  | cons e rest ih => exact ih (h.go e)

end Ready

theorem ready_runOpen (hopen : (Driver.runOpen .board c b).result.1 = .ok d) (hs : b.board.Sure) :
    Ready c ⟨(Driver.runOpen .board c b).state, d, []⟩ := by
  obtain ⟨hd, hlora, chip, hair, hchip⟩ := Driver.configured_runOpen hopen
  have hback : Back c chip (chip.writes (configure c)) :=
    back_configure c chip (hair.refusesLora.trans hlora)
  have hprogrammed := programmed_writes c chip
  rw [← hchip] at hback hprogrammed
  exact ⟨congrArg Driver.config hd, hback.air.refusesLora.trans (hair.refusesLora.trans hlora),
    hback.mode, hprogrammed, Driver.sure_runOpen hs⟩

end Session

/-- A transmission puts exactly the given bytes on the air. After a driver was opened, and after
whatever it has sent and received since, as long as no access fails: a payload of more than 252
bytes is refused before anything is done. Any other payload is sent as one frame, byte for byte; the
transmission succeeds if its end is reported after however many looks, and times out if it never is.
In both cases the chip is back in continuous reception with no interrupt raised, and the settings
and the last signal are as before. -/
theorem payload_on_air (c : Config) (b : Bench) (d : Driver) (errands : List Errand)
    (payload : List UInt8) (hopen : (Driver.runOpen .board c b).result.1 = .ok d)
    (hfaults : b.board.faults = []) :
    let before := Session.goes ⟨(Driver.runOpen .board c b).state, d, []⟩ errands
    let after := before.go (.transmit payload)
    let result := (before.transmit payload).result.1
    (252 < payload.length → result = .error (.payloadTooLarge payload.length 252) ∧
      after = before) ∧
    (payload.length ≤ 252 →
      (∀ looks, before.chip.txDoneAfter = some looks → result = .ok ()) ∧
      (before.chip.txDoneAfter = none → result = .error (.timeout "transmit did not complete")) ∧
      after.chip.sent = before.chip.sent ++ [payload] ∧
      after.chip.get Register.opMode = modeByte c Mode.receive ∧
      after.chip.get Register.opMode = before.chip.get Register.opMode ∧
      after.chip.get Register.irqFlags = 0 ∧
      Programmed c after.chip ∧ SameSettings before.chip after.chip ∧
      after.driver = before.driver) := by
  intro before after result
  have hbefore : Session.Ready c before := (Session.ready_runOpen hopen hfaults).goes errands
  have hafter : Session.Ready c after := hbefore.transmit payload
  refine ⟨fun hl => Session.Ready.transmit_tooLarge hl before, fun hl => ?_⟩
  obtain ⟨hresult, hsent, hback, -⟩ := hbefore.transmits hl
  refine ⟨fun looks hlooks => ?_, fun hnever => ?_, hsent, hafter.mode,
    hafter.mode.trans hbefore.mode.symm, hback.clear, hafter.programmed,
    before.driver.settings_runTransmit payload before.bench, rfl⟩
  · exact hresult.trans (congrArg Driver.verdict hlooks)
  · exact hresult.trans (congrArg Driver.verdict hnever)

/-- A short payload after a longer one, and after a frame that came in over the end of the packet
memory and had every interrupt raised. -/
theorem short_payload_on_air :
    let b : Bench := { board := { chip := Chip.fresh chipVersion } }
    let f : Arrival := ⟨[0x68, 0x65, 0x79], 0xFE, 0xF8, 0x40, Irq.all, 0⟩
    let errands : List Errand :=
      [.transmit [0x6C, 0x6F, 0x6E, 0x67], .frame f, .receive 0, .finishAfter (some 3)]
    ∃ d, (Driver.runOpen .board {} b).result.1 = .ok d ∧ b.board.faults = [] ∧
      let before := Session.goes ⟨(Driver.runOpen .board {} b).state, d, []⟩ errands
      let after := before.go (.transmit [0x61])
      (before.transmit [0x61]).result.1 = .ok () ∧
      after.chip.sent = before.chip.sent ++ [[0x61]] := by
  intro b f errands
  have hsome : (Driver.runOpen .board {} b).result.1.toOption.isSome = true := by decide +kernel
  cases hopen : (Driver.runOpen .board {} b).result.1 with
  | error e =>
    rw [hopen] at hsome
    cases hsome
  | ok d =>
    refine ⟨d, rfl, rfl, ?_⟩
    obtain ⟨hdone, -, hsent, -⟩ := (payload_on_air {} b d errands [0x61] hopen rfl).2 (by decide)
    exact ⟨hdone 3 rfl, hsent⟩

end RadioGateway.Station
