import RadioGateway.Proofs.OnAir

/-!
# A board on which nothing goes wrong

A healthy chip stays healthy whatever is done with it, and a frame that waits at it is there until
it is received or the chip is told to listen again. A driver that is open on it, and does nothing at
the moment, has no frame in its hands: all that came in and was not returned is still on its way.
-/

namespace RadioGateway.Chip

open RadioGateway.Radio (Config)

variable {chip : Chip} {c : Config} {b b' : Board} {payload : List UInt8} {sent : List (List UInt8)}

-- ---------------------------------------------------------------------------
-- The chip
-- ---------------------------------------------------------------------------

/-- A frame that is told of, and whose checksum is right. -/
structure Arrival.Good (f : Arrival) : Prop extends Arrival.Sound f where
  clean : f.garbled = false

/-- A chip of the family that speaks LoRa and reports the end of what it sends, with what it has
sent so far. The frames on their way to it are good ones. -/
structure Healthy (sent : List (List UInt8)) (chip : Chip) : Prop where
  version : chip.get Register.version = chipVersion
  lora : chip.refusesLora = false
  finishes : chip.txDoneAfter.isSome
  sent : chip.sent = sent
  good : ∀ f ∈ chip.arrivals, f.Good

/-- The data of the frames on their way. -/
def awaited (chip : Chip) : List (List UInt8) := chip.arrivals.map Arrival.data

/-- Where all frames are good the readings that are due are theirs. -/
theorem data_intact (h : ∀ f ∈ chip.arrivals, f.Good) :
    (intact c chip.arrivals).map Prod.fst = chip.awaited := by
  have hall : chip.arrivals.filter (fun f => !f.garbled) = chip.arrivals :=
    List.filter_eq_self.mpr fun f hf => by rw [(h f hf).clean]; rfl
  unfold intact awaited
  rw [hall, List.map_map]
  rfl

theorem tick_keeps (chip : Chip) :
    chip.tick.txDoneAfter = chip.txDoneAfter ∧ chip.tick.sent = chip.sent ∧
    ∀ g ∈ chip.tick.arrivals, ∃ f ∈ chip.arrivals, g.data = f.data ∧ g.flags = f.flags := by
  have harrival (chip : Chip) : chip.tickArrival.txDoneAfter = chip.txDoneAfter ∧
      chip.tickArrival.sent = chip.sent ∧
      ∀ g ∈ chip.tickArrival.arrivals, ∃ f ∈ chip.arrivals, g.data = f.data ∧
      g.flags = f.flags := by
    unfold tickArrival
    split
    · split
      · exact ⟨rfl, rfl, fun g hg => ⟨g, hg, rfl, rfl⟩⟩
      · rename_i f rest ha
        rw [ha]
        split
        · exact ⟨rfl, rfl, fun g hg => ⟨g, List.mem_cons_of_mem f hg, rfl, rfl⟩⟩
        · refine ⟨rfl, rfl, fun g hg => ?_⟩
          rcases List.mem_cons.mp hg with rfl | hr
          · exact ⟨f, List.mem_cons_self, rfl, rfl⟩
          · exact ⟨g, List.mem_cons_of_mem f hr, rfl, rfl⟩
    · exact ⟨rfl, rfl, fun g hg => ⟨g, hg, rfl, rfl⟩⟩
  have htransmission : chip.tickTransmission.txDoneAfter = chip.txDoneAfter ∧
      chip.tickTransmission.sent = chip.sent ∧ chip.tickTransmission.arrivals = chip.arrivals := by
    unfold tickTransmission
    split <;> exact ⟨rfl, rfl, rfl⟩
  obtain ⟨hafter, hsent, hair⟩ := harrival chip.tickTransmission
  exact ⟨hafter.trans htransmission.1, hsent.trans htransmission.2.1, htransmission.2.2 ▸ hair⟩

/-- Apart from the mode and the version. -/
def Apart (p : Place) : Prop := p.1 ≠ Register.opMode ∧ Register.version ∉ touched p

instance (p : Place) : Decidable (Apart p) := inferInstanceAs (Decidable (_ ∧ _))

/-- A write that starts no transmission and leaves the version alone. -/
inductive Quiet : RegisterWrite → Prop
  | setMode (c : Config) (mode : UInt8) (h : mode ∈ [Mode.sleep, Mode.standby, Mode.receive]) :
      Quiet (setMode c mode)
  | other {w : RegisterWrite} (h : Apart (place w)) : Quiet w

namespace Healthy

theorem tick (h : chip.Healthy sent) : chip.tick.Healthy sent := by
  obtain ⟨hafter, hsent, hair⟩ := tick_keeps chip
  refine ⟨(get_tick_of_not_mem (by decide)).trans h.version, (refusesLora_tick chip).trans h.lora,
    hafter ▸ h.finishes, hsent.trans h.sent, fun g hg => ?_⟩
  obtain ⟨f, hf, hdata, hflags⟩ := hair g hg
  have hgood := h.good f hf
  refine ⟨⟨hdata ▸ hgood.fits, hflags ▸ hgood.reported⟩, ?_⟩
  unfold Arrival.garbled
  rw [hflags]
  exact hgood.clean

theorem read (h : chip.Healthy sent) (a : Address) (count : Nat) :
    (chip.read a count).1.Healthy sent := by
  simp only [Chip.read]
  split
  · exact ⟨(get_set_of_ne _ (by decide)).trans h.version, h.lora, h.finishes, h.sent, h.good⟩
  · split
    · exact h.tick
    · exact h

theorem enterMode (h : chip.Healthy sent) {mode : UInt8} (hmode : Mode.of mode ≠ Mode.transmit) :
    (chip.enterMode mode).Healthy sent := by
  obtain ⟨hsent, hafter⟩ := enterMode_of_ne hmode chip
  have hair := sameAir_enterMode chip mode
  exact ⟨(get_enterMode_of_ne mode (by decide)).trans h.version, hair.refusesLora.trans h.lora,
    hafter ▸ h.finishes, hsent.trans h.sent, hair.arrivals ▸ h.good⟩

theorem write (h : chip.Healthy sent) {w : RegisterWrite} (hw : Quiet w) :
    (chip.write w.1 w.2).Healthy sent := by
  cases hw with
  | setMode c mode hmode =>
    refine h.enterMode ?_
    simp only [List.mem_cons, List.not_mem_nil, or_false] at hmode
    rcases hmode with rfl | rfl | rfl <;> rw [mode_of_modeByte c (by simp)] <;> decide
  | other hapart =>
    obtain ⟨hmode, hversion⟩ := hapart
    have hmode : w.1 ≠ Register.opMode := hmode
    have hair := sameAir_write chip w.1 w.2
    have hrest : (chip.write w.1 w.2).txDoneAfter = chip.txDoneAfter ∧
        (chip.write w.1 w.2).sent = chip.sent := by
      unfold Chip.write
      rw [if_neg hmode]
      split
      · exact ⟨rfl, rfl⟩
      · split
        · split <;> exact ⟨rfl, rfl⟩
        · exact ⟨rfl, rfl⟩
    exact ⟨(get_write_of_not_mem hversion).trans h.version, hair.refusesLora.trans h.lora,
      hrest.1 ▸ h.finishes, hrest.2.trans h.sent, hair.arrivals ▸ h.good⟩

theorem writes (h : chip.Healthy sent) {ws : List RegisterWrite} (hw : ∀ w ∈ ws, Quiet w) :
    (chip.writes ws).Healthy sent := by
  induction ws generalizing chip with
  | nil => exact h
  | cons w rest ih =>
    exact ih (h.write (hw w List.mem_cons_self)) fun v hv => hw v (List.mem_cons_of_mem w hv)

end Healthy

theorem quiet_listen (c : Config) : ∀ w ∈ listen c, Quiet w := by
  intro w hw
  simp only [listen, List.mem_cons, List.not_mem_nil, or_false] at hw
  rcases hw with rfl | rfl | rfl
  · exact .other (by decide)
  · exact .other (by decide)
  · exact .setMode c Mode.receive (by simp)

theorem quiet_programming (c : Config) : ∀ w ∈ programming c, Quiet w := by
  have hplaces : ∀ p ∈ settingPlaces, Apart p := by decide
  exact fun w hw => .other (hplaces _ (places_programming c ▸ List.mem_map_of_mem hw))

theorem quiet_configure (c : Config) : ∀ w ∈ configure c, Quiet w := by
  intro w hw
  simp only [configure, List.mem_append, List.mem_cons] at hw
  rcases hw with (hbase | rfl | hset) | hlisten
  · exact quiet_programming c w (List.mem_append_left _ hbase)
  · exact .setMode c Mode.standby (by simp)
  · exact quiet_programming c w (List.mem_append_right _ hset)
  · exact quiet_listen c w hlisten

theorem quiet_loading (c : Config) (payload : List UInt8) : ∀ w ∈ loading c payload, Quiet w := by
  intro w hw
  simp only [loading, launch, List.dropLast_cons_cons, List.dropLast_singleton, List.mem_cons,
    List.not_mem_nil, or_false] at hw
  rcases hw with rfl | rfl | rfl | rfl | rfl
  · exact .setMode c Mode.standby (by simp)
  · exact .other (by decide)
  · -- the payload goes through the port, however long it is
    exact .other (show Apart (Register.fifo, 0) by decide)
  · exact .other (show Apart (Register.payloadLength, 1) by decide)
  · exact .other (by decide)

theorem txDoneAfter_enterMode (chip : Chip) (mode : UInt8) :
    (chip.enterMode mode).txDoneAfter = chip.txDoneAfter := by
  unfold enterMode
  simp only
  generalize (if chip.refusesLora then mode &&& ~~~Mode.longRange else mode) = mode
  split <;> rfl

/-- What is sent is added to what has been sent. -/
theorem Healthy.launch (h : chip.Healthy sent) (c : Config) (hl : payload.length ≤ payloadLimit)
    (hbase : chip.get Register.txBase = 0) :
    (chip.writes (launch c payload)).Healthy (sent ++ [payload]) := by
  have hready := h.writes (quiet_loading c payload)
  have hair := sameAir_writes chip (Chip.launch c payload)
  have hsent := (inFlight_launch c chip hl hbase).sent
  rw [h.sent] at hsent
  refine ⟨?_, hair.refusesLora.trans h.lora, ?_, hsent, hair.arrivals ▸ h.good⟩
  · rw [writes_launch, get_enterMode_of_ne _ (by decide)]
    exact hready.version
  · rw [writes_launch, txDoneAfter_enterMode]
    exact hready.finishes

-- ---------------------------------------------------------------------------
-- Frames in hand
-- ---------------------------------------------------------------------------

/-- A look that comes to nothing has found no frame. -/
theorem runs_look_rested (c : Config) (b : Board) :
    Runs (look c) b
      (fun l b' => match l with
        | .nothing => b'.chip.flagged Irq.rxDone = false
        | .garbled | .frame _ _ => True)
      (fun _ => True) := by
  unfold look
  refine (runs_readByte _ b).bind (fun _ _ => trivial) ?_
  rintro flags b₁ ⟨rfl, ha⟩
  have hflags : (b.chip.read Register.irqFlags 1).2.headD 0 = b₁.chip.get Register.irqFlags := by
    rw [ha.chip]
    rfl
  rw [hflags]
  cases hrx : Irq.raised (b₁.chip.get Register.irqFlags) Irq.rxDone with
  | false => exact runs_pure hrx
  | true =>
    cases Irq.raised (b₁.chip.get Register.irqFlags) Irq.crcError with
    | true => exact runs_pure trivial
    | false => exact (runs_readPacket c b₁).bind (fun _ _ => trivial) fun _ _ _ => runs_pure trivial

theorem rested_clearFlags (b : Board) :
    Runs clearFlags b (fun _ b' => b'.chip.flagged Irq.rxDone = false) (Faulted b) := by
  refine (runs_writeByte _ _ b).mono ?_ fun _ hf => hf
  rintro - b' ha
  have hclear : b'.chip.get Register.irqFlags = 0 := by
    rw [ha.chip]
    refine (get_set_self _ _).trans ?_
    rw [show ~~~Irq.all = 0 by decide, UInt8.and_zero]
  unfold flagged
  rw [hclear]
  rfl

-- ---------------------------------------------------------------------------
-- The board
-- ---------------------------------------------------------------------------

/-- The bus can be claimed, no access is going to fail, and the chip is healthy. -/
structure Board.Healthy (sent : List (List UInt8)) (b : Board) : Prop where
  sure : b.Sure
  claimable : b.claimFaults = []
  chip : b.chip.Healthy sent

theorem Accessed.healthy (ha : Accessed b b' chip) (h : b.Healthy sent) (hc : chip.Healthy sent) :
    b'.Healthy sent :=
  ⟨ha.sure h.sure, ha.claimFaults.trans h.claimable, ha.chip ▸ hc⟩

theorem healthy_readBytes (a : Address) (count : Nat) :
    Stays (Board.Healthy sent) (readBytes a count) := by
  intro b h
  unfold final
  rcases readBytes_cases a count b with ⟨e, b', he, hf⟩ | ⟨b', he, ha⟩ <;> rw [he]
  · exact (h.sure.not_faulted hf).elim
  · exact ha.healthy h (h.chip.read a count)

theorem healthy_readByte (a : Address) : Stays (Board.Healthy sent) (readByte a) :=
  (healthy_readBytes a 1).bind fun _ => stays_pure _

theorem healthy_writeBytes {w : RegisterWrite} (hw : Quiet w) :
    Stays (Board.Healthy sent) (writeBytes w.1 w.2) := by
  intro b h
  unfold final
  rcases writeBytes_cases w.1 w.2 b with ⟨e, b', he, hf⟩ | ⟨b', he, ha⟩ <;> rw [he]
  · exact (h.sure.not_faulted hf).elim
  · exact ha.healthy h (h.chip.write hw)

theorem healthy_writeAll {ws : List RegisterWrite} (hw : ∀ w ∈ ws, Quiet w) :
    Stays (Board.Healthy sent) (writeAll ws) := by
  induction ws with
  | nil => exact stays_pure ()
  | cons w rest ih =>
    exact (healthy_writeBytes (hw w List.mem_cons_self)).bind fun _ =>
      ih fun v hv => hw v (List.mem_cons_of_mem w hv)

theorem healthy_clearFlags : Stays (Board.Healthy sent) clearFlags :=
  healthy_writeBytes (w := (Register.irqFlags, [Irq.all])) (.other (by decide))

theorem healthy_look (c : Config) : Stays (Board.Healthy sent) (look c) :=
  stays_look healthy_readBytes
    (fun v => healthy_writeBytes (w := (Register.fifoPointer, [v]))
      (.other (show Apart (Register.fifoPointer, 1) by decide))) c

theorem healthy_checkTransmit (c : Config) : Stays (Board.Healthy sent) (checkTransmit c) := by
  refine (healthy_readByte _).bind fun flags => ?_
  split
  · exact (healthy_writeAll (quiet_listen c)).bind fun _ => stays_pure _
  · exact stays_pure _

theorem healthy_abandonTransmit (c : Config) : Stays (Board.Healthy sent) (abandonTransmit c) :=
  (healthy_writeAll (quiet_listen c)).bind fun _ => stays_throw _

theorem healthy_resetChip : Stays (Board.Healthy sent) resetChip := by
  intro b h
  unfold final
  rcases resetChip_cases b with ⟨e, b', he, hf⟩ | ⟨b', he, ha⟩ <;> rw [he]
  · exact (h.sure.not_faulted hf).elim
  · exact ha.healthy h ⟨h.chip.version, h.chip.lora, h.chip.finishes, h.chip.sent, h.chip.good⟩

theorem healthy_claim : Stays (Board.Healthy sent) claim := by
  intro b h
  unfold final claim
  rw [h.claimable]
  exact h

theorem healthy_identify : Stays (Board.Healthy sent) identify := by
  have hsleep : Stays (Board.Healthy sent)
      (writeByte Register.opMode (Mode.longRange ||| Mode.sleep)) := by
    intro b h
    unfold final writeByte
    rcases writeBytes_cases Register.opMode [Mode.longRange ||| Mode.sleep] b with
      ⟨e, b', he, hf⟩ | ⟨b', he, ha⟩ <;> rw [he]
    · exact (h.sure.not_faulted hf).elim
    · exact ha.healthy h (h.chip.enterMode (by decide))
  refine healthy_resetChip.bind fun _ => (healthy_readByte _).bind fun version => ?_
  split
  · exact (stays_throw _).bind fun _ => hsleep
  · exact hsleep

theorem healthy_bringUp (c : Config) : Stays (Board.Healthy sent) (bringUp c) := by
  refine (healthy_readByte _).bind fun mode => ?_
  split
  · exact (stays_throw _).bind fun _ => healthy_writeAll (quiet_configure c)
  · exact healthy_writeAll (quiet_configure c)

theorem claimFaults_writeAll (faults : List Radio.BusError) (ws : List RegisterWrite) :
    Stays (fun b => b.claimFaults = faults) (writeAll ws) := by
  induction ws with
  | nil => exact stays_pure ()
  | cons w rest ih =>
    refine Stays.bind (fun b h => ?_) fun _ => ih
    unfold final
    rcases writeBytes_cases w.1 w.2 b with ⟨e, b', he, hf⟩ | ⟨b', he, ha⟩ <;> rw [he]
    · exact hf.claimFaults.trans h
    · exact ha.claimFaults.trans h

theorem beginTransmit_of_healthy (h : b.Healthy sent) (c : Config)
    (hl : payload.length ≤ payloadLimit) (hbase : b.chip.get Register.txBase = 0) :
    ∃ b', beginTransmit c payload b = .ok () b' ∧ b'.Healthy (sent ++ [payload]) := by
  obtain ⟨b', he, hs, hchip⟩ := writeAll_of_sure h.sure (launch c payload)
  have hclaim := claimFaults_writeAll [] (launch c payload) b h.claimable
  unfold final at hclaim
  rw [he] at hclaim
  refine ⟨b', ?_, hs, hclaim, hchip ▸ h.chip.launch c hl hbase⟩
  unfold beginTransmit
  rw [if_neg (Nat.not_lt.mpr hl), he]

theorem healthy_putToSleep (c : Config) : Stays (Board.Healthy sent) (putToSleep c) :=
  healthy_writeAll fun w hw => by
    obtain rfl := List.mem_singleton.mp hw
    exact .setMode c Mode.sleep (by simp)

end RadioGateway.Chip

namespace RadioGateway.Station

open RadioGateway.Chip
open RadioGateway.Radio

variable {c : Config} {d : Driver} {b : Bench} {payload : List UInt8} {sent : List (List UInt8)}

-- ---------------------------------------------------------------------------
-- The driver
-- ---------------------------------------------------------------------------

/-- How a driver stands that does nothing at the moment: its chip listens, and no frame is in its
hands. -/
structure Attentive (d : Driver) (b : Bench) : Prop where
  ready : Session.Ready d.config ⟨b, d, []⟩
  listens : Listens b.board.chip
  rested : b.board.chip.flagged Irq.rxDone = false

theorem Attentive.owed (h : Attentive d b) :
    owed d.config b.board.chip = intact d.config b.board.chip.arrivals := by
  unfold Chip.owed
  rw [held?_eq_none h.rested]
  rfl

namespace Driver

/-- After a look no frame is left in the hands of a driver: there was none, or its flags were
cleared. -/
theorem rested_lookOnce (d : Driver) (hl : Listens b.board.chip) (hs : b.board.Sure) :
    (d.lookOnce b).state.1.board.chip.flagged Irq.rxDone = false := by
  have hlook := runs_look d.config hl
  have hrested := runs_look_rested d.config b.board
  unfold Runs at hlook hrested
  unfold lookOnce Bench.onBoard
  cases hr : look d.config b.board with
  | error e b₁ =>
    rw [hr] at hlook
    exact (hs.not_met b₁ hlook.2).elim
  | ok l b₁ =>
    rw [hr] at hlook hrested
    have hs₁ : b₁.Sure := hs.of_length_le (Nat.le_of_eq hlook.2.1)
    have hclear := rested_clearFlags b₁
    unfold Runs at hclear
    cases l with
    | nothing => exact hrested
    | garbled =>
      simp only
      cases hr' : clearFlags b₁ with
      | error e b₂ =>
        rw [hr'] at hclear
        exact (hs₁.not_faulted hclear).elim
      | ok u b₂ =>
        rw [hr'] at hclear
        exact hclear
    | frame data signal =>
      simp only
      cases hr' : clearFlags b₁ with
      | error e b₂ =>
        rw [hr'] at hclear
        exact (hs₁.not_faulted hclear).elim
      | ok u b₂ =>
        rw [hr'] at hclear
        exact hclear

theorem rested_runLooks (d : Driver) (hl : Listens b.board.chip) (hs : b.board.Sure) (looks : Nat) :
    (d.runLooks looks b).state.1.board.chip.flagged Irq.rxDone = false := by
  induction looks generalizing d b with
  | zero =>
    have hrested := d.rested_lookOnce hl hs
    cases hr : (d.lookOnce b).result with
    | none => rwa [runLooks_zero d b hr]
    | some r => rwa [runLooks_some d b hr]
  | succ looks ih =>
    cases hr : (d.lookOnce b).result with
    | none =>
      rw [(runLooks_succ d b hr looks).1]
      exact ih _ (d.listens_lookOnce hl hr)
        (d.stays_lookOnce (stays_look sure_readBytes (sure_writeByte _) _) (sure_writeByte _ _) hs)
    | some r =>
      rw [runLooks_some d b hr]
      exact d.rested_lookOnce hl hs

theorem stays_runChecks {P : Board → Prop} (d : Driver)
    (hcheck : Stays P (Chip.checkTransmit d.config)) (habandon : Stays P (abandonTransmit d.config))
    (h : P b.board) (looks : Nat) : P (d.runChecks looks b).state.board := by
  have honce (b : Bench) (h : P b.board) : P (d.checkOnce b).1.board := by
    have hfinal := stays_onBoard hcheck h
    unfold checkOnce
    split <;> rename_i he <;> rwa [he] at hfinal
  induction looks generalizing b with
  | zero =>
    have hfirst := honce b h
    rcases hc : d.checkOnce b with ⟨b', _ | r⟩ <;> rw [hc] at hfirst
    · rw [(runChecks_zero hc).1]
      exact stays_onBoard habandon hfirst
    · rwa [runChecks_some hc]
  | succ looks ih =>
    have hfirst := honce b h
    rcases hc : d.checkOnce b with ⟨b', _ | r⟩ <;> rw [hc] at hfirst
    · rw [(runChecks_succ hc looks).1]
      exact ih hfirst
    · rwa [runChecks_some hc]

/-- An opening of a healthy board fails only for a configuration that is out of range. -/
theorem runOpen_of_healthy (h : b.board.Healthy sent) (c : Config) :
    let e := runOpen .board c b
    e.state.board.Healthy sent ∧ e.state.board.chip.awaited = b.board.chip.awaited ∧
    match c.fault? with
    | some fault => e.result.1 = .error fault.toError
    | none => ∃ d, e.result.1 = .ok d ∧ Attentive d e.state := by
  intro e
  refine ⟨stays_runOpen healthy_claim healthy_identify (healthy_bringUp c) h, ?_⟩
  cases hv : c.fault? with
  | some fault =>
    have hclaimed : b.onBoard claim = (b, .ok ()) := by
      unfold Bench.onBoard claim
      rw [h.claimable]
    have hrun : e = { state := b, result := (.error fault.toError, 0) } := by
      simp [e, runOpen, beginOpen, hclaimed, hv]
    rw [hrun]
    exact ⟨rfl, rfl⟩
  | none =>
    have hbegun : (beginOpen .board c b).state.board.Healthy sent :=
      stays_beginOpen healthy_claim healthy_identify h
    -- nothing that an opening can fail of is so
    rcases beginOpen_cases .board (by simp) hv b
      with ⟨-, -, hclaim | hversion | hm⟩ | ⟨hr, -, hspeaks⟩
    · exact absurd h.claimable hclaim
    · exact absurd h.chip.version hversion
    · exact (h.sure.not_met _ hm).elim
    rcases finishOpen_cases c (beginOpen .board c b).state with ⟨-, -, hmute | hm⟩ | ⟨hr', -, -⟩
    · rw [hspeaks, h.chip.lora] at hmute
      cases hmute
    · exact (hbegun.sure.not_met _ hm).elim
    have hopen : e.result.1 = .ok { config := c } := by simp only [e, runOpen, hr, hr']
    have hback := (back_runOpen hopen).2.2
    refine ⟨congrArg (List.map Arrival.data) hback.air.arrivals, _, hopen, ?_⟩
    exact ⟨Session.ready_runOpen hopen h.sure, hback.listens fun f hf => (h.chip.good f hf).toSound,
      hback.flagged _⟩

theorem runTransmit_of_healthy (h : b.board.Healthy sent) (ha : Attentive d b)
    (hl : payload.length ≤ payloadLimit) :
    let e := d.runTransmit .board payload b
    e.result.1 = .ok () ∧ e.state.board.Healthy (sent ++ [payload]) ∧
      e.state.board.chip.awaited = b.board.chip.awaited ∧ Attentive d e.state := by
  intro e
  obtain ⟨hresult, -, hback, -⟩ := ha.ready.transmits hl
  obtain ⟨board, hbegin, hbegun⟩ := beginTransmit_of_healthy h d.config hl ha.ready.txBase
  obtain ⟨looks, hlooks⟩ := Option.isSome_iff_exists.mp h.chip.finishes
  refine ⟨hresult.trans (congrArg verdict hlooks), ?_,
    congrArg (List.map Arrival.data) hback.air.arrivals, ha.ready.transmit payload,
    hback.listens fun f hf => (h.chip.good f hf).toSound, hback.flagged _⟩
  show (d.runTransmit .board payload b).state.board.Healthy _
  rw [(d.runTransmit_begun payload hbegin).1]
  exact d.stays_runChecks (b := { b with board }) (healthy_checkTransmit _)
    (healthy_abandonTransmit _)
    hbegun _

/-- A receive that takes any time returns the next frame; only if there is none it returns
nothing. -/
theorem runReceive_of_healthy (h : b.board.Healthy sent) (ha : Attentive d b) {timeout : Nat}
    (ht : 0 < timeout) :
    let e := d.runReceive .board timeout b
    e.state.1.board.Healthy sent ∧ Attentive e.state.2 e.state.1 ∧
    (b.board.chip.awaited = [] ∧ e.result.1 = .ok none ∧ e.state.1.board.chip.awaited = [] ∨
      ∃ data, e.result.1 = .ok (some data) ∧
        b.board.chip.awaited = data :: e.state.1.board.chip.awaited) := by
  intro e
  have hhealthy : e.state.1.board.Healthy sent :=
    d.stays_runReceive (healthy_look _) healthy_clearFlags h timeout
  have hconfig : e.state.2.config = d.config := (d.runReceive_keeps .board b timeout).2.1
  have hready : Session.Ready d.config ⟨e.state.1, e.state.2, []⟩ := by
    have hr := ha.ready.receive timeout
    exact ⟨hr.config, hr.lora, hr.mode, hr.programmed, hr.sure⟩
  have hrested : e.state.1.board.chip.flagged Irq.rxDone = false := by
    show (d.runReceive .board timeout b).state.1.board.chip.flagged _ = _
    rw [(runReceive_board d timeout b).1]
    exact d.rested_runLooks ha.listens h.sure _
  have attentive (hl : Listens e.state.1.board.chip) : Attentive e.state.2 e.state.1 :=
    ⟨hconfig ▸ hready, hl, hrested⟩
  have howed (hl : Listens e.state.1.board.chip) :
      (owed d.config e.state.1.board.chip).map Prod.fst = e.state.1.board.chip.awaited := by
    rw [← hconfig, (attentive hl).owed, data_intact hhealthy.chip.good]
  have howed' : (owed d.config b.board.chip).map Prod.fst = b.board.chip.awaited := by
    rw [ha.owed, data_intact h.chip.good]
  have hcomes := d.receives_runReceive ha.listens timeout
  have hwaits := (d.runReceive_waits ha.listens timeout).2 ht
  show e.state.1.board.Healthy sent ∧ _
  change Receives d.config b e.state.1 e.state.2.signal e.result.1 at hcomes
  change e.result.1 = _ → owed d.config e.state.1.board.chip = [] at hwaits
  generalize e.result.1 = r at hcomes hwaits ⊢
  cases hcomes with
  | failed error hc hm => exact (h.sure.not_met _ hm).elim
  | nothing hc hn hf =>
    have hnone := hwaits rfl
    refine ⟨hhealthy, attentive hc.listens, .inl ⟨?_, rfl, ?_⟩⟩
    · rw [← howed', ← hc.owed, hnone, List.map_nil]
    · rw [← howed hc.listens, hnone, List.map_nil]
  | frame data hl ho =>
    refine ⟨hhealthy, attentive hl, .inr ⟨data, rfl, ?_⟩⟩
    rw [← howed', ho, List.map_cons, howed hl]

theorem sleep_of_healthy (h : b.board.Healthy sent) (d : Driver) :
    (d.sleep .board b).1.board.Healthy sent ∧
      (d.sleep .board b).1.board.chip.awaited = b.board.chip.awaited := by
  have hair : Keeps (SameAir b.board.chip) (putToSleep d.config) :=
    keeps_writeAll fun w _ chip hs => hs.trans (sameAir_write chip w.1 w.2)
  have hsame : SameAir b.board.chip (d.sleep .board b).1.board.chip :=
    stays_onBoard (P := fun board => SameAir b.board.chip board.chip) hair (.refl _)
  exact ⟨stays_onBoard (healthy_putToSleep d.config) h,
    congrArg (List.map Arrival.data) hsame.arrivals⟩

end Driver

end RadioGateway.Station
