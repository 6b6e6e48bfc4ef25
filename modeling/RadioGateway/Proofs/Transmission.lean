import RadioGateway.Proofs.Reception

/-!
# A transmission leaves the receiving mode and comes back

Between the switch to standby and the end of a transmission the chip does not receive. What is on
its way stays there, until the chip is told to receive again.
-/

namespace RadioGateway.Chip

open RadioGateway.Radio (Config RadioError)

variable {chip chip' chip'' : Chip} {c : Config} {b b' : Board}

-- ---------------------------------------------------------------------------
-- What accesses leave alone
-- ---------------------------------------------------------------------------

/-- What is on its way, and whether the chip refuses LoRa. -/
structure SameAir (chip chip' : Chip) : Prop where
  arrivals : chip'.arrivals = chip.arrivals
  refusesLora : chip'.refusesLora = chip.refusesLora

theorem SameAir.refl (chip : Chip) : SameAir chip chip := ⟨rfl, rfl⟩

theorem SameAir.trans (h : SameAir chip chip') (h' : SameAir chip' chip'') : SameAir chip chip'' :=
  ⟨h'.arrivals.trans h.arrivals, h'.refusesLora.trans h.refusesLora⟩

theorem sameAir_enterMode (chip : Chip) (mode : UInt8) : SameAir chip (chip.enterMode mode) := by
  unfold enterMode
  simp only
  generalize (if chip.refusesLora then mode &&& ~~~Mode.longRange else mode) = mode
  split <;> exact ⟨rfl, rfl⟩

theorem sameAir_write (chip : Chip) (a : Address) (bytes : List UInt8) :
    SameAir chip (chip.write a bytes) := by
  unfold write
  split
  · exact ⟨rfl, rfl⟩
  · split
    · cases bytes <;> exact ⟨rfl, rfl⟩
    · split
      · cases bytes with
        | nil => exact .refl chip
        | cons v rest => exact sameAir_enterMode chip v
      · exact ⟨rfl, rfl⟩

theorem sameAir_writes (chip : Chip) (ws : List RegisterWrite) : SameAir chip (chip.writes ws) := by
  induction ws generalizing chip with
  | nil => exact .refl chip
  | cons w rest ih => exact (sameAir_write chip w.1 w.2).trans (ih _)

theorem sameAir_tickTransmission (chip : Chip) : SameAir chip chip.tickTransmission := by
  unfold tickTransmission
  split <;> exact ⟨rfl, rfl⟩

@[simp] theorem refusesLora_tick (chip : Chip) : chip.tick.refusesLora = chip.refusesLora := by
  rw [← (sameAir_tickTransmission chip).refusesLora]
  unfold tick tickArrival
  split
  · split
    · rfl
    · split <;> rfl
  · rfl

-- ---------------------------------------------------------------------------
-- Out of the receiving mode
-- ---------------------------------------------------------------------------

/-- The chip does not receive; what was on its way still is. -/
structure Deaf (chip chip' : Chip) : Prop where
  mode : Mode.of (chip'.get Register.opMode) ≠ Mode.receive
  air : SameAir chip chip'

theorem Deaf.trans (h : SameAir chip chip') (h' : Deaf chip' chip'') : Deaf chip chip'' :=
  ⟨h'.mode, h.trans h'.air⟩

theorem Deaf.tick (h : Deaf chip chip') : Deaf chip chip'.tick := by
  have hmode : chip'.tickTransmission.get Register.opMode = chip'.get Register.opMode :=
    get_tickTransmission_of_ne (by decide)
  have htick : chip'.tick = chip'.tickTransmission := by
    unfold Chip.tick tickArrival listening
    rw [hmode, if_neg]
    simp [h.mode]
  rw [htick]
  exact ⟨by rw [hmode]; exact h.mode, h.air.trans (sameAir_tickTransmission chip')⟩

theorem Deaf.read (h : Deaf chip chip') (a : Address) (count : Nat) :
    Deaf chip (chip'.read a count).1 := by
  simp only [Chip.read]
  split
  · refine ⟨?_, h.air.trans ⟨rfl, rfl⟩⟩
    rw [setFifoPointer, get_set_of_ne _ (by decide)]
    exact h.mode
  · split
    · exact h.tick
    · exact h

/-- Only a write to the mode register can bring the chip back. -/
theorem Deaf.write (h : Deaf chip chip') {w : RegisterWrite}
    (hw : Register.opMode ∉ touched (place w)) : Deaf chip (chip'.write w.1 w.2) := by
  refine ⟨?_, h.air.trans (sameAir_write chip' w.1 w.2)⟩
  rw [get_write_of_not_mem hw]
  exact h.mode

theorem mode_of_enterMode (chip : Chip) (mode : UInt8) :
    Mode.of ((chip.enterMode mode).get Register.opMode) = Mode.of mode := by
  have hand : Mode.of (mode &&& ~~~Mode.longRange) = Mode.of mode := by
    unfold Mode.of
    rw [UInt8.and_assoc, show ~~~Mode.longRange &&& (0x07 : UInt8) = 0x07 by decide]
  rw [get_enterMode_self]
  cases chip.refusesLora
  · rfl
  · exact hand

theorem mode_of_modeByte (c : Config) {mode : UInt8}
    (h : mode ∈ [Mode.sleep, Mode.standby, Mode.transmit, Mode.receive]) :
    Mode.of (modeByte c mode) = mode := by
  simp only [List.mem_cons, List.not_mem_nil, or_false] at h
  unfold modeByte
  split
  · rcases h with rfl | rfl | rfl | rfl <;> rfl
  · rcases h with rfl | rfl | rfl | rfl <;> rfl

theorem deaf_enterMode (chip : Chip) (c : Config) {mode : UInt8}
    (h : mode ∈ [Mode.sleep, Mode.standby, Mode.transmit]) :
    Deaf chip (chip.enterMode (modeByte c mode)) := by
  simp only [List.mem_cons, List.not_mem_nil, or_false] at h
  refine ⟨?_, sameAir_enterMode chip _⟩
  rw [mode_of_enterMode]
  rcases h with rfl | rfl | rfl
  · rw [mode_of_modeByte c (by simp)]
    decide
  · rw [mode_of_modeByte c (by simp)]
    decide
  · rw [mode_of_modeByte c (by simp)]
    decide

-- ---------------------------------------------------------------------------
-- Back in the receiving mode
-- ---------------------------------------------------------------------------

/-- In the mode in which a chip that was opened for a configuration receives continuously. -/
def receiving (c : Config) (chip : Chip) : Prop :=
  chip.get Register.opMode = modeByte c Mode.receive

instance (c : Config) (chip : Chip) : Decidable (receiving c chip) :=
  inferInstanceAs (Decidable (_ = _))

theorem countdown_receive (c : Config) (chip : Chip) :
    (chip.enterMode (modeByte c Mode.receive)).countdown = none := by
  have hmode := mode_of_enterMode chip (modeByte c Mode.receive)
  rw [mode_of_modeByte c (by simp), get_enterMode_self] at hmode
  unfold enterMode
  simp only
  rw [if_neg (by rw [hmode]; decide)]

theorem receiving.mode (h : receiving c chip) :
    Mode.of (chip.get Register.opMode) = Mode.receive := by
  rw [h]
  exact mode_of_modeByte c (by simp)

theorem Deaf.not_receiving (h : Deaf chip chip') : ¬receiving c chip' := fun hr => h.mode hr.mode

/-- The chip receives, and nothing that came in before is left. -/
structure Back (c : Config) (chip chip' : Chip) : Prop where
  mode : receiving c chip'
  countdown : chip'.countdown = none
  clear : chip'.get Register.irqFlags = 0
  air : SameAir chip chip'

theorem Back.flagged (h : Back c chip chip') (bit : UInt8) : chip'.flagged bit = false := by
  simp [Chip.flagged, h.clear, Irq.raised]

theorem Back.listens (h : Back c chip chip') (hs : ∀ f ∈ chip.arrivals, f.Sound) : Listens chip' :=
  ⟨h.mode.mode, h.countdown, fun _ => h.flagged _, h.air.arrivals ▸ hs⟩

theorem Back.owed (h : Back c chip chip') : owed c chip' = intact c chip.arrivals := by
  unfold Chip.owed
  rw [held?_eq_none (h.flagged _), h.air.arrivals]
  rfl

theorem back_listen (c : Config) (chip : Chip) (h : chip.refusesLora = false) :
    Back c chip (chip.writes (listen c)) := by
  have hair : SameAir chip (chip.writes (listen c)) := sameAir_writes chip (listen c)
  have hlast : chip.writes (listen c) =
      ((chip.set Register.irqFlags (chip.get Register.irqFlags &&& ~~~Irq.all)).set
        Register.fifoPointer 0x00).enterMode (modeByte c Mode.receive) := rfl
  refine ⟨?_, ?_, ?_, hair⟩
  · unfold receiving
    rw [hlast, get_enterMode_self, if_neg (by simp [Chip.set, h])]
  · rw [hlast]
    exact countdown_receive c _
  · rw [hlast, get_enterMode_of_ne _ (by decide), get_set_of_ne _ (by decide), get_set_self,
      show ~~~Irq.all = 0 by decide, UInt8.and_zero]

theorem Back.trans (h : SameAir chip chip') (h' : Back c chip' chip'') : Back c chip chip'' :=
  ⟨h'.mode, h'.countdown, h'.clear, h.trans h'.air⟩

theorem back_configure (c : Config) (chip : Chip) (h : chip.refusesLora = false) :
    Back c chip (chip.writes (configure c)) := by
  have hsplit : chip.writes (configure c) =
      (chip.writes (baseAddresses ++ setMode c Mode.standby :: settings c)).writes (listen c) := by
    unfold configure writes
    exact List.foldl_append
  have hair := sameAir_writes chip (baseAddresses ++ setMode c Mode.standby :: settings c)
  rw [hsplit]
  exact .trans hair (back_listen c _ (hair.refusesLora.trans h))

-- ---------------------------------------------------------------------------
-- The steps of a transmission
-- ---------------------------------------------------------------------------

/-- The next access of a kind at an address will meet a fault. -/
def Board.meets (b : Board) (kind : AccessKind) (a : Address) : Bool :=
  (meetFault kind (some a) b.faults).1.isSome

theorem writeBytes_of_meets {a : Address} (bytes : List UInt8) (h : b.meets .write a = true) :
    ∃ e b', writeBytes a bytes b = .error (.bus e) b' ∧ Faulted b b' := by
  rcases writeBytes_cases a bytes b with hfaulted | ⟨b', he, ha⟩
  · exact hfaulted
  · unfold writeBytes access at he
    unfold Board.meets at h
    split at he
    · cases he
    · rename_i hmet
      simp [hmet] at h

theorem writeBytes_of_not_meets {a : Address} (bytes : List UInt8) (h : b.meets .write a = false) :
    ∃ b', writeBytes a bytes b = .ok () b' ∧ Accessed b b' (b.chip.write a bytes) := by
  rcases writeBytes_cases a bytes b with ⟨e, b', he, hf⟩ | haccessed
  · unfold writeBytes access at he
    unfold Board.meets at h
    split at he
    · rename_i hmet
      simp [hmet] at h
    · cases he
  · exact haccessed

/-- Work that leaves the chip deaf when it meets a fault, and comes to something else when it meets
none. -/
def Stalls {α : Type} (chip : Chip) (x : Bus α) (b : Board) (done : α → Chip → Prop) : Prop :=
  Runs x b (fun a b' => b'.faults.length = b.faults.length ∧ done a b'.chip)
    (fun b' => Met b b' ∧ Deaf chip b'.chip)

/-- Writing adds nothing to the faults to come. -/
theorem faults_writeAll (ws : List RegisterWrite) (b : Board) :
    (final (writeAll ws) b).faults.length ≤ b.faults.length := by
  unfold final
  induction ws generalizing b with
  | nil => exact Nat.le_refl _
  | cons w rest ih =>
    rcases writeBytes_cases w.1 w.2 b with ⟨e, b₁, he, hf⟩ | ⟨b₁, he, ha⟩
    · have hw : writeAll (w :: rest) b = .error (.bus e) b₁ := bind_error _ he
      rw [hw]
      exact Nat.le_of_lt hf.met
    · have hw : writeAll (w :: rest) b = writeAll rest b₁ := bind_ok _ he
      rw [hw, ← ha.faults]
      exact ih b₁

theorem stalls_listen (c : Config) (hd : Deaf chip b.chip) (hr : chip.refusesLora = false) :
    Stalls chip (writeAll (listen c)) b (fun _ chip' => Back c chip chip') := by
  have hstart : b.chip.refusesLora = false := hd.air.refusesLora.trans hr
  -- as long as the mode has not been written the chip stays deaf
  have hd₁ : Deaf chip (b.chip.write Register.irqFlags [Irq.all]) :=
    hd.write (w := (Register.irqFlags, [Irq.all])) (by decide)
  have hd₂ :
      Deaf chip ((b.chip.write Register.irqFlags [Irq.all]).write Register.fifoPointer [0x00]) :=
    hd₁.write (w := (Register.fifoPointer, [0x00])) (by decide)
  show Runs (writeByte Register.irqFlags Irq.all >>= fun _ =>
    writeByte Register.fifoPointer 0x00 >>= fun _ =>
    writeByte Register.opMode (modeByte c Mode.receive) >>= fun _ => pure ()) b _ _
  refine (runs_writeByte _ _ b).bind (fun _ hf => ⟨hf.met, by rw [hf.chip]; exact hd⟩) ?_
  rintro - b₁ ha₁
  refine (runs_writeByte _ _ b₁).bind
    (fun _ hf => ⟨ha₁.met_iff.mpr hf.met, by rw [hf.chip, ha₁.chip]; exact hd₁⟩) ?_
  rintro - b₂ ha₂
  refine (runs_writeByte _ _ b₂).bind
    (fun _ hf => ⟨ha₁.met_iff.mpr (ha₂.met_iff.mpr hf.met), by
      rw [hf.chip, ha₂.chip, ha₁.chip]
      exact hd₂⟩) ?_
  rintro - b₃ ha₃
  refine runs_pure ⟨ha₃.faults.trans (ha₂.faults.trans ha₁.faults), ?_⟩
  rw [ha₃.chip, ha₂.chip, ha₁.chip]
  exact (back_listen c b.chip hstart).trans hd.air

theorem stalls_checkTransmit (c : Config) (hd : Deaf chip b.chip) (hr : chip.refusesLora = false) :
    Stalls chip (checkTransmit c) b
      (fun done chip' => if done then Back c chip chip' else Deaf chip chip') := by
  unfold checkTransmit
  refine (runs_readByte _ b).bind (fun _ hf => ⟨hf.met, by rw [hf.chip]; exact hd⟩) ?_
  rintro flags b₁ ⟨-, ha⟩
  have hd₁ : Deaf chip b₁.chip := by
    rw [ha.chip]
    exact hd.read _ _
  split
  · refine Runs.bind (stalls_listen c hd₁ hr) (fun _ hf => ⟨ha.met_iff.mpr hf.1, hf.2⟩) ?_
    rintro - b₂ ⟨hfaults, hb⟩
    exact runs_pure ⟨hfaults.trans ha.faults, hb⟩
  · exact runs_pure ⟨ha.faults, hd₁⟩

/-- Giving up fails in any case. Unless it meets a fault the chip listens again. -/
theorem abandonTransmit_cases (c : Config) (hd : Deaf chip b.chip) (hr : chip.refusesLora = false) :
    (∃ e b', abandonTransmit c b = .error e b' ∧ Met b b' ∧ Deaf chip b'.chip) ∨
    ∃ b', abandonTransmit c b = .error (.timeout "transmit did not complete") b' ∧
      b'.faults.length = b.faults.length ∧ Back c chip b'.chip := by
  have hlisten := stalls_listen c hd hr
  unfold Stalls Runs at hlisten
  unfold abandonTransmit
  cases hw : writeAll (listen c) b with
  | error e b' =>
    rw [hw] at hlisten
    exact .inl ⟨e, b', bind_error _ hw, hlisten⟩
  | ok u b' =>
    rw [hw] at hlisten
    exact .inr ⟨b', bind_ok _ hw, hlisten⟩

/-- All that is written before a transmission, but for the switch to standby, keeps the chip
deaf. -/
theorem deaf_launch (c : Config) (payload : List UInt8) :
    Keeps (Deaf chip) (writeAll (launch c payload).tail) := by
  have hport : Register.opMode ∉ touched (Register.fifo, payload.length) := by
    show Register.opMode ∉ [Register.fifoPointer]
    decide
  refine keeps_writeAll fun w hw chip' hd => ?_
  simp only [launch, List.tail_cons, List.mem_cons, List.not_mem_nil, or_false] at hw
  rcases hw with rfl | rfl | rfl | rfl | rfl
  · exact hd.write (by decide)
  · exact hd.write hport
  · exact hd.write (show Register.opMode ∉ touched (Register.payloadLength, 1) by decide)
  · exact hd.write (by decide)
  · exact .trans hd.air (deaf_enterMode chip' c (by simp))

/-- A transmission that is let in begins with the switch to standby. Only when that meets a fault
does the chip stay in the mode that it was in. -/
theorem beginTransmit_cases (c : Config) {payload : List UInt8}
    (hfits : payload.length ≤ payloadLimit) (b : Board) :
    (∃ e b', beginTransmit c payload b = .error e b' ∧ Met b b' ∧
      if b.meets .write Register.opMode then b'.chip = b.chip else Deaf b.chip b'.chip) ∨
    ∃ b', beginTransmit c payload b = .ok () b' ∧ b'.faults.length = b.faults.length ∧
      b.meets .write Register.opMode = false ∧ Deaf b.chip b'.chip := by
  unfold beginTransmit
  rw [if_neg (Nat.not_lt.mpr hfits)]
  cases hmeets : b.meets .write Register.opMode with
  | true =>
    obtain ⟨e, b', he, hf⟩ := writeBytes_of_meets [modeByte c Mode.standby] hmeets
    exact .inl ⟨_, b', bind_error _ he, hf.met, hf.chip⟩
  | false =>
    obtain ⟨b₁, he, ha⟩ := writeBytes_of_not_meets [modeByte c Mode.standby] hmeets
    have hd₁ : Deaf b.chip b₁.chip := by
      rw [ha.chip]
      exact deaf_enterMode b.chip c (by simp)
    have hkeeps := deaf_launch c payload b₁ hd₁
    have hspent := faults_writeAll (launch c payload).tail b₁
    have hfirst : writeAll (launch c payload) b = writeAll (launch c payload).tail b₁ :=
      bind_ok _ he
    rw [hfirst]
    unfold final at hkeeps hspent
    rcases writeAll_cases (launch c payload).tail b₁ with ⟨e, b₂, he₂, hm⟩ | ⟨b₂, he₂, hm, -⟩
    · rw [he₂] at hkeeps
      exact .inl ⟨e, b₂, he₂, ha.met_iff.mpr hm, hkeeps⟩
    · rw [he₂] at hkeeps hspent
      have hfaults : b₂.faults.length = b₁.faults.length :=
        Nat.le_antisymm hspent (Nat.not_lt.mp hm)
      exact .inr ⟨b₂, he₂, hfaults.trans ha.faults, rfl, hkeeps⟩

-- ---------------------------------------------------------------------------
-- Looks for a frame
-- ---------------------------------------------------------------------------

/-- The mode register, and whether the chip refuses LoRa. -/
structure SameMode (chip chip' : Chip) : Prop where
  mode : chip'.get Register.opMode = chip.get Register.opMode
  refusesLora : chip'.refusesLora = chip.refusesLora

theorem SameMode.refl (chip : Chip) : SameMode chip chip := ⟨rfl, rfl⟩

theorem SameMode.read (h : SameMode chip chip') (a : Address) (count : Nat) :
    SameMode chip (chip'.read a count).1 := by
  simp only [Chip.read]
  split
  · exact ⟨(get_set_of_ne _ (by decide)).trans h.mode, h.refusesLora⟩
  · split
    · exact ⟨(get_tick_of_not_mem (by decide)).trans h.mode,
        (refusesLora_tick chip').trans h.refusesLora⟩
    · exact h

theorem SameMode.write (h : SameMode chip chip') {w : RegisterWrite}
    (hw : Register.opMode ∉ touched (place w)) : SameMode chip (chip'.write w.1 w.2) :=
  ⟨(get_write_of_not_mem hw).trans h.mode,
    (sameAir_write chip' w.1 w.2).refusesLora.trans h.refusesLora⟩

theorem opMode_spared (v : UInt8) : Register.opMode ∉ touched (place (Register.fifoPointer, [v])) :=
  show Register.opMode ∉ touched (Register.fifoPointer, 1) by decide

theorem sameMode_look (c : Config) : Keeps (SameMode chip) (look c) :=
  keeps_look (fun _ a count h => h.read a count) (fun _ v h => h.write (opMode_spared v)) c

theorem sameMode_clearFlags : Keeps (SameMode chip) clearFlags :=
  keeps_writeBytes fun _ h => h.write (w := (Register.irqFlags, [Irq.all])) (by decide)

theorem deaf_look (c : Config) : Keeps (Deaf chip) (look c) :=
  keeps_look (fun _ a count h => h.read a count) (fun _ v h => h.write (opMode_spared v)) c

theorem deaf_clearFlags : Keeps (Deaf chip) clearFlags :=
  keeps_writeBytes fun _ h => h.write (w := (Register.irqFlags, [Irq.all])) (by decide)

end RadioGateway.Chip
