import RadioGateway.Proofs.Settings

/-!
# Frames at the chip

A chip that listens owes the frame that it holds and those on their way to it. Nothing that a look
for a frame does changes what is owed, until the flags are cleared.
-/

namespace RadioGateway.Chip

open RadioGateway.Radio (Config Signal)

variable {chip chip' chip'' : Chip} {c : Config}

-- ---------------------------------------------------------------------------
-- Frames
-- ---------------------------------------------------------------------------

/-- A frame that can be told of: it fits into its length byte, and it raises that something has been
received. -/
structure Arrival.Sound (f : Arrival) : Prop where
  fits : f.data.length ≤ 255
  reported : Irq.raised f.flags Irq.rxDone = true

def Arrival.garbled (f : Arrival) : Bool := Irq.raised f.flags Irq.crcError

abbrev Reading := List UInt8 × Signal

def Arrival.reading (c : Config) (f : Arrival) : Reading := (f.data, packetSignal c f.snr f.rssi)

def intact (c : Config) (frames : List Arrival) : List Reading :=
  (frames.filter fun f => !f.garbled).map (Arrival.reading c)

/-- What the registers and the packet memory tell of the last frame. -/
def lastReading (c : Config) (chip : Chip) : Reading :=
  (chip.packets.load (packetAddress (chip.get Register.rxCurrent))
      (chip.get Register.rxBytes).toNat,
    packetSignal c (chip.get Register.packetSnr) (chip.get Register.packetRssi))

def flagged (chip : Chip) (bit : UInt8) : Bool := Irq.raised (chip.get Register.irqFlags) bit

/-- The frame that waits to be read. -/
def held? (c : Config) (chip : Chip) : Option Reading :=
  if chip.flagged Irq.rxDone && !chip.flagged Irq.crcError then some (lastReading c chip) else none

/-- The frame that waits to be read and those on their way. -/
def owed (c : Config) (chip : Chip) : List Reading :=
  (held? c chip).toList ++ intact c chip.arrivals

/-- Ready for frames, and between two of them without a trace of the last one. -/
structure Listens (chip : Chip) : Prop where
  mode : Mode.of (chip.get Register.opMode) = Mode.receive
  countdown : chip.countdown = none
  clear : chip.flagged Irq.rxDone = false → chip.flagged Irq.crcError = false
  sound : ∀ f ∈ chip.arrivals, f.Sound

-- ---------------------------------------------------------------------------
-- What the pointer does not matter for
-- ---------------------------------------------------------------------------

/-- The same but for the pointer into the packet memory. -/
structure SameFrames (chip chip' : Chip) : Prop where
  registers : ∀ x, x ≠ Register.fifoPointer → chip'.get x = chip.get x
  packets : chip'.packets = chip.packets
  countdown : chip'.countdown = chip.countdown
  arrivals : chip'.arrivals = chip.arrivals

theorem sameFrames_set (chip : Chip) (v : UInt8) :
    SameFrames chip (chip.set Register.fifoPointer v) :=
  ⟨fun _ hx => get_set_of_ne v hx, rfl, rfl, rfl⟩

theorem SameFrames.refl (chip : Chip) : SameFrames chip chip := ⟨fun _ _ => rfl, rfl, rfl, rfl⟩

theorem SameFrames.trans (h : SameFrames chip chip') (h' : SameFrames chip' chip'') :
    SameFrames chip chip'' :=
  ⟨fun x hx => (h'.registers x hx).trans (h.registers x hx), h'.packets.trans h.packets,
    h'.countdown.trans h.countdown, h'.arrivals.trans h.arrivals⟩

theorem SameFrames.flagged (h : SameFrames chip chip') (bit : UInt8) :
    chip'.flagged bit = chip.flagged bit := by
  unfold Chip.flagged
  rw [h.registers _ (by decide)]

theorem SameFrames.held? (h : SameFrames chip chip') : held? c chip' = held? c chip := by
  unfold Chip.held? lastReading
  rw [h.flagged, h.flagged, h.packets, h.registers Register.rxCurrent (by decide),
    h.registers Register.rxBytes (by decide), h.registers Register.packetSnr (by decide),
    h.registers Register.packetRssi (by decide)]

theorem SameFrames.owed (h : SameFrames chip chip') : owed c chip' = owed c chip := by
  unfold Chip.owed
  rw [h.held?, h.arrivals]

theorem Listens.sameFrames (hl : Listens chip) (h : SameFrames chip chip') : Listens chip' := by
  refine ⟨?_, h.countdown.trans hl.countdown, ?_, ?_⟩
  · rw [h.registers _ (by decide)]
    exact hl.mode
  · rw [h.flagged, h.flagged]
    exact hl.clear
  · rw [h.arrivals]
    exact hl.sound

/-- The chip goes on listening, owes the same, and still holds the frame that it holds. -/
structure Carries (c : Config) (chip chip' : Chip) : Prop where
  listens : Listens chip'
  owed : owed c chip' = owed c chip
  held : ∀ r, held? c chip = some r → held? c chip' = some r

theorem Carries.refl (h : Listens chip) : Carries c chip chip := ⟨h, rfl, fun _ hr => hr⟩

theorem Carries.trans (h : Carries c chip chip') (h' : Carries c chip' chip'') :
    Carries c chip chip'' :=
  ⟨h'.listens, h'.owed.trans h.owed, fun r hr => h'.held r (h.held r hr)⟩

/-- What is held does not come from nowhere. -/
theorem Carries.held?_eq_none (h : Carries c chip chip') (hn : held? c chip' = none) :
    held? c chip = none := by
  cases hr : held? c chip with
  | none => rfl
  | some r => cases (h.held r hr).symm.trans hn

theorem SameFrames.carries (h : SameFrames chip chip') (hl : Listens chip) : Carries c chip chip' :=
  ⟨hl.sameFrames h, h.owed, fun _ hr => h.held?.trans hr⟩

-- ---------------------------------------------------------------------------
-- What happens by itself
-- ---------------------------------------------------------------------------

theorem raised_or (x y bit : UInt8) :
    Irq.raised (x ||| y) bit = (Irq.raised x bit || Irq.raised y bit) := by
  have hor : (x ||| y) &&& bit = (x &&& bit) ||| (y &&& bit) :=
    UInt8.toBitVec_inj.mp BitVec.and_or_distrib_right
  unfold Irq.raised
  rw [hor, Bool.eq_iff_iff]
  by_cases hx : x &&& bit = 0 <;> by_cases hy : y &&& bit = 0 <;> simp [hx, hy]

theorem packetAddress_byteOf (a : Fin 256) : packetAddress (byteOf a) = a := by
  ext
  simp [packetAddress, byteOf]

section Deliver

variable {f : Arrival}

theorem flagged_deliver (chip : Chip) (f : Arrival) (bit : UInt8) :
    (chip.deliver f).flagged bit = (chip.flagged bit || Irq.raised f.flags bit) := by
  have hget : (chip.deliver f).get Register.irqFlags = chip.get Register.irqFlags ||| f.flags := by
    simp [deliver, get_set, Register.irqFlags, Register.packetRssi, Register.packetSnr,
      Register.rxBytes, Register.rxCurrent]
    rfl
  unfold flagged
  rw [hget, raised_or]

/-- What is told of a frame that has come in is that frame, byte for byte. -/
theorem lastReading_deliver (c : Config) (chip : Chip) (h : f.Sound) :
    lastReading c (chip.deliver f) = f.reading c := by
  have hlength : (UInt8.ofNat f.data.length).toNat = f.data.length := by
    have := h.fits
    simp only [UInt8.toNat_ofNat']
    omega
  have hbase : (chip.deliver f).get Register.rxCurrent = byteOf f.base := by
    simp [deliver, get_set, Register.irqFlags, Register.packetRssi, Register.packetSnr,
      Register.rxBytes, Register.rxCurrent]
  have hbytes : (chip.deliver f).get Register.rxBytes = UInt8.ofNat f.data.length := by
    simp [deliver, get_set, Register.irqFlags, Register.packetRssi, Register.packetSnr,
      Register.rxBytes]
  have hsnr : (chip.deliver f).get Register.packetSnr = f.snr := by
    simp [deliver, get_set, Register.irqFlags, Register.packetRssi, Register.packetSnr]
  have hrssi : (chip.deliver f).get Register.packetRssi = f.rssi := by
    simp [deliver, get_set, Register.irqFlags, Register.packetRssi]
  have hdata : (chip.packets.store f.base f.data).load f.base f.data.length = f.data :=
    Memory.load_store (by have := h.fits; omega)
  unfold lastReading
  rw [hbase, packetAddress_byteOf, hbytes, hlength, hsnr, hrssi]
  exact congrArg (·, packetSignal c f.snr f.rssi) hdata

theorem held?_eq_none (h : chip.flagged Irq.rxDone = false) : held? c chip = none := by
  simp [held?, h]

theorem intact_cons (c : Config) (f : Arrival) (rest : List Arrival) :
    intact c (f :: rest) = (if f.garbled then [] else [f.reading c]) ++ intact c rest := by
  unfold intact
  cases hg : f.garbled <;> simp [hg]

theorem intact_append (c : Config) (frames more : List Arrival) :
    intact c (frames ++ more) = intact c frames ++ intact c more := by
  simp [intact]

theorem carries_deliver {rest : List Arrival} (h : Listens chip)
    (hd : chip.flagged Irq.rxDone = false) (ha : chip.arrivals = f :: rest) :
    Carries c chip ({ chip with arrivals := rest }.deliver f) := by
  have hf : f.Sound := h.sound f (by simp [ha])
  have hrx : ({ chip with arrivals := rest }.deliver f).flagged Irq.rxDone = true := by
    rw [flagged_deliver, hf.reported, Bool.or_true]
  have hcrc : ({ chip with arrivals := rest }.deliver f).flagged Irq.crcError = f.garbled := by
    have hclear : ({ chip with arrivals := rest } : Chip).flagged Irq.crcError = false := h.clear hd
    rw [flagged_deliver, hclear, Bool.false_or]
    rfl
  have hheld : held? c ({ chip with arrivals := rest }.deliver f) =
      if f.garbled then none else some (f.reading c) := by
    unfold held?
    rw [hrx, hcrc, lastReading_deliver c _ hf]
    cases f.garbled <;> rfl
  refine ⟨⟨?_, h.countdown, ?_, ?_⟩, ?_, ?_⟩
  · rw [get_deliver_of_not_mem f (by decide)]
    exact h.mode
  · rw [hrx]
    rintro ⟨⟩
  · exact fun g hg => h.sound g (ha ▸ List.mem_cons_of_mem f hg)
  · unfold owed
    rw [hheld, held?_eq_none hd, ha, intact_cons]
    cases f.garbled <;> rfl
  · rw [held?_eq_none hd]
    rintro r ⟨⟩

end Deliver

theorem Listens.tick (h : Listens chip) : chip.tick = chip.tickArrival := by
  unfold Chip.tick tickTransmission
  rw [h.countdown]

/-- A frame on its way comes closer, or comes in; nothing is lost of it. -/
theorem carries_tick (h : Listens chip) : Carries c chip chip.tick := by
  rw [h.tick]
  unfold tickArrival
  split
  · rename_i hl
    have hd : chip.flagged Irq.rxDone = false := by
      simp only [listening, Bool.and_eq_true, Bool.not_eq_true'] at hl
      exact hl.2
    split
    · exact .refl h
    · rename_i f rest ha
      split
      · exact carries_deliver h hd ha
      · rename_i n hn
        -- only the time to its arrival has changed
        have hf : f.Sound := h.sound f (by simp [ha])
        refine ⟨⟨h.mode, h.countdown, h.clear, ?_⟩, ?_, fun r hr => hr⟩
        · intro g hg
          rcases List.mem_cons.mp hg with rfl | hr
          · exact ⟨hf.fits, hf.reported⟩
          · exact h.sound g (ha ▸ List.mem_cons_of_mem f hr)
        · unfold owed
          rw [ha, intact_cons, intact_cons]
          rfl
  · exact .refl h

-- ---------------------------------------------------------------------------
-- Looks
-- ---------------------------------------------------------------------------

/-- Work that has met no fault and has left the frames alone. -/
structure Smooth (b b' : Board) : Prop where
  frames : SameFrames b.chip b'.chip
  faults : b'.faults.length = b.faults.length

variable {b b' b'' : Board}

theorem Accessed.smooth (h : Accessed b b' chip) (hs : SameFrames b.chip chip) : Smooth b b' :=
  ⟨h.chip ▸ hs, h.faults⟩

theorem Smooth.trans (h : Smooth b b') (h' : Smooth b' b'') : Smooth b b'' :=
  ⟨h.frames.trans h'.frames, h'.faults.trans h.faults⟩

theorem Smooth.lost (h : Smooth b b') (hf : Faulted b' b'') :
    SameFrames b.chip b''.chip ∧ Met b b'' := by
  have hm := hf.met
  unfold Met at hm ⊢
  rw [h.faults] at hm
  exact ⟨hf.chip ▸ h.frames, hm⟩

theorem runs_told {a : Address} (b : Board) (hf : a ≠ Register.fifo) (hi : a ≠ Register.irqFlags) :
    Runs (readByte a) b (fun v b' => v = b.chip.get a ∧ Smooth b b') (Faulted b) :=
  (runs_register b hf hi).mono (fun _ _ ⟨hv, ha⟩ => ⟨hv, ha.smooth (.refl _)⟩) fun _ h => h

theorem runs_readPacket (c : Config) (b : Board) :
    Runs (readPacket c) b (fun r b' => r = lastReading c b.chip ∧ Smooth b b')
      (fun b' => SameFrames b.chip b'.chip ∧ Met b b') := by
  have hstart : Smooth b b := ⟨.refl _, rfl⟩
  unfold readPacket
  refine (runs_told b (by decide) (by decide)).bind (fun _ => hstart.lost) ?_
  rintro start b₁ ⟨rfl, h₁⟩
  refine (runs_told b₁ (by decide) (by decide)).bind (fun _ => h₁.lost) ?_
  rintro length b₂ ⟨rfl, h₁₂⟩
  have h₂ := h₁.trans h₁₂
  refine (runs_writeByte _ _ b₂).bind (fun _ => h₂.lost) ?_
  rintro - b₃ ha₃
  have h₃ := h₂.trans (ha₃.smooth (sameFrames_set b₂.chip _))
  refine (runs_readBytes _ _ b₃).bind (fun _ => h₃.lost) ?_
  rintro data b₄ ⟨rfl, ha₄⟩
  have h₄ := h₃.trans (ha₄.smooth (sameFrames_set b₃.chip _))
  refine (runs_told b₄ (by decide) (by decide)).bind (fun _ => h₄.lost) ?_
  rintro snr b₅ ⟨rfl, h₄₅⟩
  have h₅ := h₄.trans h₄₅
  refine (runs_told b₅ (by decide) (by decide)).bind (fun _ => h₅.lost) ?_
  rintro rssi b₆ ⟨rfl, h₅₆⟩
  refine runs_pure ⟨?_, h₅.trans h₅₆⟩
  have hpointer : b₃.chip.fifoPointer = packetAddress (b.chip.get Register.rxCurrent) := by
    unfold fifoPointer
    rw [ha₃.chip]
    exact congrArg packetAddress (get_set_self _ _)
  show (b₃.chip.packets.load b₃.chip.fifoPointer _, packetSignal c _ _) = _
  unfold lastReading
  rw [hpointer, h₃.frames.packets, h₁.frames.registers _ (by decide),
    h₄.frames.registers _ (by decide), h₅.frames.registers _ (by decide)]

theorem runs_look (c : Config) (h : Listens b.chip) :
    Runs (look c) b
      (fun l b' => Carries c b.chip b'.chip ∧ b'.faults.length = b.faults.length ∧
        held? c b'.chip = match l with
          | .nothing | .garbled => none
          | .frame data signal => some (data, signal))
      (fun b' => Carries c b.chip b'.chip ∧ Met b b') := by
  unfold look
  refine (runs_readByte _ b).bind (fun b' hf => ⟨by rw [hf.chip]; exact .refl h, hf.met⟩) ?_
  rintro flags b₁ ⟨rfl, ha⟩
  have hc : Carries c b.chip b₁.chip := ha.chip ▸ carries_tick h
  have hflags : ((b.chip.read Register.irqFlags 1).2.headD 0) = b₁.chip.get Register.irqFlags := by
    rw [ha.chip]
    rfl
  rw [hflags]
  cases hrx : Irq.raised (b₁.chip.get Register.irqFlags) Irq.rxDone with
  | false => exact runs_pure ⟨hc, ha.faults, held?_eq_none hrx⟩
  | true =>
    cases hcrc : Irq.raised (b₁.chip.get Register.irqFlags) Irq.crcError with
    | true => exact runs_pure ⟨hc, ha.faults, by simp [held?, flagged, hcrc]⟩
    | false =>
      have hheld : held? c b₁.chip = some (lastReading c b₁.chip) := by
        simp [held?, flagged, hrx, hcrc]
      refine (runs_readPacket c b₁).bind
        (fun b' hf => ⟨hc.trans (hf.1.carries hc.listens), ha.met_iff.mpr hf.2⟩) ?_
      rintro _ b₂ ⟨rfl, hs⟩
      refine runs_pure ⟨hc.trans (hs.frames.carries hc.listens), hs.faults.trans ha.faults, ?_⟩
      exact hs.frames.held?.trans hheld

/-- What is left when the flags are cleared: the frame that was held is gone. -/
theorem runs_clearFlags (h : Listens b.chip) :
    Runs clearFlags b
      (fun _ b' => Listens b'.chip ∧ held? c b'.chip = none ∧ b'.chip.arrivals = b.chip.arrivals ∧
        b'.faults.length = b.faults.length)
      (Faulted b) := by
  refine (runs_writeByte _ _ b).mono ?_ fun _ hf => hf
  rintro - b' ha
  have hclear : b'.chip.get Register.irqFlags = 0 := by
    rw [ha.chip]
    refine (get_set_self _ _).trans ?_
    rw [show ~~~Irq.all = 0 by decide, UInt8.and_zero]
  have hflagged (bit : UInt8) : b'.chip.flagged bit = false := by
    simp [flagged, hclear, Irq.raised]
  have hwrite :
      b'.chip = b.chip.set Register.irqFlags (b.chip.get Register.irqFlags &&& ~~~Irq.all) :=
    ha.chip
  refine ⟨⟨?_, ?_, fun _ => hflagged _, ?_⟩, held?_eq_none (hflagged _), ?_, ha.faults⟩
  · rw [hwrite, get_set_of_ne _ (by decide)]
    exact h.mode
  · rw [hwrite]
    exact h.countdown
  · rw [hwrite]
    exact h.sound
  · rw [hwrite]
    rfl

end RadioGateway.Chip
