import RadioGateway.Proofs.Bus

/-!
# The registers that hold the settings

Opening the chip for a configuration programs them, whatever they held before. Nothing else that is
done to an open chip touches them.
-/

namespace RadioGateway.Chip

open RadioGateway.Radio (Config RadioError)

variable {chip chip' chip'' : Chip} {c : Config}

-- ---------------------------------------------------------------------------
-- What a write touches
-- ---------------------------------------------------------------------------

/-- Where a write goes: its first register, and how many bytes it has. -/
abbrev Place := Address × Nat

def place (w : RegisterWrite) : Place := (w.1, w.2.length)

/-- The registers that a write may change. Through the port of the packet memory only the pointer
moves. -/
def touched (p : Place) : List Address :=
  if p.1 = Register.fifo then [Register.fifoPointer] else span p.1 p.2

@[simp] theorem get_set_self (a : Address) (b : UInt8) : (chip.set a b).get a = b :=
  Memory.get_set_self chip.registers a b

theorem get_set (chip : Chip) (a x : Address) (b : UInt8) :
    (chip.set a b).get x = if x = a then b else chip.get x := Memory.get_set chip.registers a x b

theorem get_set_of_ne {a x : Address} (b : UInt8) (h : x ≠ a) : (chip.set a b).get x = chip.get x :=
  Memory.get_set_of_ne chip.registers b h

theorem get_enterMode_of_ne {x : Address} (mode : UInt8) (h : x ≠ Register.opMode) :
    (chip.enterMode mode).get x = chip.get x := by
  unfold enterMode
  simp only
  generalize (if chip.refusesLora then mode &&& ~~~Mode.longRange else mode) = mode
  split <;> exact get_set_of_ne mode h

theorem get_enterMode_self (mode : UInt8) : (chip.enterMode mode).get Register.opMode =
    if chip.refusesLora then mode &&& ~~~Mode.longRange else mode := by
  unfold enterMode
  simp only
  generalize (if chip.refusesLora then mode &&& ~~~Mode.longRange else mode) = mode
  split <;> exact get_set_self Register.opMode mode

theorem get_write_of_not_mem {w : RegisterWrite} {x : Address} (h : x ∉ touched (place w)) :
    (chip.write w.1 w.2).get x = chip.get x := by
  obtain ⟨a, bytes⟩ := w
  have hne (ha : a ≠ Register.fifo) {b : UInt8} {rest : List UInt8} (hb : bytes = b :: rest) :
      x ≠ a := by
    rintro rfl
    simp [touched, place, ha, hb, span] at h
  simp only [write]
  split
  · rename_i ha
    have hx : x ≠ Register.fifoPointer := by simpa [touched, place, ha] using h
    exact get_set_of_ne _ hx
  · rename_i ha
    split
    · rename_i hirq
      cases bytes with
      | nil => rfl
      | cons b rest => exact get_set_of_ne _ (hne ha rfl)
    · split
      · rename_i hop
        cases bytes with
        | nil => rfl
        | cons b rest => exact get_enterMode_of_ne b (hop ▸ hne ha rfl)
      · have hx : x ∉ span a bytes.length := by simpa [touched, place, ha] using h
        exact Memory.get_store_of_not_mem hx

-- ---------------------------------------------------------------------------
-- Writes one after another
-- ---------------------------------------------------------------------------

theorem get_writes_of_not_mem {ws : List RegisterWrite} {x : Address}
    (h : ∀ w ∈ ws, x ∉ touched (place w)) : (chip.writes ws).get x = chip.get x := by
  induction ws generalizing chip with
  | nil => rfl
  | cons w rest ih =>
    calc (chip.writes (w :: rest)).get x
        = (chip.write w.1 w.2).get x := ih fun v hv => h v (List.mem_cons_of_mem w hv)
      _ = chip.get x := get_write_of_not_mem (h w List.mem_cons_self)

/-- A write that stores its bytes, and no more than fit. -/
def Stores (p : Place) : Prop :=
  p.1 ≠ Register.fifo ∧ p.1 ≠ Register.irqFlags ∧ p.1 ≠ Register.opMode ∧ p.2 ≤ 128

instance (p : Place) : Decidable (Stores p) := inferInstanceAs (Decidable (_ ∧ _ ∧ _ ∧ _))

/-- The second write leaves alone what the first one stores. -/
def Spares (p q : Place) : Prop := Stores p → ∀ x ∈ span p.1 p.2, x ∉ touched q

instance (p q : Place) : Decidable (Spares p q) := inferInstanceAs (Decidable (_ → _))

theorem load_write {w : RegisterWrite} (h : Stores (place w)) :
    (chip.write w.1 w.2).registers.load w.1 w.2.length = w.2 := by
  obtain ⟨hfifo, hirq, hop, hlen⟩ := h
  simp only [place] at hfifo hirq hop hlen
  simp only [write, if_neg hfifo, if_neg hirq, if_neg hop]
  exact Memory.load_store hlen

theorem load_writes {ws : List RegisterWrite} (h : (ws.map place).Pairwise Spares)
    {w : RegisterWrite} (hw : w ∈ ws) (hs : Stores (place w)) :
    (chip.writes ws).registers.load w.1 w.2.length = w.2 := by
  induction ws generalizing chip with
  | nil => cases hw
  | cons v rest ih =>
    rw [List.map_cons, List.pairwise_cons] at h
    rcases List.mem_cons.mp hw with rfl | hr
    · have hspared : ∀ x ∈ span w.1 w.2.length,
          ((chip.write w.1 w.2).writes rest).get x = (chip.write w.1 w.2).get x := by
        intro x hx
        refine get_writes_of_not_mem fun u hu => ?_
        exact h.1 (place u) (List.mem_map_of_mem hu) hs x hx
      exact (Memory.load_congr hspared).trans (load_write hs)
    · exact ih h.2 hr

-- ---------------------------------------------------------------------------
-- The settings
-- ---------------------------------------------------------------------------

def programming (c : Config) : List RegisterWrite := baseAddresses ++ settings c

/-- The registers hold what opening the chip for a configuration writes there. -/
def Programmed (c : Config) (chip : Chip) : Prop :=
  ∀ w ∈ programming c, chip.registers.load w.1 w.2.length = w.2

/-- Where the settings of every configuration go. -/
def settingPlaces : List Place :=
  [(Register.txBase, 1), (Register.rxBase, 1), (Register.frf, 3), (Register.modemConfig1, 1),
   (Register.modemConfig2, 1), (Register.modemConfig3, 1), (Register.detectionOptimize, 1),
   (Register.detectionThreshold, 1), (Register.preamble, 2), (Register.paDac, 1),
   (Register.paConfig, 1), (Register.lna, 1), (Register.dioMapping1, 1)]

theorem places_programming (c : Config) : (programming c).map place = settingPlaces := rfl

def settingRegisters : List Address := settingPlaces.flatMap fun p => span p.1 p.2

def SameSettings (chip chip' : Chip) : Prop := ∀ x ∈ settingRegisters, chip'.get x = chip.get x

theorem SameSettings.refl (chip : Chip) : SameSettings chip chip := fun _ _ => rfl

theorem SameSettings.trans (h : SameSettings chip chip') (h' : SameSettings chip' chip'') :
    SameSettings chip chip'' := fun x hx => (h' x hx).trans (h x hx)

theorem Programmed.congr (h : Programmed c chip) (hs : SameSettings chip chip') :
    Programmed c chip' := by
  intro w hw
  have hmem : place w ∈ settingPlaces := places_programming c ▸ List.mem_map_of_mem hw
  have hsame : ∀ x ∈ span w.1 w.2.length, chip'.get x = chip.get x := fun x hx =>
    hs x (List.mem_flatMap.mpr ⟨place w, hmem, hx⟩)
  exact (Memory.load_congr hsame).trans (h w hw)

theorem places_configure (c : Config) : (configure c).map place =
    [(Register.txBase, 1), (Register.rxBase, 1), (Register.opMode, 1)] ++ settingPlaces.drop 2 ++
      [(Register.irqFlags, 1), (Register.fifoPointer, 1), (Register.opMode, 1)] := rfl

/-- All the writes of an opening leave the settings of its configuration. -/
theorem programmed_writes (c : Config) (chip : Chip) :
    Programmed c (chip.writes (configure c)) := by
  have hstores : ∀ p ∈ settingPlaces, Stores p := by decide
  have hspares : ((configure c).map place).Pairwise Spares := by
    rw [places_configure]
    decide +kernel
  intro w hw
  refine load_writes hspares ?_ (hstores _ (places_programming c ▸ List.mem_map_of_mem hw))
  rcases List.mem_append.mp hw with hb | hs
  · exact List.mem_append_left _ (List.mem_append_left _ hb)
  · exact List.mem_append_left _ (List.mem_append_right _ (List.mem_cons_of_mem _ hs))

-- ---------------------------------------------------------------------------
-- Work that leaves the settings alone
-- ---------------------------------------------------------------------------

def Harmless (p : Place) : Prop := ∀ x ∈ settingRegisters, x ∉ touched p

instance (p : Place) : Decidable (Harmless p) := inferInstanceAs (Decidable (∀ _ ∈ _, _))

theorem Harmless.sameSettings {w : RegisterWrite} (h : Harmless (place w))
    (hc : SameSettings chip chip') : SameSettings chip (chip'.write w.1 w.2) :=
  hc.trans fun x hx => get_write_of_not_mem (h x hx)

def reported : List Address :=
  [Register.rxCurrent, Register.rxBytes, Register.packetSnr, Register.packetRssi, Register.irqFlags]

theorem get_tickTransmission_of_ne {x : Address} (h : x ≠ Register.irqFlags) :
    chip.tickTransmission.get x = chip.get x := by
  unfold tickTransmission
  split
  · rfl
  · exact get_set_of_ne _ h
  · rfl

theorem get_deliver_of_not_mem {x : Address} (f : Arrival) (h : x ∉ reported) :
    (chip.deliver f).get x = chip.get x := by
  simp only [reported, List.mem_cons, List.not_mem_nil, or_false, not_or] at h
  obtain ⟨hcurrent, hbytes, hsnr, hrssi, hirq⟩ := h
  simp only [deliver, get_set_of_ne _ hirq, get_set_of_ne _ hrssi, get_set_of_ne _ hsnr,
    get_set_of_ne _ hbytes, get_set_of_ne _ hcurrent]
  rfl

theorem get_tick_of_not_mem {x : Address} (h : x ∉ reported) : chip.tick.get x = chip.get x := by
  have hirq : x ≠ Register.irqFlags := by
    rintro rfl
    exact h (by decide)
  have htransmission : chip.tickTransmission.get x = chip.get x := get_tickTransmission_of_ne hirq
  rw [← htransmission]
  unfold tick tickArrival
  split
  · split
    · rfl
    · split
      · exact get_deliver_of_not_mem _ h
      · rfl
  · rfl

theorem sameSettings_read (a : Address) (count : Nat) (hc : SameSettings chip chip') :
    SameSettings chip (chip'.read a count).1 := by
  have hreported : ∀ x ∈ settingRegisters, x ∉ reported := by decide
  have hpointer : ∀ x ∈ settingRegisters, x ≠ Register.fifoPointer := by decide
  refine hc.trans fun x hx => ?_
  simp only [read]
  split
  · exact get_set_of_ne _ (hpointer x hx)
  · split
    · exact get_tick_of_not_mem (hreported x hx)
    · rfl

section Keeps

theorem settings_readByte (a : Address) : Keeps (SameSettings chip) (readByte a) :=
  keeps_readByte fun _ => sameSettings_read a 1

theorem settings_writeAll {ws : List RegisterWrite} (h : ∀ p ∈ ws.map place, Harmless p) :
    Keeps (SameSettings chip) (writeAll ws) :=
  keeps_writeAll fun _ hw _ => (h _ (List.mem_map_of_mem hw)).sameSettings

theorem settings_listen (c : Config) : Keeps (SameSettings chip) (writeAll (listen c)) :=
  settings_writeAll (show ∀ p ∈ (listen {}).map place, Harmless p by decide)

theorem settings_beginTransmit (c : Config) (payload : List UInt8) :
    Keeps (SameSettings chip) (beginTransmit c payload) := by
  unfold beginTransmit
  split
  · exact keeps_throw _
  · refine settings_writeAll ?_
    -- the payload goes through the port, however long it is
    have hport : Harmless (Register.fifo, payload.length) := by
      have : touched (Register.fifo, payload.length) = touched (Register.fifo, 0) := rfl
      unfold Harmless
      rw [this]
      decide
    have hrest : ∀ p ∈ ((launch {} []).map place), Harmless p := by decide
    intro p hp
    simp only [launch, setMode, place, List.map_cons, List.map_nil, List.mem_cons, List.length_cons,
      List.length_nil, List.not_mem_nil, or_false] at hp hrest
    rcases hp with rfl | rfl | rfl | rfl | rfl | rfl <;>
      first | exact hport | exact hrest _ (by simp)

theorem settings_checkTransmit (c : Config) : Keeps (SameSettings chip) (checkTransmit c) := by
  refine (settings_readByte _).bind fun flags => ?_
  split
  · exact (settings_listen c).bind fun _ => keeps_pure true
  · exact keeps_pure false

theorem settings_abandonTransmit (c : Config) : Keeps (SameSettings chip) (abandonTransmit c) :=
  (settings_listen c).bind fun _ => keeps_throw _

theorem settings_writeByte {a : Address} (b : UInt8) (h : Harmless (a, 1)) :
    Keeps (SameSettings chip) (writeByte a b) :=
  keeps_writeBytes fun _ => Harmless.sameSettings (show Harmless (place (a, [b])) from h)

theorem settings_look (c : Config) : Keeps (SameSettings chip) (look c) := by
  have hpointer : Harmless (Register.fifoPointer, 1) := by decide
  exact keeps_look (fun _ a count => sameSettings_read a count)
    (fun _ v =>
      Harmless.sameSettings (show Harmless (place (Register.fifoPointer, [v])) from hpointer)) c

theorem settings_clearFlags : Keeps (SameSettings chip) clearFlags :=
  settings_writeByte _ (by decide)

end Keeps

-- ---------------------------------------------------------------------------
-- Opening
-- ---------------------------------------------------------------------------

def speaksLora (chip : Chip) : Bool := chip.get Register.opMode &&& Mode.longRange != 0

/-- The chip keeps the bit unless it refuses LoRa. -/
theorem speaksLora_enterMode (chip : Chip) :
    (chip.enterMode (Mode.longRange ||| Mode.sleep)).speaksLora = !chip.refusesLora := by
  unfold speaksLora
  rw [get_enterMode_self]
  cases chip.refusesLora <;> decide

/-- The chip is identified unless an access meets a fault or the version is another one. -/
theorem identify_cases (b : Board) :
    (∃ e b', identify b = .error e b' ∧ (b.chip.get Register.version ≠ chipVersion ∨ Met b b')) ∨
    ∃ b', identify b = .ok () b' ∧ b.chip.get Register.version = chipVersion ∧ ¬Met b b' ∧
      b'.chip = b.chip.reset.enterMode (Mode.longRange ||| Mode.sleep) := by
  unfold identify
  rcases resetChip_cases b with ⟨e, b₁, he, hf⟩ | ⟨b₁, he, ha⟩
  · exact .inl ⟨_, b₁, bind_error _ he, .inr hf.met⟩
  rw [bind_ok _ he]
  have hreset : b₁.chip.get Register.version = b.chip.get Register.version := by
    rw [ha.chip]
    rfl
  rcases readByte_register b₁ (a := Register.version) (by decide) (by decide) with
    ⟨e, b₂, he₂, hf⟩ | ⟨b₂, he₂, ha₂⟩
  · exact .inl ⟨_, b₂, bind_error _ he₂, .inr (ha.met_iff.mpr hf.met)⟩
  rw [bind_ok _ he₂, hreset]
  by_cases hv : b.chip.get Register.version = chipVersion
  · simp only [hv, ne_eq, not_true_eq_false, if_false]
    rcases writeBytes_cases Register.opMode [Mode.longRange ||| Mode.sleep] b₂ with
      ⟨e, b₃, he₃, hf⟩ | ⟨b₃, he₃, ha₃⟩
    · exact .inl ⟨_, b₃, he₃, .inr (ha.met_iff.mpr (ha₂.met_iff.mpr hf.met))⟩
    · refine .inr ⟨b₃, he₃, trivial, fun h => ha₃.not_met (ha₂.met_iff.mp (ha.met_iff.mp h)), ?_⟩
      rw [ha₃.chip, ha₂.chip, ha.chip]
      rfl
  · rw [if_pos hv]
    exact .inl ⟨_, b₂, rfl, .inl hv⟩

/-- The chip is programmed unless an access meets a fault or it refuses LoRa. -/
theorem bringUp_cases (c : Config) (b : Board) :
    (∃ e b', bringUp c b = .error e b' ∧ (b.chip.speaksLora = false ∨ Met b b')) ∨
    ∃ b', bringUp c b = .ok () b' ∧ b.chip.speaksLora = true ∧ ¬Met b b' ∧
      b'.chip = b.chip.writes (configure c) := by
  unfold bringUp
  rcases readByte_register b (a := Register.opMode) (by decide) (by decide) with
    ⟨e, b₁, he, hf⟩ | ⟨b₁, he, ha⟩
  · exact .inl ⟨_, b₁, bind_error _ he, .inr hf.met⟩
  rw [bind_ok _ he]
  by_cases hl : b.chip.get Register.opMode &&& Mode.longRange = 0
  · simp only [hl, if_true]
    exact .inl ⟨_, b₁, rfl, .inl (by simp [speaksLora, hl])⟩
  · simp only [hl, if_false]
    rcases writeAll_cases (configure c) b₁ with ⟨e, b₂, he₂, hm⟩ | ⟨b₂, he₂, hm, hc⟩
    · exact .inl ⟨e, b₂, he₂, .inr (ha.met_iff.mpr hm)⟩
    · exact .inr ⟨b₂, he₂, by simp [speaksLora, hl], fun h => hm (ha.met_iff.mp h),
        by rw [hc, ha.chip]⟩

end RadioGateway.Chip
