import RadioGateway.Chip.Transceiver
import RadioGateway.Proofs.Memory

/-!
# Work on the bus

An access takes effect, or it meets a fault, uses it up and changes nothing. What every access
keeps, longer work keeps, whether it fails or not.
-/

namespace RadioGateway.Chip

open RadioGateway.Radio (BusError RadioError)

variable {α β : Type}

-- ---------------------------------------------------------------------------
-- One access
-- ---------------------------------------------------------------------------

/-- The fault that is met is gone, and the others stay. -/
theorem meetFault_length (kind : AccessKind) (a : Option Address) (faults : List Fault) :
    (meetFault kind a faults).2.length + (meetFault kind a faults).1.toList.length =
      faults.length := by
  induction faults with
  | nil => rfl
  | cons f rest ih =>
    unfold meetFault
    split
    · split
      · rfl
      · simp only [List.length_cons]
        omega
    · simp only [List.length_cons]
      omega

theorem access_cases (kind : AccessKind) (a : Option Address) (effect : Board → α × Board)
    (b : Board) :
    (∃ e faults, access kind a effect b = .error (.bus e) { b with faults } ∧
      faults.length + 1 = b.faults.length) ∨
    ∃ faults, faults.length = b.faults.length ∧
      access kind a effect b = .ok (effect { b with faults }).1 (effect { b with faults }).2 := by
  have hlen := meetFault_length kind a b.faults
  unfold access
  generalize meetFault kind a b.faults = m at hlen ⊢
  rcases m with ⟨_ | e, faults⟩
  · exact .inr ⟨faults, by simpa using hlen, rfl⟩
  · exact .inl ⟨e, faults, rfl, by simpa using hlen⟩

@[simp] theorem note_board (b : Board) (entry : Access) :
    (b.note entry).chip = b.chip ∧ (b.note entry).faults = b.faults ∧
    (b.note entry).claimFaults = b.claimFaults := by
  unfold Board.note
  split <;> exact ⟨rfl, rfl, rfl⟩

/-- The boards before and after an access that met a fault. -/
structure Faulted (b b' : Board) : Prop where
  chip : b'.chip = b.chip
  faults : b'.faults.length + 1 = b.faults.length
  claimFaults : b'.claimFaults = b.claimFaults

/-- The boards before and after an access that left the chip in the state `c`. -/
structure Accessed (b b' : Board) (c : Chip) : Prop where
  chip : b'.chip = c
  faults : b'.faults.length = b.faults.length
  claimFaults : b'.claimFaults = b.claimFaults

theorem writeBytes_cases (a : Address) (bytes : List UInt8) (b : Board) :
    (∃ e b', writeBytes a bytes b = .error (.bus e) b' ∧ Faulted b b') ∨
    ∃ b', writeBytes a bytes b = .ok () b' ∧ Accessed b b' (b.chip.write a bytes) := by
  rcases access_cases .write (some a)
    (fun b => ((), { b with chip := b.chip.write a bytes }.note (.write a bytes))) b with
    ⟨e, faults, he, hlen⟩ | ⟨faults, hlen, he⟩
  · exact .inl ⟨e, _, he, rfl, hlen, rfl⟩
  · exact .inr ⟨_, he, by simp, by simpa using hlen, by simp⟩

theorem readBytes_cases (a : Address) (count : Nat) (b : Board) :
    (∃ e b', readBytes a count b = .error (.bus e) b' ∧ Faulted b b') ∨
    ∃ b', readBytes a count b = .ok (b.chip.read a count).2 b' ∧
      Accessed b b' (b.chip.read a count).1 := by
  rcases access_cases .read (some a)
    (fun b => ((b.chip.read a count).2,
      { b with chip := (b.chip.read a count).1 }.note (.read a (b.chip.read a count).2))) b with
    ⟨e, faults, he, hlen⟩ | ⟨faults, hlen, he⟩
  · exact .inl ⟨e, _, he, rfl, hlen, rfl⟩
  · exact .inr ⟨_, he, by simp, by simpa using hlen, by simp⟩

theorem resetChip_cases (b : Board) :
    (∃ e b', resetChip b = .error (.bus e) b' ∧ Faulted b b') ∨
    ∃ b', resetChip b = .ok () b' ∧ Accessed b b' b.chip.reset := by
  rcases access_cases .reset none
    (fun b => ((), { b with chip := b.chip.reset }.note .reset)) b with
    ⟨e, faults, he, hlen⟩ | ⟨faults, hlen, he⟩
  · exact .inl ⟨e, _, he, rfl, hlen, rfl⟩
  · exact .inr ⟨_, he, by simp, by simpa using hlen, by simp⟩

-- ---------------------------------------------------------------------------
-- Longer work
-- ---------------------------------------------------------------------------

/-- The board that some work leaves, whether it fails or not. -/
def final (x : Bus α) (b : Board) : Board :=
  match x b with
  | .ok _ b' | .error _ b' => b'

section Bind

variable {x : Bus α} {b b' : Board}

theorem bind_ok {a : α} (f : α → Bus β) (h : x b = .ok a b') : (x >>= f) b = f a b' := by
  show EStateM.bind x f b = _
  unfold EStateM.bind
  rw [h]

theorem bind_error {e : RadioError} (f : α → Bus β) (h : x b = .error e b') :
    (x >>= f) b = .error e b' := by
  show EStateM.bind x f b = _
  unfold EStateM.bind
  rw [h]

end Bind

theorem readByte_cases (a : Address) (b : Board) :
    (∃ e b', readByte a b = .error e b' ∧ Faulted b b') ∨
    ∃ b', readByte a b = .ok ((b.chip.read a 1).2.headD 0) b' ∧
      Accessed b b' (b.chip.read a 1).1 := by
  unfold readByte
  rcases readBytes_cases a 1 b with ⟨e, b', he, hf⟩ | ⟨b', he, ha⟩
  · exact .inl ⟨_, b', bind_error _ he, hf⟩
  · exact .inr ⟨b', bind_ok _ he, ha⟩

theorem readByte_register (b : Board) {a : Address} (hf : a ≠ Register.fifo)
    (hi : a ≠ Register.irqFlags) :
    (∃ e b', readByte a b = .error e b' ∧ Faulted b b') ∨
    ∃ b', readByte a b = .ok (b.chip.get a) b' ∧ Accessed b b' b.chip := by
  have hread : b.chip.read a 1 = (b.chip, [b.chip.get a]) := by
    simp only [read, if_neg hf, if_neg hi]
    rfl
  have h := readByte_cases a b
  rwa [hread] at h

-- ---------------------------------------------------------------------------
-- Meeting a fault
-- ---------------------------------------------------------------------------

/-- Some work met a fault: fewer of them are left. -/
def Met (b b' : Board) : Prop := b'.faults.length < b.faults.length

theorem Faulted.met {b b' : Board} (h : Faulted b b') : Met b b' := by
  have := h.faults
  unfold Met
  omega

theorem Accessed.not_met {b b' : Board} {c : Chip} (h : Accessed b b' c) : ¬Met b b' := by
  unfold Met
  rw [h.faults]
  exact Nat.lt_irrefl _

theorem Accessed.met_iff {b b' b'' : Board} {c : Chip} (h : Accessed b b' c) :
    Met b b'' ↔ Met b' b'' := by
  unfold Met
  rw [h.faults]

def writes (c : Chip) (ws : List RegisterWrite) : Chip :=
  ws.foldl (fun c w => c.write w.1 w.2) c

/-- Writes fail at a fault only, and a fault is never overlooked. -/
theorem writeAll_cases (ws : List RegisterWrite) (b : Board) :
    (∃ e b', writeAll ws b = .error e b' ∧ Met b b') ∨
    ∃ b', writeAll ws b = .ok () b' ∧ ¬Met b b' ∧ b'.chip = b.chip.writes ws := by
  induction ws generalizing b with
  | nil => exact .inr ⟨b, rfl, Nat.lt_irrefl _, rfl⟩
  | cons w rest ih =>
    rcases writeBytes_cases w.1 w.2 b with ⟨e, b₁, he, hf⟩ | ⟨b₁, he, ha⟩
    · exact .inl ⟨_, b₁, bind_error _ he, hf.met⟩
    · have hrest : writeAll (w :: rest) b = writeAll rest b₁ := bind_ok _ he
      rw [hrest]
      rcases ih b₁ with ⟨e, b₂, he₂, hm⟩ | ⟨b₂, he₂, hm, hc⟩
      · exact .inl ⟨e, b₂, he₂, ha.met_iff.mpr hm⟩
      · exact .inr ⟨b₂, he₂, fun h => hm (ha.met_iff.mp h), hc.trans (by rw [ha.chip]; rfl)⟩

-- ---------------------------------------------------------------------------
-- What some work comes to
-- ---------------------------------------------------------------------------

/-- What holds after some work, when it succeeds and when it fails. -/
def Runs (x : Bus α) (b : Board) (done : α → Board → Prop) (failed : Board → Prop) : Prop :=
  match x b with
  | .ok a b' => done a b'
  | .error _ b' => failed b'

theorem runs_pure {a : α} {b : Board} {done : α → Board → Prop} {failed : Board → Prop}
    (h : done a b) : Runs (pure a : Bus α) b done failed := h

theorem Runs.mono {x : Bus α} {b : Board} {mid done : α → Board → Prop} {lost failed : Board → Prop}
    (h : Runs x b mid lost) (hdone : ∀ a b', mid a b' → done a b')
    (hfailed : ∀ b', lost b' → failed b') : Runs x b done failed := by
  unfold Runs at h ⊢
  split
  · rename_i he
    rw [he] at h
    exact hdone _ _ h
  · rename_i he
    rw [he] at h
    exact hfailed _ h

theorem Runs.bind {x : Bus α} {f : α → Bus β} {b : Board} {mid : α → Board → Prop}
    {lost failed : Board → Prop} {done : β → Board → Prop} (hx : Runs x b mid lost)
    (hlost : ∀ b', lost b' → failed b') (hf : ∀ a b', mid a b' → Runs (f a) b' done failed) :
    Runs (x >>= f) b done failed := by
  unfold Runs at hx ⊢
  cases hr : x b with
  | ok a b' =>
    rw [hr] at hx
    rw [bind_ok f hr]
    exact hf a b' hx
  | error e b' =>
    rw [hr] at hx
    rw [bind_error f hr]
    exact hlost b' hx

theorem runs_writeByte (a : Address) (v : UInt8) (b : Board) :
    Runs (writeByte a v) b (fun _ b' => Accessed b b' (b.chip.write a [v])) (Faulted b) := by
  unfold Runs writeByte
  rcases writeBytes_cases a [v] b with ⟨e, b', he, hf⟩ | ⟨b', he, ha⟩ <;> rw [he]
  · exact hf
  · exact ha

theorem runs_readBytes (a : Address) (count : Nat) (b : Board) :
    Runs (readBytes a count) b
      (fun bytes b' => bytes = (b.chip.read a count).2 ∧ Accessed b b' (b.chip.read a count).1)
      (Faulted b) := by
  unfold Runs
  rcases readBytes_cases a count b with ⟨e, b', he, hf⟩ | ⟨b', he, ha⟩ <;> rw [he]
  · exact hf
  · exact ⟨rfl, ha⟩

theorem runs_readByte (a : Address) (b : Board) :
    Runs (readByte a) b
      (fun v b' => v = (b.chip.read a 1).2.headD 0 ∧ Accessed b b' (b.chip.read a 1).1)
      (Faulted b) := by
  unfold Runs
  rcases readByte_cases a b with ⟨e, b', he, hf⟩ | ⟨b', he, ha⟩ <;> rw [he]
  · exact hf
  · exact ⟨rfl, ha⟩

theorem runs_register (b : Board) {a : Address} (hf : a ≠ Register.fifo)
    (hi : a ≠ Register.irqFlags) :
    Runs (readByte a) b (fun v b' => v = b.chip.get a ∧ Accessed b b' b.chip) (Faulted b) := by
  unfold Runs
  rcases readByte_register b hf hi with ⟨e, b', he, hf⟩ | ⟨b', he, ha⟩ <;> rw [he]
  · exact hf
  · exact ⟨rfl, ha⟩

-- ---------------------------------------------------------------------------
-- What the board keeps, and its chip
-- ---------------------------------------------------------------------------

/-- Whatever comes of the work, the board keeps a property. -/
def Stays (P : Board → Prop) (x : Bus α) : Prop := ∀ b, P b → P (final x b)

section Stays

variable {P : Board → Prop}

theorem stays_pure (a : α) : Stays P (pure a : Bus α) := fun _ h => h

theorem stays_throw (e : RadioError) : Stays P (throw e : Bus α) := fun _ h => h

theorem Stays.bind {x : Bus α} {f : α → Bus β} (hx : Stays P x) (hf : ∀ a, Stays P (f a)) :
    Stays P (x >>= f) := by
  intro b hb
  have h := hx b hb
  unfold final at h ⊢
  cases hr : x b with
  | ok a b' =>
    rw [hr] at h
    rw [bind_ok f hr]
    exact hf a b' h
  | error e b' =>
    rw [hr] at h
    rw [bind_error f hr]
    exact h

/-- A look for a frame reads, and moves the pointer into the packet memory. -/
theorem stays_look (hread : ∀ a count, Stays P (readBytes a count))
    (hpointer : ∀ v, Stays P (writeByte Register.fifoPointer v)) (config : Radio.Config) :
    Stays P (look config) := by
  have hbyte (a : Address) : Stays P (readByte a) := (hread a 1).bind fun _ => stays_pure _
  have hpacket : Stays P (readPacket config) :=
    (hbyte _).bind fun _ => (hbyte _).bind fun _ => (hpointer _).bind fun _ =>
      (hread _ _).bind fun _ =>
      (hbyte _).bind fun _ => (hbyte _).bind fun _ => stays_pure _
  refine (hbyte _).bind fun flags => ?_
  split
  · exact stays_pure _
  · split
    · exact stays_pure _
    · exact hpacket.bind fun _ => stays_pure _

end Stays

/-- Whatever comes of the work, the chip keeps a property. -/
def Keeps (P : Chip → Prop) (x : Bus α) : Prop := ∀ b, P b.chip → P (final x b).chip

section Keeps

variable {P : Chip → Prop}

theorem keeps_pure (a : α) : Keeps P (pure a : Bus α) := fun _ h => h

theorem keeps_throw (e : RadioError) : Keeps P (throw e : Bus α) := fun _ h => h

theorem Keeps.bind {x : Bus α} {f : α → Bus β} (hx : Keeps P x) (hf : ∀ a, Keeps P (f a)) :
    Keeps P (x >>= f) := Stays.bind hx hf

theorem keeps_writeBytes {a : Address} {bytes : List UInt8}
    (h : ∀ c : Chip, P c → P (c.write a bytes)) : Keeps P (writeBytes a bytes) := by
  intro b hb
  unfold final
  rcases writeBytes_cases a bytes b with ⟨e, b', he, hf⟩ | ⟨b', he, ha⟩ <;> rw [he]
  · exact hf.chip ▸ hb
  · exact ha.chip ▸ h _ hb

theorem keeps_readBytes {a : Address} {count : Nat}
    (h : ∀ c : Chip, P c → P (c.read a count).1) : Keeps P (readBytes a count) := by
  intro b hb
  unfold final
  rcases readBytes_cases a count b with ⟨e, b', he, hf⟩ | ⟨b', he, ha⟩ <;> rw [he]
  · exact hf.chip ▸ hb
  · exact ha.chip ▸ h _ hb

theorem keeps_readByte {a : Address} (h : ∀ c : Chip, P c → P (c.read a 1).1) :
    Keeps P (readByte a) :=
  (keeps_readBytes h).bind fun _ => keeps_pure _

theorem keeps_writeAll {writes : List (Address × List UInt8)}
    (h : ∀ w ∈ writes, ∀ c : Chip, P c → P (c.write w.1 w.2)) : Keeps P (writeAll writes) := by
  induction writes with
  | nil => exact keeps_pure ()
  | cons w rest ih =>
    exact (keeps_writeBytes (h w (by simp))).bind fun _ => ih fun v hv => h v (by simp [hv])

theorem keeps_look (hread : ∀ (c : Chip) (a : Address) (count : Nat), P c → P (c.read a count).1)
    (hpointer : ∀ (c : Chip) (v : UInt8), P c → P (c.write Register.fifoPointer [v]))
    (config : Radio.Config) : Keeps P (look config) :=
  stays_look (fun a count => keeps_readBytes fun c => hread c a count)
    (fun v => keeps_writeBytes fun c => hpointer c v) config

end Keeps

end RadioGateway.Chip
