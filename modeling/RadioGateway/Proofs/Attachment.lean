import RadioGateway.Proofs.Footprint
import RadioGateway.Proofs.Settings

/-!
# The driver that is attached

Only an attach or a detach changes which configuration the driver was opened for; sends and receives
work with the driver that is there. Likewise the scripted radio opens for nobody else, and what is
to be received is taken by receives only.
-/

namespace RadioGateway.Station

open RadioGateway.Radio

-- ---------------------------------------------------------------------------
-- Drivers
-- ---------------------------------------------------------------------------

def Hardware.opening (h : Hardware) (c : Config) : Opening :=
  match h with
  | .scripted => .resetting c
  | _ => .settling c

@[simp] theorem Bench.script_onBoard {α : Type} (work : Chip.Bus α) (b : Bench) :
    (b.onBoard work).1.script = b.script := by
  unfold Bench.onBoard
  split <;> rfl

/-- What work at an open chip leaves alone: the scripted radio, and the settings of the chip. -/
structure Bench.Steady (b b' : Bench) : Prop where
  script : b'.script = b.script
  settings : Chip.SameSettings b.board.chip b'.board.chip

theorem Bench.Steady.trans {b b' b'' : Bench} (h : Steady b b') (h' : Steady b' b'') :
    Steady b b'' :=
  ⟨h'.script.trans h.script, h.settings.trans h'.settings⟩

theorem Bench.steady_onBoard {α : Type} {work : Chip.Bus α} (b : Bench)
    (h : Chip.Keeps (Chip.SameSettings b.board.chip) work) : Steady b (b.onBoard work).1 := by
  refine ⟨script_onBoard work b, ?_⟩
  have hk := h b.board (.refl _)
  unfold Chip.final at hk
  unfold onBoard
  split at hk <;> rename_i he <;> simpa only [he] using hk

namespace Driver

variable (h : Hardware) (d : Driver) (b : Bench)

theorem steady_checkOnce : b.Steady (d.checkOnce b).1 := by
  have hb := b.steady_onBoard (Chip.settings_checkTransmit d.config)
  unfold checkOnce
  split <;> rename_i he <;> rwa [he] at hb

theorem steady_checkTransmit (looks : Nat) : b.Steady (d.checkTransmit looks b).state := by
  have hb := d.steady_checkOnce b
  unfold checkTransmit
  split <;> rename_i he <;> rw [he] at hb
  · exact hb
  · exact hb.trans (Bench.steady_onBoard _ (Chip.settings_abandonTransmit d.config))
  · exact hb

theorem transmit_keeps (payload : List UInt8) :
    (d.transmit h payload b).state.script.opened = b.script.opened ∧
    (d.transmit h payload b).state.script.inbound = b.script.inbound ∧
    Chip.SameSettings b.board.chip (d.transmit h payload b).state.board.chip := by
  unfold transmit
  cases h with
  | scripted =>
    simp only [ScriptedRadio.transmit]
    split <;> exact ⟨rfl, rfl, .refl _⟩
  | board =>
    have hb := b.steady_onBoard (Chip.settings_beginTransmit d.config payload)
    simp only
    split <;> rename_i he <;> rw [he] at hb
    · exact ⟨by rw [hb.script], by rw [hb.script], hb.settings⟩
    · rename_i b'
      have hc := hb.trans (d.steady_checkTransmit b'
        (looksWithin (airtime d.config payload.length + transmitMargin) b'.board))
      exact ⟨by rw [hc.script], by rw [hc.script], hc.settings⟩
  | unavailable e => exact ⟨rfl, rfl, .refl _⟩

/-- A look does not change the configuration either. -/
theorem lookOnce_keeps :
    b.Steady (d.lookOnce b).state.1 ∧ (d.lookOnce b).state.2.config = d.config := by
  have hb := b.steady_onBoard (Chip.settings_look d.config)
  unfold lookOnce
  split <;> rename_i he <;> rw [he] at hb
  · exact ⟨hb, rfl⟩
  · exact ⟨hb, rfl⟩
  · rename_i b'
    have hc := hb.trans (b'.steady_onBoard Chip.settings_clearFlags)
    split <;> rename_i hf <;> rw [hf] at hc <;> exact ⟨hc, rfl⟩
  · rename_i b' _ _
    have hc := hb.trans (b'.steady_onBoard Chip.settings_clearFlags)
    simp only
    split <;> rename_i hf <;> rw [hf] at hc <;> exact ⟨hc, rfl⟩

theorem lookForFrame_keeps (looks : Nat) :
    b.Steady (d.lookForFrame looks b).state.1 ∧
    (d.lookForFrame looks b).state.2.config = d.config := lookOnce_keeps d b

theorem receive_keeps (timeout : Nat) :
    (d.receive h timeout b).state.1.script.opened = b.script.opened ∧
    (d.receive h timeout b).state.2.config = d.config ∧
    Chip.SameSettings b.board.chip (d.receive h timeout b).state.1.board.chip := by
  unfold receive
  cases h with
  | scripted =>
    simp only [ScriptedRadio.takeInbound]
    cases b.script.inbound with
    | nil => exact ⟨rfl, rfl, .refl _⟩
    | cons x rest => cases x <;> exact ⟨rfl, rfl, .refl _⟩
  | board =>
    have hl := lookForFrame_keeps d b (looksWithin timeout b.board)
    exact ⟨by rw [hl.1.script], hl.2, hl.1.settings⟩
  | unavailable e => exact ⟨rfl, rfl, .refl _⟩

theorem resumeReceive_keeps (l : Listening) :
    b.Steady (d.resumeReceive l b).state.1 ∧
    (d.resumeReceive l b).state.2.config = d.config := by
  cases l with
  | quiet => exact ⟨⟨rfl, .refl _⟩, rfl⟩
  | looking looks => exact lookForFrame_keeps d b looks

theorem runLooks_some {r : Received} (hr : (d.lookOnce b).result = some r) (looks : Nat) :
    d.runLooks looks b = ⟨(d.lookOnce b).state, (d.lookOnce b).log, (r, 0)⟩ := by
  unfold runLooks
  simp only [hr]

theorem runLooks_zero (hr : (d.lookOnce b).result = none) :
    d.runLooks 0 b = ⟨(d.lookOnce b).state, (d.lookOnce b).log, (.ok none, 0)⟩ := by
  unfold runLooks
  simp only [hr]

theorem runLooks_succ (hr : (d.lookOnce b).result = none) (looks : Nat) :
    (d.runLooks (looks + 1) b).state =
      ((d.lookOnce b).state.2.runLooks looks (d.lookOnce b).state.1).state ∧
    (d.runLooks (looks + 1) b).result.1 =
      ((d.lookOnce b).state.2.runLooks looks (d.lookOnce b).state.1).result.1 := by
  rw [show d.runLooks (looks + 1) b = _ by unfold runLooks; simp only [hr]; rfl]
  exact ⟨rfl, rfl⟩

theorem runLooks_keeps (looks : Nat) :
    b.Steady (d.runLooks looks b).state.1 ∧ (d.runLooks looks b).state.2.config = d.config := by
  induction looks generalizing d b with
  | zero =>
    have hl := lookOnce_keeps d b
    cases hr : (d.lookOnce b).result with
    | none => rwa [runLooks_zero d b hr]
    | some r => rwa [runLooks_some d b hr]
  | succ looks ih =>
    have hl := lookOnce_keeps d b
    cases hr : (d.lookOnce b).result with
    | none =>
      have hrest := ih (d.lookOnce b).state.2 (d.lookOnce b).state.1
      rw [(runLooks_succ d b hr looks).1]
      exact ⟨hl.1.trans hrest.1, hrest.2.trans hl.2⟩
    | some r => rwa [runLooks_some d b hr]

theorem runReceive_keeps (timeout : Nat) :
    (d.runReceive h timeout b).state.1.script.opened = b.script.opened ∧
    (d.runReceive h timeout b).state.2.config = d.config ∧
    Chip.SameSettings b.board.chip (d.runReceive h timeout b).state.1.board.chip := by
  obtain ⟨ho, hc, hs⟩ := receive_keeps h d b timeout
  unfold runReceive
  simp only
  split
  · exact ⟨ho, hc, hs⟩
  · exact ⟨ho, hc, hs⟩
  · rename_i ms looks _
    have hr := runLooks_keeps (d.receive h timeout b).state.2 (d.receive h timeout b).state.1 looks
    exact ⟨hr.1.script ▸ ho, hr.2.trans hc, hs.trans hr.1.settings⟩

@[simp] theorem script_sleep :
    (d.sleep h b).1.script.opened = b.script.opened ∧
    (d.sleep h b).1.script.inbound = b.script.inbound := by
  cases h with
  | scripted => exact ⟨rfl, rfl⟩
  | board => simp [sleep]
  | unavailable e => exact ⟨rfl, rfl⟩

end Driver

-- ---------------------------------------------------------------------------
-- Stations
-- ---------------------------------------------------------------------------

variable (s : Station)

def tuned : Option Config := s.driver.map Driver.config

theorem attached_eq_isSome_tuned : s.attached = s.tuned.isSome := by
  simp [attached, tuned]

/-- What everybody leaves alone who does not change over to another driver. -/
structure SameDriver (s s' : Station) : Prop where
  backend : s'.backend = s.backend
  tuned : s'.tuned = s.tuned
  opened : s'.bench.script.opened = s.bench.script.opened
  settings : Chip.SameSettings s.bench.board.chip s'.bench.board.chip

theorem SameDriver.refl : SameDriver s s := ⟨rfl, rfl, rfl, .refl _⟩

theorem SameDriver.trans {s s' s'' : Station} (h : SameDriver s s') (h' : SameDriver s' s'') :
    SameDriver s s'' :=
  ⟨h'.backend.trans h.backend, h'.tuned.trans h.tuned, h'.opened.trans h.opened,
    h.settings.trans h'.settings⟩

theorem sameDriver_beginSend (payload : List UInt8) : SameDriver s (s.beginSend payload).state := by
  unfold beginSend
  split
  · exact .refl s
  · exact .refl s
  · rename_i h d _ _
    have hk := d.transmit_keeps h s.bench payload
    exact ⟨rfl, rfl, hk.1, hk.2.2⟩

theorem sameDriver_resumeSend (length looks : Nat) :
    SameDriver s (s.resumeSend length looks).state := by
  unfold resumeSend
  split
  · exact .refl s
  · rename_i d _
    have hk := d.steady_checkTransmit s.bench looks
    exact ⟨rfl, rfl, congrArg ScriptedRadio.opened hk.script, hk.settings⟩

theorem sameDriver_progressListen {d : Driver} (hd : s.driver = some d)
    {e : Effect (Bench × Driver) (Progress Listening Received)}
    (ho : e.state.1.script.opened = s.bench.script.opened) (hc : e.state.2.config = d.config)
    (hs : Chip.SameSettings s.bench.board.chip e.state.1.board.chip) :
    SameDriver s (s.progressListen e).state :=
  ⟨rfl, by simp [tuned, progressListen, hd, hc], ho, hs⟩

theorem sameDriver_beginListen {ms : Nat} {e : Effect Station (Progress Listening Heard)}
    (he : s.beginListen ms = some e) : SameDriver s e.state := by
  unfold beginListen at he
  split at he
  · rename_i h d _ hd
    obtain rfl := Option.some.inj he
    obtain ⟨ho, hc, hs⟩ := d.receive_keeps h s.bench ms
    exact sameDriver_progressListen s hd ho hc hs
  · cases he

theorem sameDriver_resumeListen {l : Listening} {e : Effect Station (Progress Listening Heard)}
    (he : s.resumeListen l = some e) : SameDriver s e.state := by
  obtain ⟨d, hd, rfl⟩ := Option.map_eq_some_iff.mp he
  obtain ⟨hb, hc⟩ := d.resumeReceive_keeps s.bench l
  exact sameDriver_progressListen s hd (congrArg ScriptedRadio.opened hb.script) hc hb.settings

theorem sameDriver_receiveWithin (remaining : Nat) :
    SameDriver s (s.receiveWithin remaining).state := by
  induction remaining using Nat.strongRecOn generalizing s with
  | _ remaining ih =>
    rw [receiveWithin]
    split
    · exact .refl s
    · rename_i hpos
      have hslice : 0 < min sliceTime remaining := by simp only [sliceTime]; omega
      simp only
      split
      · rename_i h d _ hd
        obtain ⟨ho, hc, hs⟩ := d.runReceive_keeps h s.bench (min sliceTime remaining)
        have hsame := sameDriver_progressListen s hd (e := ⟨_, [], .paused 0 .quiet⟩) ho hc hs
        split
        · next ms hresult =>
          have htime := Driver.le_of_runReceive hresult
          exact hsame.trans (ih _ (by omega) _)
        · exact hsame
      · exact ih _ (by omega) s

theorem sameDriver_receive (timeout : Nat) : SameDriver s (s.receive timeout).state := by
  unfold receive
  split
  · exact .refl s
  · exact sameDriver_receiveWithin s timeout

-- ---------------------------------------------------------------------------
-- Changing over
-- ---------------------------------------------------------------------------

theorem release_keeps :
    s.release.state.backend = s.backend ∧
    s.release.state.bench.script.opened = s.bench.script.opened ∧
    s.release.state.bench.script.inbound = s.bench.script.inbound := by
  unfold release
  split
  · simp
  · exact ⟨rfl, rfl, rfl⟩

theorem tuned_release {h : Hardware} (hb : s.backend = .hardware h) :
    s.release.state.tuned = none := by
  unfold release
  split
  · rfl
  · rename_i hn
    cases hd : s.driver with
    | none => simp [tuned, hd]
    | some d => exact absurd hd (hn h d hb)

theorem backend_attachOpened (b : Bench) (r : Except RadioError Driver) :
    (s.attachOpened b r).1.backend = s.backend := by
  cases r <;> rfl

theorem backend_beginAttach (c : Config) : (s.beginAttach c).state.backend = s.backend := by
  unfold beginAttach
  split
  · rfl
  · simp only
    split
    · exact (backend_attachOpened _ _ _).trans s.release_keeps.1
    · exact s.release_keeps.1

theorem backend_finishAttach (o : Opening) : (s.finishAttach o).state.backend = s.backend :=
  backend_attachOpened s _ _

def Hardware.booked (h : Hardware) (c : Config) : List Config :=
  match h with
  | .scripted => [c]
  | _ => []

variable {s} {h : Hardware} {c : Config}

/-- What an opening that is over has come to at the radio: a driver for the configuration, or
none. -/
def Driver.Opens (h : Hardware) (c : Config) (b b' : Bench) : Except RadioError Driver → Prop
  | .ok d => d.config = c ∧ b'.script.opened = b.script.opened ++ h.booked c
  | .error _ => b'.script.opened = b.script.opened

def Opens (h : Hardware) (c : Config) (s s' : Station) : Except RadioError Device → Prop
  | .ok _ => s'.backend = s.backend ∧ s'.tuned = some c ∧
      s'.bench.script.opened = s.bench.script.opened ++ h.booked c
  | .error _ => s'.backend = s.backend ∧ s'.tuned = none ∧
      s'.bench.script.opened = s.bench.script.opened

theorem Driver.script_finishOpen (c : Config) (b : Bench) :
    (finishOpen (.settling c) b).state.script = b.script := by
  have hs := Bench.script_onBoard (Chip.bringUp c) b
  simp only [finishOpen]
  generalize b.onBoard (Chip.bringUp c) = r at hs ⊢
  rcases r with ⟨b', _ | _⟩ <;> exact hs

theorem Driver.script_beginOpen (c : Config) (b : Bench) :
    (beginOpen .board c b).state.script = b.script := by
  have hs := Bench.script_onBoard Chip.claim b
  simp only [beginOpen]
  generalize b.onBoard Chip.claim = r at hs ⊢
  rcases r with ⟨b₁, _ | _⟩
  · exact hs
  · cases c.fault? with
    | some fault => exact hs
    | none =>
      have hs₁ := Bench.script_onBoard Chip.identify b₁
      simp only
      generalize b₁.onBoard Chip.identify = r at hs₁ ⊢
      rcases r with ⟨b₂, _ | _⟩ <;> exact hs₁.trans hs

theorem Driver.opens_finishOpen (b : Bench) :
    Opens h c b (finishOpen (h.opening c) b).state (finishOpen (h.opening c) b).result := by
  have hsettling : ∀ h : Hardware, h.booked c = [] →
      Opens h c b (finishOpen (.settling c) b).state (finishOpen (.settling c) b).result := by
    intro h hn
    have hs := congrArg ScriptedRadio.opened (script_finishOpen c b)
    simp only [finishOpen] at hs ⊢
    generalize b.onBoard (Chip.bringUp c) = r at hs ⊢
    rcases r with ⟨b', _ | _⟩
    · exact hs
    · exact ⟨rfl, by rw [hn, List.append_nil]; exact hs⟩
  cases h with
  | scripted =>
    simp only [Hardware.opening, finishOpen, ScriptedRadio.openWith]
    cases b.script.nextOpenError with
    | none => exact ⟨rfl, rfl⟩
    | some reason => exact rfl
  | board => exact hsettling .board rfl
  | unavailable e => exact hsettling (.unavailable e) rfl

theorem Driver.Opens.attachOpened {b : Bench} {r : Except RadioError Driver} {s' : Station}
    (ho : Driver.Opens h c s'.bench b r) (hn : s'.tuned = none) (hb : s'.backend = s.backend)
    (hs : s'.bench.script.opened = s.bench.script.opened) :
    Station.Opens h c s (s'.attachOpened b r).1 (s'.attachOpened b r).2 := by
  cases r with
  | ok d => exact ⟨hb, congrArg some ho.1, by rw [← hs]; exact ho.2⟩
  | error e => exact ⟨hb, hn, ho.trans hs⟩

theorem opens_finishAttach (hn : s.tuned = none) :
    Opens h c s (s.finishAttach (h.opening c)).state (s.finishAttach (h.opening c)).result :=
  (Driver.opens_finishOpen s.bench).attachOpened hn rfl rfl

theorem Driver.opens_beginOpen (b : Bench) : match (beginOpen h c b).result with
    | .finished r => Opens h c b (beginOpen h c b).state r
    | .paused _ o => o = h.opening c ∧ (beginOpen h c b).state.script.opened = b.script.opened := by
  cases h with
  | scripted =>
    simp only [beginOpen]
    cases c.fault? with
    | some fault => exact rfl
    | none =>
      by_cases hd : b.script.openDelay = 0
      · simp only [hd, if_true]
        exact opens_finishOpen (h := .scripted) b
      · simp only [hd, if_false]
        exact ⟨rfl, trivial⟩
  | board =>
    have hs := congrArg ScriptedRadio.opened (script_beginOpen c b)
    simp only [beginOpen] at hs ⊢
    generalize b.onBoard Chip.claim = r at hs ⊢
    rcases r with ⟨b₁, _ | _⟩
    · exact hs
    · generalize c.fault? = fault at hs ⊢
      cases fault with
      | some fault => exact hs
      | none =>
        simp only at hs ⊢
        generalize b₁.onBoard Chip.identify = r at hs ⊢
        rcases r with ⟨b₂, _ | _⟩
        · exact hs
        · exact ⟨rfl, hs⟩
  | unavailable e => exact rfl

/-- In simulation there is nothing to open, so a driver is there at once. -/
theorem beginAttach_simulated (hb : s.backend = .simulated) (c : Config) :
    s.beginAttach c = ⟨s, [.simulatedConnect], .finished (.ok simulatedDevice)⟩ := by
  simp [beginAttach, hb]

theorem opens_beginAttach (hb : s.backend = .hardware h) : match (s.beginAttach c).result with
    | .finished r => Opens h c s (s.beginAttach c).state r
    | .paused _ o => o = h.opening c ∧ (s.beginAttach c).state.backend = s.backend ∧
        (s.beginAttach c).state.tuned = none ∧
        (s.beginAttach c).state.bench.script.opened = s.bench.script.opened := by
  have hr := s.release_keeps
  have hn := s.tuned_release hb
  have ho := Driver.opens_beginOpen (h := h) (c := c) s.release.state.bench
  simp only [beginAttach, hb]
  generalize Driver.beginOpen h c s.release.state.bench = e at ho ⊢
  rcases e with ⟨b, log, r | _⟩
  · exact Driver.Opens.attachOpened (r := r) ho hn hr.1 hr.2.1
  · exact ⟨ho.1, hb ▸ hr.1, hn, ho.2.trans hr.2.1⟩

-- ---------------------------------------------------------------------------
-- What an opening leaves alone
-- ---------------------------------------------------------------------------

theorem bench_attachOpened (s : Station) (b : Bench) (r : Except RadioError Driver) :
    (s.attachOpened b r).1.bench = b := by
  cases r <;> rfl

section Openings

variable {α : Type} {f : ScriptedRadio → α} (hf : ∀ r c, f (r.openWith c).1 = f r)
include hf

/-- What the scripted radio keeps when it is opened is kept whatever radio is opened. -/
theorem keeps_finishOpen (o : Opening) (b : Bench) :
    f (Driver.finishOpen o b).state.script = f b.script := by
  cases o with
  | resetting c => exact hf b.script c
  | settling c => exact congrArg f (Driver.script_finishOpen c b)

theorem keeps_beginOpen (h : Hardware) (c : Config) (b : Bench) :
    f (Driver.beginOpen h c b).state.script = f b.script := by
  cases h with
  | scripted =>
    simp only [Driver.beginOpen]
    cases c.fault? with
    | some fault => rfl
    | none =>
      by_cases hd : b.script.openDelay = 0
      · simp only [hd, if_true]
        exact keeps_finishOpen hf _ b
      · simp only [hd, if_false]
  | board => exact congrArg f (Driver.script_beginOpen c b)
  | unavailable e => rfl

theorem keeps_beginAttach (s : Station) (c : Config) :
    f (s.beginAttach c).state.bench.script = f s.release.state.bench.script := by
  unfold beginAttach
  split
  · rename_i hb
    simp [release, hb]
  · rename_i h _
    have hs := keeps_beginOpen hf h c s.release.state.bench
    simp only
    split
    · simpa only [bench_attachOpened] using hs
    · exact hs

theorem keeps_finishAttach (s : Station) (o : Opening) :
    f (s.finishAttach o).state.bench.script = f s.bench.script := by
  simp only [finishAttach, bench_attachOpened]
  exact keeps_finishOpen hf o s.bench

end Openings

theorem openWith_keeps (r : ScriptedRadio) (c : Config) :
    (r.openWith c).1.inbound = r.inbound ∧ (r.openWith c).1.transmitted = r.transmitted ∧
      (r.openWith c).1.sleeps = r.sleeps := by
  unfold ScriptedRadio.openWith
  split <;> exact ⟨rfl, rfl, rfl⟩

-- ---------------------------------------------------------------------------
-- What is to be received is taken by receives only
-- ---------------------------------------------------------------------------

theorem inbound_beginAttach (s : Station) (c : Config) :
    (s.beginAttach c).state.bench.script.inbound = s.bench.script.inbound :=
  (keeps_beginAttach (fun r c => (openWith_keeps r c).1) s c).trans s.release_keeps.2.2

theorem inbound_finishAttach (s : Station) (o : Opening) :
    (s.finishAttach o).state.bench.script.inbound = s.bench.script.inbound :=
  keeps_finishAttach (fun r c => (openWith_keeps r c).1) s o

theorem inbound_beginSend (s : Station) (payload : List UInt8) :
    (s.beginSend payload).state.bench.script.inbound = s.bench.script.inbound := by
  unfold beginSend
  split
  · rfl
  · rfl
  · rename_i h d _ _
    exact (d.transmit_keeps h s.bench payload).2.1

theorem inbound_resumeSend (s : Station) (length looks : Nat) :
    (s.resumeSend length looks).state.bench.script.inbound = s.bench.script.inbound := by
  unfold resumeSend
  split
  · rfl
  · rename_i d _
    exact congrArg ScriptedRadio.inbound (d.steady_checkTransmit s.bench looks).script

end RadioGateway.Station
