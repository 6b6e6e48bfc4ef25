import RadioGateway.Proofs.Decoding

/-!
# Slow symbols

The optimisation for low data rates goes by the bandwidth that was asked for. The modem works with
the smallest step that is not below it, and its symbols are the shorter for that: between two steps
the optimisation can be on although no symbol lasts long enough.
-/

namespace RadioGateway.Chip

open RadioGateway.Radio (Config)

variable {c : Config} {chip : Chip}

/-- The optimisation for low data rates is on. -/
def optimized (chip : Chip) : Bool := (chip.get Register.modemConfig3).toNat.testBit 3

/-- At this bandwidth, in Hz, a symbol lasts 16 ms or more: 2 to the spreading factor chips of one
period each. -/
def SlowAt (bandwidth spreadingFactor : Nat) : Prop := 16 * bandwidth ≤ 2 ^ spreadingFactor * 1000

theorem SlowAt.narrower {hz hz' factor : Nat} (h : SlowAt hz' factor) (hle : hz ≤ hz') :
    SlowAt hz factor :=
  (Nat.mul_le_mul_left 16 hle).trans h

/-- That the duration is cut to whole microseconds does not matter, as 16 ms are a whole number of
them. -/
theorem optimizesLowRate_iff (hv : c.Valid) :
    optimizesLowRate c = true ↔ SlowAt c.bandwidth c.spreadingFactor := by
  have hpos : 0 < c.bandwidth := by
    have := hv.bandwidth.1
    omega
  have hmicros : c.symbolMicros = .ok (1 <<< c.spreadingFactor * 1000000 / c.bandwidth) :=
    if_neg (Nat.ne_of_gt hpos)
  rw [optimizesLowRate_of_micros hmicros, Radio.slowSymbol, decide_eq_true_eq,
    Nat.le_div_iff_mul_le hpos, Nat.one_shiftLeft, SlowAt]
  omega

theorem Programmed.optimized (h : Programmed c chip) : chip.optimized = optimizesLowRate c := by
  have hbyte : chip.get Register.modemConfig3 = modem3 c := h.get (by simp [settings])
  rw [Chip.optimized, hbyte, modem3]
  cases optimizesLowRate c <;> decide

theorem Programmed.optimized_iff (h : Programmed c chip) (hv : c.Valid) :
    chip.optimized = true ↔ SlowAt c.bandwidth c.spreadingFactor := by
  rw [h.optimized, optimizesLowRate_iff hv]

end RadioGateway.Chip

namespace RadioGateway.Station

open RadioGateway.Chip
open RadioGateway.Radio

/-- Where the optimisation for low data rates agrees with the symbols of the modem, which works at
the step `B` of its bandwidth code, the smallest that is not below the bandwidth that was asked for.
An opening at which nothing fails succeeds. After it the optimisation is on exactly if a symbol
would last 16 ms at the bandwidth that was asked for. So it is on whenever a symbol of the modem
lasts 16 ms; and it is on without need exactly if a symbol would last 16 ms at that bandwidth but
does not at that step. -/
theorem optimized_for_bandwidth (c : Config) (hv : c.Valid) :
    (∀ b : Bench, b.board.faults = [] → b.board.claimFaults = [] →
      b.board.chip.get Register.version = chipVersion → b.board.chip.refusesLora = false →
        (Driver.runOpen .board c b).result.1 = .ok { config := c }) ∧
    ∀ b d, (Driver.runOpen .board c b).result.1 = .ok d →
      let chip := (Driver.runOpen .board c b).state.board.chip
      let B := bandwidthSteps.getD ((chip.get Register.modemConfig1).toNat / 16) 0
      (B ∈ bandwidthSteps ∧ c.bandwidth ≤ B ∧ ∀ step ∈ bandwidthSteps,
        c.bandwidth ≤ step → B ≤ step) ∧
      (chip.optimized = true ↔ 2 ^ c.spreadingFactor * 1000 ≥ 16 * c.bandwidth) ∧
      (2 ^ c.spreadingFactor * 1000 ≥ 16 * B → chip.optimized = true) ∧
      ((chip.optimized = true ↔ 2 ^ c.spreadingFactor * 1000 ≥ 16 * B) ↔
        ¬(16 * c.bandwidth ≤ 2 ^ c.spreadingFactor * 1000 ∧
          2 ^ c.spreadingFactor * 1000 < 16 * B)) := by
  refine ⟨fun b hs hclaim hversion hlora => Driver.runOpen_of_sure hv hs hclaim hversion hlora, ?_⟩
  intro b d hopen chip B
  have hprogrammed : Programmed c chip := Driver.programmed_runOpen hopen
  have hasked : chip.optimized = true ↔ SlowAt c.bandwidth c.spreadingFactor :=
    hprogrammed.optimized_iff hv
  obtain ⟨hstep, hle, hleast⟩ := hprogrammed.bandwidthStep hv
  have hslow (h : SlowAt B c.spreadingFactor) : SlowAt c.bandwidth c.spreadingFactor :=
    h.narrower hle
  refine ⟨⟨List.mem_of_getElem? hstep, hle, hleast⟩, hasked, fun h => hasked.mpr (hslow h), ?_⟩
  rw [hasked, ge_iff_le]
  unfold SlowAt at hslow ⊢
  constructor
  · rintro hiff ⟨hon, hshort⟩
    exact absurd (hiff.mp hon) (Nat.not_le.mpr hshort)
  · intro hagree
    exact ⟨fun hon => Nat.not_lt.mp fun hshort => hagree ⟨hon, hshort⟩, hslow⟩

/-- The longest symbols at the usual bandwidth, of more than 32 ms. -/
theorem optimized_for_longest_symbols :
    let chip := (Driver.runOpen .board { spreadingFactor := 12 } freshBench).state.board.chip
    ({ spreadingFactor := 12 } : Config).Valid ∧ chip.optimized = true := by
  have hv : ({ spreadingFactor := 12 } : Config).Valid := by constructor <;> decide +kernel
  obtain ⟨hopens, hmodem⟩ := optimized_for_bandwidth { spreadingFactor := 12 } hv
  obtain ⟨-, hasked, -⟩ := hmodem freshBench _ (hopens freshBench rfl rfl (by decide) rfl)
  exact ⟨hv, hasked.mpr (by decide)⟩

/-- At 63 kHz and a spreading factor of 10 the modem works at 125 kHz, where a symbol lasts little
more than 8 ms, and yet the optimisation is on. -/
theorem optimized_between_steps :
    ¬∀ (c : Config) (b : Bench) (d : Driver), c.Valid →
    (Driver.runOpen .board c b).result.1 = .ok d →
      let chip := (Driver.runOpen .board c b).state.board.chip
      let B := bandwidthSteps.getD ((chip.get Register.modemConfig1).toNat / 16) 0
      (chip.optimized = true ↔ 2 ^ c.spreadingFactor * 1000 ≥ 16 * B) := by
  intro hclaim
  have hv : ({ bandwidth := 63000, spreadingFactor := 10 } : Config).Valid := by
    constructor <;> decide +kernel
  have hopen := Driver.runOpen_of_sure (b := freshBench) hv rfl rfl (by decide) rfl
  have hprogrammed := Driver.programmed_runOpen hopen
  have hindex := hprogrammed.bandwidthIndex hv
  have hiff := hclaim _ freshBench _ hv hopen
  unfold bandwidthIndex at hindex
  simp only [hindex] at hiff
  -- a symbol would be slow at 63 kHz, but it is not at 125 kHz
  have hon := (hprogrammed.optimized_iff hv).mpr (show 16 * 63000 ≤ 2 ^ 10 * 1000 by decide)
  have hshort : ¬2 ^ 10 * 1000 ≥ 16 * bandwidthSteps.getD (bandwidthCode 63000) 0 := by decide
  exact hshort (hiff.mp hon)

end RadioGateway.Station
