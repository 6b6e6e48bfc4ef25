import Mathlib.Data.Rat.Cast.Order
import Mathlib.Tactic.Linarith
import Mathlib.Tactic.Positivity
import RadioGateway.Proofs.OnAir

/-!
# What the registers of the settings say

The settings of a configuration that was accepted are computed without an overflow and without the
loss of a bit, so that the registers can be read back. They say what the configuration says, but for
the bandwidth and the carrier frequency, which go by the steps of the chip.
-/

namespace RadioGateway.Chip

open RadioGateway.Radio (Config)

variable {c c' : Config} {chip chip' : Chip}

-- ---------------------------------------------------------------------------
-- Arithmetic in words
-- ---------------------------------------------------------------------------

/-- A number, if a word of so many bits holds it. -/
def inWord (bits n : Nat) : Option Nat := if n < 2 ^ bits then some n else none

/-- A number, if a signed byte holds it. -/
def inSignedByte (i : Int) : Option Int := if -128 ≤ i ∧ i < 128 then some i else none

/-- No bit is moved out of the word. -/
def shiftedUp (bits n places : Nat) : Option Nat :=
  if places < bits then inWord bits (n <<< places) else none

def difference (n m : Nat) : Option Nat := if m ≤ n then some (n - m) else none

def quotient (n m : Nat) : Option Nat := if m = 0 then none else some (n / m)

/-- No bit is set on both sides. -/
def joined (n m : Nat) : Option Nat := if n &&& m = 0 then some (n ||| m) else none

/-- No bit is cleared. -/
def masked (n mask : Nat) : Option Nat := if n &&& mask = n then some n else none

def unsigned (i : Int) : Option Nat := if 0 ≤ i then inWord 8 i.toNat else none

theorem inWord_of_lt {bits n : Nat} (h : n < 2 ^ bits) : inWord bits n = some n := if_pos h

theorem shiftedUp_of_lt {bits n places : Nat} (hp : places < bits) (h : n <<< places < 2 ^ bits) :
    shiftedUp bits n places = some (n <<< places) := by
  rw [shiftedUp, if_pos hp, inWord_of_lt h]

theorem difference_of_le {n m : Nat} (h : m ≤ n) : difference n m = some (n - m) := if_pos h

theorem quotient_of_ne {n m : Nat} (h : m ≠ 0) : quotient n m = some (n / m) := if_neg h

/-- Bits below a place are set apart from those that are moved up to it. -/
theorem joined_of_lt {n m places : Nat} (h : m < 2 ^ places) :
    joined (n <<< places) m = some (n * 2 ^ places + m) := by
  have hapart : n <<< places &&& m = 0 := by
    refine Nat.eq_of_testBit_eq fun i => ?_
    rw [Nat.testBit_and, Nat.testBit_shiftLeft, Nat.zero_testBit]
    by_cases hi : places ≤ i
    · rw [Nat.testBit_lt_two_pow (h.trans_le (Nat.pow_le_pow_right (by decide) hi)), Bool.and_false]
    · simp [hi]
  rw [joined, if_pos hapart, ← Nat.shiftLeft_add_eq_or_of_lt h, Nat.shiftLeft_eq]

-- ---------------------------------------------------------------------------
-- The settings, step by step
-- ---------------------------------------------------------------------------

/-- The carrier frequency is shifted up in 64 bits. Three bytes hold the word that is left. -/
def exactFrequency (c : Config) : Option (List UInt8) := do
  let shifted ← shiftedUp 64 c.hertz 19
  let word ← quotient shifted oscillator
  let high ← inWord 8 (word >>> 16)
  return [UInt8.ofNat high, UInt8.ofNat (word >>> 8), UInt8.ofNat word]

def exactModem1 (c : Config) : Option UInt8 := do
  let code ← inWord 8 (bandwidthCode c.bandwidth)
  let high ← shiftedUp 8 code 4
  let low ← shiftedUp 8 (← difference c.codingRate 4) 1
  return UInt8.ofNat (← joined high low)

def exactModem2 (c : Config) : Option UInt8 := do
  let high ← shiftedUp 8 c.spreadingFactor 4
  return UInt8.ofNat (← joined high 4)

/-- The duration of a symbol in microseconds. -/
def exactMicros (c : Config) : Option Nat := do
  let chips ← shiftedUp 64 1 c.spreadingFactor
  quotient (← inWord 64 (chips * 1000000)) c.bandwidth

def exactModem3 (c : Config) : Option UInt8 := do
  let micros ← exactMicros c
  let high ← shiftedUp 8 (Radio.slowSymbol micros).toNat 3
  return UInt8.ofNat (← joined high 4)

/-- The power without what the strong amplifier adds, in a signed byte. -/
def exactBase (power : Int) : Option Int :=
  if 20 < power then inSignedByte (power - 3) else some power

def exactPower (c : Config) : Option UInt8 := do
  let power ← inSignedByte (max 5 (min c.txPower 23))
  let level ← unsigned (← inSignedByte ((← exactBase power) - 5))
  return UInt8.ofNat (← joined 0x80 (← masked level 0x0F))

/-- There are no settings if a step leaves its word, divides by zero or loses a bit. -/
def exactSettings (c : Config) : Option (List RegisterWrite) := do
  let frequency ← exactFrequency c
  let modem1 ← exactModem1 c
  let modem2 ← exactModem2 c
  let modem3 ← exactModem3 c
  let power ← exactPower c
  return [(Register.frf, frequency),
    (Register.modemConfig1, [modem1]),
    (Register.modemConfig2, [modem2]),
    (Register.modemConfig3, [modem3]),
    (Register.detectionOptimize, [(detection c).1]),
    (Register.detectionThreshold, [(detection c).2]),
    (Register.preamble, [0x00, UInt8.ofNat Radio.preambleLength]),
    (Register.paDac, [amplifier c]),
    (Register.paConfig, [power]),
    (Register.lna, [0x23]),
    (Register.dioMapping1, [0x00])]

/-- The highest frequency of the chip in Hz. -/
def highestCarrier : Nat := 1020000000

theorem frequencyWord_eq (c : Config) : frequencyWord c = c.hertz * 2 ^ 19 / oscillator := by
  rw [frequencyWord, Nat.shiftLeft_eq]

theorem frequencyWord_lt (h : c.hertz ≤ highestCarrier) : frequencyWord c < 2 ^ 24 := by
  rw [frequencyWord_eq]
  simp only [highestCarrier, oscillator] at h ⊢
  omega

theorem bandwidthCode_lt (hz : Nat) : bandwidthCode hz < bandwidthSteps.length := by
  unfold bandwidthCode
  cases h : bandwidthSteps.findIdx? (hz ≤ ·) with
  | none => decide
  | some i => exact (List.findIdx?_eq_some_iff_findIdx_eq.mp h).1

theorem exactFrequency_eq (h : c.hertz ≤ highestCarrier) :
    exactFrequency c = some (bytes3 (frequencyWord c)) := by
  have hshift : c.hertz <<< 19 < 2 ^ 64 := by
    rw [Nat.shiftLeft_eq]
    simp only [highestCarrier] at h
    omega
  have hhigh : frequencyWord c >>> 16 < 2 ^ 8 := by
    have hword := frequencyWord_lt h
    rw [Nat.shiftRight_eq_div_pow]
    omega
  unfold exactFrequency
  rw [shiftedUp_of_lt (by decide) hshift, Option.bind_eq_bind, Option.bind_some,
    quotient_of_ne (by decide), Option.bind_some]
  show (inWord 8 (frequencyWord c >>> 16)).bind _ = _
  rw [inWord_of_lt hhigh]
  rfl

theorem exactModem1_eq (hv : c.Valid) : exactModem1 c = some (modem1 c) := by
  have hcode : bandwidthCode c.bandwidth < 10 := bandwidthCode_lt c.bandwidth
  obtain ⟨hleast, hmost⟩ := hv.codingRate
  have hlow : (c.codingRate - 4) <<< 1 < 2 ^ 4 := by
    rw [Nat.shiftLeft_eq]
    omega
  have hhigh : bandwidthCode c.bandwidth <<< 4 < 2 ^ 8 := by
    rw [Nat.shiftLeft_eq]
    omega
  unfold exactModem1
  simp only [inWord_of_lt (show bandwidthCode c.bandwidth < 2 ^ 8 by omega),
    shiftedUp_of_lt (show 4 < 8 by decide) hhigh, difference_of_le (show 4 ≤ c.codingRate by omega),
    shiftedUp_of_lt (show 1 < 8 by decide) (hlow.trans (by decide)), joined_of_lt hlow,
    Option.bind_eq_bind, Option.bind_some]
  rw [Nat.shiftLeft_eq]
  rfl

theorem exactModem2_eq (hv : c.Valid) : exactModem2 c = some (modem2 c) := by
  obtain ⟨hleast, hmost⟩ := hv.spreadingFactor
  have hhigh : c.spreadingFactor <<< 4 < 2 ^ 8 := by
    rw [Nat.shiftLeft_eq]
    omega
  unfold exactModem2
  rw [shiftedUp_of_lt (by decide) hhigh, Option.bind_eq_bind, Option.bind_some,
    joined_of_lt (by decide)]
  rfl

theorem exactMicros_eq (hv : c.Valid) :
    ∃ micros, exactMicros c = some micros ∧ c.symbolMicros = .ok micros := by
  obtain ⟨hleast, hmost⟩ := hv.spreadingFactor
  have hbandwidth : c.bandwidth ≠ 0 := by
    have := hv.bandwidth.1
    omega
  have hpow : 2 ^ c.spreadingFactor ≤ 2 ^ 12 := Nat.pow_le_pow_right (by decide) hmost
  have hchips : 1 <<< c.spreadingFactor < 2 ^ 64 := by
    rw [Nat.one_shiftLeft]
    omega
  have hscaled : 1 <<< c.spreadingFactor * 1000000 < 2 ^ 64 := by
    rw [Nat.one_shiftLeft]
    omega
  refine ⟨_, ?_, if_neg hbandwidth⟩
  unfold exactMicros
  rw [shiftedUp_of_lt (by omega) hchips, Option.bind_eq_bind, Option.bind_some,
    inWord_of_lt hscaled, Option.bind_some, quotient_of_ne hbandwidth]

theorem optimizesLowRate_of_micros {micros : Nat} (h : c.symbolMicros = .ok micros) :
    optimizesLowRate c = Radio.slowSymbol micros := by
  unfold optimizesLowRate
  rw [h]

theorem exactModem3_eq (hv : c.Valid) : exactModem3 c = some (modem3 c) := by
  obtain ⟨micros, hexact, hmicros⟩ := exactMicros_eq hv
  unfold exactModem3 modem3
  rw [hexact, optimizesLowRate_of_micros hmicros]
  simp only [Option.bind_eq_bind, Option.bind_some]
  cases Radio.slowSymbol micros <;> rfl

/-- The level of the output power above the least that its amplifier gives. -/
def powerLevel (c : Config) : Nat :=
  ((if strongAmplifier c then c.txPower - 3 else c.txPower) - 5).toNat

theorem powerLevel_lt (hv : c.Valid) : powerLevel c < 16 := by
  obtain ⟨hleast, hmost⟩ := hv.txPower
  unfold powerLevel strongAmplifier
  split <;> rename_i h <;> simp only [decide_eq_true_eq] at h <;> omega

theorem txPower_eq (hv : c.Valid) :
    c.txPower = powerLevel c + if strongAmplifier c then 8 else 5 := by
  obtain ⟨hleast, hmost⟩ := hv.txPower
  unfold powerLevel strongAmplifier
  split <;> rename_i h <;> simp only [decide_eq_true_eq] at h <;> omega

theorem clamp_eq (hv : c.Valid) : max 5 (min c.txPower 23) = c.txPower := by
  obtain ⟨hleast, hmost⟩ := hv.txPower
  omega

/-- What any level that four bits hold becomes in the register of the output power. -/
theorem level_bits : ∀ level < 16, masked level 0x0F = some level ∧
    joined 0x80 level = some (128 + level) ∧
    0x80 ||| (UInt8.ofNat level &&& 0x0F) = UInt8.ofNat (128 + level) := by
  decide

theorem outputPower_eq (hv : c.Valid) : outputPower c = UInt8.ofNat (128 + powerLevel c) := by
  unfold outputPower
  simp only [clamp_eq hv]
  exact (level_bits _ (powerLevel_lt hv)).2.2

theorem exactPower_eq (hv : c.Valid) : exactPower c = some (outputPower c) := by
  obtain ⟨hleast, hmost⟩ := hv.txPower
  have hlevel := powerLevel_lt hv
  have hfits (i : Int) (h : 0 ≤ i ∧ i < 128) : inSignedByte i = some i := if_pos (by omega)
  have hunsigned : unsigned ((powerLevel c : Nat) : Int) = some (powerLevel c) := by
    rw [unsigned, if_pos (by omega), Int.toNat_natCast, inWord_of_lt (by omega)]
  have hbase : exactBase c.txPower = some (powerLevel c + 5 : Int) := by
    have heq := txPower_eq hv
    unfold exactBase
    simp only [strongAmplifier, decide_eq_true_eq] at heq
    split at heq <;> rename_i h
    · rw [if_pos h, hfits _ (by omega)]
      exact congrArg some (by omega)
    · rw [if_neg h]
      exact congrArg some heq
  unfold exactPower
  rw [clamp_eq hv, hfits c.txPower (by omega)]
  simp only [Option.bind_eq_bind, Option.bind_some, hbase, Int.add_sub_cancel,
    hfits (powerLevel c) (by omega), hunsigned, (level_bits _ hlevel).1, (level_bits _ hlevel).2.1]
  rw [outputPower_eq hv]
  rfl

theorem exactSettings_eq (hv : c.Valid) (h : c.hertz ≤ highestCarrier) :
    exactSettings c = some (settings c) := by
  unfold exactSettings
  rw [exactFrequency_eq h, exactModem1_eq hv, exactModem2_eq hv,
    exactModem3_eq hv, exactPower_eq hv]
  rfl

-- ---------------------------------------------------------------------------
-- Reading the registers
-- ---------------------------------------------------------------------------

/-- The word in the three bytes of the carrier frequency. -/
def carrierWord (chip : Chip) : Nat :=
  (chip.registers.load Register.frf 3).foldl (fun n b => n * 256 + b.toNat) 0

/-- The frequency that a word stands for, in Hz. -/
def carrier (chip : Chip) : ℚ := chip.carrierWord * oscillator / 2 ^ 19

def bandwidthIndex (chip : Chip) : Nat := (chip.get Register.modemConfig1).toNat / 16

/-- The bandwidth in Hz that the modem is set to. -/
def bandwidthStep (chip : Chip) : Nat := bandwidthSteps.getD chip.bandwidthIndex 0

def codingRateBits (chip : Chip) : Nat := (chip.get Register.modemConfig1).toNat / 2 % 8

def spreadingFactor (chip : Chip) : Nat := (chip.get Register.modemConfig2).toNat / 16

def outputLevel (chip : Chip) : Nat := (chip.get Register.paConfig).toNat % 16

/-- What the registers say of a configuration. -/
structure Decodes (c : Config) (chip : Chip) : Prop where
  carrierWord : chip.carrierWord = c.hertz * 2 ^ 19 / 32000000
  carrier : chip.carrier ≤ c.hertz ∧ (c.hertz : ℚ) < chip.carrier + 62
  /-- The index is that of the smallest step that is not below the bandwidth. -/
  bandwidth : bandwidthSteps[chip.bandwidthIndex]? = some chip.bandwidthStep ∧
    c.bandwidth ≤ chip.bandwidthStep ∧
    ∀ step ∈ bandwidthSteps, c.bandwidth ≤ step → chip.bandwidthStep ≤ step
  codingRate : chip.codingRateBits = c.codingRate - 4 ∧
    (chip.get Register.modemConfig1).toNat % 2 = 0
  /-- Of the other bits only the one for the checksum is set. -/
  spreadingFactor : chip.spreadingFactor = c.spreadingFactor ∧
    (chip.get Register.modemConfig2).toNat % 16 = 0x04
  txPower : chip.get Register.paDac = 0x84 ∧ c.txPower = chip.outputLevel + 5 ∨
    chip.get Register.paDac = 0x87 ∧ c.txPower = chip.outputLevel + 8
  boost : (chip.get Register.paConfig).toNat / 128 = 1

theorem Programmed.get (h : Programmed c chip) {a : Address} {b : UInt8}
    (hw : (a, [b]) ∈ settings c) : chip.get a = b := by
  have hload := h (a, [b]) (List.mem_append_right _ hw)
  exact (List.cons.inj hload).1

theorem Programmed.carrierWord (h : Programmed c chip) (hc : c.hertz ≤ highestCarrier) :
    chip.carrierWord = frequencyWord c := by
  have hload : chip.registers.load Register.frf 3 = bytes3 (frequencyWord c) :=
    h (Register.frf, bytes3 (frequencyWord c)) (List.mem_append_right _ List.mem_cons_self)
  have hword := frequencyWord_lt hc
  unfold Chip.carrierWord
  rw [hload]
  simp only [bytes3, List.foldl_cons, List.foldl_nil, UInt8.toNat_ofNat', Nat.shiftRight_eq_div_pow]
  omega

/-- A frequency is met from below, by less than 62 Hz. -/
theorem carrier_of_word (h : chip.carrierWord = c.hertz * 2 ^ 19 / 32000000) :
    chip.carrier ≤ c.hertz ∧ (c.hertz : ℚ) < chip.carrier + 62 := by
  have hle : chip.carrierWord * 32000000 ≤ c.hertz * 2 ^ 19 := by omega
  have hlt : c.hertz * 2 ^ 19 < chip.carrierWord * 32000000 + 62 * 2 ^ 19 := by omega
  have hle' : (chip.carrierWord * 32000000 : ℚ) ≤ c.hertz * 2 ^ 19 := by exact_mod_cast hle
  have hlt' : (c.hertz * 2 ^ 19 : ℚ) < chip.carrierWord * 32000000 + 62 * 2 ^ 19 := by
    exact_mod_cast hlt
  have hoscillator : (oscillator : ℚ) = 32000000 := by norm_num [oscillator]
  unfold carrier
  rw [hoscillator, div_le_iff₀ (by positivity)]
  refine ⟨hle', ?_⟩
  rw [← sub_lt_iff_lt_add, lt_div_iff₀ (by positivity)]
  linarith

/-- The steps go up, so that the first that is not below a bandwidth is the smallest. -/
theorem bandwidthCode_least {hz : Nat} (h : hz ≤ 500000) :
    ∃ step, bandwidthSteps[bandwidthCode hz]? = some step ∧ hz ≤ step ∧
      ∀ other ∈ bandwidthSteps, hz ≤ other → step ≤ other := by
  have hsorted : bandwidthSteps.Pairwise (· ≤ ·) := by decide
  unfold bandwidthCode
  cases hfind : bandwidthSteps.findIdx? (hz ≤ ·) with
  | none =>
    have hbelow := List.findIdx?_eq_none_iff.mp hfind 500000 (by decide)
    simp only [decide_eq_false_iff_not] at hbelow
    exact absurd h hbelow
  | some i =>
    obtain ⟨hi, hle, hfirst⟩ := List.findIdx?_eq_some_iff_getElem.mp hfind
    refine ⟨bandwidthSteps[i], List.getElem?_eq_getElem hi, by simpa using hle, ?_⟩
    intro other hother hle'
    obtain ⟨k, hk, rfl⟩ := List.mem_iff_getElem.mp hother
    rcases Nat.lt_trichotomy k i with hlt | rfl | hlt
    · exact absurd (decide_eq_true hle') (hfirst k hlt)
    · exact Nat.le_refl _
    · exact List.pairwise_iff_getElem.mp hsorted i k hi hk hlt

theorem Programmed.modem1_toNat (h : Programmed c chip) (hv : c.Valid) :
    (chip.get Register.modemConfig1).toNat = bandwidthCode c.bandwidth * 16 +
      (c.codingRate - 4) * 2 := by
  have hcode : bandwidthCode c.bandwidth < 10 := bandwidthCode_lt c.bandwidth
  obtain ⟨hleast, hmost⟩ := hv.codingRate
  rw [h.get (b := modem1 c) (by simp [settings]), modem1, UInt8.toNat_ofNat']
  omega

theorem Programmed.modem2_toNat (h : Programmed c chip) (hv : c.Valid) :
    (chip.get Register.modemConfig2).toNat = c.spreadingFactor * 16 + 4 := by
  obtain ⟨hleast, hmost⟩ := hv.spreadingFactor
  rw [h.get (b := modem2 c) (by simp [settings]), modem2, UInt8.toNat_ofNat']
  omega

theorem Programmed.paConfig_toNat (h : Programmed c chip) (hv : c.Valid) :
    (chip.get Register.paConfig).toNat = 128 + powerLevel c := by
  have hlevel := powerLevel_lt hv
  rw [h.get (b := outputPower c) (by simp [settings]), outputPower_eq hv, UInt8.toNat_ofNat']
  omega

theorem Programmed.bandwidthIndex (h : Programmed c chip) (hv : c.Valid) :
    chip.bandwidthIndex = bandwidthCode c.bandwidth := by
  obtain ⟨hleast, hmost⟩ := hv.codingRate
  rw [Chip.bandwidthIndex, h.modem1_toNat hv]
  omega

theorem Programmed.bandwidthStep (h : Programmed c chip) (hv : c.Valid) :
    bandwidthSteps[chip.bandwidthIndex]? = some chip.bandwidthStep ∧
    c.bandwidth ≤ chip.bandwidthStep ∧
      ∀ step ∈ bandwidthSteps, c.bandwidth ≤ step → chip.bandwidthStep ≤ step := by
  obtain ⟨step, hstep, hle, hleast⟩ := bandwidthCode_least hv.bandwidth.2
  have hcode : chip.bandwidthStep = step := by
    rw [Chip.bandwidthStep, h.bandwidthIndex hv, List.getD_eq_getElem?_getD, hstep]
    rfl
  rw [h.bandwidthIndex hv, hcode]
  exact ⟨hstep, hle, hleast⟩

theorem Programmed.decodes (h : Programmed c chip) (hv : c.Valid) (hc : c.hertz ≤ highestCarrier) :
    Decodes c chip := by
  have hword : chip.carrierWord = c.hertz * 2 ^ 19 / 32000000 :=
    (h.carrierWord hc).trans (frequencyWord_eq c)
  have hpower := h.paConfig_toNat hv
  have hlevel := powerLevel_lt hv
  have hdbm := txPower_eq hv
  refine ⟨hword, carrier_of_word hword, h.bandwidthStep hv, ?_, ?_, ?_, ?_⟩
  · obtain ⟨-, hmost⟩ := hv.codingRate
    rw [codingRateBits, h.modem1_toNat hv]
    omega
  · rw [Chip.spreadingFactor, h.modem2_toNat hv]
    omega
  · have hdac := h.get (a := Register.paDac) (b := amplifier c) (by simp [settings])
    have hbits : chip.outputLevel = powerLevel c := by
      rw [outputLevel, hpower]
      omega
    rw [hdac, hbits, amplifier]
    cases hs : strongAmplifier c <;> simp only [hs] at hdbm
    · exact .inl ⟨rfl, hdbm⟩
    · exact .inr ⟨rfl, hdbm⟩
  · omega

/-- What the registers of the settings tell apart. -/
structure SameModem (c c' : Config) : Prop where
  codingRate : c'.codingRate = c.codingRate
  spreadingFactor : c'.spreadingFactor = c.spreadingFactor
  txPower : c'.txPower = c.txPower
  bandwidthCode : bandwidthCode c'.bandwidth = bandwidthCode c.bandwidth
  frequencyWord : frequencyWord c' = frequencyWord c

theorem SameSettings.carrierWord (h : SameSettings chip chip') :
    chip'.carrierWord = chip.carrierWord := by
  have hspan : ∀ x ∈ span Register.frf 3, x ∈ settingRegisters := by decide
  unfold Chip.carrierWord
  rw [Memory.load_congr fun x hx => h x (hspan x hx)]

theorem Memory.get_of_load {n count : Nat} {m m' : Memory n} {a : Fin n}
    (h : m'.load a count = m.load a count) : ∀ x ∈ span a count, m'.get x = m.get x := by
  induction count generalizing a with
  | zero => simp [span]
  | succ count ih =>
    obtain ⟨hfirst, hrest⟩ := List.cons.inj h
    intro x hx
    rcases List.mem_cons.mp hx with rfl | hx
    · exact hfirst
    · exact ih hrest x hx

/-- The same writes leave the same registers. -/
theorem Programmed.sameSettings (h : Programmed c chip) (h' : Programmed c' chip')
    (he : settings c' = settings c) : SameSettings chip chip' := by
  have hwrites : programming c' = programming c := congrArg (baseAddresses ++ ·) he
  intro x hx
  obtain ⟨p, hp, hspan⟩ := List.mem_flatMap.mp hx
  rw [← places_programming c] at hp
  obtain ⟨w, hw, rfl⟩ := List.mem_map.mp hp
  have hload := h' w (hwrites.symm ▸ hw)
  exact Memory.get_of_load (hload.trans (h w hw).symm) x hspan

/-- Configurations that program the same registers agree in all that can be read back from them. -/
theorem Programmed.sameModem (h : Programmed c chip) (h' : Programmed c' chip')
    (hs : SameSettings chip chip') (hv : c.Valid) (hv' : c'.Valid) (hc : c.hertz ≤ highestCarrier)
    (hc' : c'.hertz ≤ highestCarrier) : SameModem c c' := by
  have hd := h.decodes hv hc
  have hd' := h'.decodes hv' hc'
  have hmodem1 : chip'.get Register.modemConfig1 = chip.get Register.modemConfig1 :=
    hs _ (by decide)
  have hmodem2 : chip'.get Register.modemConfig2 = chip.get Register.modemConfig2 :=
    hs _ (by decide)
  have hdac : chip'.get Register.paDac = chip.get Register.paDac := hs _ (by decide)
  have hpower : chip'.get Register.paConfig = chip.get Register.paConfig := hs _ (by decide)
  refine ⟨?_, ?_, ?_, ?_, ?_⟩
  · have hbits := hd.codingRate.1
    have hbits' := hd'.codingRate.1
    have hleast := hv.codingRate.1
    have hleast' := hv'.codingRate.1
    unfold codingRateBits at hbits hbits'
    rw [hmodem1] at hbits'
    omega
  · have hsame : chip'.spreadingFactor = chip.spreadingFactor := congrArg (·.toNat / 16) hmodem2
    exact hd'.spreadingFactor.1.symm.trans (hsame.trans hd.spreadingFactor.1)
  · have hlevel : chip'.outputLevel = chip.outputLevel := congrArg (·.toNat % 16) hpower
    have hpowers := hd.txPower
    have hpowers' := hd'.txPower
    rw [hdac, hlevel] at hpowers'
    -- the same amplifier is on, so that the same is added to the level
    rcases hpowers with ⟨hdefault, hdbm⟩ | ⟨hstrong, hdbm⟩
    · rcases hpowers' with ⟨-, hdbm'⟩ | ⟨hstrong, -⟩
      · exact hdbm'.trans hdbm.symm
      · cases hdefault.symm.trans hstrong
    · rcases hpowers' with ⟨hdefault, -⟩ | ⟨-, hdbm'⟩
      · cases hdefault.symm.trans hstrong
      · exact hdbm'.trans hdbm.symm
  · have hsame : chip'.bandwidthIndex = chip.bandwidthIndex := congrArg (·.toNat / 16) hmodem1
    exact (h'.bandwidthIndex hv').symm.trans (hsame.trans (h.bandwidthIndex hv))
  · exact (h'.carrierWord hc').symm.trans (hs.carrierWord.trans (h.carrierWord hc))

end RadioGateway.Chip

namespace RadioGateway.Station

open RadioGateway.Chip
open RadioGateway.Radio

variable {c : Config} {b : Bench} {d : Driver}

namespace Driver

theorem programmed_runOpen (h : (runOpen .board c b).result.1 = .ok d) :
    Programmed c (runOpen .board c b).state.board.chip := by
  obtain ⟨-, -, chip, -, hchip⟩ := configured_runOpen h
  exact hchip ▸ programmed_writes c chip

/-- Nothing goes wrong with an opening when no access fails, on a chip of the family that speaks
LoRa. -/
theorem runOpen_of_sure (hv : c.Valid) (hs : b.board.Sure) (hclaim : b.board.claimFaults = [])
    (hversion : b.board.chip.get Register.version = chipVersion)
    (hlora : b.board.chip.refusesLora = false) :
    (runOpen .board c b).result.1 = .ok { config := c } := by
  have hfault : c.fault? = none := (Config.fault?_eq_none_iff c).mpr hv
  have hbegun : (beginOpen .board c b).state.board.Sure :=
    stays_beginOpen sure_claim sure_identify hs
  rcases beginOpen_cases .board (by simp) hfault b
    with ⟨-, -, hclaimed | hother | hm⟩ | ⟨hr, -, hspeaks⟩
  · exact absurd hclaim hclaimed
  · exact absurd hversion hother
  · exact (hs.not_met _ hm).elim
  rcases finishOpen_cases c (beginOpen .board c b).state with ⟨-, -, hmute | hm⟩ | ⟨hr', -, -⟩
  · rw [hspeaks, hlora] at hmute
    cases hmute
  · exact (hbegun.not_met _ hm).elim
  · simp only [runOpen, hr, hr']

end Driver

/-- A configuration that was accepted is found in the registers again. Its settings are computed
without an overflow and without the loss of a bit, an opening at which nothing fails succeeds, and
after it the registers say what the configuration says: the frequency from below by less than 62 Hz,
the bandwidth rounded up to a step of the chip, and the rest exactly. So configurations that program
the same registers agree in all of it. -/
theorem settings_decode (c : Config) (hv : c.Valid) (hhertz : c.hertz ≤ 1020000000) :
    exactSettings c = some (settings c) ∧
    (∀ b : Bench, b.board.faults = [] → b.board.claimFaults = [] →
      b.board.chip.get Register.version = chipVersion → b.board.chip.refusesLora = false →
        (Driver.runOpen .board c b).result.1 = .ok { config := c }) ∧
    (∀ b d, (Driver.runOpen .board c b).result.1 = .ok d →
      Decodes c (Driver.runOpen .board c b).state.board.chip) ∧
    ∀ c', c'.Valid → c'.hertz ≤ 1020000000 → ∀ b b' d d',
      (Driver.runOpen .board c b).result.1 = .ok d →
      (Driver.runOpen .board c' b').result.1 = .ok d' →
        SameSettings (Driver.runOpen .board c b).state.board.chip
          (Driver.runOpen .board c' b').state.board.chip →
        SameModem c c' := by
  refine ⟨exactSettings_eq hv hhertz, fun b hs hclaim hversion hlora => ?_, fun b d hopen => ?_, ?_⟩
  · exact Driver.runOpen_of_sure hv hs hclaim hversion hlora
  · exact (Driver.programmed_runOpen hopen).decodes hv hhertz
  · intro c' hv' hhertz' b b' d d' hopen hopen' hsame
    exact (Driver.programmed_runOpen hopen).sameModem (Driver.programmed_runOpen hopen') hsame
      hv hv' hhertz hhertz'

/-- A chip that has just been switched on. -/
def freshBench : Bench := { board := { chip := Chip.fresh chipVersion } }

/-- The configuration that is used when nothing else is said, and one whose bandwidth is rounded up
to the same step. -/
theorem default_settings_decode :
    ({} : Config).Valid ∧ ({} : Config).hertz ≤ 1020000000 ∧ exactSettings {} = some (settings {}) ∧
      Decodes {} (Driver.runOpen .board {} freshBench).state.board.chip ∧
      SameModem {} { bandwidth := 100000 } := by
  have hhertz : ({} : Config).hertz ≤ 1020000000 := by decide +kernel
  have hv : ({ bandwidth := 100000 } : Config).Valid := by constructor <;> decide +kernel
  obtain ⟨hexact, hopens, hdecodes, hsame⟩ := settings_decode {} Config.valid_default hhertz
  have hopen := hopens freshBench rfl rfl (by decide) rfl
  have hopen' := Driver.runOpen_of_sure (b := freshBench) hv rfl rfl (by decide) rfl
  have hregisters :=
    (Driver.programmed_runOpen hopen).sameSettings (Driver.programmed_runOpen hopen')
    (by decide +kernel)
  exact ⟨Config.valid_default, hhertz, hexact, hdecodes _ _ hopen,
    hsame _ hv (by decide +kernel) _ _ _ _ hopen hopen' hregisters⟩

end RadioGateway.Station
