import Mathlib
import RadioGateway.Json.Number

/-!
# How far a double is rounded

A product of doubles is rounded to 53 bits, by half of the last one at most. So it is infinite only
beyond the largest double and half of its last bit, and what a reader makes of a significand and a
power of ten is no farther from the decimal than three such roundings.
-/

namespace RadioGateway.Decimal

open Float.Model
open Float.Model.UnpackedFloat

-- ---------------------------------------------------------------------------
-- Rounding
-- ---------------------------------------------------------------------------

theorem mantissa_shift (em : ExtendedMantissa) (k : Nat) :
    (em >>> k).mantissa = em.mantissa / 2 ^ k := by
  induction k with
  | zero => simp [HShiftRight.hShiftRight, Nat.repeat]
  | succ k ih =>
    have hstep : (em >>> (k + 1)).mantissa = (em >>> k).mantissa / 2 := rfl
    rw [hstep, ih, Nat.div_div_eq_div_mul, Nat.pow_succ]

theorem roundBit_shift (em : ExtendedMantissa) (k : Nat) :
    (em >>> (k + 1)).roundBit = (em.mantissa / 2 ^ k % 2 != 0) := by
  have hstep : (em >>> (k + 1)).roundBit = ((em >>> k).mantissa % 2 != 0) := rfl
  rw [hstep, mantissa_shift]

/-- Only a mantissa with its round bit set is rounded up. -/
theorem roundedMantissa_cases (em : ExtendedMantissa) : em.roundedMantissa = em.mantissa ∨
    em.roundBit = true ∧ em.roundedMantissa = em.mantissa + 1 := by
  obtain ⟨m, r, s⟩ := em
  cases r with
  | false => cases s <;> exact .inl rfl
  | true =>
    cases s with
    | true => exact .inr ⟨rfl, rfl⟩
    | false =>
      have hround : (⟨m, true, false⟩ : ExtendedMantissa).roundedMantissa = m + m % 2 := rfl
      rw [hround]
      obtain h | h := Nat.mod_two_eq_zero_or_one m
      · exact .inl (by rw [h, Nat.add_zero])
      · exact .inr ⟨rfl, by rw [h]⟩

/-- The mantissa `m` without its last `k` bits, rounded. -/
def rounded (m k : Nat) : Nat := ((⟨m, false, false⟩ : ExtendedMantissa) >>> k).roundedMantissa

theorem rounded_cases (m k : Nat) : rounded m k = m / 2 ^ k ∨
    ∃ j, k = j + 1 ∧ rounded m k = m / 2 ^ k + 1 ∧ (2 * (m / 2 ^ k) + 1) * 2 ^ j ≤ m := by
  unfold rounded
  rw [← mantissa_shift ⟨m, false, false⟩ k]
  obtain h | ⟨hbit, h⟩ := roundedMantissa_cases ((⟨m, false, false⟩ : ExtendedMantissa) >>> k)
  · exact .inl h
  cases k with
  | zero => simp [HShiftRight.hShiftRight, Nat.repeat] at hbit
  | succ j =>
    refine .inr ⟨j, rfl, h, ?_⟩
    rw [roundBit_shift] at hbit
    have hodd : m / 2 ^ j % 2 = 1 := by
      have : m / 2 ^ j % 2 ≠ 0 := by simpa using hbit
      omega
    have hhalf : m / 2 ^ (j + 1) = m / 2 ^ j / 2 := by rw [Nat.div_div_eq_div_mul, Nat.pow_succ]
    have hm : 2 * (m / 2 ^ j / 2) + 1 = m / 2 ^ j := by omega
    rw [mantissa_shift, hhalf, hm]
    exact Nat.div_mul_le_self m (2 ^ j)

/-- Rounding adds one part in `2 ^ 53` at most. -/
theorem rounded_le {m k : Nat} (hm : m ≠ 0) (hk : m.log2 = 52 + k) :
    rounded m k * 2 ^ k * 2 ^ 53 ≤ m * (2 ^ 53 + 1) := by
  obtain h | ⟨j, rfl, h, hhalf⟩ := rounded_cases m k
  · have := Nat.div_mul_le_self m (2 ^ k)
    rw [h, Nat.mul_add]
    exact Nat.le_trans (Nat.mul_le_mul_right _ this) (Nat.le_add_right _ _)
  · have hlog : 2 ^ 53 * 2 ^ j ≤ m := by
      rw [← Nat.pow_add, show 53 + j = m.log2 by omega]
      exact Nat.log2_self_le hm
    calc rounded m (j + 1) * 2 ^ (j + 1) * 2 ^ 53
        = ((2 * (m / 2 ^ (j + 1)) + 1) * 2 ^ j + 2 ^ j) * 2 ^ 53 := by rw [h, Nat.pow_succ]; ring
      _ ≤ (m + 2 ^ j) * 2 ^ 53 := Nat.mul_le_mul_right _ (Nat.add_le_add_right hhalf _)
      _ = m * 2 ^ 53 + 2 ^ 53 * 2 ^ j := by ring
      _ ≤ m * (2 ^ 53 + 1) := by rw [Nat.mul_add, Nat.mul_one]; exact Nat.add_le_add_left hlog _

theorem quotient_bounds {m k : Nat} (hm : m ≠ 0) (hk : m.log2 = 52 + k) :
    2 ^ 52 ≤ m / 2 ^ k ∧ m / 2 ^ k < 2 ^ 53 := by
  constructor
  · rw [Nat.le_div_iff_mul_le (Nat.two_pow_pos k), ← Nat.pow_add, ← hk]
    exact Nat.log2_self_le hm
  · rw [Nat.div_lt_iff_lt_mul (Nat.two_pow_pos k), ← Nat.pow_add]
    exact Nat.lt_of_lt_of_eq (Nat.lt_log2_self) (by rw [hk]; congr 1; omega)

theorem targetExponent_eq (m : Nat) (e : Int) :
    Format.binary64.targetExponent (totalExponent m e) = max ((m.log2 : Int) + e - 52) (-1074) := by
  simp only [Format.targetExponent, totalExponent, Format.mantissaBits, Format.minExponent]
  norm_num
  omega

/-- The bits that do not fit are shifted out. -/
theorem shift_long {m k : Nat} {e : Int} (hk : m.log2 = 52 + k) (he : -1074 ≤ e + k) :
    shiftToTargetExponent .binary64 m e .exact =
      ((⟨m, false, false⟩ : ExtendedMantissa) >>> k, e + k) := by
  have ht : (Format.binary64.targetExponent (totalExponent m e) - e).toNat = k := by
    rw [targetExponent_eq, hk]
    omega
  simp only [shiftToTargetExponent, shiftToExponent, ht]
  rfl

theorem shift_short {m : Nat} {e : Int} (hm : m < 2 ^ 53) (he : -1074 ≤ e) :
    shiftToTargetExponent .binary64 m e .exact = (⟨m, false, false⟩, e) := by
  have hlog : m.log2 ≤ 52 := by
    by_cases h : m = 0
    · simp [h]
    · have := (Nat.log2_lt h).mpr hm
      omega
  have ht : (Format.binary64.targetExponent (totalExponent m e) - e).toNat = 0 := by
    rw [targetExponent_eq]
    omega
  simp only [shiftToTargetExponent, shiftToExponent, ht]
  exact congrArg _ (Int.add_zero e)

/-- What is rounded to the next power of two loses a zero. -/
theorem shift_carry {e : Int} (he : -1074 ≤ e) :
    shiftToTargetExponent .binary64 (2 ^ 53) e .exact = (⟨2 ^ 52, false, false⟩, e + 1) := by
  have ht : (Format.binary64.targetExponent (totalExponent (2 ^ 53) e) - e).toNat = 1 := by
    rw [targetExponent_eq, Nat.log2_two_pow]
    omega
  simp only [shiftToTargetExponent, shiftToExponent, ht]
  rfl

theorem roundWithAccuracy_cases (s : Sign) {m k : Nat} {e : Int} (hm : m ≠ 0) (hk : m.log2 = 52 + k)
    (he : -1074 ≤ e + k) :
    (∃ h, roundWithAccuracy .binary64 s m e .exact = .finite s (rounded m k) (e + k) h ∧
      2 ^ 52 ≤ rounded m k ∧ rounded m k < 2 ^ 53) ∨
    ∃ h, roundWithAccuracy .binary64 s m e .exact = .finite s (2 ^ 52) (e + k + 1) h ∧
      rounded m k = 2 ^ 53 := by
  obtain ⟨hlow, hhigh⟩ := quotient_bounds hm hk
  have hround : rounded m k = m / 2 ^ k ∨ rounded m k = m / 2 ^ k + 1 :=
    (rounded_cases m k).imp_right fun ⟨_, _, h, _⟩ => h
  by_cases hcarry : rounded m k < 2 ^ 53
  · refine .inl ⟨by omega, ?_, by omega, hcarry⟩
    have hpos : rounded m k ≠ 0 := by omega
    rw [roundWithAccuracy, shift_long hk he]
    simp only
    rw [← rounded, shift_short hcarry he]
    simp only [dif_neg hpos]
  · have hcarry : rounded m k = 2 ^ 53 := by omega
    refine .inr ⟨by decide, ?_, hcarry⟩
    rw [roundWithAccuracy, shift_long hk he]
    simp only
    rw [← rounded, hcarry, shift_carry he]
    rfl

-- ---------------------------------------------------------------------------
-- Values
-- ---------------------------------------------------------------------------

/-- The least number that is rounded to infinity: between the largest double and the next power of
two. -/
def overflow : ℚ := (2 ^ 54 - 1) * 2 ^ (970 : Int)

/-- One part in `2 ^ 53`, which is the most that rounding adds. -/
def slack : ℚ := 1 + 1 / 2 ^ 53

theorem one_le_slack : 1 ≤ slack := by
  norm_num [slack]

theorem slack_pos : 0 < slack := by
  unfold slack
  positivity

/-- A double of one at least, with all of its bits, that is not more than `bound`. -/
def Near (u : UnpackedFloat) (bound : ℚ) : Prop :=
  ∃ (m : Nat) (e : Int) (h : 0 < m), u = .finite .positive m e h ∧ 2 ^ 52 ≤ m ∧ m < 2 ^ 53 ∧
    -52 ≤ e ∧ e ≤ 971 ∧ (m : ℚ) * 2 ^ e ≤ bound

theorem two_zpow_lt_iff {a b : Int} : (2 : ℚ) ^ a < 2 ^ b ↔ a < b :=
  zpow_lt_zpow_iff_right₀ one_lt_two

theorem two_zpow_add (a : Int) (k : Nat) : (2 : ℚ) ^ (a + k) = 2 ^ k * 2 ^ a := by
  rw [zpow_add₀ two_ne_zero, zpow_natCast, mul_comm]

theorem overflow_eq : overflow = ((2 ^ 54 - 1) * 2 ^ 970 : Nat) := by
  have hones : ((2 ^ 54 - 1 : Nat) : ℚ) = 2 ^ 54 - 1 := by norm_num
  rw [overflow, zpow_ofNat, Nat.cast_mul, Nat.cast_pow, Nat.cast_ofNat, hones]

theorem ten_pow_lt_overflow : (10 : ℚ) ^ 308 < overflow := by
  have h : 10 ^ 308 < (2 ^ 54 - 1) * 2 ^ 970 := by decide +kernel
  rw [overflow_eq]
  exact_mod_cast h

theorem overflow_lt_ten_pow : overflow < 10 ^ 309 := by
  have h : (2 ^ 54 - 1) * 2 ^ 970 < 10 ^ 309 := by decide +kernel
  rw [overflow_eq]
  exact_mod_cast h

theorem overflow_lt : overflow < 2 ^ (1024 : Int) :=
  calc overflow < 2 ^ 54 * 2 ^ (970 : Int) := mul_lt_mul_of_pos_right (by norm_num) (by positivity)
    _ = 2 ^ (1024 : Int) := (two_zpow_add 970 54).symm

section Round

variable {m k : Nat} {e : Int}

/-- A number of one at least has its point among its bits or behind them. -/
theorem le_exponent (hk : m.log2 = 52 + k) (hone : 1 ≤ (m : ℚ) * 2 ^ e) : -52 ≤ e + k := by
  have hm : (m : ℚ) < 2 ^ (53 + k) := by
    have := Nat.lt_log2_self (n := m)
    rw [hk, show 52 + k + 1 = 53 + k by omega] at this
    exact_mod_cast this
  have hlt : (2 : ℚ) ^ (0 : Int) < 2 ^ (e + (53 + k : Nat)) := by
    rw [zpow_zero, two_zpow_add]
    exact lt_of_le_of_lt hone (mul_lt_mul_of_pos_right hm (by positivity))
  have := two_zpow_lt_iff.mp hlt
  omega

/-- Below the overflow the last bit that is kept has its place. -/
theorem exponent_le (hm : m ≠ 0) (hk : m.log2 = 52 + k) (hov : (m : ℚ) * 2 ^ e < overflow) :
    e + k ≤ 971 := by
  have hlow : (2 : ℚ) ^ (52 + k) ≤ m := by
    have := Nat.log2_self_le hm
    rw [hk] at this
    exact_mod_cast this
  have hlt : (2 : ℚ) ^ (e + (52 + k : Nat)) < 2 ^ (1024 : Int) := by
    rw [two_zpow_add]
    exact lt_trans (lt_of_le_of_lt (mul_le_mul_of_nonneg_right hlow (by positivity)) hov)
      overflow_lt
  have := two_zpow_lt_iff.mp hlt
  omega

/-- If all bits are ones and a carry makes the next power of two of them, the number lies half a bit
above them at least. -/
theorem exponent_lt_of_carry (hm : m ≠ 0) (hk : m.log2 = 52 + k) (hov : (m : ℚ) * 2 ^ e < overflow)
    (hcarry : rounded m k = 2 ^ 53) : e + k < 971 := by
  obtain ⟨-, hhigh⟩ := quotient_bounds hm hk
  obtain h | ⟨j, rfl, h, hhalf⟩ := rounded_cases m k
  · omega
  have hq : 2 * (m / 2 ^ (j + 1)) + 1 = 2 ^ 54 - 1 := by omega
  rw [hq] at hhalf
  have hhalf : ((2 : ℚ) ^ 54 - 1) * 2 ^ j ≤ m := by
    have : ((2 ^ 54 - 1 : Nat) : ℚ) * (2 ^ j : Nat) ≤ m := by exact_mod_cast hhalf
    norm_num at this ⊢
    exact this
  have hlt : ((2 : ℚ) ^ 54 - 1) * 2 ^ (e + j) < (2 ^ 54 - 1) * 2 ^ (970 : Int) := by
    rw [two_zpow_add, ← mul_assoc]
    exact lt_of_le_of_lt (mul_le_mul_of_nonneg_right hhalf (by positivity)) hov
  have := two_zpow_lt_iff.mp (lt_of_mul_lt_mul_left hlt (by norm_num))
  push_cast
  omega

theorem rounded_value_le (hm : m ≠ 0) (hk : m.log2 = 52 + k) :
    (rounded m k : ℚ) * 2 ^ (e + k) ≤ m * 2 ^ e * slack := by
  have h : (rounded m k : ℚ) * 2 ^ k * 2 ^ 53 ≤ m * (2 ^ 53 + 1) := by
    exact_mod_cast rounded_le hm hk
  have hle : (rounded m k : ℚ) * 2 ^ k ≤ m * slack := by
    unfold slack
    linarith
  calc
    (rounded m k : ℚ) * 2 ^ (e + k) = rounded m k * 2 ^ k * 2 ^ e := by rw [two_zpow_add, mul_assoc]
    _ ≤ m * slack * 2 ^ e := mul_le_mul_of_nonneg_right hle (by positivity)
    _ = m * 2 ^ e * slack := by ring

theorem near_round (hlog : 52 ≤ m.log2) (hone : 1 ≤ (m : ℚ) * 2 ^ e)
    (hov : (m : ℚ) * 2 ^ e < overflow) :
    Near (roundWithAccuracy .binary64 .positive m e .exact) (m * 2 ^ e * slack) := by
  obtain ⟨k, hk⟩ := Nat.exists_eq_add_of_le hlog
  have hm : m ≠ 0 := by
    rintro rfl
    simp at hlog
  have hlow := le_exponent hk hone
  have hvalue := rounded_value_le (e := e) hm hk
  obtain ⟨h, hround, hlow', hhigh⟩ | ⟨h, hround, hcarry⟩ :=
    roundWithAccuracy_cases .positive hm hk (by omega : -1074 ≤ e + k)
  · exact ⟨_, _, h, hround, hlow', hhigh, hlow, exponent_le hm hk hov, hvalue⟩
  · have hlt := exponent_lt_of_carry hm hk hov hcarry
    refine ⟨_, _, h, hround, by decide, by decide, by omega, by omega, ?_⟩
    rw [hcarry] at hvalue
    calc ((2 ^ 52 : Nat) : ℚ) * 2 ^ (e + k + 1) = ((2 ^ 53 : Nat) : ℚ) * 2 ^ (e + k) := by
          rw [zpow_add_one₀ two_ne_zero]
          push_cast
          ring
      _ ≤ m * 2 ^ e * slack := hvalue

end Round

-- ---------------------------------------------------------------------------
-- The bits of a double
-- ---------------------------------------------------------------------------

section Pack

variable {spec : Format} (s : Sign) (exponent : BitVec spec.exponentBits)
  (mantissa : BitVec spec.mantissaBitsWithoutImplicit)

theorem unpackSign_packComponents :
    unpackSign (packComponents spec s exponent mantissa) = s.toBitVec := by
  apply BitVec.eq_of_getElem_eq
  intro i hi
  have hi : i = 0 := by omega
  subst hi
  simp only [unpackSign, packComponents, BitVec.getElem_cast, BitVec.extractLsb,
    BitVec.getElem_extractLsb', BitVec.getLsbD_append]
  rw [if_neg (by omega), if_neg (by omega)]
  simp only [Nat.add_zero, Nat.add_sub_cancel_left, Nat.sub_self]
  exact BitVec.getLsbD_eq_getElem _

theorem unpack_packComponents (hones : exponent ≠ -1#_) (hzero : exponent ≠ 0#_)
    (hpos : 0 < (1#1 ++ mantissa).toNat) :
    UnpackedFloat.unpack spec (packComponents spec s exponent mantissa) =
      .finite s (1#1 ++ mantissa).toNat
        (exponent.toNat - (spec.exponentBias + spec.mantissaBitsWithoutImplicit)) hpos := by
  have hsign : Sign.ofBitVec s.toBitVec = s := by cases s <;> rfl
  simp only [UnpackedFloat.unpack, unpackMantissa_packComponents, unpackExponent_packComponents,
    unpackSign_packComponents, hsign, if_neg hones, if_neg hzero]

end Pack

theorem toNat_cons_mantissa {m : Nat} (hlow : 2 ^ 52 ≤ m) (hhigh : m < 2 ^ 53) :
    (1#1 ++ BitVec.ofNat 52 m).toNat = m := by
  have hrest : (BitVec.ofNat 52 m).toNat = m - 2 ^ 52 := by
    rw [BitVec.toNat_ofNat]
    omega
  rw [BitVec.toNat_append, hrest, Nat.shiftLeft_eq, Nat.mul_comm,
    ← Nat.two_pow_add_eq_or_of_lt (by omega)]
  show 2 ^ 52 * 1 + (m - 2 ^ 52) = m
  omega

theorem pack_normal (s : Sign) {m b : Nat} {e : Int} (h : 0 < m) (hlow : 2 ^ 52 ≤ m)
    (hhigh : m < 2 ^ 53) (hb : e = b - (1023 + 52)) (hroom : b + 1 < 2048) :
    UnpackedFloat.pack .binary64 (.finite s m e h) =
      packComponents .binary64 s (BitVec.ofNat 11 b) (BitVec.ofNat 52 m) := by
  have hbiased :
      (e + Format.binary64.exponentBias + Format.binary64.mantissaBitsWithoutImplicit).toNat =
        b := by
    show (e + 1023 + 52).toNat = b
    omega
  have hall : m.log2 + 1 = Format.binary64.mantissaBits := by
    rw [(Nat.log2_eq_iff (by omega)).mpr ⟨hlow, hhigh⟩]
    rfl
  simp only [UnpackedFloat.pack, hbiased, if_pos hall]
  exact if_neg (Nat.not_le.mpr hroom)

/-- A double with all of its bits is found again in its 64 bits. -/
theorem unpack_pack (s : Sign) {m : Nat} {e : Int} (h : 0 < m) (hlow : 2 ^ 52 ≤ m)
    (hhigh : m < 2 ^ 53) (he : -1074 ≤ e) (he' : e ≤ 971) :
    (Float.Model.pack (.finite s m e h)).unpack = .finite s m e h := by
  obtain ⟨b, rfl⟩ : ∃ b : Nat, e = b - (1023 + 52) := ⟨(e + 1075).toNat, by omega⟩
  have hnat : (BitVec.ofNat 11 b).toNat = b := by
    rw [BitVec.toNat_ofNat]
    omega
  have hones : BitVec.ofNat 11 b ≠ -1#11 := by
    intro hb
    rw [hb] at hnat
    have : (-1#11 : BitVec 11).toNat = 2047 := rfl
    omega
  have hzero : BitVec.ofNat 11 b ≠ 0#11 := by
    intro hb
    rw [hb] at hnat
    have : (0#11 : BitVec 11).toNat = 0 := rfl
    omega
  have hvalue := toNat_cons_mantissa hlow hhigh
  have hunpack := @unpack_packComponents .binary64 s (BitVec.ofNat 11 b)
    (BitVec.ofNat 52 m) hones hzero
    (Nat.lt_of_lt_of_eq h hvalue.symm)
  show UnpackedFloat.unpack .binary64
    (UnpackedFloat.pack .binary64 (.finite s m (b - (1023 + 52)) h)) = _
  rw [pack_normal s h hlow hhigh rfl (by omega), hunpack]
  simp only [hnat, hvalue]
  rfl

-- ---------------------------------------------------------------------------
-- Products of doubles
-- ---------------------------------------------------------------------------

theorem Near.mono {u : UnpackedFloat} {a b : ℚ} (h : Near u a) (hab : a ≤ b) : Near u b := by
  obtain ⟨m, e, h, hu, hlow, hhigh, he, he', hle⟩ := h
  exact ⟨m, e, h, hu, hlow, hhigh, he, he', hle.trans hab⟩

theorem Near.unpack_pack {u : UnpackedFloat} {bound : ℚ} (h : Near u bound) :
    (Float.Model.pack u).unpack = u := by
  obtain ⟨m, e, h, rfl, hlow, hhigh, he, he', -⟩ := h
  exact Decimal.unpack_pack .positive h hlow hhigh (by omega) he'

theorem Near.isInf {u : UnpackedFloat} {bound : ℚ} (h : Near u bound) : u.isInf = false := by
  obtain ⟨m, e, h, rfl, -⟩ := h
  rfl

theorem one_le_value {m : Nat} {e : Int} (hm : 2 ^ 52 ≤ m) (he : -52 ≤ e) :
    1 ≤ (m : ℚ) * 2 ^ e := by
  have hm : (2 : ℚ) ^ 52 ≤ m := by exact_mod_cast hm
  calc (1 : ℚ) = 2 ^ 52 * 2 ^ (-52 : Int) := by norm_num
    _ ≤ m * 2 ^ e :=
      mul_le_mul hm (zpow_le_zpow_right₀ one_le_two he) (by positivity) (by positivity)

theorem Near.mul {u v : UnpackedFloat} {a b : ℚ} (hu : Near u a) (hv : Near v b)
    (hov : a * b < overflow) : Near (UnpackedFloat.mul .binary64 u v) (a * b * slack) := by
  obtain ⟨m, e, h, rfl, hlow, -, he, -, hle⟩ := hu
  obtain ⟨n, f, h', rfl, hlow', -, hf, -, hle'⟩ := hv
  have hlog : 52 ≤ (m * n).log2 := by
    rw [Nat.le_log2 (Nat.mul_ne_zero (by omega) (by omega))]
    exact Nat.le_trans hlow (Nat.le_mul_of_pos_right m h')
  have hone := one_le_value hlow he
  have hone' := one_le_value hlow' hf
  have hvalue : ((m * n : Nat) : ℚ) * 2 ^ (e + f) = m * 2 ^ e * (n * 2 ^ f) := by
    rw [zpow_add₀ two_ne_zero]
    push_cast
    ring
  have hprod : (m : ℚ) * 2 ^ e * (n * 2 ^ f) ≤ a * b := mul_le_mul hle hle' (by positivity)
    (by linarith)
  refine Near.mono (near_round hlog ?_ ?_)
    (mul_le_mul_of_nonneg_right (hvalue.trans_le hprod) slack_pos.le)
  · exact hvalue ▸ one_le_mul_of_one_le_of_one_le hone hone'
  · exact hvalue ▸ lt_of_le_of_lt hprod hov

/-- A natural number that has too few bits is shifted up first. -/
theorem near_ofNat {n : Nat} (hn : 0 < n) (hov : (n : ℚ) < overflow) :
    Near (UnpackedFloat.ofNat .binary64 n) (n * slack) := by
  have hround : UnpackedFloat.ofNat .binary64 n = UnpackedFloat.round .binary64 .positive n 0 := by
    obtain ⟨k, rfl⟩ := Nat.exists_eq_succ_of_ne_zero (by omega : n ≠ 0)
    rfl
  obtain ⟨k, hk, hlog⟩ : ∃ k : Nat, UnpackedFloat.round .binary64 .positive n 0 =
      roundWithAccuracy .binary64 .positive (n * 2 ^ k) (-k) .exact ∧ 52 ≤ (n * 2 ^ k).log2 := by
    refine ⟨52 - n.log2, ?_, ?_⟩
    · have ht : (0 - Format.binary64.targetExponent (totalExponent n 0)).toNat = 52 - n.log2 := by
        rw [targetExponent_eq]
        omega
      simp only [UnpackedFloat.round, decreaseExponent, ht, Nat.shiftLeft_eq]
      rw [Int.zero_sub]
    · rw [Nat.le_log2 (Nat.mul_ne_zero (by omega) (by positivity))]
      calc 2 ^ 52 ≤ 2 ^ (n.log2 + (52 - n.log2)) := Nat.pow_le_pow_right (by decide) (by omega)
        _ = 2 ^ n.log2 * 2 ^ (52 - n.log2) := Nat.pow_add _ _ _
        _ ≤ n * 2 ^ (52 - n.log2) := Nat.mul_le_mul_right _ (Nat.log2_self_le (by omega))
  have hvalue : ((n * 2 ^ k : Nat) : ℚ) * 2 ^ (-k : Int) = n := by
    rw [zpow_neg, zpow_natCast]
    push_cast
    exact mul_inv_cancel_right₀ (by positivity) _
  rw [hround, hk]
  refine (near_round hlog ?_ ?_).mono (le_of_eq (congrArg (· * slack) hvalue))
  · exact hvalue ▸ (by exact_mod_cast hn)
  · exact hvalue ▸ hov

theorem near_ofScientific {k : Nat} (hk : k ≤ 308) :
    Near (UnpackedFloat.ofScientific .binary64 1 k) (10 ^ k * slack) := by
  have hmul : UnpackedFloat.ofScientific .binary64 1 k =
      roundWithAccuracy .binary64 .positive (2 ^ 53 * 10 ^ k) (-53) .exact := by
    have hbig : ¬(k : Int) > 2 ^ Format.binary64.exponentBits := by
      show ¬(k : Int) > 2048
      omega
    have hsmall : ¬(k : Int) < -(2 ^ Format.binary64.exponentBits + (Nat.log2 1 : Nat)) := by
      show ¬(k : Int) < -(2048 + 0)
      omega
    rw [UnpackedFloat.ofScientific, dif_neg (by decide), if_neg hbig,
      if_neg hsmall, if_pos (by omega)]
    rfl
  have hvalue : ((2 ^ 53 * 10 ^ k : Nat) : ℚ) * 2 ^ (-53 : Int) = 10 ^ k :=
    calc ((2 ^ 53 * 10 ^ k : Nat) : ℚ) * 2 ^ (-53 : Int) = 10 ^ k * (2 ^ 53 * 2 ^ (-53 : Int)) := by
          push_cast
          ring
      _ = 10 ^ k := by norm_num
  rw [hmul]
  refine (near_round ?_ ?_ ?_).mono (le_of_eq (congrArg (· * slack) hvalue))
  · rw [Nat.le_log2 (by positivity)]
    exact Nat.le_trans (by decide) (Nat.le_mul_of_pos_right _ (Nat.pow_pos (by decide)))
  · exact hvalue ▸ one_le_pow₀ (by norm_num)
  · rw [hvalue]
    exact (pow_le_pow_right₀ (by norm_num) hk).trans_lt ten_pow_lt_overflow

end RadioGateway.Decimal

namespace RadioGateway.Json

open RadioGateway.Decimal
open Float.Model

-- ---------------------------------------------------------------------------
-- A significand and a power of ten
-- ---------------------------------------------------------------------------

theorem near_toFloat {n : Nat} (hn : 0 < n) (hlt : n < 2 ^ 64) :
    Near n.toUInt64.toFloat.toModel.unpack (n * slack) := by
  have hnat : n.toUInt64.toNat = n := Nat.mod_eq_of_lt hlt
  have hov : (n : ℚ) < overflow := by
    have : (n : ℚ) < 10 ^ 308 := by
      have : n < 10 ^ 308 := Nat.lt_trans hlt (by decide +kernel)
      exact_mod_cast this
    exact this.trans ten_pow_lt_overflow
  have hnear := near_ofNat hn hov
  have hmodel : n.toUInt64.toFloat.toModel =
      Float.Model.pack (UnpackedFloat.ofNat .binary64 n.toUInt64.toNat) := rfl
  rw [hmodel, hnat, hnear.unpack_pack]
  exact hnear

/-- The small powers of ten are exact. -/
theorem toModel_powerOfTen {k : Nat} (hk : k ≤ 308) :
    (powerOfTen k).toModel = Float.Model.pack (UnpackedFloat.ofNat .binary64 (10 ^ k)) ∨
    (powerOfTen k).toModel = Float.Model.pack (UnpackedFloat.ofScientific .binary64 1 k) := by
  by_cases hsmall : k ≤ 22
  · left
    have hall : ∀ k < 23,
        (powerOfTen k).toModel = Float.Model.pack (UnpackedFloat.ofNat .binary64 (10 ^ k)) := by
      decide +kernel
    exact hall k (by omega)
  · right
    rw [powerOfTen, Float.ofScientific, dif_neg (by omega)]
    rfl

theorem near_powerOfTen {k : Nat} (hk : k ≤ 308) :
    Near (powerOfTen k).toModel.unpack (10 ^ k * slack) := by
  obtain h | h := toModel_powerOfTen hk
  · have hnear : Near (UnpackedFloat.ofNat .binary64 (10 ^ k)) (10 ^ k * slack) := by
      have hov := (pow_le_pow_right₀ (by norm_num : (1 : ℚ) ≤ 10) hk).trans_lt ten_pow_lt_overflow
      have := near_ofNat (n := 10 ^ k) (Nat.pow_pos (by decide)) (by exact_mod_cast hov)
      exact_mod_cast this
    rw [h, hnear.unpack_pack]
    exact hnear
  · rw [h, (near_ofScientific hk).unpack_pack]
    exact near_ofScientific hk

/-- A significand and a power of ten that stay below the overflow with two roundings are a
number. -/
theorem scale_natural {significand e : Nat} (hpos : 0 < significand) (hlt : significand < 2 ^ 64)
    (hov : (significand : ℚ) * 10 ^ e * slack ^ 2 < overflow) :
    ∃ x, scale significand e = some x := by
  have he : e ≤ 308 := by
    by_contra hbig
    have hone : (1 : ℚ) ≤ significand := by exact_mod_cast hpos
    have hle : (10 : ℚ) ^ 309 ≤ significand * 10 ^ e * slack ^ 2 :=
      calc (10 : ℚ) ^ 309 ≤ 1 * 10 ^ e * 1 := by
            rw [one_mul, mul_one]
            exact pow_le_pow_right₀ (by norm_num) (by omega)
        _ ≤ significand * 10 ^ e * slack ^ 2 := by
            gcongr
            exact one_le_pow₀ one_le_slack
    exact absurd (hle.trans_lt hov) overflow_lt_ten_pow.not_gt
  have hnear := (near_toFloat hpos hlt).mul (near_powerOfTen he) (lt_of_eq_of_lt (by ring) hov)
  have hinf : (significand.toUInt64.toFloat * powerOfTen e).isInf = false := by
    show (Float.Model.pack (UnpackedFloat.mul .binary64 significand.toUInt64.toFloat.toModel.unpack
      (powerOfTen e).toModel.unpack)).unpack.isInf = false
    rw [hnear.unpack_pack]
    exact hnear.isInf
  show ∃ x, scale significand (.ofNat e) = some x
  simp only [scale, if_pos he, hinf]
  exact ⟨_, rfl⟩

/-- A division makes no number too large. -/
theorem scale_negative {significand : Nat} {exponent : Int} (h : exponent < 0) :
    ∃ x, scale significand exponent = some x := by
  obtain ⟨e, rfl⟩ := Int.eq_negSucc_of_lt_zero h
  simp only [scale]
  split
  · exact ⟨_, rfl⟩
  · split <;> exact ⟨_, rfl⟩

end RadioGateway.Json
