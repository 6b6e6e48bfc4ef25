import RadioGateway.Proofs.Doubles
import RadioGateway.Proofs.Scanning

/-!
# A double that is written is read as a number

The digits of a finite double are few enough for a significand of 64 bits, and what they say lies no
farther above the double than half of its last bit. So wherever the point stands, and with an
exponent or without one, a reader finds a number, never one out of range.
-/

namespace RadioGateway.Decimal

-- ---------------------------------------------------------------------------
-- Finite doubles
-- ---------------------------------------------------------------------------

/-- What the 64 bits of a finite double can say. -/
structure Fits (significand : Nat) (exponent : Int) : Prop where
  significand : significand < 2 ^ 53
  low : -1074 ≤ exponent
  high : exponent ≤ 971

theorem biased_eq (bits : UInt64) :
    ((bits >>> 52) &&& 0x7FF).toNat = bits.toNat / 2 ^ 52 % 2 ^ 11 := by
  have hmask : (0x7FF : UInt64).toNat = 2 ^ 11 - 1 := rfl
  rw [UInt64.toNat_and, hmask, Nat.and_two_pow_sub_one_eq_mod, UInt64.toNat_shiftRight,
    Nat.shiftRight_eq_div_pow]
  rfl

theorem fraction_eq (bits : UInt64) : (bits &&& 0xFFFFFFFFFFFFF).toNat = bits.toNat % 2 ^ 52 := by
  have hmask : (0xFFFFFFFFFFFFF : UInt64).toNat = 2 ^ 52 - 1 := rfl
  rw [UInt64.toNat_and, hmask, Nat.and_two_pow_sub_one_eq_mod]

theorem fits_of_ofBits {bits : UInt64} {negative : Bool} {m : Nat} {q : Int}
    (h : Binary.ofBits bits = .finite negative m q) : Fits m q := by
  simp only [Binary.ofBits, biased_eq, fraction_eq] at h
  split at h
  · split at h <;> cases h
  · split at h <;> cases h <;> constructor <;> omega

theorem ofBits_finite_iff (bits : UInt64) :
    (∃ negative m q, Binary.ofBits bits = .finite negative m q) ↔
    bits.toNat / 2 ^ 52 % 2 ^ 11 ≠ 2047 := by
  simp only [Binary.ofBits, biased_eq, fraction_eq]
  by_cases hones : bits.toNat / 2 ^ 52 % 2 ^ 11 = 2047
  · simp only [if_pos hones]
    refine iff_of_false ?_ fun h => h hones
    rintro ⟨negative, m, q, h⟩
    split at h <;> cases h
  · simp only [if_neg hones]
    refine iff_of_true ?_ hones
    split <;> exact ⟨_, _, _, rfl⟩

theorem isFinite_unpack (bits : UInt64) :
    (Float.Model.UnpackedFloat.unpack .binary64 bits.toBitVec).isFinite = true ↔
      bits.toNat / 2 ^ 52 % 2 ^ 11 ≠ 2047 := by
  have hnat : (@Float.Model.UnpackedFloat.unpackExponent .binary64 bits.toBitVec).toNat =
      bits.toNat / 2 ^ 52 % 2 ^ 11 := by
    rw [Float.Model.UnpackedFloat.unpackExponent, BitVec.toNat_cast, BitVec.extractLsb_toNat,
      Nat.shiftRight_eq_div_pow]
    rfl
  have hiff : @Float.Model.UnpackedFloat.unpackExponent .binary64 bits.toBitVec = -1#11 ↔
      bits.toNat / 2 ^ 52 % 2 ^ 11 = 2047 := by
    rw [← hnat]
    exact BitVec.toNat_inj.symm
  simp only [Float.Model.UnpackedFloat.unpack]
  split
  · rename_i hones
    refine iff_of_false ?_ fun h => h (hiff.mp hones)
    split <;> simp [Float.Model.UnpackedFloat.isFinite]
  · rename_i hones
    refine iff_of_true ?_ fun h => hones (hiff.mpr h)
    split
    · split <;> rfl
    · rfl

/-- A double is finite if its bits say so. -/
theorem isFinite_iff (x : Float) :
    x.isFinite = true ↔ ∃ negative m q, Binary.ofFloat x = .finite negative m q :=
  (isFinite_unpack x.toBits).trans (ofBits_finite_iff x.toBits).symm

-- ---------------------------------------------------------------------------
-- The shortest digits
-- ---------------------------------------------------------------------------

/-- What is found on a grid rounds to the value. -/
theorem admits_of_onGrid {i : Interval} {tie : Tie} {e : Int} {d : Decimal}
    (h : i.onGrid tie e = some d) :
    d.exponent = e ∧
    i.admits (d.digits * (Nat.pow 10 e.toNat * i.scale)) (i.low * Nat.pow 10 (-e).toNat)
      (i.high * Nat.pow 10 (-e).toNat) = true := by
  simp only [Interval.onGrid] at h
  split at h
  · rename_i hfloor hnext
    cases h
    refine ⟨rfl, ?_⟩
    simp only
    split
    · exact hnext
    · exact hfloor
  · rename_i hfloor _
    cases h
    exact ⟨rfl, hfloor⟩
  · rename_i _ hnext
    cases h
    exact ⟨rfl, hnext⟩
  · cases h

theorem Interval.search_cases (i : Interval) (tie : Tie) (e : Int) (count : Nat) :
    i.search tie e count = ⟨0, 0⟩ ∨
      ∃ f, e - count < f ∧ f ≤ e ∧ i.onGrid tie f = some (i.search tie e count) := by
  induction count generalizing e with
  | zero => exact .inl rfl
  | succ count ih =>
    rw [Interval.search]
    cases hgrid : i.onGrid tie e with
    | some d => exact .inr ⟨e, by omega, by omega, hgrid⟩
    | none =>
      obtain h | ⟨f, hlow, hhigh, h⟩ := ih (e - 1)
      · exact .inl h
      · exact .inr ⟨f, by omega, by omega, h⟩

theorem zpow_mul_toNat {b : ℚ} (hb : b ≠ 0) (e : Int) : b ^ e * b ^ (-e).toNat = b ^ e.toNat := by
  rw [← zpow_natCast, ← zpow_natCast, ← zpow_add₀ hb]
  congr 1
  omega

theorem bounds_of_admits {i : Interval} {point low high : Nat}
    (h : i.admits point low high = true) : low ≤ point ∧ point ≤ high := by
  unfold Interval.admits at h
  split at h <;> simp only [Bool.and_eq_true, decide_eq_true_eq] at h <;> omega

section Bounds

variable {m : Nat} {q : Int} {d : Decimal}

theorem low_pos (hm : 0 < m) : 0 < (Interval.of m q).low := by
  refine Nat.mul_pos ?_ (by rw [Nat.one_shiftLeft]; exact Nat.two_pow_pos _)
  split <;> omega

/-- Half of the last bit above the value is where the interval ends. -/
theorem value_le_of_le_high
    (h : d.digits * (Nat.pow 10 d.exponent.toNat * (Interval.of m q).scale) ≤
      (Interval.of m q).high * Nat.pow 10 (-d.exponent).toNat) :
    (d.digits : ℚ) * 10 ^ d.exponent ≤ (m + 1 / 2) * 2 ^ q := by
  have hscale : (Interval.of m q).scale = 2 ^ (-(q - 2)).toNat := by
    show 1 <<< (2 - q).toNat = _
    rw [Nat.one_shiftLeft, Int.neg_sub]
  have hhigh : (Interval.of m q).high = (4 * m + 2) * 2 ^ (q - 2).toNat := by
    show (4 * m + 2) * 1 <<< (q - 2).toNat = _
    rw [Nat.one_shiftLeft]
  rw [hscale, hhigh] at h
  have h : (d.digits : ℚ) * (10 ^ d.exponent.toNat * 2 ^ (-(q - 2)).toNat) ≤
      (4 * m + 2) * 2 ^ (q - 2).toNat * 10 ^ (-d.exponent).toNat := by exact_mod_cast h
  rw [← zpow_mul_toNat (by norm_num) d.exponent, ← zpow_mul_toNat (by norm_num) (q - 2)] at h
  have hpos : (0 : ℚ) < 10 ^ (-d.exponent).toNat * 2 ^ (-(q - 2)).toNat := by positivity
  have hfour : (2 : ℚ) ^ q = 4 * 2 ^ (q - 2) := by
    rw [show q = q - 2 + (2 : Nat) by omega, two_zpow_add]
    norm_num
  refine le_of_mul_le_mul_right ?_ hpos
  calc (d.digits : ℚ) * 10 ^ d.exponent * (10 ^ (-d.exponent).toNat * 2 ^ (-(q - 2)).toNat)
      = d.digits * (10 ^ d.exponent * 10 ^ (-d.exponent).toNat * 2 ^ (-(q - 2)).toNat) := by ring
    _ ≤ (4 * m + 2) * (2 ^ (q - 2) * 2 ^ (-(q - 2)).toNat) * 10 ^ (-d.exponent).toNat := h
    _ = (m + 1 / 2) * 2 ^ q * (10 ^ (-d.exponent).toNat * 2 ^ (-(q - 2)).toNat) := by
        rw [hfour]
        ring

theorem bounds_of_onGrid {e : Int} {tie : Tie} (hm : 0 < m)
    (h : (Interval.of m q).onGrid tie e = some d) :
    0 < d.digits ∧ (d.digits : ℚ) * 10 ^ d.exponent ≤ (m + 1 / 2) * 2 ^ q := by
  obtain ⟨rfl, hadmits⟩ := admits_of_onGrid h
  obtain ⟨hlow, hhigh⟩ := bounds_of_admits hadmits
  refine ⟨Nat.pos_of_ne_zero fun hzero => ?_, value_le_of_le_high hhigh⟩
  rw [hzero, Nat.zero_mul] at hlow
  exact absurd (Nat.mul_pos (low_pos hm) (Nat.pow_pos (show 0 < 10 by decide)))
    (Nat.not_lt.mpr hlow)

end Bounds

section Coarse

variable {m : Nat} {q : Int}

/-- `28 / 93` and `31 / 103` enclose the logarithm of two. -/
theorem two_zpow_le_ten_zpow {a b : Int} (h : 28 * a ≤ 93 * b) (h' : 31 * a ≤ 103 * b) :
    (2 : ℚ) ^ a ≤ 10 ^ b := by
  obtain ha | ha := Int.le_total 0 a
  · refine le_of_pow_le_pow_left₀ (n := 93) (by decide) (by positivity) ?_
    calc ((2 : ℚ) ^ a) ^ 93 = (2 ^ 93) ^ a := by rw [← zpow_natCast, zpow_comm, zpow_natCast]
      _ ≤ (10 ^ 28) ^ a := zpow_le_zpow_left₀ ha (by norm_num) (by norm_num)
      _ = 10 ^ (28 * a) := by rw [← zpow_natCast, ← zpow_mul]; rfl
      _ ≤ 10 ^ (93 * b) := zpow_le_zpow_right₀ (by norm_num) h
      _ = (10 ^ b) ^ 93 := by rw [← zpow_natCast, ← zpow_mul, mul_comm]; rfl
  · refine le_of_pow_le_pow_left₀ (n := 103) (by decide) (by positivity) ?_
    calc ((2 : ℚ) ^ a) ^ 103 = (2 ^ 103) ^ a := by rw [← zpow_natCast, zpow_comm, zpow_natCast]
      _ ≤ (10 ^ 31) ^ a := by
          obtain ⟨n, rfl⟩ := Int.exists_eq_neg_ofNat ha
          rw [zpow_neg, zpow_neg, zpow_natCast, zpow_natCast]
          exact inv_anti₀ (by positivity) (pow_le_pow_left₀ (by norm_num) (by norm_num) n)
      _ = 10 ^ (31 * a) := by rw [← zpow_natCast, ← zpow_mul]; rfl
      _ ≤ 10 ^ (103 * b) := zpow_le_zpow_right₀ (by norm_num) h'
      _ = (10 ^ b) ^ 103 := by rw [← zpow_natCast, ← zpow_mul, mul_comm]; rfl

theorem log2_le (h : Fits m q) : m.log2 ≤ 52 := by
  by_cases hm : m = 0
  · simp [hm]
  · have := (Nat.log2_lt hm).mpr h.significand
    omega

theorem coarseExponent_bounds (m : Nat) (q : Int) :
    100000 * (coarseExponent m q - 2) ≤ (m.log2 + q) * 30103 ∧
      (m.log2 + q) * 30103 < 100000 * (coarseExponent m q - 1) := by
  have := Int.emod_nonneg ((m.log2 + q) * 30103) (show (100000 : Int) ≠ 0 by decide)
  have := Int.emod_lt_of_pos ((m.log2 + q) * 30103) (show (0 : Int) < 100000 by decide)
  have := Int.mul_ediv_add_emod ((m.log2 + q) * 30103) 100000
  rw [coarseExponent, Int.fdiv_eq_ediv_of_nonneg _ (by decide)]
  omega

/-- On the first grid the value lies below one. -/
theorem value_le_coarse (h : Fits m q) : ((m : ℚ) + 1 / 2) * 2 ^ q ≤ 10 ^ coarseExponent m q := by
  have hlog := log2_le h
  obtain ⟨hlow, hhigh⟩ := coarseExponent_bounds m q
  have hq := h.low
  have hq' := h.high
  have hm : (m : ℚ) + 1 / 2 ≤ 2 ^ (m.log2 + 1) := by
    have : ((m + 1 : Nat) : ℚ) ≤ 2 ^ (m.log2 + 1) := by exact_mod_cast Nat.lt_log2_self (n := m)
    push_cast at this
    linarith
  calc ((m : ℚ) + 1 / 2) * 2 ^ q ≤ 2 ^ (m.log2 + 1) * 2 ^ q :=
    mul_le_mul_of_nonneg_right hm (by positivity)
    _ = 2 ^ (q + (m.log2 + 1 : Nat)) := (two_zpow_add q _).symm
    _ ≤ 10 ^ coarseExponent m q := two_zpow_le_ten_zpow (by omega) (by omega)

/-- The shortest digits of a number are few, are a number again, and lie half of the last bit above
it at most. A search that fails leaves a zero. -/
theorem shortest_cases (tie : Tie) (hm : 0 < m) (h : Fits m q) :
    let d := shortest tie m q
    d = ⟨0, 0⟩ ∨ 0 < d.digits ∧ d.digits ≤ 10 ^ 19 ∧ d.exponent.natAbs ≤ 400 ∧
      (d.digits : ℚ) * 10 ^ d.exponent ≤ (m + 1 / 2) * 2 ^ q := by
  have hlog := log2_le h
  obtain ⟨hlow, hhigh⟩ := coarseExponent_bounds m q
  have hq := h.low
  have hq' := h.high
  rw [shortest, if_neg (by omega)]
  obtain hzero | ⟨f, hf, hf', hgrid⟩ := (Interval.of m q).search_cases tie (coarseExponent m q) 20
  · exact .inl hzero
  generalize (Interval.of m q).search tie (coarseExponent m q) 20 = d at hgrid
  obtain ⟨hpos, hvalue⟩ := bounds_of_onGrid hm hgrid
  have hexponent : d.exponent = f := (admits_of_onGrid hgrid).1
  refine .inr ⟨hpos, ?_, by omega, hvalue⟩
  have hten : (d.digits : ℚ) * 10 ^ f ≤ 10 ^ 19 * 10 ^ f :=
    calc (d.digits : ℚ) * 10 ^ f ≤ (m + 1 / 2) * 2 ^ q := hexponent ▸ hvalue
      _ ≤ 10 ^ coarseExponent m q := value_le_coarse h
      _ ≤ 10 ^ (19 + f) := zpow_le_zpow_right₀ (by norm_num) (by omega)
      _ = 10 ^ 19 * 10 ^ f := by rw [zpow_add₀ (by norm_num)]; rfl
  exact_mod_cast le_of_mul_le_mul_right hten (by positivity)

end Coarse

-- ---------------------------------------------------------------------------
-- No digits beyond the overflow
-- ---------------------------------------------------------------------------

/-- The digits of all doubles but the two largest are rounded twice without an overflow. -/
theorem lt_overflow {m : Nat} {q : Int} {x : ℚ} (h : Fits m q) (hq : q < 971 ∨ m + 3 ≤ 2 ^ 53)
    (hx : x ≤ (m + 1 / 2) * 2 ^ q) : x * slack ^ 2 < overflow := by
  have htwice : (2 : ℚ) ^ (971 : Int) = 2 * 2 ^ (970 : Int) := two_zpow_add 970 1
  have hpos : (0 : ℚ) < 2 ^ (970 : Int) := by positivity
  have hle : q < 971 → (2 : ℚ) ^ q ≤ 2 ^ (970 : Int) := fun hq =>
    zpow_le_zpow_right₀ one_le_two (by omega)
  have hle' : (2 : ℚ) ^ q ≤ 2 ^ (971 : Int) := zpow_le_zpow_right₀ one_le_two h.high
  have hm : (m : ℚ) + 1 ≤ 2 ^ 53 := by exact_mod_cast h.significand
  rw [overflow]
  rw [htwice] at hle'
  generalize (2 : ℚ) ^ (970 : Int) = p at *
  have hbound : ((m : ℚ) + 1 / 2) * 2 ^ q ≤ (2 ^ 54 - 5) * p := by
    obtain hq | hq := hq
    · exact mul_le_mul (by linarith) (hle hq) (by positivity) (by norm_num)
    · have hq : (m : ℚ) + 3 ≤ 2 ^ 53 := by exact_mod_cast hq
      calc ((m : ℚ) + 1 / 2) * 2 ^ q ≤ (2 ^ 53 - 5 / 2) * (2 * p) :=
            mul_le_mul (by linarith) hle' (by positivity) (by norm_num)
        _ = (2 ^ 54 - 5) * p := by ring
  calc x * slack ^ 2 ≤ (2 ^ 54 - 5) * p * slack ^ 2 :=
        mul_le_mul_of_nonneg_right (hx.trans hbound) (sq_nonneg slack)
    _ = (2 ^ 54 - 5) * slack ^ 2 * p := by ring
    _ < (2 ^ 54 - 1) * p := mul_lt_mul_of_pos_right (by norm_num [slack]) hpos

end RadioGateway.Decimal

namespace RadioGateway.Json

open RadioGateway.Decimal RadioGateway.Text

-- ---------------------------------------------------------------------------
-- Digits with a point or an exponent
-- ---------------------------------------------------------------------------

variable {negative : Bool} {significand : Nat} {rest : List UInt8}

theorem scaled_eq (negative : Bool) {e : Int} (h : ∃ x, scale significand e = some x) :
    ∃ x, ∀ rest, scaled negative significand e rest = .ok (.real x, rest) := by
  obtain ⟨x, hx⟩ := h
  simp only [scaled, hx]
  exact ⟨_, fun rest => rfl⟩

/-- The digits behind a point are taken as well, and each lowers the exponent. -/
theorem fraction_digits {shift : Int} {cs : List Char} (hcs : ∀ c ∈ cs, c.isDigit = true)
    (hne : cs ≠ []) (hv : Nat.ofDigitChars 10 cs significand ≤ maxSignificand)
    (hr : ∀ b ∈ rest.head?, isDigit b = false) :
    fraction negative significand shift (Utf8.encode cs ++ rest) =
      match rest with
      | b :: after =>
        if isExponentMark b then
          exponent negative (Nat.ofDigitChars 10 cs significand) (shift - cs.length) after
        else scaled negative (Nat.ofDigitChars 10 cs significand) (shift - cs.length) (b :: after)
      | [] => scaled negative (Nat.ofDigitChars 10 cs significand) (shift - cs.length) [] := by
  have hspan := spanDigits_append (isDigit_of_mem_encode hcs) hr
  have htaken := accumulate_encode hcs hv
  have hlength := length_encode_digits hcs
  cases hd : Utf8.encode cs with
  | nil =>
    rw [hd] at hlength
    exact absurd (List.length_eq_zero_iff.mp hlength.symm) hne
  | cons b more =>
    rw [hd] at hspan htaken hlength
    simp only [fraction, hspan, htaken, Nat.sub_zero, hlength]
    cases rest <;> rfl

/-- An exponent with its sign. -/
def power (e : Int) : List Char :=
  if e < 0 then '-' :: Nat.toDigits 10 e.natAbs else '+' :: Nat.toDigits 10 e.natAbs

theorem exponent_power {shift e : Int} (he : e.natAbs ≤ maxExponent) (hr : Stops rest) :
    exponent negative significand shift (Utf8.encode (power e) ++ rest) =
      scaled negative significand (shift + e) rest := by
  have hvalue : Nat.ofDigitChars 10 (Nat.toDigits 10 e.natAbs) 0 = e.natAbs :=
    Nat.ofDigitChars_ten_toDigits
  have hdigits := (whole_toDigits e.natAbs).digits
  have hspan := spanDigits_append (isDigit_of_mem_encode hdigits) fun b hb => (hr b hb).1
  have htaken := accumulate_encode hdigits (hvalue.symm ▸ he)
  obtain ⟨b, more, hopen, hb, -⟩ := (whole_toDigits e.natAbs).encode
  rw [hopen] at hspan htaken
  rw [List.cons_append] at hspan
  rw [hvalue] at htaken
  by_cases hneg : e < 0
  · have hsign : exponentSign (Utf8.encode (power e) ++ rest) =
        (true, b :: (Utf8.encode more ++ rest)) := by
      rw [power, if_pos hneg, Utf8.encode_cons, hopen]
      rfl
    simp only [exponent, hsign, hb, Bool.not_true, Bool.false_eq_true, if_false,
      hspan, htaken, if_true]
    congr 1
    omega
  · have hsign : exponentSign (Utf8.encode (power e) ++ rest) =
        (false, b :: (Utf8.encode more ++ rest)) := by
      rw [power, if_neg hneg, Utf8.encode_cons, hopen]
      rfl
    simp only [exponent, hsign, hb, Bool.not_true, Bool.false_eq_true, if_false, hspan, htaken]
    congr 1
    omega

section Layout

variable {cs ds : List Char}

/-- Digits, a point and digits are read as one significand. -/
theorem unsigned_point (hcs : Whole cs) (hds : ∀ c ∈ ds, c.isDigit = true) (hne : ds ≠ [])
    (hv : Nat.ofDigitChars 10 (cs ++ ds) 0 ≤ maxSignificand) (hr : Stops rest) :
    unsigned negative (Utf8.encode (cs ++ '.' :: ds) ++ rest) =
      scaled negative (Nat.ofDigitChars 10 (cs ++ ds) 0) (-ds.length) rest := by
  rw [Nat.ofDigitChars_append] at hv ⊢
  have htext : Utf8.encode (cs ++ '.' :: ds) ++ rest = Utf8.encode cs ++ point ::
      (Utf8.encode ds ++ rest) := by
    rw [Utf8.encode_append, Utf8.encode_cons, List.append_assoc]
    rfl
  rw [htext, hcs.unsigned (Nat.le_trans (le_ofDigitChars ds _) hv) negative
    (by simp [point, isDigit])]
  simp only [if_true]
  rw [fraction_digits hds hne hv fun b hb => (hr b hb).1]
  cases rest with
  | nil => simp
  | cons b after => simp [(hr b rfl).2.2]

/-- The digits behind the first one, after a point. -/
def fractionText (ds : List Char) : List Char :=
  match ds with
  | [] => []
  | ds => '.' :: ds

theorem unsigned_power {e : Int} (hcs : Whole cs) (hds : ∀ c ∈ ds, c.isDigit = true)
    (hv : Nat.ofDigitChars 10 (cs ++ ds) 0 ≤ maxSignificand) (he : e.natAbs ≤ maxExponent)
    (hr : Stops rest) :
    unsigned negative (Utf8.encode (cs ++ fractionText ds ++ 'e' :: power e) ++ rest) =
      scaled negative (Nat.ofDigitChars 10 (cs ++ ds) 0) (e - ds.length) rest := by
  rw [Nat.ofDigitChars_append] at hv ⊢
  have hroom := Nat.le_trans (le_ofDigitChars ds _) hv
  have hmark : isExponentMark 0x65 = true := rfl
  cases ds with
  | nil =>
    have htext : Utf8.encode (cs ++ fractionText [] ++ 'e' :: power e) ++ rest =
        Utf8.encode cs ++ 0x65 :: (Utf8.encode (power e) ++ rest) := by
      rw [fractionText, List.append_nil, Utf8.encode_append, Utf8.encode_cons, List.append_assoc]
      rfl
    rw [htext, hcs.unsigned hroom negative (by simp [isDigit])]
    simp only [hmark, if_true]
    rw [if_neg (by decide), exponent_power he hr]
    simp
  | cons d ds =>
    have htext : Utf8.encode (cs ++ fractionText (d :: ds) ++ 'e' :: power e) ++ rest =
        Utf8.encode cs ++ point ::
          (Utf8.encode (d :: ds) ++ 0x65 :: (Utf8.encode (power e) ++ rest)) := by
      simp only [fractionText, Utf8.encode_append, Utf8.encode_cons,
        List.append_assoc, List.cons_append]
      rfl
    rw [htext, hcs.unsigned hroom negative (by simp [point, isDigit])]
    simp only [if_true]
    rw [fraction_digits hds (List.cons_ne_nil d ds) hv (by simp [isDigit])]
    simp only [hmark, if_true]
    rw [exponent_power he hr]
    congr 1
    omega

end Layout

-- ---------------------------------------------------------------------------
-- Doubles
-- ---------------------------------------------------------------------------

/-- Characters that are read as a double, with or without a sign before them. -/
structure Numeral (cs : List Char) : Prop where
  opens : ∃ b more, Utf8.encode cs = b :: more ∧ isDigit b = true
  reads : ∀ negative, ∃ x, ∀ rest, Stops rest →
    unsigned negative (Utf8.encode cs ++ rest) = .ok (.real x, rest)

theorem Whole.opens_append {cs : List Char} (h : Whole cs) (more : List Char) :
    ∃ b rest, Utf8.encode (cs ++ more) = b :: rest ∧ isDigit b = true := by
  obtain ⟨b, rest, hopen, hb, -⟩ := h.encode
  exact ⟨b, _, by rw [Utf8.encode_append, hopen]; rfl, hb⟩

theorem numeral_point {cs ds : List Char} (hcs : Whole cs) (hds : ∀ c ∈ ds, c.isDigit = true)
    (hne : ds ≠ []) (hv : Nat.ofDigitChars 10 (cs ++ ds) 0 ≤ maxSignificand) :
    Numeral (cs ++ '.' :: ds) := by
  have hlength := List.length_pos_iff.mpr hne
  refine ⟨hcs.opens_append _, fun negative => ?_⟩
  obtain ⟨x, hx⟩ := scaled_eq negative (scale_negative (show -(ds.length : Int) < 0 by omega))
  exact ⟨x, fun rest hr => (unsigned_point hcs hds hne hv hr).trans (hx rest)⟩

theorem Whole.take {cs : List Char} (h : Whole cs) {n : Nat} (hn : 0 < n) : Whole (cs.take n) := by
  refine ⟨fun c hc => h.digits c (List.mem_of_mem_take hc), ?_⟩
  obtain ⟨c, more, rfl, hzero⟩ := h.opens
  obtain ⟨n, rfl⟩ := Nat.exists_eq_add_one.mpr hn
  exact ⟨c, more.take n, rfl, fun hc => by rw [hzero hc, List.take_nil]⟩

theorem isDigit_of_mem_replicate {k : Nat} {c : Char} (h : c ∈ List.replicate k '0') :
    c.isDigit = true := by
  rw [List.eq_of_mem_replicate h]
  rfl

section FixedPoint

variable {n : Nat} (hn : n ≤ maxSignificand)
include hn

/-- Zeros between the point and the digits. -/
theorem numeral_zeros_before (k : Nat) :
    Numeral ('0' :: '.' :: (List.replicate k '0' ++ Nat.toDigits 10 n)) := by
  have hvalue : Nat.ofDigitChars 10 (Nat.toDigits 10 n) 0 = n := Nat.ofDigitChars_ten_toDigits
  refine numeral_point (show Whole ['0'] from ⟨by simp, '0', [], rfl, fun _ => rfl⟩) ?_ (by simp) ?_
  · exact fun c hc =>
      (List.mem_append.mp hc).elim isDigit_of_mem_replicate ((whole_toDigits n).digits c)
  · have hzero : Nat.ofDigitChars 10 ['0'] 0 = 0 := rfl
    rw [Nat.ofDigitChars_append, Nat.ofDigitChars_append, Nat.ofDigitChars_replicate_zero,
      hzero, Nat.mul_zero, hvalue]
    exact hn

/-- The point among the digits. -/
theorem numeral_point_within {k : Nat} (hk : 0 < k) (hlength : k < (Nat.toDigits 10 n).length) :
    Numeral ((Nat.toDigits 10 n).take k ++ '.' :: (Nat.toDigits 10 n).drop k) := by
  have hwhole := whole_toDigits n
  refine numeral_point (hwhole.take hk) (fun c hc =>
    hwhole.digits c (List.mem_of_mem_drop hc)) ?_ ?_
  · exact fun hnil => absurd (List.drop_eq_nil_iff.mp hnil) (Nat.not_le.mpr hlength)
  · rw [List.take_append_drop, Nat.ofDigitChars_ten_toDigits]
    exact hn

omit hn

/-- Zeros between the digits and the point. -/
theorem numeral_zeros_after {k : Nat} (hk : (Nat.toDigits 10 n).length + k ≤ 16)
    (hzero : n = 0 → k = 0) :
    Numeral (Nat.toDigits 10 n ++ List.replicate k '0' ++ ".0".toList) := by
  have hvalue : Nat.ofDigitChars 10 (Nat.toDigits 10 n) 0 = n := Nat.ofDigitChars_ten_toDigits
  have hwhole : Whole (Nat.toDigits 10 n ++ List.replicate k '0') := by
    have hdigits := whole_toDigits n
    refine ⟨fun c hc => (List.mem_append.mp hc).elim (hdigits.digits c)
      isDigit_of_mem_replicate, ?_⟩
    by_cases hn : n = 0
    · rw [hzero hn, List.replicate_zero, List.append_nil]
      exact hdigits.opens
    · obtain ⟨c, more, hopen, -⟩ := hdigits.opens
      refine ⟨c, more ++ List.replicate k '0', by rw [hopen]; rfl, fun hc => ?_⟩
      have hhead := head_toDigits_ne_zero hn
      rw [hopen, hc] at hhead
      exact absurd rfl hhead
  have hpoint : ".0".toList = '.' :: ['0'] := rfl
  rw [hpoint]
  refine numeral_point hwhole (by simp) (by simp) ?_
  have hbound : 10 ^ k * n ≤ 10 ^ 16 :=
    calc 10 ^ k * n ≤ 10 ^ k * 10 ^ (Nat.toDigits 10 n).length := by
          have hpos : 0 < (Nat.toDigits 10 n).length := List.length_pos_iff.mpr Nat.toDigits_ne_nil
          refine Nat.mul_le_mul_left _ (Nat.le_of_lt ?_)
          exact (Nat.length_toDigits_le_iff (by decide) hpos).mp (Nat.le_refl _)
      _ = 10 ^ (k + (Nat.toDigits 10 n).length) := (Nat.pow_add _ _ _).symm
      _ ≤ 10 ^ 16 := Nat.pow_le_pow_right (by decide) (by omega)
  have hlast : Nat.ofDigitChars 10 (Nat.toDigits 10 n ++ List.replicate k '0' ++ ['0']) 0 =
      10 * (10 ^ k * n) := by
    rw [Nat.ofDigitChars_append, Nat.ofDigitChars_append, Nat.ofDigitChars_replicate_zero, hvalue]
    rfl
  rw [hlast]
  exact Nat.le_trans (Nat.mul_le_mul_left 10 hbound) (by decide)

end FixedPoint

theorem numeral_fixedPoint {n : Nat} {leading : Int} (hn : n ≤ maxSignificand)
    (hplace : leading ≤ 15) (hzero : n = 0 → leading = 0) :
    Numeral (fixedPoint ".0" (Nat.toDigits 10 n) leading) := by
  simp only [fixedPoint]
  split
  · exact numeral_zeros_before hn _
  · split
    · rename_i hlength
      refine numeral_zeros_after (by omega) fun h => ?_
      rw [hzero h, h]
      rfl
    · exact numeral_point_within hn (by omega) (by omega)

theorem scientific_eq (digits : List Char) (e : Int) :
    scientific "+" digits e = digits.take 1 ++ fractionText (digits.drop 1) ++ 'e' :: power e := by
  have hplus : "+".toList = ['+'] := rfl
  simp only [scientific, hplus]
  rfl

theorem numeral_scientific {n : Nat} {e : Int} (hn : n ≤ 10 ^ 19) (he : e.natAbs ≤ 400)
    (hscale : ∃ x, scale n e = some x) :
    Numeral (scientific "+" (Nat.toDigits 10 n) (e + ((Nat.toDigits 10 n).length - 1 : Nat))) := by
  have hwhole := whole_toDigits n
  have hlength : (Nat.toDigits 10 n).length ≤ 20 :=
    (Nat.length_toDigits_le_iff (by decide) (by decide)).mpr (Nat.lt_of_le_of_lt hn (by decide))
  have hsplit : (Nat.toDigits 10 n).take 1 ++ (Nat.toDigits 10 n).drop 1 = Nat.toDigits 10 n :=
    List.take_append_drop 1 _
  have hvalue :
      Nat.ofDigitChars 10 ((Nat.toDigits 10 n).take 1 ++ (Nat.toDigits 10 n).drop 1) 0 = n := by
    rw [hsplit, Nat.ofDigitChars_ten_toDigits]
  rw [scientific_eq]
  constructor
  · rw [List.append_assoc]
    exact (hwhole.take (by decide)).opens_append _
  · intro negative
    obtain ⟨x, hx⟩ := scaled_eq negative hscale
    refine ⟨x, fun rest hr => ?_⟩
    have hdigits : ∀ c ∈ (Nat.toDigits 10 n).drop 1, c.isDigit = true :=
      fun c hc => hwhole.digits c (List.mem_of_mem_drop hc)
    have hlimit : 1000 ≤ maxExponent := by decide
    rw [unsigned_power (hwhole.take (by decide)) hdigits (hvalue.symm ▸ Nat.le_trans hn (by decide))
      (Nat.le_trans (by omega) hlimit) hr, hvalue, List.length_drop, Int.add_sub_cancel, hx]

/-- The digits of a double are no overflow for a reader. The two largest doubles are too close to
one for `lt_overflow`. -/
theorem scale_shortest {m : Nat} {q : Int} (hm : 0 < m) (h : Fits m q) :
    ∃ x, scale (shortest .even m q).digits (shortest .even m q).exponent = some x := by
  by_cases hlarge : q < 971 ∨ m + 3 ≤ 2 ^ 53
  · obtain hzero | ⟨hpos, hdigits, -, hvalue⟩ := shortest_cases .even hm h
    · rw [hzero]
      exact Option.isSome_iff_exists.mp (by decide +kernel)
    generalize shortest .even m q = d at *
    obtain he | he := Int.lt_or_le d.exponent 0
    · exact scale_negative he
    · obtain ⟨e, he⟩ := Int.eq_ofNat_of_zero_le he
      rw [he, zpow_natCast] at hvalue
      rw [he]
      exact scale_natural hpos (Nat.lt_of_le_of_lt hdigits (by decide))
        (lt_overflow h hlarge hvalue)
  · have hmax : q = 971 ∧ (m = 2 ^ 53 - 1 ∨ m = 2 ^ 53 - 2) := by
      obtain ⟨hsignificand, -, hq⟩ := h
      omega
    obtain ⟨rfl, rfl | rfl⟩ := hmax
    · exact Option.isSome_iff_exists.mp (by decide +kernel)
    · exact Option.isSome_iff_exists.mp (by decide +kernel)

/-- However the digits of a double are set out, they are read as a double. -/
theorem numeral_magnitude {m : Nat} {q : Int} (h : Fits m q) : Numeral (json.magnitude m q) := by
  by_cases hzero : shortest .even m q = ⟨0, 0⟩
  · have hdigits : Nat.toDigits 10 0 = ['0'] := rfl
    simp only [Layout.magnitude, json, hzero, hdigits]
    rw [if_pos (.inr (by decide))]
    exact numeral_fixedPoint (n := 0) (by decide) (by decide) fun _ => rfl
  have hm : 0 < m := Nat.pos_of_ne_zero fun hm => hzero (by rw [shortest, if_pos hm])
  obtain ⟨hpos, hle, he, -⟩ := (shortest_cases .even hm h).resolve_left hzero
  simp only [Layout.magnitude, json]
  refine iteInduction (fun hplace => ?_) fun _ => ?_
  · have hplace := (hplace.resolve_left (Nat.ne_of_gt hm)).2
    exact numeral_fixedPoint (Nat.le_trans hle (by decide)) hplace fun h =>
      absurd h (Nat.ne_of_gt hpos)
  · exact numeral_scientific hle he (scale_shortest hm h)

/-- A finite double is written as a number. -/
theorem number_write {x : Float} (h : x.isFinite = true) :
    (∃ b more, Utf8.encode (Decimal.json.write x) = b :: more ∧ (b = minus ∨ isDigit b = true)) ∧
      ∃ y, ∀ rest, Stops rest →
        number (Utf8.encode (Decimal.json.write x) ++ rest) = .ok (.real y, rest) := by
  obtain ⟨negative, m, q, hx⟩ := (isFinite_iff x).mp h
  have hnumeral := numeral_magnitude (fits_of_ofBits hx)
  obtain ⟨b, more, hopen, hb⟩ := hnumeral.opens
  obtain ⟨y, hread⟩ := hnumeral.reads negative
  have hwrite : Decimal.json.write x = (if negative then ['-'] else []) ++ json.magnitude m q := by
    rw [Layout.write, hx]
    rfl
  rw [hwrite]
  cases negative with
  | true =>
    refine ⟨⟨minus, _, Utf8.encode_cons _ _, .inl rfl⟩, y, fun rest hr => ?_⟩
    exact (number_minus _).trans (hread rest hr)
  | false =>
    refine ⟨⟨b, more, hopen, .inr hb⟩, y, fun rest hr => ?_⟩
    have hread := hread rest hr
    simp only [Bool.false_eq_true, if_false, List.nil_append]
    rw [hopen, List.cons_append] at hread ⊢
    exact (number_digit hb _).trans hread

/-- What is no finite number is written as nothing. -/
theorem write_of_not_finite {x : Float} (h : x.isFinite = false) :
    Decimal.json.write x = "null".toList := by
  have hnot : ¬∃ negative m q, Binary.ofFloat x = .finite negative m q := fun hx =>
    Bool.false_ne_true (h.symm.trans ((isFinite_iff x).mpr hx))
  rw [Layout.write]
  cases hx : Binary.ofFloat x with
  | nan => rfl
  | infinite negative => cases negative <;> rfl
  | finite negative m q => exact absurd ⟨negative, m, q, hx⟩ hnot

end RadioGateway.Json
