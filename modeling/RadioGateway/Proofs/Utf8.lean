import Mathlib.Data.List.Basic
import RadioGateway.Text.Utf8

/-!
# The decoder reads what UTF-8 writes

A text is decoded exactly when it is the encoding of some characters, and then into these. An octet
that opens a character fixes how many octets follow it and which code they make up; both directions
are reduced to one character, where they are arithmetic.
-/

namespace RadioGateway.Text.Utf8

/-- The octets that can complete a character. -/
def Open.FollowedBy (o : Open) : List UInt8 → Prop
  | [] => False
  | b :: rest => (o.low ≤ b ∧ b ≤ o.high) ∧ rest.length = o.owed ∧ ∀ x ∈ rest, 0x80 ≤ x ∧ x ≤ 0xBF

def completed (code : Nat) (tail : List UInt8) : Nat :=
  tail.foldl (fun v b => v * 64 + (b.toNat - 0x80)) code

theorem completed_cons (code : Nat) (b : UInt8) (tail : List UInt8) :
    completed code (b :: tail) = completed (code * 64 + (b.toNat - 0x80)) tail := by
  simp only [completed, List.foldl_cons]

-- ---------------------------------------------------------------------------
-- From the first octet of a character to the last
-- ---------------------------------------------------------------------------

theorem decodeFrom_append {o : Open} {tail : List UInt8} (h : o.FollowedBy tail) (index : Nat)
    (done : List Char) (rest : List UInt8) :
    decodeFrom index done (some o) (tail ++ rest) =
      decodeFrom (index + o.seen + tail.length) (Char.ofNat (completed o.code tail) :: done)
        none rest := by
  induction tail generalizing o with
  | nil => cases h
  | cons b tail ih =>
    obtain ⟨hb, hlen, htail⟩ := h
    rw [List.cons_append, decodeFrom, if_pos hb]
    cases tail with
    | nil => simp [← hlen, completed]
    | cons x tail =>
      rw [← hlen]
      simp only [List.length_cons]
      have hnext : Open.FollowedBy
          ⟨o.seen + 1, tail.length, 0x80, 0xBF, o.code * 64 + (b.toNat - 0x80)⟩ (x :: tail) :=
        ⟨htail x (by simp), rfl, fun y hy => htail y (by simp [hy])⟩
      have hindex : index + (o.seen + 1) + (tail.length + 1) = index + o.seen +
          (tail.length + 1 + 1) := by
        omega
      rw [ih hnext, List.length_cons, hindex, completed_cons o.code b]

theorem exists_tail_of_decodeFrom {o : Open} {index : Nat} {done cs : List Char}
    {bytes : List UInt8} (h : decodeFrom index done (some o) bytes = .ok cs) :
    ∃ tail rest, bytes = tail ++ rest ∧ o.FollowedBy tail ∧
      decodeFrom (index + o.seen + tail.length)
        (Char.ofNat (completed o.code tail) :: done) none rest =
        .ok cs := by
  induction bytes generalizing o with
  | nil => cases h
  | cons b bytes ih =>
    rw [decodeFrom] at h
    split at h
    · rename_i hb
      cases ho : o.owed with
      | zero =>
        rw [ho] at h
        exact ⟨[b], bytes, rfl, ⟨hb, ho.symm, nofun⟩, h⟩
      | succ owed =>
        rw [ho] at h
        obtain ⟨tail, rest, rfl, hf, hd⟩ := ih h
        cases tail with
        | nil => cases hf
        | cons x tail =>
          obtain ⟨hx, hlen, htail⟩ := hf
          refine ⟨b :: x :: tail, rest, rfl, ⟨hb, by simp [hlen, ho], ?_⟩, ?_⟩
          · intro y hy
            rcases List.mem_cons.mp hy with rfl | hy
            · exact hx
            · exact htail y hy
          · have hindex : index + (o.seen + 1) + (x :: tail).length =
                index + o.seen + (b :: x :: tail).length := by
              simp only [List.length_cons]
              omega
            rw [← hindex, completed_cons o.code b]
            exact hd
    · cases h

-- ---------------------------------------------------------------------------
-- One character
-- ---------------------------------------------------------------------------

theorem toNat_ofNat_of_valid {v : Nat} (h : v.isValidChar) : (Char.ofNat v).val.toNat = v := by
  rw [Char.ofNat, dif_pos h]
  rfl

theorem ofNat_eq_of_toNat {n : Nat} {b : UInt8} (h : n = b.toNat) : UInt8.ofNat n = b := by
  rw [h, UInt8.ofNat_toNat]

/-- The octets that open a character of more than one, and what may follow them. -/
theorem lead_eq_opens_iff {b : UInt8} {o : Open} : lead b = .opens o ↔
    (0xC2 ≤ b.toNat ∧ b.toNat ≤ 0xDF ∧ o = ⟨1, 0, 0x80, 0xBF, b.toNat - 0xC0⟩) ∨
    (b.toNat = 0xE0 ∧ o = ⟨1, 1, 0xA0, 0xBF, 0⟩) ∨
    (b.toNat = 0xED ∧ o = ⟨1, 1, 0x80, 0x9F, 0xD⟩) ∨
    (0xE0 < b.toNat ∧ b.toNat ≤ 0xEF ∧ b.toNat ≠ 0xED ∧ o = ⟨1, 1, 0x80, 0xBF, b.toNat - 0xE0⟩) ∨
    (b.toNat = 0xF0 ∧ o = ⟨1, 2, 0x90, 0xBF, 0⟩) ∨
    (0xF0 < b.toNat ∧ b.toNat ≤ 0xF3 ∧ o = ⟨1, 2, 0x80, 0xBF, b.toNat - 0xF0⟩) ∨
    (b.toNat = 0xF4 ∧ o = ⟨1, 2, 0x80, 0x8F, 4⟩) := by
  unfold lead
  simp only [UInt8.le_iff_toNat_le, UInt8.lt_iff_toNat_lt, ← UInt8.toNat_inj, UInt8.reduceToNat]
  constructor
  · intro h
    grind
  · intro h
    grind

theorem encodeChar_two {v : Nat} {a b : UInt8} (h : 0x80 ≤ v ∧ v ≤ 0x7FF)
    (ha : v / 64 + 0xC0 = a.toNat) (hb : v % 64 + 0x80 = b.toNat) :
    String.utf8EncodeChar (Char.ofNat v) = [a, b] := by
  unfold String.utf8EncodeChar
  rw [toNat_ofNat_of_valid (by simp only [Nat.isValidChar]; omega)]
  simp only
  rw [if_neg (by omega), if_pos h.2, ofNat_eq_of_toNat (b := a) (by omega), ofNat_eq_of_toNat hb]

theorem encodeChar_three {v : Nat} {a b c : UInt8} (h : 0x800 ≤ v ∧ v ≤ 0xFFFF)
    (hv : v < 0xD800 ∨ 0xDFFF < v) (ha : v / 4096 + 0xE0 = a.toNat)
    (hb : v / 64 % 64 + 0x80 = b.toNat) (hc : v % 64 + 0x80 = c.toNat) :
    String.utf8EncodeChar (Char.ofNat v) = [a, b, c] := by
  unfold String.utf8EncodeChar
  rw [toNat_ofNat_of_valid (by simp only [Nat.isValidChar]; omega)]
  simp only
  rw [if_neg (by omega), if_neg (by omega), if_pos h.2, ofNat_eq_of_toNat (b := a) (by omega),
    ofNat_eq_of_toNat hb, ofNat_eq_of_toNat hc]

theorem encodeChar_four {v : Nat} {a b c d : UInt8} (h : 0x10000 ≤ v ∧ v ≤ 0x10FFFF)
    (ha : v / 262144 + 0xF0 = a.toNat) (hb : v / 4096 % 64 + 0x80 = b.toNat)
    (hc : v / 64 % 64 + 0x80 = c.toNat) (hd : v % 64 + 0x80 = d.toNat) :
    String.utf8EncodeChar (Char.ofNat v) = [a, b, c, d] := by
  unfold String.utf8EncodeChar
  rw [toNat_ofNat_of_valid (by simp only [Nat.isValidChar]; omega)]
  simp only
  rw [if_neg (by omega), if_neg (by omega), if_neg (by omega),
    ofNat_eq_of_toNat (b := a) (by omega), ofNat_eq_of_toNat hb, ofNat_eq_of_toNat hc,
    ofNat_eq_of_toNat hd]

theorem encodeChar_of_lead_ascii {b : UInt8} {c : Char} (h : lead b = .ascii c) :
    String.utf8EncodeChar c = [b] := by
  unfold lead at h
  split at h
  · rename_i hb
    obtain rfl := Lead.ascii.inj h
    have hle : b.toNat ≤ 0x7F := hb
    unfold String.utf8EncodeChar
    rw [toNat_ofNat_of_valid (by simp only [Nat.isValidChar]; omega)]
    simp only
    rw [if_pos hle, UInt8.ofNat_toNat]
  · exfalso; grind

def Tail (b : UInt8) : Prop := 0x80 ≤ b.toNat ∧ b.toNat ≤ 0xBF

theorem Open.FollowedBy.tails {o : Open} {tail : List UInt8} (h : o.FollowedBy tail) :
    ∃ b rest, tail = b :: rest ∧ o.low.toNat ≤ b.toNat ∧ b.toNat ≤ o.high.toNat ∧
      rest.length = o.owed ∧ ∀ x ∈ rest, Tail x := by
  cases tail with
  | nil => cases h
  | cons b rest => exact ⟨b, rest, rfl, h.1.1, h.1.2, h.2.1, h.2.2⟩

theorem encodeChar_of_lead_opens {b : UInt8} {o : Open} {tail : List UInt8} (h : lead b = .opens o)
    (hf : o.FollowedBy tail) :
    String.utf8EncodeChar (Char.ofNat (completed o.code tail)) = b :: tail := by
  obtain ⟨x, rest, rfl, hlow, hhigh, hlen, hrest⟩ := hf.tails
  have htwo (hb : 0xE0 ≤ b.toNat ∧ b.toNat ≤ 0xEF) (ho : o.owed = 1)
      (hcode : o.code = b.toNat - 0xE0) (hx : 0xE0 < b.toNat ∨ 0xA0 ≤ x.toNat)
      (hx' : b.toNat ≠ 0xED ∨ x.toNat ≤ 0x9F) (hxt : Tail x) :
      String.utf8EncodeChar (Char.ofNat (completed o.code (x :: rest))) = b :: x :: rest := by
    obtain ⟨y, rfl⟩ := List.length_eq_one_iff.mp (hlen.trans ho)
    have hy := hrest y (by simp)
    unfold Tail at hxt hy
    simp only [completed, List.foldl_cons, List.foldl_nil, hcode]
    apply encodeChar_three <;> omega
  have hthree (hb : 0xF0 ≤ b.toNat ∧ b.toNat ≤ 0xF4) (ho : o.owed = 2)
      (hcode : o.code = b.toNat - 0xF0) (hx : 0xF0 < b.toNat ∨ 0x90 ≤ x.toNat)
      (hx' : b.toNat ≠ 0xF4 ∨ x.toNat ≤ 0x8F) (hxt : Tail x) :
      String.utf8EncodeChar (Char.ofNat (completed o.code (x :: rest))) = b :: x :: rest := by
    obtain ⟨y, z, rfl⟩ := List.length_eq_two.mp (hlen.trans ho)
    have hy := hrest y (by simp)
    have hz := hrest z (by simp)
    unfold Tail at hxt hy hz
    simp only [completed, List.foldl_cons, List.foldl_nil, hcode]
    apply encodeChar_four <;> omega
  unfold Tail at htwo hthree
  rcases lead_eq_opens_iff.mp h with ⟨hb, hb', rfl⟩ | ⟨hb, rfl⟩ | ⟨hb, rfl⟩ | ⟨hb, hb', hne, rfl⟩ |
    ⟨hb, rfl⟩ | ⟨hb, hb', rfl⟩ | ⟨hb, rfl⟩ <;> simp only [UInt8.reduceToNat] at hlow hhigh
  · obtain rfl := List.length_eq_zero_iff.mp hlen
    simp only [completed, List.foldl_cons, List.foldl_nil]
    apply encodeChar_two <;> omega
  · exact htwo ⟨by omega, by omega⟩ rfl (by simp only; omega) (by omega) (by omega)
      ⟨by omega, by omega⟩
  · exact htwo ⟨by omega, by omega⟩ rfl (by simp only; omega) (by omega) (by omega)
      ⟨by omega, by omega⟩
  · exact htwo ⟨by omega, by omega⟩ rfl rfl (by omega) (by omega) ⟨by omega, by omega⟩
  · exact hthree ⟨by omega, by omega⟩ rfl (by simp only; omega) (by omega) (by omega)
      ⟨by omega, by omega⟩
  · exact hthree ⟨by omega, by omega⟩ rfl rfl (by omega) (by omega) ⟨by omega, by omega⟩
  · exact hthree ⟨by omega, by omega⟩ rfl (by simp only; omega) (by omega) (by omega)
      ⟨by omega, by omega⟩

theorem toNat_ofNat_of_lt {n : Nat} (h : n < 256) : (UInt8.ofNat n).toNat = n := by
  rw [UInt8.toNat_ofNat', Nat.mod_eq_of_lt h]

theorem tail_ofNat (n : Nat) : Tail (UInt8.ofNat (n % 64 + 0x80)) := by
  rw [Tail, toNat_ofNat_of_lt (by omega)]
  omega

/-- Three octets are opened so that the second rules out overlong forms and surrogates only. -/
theorem lead_three {n : Nat} {x : UInt8} (hn : n ≤ 0xF) (hx : Tail x)
    (hlow : 0 < n ∨ 0xA0 ≤ x.toNat) (hhigh : n ≠ 0xD ∨ x.toNat ≤ 0x9F) :
    ∃ low high, lead (UInt8.ofNat (n + 0xE0)) = .opens ⟨1, 1, low, high, n⟩ ∧ low ≤ x ∧
    x ≤ high := by
  have hb := toNat_ofNat_of_lt (show n + 0xE0 < 256 by omega)
  unfold Tail at hx
  by_cases h0 : n = 0
  · refine ⟨0xA0, 0xBF, lead_eq_opens_iff.mpr (.inr (.inl ⟨by omega, by rw [h0]⟩)), ?_, hx.2⟩
    exact (hlow.resolve_left (by omega) : 0xA0 ≤ x.toNat)
  by_cases hD : n = 0xD
  · refine ⟨0x80, 0x9F, lead_eq_opens_iff.mpr (.inr (.inr (.inl ⟨by omega, by rw [hD]⟩))), hx.1, ?_⟩
    exact (hhigh.resolve_left (by omega) : x.toNat ≤ 0x9F)
  · refine ⟨0x80, 0xBF, lead_eq_opens_iff.mpr (.inr (.inr (.inr (.inl ?_)))), hx⟩
    exact ⟨by omega, by omega, by omega, by rw [hb, Nat.add_sub_cancel]⟩

theorem lead_four {n : Nat} {x : UInt8} (hn : n ≤ 4) (hx : Tail x) (hlow : 0 < n ∨ 0x90 ≤ x.toNat)
    (hhigh : n ≠ 4 ∨ x.toNat ≤ 0x8F) :
    ∃ low high, lead (UInt8.ofNat (n + 0xF0)) = .opens ⟨1, 2, low, high, n⟩ ∧ low ≤ x ∧
    x ≤ high := by
  have hb := toNat_ofNat_of_lt (show n + 0xF0 < 256 by omega)
  unfold Tail at hx
  by_cases h0 : n = 0
  · refine ⟨0x90, 0xBF,
      lead_eq_opens_iff.mpr (.inr (.inr (.inr (.inr (.inl ⟨by omega, by rw [h0]⟩))))), ?_, hx.2⟩
    exact (hlow.resolve_left (by omega) : 0x90 ≤ x.toNat)
  by_cases h4 : n = 4
  · refine ⟨0x80, 0x8F,
      lead_eq_opens_iff.mpr (.inr (.inr (.inr (.inr (.inr (.inr ?_)))))), hx.1, ?_⟩
    · exact ⟨by omega, by rw [h4]⟩
    · exact (hhigh.resolve_left (by omega) : x.toNat ≤ 0x8F)
  · refine ⟨0x80, 0xBF, lead_eq_opens_iff.mpr (.inr (.inr (.inr (.inr (.inr (.inl ?_)))))), hx⟩
    exact ⟨by omega, by omega, by rw [hb, Nat.add_sub_cancel]⟩

theorem lead_encodeChar (c : Char) :
    (∃ b, String.utf8EncodeChar c = [b] ∧ lead b = .ascii c) ∨
    ∃ b o tail, String.utf8EncodeChar c = b :: tail ∧ lead b = .opens o ∧ o.FollowedBy tail ∧
      Char.ofNat (completed o.code tail) = c := by
  obtain ⟨v, hvalid, rfl⟩ : ∃ v : Nat, v.isValidChar ∧ Char.ofNat v = c :=
    ⟨c.val.toNat, c.valid, Char.ofNat_toNat c⟩
  simp only [Nat.isValidChar] at hvalid
  have hx := tail_ofNat v
  have hy := tail_ofNat (v / 64)
  have hz := tail_ofNat (v / 4096)
  have hxv := toNat_ofNat_of_lt (show v % 64 + 0x80 < 256 by omega)
  have hyv := toNat_ofNat_of_lt (show v / 64 % 64 + 0x80 < 256 by omega)
  have hzv := toNat_ofNat_of_lt (show v / 4096 % 64 + 0x80 < 256 by omega)
  by_cases h1 : v ≤ 0x7F
  · have hb := toNat_ofNat_of_lt (show v < 256 by omega)
    have hle : UInt8.ofNat v ≤ 0x7F := (by omega : (UInt8.ofNat v).toNat ≤ 0x7F)
    have hlead : lead (UInt8.ofNat v) = .ascii (Char.ofNat v) := by rw [lead, if_pos hle, hb]
    exact .inl ⟨_, encodeChar_of_lead_ascii hlead, hlead⟩
  right
  by_cases h2 : v ≤ 0x7FF
  · have hb := toNat_ofNat_of_lt (show v / 64 + 0xC0 < 256 by omega)
    refine ⟨UInt8.ofNat (v / 64 + 0xC0), ⟨1, 0, 0x80, 0xBF, v / 64⟩, [UInt8.ofNat (v % 64 + 0x80)],
      encodeChar_two ⟨by omega, h2⟩ hb.symm hxv.symm,
      lead_eq_opens_iff.mpr (.inl ⟨by omega, by omega, by rw [hb, Nat.add_sub_cancel]⟩),
      ⟨hx, rfl, nofun⟩, congrArg Char.ofNat ?_⟩
    simp only [completed, List.foldl_cons, List.foldl_nil, hxv]
    omega
  by_cases h3 : v ≤ 0xFFFF
  · have hb := toNat_ofNat_of_lt (show v / 4096 + 0xE0 < 256 by omega)
    obtain ⟨low, high, hlead, hlow, hhigh⟩ := lead_three (n := v / 4096) (by omega) hy
      (by omega) (by omega)
    refine ⟨_, _, [UInt8.ofNat (v / 64 % 64 + 0x80), UInt8.ofNat (v % 64 + 0x80)],
      encodeChar_three ⟨by omega, h3⟩ (by omega) hb.symm hyv.symm hxv.symm, hlead,
      ⟨⟨hlow, hhigh⟩, rfl, List.forall_mem_singleton.mpr hx⟩, congrArg Char.ofNat ?_⟩
    simp only [completed, List.foldl_cons, List.foldl_nil, hxv, hyv]
    omega
  · have hb := toNat_ofNat_of_lt (show v / 262144 + 0xF0 < 256 by omega)
    obtain ⟨low, high, hlead, hlow, hhigh⟩ := lead_four (n := v / 262144) (by omega) hz
      (by omega) (by omega)
    refine ⟨_, _, [UInt8.ofNat (v / 4096 % 64 + 0x80), UInt8.ofNat (v / 64 % 64 + 0x80),
      UInt8.ofNat (v % 64 + 0x80)], encodeChar_four ⟨by omega, by omega⟩ hb.symm hzv.symm hyv.symm
      hxv.symm, hlead,
      ⟨⟨hlow, hhigh⟩, rfl, List.forall_mem_cons.mpr ⟨hy, List.forall_mem_singleton.mpr hx⟩⟩,
      congrArg Char.ofNat ?_⟩
    simp only [completed, List.foldl_cons, List.foldl_nil, hxv, hyv, hzv]
    omega

-- ---------------------------------------------------------------------------
-- Texts
-- ---------------------------------------------------------------------------

theorem encode_cons (c : Char) (cs : List Char) :
    encode (c :: cs) = String.utf8EncodeChar c ++ encode cs := List.flatMap_cons

theorem decodeFrom_encode (index : Nat) (done cs : List Char) :
    decodeFrom index done none (encode cs) = .ok (done.reverse ++ cs) := by
  induction cs generalizing index done with
  | nil => simp [encode, decodeFrom]
  | cons c cs ih =>
    rw [encode_cons]
    rcases lead_encodeChar c with ⟨b, hb, hlead⟩ | ⟨b, o, tail, hb, hlead, hf, hc⟩
    · rw [hb, List.singleton_append, decodeFrom, hlead]
      simp [ih]
    · rw [hb, List.cons_append, decodeFrom, hlead]
      simp [decodeFrom_append hf, hc, ih]

theorem decode_encode (cs : List Char) : decode (encode cs) = .ok cs := decodeFrom_encode 0 [] cs

/-- What is decoded is what was encoded, from any place between two characters on. -/
theorem encode_of_decodeFrom {index : Nat} {done cs : List Char} {bytes : List UInt8}
    (h : decodeFrom index done none bytes = .ok cs) :
    ∃ more, cs = done.reverse ++ more ∧ bytes = encode more := by
  induction hn : bytes.length using Nat.strongRecOn generalizing index done bytes with
  | _ n ih =>
    subst hn
    cases bytes with
    | nil => exact ⟨[], by simpa [decodeFrom] using h.symm, rfl⟩
    | cons b bytes =>
      rw [decodeFrom] at h
      split at h
      · rename_i c hlead
        obtain ⟨more, rfl, rfl⟩ := ih bytes.length (by simp) h rfl
        exact ⟨c :: more, by simp, by rw [encode_cons, encodeChar_of_lead_ascii hlead]; rfl⟩
      · rename_i o hlead
        obtain ⟨tail, rest, rfl, hf, hd⟩ := exists_tail_of_decodeFrom h
        have hshorter : rest.length < (b :: (tail ++ rest)).length := by
          rw [List.length_cons, List.length_append]
          omega
        obtain ⟨more, rfl, rfl⟩ := ih rest.length hshorter hd rfl
        refine ⟨Char.ofNat (completed o.code tail) :: more, by simp, ?_⟩
        rw [encode_cons, encodeChar_of_lead_opens hlead hf]
        rfl
      · cases h

/-- A text is decoded exactly when it is the encoding of some characters, and into these. -/
theorem decode_eq_ok_iff {bytes : List UInt8} {cs : List Char} :
    decode bytes = .ok cs ↔ bytes = encode cs := by
  constructor
  · intro h
    obtain ⟨more, rfl, rfl⟩ := encode_of_decodeFrom h
    rfl
  · rintro rfl
    exact decode_encode cs

-- ---------------------------------------------------------------------------
-- Well-formed octets
-- ---------------------------------------------------------------------------

/-- One character: an octet that says how many follow, these, and a value that needs so many octets,
is no surrogate and is not above U+10FFFF. -/
inductive Sequence : List UInt8 → Prop
  | one {a : UInt8} (ha : a.toNat ≤ 0x7F) : Sequence [a]
  | two {a b : UInt8} {value : Nat} (ha : 0xC0 ≤ a.toNat ∧ a.toNat ≤ 0xDF) (hb : Tail b)
      (hv : value = (a.toNat - 0xC0) * 64 + (b.toNat - 0x80)) (hneed : 0x80 ≤ value) :
      Sequence [a, b]
  | three {a b c : UInt8} {value : Nat} (ha : 0xE0 ≤ a.toNat ∧ a.toNat ≤ 0xEF) (hb : Tail b)
      (hc : Tail c)
      (hv : value = ((a.toNat - 0xE0) * 64 + (b.toNat - 0x80)) * 64 + (c.toNat - 0x80))
      (hneed : 0x800 ≤ value) (hsurrogate : ¬(0xD800 ≤ value ∧ value ≤ 0xDFFF)) : Sequence [a, b, c]
  | four {a b c d : UInt8} {value : Nat} (ha : 0xF0 ≤ a.toNat ∧ a.toNat ≤ 0xF7) (hb : Tail b)
      (hc : Tail c) (hd : Tail d)
      (hv : value =
        (((a.toNat - 0xF0) * 64 + (b.toNat - 0x80)) * 64 + (c.toNat - 0x80)) * 64 +
          (d.toNat - 0x80))
      (hneed : 0x10000 ≤ value) (hmax : value ≤ 0x10FFFF) : Sequence [a, b, c, d]

/-- Characters one after the other, the last one whole. -/
inductive WellFormed : List UInt8 → Prop
  | nil : WellFormed []
  | cons {octets rest : List UInt8} (h : Sequence octets) (hr : WellFormed rest) :
      WellFormed (octets ++ rest)

theorem Sequence.encodeChar {octets : List UInt8} (h : Sequence octets) :
    ∃ c, String.utf8EncodeChar c = octets := by
  cases h with
  | one ha => exact ⟨_, encodeChar_of_lead_ascii (if_pos ha)⟩
  | two ha hb hv hneed =>
    unfold Tail at hb
    exact ⟨_, encodeChar_two (v := _) ⟨hneed, by omega⟩ (by omega) (by omega)⟩
  | three ha hb hc hv hneed hsurrogate =>
    unfold Tail at hb hc
    exact ⟨_, encodeChar_three (v := _) ⟨hneed, by omega⟩ (by omega) (by omega)
      (by omega) (by omega)⟩
  | four ha hb hc hd hv hneed hmax =>
    unfold Tail at hb hc hd
    exact ⟨_, encodeChar_four (v := _) ⟨hneed, hmax⟩ (by omega) (by omega) (by omega) (by omega)⟩

theorem sequence_of_lead_opens {b : UInt8} {o : Open} {tail : List UInt8} (h : lead b = .opens o)
    (hf : o.FollowedBy tail) : Sequence (b :: tail) := by
  obtain ⟨x, rest, rfl, hlow, hhigh, hlen, hrest⟩ := hf.tails
  have htwo (ho : o.owed = 1) (hb : 0xE0 ≤ b.toNat ∧ b.toNat ≤ 0xEF) (hx : Tail x)
      (hneed : 0xE0 < b.toNat ∨ 0xA0 ≤ x.toNat) (hsurrogate : b.toNat ≠ 0xED ∨ x.toNat ≤ 0x9F) :
      Sequence (b :: x :: rest) := by
    obtain ⟨y, rfl⟩ := List.length_eq_one_iff.mp (hlen.trans ho)
    have hy := hrest y (by simp)
    refine .three hb hx hy rfl ?_ ?_ <;> unfold Tail at hx hy <;> omega
  have hthree (ho : o.owed = 2) (hb : 0xF0 ≤ b.toNat ∧ b.toNat ≤ 0xF4) (hx : Tail x)
      (hneed : 0xF0 < b.toNat ∨ 0x90 ≤ x.toNat) (hmax : b.toNat ≠ 0xF4 ∨ x.toNat ≤ 0x8F) :
      Sequence (b :: x :: rest) := by
    obtain ⟨y, z, rfl⟩ := List.length_eq_two.mp (hlen.trans ho)
    have hy := hrest y (by simp)
    have hz := hrest z (by simp)
    refine .four ⟨hb.1, by omega⟩ hx hy hz rfl ?_ ?_ <;> unfold Tail at hx hy hz <;> omega
  unfold Tail at htwo hthree
  rcases lead_eq_opens_iff.mp h with ⟨hb, hb', rfl⟩ | ⟨hb, rfl⟩ | ⟨hb, rfl⟩ | ⟨hb, hb', hne, rfl⟩ |
    ⟨hb, rfl⟩ | ⟨hb, hb', rfl⟩ | ⟨hb, rfl⟩ <;> simp only [UInt8.reduceToNat] at hlow hhigh
  · obtain rfl := List.length_eq_zero_iff.mp hlen
    exact .two ⟨by omega, hb'⟩ ⟨hlow, hhigh⟩ rfl (by omega)
  · exact htwo rfl (by omega) (by omega) (by omega) (by omega)
  · exact htwo rfl (by omega) (by omega) (by omega) (by omega)
  · exact htwo rfl (by omega) (by omega) (by omega) (by omega)
  · exact hthree rfl (by omega) (by omega) (by omega) (by omega)
  · exact hthree rfl (by omega) (by omega) (by omega) (by omega)
  · exact hthree rfl (by omega) (by omega) (by omega) (by omega)

theorem sequence_encodeChar (c : Char) : Sequence (String.utf8EncodeChar c) := by
  obtain ⟨b, hb, hlead⟩ | ⟨b, o, tail, hb, hlead, hf, -⟩ := lead_encodeChar c <;> rw [hb]
  · refine .one ?_
    unfold lead at hlead
    split at hlead
    · assumption
    · exfalso; grind
  · exact sequence_of_lead_opens hlead hf

/-- The octets of a text are the well-formed ones. -/
theorem wellFormed_iff {bytes : List UInt8} : WellFormed bytes ↔ ∃ cs, bytes = encode cs := by
  constructor
  · intro h
    induction h with
    | nil => exact ⟨[], rfl⟩
    | cons h _ ih =>
      obtain ⟨c, rfl⟩ := h.encodeChar
      obtain ⟨cs, rfl⟩ := ih
      exact ⟨c :: cs, (encode_cons c cs).symm⟩
  · rintro ⟨cs, rfl⟩
    induction cs with
    | nil => exact .nil
    | cons c cs ih =>
      rw [encode_cons]
      exact .cons (sequence_encodeChar c) ih

instance (bytes : List UInt8) : Decidable (WellFormed bytes) :=
  match h : decode bytes with
  | .ok cs => isTrue (wellFormed_iff.mpr ⟨cs, decode_eq_ok_iff.mp h⟩)
  | .error e => isFalse fun hw => by
    obtain ⟨cs, hcs⟩ := wellFormed_iff.mp hw
    cases h.symm.trans (decode_eq_ok_iff.mpr hcs)

end RadioGateway.Text.Utf8
