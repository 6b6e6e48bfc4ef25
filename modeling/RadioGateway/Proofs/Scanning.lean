import RadioGateway.Json.Reader
import RadioGateway.Proofs.Spelling

/-!
# Reading one token

Whatever spelling of an atom a text begins with, the reader finds the atom and stops behind it. A
number shows its end only by what follows, so what follows must not be able to go on with it.
-/

namespace RadioGateway.Json

open RadioGateway.Text

-- ---------------------------------------------------------------------------
-- Strings
-- ---------------------------------------------------------------------------

/-- An octet that stands for itself in a string. -/
def Plain (b : UInt8) : Prop := b ≠ quote ∧ b ≠ backslash ∧ ¬b < 0x20

theorem stringOctets_plain {octets : List UInt8} (h : ∀ b ∈ octets, Plain b)
    (done rest : List UInt8) :
    stringOctets done (octets ++ rest) = stringOctets (octets.reverse ++ done) rest := by
  induction octets generalizing done with
  | nil => rfl
  | cons b octets ih =>
    obtain ⟨hquote, hbackslash, hcontrol⟩ := h b List.mem_cons_self
    rw [List.cons_append, stringOctets, if_neg hquote, if_neg hbackslash, if_neg hcontrol,
      ih fun c hc => h c (List.mem_cons_of_mem b hc), List.reverse_cons, List.append_assoc]
    rfl

theorem stringOctets_escape {done rest after : List UInt8} {c : Char}
    (h : escape rest = .ok (c, after)) : stringOctets done (backslash :: rest) =
      stringOctets ((String.utf8EncodeChar c).reverse ++ done) after := by
  rw [stringOctets, if_neg (by decide), if_pos rfl]
  split
  · rename_i f hf
    cases h.symm.trans hf
  · rename_i c' after' hf
    obtain ⟨rfl, rfl⟩ := Prod.mk.inj (Except.ok.inj (h.symm.trans hf))
    rfl

theorem plain_of_le {b : UInt8} (h : 0x80 ≤ b.toNat) : Plain b := by
  have hquote : (quote : UInt8).toNat = 0x22 := rfl
  have hbackslash : (backslash : UInt8).toNat = 0x5C := rfl
  refine ⟨?_, ?_, ?_⟩
  · rintro rfl; omega
  · rintro rfl; omega
  · intro hlow
    have hlow : b.toNat < 0x20 := hlow
    omega

theorem plain_utf8EncodeChar {c : Char} (hc : 0x20 ≤ c.toNat) (hq : c ≠ '"') (hb : c ≠ '\\') :
    ∀ b ∈ String.utf8EncodeChar c, Plain b := by
  obtain ⟨b, hbytes, hlead⟩ | ⟨b, o, tail, hbytes, hlead, hf, -⟩ := Utf8.lead_encodeChar c
  · have hc' : Char.ofNat b.toNat = c := by
      unfold Utf8.lead at hlead
      split at hlead
      · exact Utf8.Lead.ascii.inj hlead
      · exfalso; grind
    rw [hbytes, List.forall_mem_singleton]
    refine ⟨?_, ?_, ?_⟩
    · rintro rfl; exact hq hc'.symm
    · rintro rfl; exact hb hc'.symm
    · intro hlow
      have hlow : b.toNat < 0x20 := hlow
      rw [← hc', Char.toNat, Utf8.toNat_ofNat_of_valid (.inl (by omega))] at hc
      omega
  · obtain ⟨x, rest, rfl, hlow, -, -, hrest⟩ := hf.tails
    have hopen : 0x80 ≤ b.toNat ∧ 0x80 ≤ o.low.toNat := by
      rcases Utf8.lead_eq_opens_iff.mp hlead with
        ⟨hb, -, rfl⟩ | ⟨hb, rfl⟩ | ⟨hb, rfl⟩ | ⟨hb, -, -, rfl⟩ |
        ⟨hb, rfl⟩ | ⟨hb, -, rfl⟩ | ⟨hb, rfl⟩ <;> simp only [UInt8.reduceToNat] <;> omega
    rw [hbytes]
    refine List.forall_mem_cons.mpr ⟨plain_of_le hopen.1,
      List.forall_mem_cons.mpr ⟨?_, fun y hy => ?_⟩⟩
    · exact plain_of_le (Nat.le_trans hopen.2 hlow)
    · exact plain_of_le (hrest y hy).1

theorem hexUnit_of_unitText {n : Nat} {text : List UInt8} (h : UnitText n text)
    (rest : List UInt8) : hexUnit (text ++ rest) = .ok (n, rest) := by
  cases h with
  | digits ha hb hc hd =>
    simp only [List.cons_append, List.nil_append, hexUnit, ha, hb, hc, hd]

theorem escape_short {c : Char} {b : UInt8} (h : (c, b) ∈ shortEscapes) (rest : List UInt8) :
    escape (b :: rest) = .ok (c, rest) := by
  have hall : ∀ e ∈ shortEscapes, e.2 ≠ 0x75 ∧ simpleEscape e.2 = some e.1 := by decide
  obtain ⟨hu, hc⟩ := hall (c, b) h
  simp only at hu hc
  simp only [escape, if_neg hu, hc]

theorem escape_unit {c : Char} {text : List UInt8} (h : UnitText c.toNat text) (rest : List UInt8) :
    escape (0x75 :: (text ++ rest)) = .ok (c, rest) := by
  have hvalid : c.toNat < 0xD800 ∨ 0xDFFF < c.toNat ∧ c.toNat < 0x110000 := c.valid
  have htrailing : isTrailingSurrogate c.toNat = false := by
    simp only [isTrailingSurrogate, Bool.and_eq_false_iff, decide_eq_false_iff_not]; omega
  have hleading : isLeadingSurrogate c.toNat = false := by
    simp only [isLeadingSurrogate, Bool.and_eq_false_iff, decide_eq_false_iff_not]; omega
  simp [escape, hexUnit_of_unitText h, htrailing, hleading, Char.ofNat_toNat]

theorem escape_pair {c : Char} {high low : List UInt8} (hc : 0x10000 ≤ c.toNat)
    (hh : UnitText (0xD800 + (c.toNat - 0x10000) / 0x400) high)
    (hl : UnitText (0xDC00 + (c.toNat - 0x10000) % 0x400) low) (rest : List UInt8) :
    escape (0x75 :: (high ++ backslash :: 0x75 :: (low ++ rest))) = .ok (c, rest) := by
  have hvalid : c.toNat < 0xD800 ∨ 0xDFFF < c.toNat ∧ c.toNat < 0x110000 := c.valid
  have htrailing : isTrailingSurrogate (0xD800 + (c.toNat - 0x10000) / 0x400) = false := by
    simp only [isTrailingSurrogate, Bool.and_eq_false_iff, decide_eq_false_iff_not]; omega
  have hleading : isLeadingSurrogate (0xD800 + (c.toNat - 0x10000) / 0x400) = true := by
    simp only [isLeadingSurrogate, Bool.and_eq_true, decide_eq_true_eq]; omega
  have hlow : isTrailingSurrogate (0xDC00 + (c.toNat - 0x10000) % 0x400) = true := by
    simp only [isTrailingSurrogate, Bool.and_eq_true, decide_eq_true_eq]; omega
  have hsecond : trailingSurrogate (backslash :: 0x75 :: (low ++ rest)) =
      .ok (0xDC00 + (c.toNat - 0x10000) % 0x400, rest) := by
    simp [trailingSurrogate, hexUnit_of_unitText hl, hlow, bind, Except.bind]
  have hcode : 0x10000 + (0xD800 + (c.toNat - 0x10000) / 0x400 - 0xD800) * 0x400 +
      (0xDC00 + (c.toNat - 0x10000) % 0x400 - 0xDC00) = c.toNat := by omega
  simp only [escape, if_true, hexUnit_of_unitText hh, htrailing, hleading, hsecond, hcode,
    Char.ofNat_toNat, Bool.false_eq_true, if_false]

theorem stringOctets_charText {c : Char} {text : List UInt8} (h : CharText c text)
    (done rest : List UInt8) :
    stringOctets done (text ++ rest) =
      stringOctets ((String.utf8EncodeChar c).reverse ++ done) rest := by
  cases h with
  | plain hc hq hb => exact stringOctets_plain (plain_utf8EncodeChar hc hq hb) done rest
  | short h => exact stringOctets_escape (escape_short h rest)
  | unit h => exact stringOctets_escape (escape_unit h rest)
  | pair hc hh hl =>
    have := escape_pair hc hh hl rest
    simp only [List.cons_append, List.append_assoc]
    exact stringOctets_escape this

theorem stringOctets_charsText {cs : List Char} {text : List UInt8} (h : CharsText cs text)
    (done rest : List UInt8) :
    stringOctets done (text ++ quote :: rest) = .ok ((Utf8.encode cs).reverse ++ done, rest) := by
  induction h generalizing done with
  | nil => rw [List.nil_append, stringOctets, if_pos rfl]; rfl
  | cons h _ ih =>
    rw [List.append_assoc, stringOctets_charText h, ih, Utf8.encode_cons, List.reverse_append,
      List.append_assoc]

theorem string_charsText {s : String} {text : List UInt8} (h : CharsText s.toList text)
    (rest : List UInt8) : string (text ++ quote :: rest) = .ok (s, rest) := by
  simp only [string, stringOctets_charsText h, List.append_nil, List.reverse_reverse,
    Utf8.decode_encode, String.ofList_toList]

-- ---------------------------------------------------------------------------
-- Digits
-- ---------------------------------------------------------------------------

/-- What cannot go on with a number. -/
def Stops (rest : List UInt8) : Prop :=
  ∀ b ∈ rest.head?, isDigit b = false ∧ b ≠ point ∧ isExponentMark b = false

theorem encodeChar_digit {c : Char} (h : c.isDigit = true) :
    ∃ b, String.utf8EncodeChar c = [b] ∧ isDigit b = true ∧ b.toNat = c.toNat := by
  have hall : ∀ n < 58, 48 ≤ n → String.utf8EncodeChar (Char.ofNat n) = [UInt8.ofNat n] ∧
      isDigit (UInt8.ofNat n) = true ∧ (UInt8.ofNat n).toNat = n := by decide
  have hc : 48 ≤ c.toNat ∧ c.toNat ≤ 57 := Char.isDigit_iff_toNat.mp h
  have := hall c.toNat (by omega) hc.1
  rw [Char.ofNat_toNat] at this
  exact ⟨_, this⟩

theorem isDigit_of_mem_encode {cs : List Char} (h : ∀ c ∈ cs, c.isDigit = true) :
    ∀ b ∈ Utf8.encode cs, isDigit b = true := by
  intro b hb
  obtain ⟨c, hc, hb⟩ := List.mem_flatMap.mp hb
  obtain ⟨d, hd, hdigit, -⟩ := encodeChar_digit (h c hc)
  rw [hd, List.mem_singleton] at hb
  exact hb ▸ hdigit

theorem length_encode_digits {cs : List Char} (h : ∀ c ∈ cs, c.isDigit = true) :
    (Utf8.encode cs).length = cs.length := by
  induction cs with
  | nil => rfl
  | cons c cs ih =>
    obtain ⟨b, hb, -⟩ := encodeChar_digit (h c List.mem_cons_self)
    rw [Utf8.encode_cons, hb, List.singleton_append, List.length_cons, List.length_cons,
      ih fun d hd => h d (List.mem_cons_of_mem c hd)]

theorem le_ofDigitChars (cs : List Char) (init : Nat) : init ≤ Nat.ofDigitChars 10 cs init := by
  rw [Nat.ofDigitChars_eq_ofDigitChars_zero]
  have := Nat.le_mul_of_pos_left init (Nat.pow_pos (n := cs.length) (show 0 < 10 by decide))
  omega

/-- Digits whose value has room are all taken. -/
theorem accumulate_encode {limit init : Nat} {cs : List Char} (h : ∀ c ∈ cs, c.isDigit = true)
    (hv : Nat.ofDigitChars 10 cs init ≤ limit) :
    accumulate limit init (Utf8.encode cs) = (Nat.ofDigitChars 10 cs init, 0) := by
  induction cs generalizing init with
  | nil => rfl
  | cons c cs ih =>
    obtain ⟨b, hb, -, hn⟩ := encodeChar_digit (h c List.mem_cons_self)
    have hstep : init * 10 + (b.toNat - 0x30) = 10 * init + (c.toNat - '0'.toNat) := by
      rw [hn, Nat.mul_comm]; rfl
    rw [Nat.ofDigitChars_cons] at hv ⊢
    have hroom := Nat.le_trans (le_ofDigitChars cs _) hv
    rw [Utf8.encode_cons, hb, List.singleton_append, accumulate]
    simp only [hstep]
    rw [if_neg (Nat.not_lt.mpr hroom), ih (fun d hd => h d (List.mem_cons_of_mem c hd)) hv]

theorem spanDigits_append {digits rest : List UInt8} (h : ∀ b ∈ digits, isDigit b = true)
    (hr : ∀ b ∈ rest.head?, isDigit b = false) : spanDigits (digits ++ rest) = (digits, rest) := by
  have hrest : rest.takeWhile isDigit = [] ∧ rest.dropWhile isDigit = rest := by
    cases rest with
    | nil => exact ⟨rfl, rfl⟩
    | cons b rest => simp [hr b rfl]
  rw [spanDigits, List.takeWhile_append_of_pos h, List.dropWhile_append_of_pos h, hrest.1, hrest.2,
    List.append_nil]

theorem head_toDigits_ne_zero {n : Nat} (h : n ≠ 0) : (Nat.toDigits 10 n).head? ≠ some '0' := by
  induction n using Nat.strongRecOn with
  | ind n ih =>
    by_cases hn : n < 10
    · have hall : ∀ k < 10, k ≠ 0 → Nat.digitChar k ≠ '0' := by decide
      rw [Nat.toDigits_of_lt_base hn]
      exact fun h0 => hall n hn h (Option.some.inj h0)
    · have hquotient := ih (n / 10) (by omega) (by omega)
      rw [Nat.toDigits_of_base_le (by decide) (by omega)]
      cases hd : Nat.toDigits 10 (n / 10) with
      | nil => exact absurd hd Nat.toDigits_ne_nil
      | cons c cs => rwa [hd] at hquotient

-- ---------------------------------------------------------------------------
-- Integers
-- ---------------------------------------------------------------------------

/-- Digits that a number may begin with: a zero only if nothing else is among them. -/
structure Whole (cs : List Char) : Prop where
  digits : ∀ c ∈ cs, c.isDigit = true
  opens : ∃ c more, cs = c :: more ∧ (c = '0' → more = [])

theorem whole_toDigits (n : Nat) : Whole (Nat.toDigits 10 n) := by
  refine ⟨fun c hc => Nat.isDigit_of_mem_toDigits (by decide) (by decide) hc, ?_⟩
  by_cases hn : n = 0
  · exact hn ▸ ⟨'0', [], rfl, fun _ => rfl⟩
  cases hd : Nat.toDigits 10 n with
  | nil => exact absurd hd Nat.toDigits_ne_nil
  | cons c cs =>
    refine ⟨c, cs, rfl, fun hzero => absurd ?_ (head_toDigits_ne_zero hn)⟩
    rw [hd, hzero]
    rfl

theorem Whole.encode {cs : List Char} (h : Whole cs) :
    ∃ b more, Utf8.encode cs = b :: Utf8.encode more ∧
    isDigit b = true ∧ (b = 0x30 → more = []) := by
  obtain ⟨c, more, rfl, hzero⟩ := h.opens
  obtain ⟨b, hb, hdigit, hbc⟩ := encodeChar_digit (h.digits c List.mem_cons_self)
  refine ⟨b, more, by rw [Utf8.encode_cons, hb]; rfl, hdigit, fun hb => hzero ?_⟩
  rw [← Char.ofNat_toNat c, ← hbc, hb]
  rfl

/-- The digits that a number begins with are taken, and what follows says what the number is. -/
theorem Whole.unsigned {cs : List Char} (h : Whole cs)
    (hv : Nat.ofDigitChars 10 cs 0 ≤ maxSignificand) (negative : Bool) {rest : List UInt8}
    (hr : ∀ b ∈ rest.head?, isDigit b = false) : unsigned negative (Utf8.encode cs ++ rest) =
      match rest with
      | [] => .ok (exactInteger negative (Nat.ofDigitChars 10 cs 0), [])
      | c :: after =>
        if c = point then fraction negative (Nat.ofDigitChars 10 cs 0) 0 after
        else if isExponentMark c then exponent negative (Nat.ofDigitChars 10 cs 0) 0 after
        else .ok (exactInteger negative (Nat.ofDigitChars 10 cs 0), c :: after) := by
  have hspan := spanDigits_append (isDigit_of_mem_encode h.digits) hr
  have htaken := accumulate_encode h.digits hv
  obtain ⟨b, more, hopen, hb, hzero⟩ := h.encode
  have hnozero : ¬(b = 0x30 ∧ (Utf8.encode more ++ rest).head?.any isDigit = true) := by
    rintro ⟨hb, hany⟩
    rw [hzero hb] at hany
    obtain ⟨c, hc, hdigit⟩ := Option.any_eq_true _ _ |>.mp hany
    exact absurd hdigit (by simp [hr c hc])
  rw [hopen] at hspan htaken ⊢
  rw [List.cons_append] at hspan ⊢
  simp only [Json.unsigned, hb, Bool.not_true, Bool.false_eq_true, if_false, hspan, htaken]
  rw [if_neg hnozero]
  cases rest <;> rfl

/-- The digits of a number in front of what cannot go on with it. -/
theorem unsigned_toDigits {n : Nat} (hn : n ≤ maxSignificand) (negative : Bool) {rest : List UInt8}
    (hr : Stops rest) :
    unsigned negative (Utf8.encode (Nat.toDigits 10 n) ++ rest) =
      .ok (exactInteger negative n, rest) := by
  have hvalue : Nat.ofDigitChars 10 (Nat.toDigits 10 n) 0 = n := Nat.ofDigitChars_ten_toDigits
  rw [(whole_toDigits n).unsigned (hvalue.symm ▸ hn) negative fun b hb => (hr b hb).1, hvalue]
  cases rest with
  | nil => rfl
  | cons c after =>
    obtain ⟨-, hpoint, hmark⟩ := hr c rfl
    simp only [if_neg hpoint, hmark, Bool.false_eq_true, if_false]

theorem number_minus (text : List UInt8) : number (minus :: text) = unsigned true text := by
  rw [number, if_pos rfl]

theorem number_digit {b : UInt8} (h : isDigit b = true) (text : List UInt8) :
    number (b :: text) = unsigned false (b :: text) := by
  have hminus : b ≠ minus := by
    rintro rfl
    cases h
  rw [number, if_neg hminus]

theorem number_writeInt {i : Int} (hlow : -2 ^ 63 ≤ i) (hhigh : i < 2 ^ 64) {rest : List UInt8}
    (hr : Stops rest) : number (Utf8.encode (writeInt i) ++ rest) = .ok (.integer i, rest) := by
  cases i with
  | ofNat n =>
    have hn : n ≤ maxSignificand := by
      have hlimit : maxSignificand = 2 ^ 64 - 1 := rfl
      have hhigh : (n : Int) < 2 ^ 64 := hhigh
      omega
    obtain ⟨b, more, hopen, hb, -⟩ := (whole_toDigits n).encode
    have hread := unsigned_toDigits hn false hr
    rw [hopen, List.cons_append] at hread
    rw [writeInt, hopen, List.cons_append, number_digit hb]
    exact hread
  | negSucc n =>
    have hn : n + 1 ≤ 0x8000000000000000 := by omega
    have hread := unsigned_toDigits (Nat.le_trans hn (by decide)) true hr
    have hexact : exactInteger true (n + 1) = .integer (.negSucc n) := by
      have hrange : ¬(n + 1 = 0 ∨ 0x8000000000000000 < n + 1) := by omega
      simp only [exactInteger, Bool.not_true, Bool.false_eq_true, if_false, if_neg hrange]
      rfl
    rw [hexact] at hread
    rw [writeInt, Utf8.encode_cons]
    exact (number_minus _).trans hread

-- ---------------------------------------------------------------------------
-- Atoms
-- ---------------------------------------------------------------------------

/-- The text is read as this value whatever follows, if it is not read as a bracket that closes. -/
structure Reads (v : Value) (text : List UInt8) : Prop where
  opens : ∃ b more, text = b :: more ∧ isSpace b = false ∧ b ≠ closeBracket ∧ b ≠ closeBrace
  starts : ∀ depth rest, Stops rest → start depth (text ++ rest) = .ok (.whole v, rest)
  key : ∀ s, v = .string s →
    ∃ more, text = quote :: more ∧ ∀ rest, string (more ++ rest) = .ok (s, rest)

theorem start_quote {depth : Nat} {text rest : List UInt8} {s : String}
    (h : string text = .ok (s, rest)) :
    start depth (quote :: text) = .ok (.whole (.string s), rest) := by
  have hskip : skipSpace (quote :: text) = quote :: text := rfl
  simp only [start, hskip, h]
  rfl

/-- Nothing but a number begins with a digit. -/
theorem opens_of_isDigit {b : UInt8} (h : isDigit b = true) : isSpace b = false ∧ b ≠ openBracket ∧
    b ≠ openBrace ∧ b ≠ quote ∧ b ≠ closeBracket ∧ b ≠ closeBrace := by
  have hne {c : UInt8} (hc : isDigit c = false) : b ≠ c := by
    rintro rfl
    cases h.symm.trans hc
  refine ⟨?_, hne rfl, hne rfl, hne rfl, hne rfl, hne rfl⟩
  simp only [isSpace, Bool.or_eq_false_iff, beq_eq_false_iff_ne]
  exact ⟨⟨⟨hne rfl, hne rfl⟩, hne rfl⟩, hne rfl⟩

theorem start_number {depth : Nat} {b : UInt8} {text rest : List UInt8} {n : Number}
    (hb : b = minus ∨ isDigit b = true) (h : number (b :: text) = .ok (n, rest)) :
    start depth (b :: text) = .ok (.whole n.toValue, rest) := by
  obtain ⟨hspace, hbracket, hbrace, hquote, -⟩ : isSpace b = false ∧ b ≠ openBracket ∧
      b ≠ openBrace ∧ b ≠ quote ∧ b ≠ closeBracket ∧ b ≠ closeBrace := by
    obtain rfl | hb := hb
    · decide
    · exact opens_of_isDigit hb
  have hskip : skipSpace (b :: text) = b :: text := List.dropWhile_cons_of_neg (by simp [hspace])
  have hsign : (b = minus || isDigit b) = true := by
    simpa using hb
  simp only [start, hskip, if_neg hbracket, if_neg hbrace, if_neg hquote, hsign, if_true, h]
  rfl

theorem word_append (w rest : List UInt8) : word w (w ++ rest) = .ok rest := by
  induction w with
  | nil => rfl
  | cons b w ih => exact (if_pos rfl).trans ih

theorem reads_null : Reads .null (Utf8.ofString "null") := by
  refine ⟨⟨0x6E, nullTail, rfl, by decide, by decide, by decide⟩, fun depth rest _ => ?_, nofun⟩
  show start depth (0x6E :: (nullTail ++ rest)) = _
  have hskip : skipSpace (0x6E :: (nullTail ++ rest)) = 0x6E :: (nullTail ++ rest) := rfl
  simp only [start, hskip, word_append]
  rfl

theorem reads_bool (b : Bool) :
    Reads (.bool b) (Utf8.ofString (if b then "true" else "false")) := by
  cases b with
  | true =>
    refine ⟨⟨0x74, trueTail, rfl, by decide, by decide, by decide⟩, fun depth rest _ => ?_, nofun⟩
    show start depth (0x74 :: (trueTail ++ rest)) = _
    have hskip : skipSpace (0x74 :: (trueTail ++ rest)) = 0x74 :: (trueTail ++ rest) := rfl
    simp only [start, hskip, word_append]
    rfl
  | false =>
    refine ⟨⟨0x66, falseTail, rfl, by decide, by decide, by decide⟩, fun depth rest _ => ?_, nofun⟩
    show start depth (0x66 :: (falseTail ++ rest)) = _
    have hskip : skipSpace (0x66 :: (falseTail ++ rest)) = 0x66 :: (falseTail ++ rest) := rfl
    simp only [start, hskip, word_append]
    rfl

/-- Whatever begins with a sign or a digit and is a number is read as one. -/
theorem reads_number {v : Value} {n : Number} {text : List UInt8} (hv : n.toValue = v)
    (hopen : ∃ b more, text = b :: more ∧ (b = minus ∨ isDigit b = true))
    (hread : ∀ rest, Stops rest → number (text ++ rest) = .ok (n, rest)) : Reads v text := by
  obtain ⟨b, more, rfl, hb⟩ := hopen
  subst hv
  refine ⟨⟨b, more, rfl, ?_⟩, fun depth rest hr => start_number hb (hread rest hr), fun s hs => ?_⟩
  · obtain rfl | hb := hb
    · decide
    · obtain ⟨hspace, -, -, -, hclose⟩ := opens_of_isDigit hb
      exact ⟨hspace, hclose⟩
  · cases n <;> cases hs

theorem reads_integer {i : Int} (hlow : -2 ^ 63 ≤ i) (hhigh : i < 2 ^ 64) :
    Reads (.integer i) (Utf8.encode (writeInt i)) := by
  refine reads_number (n := .integer i) rfl ?_ fun rest hr => number_writeInt hlow hhigh hr
  cases i with
  | ofNat n =>
    obtain ⟨b, more, hopen, hb, -⟩ := (whole_toDigits n).encode
    exact ⟨b, _, hopen, .inr hb⟩
  | negSucc n => exact ⟨minus, _, Utf8.encode_cons _ _, .inl rfl⟩

theorem reads_string {s : String} {text : List UInt8} (h : CharsText s.toList text) :
    Reads (.string s) (quote :: (text ++ [quote])) := by
  have hread (rest : List UInt8) : string (text ++ [quote] ++ rest) = .ok (s, rest) := by
    rw [List.append_assoc]
    exact string_charsText h rest
  refine ⟨⟨quote, _, rfl, by decide, by decide, by decide⟩, fun depth rest _ => ?_, fun t ht => ?_⟩
  · exact start_quote (hread rest)
  · obtain rfl := Value.string.inj ht
    exact ⟨_, rfl, hread⟩

/-- However an atom is spelled, it is read as itself. -/
theorem Value.Spelled.reads {v : Value} (hv : v.Exact) {text : List UInt8} (h : v.Spelled text) :
    Reads v text := by
  cases h with
  | null => exact reads_null
  | true => exact reads_bool Bool.true
  | false => exact reads_bool Bool.false
  | integer i =>
    rw [Utf8.ofString, toList_toString_int]
    exact reads_integer hv.1 hv.2
  | string h => exact reads_string h

end RadioGateway.Json
