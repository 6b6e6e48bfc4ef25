import RadioGateway.Proofs.Recognition

/-!
# What numbers and strings are read as

The grammar of numbers and strings once more, now with what each text stands for. A number is an
integer that 64 bits hold, or a significand times a power of ten; one that is too large stands for
none. A string is made of octets that have to be text when all escapes are replaced.
-/

namespace RadioGateway.Json

open RadioGateway.Text

variable {negative : Bool} {n : Number} {significand : Nat} {shift : Int} {text rest : List UInt8}

-- ---------------------------------------------------------------------------
-- The grammar
-- ---------------------------------------------------------------------------

/-- A significand before a power of ten, if the double is not too large. -/
def real? (negative : Bool) (significand : Nat) (exponent : Int) : Option Number :=
  (scale significand exponent).map (signed negative)

/-- As `real?`, where digits say how far the power goes up or down. A power that 31 bits do not hold
leaves nothing, or is too large for any significand but zero. -/
def powered? (negative : Bool) (significand : Nat) (shift : Int) (down : Bool)
    (digits : List UInt8) : Option Number :=
  match accumulate maxExponent 0 digits with
  | (e, 0) => real? negative significand (if down then shift - e else shift + e)
  | _ => if significand ≠ 0 ∧ !down then none else some (signed negative 0)

/-- What comes behind the digits of a significand, and the number that it all makes. -/
inductive PowerOf (negative : Bool) (significand : Nat) (shift : Int) : Number → List UInt8 → Prop
  | none {n : Number} (h : real? negative significand shift = some n) :
      PowerOf negative significand shift n []
  | some {n : Number} {mark : UInt8} {sign digits : List UInt8} (hm : isExponentMark mark = true)
      (hs : sign ∈ [[], [plus], [minus]]) (hd : Digits digits)
      (h : powered? negative significand shift (sign = [minus]) digits = some n) :
      PowerOf negative significand shift n (mark :: (sign ++ digits))

/-- A number but for its sign. Digits that 64 bits have no room for move the power up, if they are
before the point. -/
inductive UnsignedOf (negative : Bool) : Number → List UInt8 → Prop
  | integer {whole : List UInt8} {k : Nat} (hw : WholeText whole)
      (hk : accumulate maxSignificand 0 whole = (k, 0)) :
      UnsignedOf negative (exactInteger negative k) whole
  | whole {n : Number} {whole power : List UInt8} {k left : Nat} (hw : WholeText whole)
      (hk : accumulate maxSignificand 0 whole = (k, left)) (hp : PowerOf negative k left n power)
      (hreal : power = [] → left ≠ 0) : UnsignedOf negative n (whole ++ power)
  | fraction {n : Number} {whole digits power : List UInt8} {k left m left' : Nat}
      (hw : WholeText whole) (hk : accumulate maxSignificand 0 whole = (k, left))
      (hd : Digits digits) (hm : accumulate maxSignificand k digits = (m, left'))
      (hp : PowerOf negative m (left - (digits.length - left' : Nat)) n power) :
      UnsignedOf negative n (whole ++ point :: (digits ++ power))

inductive NumberOf : Number → List UInt8 → Prop
  | unsigned {n : Number} {text : List UInt8} (h : UnsignedOf false n text) : NumberOf n text
  | negative {n : Number} {text : List UInt8} (h : UnsignedOf true n text) :
      NumberOf n (minus :: text)

-- ---------------------------------------------------------------------------
-- Powers
-- ---------------------------------------------------------------------------

theorem scaled_eq_ok {exponent : Int} :
    scaled negative significand exponent text = .ok (n, rest) ↔
      real? negative significand exponent = some n ∧ text = rest := by
  unfold scaled real?
  cases scale significand exponent with
  | none => simp [failAt]
  | some x => simp

/-- The digits of a power, and what they make of the significand. -/
theorem exponent_eq_ok {b : UInt8} {digits tail after : List UInt8} {down : Bool}
    (hb : isDigit b = true) (hsign : exponentSign after = (down, b :: tail))
    (hspan : spanDigits (b :: tail) = (b :: digits, text)) :
    exponent negative significand shift after = .ok (n, rest) ↔
      powered? negative significand shift down (b :: digits) = some n ∧ text = rest := by
  simp only [exponent, hsign, hb, Bool.not_true, Bool.false_eq_true, if_false, hspan, powered?]
  obtain ⟨e, _ | left⟩ := accumulate maxExponent 0 (b :: digits)
  · exact scaled_eq_ok
  · simp only
    split <;> simp [failAt]

/-- Where a power can follow, it is read, or there is none. -/
theorem PowerOf.reads {power : List UInt8} (h : PowerOf negative significand shift n power)
    (hr : Stops rest) :
    power = [] ∧ scaled negative significand shift rest = .ok (n, rest) ∨
      ∃ mark after, power ++ rest = mark :: after ∧ isExponentMark mark = true ∧
        exponent negative significand shift after = .ok (n, rest) := by
  cases h with
  | none h => exact .inl ⟨rfl, scaled_eq_ok.mpr ⟨h, rfl⟩⟩
  | @some mark sign digits hm hs hd h =>
    obtain ⟨b, more, rfl, hb, -⟩ := hd.exists_cons
    have hspan := spanDigits_append hd.digits fun c hc => (hr c hc).1
    refine .inr ⟨mark, sign ++ (b :: (more ++ rest)), by simp, hm, ?_⟩
    exact (exponent_eq_ok hb (exponentSign_append hs hb _) hspan).mpr ⟨h, rfl⟩

theorem exists_powerOf {mark : UInt8} (hm : isExponentMark mark = true)
    (h : exponent negative significand shift text = .ok (n, rest)) :
    ∃ power, PowerOf negative significand shift n power ∧ power ≠ [] ∧
      mark :: text = power ++ rest := by
  obtain ⟨sign, hs, htext, hdown⟩ := exists_sign text
  have hread := h
  unfold exponent at h
  simp only at h
  split at h
  · cases h
  next b tail htail =>
  split at h
  · cases h
  next hdigit =>
  have hb : isDigit b = true := by simpa using hdigit
  obtain ⟨digits, hd, hspan, htail'⟩ := spanDigits_cons tail hb
  have hsign : exponentSign text = (decide (sign = [minus]), b :: tail) :=
    Prod.ext (Bool.eq_iff_iff.mpr (hdown.trans (decide_eq_true_iff (p := _)).symm)) htail
  obtain ⟨hpower, hrest⟩ := (exponent_eq_ok hb hsign hspan).mp hread
  refine ⟨mark :: (sign ++ b :: digits), .some hm hs hd hpower, List.cons_ne_nil _ _, ?_⟩
  rw [htext, htail, ← hrest]
  simp [← htail']

theorem PowerOf.powerText {power : List UInt8} (h : PowerOf negative significand shift n power) :
    PowerText power := by
  cases h with
  | none => exact .none
  | some hm hs hd => exact .some hm hs hd

-- ---------------------------------------------------------------------------
-- Numbers
-- ---------------------------------------------------------------------------

theorem fraction_digits_power {digits power : List UInt8} {m left : Nat} (hd : Digits digits)
    (hm : accumulate maxSignificand significand digits = (m, left))
    (hp : PowerOf negative m (shift - (digits.length - left : Nat)) n power) (hr : Stops rest) :
    fraction negative significand shift (digits ++ (power ++ rest)) = .ok (n, rest) := by
  have hspan := spanDigits_append hd.digits fun c hc => (hp.powerText.head hr c hc).1
  obtain ⟨b, more, rfl, -⟩ := hd.exists_cons
  simp only [fraction, hspan, hm]
  obtain ⟨rfl, hreal⟩ | ⟨mark, after, hcons, hmark, hreal⟩ := hp.reads hr
  · rw [List.nil_append]
    cases rest with
    | nil => exact hreal
    | cons c rest => simpa only [(hr c rfl).2.2, Bool.false_eq_true, if_false] using hreal
  · simpa only [hcons, hmark, if_true] using hreal

theorem exists_fraction (h : fraction negative significand shift text = .ok (n, rest)) :
    ∃ digits m left power, Digits digits ∧
      accumulate maxSignificand significand digits = (m, left) ∧
      PowerOf negative m (shift - (digits.length - left : Nat)) n power ∧
      text = digits ++ (power ++ rest) := by
  unfold fraction at h
  split at h
  · cases h
  · cases h
  next digits after hnil hempty hspan =>
  obtain ⟨htext, hdigits⟩ := spanDigits_eq hspan
  have hd : Digits digits := by
    refine ⟨hdigits, fun hnone => ?_⟩
    cases after with
    | nil => exact hnil hnone rfl
    | cons b after => exact hempty hnone
  obtain ⟨⟨m, left⟩, hm⟩ : ∃ p, accumulate maxSignificand significand digits = p := ⟨_, rfl⟩
  simp only [hm] at h
  split at h
  · next mark after =>
    split at h
    · next hmark =>
      obtain ⟨power, hp, -, hafter⟩ := exists_powerOf hmark h
      exact ⟨digits, m, left, power, hd, hm, hp, by rw [htext, hafter]⟩
    · obtain ⟨hreal, rfl⟩ := scaled_eq_ok.mp h
      exact ⟨digits, m, left, [], hd, hm, .none hreal, htext⟩
  · obtain ⟨hreal, rfl⟩ := scaled_eq_ok.mp h
    exact ⟨digits, m, left, [], hd, hm, .none hreal, htext⟩

theorem WholeText.unsigned_append {whole more : List UInt8} {k left : Nat} (hw : WholeText whole)
    (hk : accumulate maxSignificand 0 whole = (k, left)) :
    (∀ b ∈ more.head?, isDigit b = false) → unsigned negative (whole ++ more) =
      match more with
      | c :: after =>
        if c = point then fraction negative k left after
        else if isExponentMark c then exponent negative k left after
        else if left = 0 then .ok (exactInteger negative k, more)
        else scaled negative k left more
      | [] =>
        if left = 0 then .ok (exactInteger negative k, more) else scaled negative k left more := by
  intro hr
  have hspan := spanDigits_append hw.digits hr
  obtain ⟨b, digits, rfl, hb, -⟩ := hw.exists_cons
  have hzero := zero_alone hw.zero hr
  rw [List.cons_append] at hspan ⊢
  cases more with
  | nil | cons =>
    simp only [unsigned, hb, Bool.not_true, Bool.false_eq_true, if_false, hspan, hk, if_neg hzero]

theorem UnsignedOf.reads (h : UnsignedOf negative n text) (hr : Stops rest) :
    unsigned negative (text ++ rest) = .ok (n, rest) := by
  have hpoint : isExponentMark point = false := rfl
  cases h with
  | integer hw hk =>
    rw [hw.unsigned_append hk fun b hb => (hr b hb).1]
    cases rest with
    | nil => rfl
    | cons c rest =>
      obtain ⟨-, hpoint, hmark⟩ := hr c rfl
      simp only [if_neg hpoint, hmark, Bool.false_eq_true, if_false, if_true]
  | @whole _ _ power k left hw hk hp hreal =>
    rw [List.append_assoc, hw.unsigned_append hk fun b hb => (hp.powerText.head hr b hb).1]
    obtain ⟨rfl, hread⟩ | ⟨mark, after, hcons, hmark, hread⟩ := hp.reads hr
    · have hleft := hreal rfl
      rw [List.nil_append]
      cases rest with
      | nil => simpa only [if_neg hleft] using hread
      | cons c rest =>
        obtain ⟨-, hpoint, hmark⟩ := hr c rfl
        simpa only [if_neg hpoint, hmark, Bool.false_eq_true, if_false, if_neg hleft] using hread
    · have hne : mark ≠ point := by
        rintro rfl
        cases hmark
      simpa only [hcons, if_neg hne, hmark, if_true] using hread
  | fraction hw hk hd hm hp =>
    have hdigit (more : List UInt8) : ∀ b ∈ (point :: more).head?, isDigit b = false := by simp; rfl
    rw [List.append_assoc, List.cons_append, List.append_assoc, hw.unsigned_append hk (hdigit _)]
    simp only [if_true]
    exact fraction_digits_power hd hm hp hr

theorem exists_unsignedOf (h : unsigned negative text = .ok (n, rest)) :
    ∃ t, UnsignedOf negative n t ∧ text = t ++ rest := by
  unfold unsigned at h
  split at h
  · cases h
  next b after =>
  split at h
  · cases h
  next hb =>
  split at h
  · cases h
  next hzero =>
  obtain ⟨digits, hw, hspan, htext⟩ := exists_wholeText (by simpa using hb) hzero
  obtain ⟨⟨k, left⟩, hk⟩ : ∃ p, accumulate maxSignificand 0 (b :: digits) = p := ⟨_, rfl⟩
  simp only [hspan, hk] at h
  -- without a point or a power it is an integer, or one that is too long
  have hwhole (h : (if left = 0 then Except.ok (exactInteger negative k, (spanDigits after).2)
      else scaled negative k left (spanDigits after).2) = .ok (n, rest)) :
      ∃ t, UnsignedOf negative n t ∧ b :: after = t ++ rest := by
    split at h
    · next hleft =>
      obtain ⟨rfl, hrest⟩ := Prod.mk.inj (Except.ok.inj h)
      exact ⟨b :: digits, .integer hw (hleft ▸ hk), by rw [← hrest, List.cons_append, ← htext]⟩
    · next hleft =>
      obtain ⟨hreal, hrest⟩ := scaled_eq_ok.mp h
      refine ⟨b :: digits ++ [], .whole hw hk (.none hreal) fun _ => hleft, ?_⟩
      rw [← hrest, List.append_nil, List.cons_append, ← htext]
  split at h
  · next c tail hcons =>
    split at h
    · next hpoint =>
      obtain ⟨ds, m, left', power, hd, hm, hp, htail⟩ := exists_fraction h
      refine ⟨_, .fraction hw hk hd hm hp, ?_⟩
      rw [htext, hcons, hpoint, htail]
      simp
    · split at h
      · next hmark =>
        obtain ⟨power, hp, hne, htail⟩ := exists_powerOf hmark h
        refine ⟨_, .whole hw hk hp fun hnil => absurd hnil hne, ?_⟩
        rw [htext, hcons, htail]
        simp
      · exact hwhole h
  · next hnil => exact hwhole h

theorem UnsignedOf.opens (h : UnsignedOf negative n text) :
    ∃ b more, text = b :: more ∧ isDigit b = true := by
  cases h with
  | integer hw | whole hw | fraction hw =>
    obtain ⟨b, more, rfl, hb, -⟩ := hw.exists_cons
    exact ⟨b, _, rfl, hb⟩

theorem NumberOf.reads (h : NumberOf n text) (hr : Stops rest) :
    number (text ++ rest) = .ok (n, rest) := by
  cases h with
  | unsigned h =>
    have hread := h.reads hr
    obtain ⟨b, more, rfl, hb⟩ := h.opens
    exact (number_digit hb _).trans hread
  | negative h => exact (number_minus _).trans (h.reads hr)

/-- A number that is read stands in the grammar for what it was read as. -/
theorem exists_numberOf (h : number text = .ok (n, rest)) :
    ∃ t, NumberOf n t ∧ text = t ++ rest := by
  unfold number at h
  split at h
  · next b after =>
    split at h
    · next hb =>
      obtain ⟨t, ht, rfl⟩ := exists_unsignedOf h
      exact ⟨_, .negative ht, by rw [hb, List.cons_append]⟩
    · obtain ⟨t, ht, htext⟩ := exists_unsignedOf h
      exact ⟨t, .unsigned ht, htext⟩
  · cases h

theorem numberOf_of_number (h : number text = .ok (n, [])) : NumberOf n text := by
  obtain ⟨t, ht, htext⟩ := exists_numberOf h
  rwa [htext, List.append_nil]

theorem UnsignedOf.numberText {negative : Bool} {n : Number} (h : UnsignedOf negative n text)
    (sign : List UInt8) (hs : sign ∈ [[], [minus]]) : NumberText (sign ++ text) := by
  cases h with
  | integer hw hk =>
    have h := NumberText.of hs hw.toDigits hw.zero .none .none
    simpa using h
  | whole hw _ hp =>
    have h := NumberText.of hs hw.toDigits hw.zero .none hp.powerText
    simpa using h
  | fraction hw _ hd _ hp =>
    have h := NumberText.of hs hw.toDigits hw.zero (.some hd) hp.powerText
    simpa using h

theorem NumberOf.numberText {n : Number} (h : NumberOf n text) : NumberText text := by
  cases h with
  | unsigned h => exact h.numberText [] (by decide)
  | negative h => exact h.numberText [minus] (by decide)

-- ---------------------------------------------------------------------------
-- Strings
-- ---------------------------------------------------------------------------

/-- What may stand between quotes for some octets. An escape stands for all octets of a
character. -/
inductive OctetsText : List UInt8 → List UInt8 → Prop
  | nil : OctetsText [] []
  | plain {b : UInt8} {octets text : List UInt8} (h : Plain b) (hs : OctetsText octets text) :
      OctetsText (b :: octets) (b :: text)
  | char {c : Char} {t octets text : List UInt8} (h : CharText c t) (hs : OctetsText octets text) :
      OctetsText (String.utf8EncodeChar c ++ octets) (t ++ text)

/-- What may stand between quotes for a name. -/
def NameText (name : String) (text : List UInt8) : Prop := OctetsText (Utf8.ofString name) text

theorem nameText_of_charsText {name : String} (h : CharsText name.toList text) :
    NameText name text := by
  rw [NameText, Utf8.ofString]
  generalize name.toList = cs at h
  induction h with
  | nil => exact .nil
  | cons h _ ih => exact .char h ih

variable {octets done : List UInt8}

theorem stringOctets_octetsText (h : OctetsText octets text) (done rest : List UInt8) :
    stringOctets done (text ++ quote :: rest) = .ok (octets.reverse ++ done, rest) := by
  induction h generalizing done with
  | nil => rw [List.nil_append, stringOctets, if_pos rfl, List.reverse_nil, List.nil_append]
  | @plain b octets text h _ ih =>
    have hb : stringOctets done ([b] ++ (text ++ quote :: rest)) = _ :=
      stringOctets_plain (by simpa using h) done _
    rw [List.reverse_cons, List.append_assoc]
    exact hb.trans (ih _)
  | char h _ ih =>
    rw [List.append_assoc, stringOctets_charText h, ih, List.reverse_append, List.append_assoc]

theorem string_nameText {name : String} (h : NameText name text) (rest : List UInt8) :
    string (text ++ quote :: rest) = .ok (name, rest) := by
  simp only [string, stringOctets_octetsText h, List.append_nil, List.reverse_reverse,
    Utf8.ofString, Utf8.decode_encode, String.ofList_toList]

theorem hexValue_lt {b : UInt8} {k : Nat} (h : hexValue? b = some k) : k < 16 := by
  unfold hexValue? at h
  simp only [UInt8.le_iff_toNat_le] at h
  split at h
  · next hb =>
    have h30 : (0x39 : UInt8).toNat = 0x39 := rfl
    cases h
    omega
  split at h
  · next hb =>
    have h66 : (0x66 : UInt8).toNat = 0x66 := rfl
    cases h
    omega
  split at h
  · next hb =>
    have h46 : (0x46 : UInt8).toNat = 0x46 := rfl
    cases h
    omega
  · cases h

theorem UnitText.lt {k : Nat} (h : UnitText k text) : k < 0x10000 := by
  cases h with
  | digits ha hb hc hd =>
    have := hexValue_lt ha
    have := hexValue_lt hb
    have := hexValue_lt hc
    have := hexValue_lt hd
    omega

theorem exists_trailingUnit {k : Nat} (h : trailingSurrogate text = .ok (k, rest)) :
    ∃ unit, UnitText k unit ∧ isTrailingSurrogate k = true ∧
      text = backslash :: 0x75 :: (unit ++ rest) := by
  unfold trailingSurrogate at h
  split at h
  · cases h
  next b after =>
  split at h
  · cases h
  next hb =>
  split at h
  · cases h
  next u tail =>
  split at h
  · cases h
  next hu =>
  obtain rfl := Decidable.not_not.mp hb
  obtain rfl := Decidable.not_not.mp hu
  cases hunit : hexUnit tail with
  | error f => simp [hunit, bind, Except.bind] at h
  | ok p =>
    obtain ⟨m, more⟩ := p
    obtain ⟨unit, ht, htail⟩ := exists_unitText hunit
    simp only [hunit, bind, Except.bind] at h
    split at h
    · next hk =>
      obtain ⟨rfl, rfl⟩ := Prod.mk.inj (Except.ok.inj h)
      exact ⟨unit, ht, hk, by rw [htail]⟩
    · cases h

theorem exists_charText {c : Char} (h : escape text = .ok (c, rest)) :
    ∃ t, CharText c (backslash :: t) ∧ text = t ++ rest := by
  unfold escape at h
  split at h
  · cases h
  next b after =>
  split at h
  · next hb =>
    split at h
    · cases h
    next k tail hunit =>
    obtain ⟨high, hhigh, rfl⟩ := exists_unitText hunit
    have hk := hhigh.lt
    split at h
    · cases h
    next htrailing =>
    simp only [isTrailingSurrogate, Bool.and_eq_true, decide_eq_true_eq] at htrailing
    split at h
    · next hleading =>
      simp only [isLeadingSurrogate, Bool.and_eq_true, decide_eq_true_eq] at hleading
      split at h
      · cases h
      next m tail' hsecond =>
      obtain ⟨low, hlow, hm, rfl⟩ := exists_trailingUnit hsecond
      simp only [isTrailingSurrogate, Bool.and_eq_true, decide_eq_true_eq] at hm
      obtain ⟨rfl, rfl⟩ := Prod.mk.inj (Except.ok.inj h)
      generalize hv : 0x10000 + (k - 0xD800) * 0x400 + (m - 0xDC00) = v at h ⊢
      have hvalue : (Char.ofNat v).toNat = v := Utf8.toNat_ofNat_of_valid (.inr (by omega))
      refine ⟨0x75 :: (high ++ backslash :: 0x75 :: low), .pair (by omega) ?_ ?_, by simp [hb]⟩
      · rwa [hvalue, show 0xD800 + (v - 0x10000) / 0x400 = k by omega]
      · rwa [hvalue, show 0xDC00 + (v - 0x10000) % 0x400 = m by omega]
    · next hleading =>
      simp only [isLeadingSurrogate, Bool.and_eq_true, decide_eq_true_eq] at hleading
      obtain ⟨rfl, rfl⟩ := Prod.mk.inj (Except.ok.inj h)
      have hvalid : k < 0xD800 ∨ 0xDFFF < k ∧ k < 0x110000 := by omega
      have hvalue : (Char.ofNat k).toNat = k := Utf8.toNat_ofNat_of_valid hvalid
      exact ⟨0x75 :: high, .unit (by rwa [hvalue]), by simp [hb]⟩
  · split at h
    · next hsome =>
      obtain ⟨rfl, rfl⟩ := Prod.mk.inj (Except.ok.inj h)
      exact ⟨[b], .short (mem_shortEscapes hsome), rfl⟩
    · cases h

theorem exists_octetsText (h : stringOctets done text = .ok (octets, rest)) :
    ∃ more t, OctetsText more t ∧ octets = more.reverse ++ done ∧ text = t ++ quote :: rest := by
  fun_induction stringOctets done text with
  | case2 done rest' =>
    obtain ⟨rfl, rfl⟩ := Prod.mk.inj (Except.ok.inj h)
    exact ⟨[], [], .nil, rfl, rfl⟩
  | case4 done tail c after hescape _ ih =>
    obtain ⟨more, t, ht, rfl, rfl⟩ := ih h
    obtain ⟨e, he, rfl⟩ := exists_charText hescape
    refine ⟨_, _, .char he ht, ?_, ?_⟩ <;> simp
  | case6 done b tail hquote hbackslash hcontrol ih =>
    obtain ⟨more, t, ht, rfl, rfl⟩ := ih h
    refine ⟨_, _, .plain ⟨hquote, hbackslash, hcontrol⟩ ht, ?_, ?_⟩ <;> simp
  | _ => cases h

/-- A string that is read stands in the grammar for what it was read as. -/
theorem exists_nameText {name : String} (h : string text = .ok (name, rest)) :
    ∃ t, NameText name t ∧ text = t ++ quote :: rest := by
  unfold string at h
  split at h
  · cases h
  next octets rest' hoctets =>
  obtain ⟨more, t, ht, rfl, htext⟩ := exists_octetsText hoctets
  split at h
  · next cs hdecode =>
    obtain ⟨rfl, rfl⟩ := Prod.mk.inj (Except.ok.inj h)
    rw [List.append_nil, List.reverse_reverse, Utf8.decode_eq_ok_iff] at hdecode
    refine ⟨t, ?_, htext⟩
    rwa [NameText, Utf8.ofString, String.toList_ofList, ← hdecode]
  · cases h

-- ---------------------------------------------------------------------------
-- Names and items in a container
-- ---------------------------------------------------------------------------

variable {name : String}

theorem lookup_of_not_mem {α : Type} {l : List (String × α)} (h : name ∉ l.map Prod.fst) :
    l.lookup name = none := by
  rw [List.lookup_eq_none_iff]
  intro m hm
  have hne : name ≠ m.1 := fun heq => h (List.mem_map.mpr ⟨m, hm, heq.symm⟩)
  simpa using hne

theorem blank_nil : Blank [] := nofun

theorem blank_append {blank : List UInt8} (h : Blank text) (hb : Blank blank) :
    Blank (text ++ blank) := List.forall_mem_append.mpr ⟨h, hb⟩

theorem nextKey_blank {blank : List UInt8} (hb : Blank blank) (rest : List UInt8) :
    nextKey (blank ++ rest) = nextKey rest := by
  simp only [nextKey, skipSpace_blank hb]

theorem memberColon_blank {blank : List UInt8} (hb : Blank blank) (rest : List UInt8) :
    memberColon (blank ++ colon :: rest) = .ok rest := by
  have hcolon : skipSpace (blank ++ colon :: rest) = colon :: rest :=
    skipSpace_mark hb (by decide) rest
  simp only [memberColon, hcolon, if_true]

theorem nextKey_comma {before key : List UInt8} (hb : Blank before) (hk : NameText name key)
    (rest : List UInt8) :
    nextKey (comma :: (before ++ quote :: (key ++ quote :: rest))) = .ok (some name, rest) := by
  have hcomma (tail : List UInt8) : skipSpace (comma :: tail) = comma :: tail := rfl
  have hne : (comma : UInt8) ≠ closeBrace := by decide
  have hne' : (quote : UInt8) ≠ closeBrace := by decide
  simp only [nextKey, hcomma, if_neg hne, ne_eq, not_true_eq_false, if_false,
    skipSpace_mark hb (b := quote) (by decide), if_neg hne', memberKey, if_true, string_nameText hk]
  rfl

theorem firstKey_quote {before key : List UInt8} (hb : Blank before) (hk : NameText name key)
    (rest : List UInt8) :
    firstKey (before ++ quote :: (key ++ quote :: rest)) = .ok (some name, rest) := by
  have hne : (quote : UInt8) ≠ closeBrace := by decide
  simp only [firstKey, skipSpace_mark hb (b := quote) (by decide), if_neg hne, memberKey, if_true,
    string_nameText hk]
  rfl

theorem firstKey_close {blank : List UInt8} (hb : Blank blank) (rest : List UInt8) :
    firstKey (blank ++ closeBrace :: rest) = .ok (none, rest) := by
  have hclose : skipSpace (blank ++ closeBrace :: rest) = closeBrace :: rest :=
    skipSpace_mark hb (by decide) rest
  simp only [firstKey, hclose, if_true]

theorem exists_memberKey {cause : Cause} (h : memberKey cause text = .ok (name, rest)) :
    ∃ key, NameText name key ∧ text = quote :: (key ++ quote :: rest) := by
  unfold memberKey at h
  split at h
  · cases h
  split at h
  · next b _ hb =>
    obtain ⟨key, hk, rfl⟩ := exists_nameText h
    exact ⟨key, hk, by rw [hb]⟩
  · cases h

theorem exists_memberColon (h : memberColon text = .ok rest) :
    ∃ between, Blank between ∧ text = between ++ colon :: rest := by
  unfold memberColon at h
  split at h
  · cases h
  next b after hcolon =>
  obtain ⟨between, hb, htext⟩ := exists_blank hcolon
  split at h
  · next hc => exact ⟨between, hb, by rw [htext, hc, Except.ok.inj h]⟩
  · cases h

/-- Where a key may come, none means that the object ends. -/
theorem exists_nextKey {key : Option String} (h : nextKey text = .ok (key, rest)) :
    ∃ blank, Blank blank ∧ ((key = none ∧ text = blank ++ closeBrace :: rest) ∨
      ∃ name before t, key = some name ∧ Blank before ∧ NameText name t ∧
        text = blank ++ comma :: (before ++ quote :: (t ++ quote :: rest))) := by
  unfold nextKey at h
  split at h
  · cases h
  next b after hnext =>
  obtain ⟨blank, hb, htext⟩ := exists_blank hnext
  refine ⟨blank, hb, ?_⟩
  split at h
  · next hclose =>
    obtain ⟨rfl, rfl⟩ := Prod.mk.inj (Except.ok.inj h)
    exact .inl ⟨rfl, by rw [htext, hclose]⟩
  split at h
  · cases h
  next hcomma =>
  split at h
  · cases h
  next c tail hspace =>
  obtain ⟨before, hbefore, rfl⟩ := exists_blank hspace
  split at h
  · cases h
  · cases hkey : memberKey .endOfValue (c :: tail) with
    | error f => simp [hkey, Except.map] at h
    | ok p =>
      obtain ⟨name, more⟩ := p
      obtain ⟨t, ht, hcons⟩ := exists_memberKey hkey
      simp only [hkey, Except.map, Except.ok.injEq, Prod.mk.injEq] at h
      obtain ⟨rfl, rfl⟩ := h
      refine .inr ⟨name, before, t, rfl, hbefore, ht, ?_⟩
      rw [htext, Decidable.not_not.mp hcomma, hcons]

theorem exists_firstKey {key : Option String} (h : firstKey text = .ok (key, rest)) :
    ∃ blank, Blank blank ∧ ((key = none ∧ text = blank ++ closeBrace :: rest) ∨
      ∃ name t, key = some name ∧ NameText name t ∧
        text = blank ++ quote :: (t ++ quote :: rest)) := by
  unfold firstKey at h
  split at h
  · cases h
  next b after hfirst =>
  obtain ⟨blank, hb, htext⟩ := exists_blank hfirst
  refine ⟨blank, hb, ?_⟩
  split at h
  · next hclose =>
    obtain ⟨rfl, rfl⟩ := Prod.mk.inj (Except.ok.inj h)
    exact .inl ⟨rfl, by rw [htext, hclose]⟩
  · cases hkey : memberKey .endOfObject (b :: after) with
    | error f => simp [hkey, Except.map] at h
    | ok p =>
      obtain ⟨name, more⟩ := p
      obtain ⟨t, ht, hcons⟩ := exists_memberKey hkey
      simp only [hkey, Except.map, Except.ok.injEq, Prod.mk.injEq] at h
      obtain ⟨rfl, rfl⟩ := h
      exact .inr ⟨name, t, rfl, ht, by rw [htext, hcons]⟩

theorem nextItem_part {blank : List UInt8} {p : Part} (hb : Blank blank) (h : TextOf p text)
    (rest : List UInt8) :
    nextItem (blank ++ comma :: (text ++ rest)) = .ok (true, skipSpace (text ++ rest)) := by
  have hcomma (more : List UInt8) : skipSpace (blank ++ comma :: more) = comma :: more :=
    skipSpace_mark hb (by decide) more
  have hne : (comma : UInt8) ≠ closeBracket := by decide
  obtain ⟨b, tail, hb, -, hskip⟩ := h.opens
  simp only [nextItem, hcomma, if_neg hne, ne_eq, not_true_eq_false, if_false, hskip, if_neg hb]

theorem exists_lastItem (h : nextItem text = .ok (false, rest)) :
    ∃ blank, Blank blank ∧ text = blank ++ closeBracket :: rest := by
  unfold nextItem at h
  split at h
  · cases h
  next b after hnext =>
  obtain ⟨blank, hb, htext⟩ := exists_blank hnext
  split at h
  · next hclose =>
    cases h
    exact ⟨blank, hb, by rw [htext, hclose]⟩
  split at h
  · cases h
  split at h
  · cases h
  split at h <;> cases h

theorem exists_nextItem (h : nextItem text = .ok (true, rest)) :
    ∃ blank before, Blank blank ∧ Blank before ∧ text = blank ++ comma :: (before ++ rest) := by
  unfold nextItem at h
  split at h
  · cases h
  next b after hnext =>
  obtain ⟨blank, hb, htext⟩ := exists_blank hnext
  split at h
  · cases h
  split at h
  · cases h
  next hcomma =>
  split at h
  · cases h
  next c tail hspace =>
  obtain ⟨before, hbefore, rfl⟩ := exists_blank hspace
  split at h
  · cases h
  · cases h
    exact ⟨blank, before, hb, hbefore, by rw [htext, Decidable.not_not.mp hcomma]⟩

-- ---------------------------------------------------------------------------
-- Whole texts
-- ---------------------------------------------------------------------------

theorem finish_eq_ok {α : Type} {a b : α} : finish (a, rest) = .ok b ↔ a = b ∧ Blank rest := by
  have hblank : Blank rest ↔ skipSpace rest = [] := List.dropWhile_eq_nil_iff.symm
  rw [hblank, finish]
  cases skipSpace rest with
  | nil => simp
  | cons c more => simp [failOn]

theorem mapError_eq_ok {α ε ε' : Type} {r : Except ε α} {f : ε → ε'} {a : α} :
    r.mapError f = .ok a ↔ r = .ok a := by
  cases r with
  | error e => exact ⟨nofun, nofun⟩
  | ok b => exact ⟨fun h => congrArg _ (Except.ok.inj h), fun h => congrArg _ (Except.ok.inj h)⟩

theorem bind_finish_eq_ok {α : Type} {r : Except Failure (α × List UInt8)} {a : α} :
    r.bind finish = .ok a ↔ ∃ rest, r = .ok (a, rest) ∧ Blank rest := by
  cases r with
  | error e => exact ⟨nofun, fun ⟨_, h, _⟩ => by cases h⟩
  | ok p =>
    obtain ⟨b, rest⟩ := p
    refine finish_eq_ok.trans ⟨?_, ?_⟩
    · rintro ⟨rfl, hr⟩
      exact ⟨rest, rfl, hr⟩
    · rintro ⟨rest', h, hr⟩
      cases h
      exact ⟨rfl, hr⟩

end RadioGateway.Json
