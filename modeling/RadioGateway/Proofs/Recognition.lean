import RadioGateway.Proofs.Skipping

/-!
# Only values are passed over

The converse of passing over any value: whatever a reader takes off the front of a text is in the
grammar. Each scanner is a production of the grammar; the loop is not, as it holds open containers
that are closed later. What these still demand of the text is written down by recursion over them.
-/

namespace RadioGateway.Json

open RadioGateway.Text

variable {text rest more : List UInt8}

-- ---------------------------------------------------------------------------
-- White space and words
-- ---------------------------------------------------------------------------

theorem exists_blank (h : skipSpace text = more) : ∃ blank, Blank blank ∧ text = blank ++ more := by
  refine ⟨text.takeWhile isSpace, fun b hb => List.mem_takeWhile_imp hb, ?_⟩
  rw [← h]
  exact List.takeWhile_append_dropWhile.symm

theorem eq_append_of_word {w : List UInt8} (h : word w text = .ok rest) : text = w ++ rest := by
  induction w generalizing text with
  | nil => exact Except.ok.inj h
  | cons a w ih =>
    cases text with
    | nil => cases h
    | cons b text =>
      unfold word at h
      split at h
      · next hb => rw [hb, ih h, List.cons_append]
      · cases h

-- ---------------------------------------------------------------------------
-- Strings
-- ---------------------------------------------------------------------------

theorem exists_unitText {n : Nat} (h : hexUnit text = .ok (n, rest)) :
    ∃ unit, UnitText n unit ∧ text = unit ++ rest := by
  unfold hexUnit at h
  split at h
  · next a b c d rest' =>
    split at h
    · next ha hb hc hd =>
      obtain ⟨rfl, rfl⟩ := Prod.mk.inj (Except.ok.inj h)
      exact ⟨[a, b, c, d], .digits ha hb hc hd, rfl⟩
    · cases h
  · cases h

theorem mem_shortEscapes {b : UInt8} {c : Char} (h : simpleEscape b = some c) :
    (c, b) ∈ shortEscapes := by
  unfold simpleEscape at h
  repeat' split at h
  all_goals first
  | cases h
    subst b
    decide
  | cases h

/-- What is passed over as a string is one. -/
theorem exists_stringText (h : skipString text = .ok rest) :
    ∃ t, StringText t ∧ text = t ++ quote :: rest := by
  fun_induction skipString text with
  | case2 rest' =>
    cases h
    exact ⟨[], .nil, rfl⟩
  | case5 _ _ _ hu _ ih =>
    obtain ⟨t, ht, rfl⟩ := ih h
    obtain ⟨unit, hunit, rfl⟩ := exists_unitText hu
    refine ⟨backslash :: 0x75 :: (unit ++ t), .unit hunit ht, ?_⟩
    simp
  | case6 e _ _ hsome _ ih =>
    obtain ⟨t, ht, rfl⟩ := ih h
    obtain ⟨c, hc⟩ := Option.isSome_iff_exists.mp hsome
    exact ⟨backslash :: e :: t, .short (mem_shortEscapes hc) ht, rfl⟩
  | case9 b _ hquote hbackslash hcontrol ih =>
    obtain ⟨t, ht, rfl⟩ := ih h
    exact ⟨b :: t, .plain ⟨hquote, hbackslash, hcontrol⟩ ht, rfl⟩
  | _ => cases h

-- ---------------------------------------------------------------------------
-- Numbers
-- ---------------------------------------------------------------------------

theorem spanDigits_eq {digits : List UInt8} (h : spanDigits text = (digits, rest)) :
    text = digits ++ rest ∧ ∀ b ∈ digits, isDigit b = true := by
  obtain ⟨rfl, rfl⟩ := Prod.mk.inj h
  exact ⟨List.takeWhile_append_dropWhile.symm, fun b hb => List.mem_takeWhile_imp hb⟩

/-- Digits are taken, and the first of them was seen before. -/
theorem spanDigits_cons {b : UInt8} (text : List UInt8) (hb : isDigit b = true) : ∃ digits,
    Digits (b :: digits) ∧ spanDigits (b :: text) = (b :: digits, (spanDigits text).2) ∧
      text = digits ++ (spanDigits text).2 := by
  obtain ⟨htext, hdigits⟩ := spanDigits_eq (show spanDigits text = _ from rfl)
  refine ⟨text.takeWhile isDigit, ⟨?_, List.cons_ne_nil _ _⟩, ?_, htext⟩
  · exact List.forall_mem_cons.mpr ⟨hb, hdigits⟩
  · simp only [spanDigits, List.takeWhile_cons_of_pos hb, List.dropWhile_cons_of_pos hb]

/-- Digits before the point: a zero in front is the only one. -/
structure WholeText (text : List UInt8) : Prop extends Digits text where
  zero : text.head? = some 0x30 → text = [0x30]

/-- As `spanDigits_cons`, where a zero in front has been looked for. -/
theorem exists_wholeText {b : UInt8} (hb : isDigit b = true)
    (hz : ¬(b = 0x30 ∧ text.head?.any isDigit = true)) : ∃ digits,
    WholeText (b :: digits) ∧ spanDigits (b :: text) = (b :: digits, (spanDigits text).2) ∧
      text = digits ++ (spanDigits text).2 := by
  obtain ⟨digits, hdigits, hspan, htext⟩ := spanDigits_cons text hb
  refine ⟨digits, ⟨hdigits, fun hhead => ?_⟩, hspan, htext⟩
  obtain rfl := Option.some.inj hhead
  cases digits with
  | nil => rfl
  | cons c more =>
    refine absurd ⟨rfl, ?_⟩ hz
    rw [htext]
    exact hdigits.digits c (by simp)

/-- The sign of an exponent, which says whether the power goes down. -/
theorem exists_sign (text : List UInt8) : ∃ sign ∈ [[], [plus], [minus]],
    text = sign ++ (exponentSign text).2 ∧ ((exponentSign text).1 = true ↔ sign = [minus]) := by
  unfold exponentSign
  split
  · exact ⟨[], by decide, rfl, by decide⟩
  · split
    · next h =>
      subst h
      exact ⟨[plus], by decide, rfl, by simp [plus, minus]⟩
    · split
      · next h =>
        subst h
        exact ⟨[minus], by decide, rfl, by simp⟩
      · exact ⟨[], by decide, rfl, by simp⟩

theorem exists_powerText (h : skipPower text = .ok rest) :
    ∃ power, PowerText power ∧ text = power ++ rest := by
  unfold skipPower at h
  split at h
  · exact ⟨[], .none, (Except.ok.inj h)⟩
  · next mark after =>
    split at h
    · next hmark =>
      obtain ⟨sign, hsign, htext, -⟩ := exists_sign after
      unfold skipExponent at h
      split at h
      · cases h
      · next b tail htail =>
        split at h
        · next hb =>
          obtain ⟨digits, hdigits, -, hspan⟩ := spanDigits_cons tail hb
          refine ⟨mark :: (sign ++ b :: digits), .some hmark hsign hdigits, ?_⟩
          rw [← Except.ok.inj h, htext, htail]
          simp only [List.cons_append, List.append_assoc, ← hspan]
        · cases h
    · exact ⟨[], .none, Except.ok.inj h⟩

/-- What is passed over as a number is one, but for its sign. -/
theorem exists_numberText (h : skipNumber text = .ok rest) : ∃ t, text = t ++ rest ∧
    ∀ sign ∈ [[], [minus]], NumberText (sign ++ t) := by
  unfold skipNumber at h
  split at h
  · cases h
  next b after =>
  split at h
  · cases h
  next hb =>
  split at h
  · cases h
  next hzero =>
  obtain ⟨digits, hwhole, -, htext⟩ := exists_wholeText (by simpa using hb) hzero
  -- what is left behind the whole part is a fraction and a power
  have hnumber {fraction power : List UInt8} (hf : FractionText fraction) (hp : PowerText power)
      (hrest : (spanDigits after).2 = fraction ++ (power ++ rest)) :
      ∃ t, b :: after = t ++ rest ∧ ∀ sign ∈ [[], [minus]], NumberText (sign ++ t) := by
    refine ⟨b :: digits ++ (fraction ++ power), ?_,
      fun sign hs => .of hs hwhole.toDigits hwhole.zero hf hp⟩
    rw [htext, hrest]
    simp
  split at h
  · next hnil => exact hnumber .none .none (by rw [hnil, ← Except.ok.inj h]; rfl)
  · next c tail hcons =>
    split at h
    · next hpoint =>
      subst hpoint
      split at h
      · cases h
      · next ds more hne hspan =>
        obtain ⟨htail, hds⟩ := spanDigits_eq hspan
        obtain ⟨power, hpower, hmore⟩ := exists_powerText h
        have hdigits' : Digits ds := ⟨hds, hne⟩
        refine hnumber (.some hdigits') hpower ?_
        rw [hcons, htail, hmore]
        simp
    · obtain ⟨power, hpower, hmore⟩ := exists_powerText h
      exact hnumber .none hpower (by rw [hcons, hmore]; rfl)

-- ---------------------------------------------------------------------------
-- Values
-- ---------------------------------------------------------------------------

/-- A value with white space before it. -/
inductive Led : List UInt8 → Prop
  | of {before text : List UInt8} (hb : Blank before) (h : TextOf .value text) :
      Led (before ++ text)

/-- The key of a member up to its colon. -/
inductive KeyText : List UInt8 → Prop
  | of {before name between : List UInt8} (hb : Blank before) (hn : StringText name)
      (hc : Blank between) :
      KeyText (before ++ quote :: (name ++ quote :: (between ++ [colon])))

theorem exists_keyText (h : skipKey text = .ok rest) : ∃ key, KeyText key ∧ text = key ++ rest := by
  unfold skipKey at h
  split at h
  · cases h
  next b after hquote =>
  split at h
  · cases h
  next hb =>
  split at h
  · cases h
  next tail hname =>
  split at h
  · cases h
  next c after' hcolon =>
  split at h
  · next hc =>
    obtain ⟨before, hbefore, rfl⟩ := exists_blank hquote
    obtain ⟨name, htext, rfl⟩ := exists_stringText hname
    obtain ⟨between, hbetween, rfl⟩ := exists_blank hcolon
    obtain rfl := Decidable.not_not.mp hb
    subst hc
    cases h
    refine ⟨_, .of hbefore htext hbetween, ?_⟩
    simp
  · cases h

theorem Led.blank {blank : List UInt8} (hb : Blank blank) (h : Led text) : Led (blank ++ text) := by
  cases h with
  | @of before text hbefore h =>
    rw [← List.append_assoc]
    exact .of (fun b hmem => (List.mem_append.mp hmem).elim (hb b) (hbefore b)) h

theorem Led.item {blank : List UInt8} (h : Led text) (hb : Blank blank) :
    TextOf .item (text ++ blank) := by
  cases h with
  | of hbefore h =>
    rw [List.append_assoc]
    exact .item hbefore h hb

theorem KeyText.member {item : List UInt8} (h : KeyText text) (hi : TextOf .item item) :
    TextOf .member (text ++ item) := by
  cases h with
  | of hb hn hc =>
    have hmember := TextOf.member hb hn hc hi
    simpa using hmember

/-- What stands between a value and the end of the container around it. -/
inductive After : Bracket → List UInt8 → Prop
  | nothing {bracket : Bracket} {blank : List UInt8} (hb : Blank blank) : After bracket blank
  | items {blank value tail : List UInt8} (hb : Blank blank) (h : Led value)
      (ht : After .array tail) : After .array (blank ++ comma :: (value ++ tail))
  | members {blank key value tail : List UInt8} (hb : Blank blank) (hk : KeyText key)
      (h : Led value) (ht : After .object tail) :
      After .object (blank ++ comma :: (key ++ (value ++ tail)))

theorem After.items_of_led {value tail : List UInt8} (h : After .array tail) (hv : Led value) :
    TextOf .items (value ++ tail) := by
  generalize hbracket : Bracket.array = bracket at h
  induction h generalizing value with
  | nothing hb => exact .lastItem (hv.item hb)
  | items hb h _ ih =>
    have hitems := TextOf.items (hv.item hb) (ih h hbracket)
    simpa using hitems
  | members => cases hbracket

theorem After.members_of_led {key value tail : List UInt8} (h : After .object tail)
    (hk : KeyText key) (hv : Led value) : TextOf .members (key ++ (value ++ tail)) := by
  generalize hbracket : Bracket.object = bracket at h
  induction h generalizing key value with
  | nothing hb => exact .lastMember (hk.member (hv.item hb))
  | items => cases hbracket
  | members hb hk' h _ ih =>
    have hmembers := TextOf.members (hk.member (hv.item hb)) (ih hk' h hbracket)
    simpa using hmembers

def Bracket.closing : Bracket → UInt8
  | .array => closeBracket
  | .object => closeBrace

/-- What is passed over in a round that looks for a value: a whole value, or the opening of a
container up to its first value. -/
inductive Started : Option Bracket → List UInt8 → Prop
  | whole {value : List UInt8} (h : Led value) : Started none value
  | array {before blank : List UInt8} (hb : Blank before) (hc : Blank blank) :
      Started (some .array) (before ++ openBracket :: blank)
  | object {before key : List UInt8} (hb : Blank before) (hk : KeyText key) :
      Started (some .object) (before ++ openBrace :: key)

/-- What is passed over behind a value: the end of the container, or what leads to the next
value. -/
inductive Continued : Bracket → Bool → List UInt8 → Prop
  | close {bracket : Bracket} {blank : List UInt8} (hb : Blank blank) :
      Continued bracket false (blank ++ [bracket.closing])
  | item {blank : List UInt8} (hb : Blank blank) : Continued .array true (blank ++ [comma])
  | member {blank key : List UInt8} (hb : Blank blank) (hk : KeyText key) :
      Continued .object true (blank ++ comma :: key)

theorem exists_started {bracket : Option Bracket} (h : skipStart text = .ok (bracket, rest)) :
    ∃ t, Started bracket t ∧ text = t ++ rest := by
  unfold skipStart at h
  split at h
  · cases h
  next b after hstart =>
  obtain ⟨before, hbefore, htext⟩ := exists_blank hstart
  have hvalue {t rest : List UInt8} (ht : TextOf .value t) (hcons : b :: after = t ++ rest) :
      ∃ value, Started none value ∧ text = value ++ rest :=
    ⟨before ++ t, .whole (.of hbefore ht), by rw [htext, hcons, List.append_assoc]⟩
  split at h
  · next hopen =>
    subst hopen
    split at h
    · cases h
    next c tail hblank =>
    obtain ⟨blank, hb, rfl⟩ := exists_blank hblank
    split at h
    · next hclose =>
      subst hclose
      cases h
      exact hvalue (.emptyArray hb) (by simp)
    · cases h
      exact ⟨_, .array hbefore hb, by rw [htext]; simp⟩
  split at h
  · next hopen =>
    subst hopen
    split at h
    · cases h
    next c tail hblank =>
    split at h
    · next hclose =>
      obtain ⟨blank, hb, rfl⟩ := exists_blank hblank
      subst hclose
      cases h
      exact hvalue (.emptyObject hb) (by simp)
    · cases hk : skipKey (c :: tail) with
      | error f => simp [hk, Except.map] at h
      | ok more =>
        simp only [hk, Except.map, Except.ok.injEq, Prod.mk.injEq] at h
        obtain ⟨rfl, rfl⟩ := h
        have hafter : skipKey after = .ok more := by
          rw [← hk, ← hblank]
          simp only [skipKey, skipSpace_skipSpace]
        obtain ⟨key, hkey, rfl⟩ := exists_keyText hafter
        exact ⟨_, .object hbefore hkey, by rw [htext]; simp⟩
  -- what is left has no parts
  generalize hread : ite (b = quote) (skipString after) _ = read at h
  cases read with
  | error f => simp [Except.map] at h
  | ok more =>
    simp only [Except.map, Except.ok.injEq, Prod.mk.injEq] at h
    obtain ⟨rfl, rfl⟩ := h
    split at hread
    · next hb =>
      obtain ⟨t, ht, rfl⟩ := exists_stringText hread
      exact hvalue (.string ht) (by simp [hb])
    split at hread
    · next hb =>
      obtain ⟨t, rfl, ht⟩ := exists_numberText hread
      exact hvalue (.number (ht [minus] (by decide))) (by simp [hb])
    split at hread
    · obtain ⟨t, hcons, ht⟩ := exists_numberText hread
      exact hvalue (.number (ht [] (by decide))) hcons
    split at hread
    · next hb => exact hvalue .null (by rw [hb, eq_append_of_word hread]; rfl)
    split at hread
    · next hb => exact hvalue .true (by rw [hb, eq_append_of_word hread]; rfl)
    split at hread
    · next hb => exact hvalue .false (by rw [hb, eq_append_of_word hread]; rfl)
    · cases hread

theorem exists_continued {bracket : Bracket} {more : Bool}
    (h : skipNext bracket text = .ok (more, rest)) :
    ∃ t, Continued bracket more t ∧ text = t ++ rest := by
  unfold skipNext at h
  split at h
  · cases h
  next b after hnext =>
  obtain ⟨blank, hb, htext⟩ := exists_blank hnext
  cases bracket with
  | array =>
    simp only at h
    split at h
    · next hc =>
      cases h
      exact ⟨_, .item hb, by rw [htext, hc]; simp⟩
    · split at h
      · next hc =>
        cases h
        exact ⟨_, .close hb, by rw [htext, hc]; simp [Bracket.closing]⟩
      · cases h
  | object =>
    simp only at h
    split at h
    · next hc =>
      cases hk : skipKey after with
      | error f => simp [hk, Except.map] at h
      | ok tail =>
        simp only [hk, Except.map, Except.ok.injEq, Prod.mk.injEq] at h
        obtain ⟨rfl, rfl⟩ := h
        obtain ⟨key, hkey, rfl⟩ := exists_keyText hk
        exact ⟨_, .member hb hkey, by rw [htext, hc]; simp⟩
    · split at h
      · next hc =>
        cases h
        exact ⟨_, .close hb, by rw [htext, hc]; simp [Bracket.closing]⟩
      · cases h

-- ---------------------------------------------------------------------------
-- Rounds
-- ---------------------------------------------------------------------------

/-- What the open containers demand of a text, behind a value, before `rest`. -/
def Demands : List Bracket → List UInt8 → List UInt8 → Prop
  | [], text, rest => text = rest
  | bracket :: outer, text, rest =>
    ∃ tail more, After bracket tail ∧ text = tail ++ bracket.closing :: more ∧
      Demands outer more rest

/-- What they demand with a value yet to come, or behind one. -/
def Passed (stack : List Bracket) (found : Bool) (text rest : List UInt8) : Prop :=
  match found with
  | true => Demands stack text rest
  | false => ∃ value more, Led value ∧ text = value ++ more ∧ Demands stack more rest

variable {bracket : Bracket} {stack outer : List Bracket}

theorem passed_open (hstart : skipStart text = .ok (some bracket, more))
    (h : Passed (bracket :: stack) false more rest) : Passed stack false text rest := by
  obtain ⟨value, _, hv, rfl, tail, outside, ha, rfl, hd⟩ := h
  obtain ⟨t, ht, rfl⟩ := exists_started hstart
  cases ht with
  | array hb hc =>
    refine ⟨_, outside, .of hb (.array (ha.items_of_led (hv.blank hc))), ?_, hd⟩
    simp [Bracket.closing]
  | object hb hk =>
    refine ⟨_, outside, .of hb (.object (ha.members_of_led hk hv)), ?_, hd⟩
    simp [Bracket.closing]

theorem passed_next (hnext : skipNext bracket text = .ok (true, more))
    (h : Passed (bracket :: outer) false more rest) : Passed (bracket :: outer) true text rest := by
  obtain ⟨value, _, hv, rfl, tail, outside, ha, rfl, hd⟩ := h
  obtain ⟨t, ht, rfl⟩ := exists_continued hnext
  cases ht with
  | item hb => exact ⟨_, outside, .items hb hv ha, by simp, hd⟩
  | member hb hk => exact ⟨_, outside, .members hb hk hv ha, by simp, hd⟩

/-- The induction is on the rounds: what comes later closes the containers that are open. -/
theorem passed_of_skipLoop {found : Bool} (h : skipLoop stack found text = .ok rest) :
    Passed stack found text rest := by
  fun_induction skipLoop stack found text with
  | case1 | case5 => cases h
  | case2 stack text more hstart ih =>
    obtain ⟨value, hv, rfl⟩ := exists_started hstart
    cases hv with
    | whole hv => exact ⟨value, more, hv, rfl, ih h⟩
  | case3 stack text bracket more hstart ih => exact passed_open hstart (ih h)
  | case4 text => exact Except.ok.inj h
  | case6 text bracket outer more hnext ih =>
    obtain ⟨t, ht, rfl⟩ := exists_continued hnext
    cases ht with
    | @close _ blank hb => exact ⟨blank, more, .nothing hb, by simp, ih h⟩
  | case7 text bracket outer more hnext ih => exact passed_next hnext (ih h)

/-- Only a value is passed over, with the white space before it. -/
theorem exists_value_of_skipValue (h : skipValue text = .ok rest) :
    ∃ value, Led value ∧ text = value ++ rest := by
  obtain ⟨value, _, hv, rfl, rfl⟩ := passed_of_skipLoop h
  exact ⟨value, hv, rfl⟩

end RadioGateway.Json
