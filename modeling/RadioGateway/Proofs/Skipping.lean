import RadioGateway.Json.Skip
import RadioGateway.Proofs.Reading

/-!
# Passing over any value

The grammar of JSON, and a proof that whatever value it allows is passed over, with nothing of what
follows. A value that is passed over need not be one that could be read: its numbers may be too
large, its strings no text, and it may be nested as deep as it likes.
-/

namespace RadioGateway.Json

open RadioGateway.Text

variable {text rest after : List UInt8}

-- ---------------------------------------------------------------------------
-- The grammar
-- ---------------------------------------------------------------------------

/-- What stands between the quotes of a string: octets that stand for themselves, and escapes. Half
a pair of surrogates may stand alone. -/
inductive StringText : List UInt8 → Prop
  | nil : StringText []
  | plain {b : UInt8} {text : List UInt8} (h : Plain b) (hs : StringText text) :
      StringText (b :: text)
  | short {c : Char} {b : UInt8} {text : List UInt8} (h : (c, b) ∈ shortEscapes)
      (hs : StringText text) : StringText (backslash :: b :: text)
  | unit {n : Nat} {unit text : List UInt8} (h : UnitText n unit) (hs : StringText text) :
      StringText (backslash :: 0x75 :: (unit ++ text))

structure Digits (text : List UInt8) : Prop where
  digits : ∀ b ∈ text, isDigit b = true
  nonempty : text ≠ []

inductive FractionText : List UInt8 → Prop
  | none : FractionText []
  | some {digits : List UInt8} (h : Digits digits) : FractionText (point :: digits)

inductive PowerText : List UInt8 → Prop
  | none : PowerText []
  | some {mark : UInt8} {sign digits : List UInt8} (hm : isExponentMark mark = true)
      (hs : sign ∈ [[], [plus], [minus]]) (h : Digits digits) : PowerText (mark :: (sign ++ digits))

/-- A whole part has a zero in front only if it is zero. -/
inductive NumberText : List UInt8 → Prop
  | of {sign whole fraction power : List UInt8} (hs : sign ∈ [[], [minus]]) (hw : Digits whole)
      (hz : whole.head? = some 0x30 → whole = [0x30]) (hf : FractionText fraction)
      (hp : PowerText power) : NumberText (sign ++ (whole ++ (fraction ++ power)))

/-- An item is a value with white space around it; items and members have commas between them. -/
inductive Part where
  | value
  | item
  | items
  | member
  | members

inductive TextOf : Part → List UInt8 → Prop
  | null : TextOf .value (Utf8.ofString "null")
  | true : TextOf .value (Utf8.ofString "true")
  | false : TextOf .value (Utf8.ofString "false")
  | number {text : List UInt8} (h : NumberText text) : TextOf .value text
  | string {text : List UInt8} (h : StringText text) : TextOf .value (quote :: (text ++ [quote]))
  | emptyArray {blank : List UInt8} (hb : Blank blank) :
      TextOf .value (openBracket :: (blank ++ [closeBracket]))
  | array {text : List UInt8} (h : TextOf .items text) :
      TextOf .value (openBracket :: (text ++ [closeBracket]))
  | emptyObject {blank : List UInt8} (hb : Blank blank) :
      TextOf .value (openBrace :: (blank ++ [closeBrace]))
  | object {text : List UInt8} (h : TextOf .members text) :
      TextOf .value (openBrace :: (text ++ [closeBrace]))
  | item {before text after : List UInt8} (hb : Blank before) (h : TextOf .value text)
      (ha : Blank after) : TextOf .item (before ++ (text ++ after))
  | lastItem {text : List UInt8} (h : TextOf .item text) : TextOf .items text
  | items {text more : List UInt8} (h : TextOf .item text) (hs : TextOf .items more) :
      TextOf .items (text ++ comma :: more)
  | member {before name between text : List UInt8} (hb : Blank before) (hn : StringText name)
      (hc : Blank between) (h : TextOf .item text) :
      TextOf .member (before ++ quote :: (name ++ quote :: (between ++ colon :: text)))
  | lastMember {text : List UInt8} (h : TextOf .member text) : TextOf .members text
  | members {text more : List UInt8} (h : TextOf .member text) (hs : TextOf .members more) :
      TextOf .members (text ++ comma :: more)

-- ---------------------------------------------------------------------------
-- Strings and numbers
-- ---------------------------------------------------------------------------

theorem skipString_of_stringText (h : StringText text) (rest : List UInt8) :
    skipString (text ++ quote :: rest) = .ok rest := by
  have hquote : (backslash : UInt8) ≠ quote := by decide
  induction h with
  | nil =>
    rw [List.nil_append, skipString.eq_def]
    exact if_pos rfl
  | plain h _ ih =>
    obtain ⟨hplain, hbackslash, hcontrol⟩ := h
    rw [List.cons_append, skipString.eq_def]
    simp only [if_neg hplain, if_neg hbackslash, if_neg hcontrol, ih]
  | @short c b text h _ ih =>
    have hall : ∀ e ∈ shortEscapes, e.2 ≠ 0x75 ∧ (simpleEscape e.2).isSome = Bool.true := by decide
    obtain ⟨hu, hsome⟩ := hall (c, b) h
    rw [List.cons_append, List.cons_append, skipString.eq_def]
    simp only [if_neg hquote, if_true, if_neg hu, hsome, ih]
  | unit h _ ih =>
    have hunit := hexUnit_of_unitText h
    rw [List.cons_append, List.cons_append, List.append_assoc, skipString.eq_def]
    simp only [if_neg hquote, if_true]
    split
    · rename_i f hf
      cases (hunit _).symm.trans hf
    · rename_i n after hf
      obtain ⟨-, rfl⟩ := Prod.mk.inj (Except.ok.inj ((hunit _).symm.trans hf))
      exact ih

theorem Digits.exists_cons (h : Digits text) :
    ∃ b more, text = b :: more ∧ isDigit b = true ∧ ∀ c ∈ more, isDigit c = true := by
  obtain ⟨hdigits, hne⟩ := h
  cases text with
  | nil => exact absurd rfl hne
  | cons b more =>
    exact ⟨b, more, rfl, hdigits b List.mem_cons_self, fun c hc => hdigits c (.tail b hc)⟩

theorem exponentSign_append {sign : List UInt8} {b : UInt8} (hs : sign ∈ [[], [plus], [minus]])
    (hb : isDigit b = true) (text : List UInt8) :
    exponentSign (sign ++ b :: text) = (decide (sign = [minus]), b :: text) := by
  have hne {c : UInt8} (hc : isDigit c = false) : b ≠ c := by
    rintro rfl
    cases hb.symm.trans hc
  simp only [List.mem_cons, List.not_mem_nil, or_false] at hs
  obtain rfl | rfl | rfl := hs
  · simp only [List.nil_append, exponentSign, if_neg (hne (c := plus) rfl),
      if_neg (hne (c := minus) rfl)]
    rfl
  · rfl
  · rfl

theorem skipExponent_of_digits {sign digits : List UInt8} (hs : sign ∈ [[], [plus], [minus]])
    (h : Digits digits) (hr : ∀ b ∈ rest.head?, isDigit b = false) :
    skipExponent (sign ++ (digits ++ rest)) = .ok rest := by
  obtain ⟨b, more, rfl, hb, hmore⟩ := h.exists_cons
  rw [skipExponent, List.cons_append, exponentSign_append hs hb]
  simp only [hb, if_true, spanDigits_append hmore hr]

theorem skipPower_of_powerText (h : PowerText text) (hr : Stops rest) :
    skipPower (text ++ rest) = .ok rest := by
  cases h with
  | none =>
    cases rest with
    | nil => rfl
    | cons b rest =>
      simp only [List.nil_append, skipPower, (hr b rfl).2.2, Bool.false_eq_true, if_false]
  | some hm hs h =>
    rw [List.cons_append, List.append_assoc]
    simp only [skipPower, hm, if_true]
    exact skipExponent_of_digits hs h fun b hb => (hr b hb).1

theorem PowerText.head (h : PowerText text) (hr : Stops rest) :
    ∀ b ∈ (text ++ rest).head?, isDigit b = false ∧ b ≠ point := by
  cases h with
  | none => exact fun b hb => ⟨(hr b hb).1, (hr b hb).2.1⟩
  | some hm =>
    intro b hb
    obtain rfl := Option.some.inj hb
    simp only [isExponentMark, Bool.or_eq_true, beq_iff_eq] at hm
    obtain rfl | rfl := hm <;> decide

/-- What comes after the whole part of a number. -/
theorem skipFraction {fraction power : List UInt8} (hf : FractionText fraction)
    (hp : PowerText power) (hr : Stops rest) :
    (∀ b ∈ (fraction ++ (power ++ rest)).head?, isDigit b = false) ∧
    (match fraction ++ (power ++ rest) with
      | [] => Except.ok []
      | c :: rest =>
        if c = point then
          match spanDigits rest with
          | ([], rest) => failOn .badNumber rest
          | (_, rest) => skipPower rest
        else skipPower (c :: rest)) = .ok rest := by
  have hhead := hp.head hr
  have hskip := skipPower_of_powerText hp hr
  cases hf with
  | none =>
    rw [List.nil_append]
    refine ⟨fun b hb => (hhead b hb).1, ?_⟩
    revert hhead hskip
    cases power ++ rest with
    | nil => exact fun _ hskip => hskip
    | cons c tail =>
      intro hhead hskip
      exact (if_neg (hhead c rfl).2).trans hskip
  | some hd =>
    obtain ⟨b, more, rfl, -⟩ := hd.exists_cons
    refine ⟨fun c hc => Option.some.inj hc ▸ rfl, ?_⟩
    simp only [List.cons_append, if_true]
    rw [← List.cons_append, spanDigits_append hd.digits fun c hc => (hhead c hc).1]
    exact hskip

/-- A zero in front is the only digit. -/
theorem zero_alone {b : UInt8} {more : List UInt8}
    (hz : (b :: more).head? = some 0x30 → b :: more = [0x30])
    (hr : ∀ b ∈ rest.head?, isDigit b = false) :
    ¬(b = 0x30 ∧ (more ++ rest).head?.any isDigit = true) := by
  rintro ⟨rfl, hany⟩
  obtain ⟨-, rfl⟩ := List.cons.inj (hz rfl)
  obtain ⟨c, hc, hdigit⟩ := Option.any_eq_true _ _ |>.mp hany
  cases (hr c hc).symm.trans hdigit

theorem skipNumber_whole {whole fraction power : List UInt8} (hw : Digits whole)
    (hz : whole.head? = some 0x30 → whole = [0x30]) (hf : FractionText fraction)
    (hp : PowerText power) (hr : Stops rest) :
    skipNumber (whole ++ (fraction ++ (power ++ rest))) = .ok rest := by
  obtain ⟨hhead, hskip⟩ := skipFraction hf hp hr
  obtain ⟨b, more, rfl, hb, hmore⟩ := hw.exists_cons
  rw [List.cons_append, skipNumber, hb, if_neg (by decide), if_neg (zero_alone hz hhead),
    spanDigits_append hmore hhead]
  exact hskip

-- ---------------------------------------------------------------------------
-- How a value begins
-- ---------------------------------------------------------------------------

theorem NumberText.opens (h : NumberText text) :
    ∃ b more, text = b :: more ∧ (b = minus ∨ isDigit b = true) := by
  obtain ⟨hs, hw, -⟩ := h
  obtain ⟨b, more, rfl, hb, -⟩ := hw.exists_cons
  simp only [List.mem_cons, List.not_mem_nil, or_false] at hs
  obtain rfl | rfl := hs
  · exact ⟨b, _, rfl, .inr hb⟩
  · exact ⟨minus, _, rfl, .inl rfl⟩

/-- No part begins like the end of a container. -/
theorem TextOf.opens {p : Part} (h : TextOf p text) : ∃ b more, b ≠ closeBracket ∧ b ≠ closeBrace ∧
    ∀ rest, skipSpace (text ++ rest) = b :: (more ++ rest) := by
  have hopen {b : UInt8} {more : List UInt8}
      (hb : isSpace b = Bool.false ∧ b ≠ closeBracket ∧ b ≠ closeBrace) :
      ∃ c tail, c ≠ closeBracket ∧ c ≠ closeBrace ∧
        ∀ rest, skipSpace (b :: more ++ rest) = c :: (tail ++ rest) :=
    ⟨b, more, hb.2.1, hb.2.2, fun rest => skipSpace_cons hb.1 (more ++ rest)⟩
  induction h with
  | null | true | false | string | emptyArray | array | emptyObject | object =>
    exact hopen (by decide)
  | number h =>
    obtain ⟨b, more, rfl, rfl | hb⟩ := h.opens
    · exact hopen (by decide)
    · obtain ⟨hspace, -, -, -, hclose⟩ := opens_of_isDigit hb
      exact hopen ⟨hspace, hclose⟩
  | @item before text after hb _ _ ih =>
    obtain ⟨b, more, hbracket, hbrace, hskip⟩ := ih
    refine ⟨b, more ++ after, hbracket, hbrace, fun rest => ?_⟩
    rw [List.append_assoc, skipSpace_blank hb, List.append_assoc, hskip, List.append_assoc]
  | @member before name between text hb =>
    refine ⟨quote, name ++ quote :: (between ++ colon :: text), by decide, by decide,
      fun rest => ?_⟩
    rw [List.append_assoc]
    exact skipSpace_mark hb (by decide) _
  | lastItem _ ih | lastMember _ ih => exact ih
  | @items text more _ _ ih | @members text more _ _ ih =>
    obtain ⟨b, tail, hbracket, hbrace, hskip⟩ := ih
    refine ⟨b, tail ++ comma :: more, hbracket, hbrace, fun rest => ?_⟩
    rw [List.append_assoc, hskip, List.append_assoc]

-- ---------------------------------------------------------------------------
-- Rounds
-- ---------------------------------------------------------------------------

section Rounds

variable {stack outer : List Bracket} {bracket : Bracket}

theorem skipLoop_whole (h : skipStart text = .ok (none, rest)) :
    skipLoop stack false text = skipLoop stack true rest := by
  conv_lhs => rw [skipLoop]
  grind

theorem skipLoop_open (h : skipStart text = .ok (some bracket, rest)) :
    skipLoop stack false text = skipLoop (bracket :: stack) false rest := by
  conv_lhs => rw [skipLoop]
  grind

theorem skipLoop_next (h : skipNext bracket text = .ok (true, rest)) :
    skipLoop (bracket :: outer) true text = skipLoop (bracket :: outer) false rest := by
  conv_lhs => rw [skipLoop]
  grind

theorem skipLoop_close (h : skipNext bracket text = .ok (false, rest)) :
    skipLoop (bracket :: outer) true text = skipLoop outer true rest := by
  conv_lhs => rw [skipLoop]
  grind

/-- White space before a value makes no difference. -/
theorem skipLoop_skipSpace (stack : List Bracket) (text : List UInt8) :
    skipLoop stack false (skipSpace text) = skipLoop stack false text := by
  have hstart : skipStart (skipSpace text) = skipStart text := by
    simp only [skipStart, skipSpace_skipSpace]
  rw [skipLoop, skipLoop]
  grind

/-- Nor does white space after one, inside a container. -/
theorem skipLoop_blank {blank : List UInt8} (hb : Blank blank) (bracket : Bracket)
    (outer : List Bracket) (rest : List UInt8) :
    skipLoop (bracket :: outer) true (blank ++ rest) = skipLoop (bracket :: outer) true rest := by
  have hnext : skipNext bracket (blank ++ rest) = skipNext bracket rest := by
    simp only [skipNext, skipSpace_blank hb]
  rw [skipLoop, skipLoop]
  grind

end Rounds

-- ---------------------------------------------------------------------------
-- Values
-- ---------------------------------------------------------------------------

theorem skipStart_number (h : NumberText text) (hr : Stops rest) :
    skipStart (text ++ rest) = .ok (none, rest) := by
  obtain ⟨hs, hw, hz, hf, hp⟩ := h
  have hnumber := skipNumber_whole hw hz hf hp hr
  obtain ⟨b, more, rfl, hb, -⟩ := hw.exists_cons
  simp only [List.mem_cons, List.not_mem_nil, or_false] at hs
  simp only [List.cons_append, List.append_assoc] at hnumber ⊢
  obtain rfl | rfl := hs
  · obtain ⟨hspace, hbracket, hbrace, hquote, -⟩ := opens_of_isDigit hb
    have hminus : b ≠ minus := by
      rintro rfl
      cases hb
    simp only [List.nil_append, skipStart, skipSpace_cons hspace, if_neg hbracket, if_neg hbrace,
      if_neg hquote, if_neg hminus, hb, if_true, hnumber]
    rfl
  · show (skipNumber (b :: (more ++ _))).map (fun rest => ((none : Option Bracket), rest)) = _
    rw [hnumber]
    rfl

theorem skipStart_word {b : UInt8} {tail : List UInt8}
    (h : (b, tail) ∈ [(0x6E, nullTail), (0x74, trueTail), (0x66, falseTail)]) (rest : List UInt8) :
    skipStart (b :: (tail ++ rest)) = .ok (none, rest) := by
  have hstart : skipStart (b :: (tail ++ rest)) = (word tail (tail ++ rest)).map fun rest =>
      (none, rest) := by
    simp only [List.mem_cons, List.not_mem_nil, or_false, Prod.mk.injEq] at h
    obtain ⟨rfl, rfl⟩ | ⟨rfl, rfl⟩ | ⟨rfl, rfl⟩ := h <;> rfl
  rw [hstart, word_append]
  rfl

theorem skipKey_of_stringText {before name between : List UInt8} (hb : Blank before)
    (hn : StringText name) (hc : Blank between) (rest : List UInt8) :
    skipKey (before ++ quote :: (name ++ quote :: (between ++ colon :: rest))) = .ok rest := by
  have hquote (tail : List UInt8) : skipSpace (before ++ quote :: tail) = quote :: tail :=
    skipSpace_mark hb (by decide) tail
  have hcolon : skipSpace (between ++ colon :: rest) = colon :: rest :=
    skipSpace_mark hc (by decide) rest
  simp only [skipKey, hquote, ne_eq, not_true_eq_false, if_false,
    skipString_of_stringText hn, hcolon, if_true]

/-- What it takes to be passed over. Inside a container the white space behind an item is passed
over, too; a member has its key passed over before its value is looked for. -/
def Part.Passes : Part → List UInt8 → Prop
  | .value, text => ∀ stack rest, Stops rest →
    skipLoop stack false (text ++ rest) = skipLoop stack true rest
  | .item, text => ∀ bracket outer rest, Stops rest →
    skipLoop (bracket :: outer) false (text ++ rest) = skipLoop (bracket :: outer) true rest
  | .items, text => ∀ outer rest,
    skipLoop (.array :: outer) false (text ++ closeBracket :: rest) = skipLoop outer true rest
  | .member, text => ∀ rest, Stops rest → ∃ after, skipKey (text ++ rest) = .ok after ∧
    ∀ outer, skipLoop (.object :: outer) false after = skipLoop (.object :: outer) true rest
  | .members, text => ∀ rest, ∃ after, skipKey (text ++ closeBrace :: rest) = .ok after ∧
    ∀ outer, skipLoop (.object :: outer) false after = skipLoop outer true rest

theorem passes_array (h : TextOf .items text) (ih : Part.items.Passes text) :
    Part.value.Passes (openBracket :: (text ++ [closeBracket])) := by
  intro stack rest _
  obtain ⟨b, more, hbracket, -, hskip⟩ := h.opens
  have hstart : skipStart (openBracket :: (text ++ closeBracket :: rest)) =
      .ok (some .array, skipSpace (text ++ closeBracket :: rest)) := by
    rw [hskip, skipStart, skipSpace_cons (by decide)]
    simp only [if_true, hskip, if_neg hbracket]
  rw [List.cons_append, List.append_assoc, List.singleton_append, skipLoop_open hstart,
    skipLoop_skipSpace, ih]

theorem passes_object (h : TextOf .members text) (ih : Part.members.Passes text) :
    Part.value.Passes (openBrace :: (text ++ [closeBrace])) := by
  intro stack rest _
  obtain ⟨b, more, -, hbrace, hskip⟩ := h.opens
  obtain ⟨after, hkey, hrest⟩ := ih rest
  -- the first key is passed over together with the brace, the others with their commas
  have hopen : (openBrace : UInt8) ≠ openBracket := by decide
  have hkey : skipKey (b :: (more ++ closeBrace :: rest)) = .ok after := by
    rw [← hskip, ← hkey]
    simp only [skipKey, skipSpace_skipSpace]
  have hstart : skipStart (openBrace :: (text ++ closeBrace :: rest)) =
      .ok (some .object, after) := by
    rw [skipStart, skipSpace_cons (by decide)]
    simp only [if_neg hopen, if_true, hskip, if_neg hbrace, hkey]
    rfl
  rw [List.cons_append, List.append_assoc, List.singleton_append, skipLoop_open hstart, hrest]

/-- Whatever the grammar allows is passed over. -/
theorem TextOf.passes {p : Part} (h : TextOf p text) : p.Passes text := by
  induction h with
  | null | true | false => exact fun _ rest _ => skipLoop_whole (skipStart_word (by decide) rest)
  | number h => exact fun _ rest hr => skipLoop_whole (skipStart_number h hr)
  | @string text h =>
    intro stack rest _
    refine skipLoop_whole ?_
    show (skipString (text ++ [quote] ++ rest)).map
      (fun rest => ((none : Option Bracket), rest)) = _
    rw [List.append_assoc, List.singleton_append, skipString_of_stringText h]
    rfl
  | @emptyArray blank hb =>
    intro stack rest _
    refine skipLoop_whole ?_
    have hclose : skipSpace (blank ++ [closeBracket] ++ rest) = closeBracket :: rest := by
      rw [List.append_assoc]
      exact skipSpace_mark hb (by decide) rest
    rw [List.cons_append, skipStart, skipSpace_cons (by decide)]
    simp only [if_true, hclose]
  | @emptyObject blank hb =>
    intro stack rest _
    refine skipLoop_whole ?_
    have hopen : (openBrace : UInt8) ≠ openBracket := by decide
    have hclose : skipSpace (blank ++ [closeBrace] ++ rest) = closeBrace :: rest := by
      rw [List.append_assoc]
      exact skipSpace_mark hb (by decide) rest
    rw [List.cons_append, skipStart, skipSpace_cons (by decide)]
    simp only [if_neg hopen, if_true, hclose]
  | array h ih => exact passes_array h ih
  | object h ih => exact passes_object h ih
  | @item before text after hb _ ha ih =>
    intro bracket outer rest hr
    rw [← skipLoop_skipSpace, List.append_assoc, skipSpace_blank hb,
      skipLoop_skipSpace, List.append_assoc, ih _ _ (stops_blank ha hr), skipLoop_blank ha]
  | lastItem _ ih =>
    intro outer rest
    rw [ih .array outer _ (stops_cons (.inr (.inl rfl)) rest), skipLoop_close rfl]
  | @items text more _ _ ih ihs =>
    intro outer rest
    rw [List.append_assoc, List.cons_append,
      ih .array outer _ (stops_cons (.inl rfl) _), skipLoop_next rfl, ihs]
  | @member before name between text hb hn hc _ ih =>
    intro rest hr
    refine ⟨text ++ rest, ?_, fun outer => ih .object outer rest hr⟩
    have hkey := skipKey_of_stringText hb hn hc (text ++ rest)
    simpa only [List.append_assoc, List.cons_append] using hkey
  | lastMember _ ih =>
    intro rest
    obtain ⟨after, hkey, hvalue⟩ := ih _ (stops_cons (.inr (.inr rfl)) rest)
    exact ⟨after, hkey, fun outer => (hvalue outer).trans (skipLoop_close rfl)⟩
  | @members text more _ _ ih ihs =>
    intro rest
    obtain ⟨after, hkey, hvalue⟩ := ih _ (stops_cons (.inl rfl) (more ++ closeBrace :: rest))
    obtain ⟨next, hnext, hrest⟩ := ihs rest
    refine ⟨after, by rw [List.append_assoc]; exact hkey, fun outer => ?_⟩
    have hcomma : skipNext .object (comma :: (more ++ closeBrace :: rest)) =
        .ok (Bool.true, next) := by
      show (skipKey (more ++ closeBrace :: rest)).map (fun rest => (Bool.true, rest)) = _
      rw [hnext]
      rfl
    rw [hvalue, skipLoop_next hcomma, hrest]

/-- Where no container is open, the white space behind an item stays. -/
theorem skipValue_item (h : TextOf .item text) (hr : Stops rest) :
    ∃ blank, Blank blank ∧ skipValue (text ++ rest) = .ok (blank ++ rest) := by
  cases h with
  | @item before text blank hb hv ha =>
    refine ⟨blank, ha, ?_⟩
    rw [skipValue, ← skipLoop_skipSpace, List.append_assoc, skipSpace_blank hb, skipLoop_skipSpace,
      List.append_assoc, hv.passes [] _ (stops_blank ha hr), skipLoop]

end RadioGateway.Json
