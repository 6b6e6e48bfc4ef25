import Mathlib.Data.List.Nodup
import RadioGateway.Json.Record
import RadioGateway.Proofs.Meanings

/-!
# The texts of a record

Where all fields of a record are doubles that may be left out, a text of it is `null`, an object
where no known name comes twice, or an array of all the fields in order. What is read is told by
such a text, field by field, and no other text is read.
-/

namespace RadioGateway.Json

open RadioGateway.Text

-- ---------------------------------------------------------------------------
-- The texts
-- ---------------------------------------------------------------------------

/-- What a field may hold: a number, or nothing where there is `null`. -/
inductive FieldText : Option Number → List UInt8 → Prop
  | null {before after : List UInt8} (hb : Blank before) (ha : Blank after) :
      FieldText none (before ++ (Utf8.ofString "null" ++ after))
  | number {n : Number} {before text after : List UInt8} (hb : Blank before) (h : NumberOf n text)
      (ha : Blank after) : FieldText (some n) (before ++ (text ++ after))

/-- The value of a member says something if its name is known, and else may be any. -/
inductive SaidText (known : List String) : String → Option Number → List UInt8 → Prop
  | field {name : String} {said : Option Number} {text : List UInt8} (hn : name ∈ known)
      (h : FieldText said text) : SaidText known name said text
  | other {name : String} {text : List UInt8} (hn : name ∉ known) (h : TextOf .item text) :
      SaidText known name none text

inductive MemberText (known : List String) : String × Option Number → List UInt8 → Prop
  | of {name : String} {said : Option Number} {before key between value : List UInt8}
      (hb : Blank before) (hk : NameText name key) (hc : Blank between)
      (hv : SaidText known name said value) :
      MemberText known (name, said)
        (before ++ quote :: (key ++ quote :: (between ++ colon :: value)))

inductive MembersText (known : List String) : List (String × Option Number) → List UInt8 → Prop
  | last {m : String × Option Number} {text : List UInt8} (h : MemberText known m text) :
      MembersText known [m] text
  | more {m : String × Option Number} {ms : List (String × Option Number)} {text more : List UInt8}
      (h : MemberText known m text) (hs : MembersText known ms more) :
      MembersText known (m :: ms) (text ++ comma :: more)

inductive ItemsText : List (Option Number) → List UInt8 → Prop
  | last {said : Option Number} {text : List UInt8} (h : FieldText said text) :
      ItemsText [said] text
  | more {said : Option Number} {items : List (Option Number)} {text more : List UInt8}
      (h : FieldText said text) (hs : ItemsText items more) :
      ItemsText (said :: items) (text ++ comma :: more)

/-- The names before their values, where the names in `known` are at most once, and not in
`seen`. -/
def Once (known seen : List String) (ms : List (String × Option Number)) : Prop :=
  ((ms.map Prod.fst).filter (· ∈ known) ++ seen).Nodup

instance (known seen : List String) (ms : List (String × Option Number)) :
    Decidable (Once known seen ms) := inferInstanceAs (Decidable (List.Nodup _))

/-- A text of a record with the known fields, and what it says about each in order. -/
inductive RecordText (known : List String) : List (String × Option Number) → List UInt8 → Prop
  | null {text : List UInt8} (h : FieldText none text) : RecordText known [] text
  | empty {before blank after : List UInt8} (hb : Blank before) (hm : Blank blank)
      (ha : Blank after) :
      RecordText known [] (before ++ openBrace :: (blank ++ closeBrace :: after))
  | object {ms : List (String × Option Number)} {before members after : List UInt8}
      (hb : Blank before) (h : MembersText known ms members) (hn : Once known [] ms)
      (ha : Blank after) :
      RecordText known ms (before ++ openBrace :: (members ++ closeBrace :: after))
  | array {items : List (Option Number)} {before text after : List UInt8} (hb : Blank before)
      (h : ItemsText items text) (hl : items.length = known.length) (ha : Blank after) :
      RecordText known (known.zip items) (before ++ openBracket :: (text ++ closeBracket :: after))

/-- What is said about a field, as a double. -/
def said? (ms : List (String × Option Number)) (name : String) : Option Float :=
  (ms.lookup name).join.map Number.toFloat

-- ---------------------------------------------------------------------------
-- Fields
-- ---------------------------------------------------------------------------

variable {ρ : Type} {known seen : List String} {name : String} {said : Option Number}
  {ms : List (String × Option Number)} {text rest more : List UInt8}

theorem FieldText.item (h : FieldText said text) : TextOf .item text := by
  cases h with
  | null hb ha => exact .item hb .null ha
  | number hb h ha => exact .item hb (.number h.numberText) ha

theorem TextOf.item_blank {blank : List UInt8} (h : TextOf .item text) (hb : Blank blank) :
    TextOf .item (text ++ blank) := by
  cases h with
  | item hbefore h ha => simpa using TextOf.item hbefore h (blank_append ha hb)

theorem FieldText.blank {blank : List UInt8} (h : FieldText said text) (hb : Blank blank) :
    FieldText said (text ++ blank) := by
  cases h with
  | null hbefore ha => simpa using FieldText.null hbefore (blank_append ha hb)
  | number hbefore h ha => simpa using FieldText.number hbefore h (blank_append ha hb)

theorem FieldText.led {blank : List UInt8} (h : FieldText said text) (hb : Blank blank) :
    FieldText said (blank ++ text) := by
  cases h with
  | null hbefore ha => simpa using FieldText.null (blank_append hb hbefore) ha
  | number hbefore h ha => simpa using FieldText.number (blank_append hb hbefore) h ha

theorem SaidText.blank {blank : List UInt8} (h : SaidText known name said text) (hb : Blank blank) :
    SaidText known name said (text ++ blank) := by
  cases h with
  | field hn h => exact .field hn (h.blank hb)
  | other hn h => exact .other hn (h.item_blank hb)

/-- What a field is told: the number is stored, or nothing. -/
def Field.tell (field : Field ρ) : Option Number → ρ → ρ
  | none, record => record
  | some n, record => field.store n record

theorem wrongType_ne_ok {α : Type} {expected : String} {a : α} :
    wrongType expected text ≠ .ok a := by
  have hbind {β : Type} {f : β → Except Failure α} (hf : ∀ b, f b ≠ .ok a) (r : Except Failure β) :
      r.bind f ≠ .ok a := by
    cases r with
    | error e => exact nofun
    | ok b => exact hf b
  intro h
  unfold wrongType at h
  split at h
  · cases h
  repeat' split at h
  all_goals first
  | exact hbind (fun _ hb => by cases hb) _ h
  | cases h

section Field

variable {field : Field ρ} (hopt : field.optional = true) (hreal : field.kind = .real)

include hopt hreal

theorem FieldText.reads (h : FieldText said text) (hr : Stops rest) (record : ρ) :
    ∃ blank, Blank blank ∧
      field.read record (text ++ rest) = .ok (field.tell said record, blank ++ rest) := by
  cases h with
  | @null before after hb ha =>
    refine ⟨after, ha, ?_⟩
    have hnull : skipSpace (Utf8.ofString "null" ++ (after ++ rest)) =
        0x6E :: (nullTail ++ (after ++ rest)) := rfl
    rw [List.append_assoc, List.append_assoc, Field.read, skipSpace_blank hb, hnull]
    simp only [hopt, Bool.true_and, decide_true, if_true, word_append]
    rfl
  | @number n before text after hb h ha =>
    refine ⟨after, ha, ?_⟩
    have hread := h.reads (stops_blank ha hr)
    have haccepts : field.kind.refuses n = none := by
      rw [hreal]
      cases n <;> rfl
    obtain ⟨b, tail, rfl, hb'⟩ := h.numberText.opens
    have hspace : isSpace b = false := hb'.elim (fun h => h ▸ rfl) fun h => (opens_of_isDigit h).1
    have hword : b ≠ 0x6E := by
      rintro rfl
      exact absurd hb' (by decide)
    have hopens : (decide (b = minus) || isDigit b) = true := by simpa using hb'
    rw [List.append_assoc, List.append_assoc, Field.read, skipSpace_blank hb, List.cons_append,
      skipSpace_cons hspace]
    simp only [decide_eq_false hword, Bool.and_false, Bool.false_eq_true, if_false, hopens, if_true]
    rw [← List.cons_append, hread]
    simp only [Except.bind, haccepts]
    rfl

theorem exists_fieldText {record record' : ρ} (h : field.read record text = .ok (record', rest)) :
    ∃ said t, FieldText said t ∧ text = t ++ rest ∧ record' = field.tell said record := by
  unfold Field.read at h
  split at h
  · cases h
  next b after hstart =>
  obtain ⟨before, hb, htext⟩ := exists_blank hstart
  split at h
  · next hnull =>
    rw [hopt, Bool.true_and, decide_eq_true_eq] at hnull
    cases hword : word nullTail after with
    | error f => simp [hword, Except.map] at h
    | ok more =>
      simp only [hword, Except.map, Except.ok.injEq, Prod.mk.injEq] at h
      obtain ⟨rfl, rfl⟩ := h
      refine ⟨none, _, .null hb blank_nil, ?_, rfl⟩
      rw [htext, hnull, eq_append_of_word hword]
      simp [Utf8.ofString]
      rfl
  split at h
  · cases hnumber : number (b :: after) with
    | error f => simp [hnumber, Except.bind] at h
    | ok p =>
      obtain ⟨n, more⟩ := p
      obtain ⟨t, ht, hcons⟩ := exists_numberOf hnumber
      have haccepts : field.kind.refuses n = none := by
        rw [hreal]
        cases n <;> rfl
      simp only [hnumber, Except.bind, haccepts, Except.ok.injEq, Prod.mk.injEq] at h
      obtain ⟨rfl, rfl⟩ := h
      refine ⟨some n, _, .number hb ht blank_nil, ?_, rfl⟩
      rw [htext, hcons, List.append_nil, List.append_assoc]
  · exact absurd h wrongType_ne_ok

end Field

-- ---------------------------------------------------------------------------
-- Members
-- ---------------------------------------------------------------------------

/-- Members from behind the first name on. -/
inductive OpenText (known : List String) : List (String × Option Number) → List UInt8 → Prop
  | last {name : String} {said : Option Number} {between value : List UInt8} (hc : Blank between)
      (hv : SaidText known name said value) :
      OpenText known [(name, said)] (between ++ colon :: value)
  | more {name : String} {said : Option Number} {ms : List (String × Option Number)}
      {between value more : List UInt8} (hc : Blank between) (hv : SaidText known name said value)
      (hs : MembersText known ms more) :
      OpenText known ((name, said) :: ms) (between ++ colon :: (value ++ comma :: more))

theorem OpenText.members {before key : List UInt8} (h : OpenText known ((name, said) :: ms) text)
    (hb : Blank before) (hk : NameText name key) :
    MembersText known ((name, said) :: ms) (before ++ quote :: (key ++ quote :: text)) := by
  cases h with
  | last hc hv => exact .last (.of hb hk hc hv)
  | more hc hv hs =>
    have hmembers := MembersText.more (.of hb hk hc hv) hs
    simpa using hmembers

theorem MembersText.exists_open (h : MembersText known ms text) : ∃ name said more before key after,
    ms = (name, said) :: more ∧ Blank before ∧ NameText name key ∧ OpenText known ms after ∧
      text = before ++ quote :: (key ++ quote :: after) := by
  cases h with
  | last h =>
    cases h with
    | of hb hk hc hv => exact ⟨_, _, _, _, _, _, rfl, hb, hk, .last hc hv, rfl⟩
  | more h hs =>
    cases h with
    | of hb hk hc hv => exact ⟨_, _, _, _, _, _, rfl, hb, hk, .more hc hv hs, by simp⟩

theorem MembersText.length_le (h : MembersText known ms text) : ms.length ≤ text.length := by
  induction h with
  | last h =>
    cases h
    simp only [List.length_append, List.length_cons, List.length_nil]
    omega
  | more _ _ ih =>
    simp only [List.length_cons, List.length_append]
    omega

-- ---------------------------------------------------------------------------
-- Records
-- ---------------------------------------------------------------------------

/-- All fields may be left out, hold doubles, and have names of their own. -/
structure Schema.Doubles (schema : Schema ρ) : Prop where
  optional : ∀ f ∈ schema.fields, f.optional = true
  real : ∀ f ∈ schema.fields, f.kind = .real
  distinct : (schema.fields.map Field.name).Nodup
  nonempty : schema.fields ≠ []

def Schema.names (schema : Schema ρ) : List String := schema.fields.map Field.name

/-- What is said about a name changes the field of that name, if there is one. -/
def Schema.tell (schema : Schema ρ) (name : String) (said : Option Number) (record : ρ) : ρ :=
  match schema.fields.find? (·.name = name) with
  | some field => field.tell said record
  | none => record

/-- What a record is after it was told all that is said, in order. -/
def Schema.told (schema : Schema ρ) : List (String × Option Number) → ρ → ρ
  | [], record => record
  | (name, said) :: ms, record => schema.told ms (schema.tell name said record)

section Schema

variable {schema : Schema ρ}

theorem find_eq_none (h : name ∉ schema.names) :
    schema.fields.find? (·.name = name) = none := by
  rw [List.find?_eq_none]
  exact fun f hf hname => h (List.mem_map.mpr ⟨f, hf, of_decide_eq_true hname⟩)

theorem exists_field (h : name ∈ schema.names) :
    ∃ field ∈ schema.fields, field.name = name ∧
      schema.fields.find? (·.name = name) = some field := by
  obtain ⟨f, hf, hname⟩ := List.mem_map.mp h
  obtain ⟨field, hfind⟩ : ∃ field, schema.fields.find? (·.name = name) = some field :=
    Option.isSome_iff_exists.mp (List.find?_isSome.mpr ⟨f, hf, decide_eq_true hname⟩)
  have hfound := List.find?_some hfind
  exact ⟨field, List.mem_of_find?_eq_some hfind, of_decide_eq_true hfound, hfind⟩

variable (hschema : schema.Doubles)

include hschema

/-- Behind the last member nothing is missing. -/
theorem readMembers_end (record : ρ) (seen : List String) (fuel : Nat) (rest : List UInt8) :
    schema.readMembers record seen fuel none rest = .ok (record, rest) := by
  have hnone : (schema.fields.find? fun f => !f.optional && !seen.contains f.name) = none := by
    rw [List.find?_eq_none]
    intro f hf
    simp [hschema.optional f hf]
  rw [Schema.readMembers.eq_def]
  simp only [hnone]

/-- The names that are known and have been read, with one more. -/
def remember (known : List String) (name : String) (seen : List String) : List String :=
  if name ∈ known then name :: seen else seen

omit hschema in
theorem once_cons : Once known seen ((name, said) :: ms) ↔
    Once known (remember known name seen) ms := by
  unfold Once remember
  split
  · next hn =>
    rw [List.map_cons, List.filter_cons_of_pos (by simpa using hn), List.nodup_middle]
    rfl
  · next hn => rw [List.map_cons, List.filter_cons_of_neg (by simpa using hn)]

omit hschema in
theorem Once.not_mem (h : Once known seen ((name, said) :: ms)) (hn : name ∈ known) :
    name ∉ seen := by
  rw [once_cons, remember, if_pos hn, Once, List.nodup_append] at h
  exact (List.nodup_cons.mp h.2.1).1

/-- One member, from behind its name on. -/
theorem SaidText.reads {between : List UInt8} (h : SaidText schema.names name said text)
    (hc : Blank between) (hnew : name ∈ schema.names → name ∉ seen) (hr : Stops rest) (record : ρ)
    (fuel : Nat) :
    schema.readMembers record seen (fuel + 1) (some name) (between ++ colon :: (text ++ rest)) =
      (nextKey rest).bind fun (next, rest) => schema.readMembers (schema.tell name said record)
        (remember schema.names name seen) fuel next rest := by
  rw [Schema.readMembers, memberColon_blank hc, Schema.tell, remember]
  cases h with
  | field hn h =>
    obtain ⟨field, hfield, -, hfind⟩ := exists_field hn
    obtain ⟨blank, hblank, hread⟩ :=
      h.reads (hschema.optional field hfield) (hschema.real field hfield) hr record
    have hfirst : seen.contains name = false := by simpa using hnew hn
    simp only [hfind, hfirst, Bool.false_eq_true, if_false, if_pos hn, bind, Except.bind, hread,
      nextKey_blank hblank]
  | other hn h =>
    obtain ⟨blank, hblank, hskip⟩ := skipValue_item h hr
    simp only [find_eq_none hn, if_neg hn, bind, Except.bind, hskip, nextKey_blank hblank]

theorem OpenText.reads {fuel : Nat} (h : OpenText schema.names ((name, said) :: ms) text)
    (hn : Once schema.names seen ((name, said) :: ms)) (hfuel : ms.length < fuel) (record : ρ)
    (rest : List UInt8) :
    schema.readMembers record seen fuel (some name) (text ++ closeBrace :: rest) =
      .ok (schema.told ((name, said) :: ms) record, rest) := by
  induction fuel generalizing record seen name said ms text with
  | zero => cases hfuel
  | succ fuel ih =>
    cases h with
    | @last _ _ between value hc hv =>
      have hread := hv.reads hschema hc hn.not_mem (stops_cons (.inr (.inr rfl)) rest) record fuel
      rw [List.append_assoc, List.cons_append, hread]
      exact readMembers_end hschema _ _ fuel rest
    | @more _ _ _ between value more hc hv hs =>
      have hread := hv.reads hschema hc hn.not_mem
        (stops_cons (.inl rfl) (more ++ closeBrace :: rest)) record fuel
      obtain ⟨next, said', ms, before, key, after, rfl, hb, hk, hopen, rfl⟩ := hs.exists_open
      rw [List.append_assoc, List.cons_append, List.append_assoc, List.cons_append, hread,
        List.append_assoc, List.cons_append, List.append_assoc, List.cons_append,
        nextKey_comma hb hk]
      exact ih hopen (once_cons.mp hn) (Nat.lt_of_succ_lt_succ hfuel) _

theorem exists_saidText {record record' : ρ} {fuel : Nat}
    (h : schema.readMembers record seen (fuel + 1) (some name) text = .ok (record', rest)) :
    ∃ said between value after next rest', Blank between ∧ SaidText schema.names name said value ∧
      text = between ++ colon :: (value ++ after) ∧ (name ∈ schema.names → name ∉ seen) ∧
      nextKey after = .ok (next, rest') ∧
      schema.readMembers (schema.tell name said record) (remember schema.names name seen) fuel next
        rest' = .ok (record', rest) := by
  rw [Schema.readMembers] at h
  by_cases hn : name ∈ schema.names
  · obtain ⟨field, hfield, -, hfind⟩ := exists_field hn
    simp only [hfind] at h
    split at h
    · cases h
    next hfirst =>
    cases hcolon : memberColon text with
    | error f => simp [hcolon, bind, Except.bind] at h
    | ok after =>
      obtain ⟨between, hb, rfl⟩ := exists_memberColon hcolon
      cases hread : field.read record after with
      | error f => simp [hcolon, hread, bind, Except.bind] at h
      | ok p =>
        obtain ⟨record₁, after'⟩ := p
        obtain ⟨said, value, hv, rfl, rfl⟩ :=
          exists_fieldText (hschema.optional field hfield) (hschema.real field hfield) hread
        cases hnext : nextKey after' with
        | error f => simp [hcolon, hread, hnext, bind, Except.bind] at h
        | ok q =>
          simp only [hcolon, hread, hnext, bind, Except.bind] at h
          refine ⟨said, between, value, after', q.1, q.2, hb, .field hn hv, rfl, ?_, hnext, ?_⟩
          · exact fun _ => by simpa using hfirst
          · simpa only [Schema.tell, hfind, remember, if_pos hn] using h
  · simp only [find_eq_none hn] at h
    cases hcolon : memberColon text with
    | error f => simp [hcolon, bind, Except.bind] at h
    | ok after =>
      obtain ⟨between, hb, rfl⟩ := exists_memberColon hcolon
      cases hskip : skipValue after with
      | error f => simp [hcolon, hskip, bind, Except.bind] at h
      | ok after' =>
        obtain ⟨value, hv, rfl⟩ := exists_value_of_skipValue hskip
        cases hnext : nextKey after' with
        | error f => simp [hcolon, hskip, hnext, bind, Except.bind] at h
        | ok q =>
          simp only [hcolon, hskip, hnext, bind, Except.bind] at h
          refine ⟨none, between, value ++ [], after', q.1, q.2, hb,
            .other hn (hv.item blank_nil), ?_, fun hmem => absurd hmem hn, hnext, ?_⟩
          · rw [List.append_nil]
          · simpa only [Schema.tell, find_eq_none hn, remember, if_neg hn] using h

theorem exists_openText {record record' : ρ} {fuel : Nat} (hseen : seen.Nodup)
    (h : schema.readMembers record seen fuel (some name) text = .ok (record', rest)) :
    ∃ said ms t, OpenText schema.names ((name, said) :: ms) t ∧ text = t ++ closeBrace :: rest ∧
      Once schema.names seen ((name, said) :: ms) ∧
      record' = schema.told ((name, said) :: ms) record := by
  induction fuel generalizing record seen name text with
  | zero => cases h
  | succ fuel ih =>
    obtain ⟨said, between, value, after, next, rest', hc, hv, rfl, hnew, hnext, hrest⟩ :=
      exists_saidText hschema h
    obtain ⟨blank, hb, hkey⟩ := exists_nextKey hnext
    have hseen' : (remember schema.names name seen).Nodup := by
      unfold remember
      split
      · next hn => exact List.nodup_cons.mpr ⟨hnew hn, hseen⟩
      · exact hseen
    obtain ⟨rfl, rfl⟩ | ⟨name', before, key, rfl, hbefore, hk, rfl⟩ := hkey
    · rw [readMembers_end hschema] at hrest
      obtain ⟨rfl, rfl⟩ := Prod.mk.inj (Except.ok.inj hrest)
      refine ⟨said, [], _, .last hc (hv.blank hb), by simp, once_cons.mpr ?_, rfl⟩
      exact hseen'
    · obtain ⟨said', ms, t, ht, rfl, honce, rfl⟩ := ih hseen' hrest
      refine ⟨said, (name', said') :: ms, _, .more hc (hv.blank hb) (ht.members hbefore hk), ?_,
        once_cons.mpr honce, rfl⟩
      simp

-- ---------------------------------------------------------------------------
-- Items
-- ---------------------------------------------------------------------------

/-- What stands between an item and the end of the array. -/
inductive LaterText : List (Option Number) → List UInt8 → Prop
  | nothing {blank : List UInt8} (hb : Blank blank) : LaterText [] blank
  | more {said : Option Number} {items : List (Option Number)} {blank value tail : List UInt8}
      (hb : Blank blank) (h : FieldText said value) (ht : LaterText items tail) :
      LaterText (said :: items) (blank ++ comma :: (value ++ tail))

omit hschema

theorem LaterText.items {items : List (Option Number)} {tail : List UInt8}
    (h : LaterText items tail) (hv : FieldText said text) :
    ItemsText (said :: items) (text ++ tail) := by
  induction h generalizing said text with
  | nothing hb => exact .last (hv.blank hb)
  | more hb h _ ih =>
    have hitems := ItemsText.more (hv.blank hb) (ih h)
    simpa using hitems

theorem ItemsText.items {items : List (Option Number)} (h : ItemsText items text) :
    TextOf .items text := by
  induction h with
  | last h => exact .lastItem h.item
  | more h _ ih => exact .items h.item ih

theorem closeArray_blank {blank : List UInt8} (hb : Blank blank) (rest : List UInt8) :
    closeArray (blank ++ closeBracket :: rest) = .ok rest := by
  have hclose : skipSpace (blank ++ closeBracket :: rest) = closeBracket :: rest :=
    skipSpace_mark hb (by decide) rest
  simp only [closeArray, hclose, if_true]

theorem exists_closeArray (h : closeArray text = .ok rest) :
    ∃ blank, Blank blank ∧ text = blank ++ closeBracket :: rest := by
  unfold closeArray at h
  split at h
  · cases h
  next b after hclose =>
  obtain ⟨blank, hb, htext⟩ := exists_blank hclose
  split at h
  · next hb' => exact ⟨blank, hb, by rw [htext, hb', Except.ok.inj h]⟩
  split at h
  · cases h
  · split at h <;> cases h

/-- An item looked for in front of the text, or behind a comma. -/
theorem firstItem_part {p : Part} (h : TextOf p text) (rest : List UInt8) :
    firstItem (text ++ rest) = .ok (true, skipSpace (text ++ rest)) := by
  obtain ⟨b, tail, hb, -, hskip⟩ := h.opens
  simp only [firstItem, hskip, if_neg hb]

theorem exists_firstItem (h : firstItem text = .ok (true, rest)) :
    ∃ blank, Blank blank ∧ text = blank ++ rest := by
  unfold firstItem at h
  split at h
  · cases h
  next b after hfirst =>
  split at h
  · cases h
  · cases h
    exact exists_blank hfirst

section Items

variable {field : Field ρ} {fields : List (Field ρ)} {record record' : ρ} {count : Nat}

/-- An item is looked for, and then there is a field to be read, or one too few. -/
theorem exists_cause (schema : Schema ρ) (record : ρ) (count : Nat) (field : Field ρ)
    (fields : List (Field ρ)) (text : List UInt8) :
    ∃ cause, schema.readItems record count (field :: fields) text =
      (if count = 0 then firstItem text else nextItem text).bind fun p =>
        if p.1 then (field.read record p.2).bind fun q =>
          schema.readItems q.1 (count + 1) fields q.2
        else failAt cause p.2 := by
  refine ⟨.invalidLength count (schema.name ++ " with " ++
    String.ofList (Nat.toDigits 10 schema.fields.length) ++ " elements"), ?_⟩
  rw [Schema.readItems]
  split <;> rfl

theorem readItems_cons
    (hmore : (if count = 0 then firstItem text else nextItem text) = .ok (true, more))
    (hread : field.read record more = .ok (record', rest)) :
    schema.readItems record count (field :: fields) text =
      schema.readItems record' (count + 1) fields rest := by
  obtain ⟨cause, hitems⟩ := exists_cause schema record count field fields text
  simp only [hitems, hmore, hread, Except.bind, if_true]

theorem exists_item (h :
    schema.readItems record count (field :: fields) text = .ok (record', rest)) :
    ∃ more record₁ rest', (if count = 0 then firstItem text else nextItem text) = .ok (true, more) ∧
      field.read record more = .ok (record₁, rest') ∧
      schema.readItems record₁ (count + 1) fields rest' = .ok (record', rest) := by
  obtain ⟨cause, hitems⟩ := exists_cause schema record count field fields text
  rw [hitems] at h
  cases hmore : (if count = 0 then firstItem text else nextItem text) with
  | error f => simp [hmore, Except.bind] at h
  | ok p =>
    obtain ⟨_ | _, more⟩ := p
    · simp [hmore, Except.bind, failAt] at h
    cases hread : field.read record more with
    | error f => simp [hmore, hread, Except.bind] at h
    | ok q =>
      simp only [hmore, hread, Except.bind, if_true] at h
      exact ⟨more, q.1, q.2, rfl, hread, h⟩

theorem Field.read_skipSpace (field : Field ρ) (record : ρ) (text : List UInt8) :
    field.read record (skipSpace text) = field.read record text := by
  simp only [Field.read, skipSpace_skipSpace]

/-- Fields that are found by their names. -/
def Schema.Lists (schema : Schema ρ) (fields : List (Field ρ)) : Prop :=
  ∀ f ∈ fields, f.optional = true ∧ f.kind = .real ∧
    schema.fields.find? (·.name = f.name) = some f

theorem Schema.Doubles.lists (h : schema.Doubles) : schema.Lists schema.fields := by
  intro f hf
  refine ⟨h.optional f hf, h.real f hf, ?_⟩
  obtain ⟨g, hg, hname, hfind⟩ := exists_field (List.mem_map_of_mem hf)
  rw [hfind, List.inj_on_of_nodup_map h.distinct hg hf hname]

theorem told_cons (h : schema.Lists (field :: fields)) (items : List (Option Number)) (record : ρ) :
    schema.told (((field :: fields).map Field.name).zip (said :: items)) record =
      schema.told ((fields.map Field.name).zip items) (field.tell said record) := by
  obtain ⟨-, -, hfind⟩ := h field List.mem_cons_self
  simp only [List.map_cons, List.zip_cons_cons, Schema.told, Schema.tell, hfind]

theorem ItemsText.reads {items : List (Option Number)} (h : ItemsText items text)
    (hfields : schema.Lists fields) (hl : items.length = fields.length) {front : List UInt8}
    (hmore : (if count = 0 then firstItem front else nextItem front) =
      .ok (true, skipSpace (text ++ closeBracket :: rest))) (record : ρ) :
    schema.readItems record count fields front =
      .ok (schema.told ((fields.map Field.name).zip items) record, rest) := by
  induction h generalizing fields count front record with
  | @last said text h =>
    cases fields with
    | nil => cases hl
    | cons field fields =>
      obtain ⟨hopt, hreal, -⟩ := hfields field List.mem_cons_self
      obtain ⟨blank, hb, hread⟩ :=
        h.reads hopt hreal (stops_cons (.inr (.inl rfl)) rest) record
      obtain rfl := List.eq_nil_of_length_eq_zero (Nat.succ.inj hl).symm
      rw [readItems_cons hmore ((field.read_skipSpace record _).trans hread), told_cons hfields,
        Schema.readItems, closeArray_blank hb]
      rfl
  | @more said items text tail h hs ih =>
    cases fields with
    | nil => cases hl
    | cons field fields =>
      obtain ⟨hopt, hreal, -⟩ := hfields field List.mem_cons_self
      obtain ⟨blank, hb, hread⟩ :=
        h.reads hopt hreal (stops_cons (.inl rfl) (tail ++ closeBracket :: rest)) record
      rw [List.append_assoc, List.cons_append] at hmore
      rw [readItems_cons hmore ((field.read_skipSpace record _).trans hread), told_cons hfields]
      refine ih (fun f hf => hfields f (List.mem_cons_of_mem field hf)) (Nat.succ.inj hl) ?_ _
      rw [if_neg (Nat.succ_ne_zero count)]
      exact nextItem_part hb hs.items _

theorem exists_laterText (hfields : schema.Lists fields)
    (h : schema.readItems record (count + 1) fields text = .ok (record', rest)) :
    ∃ items t, LaterText items t ∧ text = t ++ closeBracket :: rest ∧
      items.length = fields.length ∧
      record' = schema.told ((fields.map Field.name).zip items) record := by
  induction fields generalizing record count text with
  | nil =>
    rw [Schema.readItems] at h
    cases hclose : closeArray text with
    | error f => simp [hclose, Except.map] at h
    | ok more =>
      simp only [hclose, Except.map, Except.ok.injEq, Prod.mk.injEq] at h
      obtain ⟨rfl, rfl⟩ := h
      obtain ⟨blank, hb, rfl⟩ := exists_closeArray hclose
      exact ⟨[], blank, .nothing hb, rfl, rfl, rfl⟩
  | cons field fields ih =>
    obtain ⟨hopt, hreal, -⟩ := hfields field List.mem_cons_self
    obtain ⟨more, record₁, rest', hmore, hread, hrest⟩ := exists_item h
    obtain ⟨blank, before, hb, hbefore, rfl⟩ := exists_nextItem hmore
    obtain ⟨said, value, hv, rfl, rfl⟩ := exists_fieldText hopt hreal hread
    obtain ⟨items, t, ht, rfl, hl, rfl⟩ :=
      ih (fun f hf => hfields f (List.mem_cons_of_mem field hf)) hrest
    refine ⟨said :: items, _, .more hb (hv.led hbefore) ht, by simp, congrArg (· + 1) hl, ?_⟩
    exact (told_cons hfields items record).symm

end Items

-- ---------------------------------------------------------------------------
-- Whole texts
-- ---------------------------------------------------------------------------

section Whole

variable {empty record : ρ}

theorem readOptional_eq_ok_of_readFrom {b : UInt8} (hopen : skipSpace text = b :: more)
    (hb : b ≠ 0x6E) :
    schema.readOptional empty text = .ok record ↔
      ∃ rest, schema.readFrom empty text = .ok (record, rest) ∧ Blank rest := by
  simp only [Schema.readOptional, hopen, if_neg hb]
  exact mapError_eq_ok.trans bind_finish_eq_ok

theorem readFrom_brace (hopen : skipSpace text = openBrace :: more) :
    schema.readFrom empty text = (firstKey more).bind fun (key, after) =>
      schema.readMembers empty [] more.length key after := by
  have hne : (openBrace : UInt8) ≠ openBracket := by decide
  simp only [Schema.readFrom, hopen, if_neg hne, if_true]
  rfl

variable (hschema : schema.Doubles)

include hschema

/-- Every text of a record is read. -/
theorem RecordText.reads (h : RecordText schema.names ms text) (empty : ρ) :
    schema.readOptional empty text = .ok (schema.told ms empty) := by
  have hopen {before : List UInt8} {b : UInt8} (hb : Blank before) (hs : isSpace b = false)
      (more : List UInt8) : skipSpace (before ++ b :: more) = b :: more := skipSpace_mark hb hs more
  cases h with
  | null h =>
    cases h with
    | @null before after hb ha =>
      have hnull : skipSpace (Utf8.ofString "null" ++ after) = 0x6E :: (nullTail ++ after) := rfl
      have hend : skipSpace after = [] := List.dropWhile_eq_nil_iff.mpr ha
      simp only [Schema.readOptional, skipSpace_blank hb, hnull, if_true, word_append, Except.map,
        Except.bind, finish, hend]
      rfl
  | @empty before blank after hb hm ha =>
    have hclose : firstKey (blank ++ closeBrace :: after) = .ok (none, after) := by
      have hspace := hopen (b := closeBrace) hm (by decide) after
      simp only [firstKey, hspace, if_true]
    refine (readOptional_eq_ok_of_readFrom (hopen hb (by decide) _) (by decide)).mpr ⟨after, ?_, ha⟩
    rw [readFrom_brace (hopen hb (by decide) _), hclose]
    exact readMembers_end hschema empty [] _ after
  | @object ms before members after hb h hn ha =>
    have hlength := h.length_le
    obtain ⟨name, said, ms, lead, key, tail, rfl, hlead, hk, ht, rfl⟩ := h.exists_open
    refine (readOptional_eq_ok_of_readFrom (hopen hb (by decide) _) (by decide)).mpr ⟨after, ?_, ha⟩
    have hfirst : firstKey (lead ++ quote :: (key ++ quote :: (tail ++ closeBrace :: after))) =
        .ok (some name, tail ++ closeBrace :: after) := by
      have hne : (quote : UInt8) ≠ closeBrace := by decide
      have hspace := hopen (b := quote) hlead (by decide)
      simp only [firstKey, hspace, if_neg hne, memberKey, if_true, string_nameText hk]
      rfl
    rw [readFrom_brace (hopen hb (by decide) _)]
    simp only [List.append_assoc, List.cons_append, hfirst]
    refine ht.reads hschema hn ?_ empty after
    simp only [List.length_append, List.length_cons] at hlength ⊢
    omega
  | @array items before text after hb h hl ha =>
    refine (readOptional_eq_ok_of_readFrom (hopen hb (by decide) _) (by decide)).mpr ⟨after, ?_, ha⟩
    have hlength : items.length = schema.fields.length := hl.trans (List.length_map _)
    simp only [Schema.readFrom, hopen (b := openBracket) hb (by decide), if_true]
    have hfirst : (if 0 = 0 then firstItem (text ++ closeBracket :: after)
        else nextItem (text ++ closeBracket :: after)) =
        .ok (true, skipSpace (text ++ closeBracket :: after)) := firstItem_part h.items _
    exact h.reads hschema.lists hlength hfirst empty

theorem exists_object {before : List UInt8} (hb : Blank before) (hr : Blank rest)
    (hopen : skipSpace text = openBrace :: more) (htext : text = before ++ openBrace :: more)
    (h : schema.readFrom empty text = .ok (record, rest)) :
    ∃ ms, RecordText schema.names ms text ∧ record = schema.told ms empty := by
  rw [readFrom_brace hopen] at h
  cases hfirst : firstKey more with
  | error f => simp [hfirst, Except.bind] at h
  | ok p =>
    obtain ⟨key, after⟩ := p
    simp only [hfirst, Except.bind] at h
    obtain ⟨blank, hblank, ⟨rfl, rfl⟩ | ⟨name, t, rfl, ht, rfl⟩⟩ := exists_firstKey hfirst
    · rw [readMembers_end hschema] at h
      obtain ⟨rfl, rfl⟩ := Prod.mk.inj (Except.ok.inj h)
      exact ⟨[], htext ▸ .empty hb hblank hr, rfl⟩
    · obtain ⟨said, ms, t', hopen', rfl, honce, rfl⟩ := exists_openText hschema List.nodup_nil h
      refine ⟨(name, said) :: ms, ?_, rfl⟩
      have hrecord := RecordText.object hb (hopen'.members hblank ht) honce hr
      rw [htext]
      simpa using hrecord

theorem exists_array {before : List UInt8} (hb : Blank before) (hr : Blank rest)
    (hopen : skipSpace text = openBracket :: more) (htext : text = before ++ openBracket :: more)
    (h : schema.readFrom empty text = .ok (record, rest)) :
    ∃ ms, RecordText schema.names ms text ∧ record = schema.told ms empty := by
  simp only [Schema.readFrom, hopen, if_true] at h
  obtain ⟨field, fields, hfields⟩ := List.exists_cons_of_ne_nil hschema.nonempty
  have hlists : schema.Lists (field :: fields) := hfields ▸ hschema.lists
  have hnames : schema.names = (field :: fields).map Field.name := congrArg _ hfields
  rw [hfields] at h
  -- the first field stands behind the bracket, the others behind commas
  obtain ⟨hopt, hreal, -⟩ := hlists field List.mem_cons_self
  obtain ⟨_, _, _, hmore, hread, hrest⟩ := exists_item h
  obtain ⟨blank, hblank, rfl⟩ := exists_firstItem hmore
  obtain ⟨said, value, hv, rfl, rfl⟩ := exists_fieldText hopt hreal hread
  obtain ⟨items, t, ht, rfl, hl, rfl⟩ :=
    exists_laterText (fun f hf => hlists f (List.mem_cons_of_mem field hf)) hrest
  refine ⟨schema.names.zip (said :: items), ?_, ?_⟩
  · have hlength : (said :: items).length = schema.names.length := by
      rw [hnames, List.length_map]
      exact congrArg (· + 1) hl
    have hrecord := RecordText.array hb (ht.items (hv.led hblank)) hlength hr
    rw [htext]
    simpa using hrecord
  · rw [hnames, told_cons hlists]

theorem exists_recordText (h : schema.readOptional empty text = .ok record) :
    ∃ ms, RecordText schema.names ms text ∧ record = schema.told ms empty := by
  cases hopen : skipSpace text with
  | nil =>
    simp [Schema.readOptional, hopen, Schema.readFrom, failOn, Except.bind, Except.mapError] at h
  | cons b more =>
    obtain ⟨before, hb, htext⟩ := exists_blank hopen
    by_cases hnull : b = 0x6E
    · simp only [Schema.readOptional, hopen, if_pos hnull] at h
      obtain ⟨rest, hword, hr⟩ := bind_finish_eq_ok.mp (mapError_eq_ok.mp h)
      cases hw : word nullTail more with
      | error f => simp [hw, Except.map] at hword
      | ok after =>
        simp only [hw, Except.map, Except.ok.injEq, Prod.mk.injEq] at hword
        obtain ⟨rfl, rfl⟩ := hword
        refine ⟨[], .null ?_, rfl⟩
        rw [htext, hnull, eq_append_of_word hw]
        exact FieldText.null hb hr
    obtain ⟨rest, hfrom, hr⟩ := (readOptional_eq_ok_of_readFrom hopen hnull).mp h
    by_cases hbracket : b = openBracket
    · exact exists_array hschema hb hr (hbracket ▸ hopen) (hbracket ▸ htext) hfrom
    by_cases hbrace : b = openBrace
    · exact exists_object hschema hb hr (hbrace ▸ hopen) (hbrace ▸ htext) hfrom
    · simp only [Schema.readFrom, hopen, if_neg hbracket, if_neg hbrace] at hfrom
      exact absurd hfrom wrongType_ne_ok

/-- A record is what a text of it tells. -/
theorem readOptional_eq_ok_iff : schema.readOptional empty text = .ok record ↔
    ∃ ms, RecordText schema.names ms text ∧ record = schema.told ms empty := by
  refine ⟨exists_recordText hschema, ?_⟩
  rintro ⟨ms, h, rfl⟩
  exact h.reads hschema empty

end Whole

-- ---------------------------------------------------------------------------
-- What a record holds
-- ---------------------------------------------------------------------------

theorem once_of_recordText (h : RecordText known ms text) (hk : known.Nodup) :
    Once known [] ms := by
  cases h with
  | null | empty => exact List.nodup_nil
  | object _ _ hn => exact hn
  | array _ _ hl =>
    rw [Once, List.append_nil, List.map_fst_zip (Nat.le_of_eq hl.symm)]
    exact hk.filter _

theorem said?_eq_none (h : Once known seen ms) (hk : name ∈ known) (hs : name ∈ seen) :
    said? ms name = none := by
  have hmem : name ∉ ms.map Prod.fst := by
    intro hmem
    have hfilter : name ∈ (ms.map Prod.fst).filter (· ∈ known) :=
      List.mem_filter.mpr ⟨hmem, by simpa using hk⟩
    exact (List.nodup_append.mp h).2.2 name hfilter name hs rfl
  rw [said?, lookup_of_not_mem hmem]
  rfl

/-- A record shows what it holds in each field, and a field that is stored changes no other. -/
structure Schema.Shows (schema : Schema ρ) (held : ρ → String → Option Float) : Prop where
  store : ∀ f ∈ schema.fields, ∀ n record name,
    held (f.store n record) name = if name = f.name then some n.toFloat else held record name

/-- In the end a field holds what was said about it, or else what it held before. -/
theorem Schema.Shows.told {held : ρ → String → Option Float} (h : schema.Shows held)
    (hn : name ∈ schema.names) (honce : Once schema.names seen ms) (record : ρ) :
    held (schema.told ms record) name = (said? ms name).or (held record name) := by
  induction ms generalizing seen record with
  | nil => rfl
  | cons m ms ih =>
    obtain ⟨other, said⟩ := m
    rw [once_cons] at honce
    rw [Schema.told, ih honce]
    by_cases heq : name = other
    · subst heq
      obtain ⟨field, hfield, hname, hfind⟩ := exists_field hn
      have hnone : said? ms name = none := by
        refine said?_eq_none honce hn ?_
        rw [remember, if_pos hn]
        exact List.mem_cons_self
      have hsaid : said? ((name, said) :: ms) name = said.map Number.toFloat := by
        rw [said?, List.lookup_cons_self]
        rfl
      rw [hnone, Option.none_or, hsaid, Schema.tell, hfind]
      cases said with
      | none => rfl
      | some n => exact (h.store field hfield n record name).trans (if_pos hname.symm)
    · have hsaid : said? ((other, said) :: ms) name = said? ms name := by
        have hne : (name == other) = false := by simpa using heq
        simp only [said?, List.lookup_cons, hne]
      have hkeeps : held (schema.tell other said record) name = held record name := by
        rw [Schema.tell]
        split
        · next field hfind =>
          have hother : field.name = other := of_decide_eq_true (List.find?_some hfind :)
          cases said with
          | none => rfl
          | some n =>
            have hstore := h.store field (List.mem_of_find?_eq_some hfind) n record name
            exact hstore.trans (if_neg fun hname => heq (hname.trans hother))
        · rfl
      rw [hsaid, hkeeps]

end Schema

end RadioGateway.Json
