import Mathlib.Data.List.Nodup
import RadioGateway.Proofs.Meanings

/-!
# What a document is read as

The grammar of documents with what each text stands for: containers are so many levels deep at most,
and a member that is named again takes its new value at its first place. The texts of a document are
read as it, and no other text is read. One way the reader follows the text; the other way what it
holds on its stack is what the text has still to close.
-/

namespace RadioGateway.Json

open RadioGateway.Text

variable {depth : Nat} {v whole : Value} {vs items : List Value} {name : String}
  {ms members : List (String × Value)} {text rest more : List UInt8}

-- ---------------------------------------------------------------------------
-- Members that are named again
-- ---------------------------------------------------------------------------

/-- Of all members that are given, every name stays at its first place with its last value. -/
structure Gathered (ms members : List (String × Value)) : Prop where
  names : members.map Prod.fst = (ms.map Prod.fst).eraseDups
  lookup : ∀ name, members.lookup name = ms.reverse.lookup name

/-- Members given one after the other to an object that has some. -/
def setMembers (ms members : List (String × Value)) : List (String × Value) :=
  ms.foldl (fun done m => setMember m.1 m.2 done) members

theorem lookup_member (name other : String) (v : Value) (members : List (String × Value)) :
    ((other, v) :: members).lookup name = if name = other then some v else members.lookup name := by
  by_cases h : name = other
  · rw [h, List.lookup_cons_self, if_pos rfl]
  · have hne : (name == other) = false := by simpa using h
    simp only [List.lookup_cons, hne, if_neg h]

theorem lookup_setMember (name : String) (v : Value) (members : List (String × Value))
    (other : String) : (setMember name v members).lookup other =
      if other = name then some v else members.lookup other := by
  induction members with
  | nil => exact lookup_member other name v []
  | cons m members ih =>
    obtain ⟨first, old⟩ := m
    by_cases hfirst : first = name
    · subst hfirst
      rw [setMember, if_pos rfl, lookup_member, lookup_member]
      split <;> rfl
    · rw [setMember, if_neg hfirst, lookup_member, lookup_member, ih]
      by_cases h : other = first
      · rw [if_pos h, if_pos h, if_neg fun hname => hfirst (h.symm.trans hname)]
      · rw [if_neg h, if_neg h]

theorem names_setMember (name : String) (v : Value) (members : List (String × Value)) :
    (setMember name v members).map Prod.fst =
      if name ∈ members.map Prod.fst then members.map Prod.fst
      else members.map Prod.fst ++ [name] := by
  by_cases hmem : name ∈ members.map Prod.fst
  · rw [if_pos hmem]
    induction members with
    | nil => cases hmem
    | cons m members ih =>
      obtain ⟨first, old⟩ := m
      by_cases hfirst : first = name
      · simp [setMember, hfirst]
      · have hlater : name ∈ members.map Prod.fst :=
          (List.mem_cons.mp hmem).resolve_left (Ne.symm hfirst)
        rw [setMember, if_neg hfirst, List.map_cons, List.map_cons, ih hlater]
  · rw [if_neg hmem, setMember_of_not_mem hmem, List.map_append]
    rfl

theorem lookup_setMembers (ms members : List (String × Value)) (name : String) :
    (setMembers ms members).lookup name = (ms.reverse.lookup name).or (members.lookup name) := by
  induction ms generalizing members with
  | nil => rfl
  | cons m ms ih =>
    obtain ⟨other, v⟩ := m
    rw [setMembers, List.foldl_cons, ← setMembers, ih, lookup_setMember, List.reverse_cons,
      List.lookup_append, Option.or_assoc, lookup_member]
    split <;> rfl

theorem eraseDups_added (name : String) (names later : List String) :
    let added := if name ∈ names then names else names ++ [name]
    added ++ (later.removeAll added).eraseDups =
      names ++ ((name :: later).removeAll names).eraseDups := by
  intro added
  by_cases hmem : name ∈ names
  · have hadded : added = names := if_pos hmem
    simp [hadded, List.removeAll, hmem]
  · have hadded : added = names ++ [name] := if_neg hmem
    have hlater : later.removeAll (names ++ [name]) =
        (later.removeAll names).filter fun other => !other == name := by
      rw [List.removeAll, List.removeAll, List.filter_filter]
      refine List.filter_congr fun other _ => ?_
      by_cases hother : other = name <;> simp [hother]
    have hfirst : (name :: later).removeAll names = name :: later.removeAll names := by
      simp [List.removeAll, hmem]
    rw [hadded, hfirst, List.eraseDups_cons, hlater]
    simp

/-- Names that are there already are not added, and of the others each is added once. -/
theorem names_setMembers (ms members : List (String × Value)) :
    (setMembers ms members).map Prod.fst = members.map Prod.fst ++
      ((ms.map Prod.fst).removeAll (members.map Prod.fst)).eraseDups := by
  induction ms generalizing members with
  | nil => simp [setMembers]
  | cons m ms ih =>
    rw [setMembers, List.foldl_cons, ← setMembers, ih, names_setMember]
    exact eraseDups_added m.1 _ _

theorem nodup_setMembers {members : List (String × Value)} (h : (members.map Prod.fst).Nodup)
    (ms : List (String × Value)) : ((setMembers ms members).map Prod.fst).Nodup := by
  induction ms generalizing members with
  | nil => exact h
  | cons m ms ih =>
    refine ih ?_
    rw [names_setMember]
    split
    · exact h
    · next hmem =>
      refine List.Nodup.append h (List.pairwise_singleton _ _) ?_
      exact List.disjoint_singleton.mpr hmem

theorem gathered_setMembers (ms : List (String × Value)) : Gathered ms (setMembers ms []) where
  names := by
    rw [names_setMembers]
    simp [List.removeAll]
  lookup name := by
    rw [lookup_setMembers]
    exact Option.or_none

/-- Members are known by their names in order and what each name holds. -/
theorem eq_of_lookup {ms members : List (String × Value)} (hn : (members.map Prod.fst).Nodup)
    (hnames : ms.map Prod.fst = members.map Prod.fst)
    (h : ∀ name, ms.lookup name = members.lookup name) : ms = members := by
  induction members generalizing ms with
  | nil => exact List.map_eq_nil_iff.mp hnames
  | cons m members ih =>
    cases ms with
    | nil => cases hnames
    | cons m' ms =>
      obtain ⟨name, v⟩ := m
      obtain ⟨name', v'⟩ := m'
      obtain ⟨rfl, hrest⟩ : name' = name ∧ ms.map Prod.fst = members.map Prod.fst :=
        List.cons.inj hnames
      obtain ⟨hfirst, hn⟩ := List.nodup_cons.mp hn
      have hv : v' = v := by simpa [lookup_member] using h name'
      have hlater (other : String) : ms.lookup other = members.lookup other := by
        by_cases hother : other = name'
        · subst hother
          rw [lookup_of_not_mem hfirst, lookup_of_not_mem (hrest ▸ hfirst)]
        · simpa [lookup_member, hother] using h other
      rw [hv, ih hn hrest hlater]

theorem Gathered.eq_setMembers (h : Gathered ms members) : members = setMembers ms [] := by
  obtain ⟨hnames, hlookup⟩ := gathered_setMembers ms
  exact eq_of_lookup (@nodup_setMembers [] List.nodup_nil ms)
    (h.names.trans hnames.symm) fun name =>
    (h.lookup name).trans (hlookup name).symm

-- ---------------------------------------------------------------------------
-- The grammar
-- ---------------------------------------------------------------------------

/-- What a part of a document stands for. -/
inductive Sense where
  | value (v : Value)
  | item (v : Value)
  | items (vs : List Value)
  | member (name : String) (v : Value)
  | members (ms : List (String × Value))

/-- The texts of a part, with containers `depth` levels deep at most. -/
inductive SenseOf : Nat → Sense → List UInt8 → Prop
  | null {depth : Nat} : SenseOf depth (.value .null) (Utf8.ofString "null")
  | bool {depth : Nat} (b : Bool) :
      SenseOf depth (.value (.bool b)) (Utf8.ofString (if b then "true" else "false"))
  | number {depth : Nat} {n : Number} {text : List UInt8} (h : NumberOf n text) :
      SenseOf depth (.value n.toValue) text
  | string {depth : Nat} {s : String} {text : List UInt8} (h : NameText s text) :
      SenseOf depth (.value (.string s)) (quote :: (text ++ [quote]))
  | emptyArray {depth : Nat} {blank : List UInt8} (hb : Blank blank) :
      SenseOf (depth + 1) (.value (.array [])) (openBracket :: (blank ++ [closeBracket]))
  | array {depth : Nat} {vs : List Value} {text : List UInt8} (h : SenseOf depth (.items vs) text) :
      SenseOf (depth + 1) (.value (.array vs)) (openBracket :: (text ++ [closeBracket]))
  | emptyObject {depth : Nat} {blank : List UInt8} (hb : Blank blank) :
      SenseOf (depth + 1) (.value (.object [])) (openBrace :: (blank ++ [closeBrace]))
  | object {depth : Nat} {ms members : List (String × Value)} {text : List UInt8}
      (h : SenseOf depth (.members ms) text) (hm : Gathered ms members) :
      SenseOf (depth + 1) (.value (.object members)) (openBrace :: (text ++ [closeBrace]))
  | item {depth : Nat} {v : Value} {before text after : List UInt8} (hb : Blank before)
      (h : SenseOf depth (.value v) text) (ha : Blank after) :
      SenseOf depth (.item v) (before ++ (text ++ after))
  | lastItem {depth : Nat} {v : Value} {text : List UInt8} (h : SenseOf depth (.item v) text) :
      SenseOf depth (.items [v]) text
  | items {depth : Nat} {v : Value} {vs : List Value} {text more : List UInt8}
      (h : SenseOf depth (.item v) text) (hs : SenseOf depth (.items vs) more) :
      SenseOf depth (.items (v :: vs)) (text ++ comma :: more)
  | member {depth : Nat} {name : String} {v : Value} {before key between text : List UInt8}
      (hb : Blank before) (hk : NameText name key) (hc : Blank between)
      (h : SenseOf depth (.item v) text) :
      SenseOf depth (.member name v)
        (before ++ quote :: (key ++ quote :: (between ++ colon :: text)))
  | lastMember {depth : Nat} {name : String} {v : Value} {text : List UInt8}
      (h : SenseOf depth (.member name v) text) : SenseOf depth (.members [(name, v)]) text
  | members {depth : Nat} {name : String} {v : Value} {ms : List (String × Value)}
      {text more : List UInt8} (h : SenseOf depth (.member name v) text)
      (hs : SenseOf depth (.members ms) more) :
      SenseOf depth (.members ((name, v) :: ms)) (text ++ comma :: more)

/-- A text of a document. -/
def DocumentText (v : Value) (text : List UInt8) : Prop := SenseOf 127 (.item v) text

def Sense.part : Sense → Part
  | .value _ => .value
  | .item _ => .item
  | .items _ => .items
  | .member _ _ => .member
  | .members _ => .members

theorem StringText.append {front : List UInt8} (h : ∀ b ∈ front, Plain b) (hs : StringText text) :
    StringText (front ++ text) := by
  induction front with
  | nil => exact hs
  | cons b front ih =>
    obtain ⟨hb, h⟩ := List.forall_mem_cons.mp h
    exact .plain hb (ih h)

theorem OctetsText.stringText {octets : List UInt8} (h : OctetsText octets text) :
    StringText text := by
  induction h with
  | nil => exact .nil
  | plain h _ ih => exact .plain h ih
  | char h _ ih =>
    cases h with
    | plain hc hq hb => exact .append (plain_utf8EncodeChar hc hq hb) ih
    | short h => exact .short h ih
    | unit h => exact .unit h ih
    | pair hc hh hl =>
      have hpair := StringText.unit hh (.unit hl ih)
      simpa using hpair

/-- Whatever can be read can be passed over. -/
theorem SenseOf.textOf {s : Sense} (h : SenseOf depth s text) : TextOf s.part text := by
  induction h with
  | null => exact .null
  | bool b =>
    cases b with
    | true => exact .true
    | false => exact .false
  | number h => exact .number h.numberText
  | string h => exact .string h.stringText
  | emptyArray hb => exact .emptyArray hb
  | array _ ih => exact .array ih
  | emptyObject hb => exact .emptyObject hb
  | object _ _ ih => exact .object ih
  | item hb _ ha ih => exact .item hb ih ha
  | lastItem _ ih => exact .lastItem ih
  | items _ _ ih ihs => exact .items ih ihs
  | member hb hk hc _ ih => exact .member hb hk.stringText hc ih
  | lastMember _ ih => exact .lastMember ih
  | members _ _ ih ihs => exact .members ih ihs

-- ---------------------------------------------------------------------------
-- Every text is read
-- ---------------------------------------------------------------------------

/-- A key and its colon are in front of the text, before `after`. -/
structure Keyed (name : String) (text after : List UInt8) : Prop where
  first : ∃ tail, firstKey text = .ok (some name, tail) ∧ memberColon tail = .ok after
  next : ∃ tail, nextKey (comma :: text) = .ok (some name, tail) ∧ memberColon tail = .ok after

theorem keyed {before key between : List UInt8} (hb : Blank before) (hk : NameText name key)
    (hc : Blank between) (rest : List UInt8) :
    Keyed name (before ++ quote :: (key ++ quote :: (between ++ colon :: rest))) rest :=
  ⟨⟨_, firstKey_quote hb hk _, memberColon_blank hc rest⟩,
    ⟨_, nextKey_comma hb hk _, memberColon_blank hc rest⟩⟩

/-- What it takes to be found. Inside a container the white space behind an item is passed over,
too; a member has its key read before its value is looked for. -/
def Sense.Found (depth : Nat) : Sense → List UInt8 → Prop
  | .value v, text => ∀ stack rest, stack.length + depth < depthLimit → Stops rest →
    readLoop stack none (text ++ rest) = readLoop stack (some v) rest
  | .item v, text => ∀ frame outer rest, outer.length + 1 + depth < depthLimit → Stops rest →
    readLoop (frame :: outer) none (text ++ rest) = readLoop (frame :: outer) (some v) rest
  | .items vs, text => ∀ done outer rest, outer.length + 1 + depth < depthLimit →
    readLoop (.array done :: outer) none (text ++ closeBracket :: rest) =
      readLoop outer (some (.array (done.reverse ++ vs))) rest
  | .member name v, text => ∀ rest, Stops rest → ∃ after, Keyed name (text ++ rest) after ∧
    ∀ done outer, outer.length + 1 + depth < depthLimit →
      readLoop (.object done name :: outer) none after =
        readLoop (.object done name :: outer) (some v) rest
  | .members ms, text => ∀ rest, ∃ name after, Keyed name (text ++ closeBrace :: rest) after ∧
    ∀ done outer, outer.length + 1 + depth < depthLimit →
      readLoop (.object done name :: outer) none after =
        readLoop outer (some (.object (setMembers ms done))) rest

theorem start_bracket (hd : depth + 1 < depthLimit) (rest : List UInt8) :
    start depth (openBracket :: rest) = .ok (.array, rest) := by
  have hskip : skipSpace (openBracket :: rest) = openBracket :: rest := rfl
  simp only [start, hskip, if_true, if_pos hd]

theorem start_brace (hd : depth + 1 < depthLimit) (rest : List UInt8) :
    start depth (openBrace :: rest) = .ok (.object, rest) := by
  have hskip : skipSpace (openBrace :: rest) = openBrace :: rest := rfl
  have hbracket : (openBrace : UInt8) ≠ openBracket := by decide
  simp only [start, hskip, if_neg hbracket, if_true, if_pos hd]

/-- White space behind a value makes no difference inside a container. -/
theorem readLoop_blank {blank : List UInt8} (hb : Blank blank) (frame : Frame) (outer : List Frame)
    (v : Value) (rest : List UInt8) :
    readLoop (frame :: outer) (some v) (blank ++ rest) =
      readLoop (frame :: outer) (some v) rest := by
  have hitem : nextItem (blank ++ rest) = nextItem rest := by
    simp only [nextItem, skipSpace_blank hb]
  have hkey := nextKey_blank hb rest
  cases frame with
  | array items =>
    rw [readLoop, readLoop]
    grind
  | object members key =>
    rw [readLoop, readLoop]
    grind

theorem Sense.found_array (h : TextOf .items text) (ih : (Sense.items vs).Found depth text) :
    (Sense.value (.array vs)).Found (depth + 1) (openBracket :: (text ++ [closeBracket])) := by
  intro stack rest hd _
  obtain ⟨b, tail, hb, -, hskip⟩ := h.opens
  have hstart : start stack.length (openBracket :: (text ++ closeBracket :: rest)) =
      .ok (.array, text ++ closeBracket :: rest) := start_bracket (by omega) _
  rw [List.cons_append, List.append_assoc, List.singleton_append,
    readLoop_openArray hstart (hskip _) hb, ← hskip, readLoop_skipSpace,
    ih [] stack rest (by omega)]
  rfl

theorem Sense.found_object (hm : Gathered ms members) (ih : (Sense.members ms).Found depth text) :
    (Sense.value (.object members)).Found (depth + 1) (openBrace :: (text ++ [closeBrace])) := by
  intro stack rest hd _
  obtain ⟨name, after, ⟨⟨tail, hkey, hcolon⟩, -⟩, hrest⟩ := ih rest
  have hstart : start stack.length (openBrace :: (text ++ closeBrace :: rest)) =
      .ok (.object, text ++ closeBrace :: rest) := start_brace (by omega) _
  rw [List.cons_append, List.append_assoc, List.singleton_append,
    readLoop_openObject hstart hkey hcolon, hrest [] stack (by omega), hm.eq_setMembers]

/-- Whatever the grammar allows is found. -/
theorem SenseOf.found {s : Sense} (h : SenseOf depth s text) : s.Found depth text := by
  induction h with
  | null => exact fun _ rest _ hr => readLoop_whole (reads_null.starts _ rest hr)
  | bool b => exact fun _ rest _ hr => readLoop_whole ((reads_bool b).starts _ rest hr)
  | number h =>
    have hreads := reads_number rfl h.numberText.opens fun rest hr => h.reads hr
    exact fun _ rest _ hr => readLoop_whole (hreads.starts _ rest hr)
  | @string _ s text h =>
    intro stack rest _ _
    have hread : Json.string (text ++ [quote] ++ rest) = .ok (s, rest) := by
      rw [List.append_assoc]
      exact string_nameText h rest
    exact readLoop_whole (start_quote hread)
  | @emptyArray _ blank hb =>
    intro stack rest hd _
    have hclose : skipSpace (blank ++ [closeBracket] ++ rest) = closeBracket :: rest := by
      rw [List.append_assoc]
      exact skipSpace_mark hb (by decide) rest
    exact readLoop_emptyArray (start_bracket (by omega) _) hclose
  | @emptyObject _ blank hb =>
    intro stack rest hd _
    have hclose : firstKey (blank ++ [closeBrace] ++ rest) = .ok (none, rest) := by
      rw [List.append_assoc]
      exact firstKey_close hb rest
    exact readLoop_emptyObject (start_brace (by omega) _) hclose
  | array h ih => exact Sense.found_array h.textOf ih
  | object h hm ih => exact Sense.found_object hm ih
  | @item _ v before text after hb _ ha ih =>
    intro frame outer rest hd hr
    rw [← readLoop_skipSpace, List.append_assoc, skipSpace_blank hb, readLoop_skipSpace,
      List.append_assoc, ih (frame :: outer) _ hd (stops_blank ha hr), readLoop_blank ha]
  | lastItem _ ih =>
    intro done outer rest hd
    rw [ih _ _ _ hd (stops_cons (.inr (.inl rfl)) rest), readLoop_closeArray rfl,
      List.reverse_cons]
  | @items _ v vs text more _ hs ih ihs =>
    intro done outer rest hd
    have hnext : nextItem (comma :: (more ++ closeBracket :: rest)) =
        .ok (true, skipSpace (more ++ closeBracket :: rest)) :=
      nextItem_part blank_nil hs.textOf _
    rw [List.append_assoc, List.cons_append, ih _ _ _ hd (stops_cons (.inl rfl) _),
      readLoop_nextItem hnext, readLoop_skipSpace, ihs _ _ _ hd, List.reverse_cons,
      List.append_assoc]
    rfl
  | @member _ name v before key between text hb hk hc _ ih =>
    intro rest hr
    refine ⟨text ++ rest, ?_, fun done outer hd => ih _ outer rest hd hr⟩
    simpa using keyed hb hk hc (text ++ rest)
  | @lastMember _ name v text _ ih =>
    intro rest
    obtain ⟨after, hkey, hvalue⟩ := ih _ (stops_cons (.inr (.inr rfl)) rest)
    exact ⟨name, after, hkey, fun done outer hd =>
      (hvalue done outer hd).trans (readLoop_closeObject rfl)⟩
  | @members _ name v ms text more _ _ ih ihs =>
    intro rest
    obtain ⟨after, hkey, hvalue⟩ := ih _ (stops_cons (.inl rfl) (more ++ closeBrace :: rest))
    obtain ⟨next, later, ⟨-, tail, hnext, hcolon⟩, hrest⟩ := ihs rest
    refine ⟨name, after, by simpa using hkey, fun done outer hd => ?_⟩
    rw [hvalue done outer hd, readLoop_nextMember hnext hcolon, hrest _ outer hd]
    rfl

-- ---------------------------------------------------------------------------
-- No other text is read
-- ---------------------------------------------------------------------------

/-- A value with white space before it. -/
inductive LedValue (depth : Nat) (v : Value) : List UInt8 → Prop
  | of {before text : List UInt8} (hb : Blank before) (h : SenseOf depth (.value v) text) :
      LedValue depth v (before ++ text)

/-- The key of a member up to its colon. -/
inductive KeyOf (name : String) : List UInt8 → Prop
  | of {before key between : List UInt8} (hb : Blank before) (hk : NameText name key)
      (hc : Blank between) : KeyOf name (before ++ quote :: (key ++ quote :: (between ++ [colon])))

theorem LedValue.blank {blank : List UInt8} (hb : Blank blank) (h : LedValue depth v text) :
    LedValue depth v (blank ++ text) := by
  cases h with
  | of hbefore h => simpa using LedValue.of (blank_append hb hbefore) h

theorem LedValue.item {blank : List UInt8} (h : LedValue depth v text) (hb : Blank blank) :
    SenseOf depth (.item v) (text ++ blank) := by
  cases h with
  | of hbefore h => simpa using SenseOf.item hbefore h hb

theorem KeyOf.member {item : List UInt8} (h : KeyOf name text) (hi : SenseOf depth (.item v) item) :
    SenseOf depth (.member name v) (text ++ item) := by
  cases h with
  | of hb hk hc => simpa using SenseOf.member hb hk hc hi

/-- What stands between an item and the end of its array, with the items in it. -/
inductive AfterItem (depth : Nat) : List Value → List UInt8 → Prop
  | nothing {blank : List UInt8} (hb : Blank blank) : AfterItem depth [] blank
  | more {v : Value} {vs : List Value} {blank value tail : List UInt8} (hb : Blank blank)
      (h : LedValue depth v value) (ht : AfterItem depth vs tail) :
      AfterItem depth (v :: vs) (blank ++ comma :: (value ++ tail))

/-- What stands between a member and the end of its object, with the members in it. -/
inductive AfterMember (depth : Nat) : List (String × Value) → List UInt8 → Prop
  | nothing {blank : List UInt8} (hb : Blank blank) : AfterMember depth [] blank
  | more {name : String} {v : Value} {ms : List (String × Value)}
      {blank key value tail : List UInt8} (hb : Blank blank) (hk : KeyOf name key)
      (h : LedValue depth v value) (ht : AfterMember depth ms tail) :
      AfterMember depth ((name, v) :: ms) (blank ++ comma :: (key ++ (value ++ tail)))

theorem AfterItem.items_of_led {value tail : List UInt8} (h : AfterItem depth vs tail)
    (hv : LedValue depth v value) : SenseOf depth (.items (v :: vs)) (value ++ tail) := by
  induction h generalizing v value with
  | nothing hb => exact .lastItem (hv.item hb)
  | more hb h _ ih => simpa using SenseOf.items (hv.item hb) (ih h)

theorem AfterMember.members_of_led {key value tail : List UInt8} (h : AfterMember depth ms tail)
    (hk : KeyOf name key) (hv : LedValue depth v value) :
    SenseOf depth (.members ((name, v) :: ms)) (key ++ (value ++ tail)) := by
  induction h generalizing name v key value with
  | nothing hb => exact .lastMember (hk.member (hv.item hb))
  | more hb hk' h _ ih => simpa using SenseOf.members (hk.member (hv.item hb)) (ih hk' h)

/-- What is read in a round that looks for a value, `depth` levels deep. -/
inductive StartText (depth : Nat) : Start → List UInt8 → Prop
  | whole {v : Value} {text : List UInt8} (h : ∀ room, LedValue room v text) :
      StartText depth (.whole v) text
  | array {before : List UInt8} (hd : depth + 1 < depthLimit) (hb : Blank before) :
      StartText depth .array (before ++ [openBracket])
  | object {before : List UInt8} (hd : depth + 1 < depthLimit) (hb : Blank before) :
      StartText depth .object (before ++ [openBrace])

theorem exists_startText {s : Start} (h : start depth text = .ok (s, rest)) :
    ∃ t, StartText depth s t ∧ text = t ++ rest := by
  unfold start at h
  split at h
  · cases h
  next b after hstart =>
  obtain ⟨before, hbefore, htext⟩ := exists_blank hstart
  have hwhole {v : Value} {t rest : List UInt8} (ht : ∀ room, SenseOf room (.value v) t)
      (hcons : b :: after = t ++ rest) : ∃ t, StartText depth (.whole v) t ∧ text = t ++ rest :=
    ⟨before ++ t, .whole fun room => .of hbefore (ht room), by rw [htext, hcons, List.append_assoc]⟩
  have hword {first : UInt8} {tail : List UInt8} {v : Value} (hb : b = first)
      (ht : ∀ room, SenseOf room (.value v) (first :: tail))
      (h : ((word tail after).map fun rest => (Start.whole v, rest)) = .ok (s, rest)) :
      ∃ t, StartText depth s t ∧ text = t ++ rest := by
    cases hw : word tail after with
    | error f => simp [hw, Except.map] at h
    | ok more =>
      simp only [hw, Except.map, Except.ok.injEq, Prod.mk.injEq] at h
      obtain ⟨rfl, rfl⟩ := h
      exact hwhole ht (by rw [hb, eq_append_of_word hw, List.cons_append])
  split at h
  · next hopen =>
    split at h
    · next hd =>
      cases h
      exact ⟨_, .array hd hbefore, by rw [htext, hopen]; simp⟩
    · cases h
  split at h
  · next hopen =>
    split at h
    · next hd =>
      cases h
      exact ⟨_, .object hd hbefore, by rw [htext, hopen]; simp⟩
    · cases h
  split at h
  · next hquote =>
    cases hs : string after with
    | error f => simp [hs, Except.map] at h
    | ok p =>
      obtain ⟨name, more⟩ := p
      simp only [hs, Except.map, Except.ok.injEq, Prod.mk.injEq] at h
      obtain ⟨rfl, rfl⟩ := h
      obtain ⟨t, ht, rfl⟩ := exists_nameText hs
      exact hwhole (fun _ => .string ht) (by rw [hquote]; simp)
  split at h
  · cases hn : number (b :: after) with
    | error f => simp [hn, Except.map] at h
    | ok p =>
      obtain ⟨n, more⟩ := p
      simp only [hn, Except.map, Except.ok.injEq, Prod.mk.injEq] at h
      obtain ⟨rfl, rfl⟩ := h
      obtain ⟨t, ht, hcons⟩ := exists_numberOf hn
      exact hwhole (fun _ => .number ht) hcons
  split at h
  · next hb => exact hword hb (fun _ => .null) h
  split at h
  · next hb => exact hword hb (fun _ => .bool true) h
  split at h
  · next hb => exact hword hb (fun _ => .bool false) h
  · cases h

/-- How many more levels deep containers can be inside so many that are open. -/
def room (level : Nat) : Nat := depthLimit - 1 - level

theorem room_open {level : Nat} (hd : level + 1 < depthLimit) :
    room level = room (level + 1) + 1 := by
  unfold room
  omega

/-- With `v` found before the text the open containers come to `whole` before `rest`: the text
closes each, and what it comes to is found in the one around it. -/
def Completes : List Frame → Value → List UInt8 → Value → List UInt8 → Prop
  | [], v, text, whole, rest => v = whole ∧ text = rest
  | .array items :: outer, v, text, whole, rest =>
    ∃ vs tail more, AfterItem (room (outer.length + 1)) vs tail ∧
      text = tail ++ closeBracket :: more ∧
      Completes outer (.array ((v :: items).reverse ++ vs)) more whole rest
  | .object members name :: outer, v, text, whole, rest =>
    ∃ ms tail more, AfterMember (room (outer.length + 1)) ms tail ∧
      text = tail ++ closeBrace :: more ∧
      Completes outer (.object (setMembers ((name, v) :: ms) members)) more whole rest

/-- As `Completes`, where the value may be yet to come. -/
def Comes (stack : List Frame) (found : Option Value) (text : List UInt8) (whole : Value)
    (rest : List UInt8) : Prop :=
  match found with
  | some v => Completes stack v text whole rest
  | none => ∃ v value more, LedValue (room stack.length) v value ∧ text = value ++ more ∧
    Completes stack v more whole rest

section Rounds

variable {stack outer : List Frame} {after : List UInt8} {next : String}

theorem comes_whole (hstart : start stack.length text = .ok (.whole v, more))
    (h : Completes stack v more whole rest) : Comes stack none text whole rest := by
  obtain ⟨t, ht, rfl⟩ := exists_startText hstart
  cases ht with
  | whole hv => exact ⟨v, t, more, hv _, rfl, h⟩

theorem comes_emptyArray (hstart : start stack.length text = .ok (.array, more))
    (hclose : skipSpace more = closeBracket :: after)
    (h : Completes stack (.array []) after whole rest) : Comes stack none text whole rest := by
  obtain ⟨t, ht, rfl⟩ := exists_startText hstart
  obtain ⟨blank, hb, rfl⟩ := exists_blank hclose
  cases ht with
  | array hd hbefore =>
    have harray : SenseOf (room (stack.length + 1) + 1) (.value (.array [])) _ := .emptyArray hb
    refine ⟨_, _, after, .of hbefore (room_open hd ▸ harray), ?_, h⟩
    simp

theorem comes_openArray (hstart : start stack.length text = .ok (.array, more))
    (hskip : skipSpace more = after) (h : Comes (.array [] :: stack) none after whole rest) :
    Comes stack none text whole rest := by
  obtain ⟨t, ht, rfl⟩ := exists_startText hstart
  obtain ⟨blank, hb, rfl⟩ := exists_blank hskip
  obtain ⟨v, value, _, hv, rfl, vs, tail, outside, ha, rfl, hc⟩ := h
  cases ht with
  | array hd hbefore =>
    have harray := SenseOf.array (ha.items_of_led (hv.blank hb))
    refine ⟨_, _, outside, .of hbefore (room_open hd ▸ harray), ?_, hc⟩
    simp

theorem comes_emptyObject (hstart : start stack.length text = .ok (.object, more))
    (hkey : firstKey more = .ok (none, after)) (h : Completes stack (.object []) after whole rest) :
    Comes stack none text whole rest := by
  obtain ⟨t, ht, rfl⟩ := exists_startText hstart
  obtain ⟨blank, hb, ⟨-, rfl⟩ | ⟨_, _, hsome, -⟩⟩ := exists_firstKey hkey
  · cases ht with
    | object hd hbefore =>
      have hobject : SenseOf (room (stack.length + 1) + 1) (.value (.object [])) _ :=
        .emptyObject hb
      refine ⟨_, _, after, .of hbefore (room_open hd ▸ hobject), ?_, h⟩
      simp
  · cases hsome

theorem comes_openObject {tail : List UInt8}
    (hstart : start stack.length text = .ok (.object, more))
    (hkey : firstKey more = .ok (some name, tail)) (hcolon : memberColon tail = .ok after)
    (h : Comes (.object [] name :: stack) none after whole rest) :
    Comes stack none text whole rest := by
  obtain ⟨t, ht, rfl⟩ := exists_startText hstart
  obtain ⟨blank, hb, ⟨hnone, -⟩ | ⟨_, key, hsome, hk, rfl⟩⟩ := exists_firstKey hkey
  · cases hnone
  obtain rfl := Option.some.inj hsome
  obtain ⟨between, hbetween, rfl⟩ := exists_memberColon hcolon
  obtain ⟨v, value, _, hv, rfl, ms, tail, outside, ha, rfl, hc⟩ := h
  cases ht with
  | object hd hbefore =>
    have hobject := SenseOf.object (ha.members_of_led (.of hb hk hbetween) hv)
      (gathered_setMembers _)
    refine ⟨_, _, outside, .of hbefore (room_open hd ▸ hobject), ?_, hc⟩
    simp

theorem completes_nextItem {items : List Value} (hnext : nextItem text = .ok (true, more))
    (h : Comes (.array (v :: items) :: outer) none more whole rest) :
    Completes (.array items :: outer) v text whole rest := by
  obtain ⟨blank, before, hb, hbefore, rfl⟩ := exists_nextItem hnext
  obtain ⟨w, value, _, hw, rfl, vs, tail, outside, ha, rfl, hc⟩ := h
  refine ⟨w :: vs, _, outside, .more hb (hw.blank hbefore) ha, by simp, ?_⟩
  simpa using hc

theorem completes_nextMember {members : List (String × Value)} {tail : List UInt8}
    (hnext : nextKey text = .ok (some next, tail)) (hcolon : memberColon tail = .ok after)
    (h : Comes (.object (setMember name v members) next :: outer) none after whole rest) :
    Completes (.object members name :: outer) v text whole rest := by
  obtain ⟨blank, hb, ⟨hnone, -⟩ | ⟨_, before, key, hsome, hbefore, hk, rfl⟩⟩ := exists_nextKey hnext
  · cases hnone
  obtain rfl := Option.some.inj hsome
  obtain ⟨between, hbetween, rfl⟩ := exists_memberColon hcolon
  obtain ⟨w, value, _, hw, rfl, ms, tail, outside, ha, rfl, hc⟩ := h
  exact ⟨(_, w) :: ms, _, outside, .more hb (.of hbefore hk hbetween) hw ha, by simp, hc⟩

/-- The induction is on the rounds: what comes later closes the containers that are open. -/
theorem comes_of_readLoop {found : Option Value}
    (h : readLoop stack found text = .ok (whole, rest)) : Comes stack found text whole rest := by
  fun_induction readLoop stack found text with
  | case1 | case3 | case6 | case8 | case11 | case14 | case16 => cases h
  | case2 stack text v more hstart ih => exact comes_whole hstart (ih h)
  | case4 stack text more hstart after hclose ih => exact comes_emptyArray hstart hclose (ih h)
  | case5 stack text more hstart b after hskip _ ih => exact comes_openArray hstart hskip (ih h)
  | case7 stack text more hstart after hkey ih => exact comes_emptyObject hstart hkey (ih h)
  | case9 stack text more hstart name tail hkey after hcolon ih =>
    exact comes_openObject hstart hkey hcolon (ih h)
  | case10 text v => exact Prod.mk.inj (Except.ok.inj h)
  | case12 text v items outer more hnext ih =>
    obtain ⟨blank, hb, rfl⟩ := exists_lastItem hnext
    have hc : Completes outer (.array (v :: items).reverse) more whole rest := ih h
    exact ⟨[], blank, more, .nothing hb, rfl, by simpa using hc⟩
  | case13 text v items outer more hnext ih => exact completes_nextItem hnext (ih h)
  | case15 text v members name outer more hnext ih =>
    obtain ⟨blank, hb, ⟨-, rfl⟩ | ⟨_, _, _, hsome, -⟩⟩ := exists_nextKey hnext
    · exact ⟨[], blank, more, .nothing hb, rfl, ih h⟩
    · cases hsome
  | case17 text v members name outer next tail hnext after hcolon ih =>
    exact completes_nextMember hnext hcolon (ih h)

end Rounds

-- ---------------------------------------------------------------------------
-- Whole texts
-- ---------------------------------------------------------------------------

/-- What is read as a document are its texts. -/
theorem read_eq_ok_iff : read text = .ok v ↔ DocumentText v text := by
  rw [read, mapError_eq_ok, bind_finish_eq_ok]
  constructor
  · rintro ⟨rest, hread, hr⟩
    obtain ⟨w, value, more, hw, rfl, rfl, rfl⟩ := comes_of_readLoop hread
    exact hw.item hr
  · intro h
    cases h with
    | @item _ v before text after hb h ha =>
      refine ⟨after, ?_, ha⟩
      rw [← readLoop_skipSpace, skipSpace_blank hb, readLoop_skipSpace,
        h.found [] after (by decide) (stops_of_blank ha), readLoop]

end RadioGateway.Json
