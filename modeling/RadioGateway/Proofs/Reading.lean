import Mathlib.Data.List.DropRight
import RadioGateway.Proofs.Scanning

/-!
# Reading a document back

Any row of tokens that spells a document is read as that document. The reader keeps the open
containers on a stack; a value is found with the same stack that it was looked for with, and by
induction over the document what was looked for is what is found.
-/

namespace RadioGateway.Json

open RadioGateway.Text

-- ---------------------------------------------------------------------------
-- Rounds of the reader
-- ---------------------------------------------------------------------------

section Rounds

variable {stack outer : List Frame} {text rest after : List UInt8} {v : Value} {items : List Value}
  {members : List (String × Value)} {key next : String} {b : UInt8}

theorem readLoop_whole (h : start stack.length text = .ok (.whole v, rest)) :
    readLoop stack none text = readLoop stack (some v) rest := by
  conv_lhs => rw [readLoop]
  grind

theorem readLoop_emptyArray (h : start stack.length text = .ok (.array, rest))
    (hs : skipSpace rest = closeBracket :: after) :
    readLoop stack none text = readLoop stack (some (.array [])) after := by
  rw [readLoop]
  grind

theorem readLoop_openArray (h : start stack.length text = .ok (.array, rest))
    (hs : skipSpace rest = b :: after) (hb : b ≠ closeBracket) :
    readLoop stack none text = readLoop (.array [] :: stack) none (b :: after) := by
  rw [readLoop]
  grind

theorem readLoop_emptyObject (h : start stack.length text = .ok (.object, rest))
    (hk : firstKey rest = .ok (none, after)) :
    readLoop stack none text = readLoop stack (some (.object [])) after := by
  rw [readLoop]
  grind

theorem readLoop_openObject (h : start stack.length text = .ok (.object, rest)) {more : List UInt8}
    (hk : firstKey rest = .ok (some key, more)) (hc : memberColon more = .ok after) :
    readLoop stack none text = readLoop (.object [] key :: stack) none after := by
  rw [readLoop]
  grind

theorem readLoop_closeArray (h : nextItem text = .ok (false, rest)) :
    readLoop (.array items :: outer) (some v) text =
      readLoop outer (some (.array (v :: items).reverse)) rest := by
  rw [readLoop]
  grind

theorem readLoop_nextItem (h : nextItem text = .ok (true, rest)) :
    readLoop (.array items :: outer) (some v) text = readLoop (.array (v :: items) :: outer)
      none rest := by
  conv_lhs => rw [readLoop]
  grind

theorem readLoop_closeObject (h : nextKey text = .ok (none, rest)) :
    readLoop (.object members key :: outer) (some v) text =
      readLoop outer (some (.object (setMember key v members))) rest := by
  rw [readLoop]
  grind

theorem readLoop_nextMember (h : nextKey text = .ok (some next, rest))
    (hc : memberColon rest = .ok after) : readLoop (.object members key :: outer) (some v) text =
      readLoop (.object (setMember key v members) next :: outer) none after := by
  conv_lhs => rw [readLoop]
  grind

theorem skipSpace_skipSpace (text : List UInt8) : skipSpace (skipSpace text) = skipSpace text :=
  List.dropWhile_idempotent _ text

theorem start_skipSpace (depth : Nat) (text : List UInt8) :
    start depth (skipSpace text) = start depth text := by
  simp only [start, skipSpace_skipSpace]

/-- White space before a value makes no difference. -/
theorem readLoop_skipSpace (stack : List Frame) (text : List UInt8) :
    readLoop stack none (skipSpace text) = readLoop stack none text := by
  have hstart := start_skipSpace stack.length text
  rw [readLoop, readLoop]
  grind

end Rounds

-- ---------------------------------------------------------------------------
-- Tokens in front
-- ---------------------------------------------------------------------------

theorem skipSpace_blank {blank : List UInt8} (hb : Blank blank) (rest : List UInt8) :
    skipSpace (blank ++ rest) = skipSpace rest := List.dropWhile_append_of_pos hb

theorem skipSpace_cons {b : UInt8} (hb : isSpace b = false) (rest : List UInt8) :
    skipSpace (b :: rest) = b :: rest := List.dropWhile_cons_of_neg (by simp [hb])

theorem skipSpace_mark {blank : List UInt8} {b : UInt8} (hblank : Blank blank)
    (hb : isSpace b = false) (rest : List UInt8) : skipSpace (blank ++ b :: rest) = b :: rest := by
  rw [skipSpace_blank hblank, skipSpace_cons hb]

/-- White space does not go on with a number. -/
theorem stops_blank {blank rest : List UInt8} (hb : Blank blank) (hr : Stops rest) :
    Stops (blank ++ rest) := by
  cases blank with
  | nil => exact hr
  | cons b blank =>
    intro c hc
    obtain rfl := Option.some.inj hc
    have hspace := hb b List.mem_cons_self
    simp only [isSpace, Bool.or_eq_true, beq_iff_eq] at hspace
    obtain ((rfl | rfl) | rfl) | rfl := hspace <;> decide

theorem stops_of_blank {blank : List UInt8} (hb : Blank blank) : Stops blank :=
  List.append_nil blank ▸ stops_blank hb nofun

theorem stops_cons {b : UInt8} (hb : b = comma ∨ b = closeBracket ∨ b = closeBrace)
    (rest : List UInt8) : Stops (b :: rest) := by
  intro c hc
  obtain rfl := Option.some.inj hc
  obtain rfl | rfl | rfl := hb <;> decide

section Front

variable {tokens : List Token} {text : List UInt8}

theorem Spaced.skip_nil (h : Spaced Reads [] text) : skipSpace text = [] := by
  cases h with
  | nil hb => exact List.dropWhile_eq_nil_iff.mpr hb

theorem Spaced.skip_mark {b : UInt8} (hb : isSpace b = false)
    (h : Spaced Reads (.mark b :: tokens) text) :
    ∃ rest, skipSpace text = b :: rest ∧ Spaced Reads tokens rest := by
  cases h with
  | mark hblank hr => exact ⟨_, skipSpace_mark hblank hb _, hr⟩

theorem Spaced.skip_atom {v : Value} (h : Spaced Reads (.atom v :: tokens) text) :
    ∃ t rest, Reads v t ∧ skipSpace text = t ++ rest ∧ Spaced Reads tokens rest := by
  cases h with
  | atom hblank ht hr =>
    obtain ⟨b, more, rfl, hb, -⟩ := ht.opens
    exact ⟨_, _, ht, skipSpace_mark hblank hb _, hr⟩

/-- A value does not begin like the end of a container. -/
theorem Spaced.skip_value {v : Value} (h : Spaced Reads (v.tokens ++ tokens) text) :
    ∃ b rest, skipSpace text = b :: rest ∧ b ≠ closeBracket ∧ b ≠ closeBrace := by
  have hatom {w : Value} {more : List Token} (h : Spaced Reads (.atom w :: more) text) :
      ∃ b rest, skipSpace text = b :: rest ∧ b ≠ closeBracket ∧ b ≠ closeBrace := by
    obtain ⟨t, rest, ht, hskip, -⟩ := h.skip_atom
    obtain ⟨b, more, rfl, -, hopen⟩ := ht.opens
    exact ⟨b, more ++ rest, hskip, hopen⟩
  cases v with
  | null | bool | integer | real | string => exact hatom h
  | array items =>
    obtain ⟨rest, hskip, -⟩ := Spaced.skip_mark (b := openBracket) rfl h
    exact ⟨_, rest, hskip, by decide, by decide⟩
  | object members =>
    obtain ⟨rest, hskip, -⟩ := Spaced.skip_mark (b := openBrace) rfl h
    exact ⟨_, rest, hskip, by decide, by decide⟩

/-- What can stand behind a value: nothing, a comma, or the end of a container. -/
def Ends (tokens : List Token) : Prop :=
  ∀ t ∈ tokens.head?, t = .mark comma ∨ t = .mark closeBracket ∨ t = .mark closeBrace

theorem Spaced.stops (h : Spaced Reads tokens text) (hends : Ends tokens) : Stops text := by
  cases h with
  | nil hb => exact stops_of_blank hb
  | @mark _ rest b tokens hb hr =>
    refine stops_blank hb (stops_cons ?_ rest)
    exact (hends _ rfl).imp Token.mark.inj (Or.imp Token.mark.inj Token.mark.inj)
  | atom => obtain h | h | h := hends _ rfl <;> cases h

theorem Spaced.start_atom {v : Value} (h : Spaced Reads (.atom v :: tokens) text)
    (hends : Ends tokens) (depth : Nat) : ∃ rest, start depth text = .ok (.whole v, rest) ∧
    Spaced Reads tokens rest := by
  obtain ⟨t, rest, ht, hskip, hr⟩ := h.skip_atom
  refine ⟨rest, ?_, hr⟩
  rw [← start_skipSpace, hskip]
  exact ht.starts depth rest (hr.stops hends)

theorem Spaced.start_array (h : Spaced Reads (.mark openBracket :: tokens) text) (depth : Nat)
    (hd : depth + 1 < depthLimit) :
    ∃ rest, start depth text = .ok (.array, rest) ∧ Spaced Reads tokens rest := by
  obtain ⟨rest, hskip, hr⟩ := Spaced.skip_mark rfl h
  refine ⟨rest, ?_, hr⟩
  simp only [start, hskip, if_true, if_pos hd]

theorem Spaced.start_object (h : Spaced Reads (.mark openBrace :: tokens) text) (depth : Nat)
    (hd : depth + 1 < depthLimit) :
    ∃ rest, start depth text = .ok (.object, rest) ∧ Spaced Reads tokens rest := by
  obtain ⟨rest, hskip, hr⟩ := Spaced.skip_mark rfl h
  refine ⟨rest, ?_, hr⟩
  have hbracket : (openBrace : UInt8) ≠ openBracket := by decide
  simp only [start, hskip, if_neg hbracket, if_true, if_pos hd]

/-- A name with nothing but white space before it. -/
theorem Spaced.memberKey {name : String} (h : Spaced Reads (.atom (.string name) :: tokens) text)
    (atEnd : Cause) : ∃ b more rest, skipSpace text = b :: more ∧ b ≠ closeBrace ∧
      memberKey atEnd (b :: more) = .ok (name, rest) ∧ Spaced Reads tokens rest := by
  obtain ⟨t, rest, ht, hskip, hr⟩ := h.skip_atom
  obtain ⟨more, rfl, hread⟩ := ht.key name rfl
  refine ⟨quote, more ++ rest, rest, hskip, by decide, ?_, hr⟩
  rw [Json.memberKey, if_pos rfl, hread]

theorem Spaced.firstKey {name : String} (h : Spaced Reads (.atom (.string name) :: tokens) text) :
    ∃ rest, firstKey text = .ok (some name, rest) ∧ Spaced Reads tokens rest := by
  obtain ⟨b, more, rest, hskip, hb, hkey, hr⟩ := h.memberKey .endOfObject
  refine ⟨rest, ?_, hr⟩
  simp only [Json.firstKey, hskip, if_neg hb, hkey]
  rfl

theorem Spaced.firstKey_close (h : Spaced Reads (.mark closeBrace :: tokens) text) :
    ∃ rest, Json.firstKey text = .ok (none, rest) ∧ Spaced Reads tokens rest := by
  obtain ⟨rest, hskip, hr⟩ := Spaced.skip_mark rfl h
  exact ⟨rest, by simp only [Json.firstKey, hskip, if_true], hr⟩

theorem Spaced.nextKey {name : String}
    (h : Spaced Reads (.mark comma :: .atom (.string name) :: tokens) text) :
    ∃ rest, nextKey text = .ok (some name, rest) ∧ Spaced Reads tokens rest := by
  obtain ⟨after, hcomma, h⟩ := Spaced.skip_mark rfl h
  obtain ⟨b, more, rest, hskip, hb, hkey, hr⟩ := h.memberKey .endOfValue
  refine ⟨rest, ?_, hr⟩
  have hbrace : (comma : UInt8) ≠ closeBrace := by decide
  simp only [Json.nextKey, hcomma, if_neg hbrace, ne_eq, not_true_eq_false,
    if_false, hskip, if_neg hb, hkey]
  rfl

theorem Spaced.nextKey_close (h : Spaced Reads (.mark closeBrace :: tokens) text) :
    ∃ rest, Json.nextKey text = .ok (none, rest) ∧ Spaced Reads tokens rest := by
  obtain ⟨rest, hskip, hr⟩ := Spaced.skip_mark rfl h
  exact ⟨rest, by simp only [Json.nextKey, hskip, if_true], hr⟩

theorem Spaced.memberColon (h : Spaced Reads (.mark colon :: tokens) text) :
    ∃ rest, memberColon text = .ok rest ∧ Spaced Reads tokens rest := by
  obtain ⟨rest, hskip, hr⟩ := Spaced.skip_mark rfl h
  exact ⟨rest, by simp only [Json.memberColon, hskip, if_true], hr⟩

theorem Spaced.nextItem {v : Value} (h : Spaced Reads (.mark comma :: (v.tokens ++ tokens)) text) :
    ∃ rest, nextItem text = .ok (true, skipSpace rest) ∧
    Spaced Reads (v.tokens ++ tokens) rest := by
  obtain ⟨rest, hcomma, hr⟩ := Spaced.skip_mark rfl h
  obtain ⟨b, more, hskip, hb, -⟩ := hr.skip_value
  refine ⟨rest, ?_, hr⟩
  have hbracket : (comma : UInt8) ≠ closeBracket := by decide
  simp only [Json.nextItem, hcomma, if_neg hbracket, ne_eq, not_true_eq_false,
    if_false, hskip, if_neg hb]

theorem Spaced.nextItem_close (h : Spaced Reads (.mark closeBracket :: tokens) text) :
    ∃ rest, Json.nextItem text = .ok (false, rest) ∧ Spaced Reads tokens rest := by
  obtain ⟨rest, hskip, hr⟩ := Spaced.skip_mark rfl h
  exact ⟨rest, by simp only [Json.nextItem, hskip, if_true], hr⟩

end Front

-- ---------------------------------------------------------------------------
-- Documents
-- ---------------------------------------------------------------------------

/-- Wherever the document is looked for, at most so deep inside others, it is found. -/
def Value.Found (depth : Nat) (v : Value) : Prop :=
  ∀ stack : List Frame, stack.length + depth < depthLimit →
    ∀ ⦃tokens : List Token⦄ ⦃text : List UInt8⦄, Ends tokens →
    Spaced Reads (v.tokens ++ tokens) text →
    ∃ rest, readLoop stack none text = readLoop stack (some v) rest ∧ Spaced Reads tokens rest

theorem ends_mark {b : UInt8} (hb : b = comma ∨ b = closeBracket ∨ b = closeBrace)
    (tokens : List Token) : Ends (.mark b :: tokens) := by
  intro t ht
  obtain rfl := Option.some.inj ht
  exact hb.imp (congrArg _) (Or.imp (congrArg _) (congrArg _))

section Containers

variable {depth : Nat} {stack : List Frame} {tokens : List Token} {text : List UInt8}

theorem ends_items (items : List Value) (tokens : List Token) :
    Ends (laterItems items ++ .mark closeBracket :: tokens) := by
  cases items with
  | nil => exact ends_mark (.inr (.inl rfl)) tokens
  | cons v items => exact ends_mark (.inl rfl) _

theorem ends_members (members : List (String × Value)) (tokens : List Token) :
    Ends (laterMembers members ++ .mark closeBrace :: tokens) := by
  cases members with
  | nil => exact ends_mark (.inr (.inr rfl)) tokens
  | cons m members => exact ends_mark (.inl rfl) _

/-- The rest of an array, from the beginning of an item. -/
theorem found_items {v : Value} {items : List Value} (h : ∀ w ∈ v :: items, w.Found depth)
    (hd : stack.length + 1 + depth < depthLimit) (done : List Value)
    (ht : Spaced Reads (v.tokens ++ (laterItems items ++ .mark closeBracket :: tokens)) text) :
    ∃ rest, readLoop (.array done :: stack) none text =
      readLoop stack (some (.array (done.reverse ++ v :: items))) rest ∧
      Spaced Reads tokens rest := by
  induction items generalizing v done text with
  | nil =>
    obtain ⟨after, hv, ht⟩ :=
      h v List.mem_cons_self (.array done :: stack) hd (ends_items [] tokens) ht
    obtain ⟨rest, hclose, ht⟩ := ht.nextItem_close
    refine ⟨rest, ?_, ht⟩
    rw [hv, readLoop_closeArray hclose, List.reverse_cons]
  | cons w items ih =>
    obtain ⟨after, hv, ht⟩ :=
      h v List.mem_cons_self (.array done :: stack) hd (ends_items (w :: items) tokens) ht
    rw [laterItems, List.cons_append, List.append_assoc] at ht
    obtain ⟨next, hnext, ht⟩ := ht.nextItem
    obtain ⟨rest, hrest, ht⟩ := ih (fun x hx => h x (List.mem_cons_of_mem v hx)) (v :: done) ht
    refine ⟨rest, ?_, ht⟩
    rw [hv, readLoop_nextItem hnext, readLoop_skipSpace, hrest,
      List.reverse_cons, List.append_assoc]
    rfl

theorem setMember_new {name : String} {v : Value} {done members : List (String × Value)}
    (h : ((done ++ (name, v) :: members).map Prod.fst).Nodup) :
    setMember name v done = done ++ [(name, v)] := by
  refine setMember_of_not_mem fun hmem => ?_
  rw [List.map_append, List.nodup_append] at h
  exact h.2.2 name hmem name List.mem_cons_self rfl

/-- The rest of an object, from the value of a member. No name of it has been read before. -/
theorem found_members {name : String} {v : Value} {members : List (String × Value)}
    (h : ∀ m ∈ (name, v) :: members, m.2.Found depth) (hd : stack.length + 1 + depth < depthLimit)
    (done : List (String × Value)) (hn : ((done ++ (name, v) :: members).map Prod.fst).Nodup)
    (ht : Spaced Reads (v.tokens ++ (laterMembers members ++ .mark closeBrace :: tokens)) text) :
    ∃ rest, readLoop (.object done name :: stack) none text =
      readLoop stack (some (.object (done ++ (name, v) :: members))) rest ∧
      Spaced Reads tokens rest := by
  induction members generalizing name v done text with
  | nil =>
    obtain ⟨after, hv, ht⟩ :=
      h (name, v) List.mem_cons_self (.object done name :: stack) hd (ends_members [] tokens) ht
    obtain ⟨rest, hclose, ht⟩ := ht.nextKey_close
    refine ⟨rest, ?_, ht⟩
    rw [hv, readLoop_closeObject hclose, setMember_new hn]
  | cons m members ih =>
    obtain ⟨next, w⟩ := m
    obtain ⟨after, hv, ht⟩ := h (name, v) List.mem_cons_self (.object done name :: stack) hd
      (ends_members ((next, w) :: members) tokens) ht
    rw [laterMembers, List.cons_append, List.cons_append, List.cons_append, List.append_assoc] at ht
    obtain ⟨more, hkey, ht⟩ := ht.nextKey
    obtain ⟨more', hcolon, ht⟩ := ht.memberColon
    have hsplit : done ++ (name, v) :: (next, w) :: members =
        (done ++ [(name, v)]) ++ (next, w) :: members := by rw [List.append_assoc]; rfl
    obtain ⟨rest, hrest, ht⟩ := ih (fun x hx => h x (List.mem_cons_of_mem _ hx)) _ (hsplit ▸ hn) ht
    refine ⟨rest, ?_, ht⟩
    rw [hv, readLoop_nextMember hkey hcolon, setMember_new hn, hrest, hsplit]

end Containers

theorem found_array {depth : Nat} {items : List Value} (h : ∀ v ∈ items, v.Found depth) :
    (Value.array items).Found (depth + 1) := by
  intro stack hd tokens text _ ht
  have hlength : stack.length + 1 + depth < depthLimit := by omega
  cases items with
  | nil =>
    obtain ⟨after, hopen, ht⟩ := Spaced.start_array ht stack.length (by omega)
    obtain ⟨rest, hclose, ht⟩ := Spaced.skip_mark (b := closeBracket) rfl ht
    exact ⟨rest, readLoop_emptyArray hopen hclose, ht⟩
  | cons v items =>
    rw [Value.tokens, itemTokens, List.cons_append, List.append_assoc, List.append_assoc] at ht
    obtain ⟨after, hopen, ht⟩ := Spaced.start_array ht stack.length (by omega)
    obtain ⟨b, more, hskip, hb, -⟩ := ht.skip_value
    obtain ⟨rest, hrest, ht⟩ := found_items h hlength [] ht
    refine ⟨rest, ?_, ht⟩
    rw [readLoop_openArray hopen hskip hb, ← hskip, readLoop_skipSpace, hrest]
    rfl

theorem found_object {depth : Nat} {members : List (String × Value)}
    (hn : (members.map Prod.fst).Nodup) (h : ∀ m ∈ members, m.2.Found depth) :
    (Value.object members).Found (depth + 1) := by
  intro stack hd tokens text _ ht
  have hlength : stack.length + 1 + depth < depthLimit := by omega
  cases members with
  | nil =>
    obtain ⟨after, hopen, ht⟩ := Spaced.start_object ht stack.length (by omega)
    obtain ⟨rest, hclose, ht⟩ := ht.firstKey_close
    exact ⟨rest, readLoop_emptyObject hopen hclose, ht⟩
  | cons m members =>
    obtain ⟨name, v⟩ := m
    simp only [Value.tokens, memberTokens, List.cons_append, List.append_assoc] at ht
    obtain ⟨after, hopen, ht⟩ := Spaced.start_object ht stack.length (by omega)
    obtain ⟨more, hkey, ht⟩ := ht.firstKey
    obtain ⟨more', hcolon, ht⟩ := ht.memberColon
    obtain ⟨rest, hrest, ht⟩ := found_members h hlength [] hn ht
    refine ⟨rest, ?_, ht⟩
    rw [readLoop_openObject hopen hkey hcolon, hrest]
    rfl

theorem Value.Built.found {Kind : Value → Prop} (hatom : ∀ v, Kind v → v.isAtom = true)
    {depth : Nat} {v : Value} (h : v.Built Kind depth) : v.Found depth := by
  induction h with
  | @atom _ v hv =>
    intro stack _ tokens text hends ht
    rw [Value.tokens_atom (hatom _ hv), List.singleton_append] at ht
    obtain ⟨rest, hstart, ht⟩ := ht.start_atom hends stack.length
    exact ⟨rest, readLoop_whole hstart, ht⟩
  | array _ ih => exact found_array ih
  | object hn _ ih => exact found_object hn ih

/-- Every text of a document is read as the document. -/
theorem Value.Built.read_of_spaced {Kind : Value → Prop}
    (hatom : ∀ v, Kind v → v.isAtom = true) {v : Value} (h : v.Built Kind 127) {text : List UInt8}
    (ht : Spaced Reads v.tokens text) : read text = .ok v := by
  have hends : Ends [] := nofun
  obtain ⟨rest, hloop, hr⟩ := h.found hatom [] (by decide) hends (by rwa [List.append_nil])
  have hdone : readLoop [] (some v) rest = .ok (v, rest) := by rw [readLoop]
  rw [read, hloop, hdone]
  simp only [Except.bind, finish, hr.skip_nil]
  rfl

theorem Value.Built.read_of_isText {v : Value} (h : v.Built Value.Exact 127) {text : List UInt8}
    (ht : v.IsText text) : read text = .ok v :=
  h.read_of_spaced (fun _ => Value.Exact.isAtom) (ht.imp fun _ _ hw hs =>
    hs.reads (h.exact_of_mem hw))

end RadioGateway.Json
