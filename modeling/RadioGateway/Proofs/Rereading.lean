import RadioGateway.Proofs.Numerals
import RadioGateway.Proofs.Reading

/-!
# Documents with doubles are read again

A double that is written and read again need not be the same, and what is no finite number comes
back as nothing. Everything else about a document comes back as it was.
-/

namespace RadioGateway.Json

open RadioGateway.Text

-- ---------------------------------------------------------------------------
-- What is read
-- ---------------------------------------------------------------------------

/-- What the text of a double is read as. -/
def realAgain (x : Float) : Value :=
  match number (Utf8.encode (Decimal.json.write x)) with
  | .ok (n, _) => n.toValue
  | .error _ => .null

mutual
/-- The document with each double as it is read. -/
def Value.again : Value → Value
  | .real x => realAgain x
  | .array items => .array (itemsAgain items)
  | .object members => .object (membersAgain members)
  | .null => .null
  | .bool b => .bool b
  | .integer i => .integer i
  | .string s => .string s
def itemsAgain : List Value → List Value
  | [] => []
  | v :: rest => v.again :: itemsAgain rest
def membersAgain : List (String × Value) → List (String × Value)
  | [] => []
  | (name, v) :: rest => (name, v.again) :: membersAgain rest
end

theorem realAgain_of_finite {x : Float} (h : x.isFinite = true) :
    ∃ y, realAgain x = .real y ∧
      ∀ rest, Stops rest → number (Utf8.encode (Decimal.json.write x) ++ rest) =
        .ok (.real y, rest) := by
  obtain ⟨-, y, hread⟩ := number_write h
  have hwhole := hread [] nofun
  rw [List.append_nil] at hwhole
  exact ⟨y, by rw [realAgain, hwhole]; rfl, hread⟩

theorem realAgain_of_not_finite {x : Float} (h : x.isFinite = false) : realAgain x = .null := by
  rw [realAgain, write_of_not_finite h]
  rfl

theorem reads_realAgain (x : Float) : Reads (realAgain x) (Utf8.encode (Decimal.json.write x)) := by
  cases h : x.isFinite with
  | false =>
    rw [realAgain_of_not_finite h, write_of_not_finite h]
    exact reads_null
  | true =>
    obtain ⟨y, hy, hread⟩ := realAgain_of_finite h
    rw [hy]
    exact reads_number (n := .real y) rfl (number_write h).1 hread

theorem itemsAgain_eq (items : List Value) : itemsAgain items = items.map Value.again := by
  induction items with
  | nil => rfl
  | cons v rest ih => rw [itemsAgain, ih, List.map_cons]

theorem membersAgain_eq (members : List (String × Value)) :
    membersAgain members = members.map fun m => (m.1, m.2.again) := by
  induction members with
  | nil => rfl
  | cons m rest ih => rw [membersAgain, ih, List.map_cons]

-- ---------------------------------------------------------------------------
-- Tokens
-- ---------------------------------------------------------------------------

def Token.again : Token → Token
  | .mark b => .mark b
  | .atom v => .atom v.again

/-- An atom that can be written: one that is kept exactly, or a double. -/
def Value.Writable (v : Value) : Prop := v.Exact ∨ ∃ x, v = .real x

theorem Value.Writable.isAtom {v : Value} (h : v.Writable) : v.isAtom = true := by
  obtain h | ⟨x, rfl⟩ := h
  · exact h.isAtom
  · rfl

theorem Value.Exact.again {v : Value} (h : v.Exact) : v.again = v := by
  cases v with
  | real | array | object => cases h
  | null | bool | integer | string => rfl

theorem isAtom_realAgain (x : Float) : (realAgain x).isAtom = true := by
  cases h : x.isFinite with
  | false => rw [realAgain_of_not_finite h]; rfl
  | true =>
    obtain ⟨y, hy, -⟩ := realAgain_of_finite h
    rw [hy]; rfl

mutual
theorem tokens_again : (v : Value) → v.again.tokens = v.tokens.map Token.again
  | .real x => Value.tokens_atom (isAtom_realAgain x)
  | .null | .bool _ | .integer _ | .string _ => rfl
  | .array items => by
    rw [Value.again, Value.tokens, Value.tokens, itemTokens_again items,
      List.map_cons, List.map_append]
    rfl
  | .object members => by
    rw [Value.again, Value.tokens, Value.tokens, memberTokens_again members,
      List.map_cons, List.map_append]
    rfl
theorem itemTokens_again : (items : List Value) →
    itemTokens (itemsAgain items) = (itemTokens items).map Token.again
  | [] => rfl
  | v :: rest => by
    rw [itemsAgain, itemTokens, itemTokens, tokens_again v, laterItems_again rest, List.map_append]
theorem laterItems_again : (items : List Value) →
    laterItems (itemsAgain items) = (laterItems items).map Token.again
  | [] => rfl
  | v :: rest => by
    rw [itemsAgain, laterItems, laterItems, tokens_again v, laterItems_again rest,
      List.map_cons, List.map_append]
    rfl
theorem memberTokens_again : (members : List (String × Value)) →
    memberTokens (membersAgain members) = (memberTokens members).map Token.again
  | [] => rfl
  | (name, v) :: rest => by
    rw [membersAgain, memberTokens, memberTokens, tokens_again v,
      laterMembers_again rest, List.map_cons, List.map_cons, List.map_append]
    rfl
theorem laterMembers_again : (members : List (String × Value)) →
    laterMembers (membersAgain members) = (laterMembers members).map Token.again
  | [] => rfl
  | (name, v) :: rest => by
    rw [membersAgain, laterMembers, laterMembers, tokens_again v,
      laterMembers_again rest, List.map_cons, List.map_cons, List.map_cons, List.map_append]
    rfl
end

theorem Value.Writable.reads_again {v : Value} (h : v.Writable) :
    Reads v.again (Utf8.encode v.write) := by
  obtain h | ⟨x, rfl⟩ := h
  · rw [h.again]
    exact h.spelled.reads h
  · exact reads_realAgain x

theorem Spaced.again {tokens : List Token} {text : List UInt8}
    (h : Spaced (fun v => Reads v.again) tokens text) :
    Spaced Reads (tokens.map Token.again) text := by
  induction h with
  | nil hb => exact .nil hb
  | mark hb _ ih => exact .mark hb ih
  | atom hb ht _ ih => exact .atom hb ht ih

-- ---------------------------------------------------------------------------
-- Documents
-- ---------------------------------------------------------------------------

theorem Value.Built.again {depth : Nat} {v : Value} (h : v.Built Value.Writable depth) :
    v.again.Built (fun v => v.isAtom = true) depth := by
  induction h with
  | @atom _ v hv =>
    refine .atom ?_
    obtain h | ⟨x, rfl⟩ := hv
    · rw [h.again]
      exact h.isAtom
    · exact isAtom_realAgain x
  | array _ ih =>
    rw [Value.again, itemsAgain_eq]
    exact .array (List.forall_mem_map.mpr ih)
  | object hn _ ih =>
    rw [Value.again, membersAgain_eq]
    refine .object ?_ (List.forall_mem_map.mpr ih)
    rw [List.map_map]
    exact hn

/-- A document that is written is read, and only its doubles may have changed. -/
theorem Value.Built.read_write {v : Value} (h : v.Built Value.Writable 127) :
    read (Utf8.encode v.write) = .ok v.again := by
  refine h.again.read_of_spaced (fun _ hv => hv) ?_
  rw [tokens_again, encode_write]
  refine Spaced.again (spaced_compact v.tokens fun w hw => ?_)
  obtain hw | ⟨name, rfl⟩ := h.atoms (fun _ => Value.Writable.isAtom) hw
  · exact hw.reads_again
  · exact Value.Writable.reads_again (.inl trivial)

end RadioGateway.Json
