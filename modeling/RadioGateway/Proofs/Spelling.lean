import Mathlib.Algebra.Group.Int.Defs
import RadioGateway.Json.Scan
import RadioGateway.Proofs.Utf8

/-!
# The texts of a document

A document is a row of tokens, and a text of it spells these in order with white space wherever it
likes. The compact text has no white space and spells each token as shortly as it can be spelled.
-/

namespace RadioGateway.Json

open RadioGateway.Text

-- ---------------------------------------------------------------------------
-- Strings
-- ---------------------------------------------------------------------------

/-- Four hexadecimal digits, in either case. -/
inductive UnitText : Nat → List UInt8 → Prop
  | digits {a b c d : UInt8} {w x y z : Nat} (ha : hexValue? a = some w) (hb : hexValue? b = some x)
      (hc : hexValue? c = some y) (hd : hexValue? d = some z) :
      UnitText (((w * 16 + x) * 16 + y) * 16 + z) [a, b, c, d]

/-- The characters that can be escaped by one letter. -/
def shortEscapes : List (Char × UInt8) :=
  [('"', 0x22), ('\\', 0x5C), ('/', 0x2F), ('\x08', 0x62), ('\x0c', 0x66), ('\n', 0x6E),
    ('\r', 0x72), ('\t', 0x74)]

/-- What may stand for a character inside a string. A character that 16 bits do not hold is escaped
as a pair of surrogates. -/
inductive CharText : Char → List UInt8 → Prop
  | plain {c : Char} (hc : 0x20 ≤ c.toNat) (hq : c ≠ '"') (hb : c ≠ '\\') :
      CharText c (String.utf8EncodeChar c)
  | short {c : Char} {b : UInt8} (h : (c, b) ∈ shortEscapes) : CharText c [backslash, b]
  | unit {c : Char} {text : List UInt8} (h : UnitText c.toNat text) :
      CharText c (backslash :: 0x75 :: text)
  | pair {c : Char} {high low : List UInt8} (hc : 0x10000 ≤ c.toNat)
      (hh : UnitText (0xD800 + (c.toNat - 0x10000) / 0x400) high)
      (hl : UnitText (0xDC00 + (c.toNat - 0x10000) % 0x400) low) :
      CharText c (backslash :: 0x75 :: (high ++ backslash :: 0x75 :: low))

inductive CharsText : List Char → List UInt8 → Prop
  | nil : CharsText [] []
  | cons {c : Char} {cs : List Char} {text more : List UInt8} (h : CharText c text)
      (hs : CharsText cs more) : CharsText (c :: cs) (text ++ more)

-- ---------------------------------------------------------------------------
-- Tokens
-- ---------------------------------------------------------------------------

def Value.isAtom : Value → Bool
  | .array _ | .object _ => false
  | _ => true

/-- A bracket, a brace, a comma or a colon, or a value with no others inside. Names are strings. -/
inductive Token where
  | mark (b : UInt8)
  | atom (v : Value)

mutual
def Value.tokens : Value → List Token
  | .null => [.atom .null]
  | .bool b => [.atom (.bool b)]
  | .integer i => [.atom (.integer i)]
  | .real x => [.atom (.real x)]
  | .string s => [.atom (.string s)]
  | .array items => .mark openBracket :: (itemTokens items ++ [.mark closeBracket])
  | .object members => .mark openBrace :: (memberTokens members ++ [.mark closeBrace])
def itemTokens : List Value → List Token
  | [] => []
  | v :: rest => v.tokens ++ laterItems rest
def laterItems : List Value → List Token
  | [] => []
  | v :: rest => .mark comma :: (v.tokens ++ laterItems rest)
def memberTokens : List (String × Value) → List Token
  | [] => []
  | (name, v) :: rest => .atom (.string name) :: .mark colon :: (v.tokens ++ laterMembers rest)
def laterMembers : List (String × Value) → List Token
  | [] => []
  | (name, v) :: rest =>
    .mark comma :: .atom (.string name) :: .mark colon :: (v.tokens ++ laterMembers rest)
end

theorem Value.tokens_atom {v : Value} (h : v.isAtom = true) : v.tokens = [.atom v] := by
  cases v with
  | array | object => cases h
  | null | bool | integer | real | string => rfl

def Blank (text : List UInt8) : Prop := ∀ b ∈ text, isSpace b = true

instance (text : List UInt8) : Decidable (Blank text) :=
  List.decidableBAll (fun b => isSpace b = true) text

/-- The tokens in order, with white space before, between and after them. -/
inductive Spaced (Spells : Value → List UInt8 → Prop) : List Token → List UInt8 → Prop
  | nil {blank : List UInt8} (hb : Blank blank) : Spaced Spells [] blank
  | mark {blank rest : List UInt8} {b : UInt8} {tokens : List Token} (hb : Blank blank)
      (hr : Spaced Spells tokens rest) : Spaced Spells (.mark b :: tokens) (blank ++ b :: rest)
  | atom {blank text rest : List UInt8} {v : Value} {tokens : List Token} (hb : Blank blank)
      (ht : Spells v text) (hr : Spaced Spells tokens rest) :
      Spaced Spells (.atom v :: tokens) (blank ++ (text ++ rest))

/-- How an atom is spelled. An integer has one spelling, its decimal digits. -/
inductive Value.Spelled : Value → List UInt8 → Prop
  | null : Spelled .null (Utf8.ofString "null")
  | true : Spelled (.bool true) (Utf8.ofString "true")
  | false : Spelled (.bool false) (Utf8.ofString "false")
  | integer (i : Int) : Spelled (.integer i) (Utf8.ofString (toString i))
  | string {s : String} {text : List UInt8} (h : CharsText s.toList text) :
      Spelled (.string s) (quote :: (text ++ [quote]))

def Value.IsText (v : Value) (text : List UInt8) : Prop := Spaced Value.Spelled v.tokens text

-- ---------------------------------------------------------------------------
-- Documents
-- ---------------------------------------------------------------------------

/-- Nested at most `depth` deep, with atoms of a kind, and no name twice in an object. -/
inductive Value.Built (Kind : Value → Prop) : Nat → Value → Prop
  | atom {depth : Nat} {v : Value} (h : Kind v) : Built Kind depth v
  | array {depth : Nat} {items : List Value} (h : ∀ v ∈ items, Built Kind depth v) :
      Built Kind (depth + 1) (.array items)
  | object {depth : Nat} {members : List (String × Value)} (hn : (members.map Prod.fst).Nodup)
      (h : ∀ m ∈ members, Built Kind depth m.2) : Built Kind (depth + 1) (.object members)

/-- The atoms that are kept exactly: all but doubles, and integers of 64 bits with or without a
sign. -/
def Value.Exact : Value → Prop
  | .null | .bool _ | .string _ => True
  | .integer i => -2 ^ 63 ≤ i ∧ i < 2 ^ 64
  | .real _ | .array _ | .object _ => False

theorem Value.Exact.isAtom {v : Value} (h : v.Exact) : v.isAtom = true := by
  cases v with
  | array | object | real => cases h
  | null | bool | integer | string => rfl

-- ---------------------------------------------------------------------------
-- The compact text
-- ---------------------------------------------------------------------------

def Token.compact : Token → List UInt8
  | .mark b => [b]
  | .atom v => Utf8.encode v.write

mutual
theorem encode_write : (v : Value) → Utf8.encode v.write = v.tokens.flatMap Token.compact
  | .null | .bool _ | .integer _ | .real _ | .string _ => (List.append_nil _).symm
  | .array items => by
    rw [Value.write, Value.tokens, List.flatMap_cons, List.flatMap_append,
      ← encode_writeItems items, Utf8.encode_cons, Utf8.encode_append]
    rfl
  | .object members => by
    rw [Value.write, Value.tokens, List.flatMap_cons, List.flatMap_append,
      ← encode_writeMembers members, Utf8.encode_cons, Utf8.encode_append]
    rfl
theorem encode_writeItems : (items : List Value) →
    Utf8.encode (writeItems items) = (itemTokens items).flatMap Token.compact
  | [] => rfl
  | [v] => by
    rw [itemTokens, laterItems, List.append_nil]
    exact encode_write v
  | v :: w :: rest => by
    have hrest : laterItems (w :: rest) = .mark comma :: itemTokens (w :: rest) := rfl
    rw [writeItems, itemTokens, hrest, List.flatMap_append, List.flatMap_cons, ← encode_write v,
      ← encode_writeItems (w :: rest), Utf8.encode_append, Utf8.encode_cons]
    · rfl
    · simp
theorem encode_writeMembers : (members : List (String × Value)) →
    Utf8.encode (writeMembers members) = (memberTokens members).flatMap Token.compact
  | [] => rfl
  | [(name, v)] => by
    rw [writeMembers, memberTokens, laterMembers, List.append_nil,
      List.flatMap_cons, List.flatMap_cons, ← encode_write v, Utf8.encode_append, Utf8.encode_cons]
    rfl
  | (name, v) :: m :: rest => by
    have hrest : laterMembers (m :: rest) = .mark comma :: memberTokens (m :: rest) := rfl
    rw [writeMembers, memberTokens, hrest, List.flatMap_cons, List.flatMap_cons,
      List.flatMap_append, List.flatMap_cons, ← encode_write v, ← encode_writeMembers (m :: rest),
      Utf8.encode_append, Utf8.encode_cons, Utf8.encode_append, Utf8.encode_cons]
    · rfl
    · simp
end

theorem toList_toString_int (i : Int) : (toString i).toList = writeInt i := by
  cases i with
  | ofNat n => exact Nat.toList_repr
  | negSucc n =>
    show ("-" ++ (n + 1).repr).toList = _
    rw [String.toList_append, Nat.toList_repr]
    rfl

-- ---------------------------------------------------------------------------
-- What is written for a character
-- ---------------------------------------------------------------------------

theorem hexValue_hexDigit (n : Nat) :
    ∃ b, String.utf8EncodeChar (hexDigit n) = [b] ∧ hexValue? b = some (n % 16) := by
  have hall : ∀ k < 16,
      String.utf8EncodeChar (Nat.digitChar k) = [UInt8.ofNat (Nat.digitChar k).toNat] ∧
      hexValue? (UInt8.ofNat (Nat.digitChar k).toNat) = some k := by decide
  exact ⟨_, hall (n % 16) (Nat.mod_lt n (by decide))⟩

/-- Control characters without a short escape are written with two zeros and two digits. -/
theorem charText_unit {c : Char} (h : c.toNat < 0x20) : CharText c
    (Utf8.encode ['\\', 'u', '0', '0', hexDigit (c.toNat / 16), hexDigit c.toNat]) := by
  obtain ⟨a, ha, hva⟩ := hexValue_hexDigit (c.toNat / 16)
  obtain ⟨b, hb, hvb⟩ := hexValue_hexDigit c.toNat
  have htext : Utf8.encode ['\\', 'u', '0', '0', hexDigit (c.toNat / 16), hexDigit c.toNat] =
      backslash :: 0x75 :: [0x30, 0x30, a, b] := by
    simp only [Utf8.encode, List.flatMap_cons, List.flatMap_nil, ha, hb]
    rfl
  have hcode : ((0 * 16 + 0) * 16 + c.toNat / 16 % 16) * 16 + c.toNat % 16 = c.toNat := by omega
  rw [htext]
  exact .unit (hcode ▸ .digits rfl rfl hva hvb)

theorem charText_short {c : Char} {b : UInt8} (h : (c, b) ∈ shortEscapes) :
    CharText c (Utf8.encode ['\\', Char.ofNat b.toNat]) := by
  have hall : ∀ e ∈ shortEscapes,
      Utf8.encode ['\\', Char.ofNat e.2.toNat] = [backslash, e.2] := by decide
  rw [hall (c, b) h]
  exact .short h

theorem charText_writeChar (c : Char) : CharText c (Utf8.encode (writeChar c)) := by
  unfold writeChar
  split
  · rename_i h
    exact h ▸ charText_short (c := '"') (b := 0x22) (by decide)
  split
  · rename_i h
    exact h ▸ charText_short (c := '\\') (b := 0x5C) (by decide)
  split
  · rename_i hquote hbackslash hcontrol
    have hc {n : Nat} (h : c.toNat = n) : c = Char.ofNat n := by rw [← h, Char.ofNat_toNat]
    split
    · rename_i h
      exact hc h ▸ charText_short (b := 0x62) (by decide)
    · rename_i h
      exact hc h ▸ charText_short (b := 0x74) (by decide)
    · rename_i h
      exact hc h ▸ charText_short (b := 0x6E) (by decide)
    · rename_i h
      exact hc h ▸ charText_short (b := 0x66) (by decide)
    · rename_i h
      exact hc h ▸ charText_short (b := 0x72) (by decide)
    · exact charText_unit hcontrol
  · rename_i hquote hbackslash hcontrol
    rw [Utf8.encode_cons]
    exact (List.append_nil _).symm ▸ .plain (Nat.not_lt.mp hcontrol) hquote hbackslash

theorem charsText_write (cs : List Char) : CharsText cs (Utf8.encode (cs.flatMap writeChar)) := by
  induction cs with
  | nil => exact .nil
  | cons c cs ih =>
    rw [List.flatMap_cons, Utf8.encode_append]
    exact .cons (charText_writeChar c) ih

theorem encode_writeString (s : String) : Utf8.encode (writeString s) =
    quote :: (Utf8.encode (s.toList.flatMap writeChar) ++ [quote]) := by
  rw [writeString, Utf8.encode_cons, Utf8.encode_append]
  rfl

theorem Value.Exact.spelled {v : Value} (h : v.Exact) : v.Spelled (Utf8.encode v.write) := by
  cases v with
  | null => exact .null
  | bool b =>
    cases b
    · exact .false
    · exact .true
  | integer i =>
    rw [Value.write, ← toList_toString_int]
    exact .integer i
  | string s =>
    rw [Value.write, encode_writeString]
    exact .string (charsText_write s.toList)
  | real | array | object => cases h

-- ---------------------------------------------------------------------------
-- Nothing is shorter
-- ---------------------------------------------------------------------------

theorem UnitText.length {n : Nat} {text : List UInt8} (h : UnitText n text) : text.length = 4 := by
  cases h
  rfl

theorem writeChar_plain {c : Char} (hc : 0x20 ≤ c.toNat) (hq : c ≠ '"') (hb : c ≠ '\\') :
    writeChar c = [c] := by
  rw [writeChar, if_neg hq, if_neg hb, if_neg (Nat.not_lt.mpr hc)]

theorem length_writeChar_le (c : Char) : (Utf8.encode (writeChar c)).length ≤ 6 := by
  have hlow : ∀ n < 0x20, (Utf8.encode (writeChar (Char.ofNat n))).length ≤ 6 := by decide
  by_cases hc : c.toNat < 0x20
  · have := hlow c.toNat hc
    rwa [Char.ofNat_toNat] at this
  by_cases hq : c = '"'
  · subst hq; decide
  by_cases hb : c = '\\'
  · subst hb; decide
  rw [writeChar_plain (Nat.not_lt.mp hc) hq hb, Utf8.encode_cons, List.length_append,
    String.length_utf8EncodeChar]
  exact Nat.le_trans (Nat.add_le_add_right c.utf8Size_le_four _) (by decide)

/-- No way to put a character is shorter than what is written for it. -/
theorem CharText.length_le {c : Char} {text : List UInt8} (h : CharText c text) :
    (Utf8.encode (writeChar c)).length ≤ text.length := by
  cases h with
  | plain hc hq hb =>
    rw [writeChar_plain hc hq hb, Utf8.encode_cons]
    exact Nat.le_of_eq (congrArg _ (List.append_nil _))
  | short h =>
    have hall : ∀ e ∈ shortEscapes, (Utf8.encode (writeChar e.1)).length ≤ 2 := by decide
    exact hall _ h
  | unit h =>
    have := length_writeChar_le c
    simpa [h.length] using this
  | pair hc hh hl =>
    have := length_writeChar_le c
    simp only [List.length_cons, List.length_append, hh.length, hl.length]
    omega

theorem CharsText.length_le {cs : List Char} {text : List UInt8} (h : CharsText cs text) :
    (Utf8.encode (cs.flatMap writeChar)).length ≤ text.length := by
  induction h with
  | nil => exact Nat.le_refl _
  | cons h _ ih =>
    have := h.length_le
    rw [List.flatMap_cons, Utf8.encode_append, List.length_append, List.length_append]
    omega

theorem Value.Spelled.length_le {v : Value} {text : List UInt8} (h : v.Spelled text) :
    (Utf8.encode v.write).length ≤ text.length := by
  cases h with
  | null | true | false => exact Nat.le_refl _
  | integer i =>
    rw [Utf8.ofString, toList_toString_int]
    exact Nat.le_refl _
  | string h =>
    have := h.length_le
    rw [Value.write, encode_writeString]
    simpa using this

theorem Value.IsText.length_le {v : Value} {text : List UInt8} (h : v.IsText text) :
    (Utf8.encode v.write).length ≤ text.length := by
  rw [encode_write]
  unfold Value.IsText at h
  generalize v.tokens = tokens at h
  induction h with
  | nil => exact Nat.zero_le _
  | mark _ _ ih =>
    simp only [List.flatMap_cons, Token.compact, List.length_append,
      List.length_cons, List.length_nil]
    omega
  | atom _ ht _ ih =>
    have := ht.length_le
    simp only [List.flatMap_cons, Token.compact, List.length_append]
    omega

-- ---------------------------------------------------------------------------
-- The compact text is a text
-- ---------------------------------------------------------------------------

theorem mem_laterItems {t : Token} {items : List Value} (h : t ∈ laterItems items) :
    (∃ b, t = .mark b) ∨ ∃ v ∈ items, t ∈ v.tokens := by
  induction items with
  | nil => cases h
  | cons v rest ih =>
    simp only [laterItems, List.mem_cons, List.mem_append] at h
    obtain h | h | h := h
    · exact .inl ⟨_, h⟩
    · exact .inr ⟨v, List.mem_cons_self, h⟩
    · exact (ih h).imp_right fun ⟨w, hw, ht⟩ => ⟨w, List.mem_cons_of_mem v hw, ht⟩

theorem mem_itemTokens {t : Token} {items : List Value} (h : t ∈ itemTokens items) :
    (∃ b, t = .mark b) ∨ ∃ v ∈ items, t ∈ v.tokens := by
  cases items with
  | nil => cases h
  | cons v rest => exact mem_laterItems (List.mem_cons_of_mem _ h)

theorem mem_laterMembers {t : Token} {members : List (String × Value)}
    (h : t ∈ laterMembers members) :
    (∃ b, t = .mark b) ∨ (∃ name, t = .atom (.string name)) ∨ ∃ m ∈ members, t ∈ m.2.tokens := by
  induction members with
  | nil => cases h
  | cons m rest ih =>
    simp only [laterMembers, List.mem_cons, List.mem_append] at h
    obtain h | h | h | h | h := h
    · exact .inl ⟨_, h⟩
    · exact .inr (.inl ⟨_, h⟩)
    · exact .inl ⟨_, h⟩
    · exact .inr (.inr ⟨m, List.mem_cons_self, h⟩)
    · exact (ih h).imp_right (·.imp_right fun ⟨m, hm, ht⟩ => ⟨m, List.mem_cons_of_mem _ hm, ht⟩)

theorem mem_memberTokens {t : Token} {members : List (String × Value)}
    (h : t ∈ memberTokens members) :
    (∃ b, t = .mark b) ∨ (∃ name, t = .atom (.string name)) ∨ ∃ m ∈ members, t ∈ m.2.tokens := by
  cases members with
  | nil => cases h
  | cons m rest => exact mem_laterMembers (List.mem_cons_of_mem _ h)

/-- Every atom of a document is of the kind the document is built from, or a name. -/
theorem Value.Built.atoms {Kind : Value → Prop} (hatom : ∀ v, Kind v → v.isAtom = true)
    {depth : Nat} {v w : Value} (h : v.Built Kind depth) (hw : Token.atom w ∈ v.tokens) :
    Kind w ∨ ∃ name, w = .string name := by
  induction h with
  | atom hk =>
    rw [Value.tokens_atom (hatom _ hk), List.mem_singleton, Token.atom.injEq] at hw
    exact .inl (hw ▸ hk)
  | array _ ih =>
    simp only [Value.tokens, List.mem_cons, List.mem_append, List.mem_nil_iff,
      reduceCtorEq, or_false, false_or] at hw
    obtain ⟨b, hb⟩ | ⟨v, hv, hw⟩ := mem_itemTokens hw
    · cases hb
    · exact ih v hv hw
  | object _ _ ih =>
    simp only [Value.tokens, List.mem_cons, List.mem_append, List.mem_nil_iff,
      reduceCtorEq, or_false, false_or] at hw
    obtain ⟨b, hb⟩ | ⟨name, hname⟩ | ⟨m, hm, hw⟩ := mem_memberTokens hw
    · cases hb
    · exact .inr ⟨name, Token.atom.inj hname⟩
    · exact ih m hm hw

theorem Spaced.imp {Spells Spells' : Value → List UInt8 → Prop} {tokens : List Token}
    {text : List UInt8} (h : Spaced Spells tokens text)
    (himp : ∀ v t, .atom v ∈ tokens → Spells v t → Spells' v t) : Spaced Spells' tokens text := by
  induction h with
  | nil hb => exact .nil hb
  | mark hb _ ih => exact .mark hb (ih fun v t hv => himp v t (List.mem_cons_of_mem _ hv))
  | atom hb ht _ ih =>
    exact .atom hb (himp _ _ List.mem_cons_self ht) (ih fun v t hv =>
      himp v t (List.mem_cons_of_mem _ hv))

theorem spaced_compact {Spells : Value → List UInt8 → Prop} (tokens : List Token)
    (h : ∀ v, .atom v ∈ tokens → Spells v (Utf8.encode v.write)) :
    Spaced Spells tokens (tokens.flatMap Token.compact) := by
  have hblank : Blank [] := by simp [Blank]
  induction tokens with
  | nil => exact .nil hblank
  | cons t tokens ih =>
    have ih := ih fun v hv => h v (List.mem_cons_of_mem t hv)
    cases t with
    | mark b => exact .mark hblank ih
    | atom v => exact .atom hblank (h v List.mem_cons_self) ih

theorem Value.Built.exact_of_mem {depth : Nat} {v w : Value} (h : v.Built Value.Exact depth)
    (hw : Token.atom w ∈ v.tokens) : w.Exact := by
  obtain hw | ⟨name, rfl⟩ := h.atoms (fun _ => Value.Exact.isAtom) hw
  · exact hw
  · trivial

theorem Value.Built.isText_write {depth : Nat} {v : Value} (h : v.Built Value.Exact depth) :
    v.IsText (Utf8.encode v.write) := by
  rw [encode_write]
  exact spaced_compact v.tokens fun w hw => (h.exact_of_mem hw).spelled

end RadioGateway.Json
