/-!
# UTF-8

A decoder that reads one octet at a time. Between octets it knows which octets may come next, so it
stops at the first octet that no text can hold, and it can say how much of the broken character it
had seen.
-/

namespace RadioGateway.Text.Utf8

/-- A character whose first `seen` octets are known: `owed + 1` more must come, the next of them
from `low` to `high`. -/
structure Open where
  seen : Nat
  owed : Nat
  low : UInt8
  high : UInt8
  code : Nat
  deriving DecidableEq, Repr

inductive Lead where
  | ascii (c : Char)
  | opens (o : Open)
  | never
  deriving DecidableEq, Repr

/-- What an octet says at the start of a character. The bounds on the octet after it rule out
overlong forms, surrogates and values above U+10FFFF. -/
def lead (b : UInt8) : Lead :=
  let starts (owed : Nat) (low high : UInt8) (code : Nat) := Lead.opens ⟨1, owed, low, high, code⟩
  if b ≤ 0x7F then .ascii (Char.ofNat b.toNat)
  else if b < 0xC2 then .never
  else if b ≤ 0xDF then starts 0 0x80 0xBF (b.toNat - 0xC0)
  else if b = 0xE0 then starts 1 0xA0 0xBF 0
  else if b = 0xED then starts 1 0x80 0x9F 0xD
  else if b ≤ 0xEF then starts 1 0x80 0xBF (b.toNat - 0xE0)
  else if b = 0xF0 then starts 2 0x90 0xBF 0
  else if b ≤ 0xF3 then starts 2 0x80 0xBF (b.toNat - 0xF0)
  else if b = 0xF4 then starts 2 0x80 0x8F 4
  else .never

/-- Where a text breaks off: the octets before `index` are whole characters. `length` octets from
there can start no character; without a length the text ends inside one. -/
structure DecodeError where
  index : Nat
  length : Option Nat
  deriving DecidableEq, Repr

/-- `index` is where the current character starts, and `done` holds the characters before it, the
last one first. -/
def decodeFrom (index : Nat) (done : List Char) :
    Option Open → List UInt8 → Except DecodeError (List Char)
  | none, [] => .ok done.reverse
  | some _, [] => .error ⟨index, none⟩
  | none, b :: rest =>
    match lead b with
    | .ascii c => decodeFrom (index + 1) (c :: done) none rest
    | .opens o => decodeFrom index done (some o) rest
    | .never => .error ⟨index, some 1⟩
  | some o, b :: rest =>
    if o.low ≤ b ∧ b ≤ o.high then
      let code := o.code * 64 + (b.toNat - 0x80)
      match o.owed with
      | 0 => decodeFrom (index + o.seen + 1) (Char.ofNat code :: done) none rest
      | owed + 1 => decodeFrom index done (some ⟨o.seen + 1, owed, 0x80, 0xBF, code⟩) rest
    else .error ⟨index, some o.seen⟩

def decode (bytes : List UInt8) : Except DecodeError (List Char) := decodeFrom 0 [] none bytes

def encode (chars : List Char) : List UInt8 := chars.flatMap String.utf8EncodeChar

def ofString (s : String) : List UInt8 := encode s.toList

theorem encode_append (a b : List Char) : encode (a ++ b) = encode a ++ encode b :=
  List.flatMap_append

end RadioGateway.Text.Utf8
