import RadioGateway.Json.Error
import RadioGateway.Text.Hex
import RadioGateway.Text.Utf8

/-!
# Tokens of a JSON text

Each reader takes what is left of the text and hands back what it leaves. What a reader leaves is
shorter than what it was given, which is why the readers built on these end.
-/

namespace RadioGateway.Json

@[match_pattern] def quote : UInt8 := 0x22
@[match_pattern] def backslash : UInt8 := 0x5C
@[match_pattern] def comma : UInt8 := 0x2C
@[match_pattern] def colon : UInt8 := 0x3A
@[match_pattern] def openBracket : UInt8 := 0x5B
@[match_pattern] def closeBracket : UInt8 := 0x5D
@[match_pattern] def openBrace : UInt8 := 0x7B
@[match_pattern] def closeBrace : UInt8 := 0x7D
@[match_pattern] def minus : UInt8 := 0x2D
@[match_pattern] def plus : UInt8 := 0x2B
@[match_pattern] def point : UInt8 := 0x2E

def isSpace (b : UInt8) : Bool := b == 0x20 || b == 0x09 || b == 0x0A || b == 0x0D

def isDigit (b : UInt8) : Bool := 0x30 ≤ b && b ≤ 0x39

def isExponentMark (b : UInt8) : Bool := b == 0x65 || b == 0x45

def skipSpace (text : List UInt8) : List UInt8 := text.dropWhile isSpace

theorem length_skipSpace_le (text : List UInt8) : (skipSpace text).length ≤ text.length :=
  (List.dropWhile_sublist isSpace).length_le

def word : List UInt8 → List UInt8 → Except Failure (List UInt8)
  | [], rest => .ok rest
  | _ :: _, [] => failAt .endOfValue []
  | w :: word', b :: rest => if b = w then word word' rest else failAt .noWord rest

theorem length_of_word {w text rest : List UInt8} (h : word w text = .ok rest) :
    rest.length ≤ text.length := by
  induction w generalizing text with
  | nil => simp only [word, Except.ok.injEq] at h; simp [h]
  | cons a w ih =>
    cases text with
    | nil => simp [word, failAt] at h
    | cons b text =>
      simp only [word] at h
      split at h
      · have := ih h; simp; omega
      · simp [failAt] at h

def nullTail : List UInt8 := [0x75, 0x6C, 0x6C]
def trueTail : List UInt8 := [0x72, 0x75, 0x65]
def falseTail : List UInt8 := [0x61, 0x6C, 0x73, 0x65]

/-! ## Strings -/

def hexUnit : List UInt8 → Except Failure (Nat × List UInt8)
  | a :: b :: c :: d :: rest =>
    match Text.hexValue? a, Text.hexValue? b, Text.hexValue? c, Text.hexValue? d with
    | some a, some b, some c, some d => .ok (((a * 16 + b) * 16 + c) * 16 + d, rest)
    | _, _, _, _ => failAt .badEscape rest
  | _ => failAt .endOfString []

theorem length_of_hexUnit {text rest : List UInt8} {n : Nat} (h : hexUnit text = .ok (n, rest)) :
    rest.length < text.length := by
  unfold hexUnit at h
  split at h
  · split at h
    · simp only [Except.ok.injEq, Prod.mk.injEq] at h
      simp only [← h.2, List.length_cons]; omega
    · simp [failAt] at h
  · simp [failAt] at h

def simpleEscape (b : UInt8) : Option Char :=
  if b = quote then some '"'
  else if b = backslash then some '\\'
  else if b = 0x2F then some '/'
  else if b = 0x62 then some '\x08'
  else if b = 0x66 then some '\x0c'
  else if b = 0x6E then some '\n'
  else if b = 0x72 then some '\r'
  else if b = 0x74 then some '\t'
  else none

def isLeadingSurrogate (n : Nat) : Bool := 0xD800 ≤ n && n ≤ 0xDBFF
def isTrailingSurrogate (n : Nat) : Bool := 0xDC00 ≤ n && n ≤ 0xDFFF

def trailingSurrogate : List UInt8 → Except Failure (Nat × List UInt8)
  | [] => failAt .endOfString []
  | b :: rest =>
    if b ≠ backslash then failAt .missingSurrogate rest
    else match rest with
      | [] => failAt .endOfString []
      | b :: rest =>
        if b ≠ 0x75 then failAt .missingSurrogate rest
        else do
          let (n, rest) ← hexUnit rest
          if isTrailingSurrogate n then .ok (n, rest) else failAt .loneSurrogate rest

def escape : List UInt8 → Except Failure (Char × List UInt8)
  | [] => failAt .endOfString []
  | b :: rest =>
    if b = 0x75 then
      match hexUnit rest with
      | .error f => .error f
      | .ok (n, rest) =>
        if isTrailingSurrogate n then failAt .loneSurrogate rest
        else if isLeadingSurrogate n then
          match trailingSurrogate rest with
          | .error f => .error f
          | .ok (m, rest) => .ok (Char.ofNat (0x10000 + (n - 0xD800) * 0x400 + (m - 0xDC00)), rest)
        else .ok (Char.ofNat n, rest)
    else match simpleEscape b with
      | some c => .ok (c, rest)
      | none => failAt .badEscape rest

theorem length_of_trailingSurrogate {text rest : List UInt8} {n : Nat}
    (h : trailingSurrogate text = .ok (n, rest)) : rest.length < text.length := by
  unfold trailingSurrogate at h
  split at h
  · simp [failAt] at h
  · split at h
    · simp [failAt] at h
    · split at h
      · simp [failAt] at h
      · split at h
        · simp [failAt] at h
        · rename_i rest' _
          cases hu : hexUnit rest' with
          | error f => simp [hu, bind, Except.bind] at h
          | ok p =>
            have := @length_of_hexUnit _ p.2 p.1 hu
            simp only [hu, bind, Except.bind] at h
            split at h
            · simp only [Except.ok.injEq, Prod.mk.injEq] at h
              simp only [← h.2, List.length_cons]; omega
            · simp [failAt] at h

theorem length_of_escape {text rest : List UInt8} {c : Char} (h : escape text = .ok (c, rest)) :
    rest.length < text.length := by
  unfold escape at h
  split at h
  · simp [failAt] at h
  · split at h
    · split at h
      · simp at h
      · rename_i hu
        have h₁ := length_of_hexUnit hu
        split at h
        · simp [failAt] at h
        · split at h
          · split at h
            · simp at h
            · rename_i ht
              have h₂ := length_of_trailingSurrogate ht
              simp only [Except.ok.injEq, Prod.mk.injEq] at h
              simp only [← h.2, List.length_cons]; omega
          · simp only [Except.ok.injEq, Prod.mk.injEq] at h
            simp only [← h.2, List.length_cons]; omega
    · split at h
      · simp only [Except.ok.injEq, Prod.mk.injEq] at h
        simp [← h.2]
      · simp [failAt] at h

/-- The octets of a string up to its closing quote, the last one first, escapes replaced by what
they stand for. -/
def stringOctets (done : List UInt8) (text : List UInt8) :
    Except Failure (List UInt8 × List UInt8) :=
  match text with
  | [] => failAt .endOfString []
  | b :: rest =>
    if b = quote then .ok (done, rest)
    else if b = backslash then
      match _h : escape rest with
      | .error f => .error f
      | .ok (c, rest') => stringOctets ((String.utf8EncodeChar c).reverse ++ done) rest'
    else if b < 0x20 then failAt .controlCharacter rest
    else stringOctets (b :: done) rest
termination_by text.length
decreasing_by
  · have := length_of_escape _h; simp only [List.length_cons]; omega
  · simp

theorem length_of_stringOctets {done text octets rest : List UInt8}
    (h : stringOctets done text = .ok (octets, rest)) : rest.length < text.length := by
  fun_induction stringOctets done text with
  | case1 => simp [failAt] at h
  | case2 => simp only [Except.ok.injEq, Prod.mk.injEq] at h; simp [h.2]
  | case3 => simp at h
  | case4 =>
    rename_i ih
    have := ih h; have := length_of_escape ‹_›; simp; omega
  | case5 => simp [failAt] at h
  | case6 => rename_i ih; have := ih h; simp; omega

/-- A string whose opening quote has been seen. Octets that are no text are reported as far before
its end as they are from the end of the string that it stands for. -/
def string (text : List UInt8) : Except Failure (String × List UInt8) :=
  match stringOctets [] text with
  | .error f => .error f
  | .ok (octets, rest) =>
    match Text.Utf8.decode octets.reverse with
    | .ok chars => .ok (String.ofList chars, rest)
    | .error e =>
      failAt .badUnicode (text.drop (text.length - rest.length - (octets.length - e.index)))

theorem length_of_string {text rest : List UInt8} {s : String} (h : string text = .ok (s, rest)) :
    rest.length < text.length := by
  unfold string at h
  split at h
  · simp at h
  · rename_i ho
    have := length_of_stringOctets ho
    split at h
    · simp only [Except.ok.injEq, Prod.mk.injEq] at h
      simpa [← h.2] using this
    · simp [failAt] at h

/-- Passes over a string whose opening quote has been seen. Escapes are not interpreted, so
surrogates may stand alone, and the octets need not be text. -/
def skipString (text : List UInt8) : Except Failure (List UInt8) :=
  match text with
  | [] => failAt .endOfString []
  | b :: rest =>
    if b = quote then .ok rest
    else if b = backslash then
      match rest with
      | [] => failAt .endOfString []
      | e :: rest =>
        if e = 0x75 then
          match _h : hexUnit rest with
          | .error f => .error f
          | .ok (_, rest') => skipString rest'
        else if (simpleEscape e).isSome then skipString rest
        else failAt .badEscape rest
    else if b < 0x20 then failAt .controlCharacter (b :: rest)
    else skipString rest
termination_by text.length
decreasing_by
  · have := length_of_hexUnit _h; simp only [List.length_cons]; omega
  · simp only [List.length_cons]; omega
  · simp

theorem length_of_skipString {text rest : List UInt8} (h : skipString text = .ok rest) :
    rest.length < text.length := by
  fun_induction skipString text with
  | case1 => simp [failAt] at h
  | case2 => simp only [Except.ok.injEq] at h; simp [h]
  | case3 => simp [failAt] at h
  | case4 => simp at h
  | case5 => rename_i ih; have := ih h; have := length_of_hexUnit ‹_›; simp; omega
  | case6 => rename_i ih; have := ih h; simp; omega
  | case7 => simp [failAt] at h
  | case8 => simp [failAt] at h
  | case9 => rename_i ih; have := ih h; simp; omega

end RadioGateway.Json
