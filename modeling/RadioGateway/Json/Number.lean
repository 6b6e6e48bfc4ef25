import RadioGateway.Json.Scan

/-!
# Numbers of a JSON text

An integer that fits 64 bits, with or without a sign, is kept exactly. Any other number is a
significand of at most 64 bits and a power of ten, both made doubles and then multiplied or divided;
digits that the significand has no room for only move the power.
-/

namespace RadioGateway.Json

inductive Number where
  | integer (i : Int)
  | real (x : Float)

def Number.toFloat : Number → Float
  | .integer i => if i < 0 then -i.natAbs.toUInt64.toFloat else i.natAbs.toUInt64.toFloat
  | .real x => x

def Number.toInt? : Number → Option Int
  | .integer i => some i
  | .real _ => none

def Number.found : Number → Found
  | .integer i => .integer i
  | .real x => .real x

def Number.toValue : Number → Value
  | .integer i => .integer i
  | .real x => .real x

def maxSignificand : Nat := UInt64.size - 1
def maxExponent : Nat := 0x7FFFFFFF

/-- Appends digits to a significand until the next one has no room; also counts the digits left. -/
def accumulate (limit significand : Nat) : List UInt8 → Nat × Nat
  | [] => (significand, 0)
  | d :: rest =>
    let next := significand * 10 + (d.toNat - 0x30)
    if limit < next then (significand, rest.length + 1) else accumulate limit next rest

def powerOfTen (k : Nat) : Float := Float.ofScientific 1 false k

/-- `significand · 10^exponent`, or nothing if that is too large. Below `10^-616` no significand is
left. -/
def scale (significand : Nat) : Int → Option Float
  | .ofNat e =>
    let f := significand.toUInt64.toFloat
    if e ≤ 308 then
      let x := f * powerOfTen e
      if x.isInf then none else some x
    else if significand = 0 then some f
    else none
  | .negSucc e =>
    let f := significand.toUInt64.toFloat
    if e < 308 then some (f / powerOfTen (e + 1))
    else if e < 616 then some (f / powerOfTen 308 / powerOfTen (e + 1 - 308))
    else some 0

def signed (negative : Bool) (x : Float) : Number := .real (if negative then -x else x)

def scaled (negative : Bool) (significand : Nat) (exponent : Int) (rest : List UInt8) :
    Except Failure (Number × List UInt8) :=
  match scale significand exponent with
  | some x => .ok (signed negative x, rest)
  | none => failAt .outOfRange rest

def spanDigits (text : List UInt8) : List UInt8 × List UInt8 :=
  (text.takeWhile isDigit, text.dropWhile isDigit)

/-- Of digits that outgrow the exponent, those up to the first one with no room. -/
def fittingDigits (digits : List UInt8) : Nat :=
  digits.length - (accumulate maxExponent 0 digits).2 + 1

def exponentSign : List UInt8 → Bool × List UInt8
  | [] => (false, [])
  | b :: rest =>
    if b = plus then (false, rest) else if b = minus then (true, rest) else (false, b :: rest)

def exponent (negative : Bool) (significand : Nat) (shift : Int) (text : List UInt8) :
    Except Failure (Number × List UInt8) :=
  let (down, text) := exponentSign text
  match text with
  | [] => failAt .endOfValue []
  | b :: rest =>
    if !isDigit b then failAt .badNumber rest
    else
      let (digits, rest) := spanDigits text
      match accumulate maxExponent 0 digits with
      | (e, 0) => scaled negative significand (if down then shift - e else shift + e) rest
      | _ =>
        if significand ≠ 0 ∧ !down then failAt .outOfRange (text.drop (fittingDigits digits))
        else .ok (signed negative 0, rest)

def fraction (negative : Bool) (significand : Nat) (shift : Int) (text : List UInt8) :
    Except Failure (Number × List UInt8) :=
  match spanDigits text with
  | ([], []) => failOn .endOfValue []
  | ([], rest) => failOn .badNumber rest
  | (digits, rest) =>
    let (significand, left) := accumulate maxSignificand significand digits
    let shift := shift - (digits.length - left : Nat)
    match rest with
    | b :: after =>
      if isExponentMark b then exponent negative significand shift after
      else scaled negative significand shift rest
    | [] => scaled negative significand shift rest

/-- An integer as it is written, if 64 bits hold it. Zero with a sign is not an integer. -/
def exactInteger (negative : Bool) (significand : Nat) : Number :=
  if !negative then .integer significand
  else if significand = 0 ∨ 0x8000000000000000 < significand then
    signed true significand.toUInt64.toFloat
  else .integer (-significand)

def unsigned (negative : Bool) (text : List UInt8) : Except Failure (Number × List UInt8) :=
  match text with
  | [] => failAt .endOfValue []
  | b :: after =>
    if !isDigit b then failAt .badNumber after
    else if b = 0x30 ∧ (after.head?.any isDigit) then failOn .badNumber after
    else
      let (digits, rest) := spanDigits text
      let (significand, left) := accumulate maxSignificand 0 digits
      match rest with
      | c :: after =>
        if c = point then fraction negative significand left after
        else if isExponentMark c then exponent negative significand left after
        else if left = 0 then .ok (exactInteger negative significand, rest)
        else scaled negative significand left rest
      | [] =>
        if left = 0 then .ok (exactInteger negative significand, rest)
        else scaled negative significand left rest

def number (text : List UInt8) : Except Failure (Number × List UInt8) :=
  match text with
  | b :: rest => if b = minus then unsigned true rest else unsigned false text
  | [] => failAt .endOfValue []

theorem length_spanDigits_le (text : List UInt8) : (spanDigits text).2.length ≤ text.length :=
  (List.dropWhile_sublist isDigit).length_le

theorem length_spanDigits_lt {b : UInt8} {rest : List UInt8} (h : isDigit b = true) :
    (spanDigits (b :: rest)).2.length < (b :: rest).length := by
  have := (List.dropWhile_sublist (l := rest) isDigit).length_le
  simp only [spanDigits, List.dropWhile_cons_of_pos h, List.length_cons]; omega

theorem length_exponentSign_le (text : List UInt8) :
    (exponentSign text).2.length ≤ text.length := by
  unfold exponentSign
  split
  · exact Nat.le_refl _
  · split
    · simp
    · split <;> simp

theorem length_of_scaled {negative : Bool} {s : Nat} {e : Int} {text rest : List UInt8} {n : Number}
    (h : scaled negative s e text = .ok (n, rest)) : rest = text := by
  unfold scaled at h
  split at h
  · simp only [Except.ok.injEq, Prod.mk.injEq] at h; exact h.2.symm
  · simp [failAt] at h

theorem length_of_exponent {negative : Bool} {s : Nat} {shift : Int} {text rest : List UInt8}
    {n : Number} (h : exponent negative s shift text = .ok (n, rest)) :
    rest.length ≤ text.length := by
  have hle := length_exponentSign_le text
  unfold exponent at h
  split at h
  rename_i down text' heq
  rw [heq] at hle
  split at h
  · simp [failAt] at h
  · split at h
    · simp [failAt] at h
    · rename_i b after _
      have hs := length_spanDigits_le (b :: after)
      simp only at h hle
      split at h
      · rw [length_of_scaled h]; omega
      · split at h
        · simp [failAt] at h
        · simp only [Except.ok.injEq, Prod.mk.injEq] at h
          rw [← h.2]; omega

theorem length_of_fraction {negative : Bool} {s : Nat} {shift : Int} {text rest : List UInt8}
    {n : Number} (h : fraction negative s shift text = .ok (n, rest)) :
    rest.length ≤ text.length := by
  have hs := length_spanDigits_le text
  unfold fraction at h
  split at h
  · simp [failOn] at h
  · simp [failOn] at h
  · rename_i digits rest' _ _ heq
    rw [heq] at hs
    simp only at h hs
    split at h
    · split at h
      · have := length_of_exponent h; simp only [List.length_cons] at hs; omega
      · rw [length_of_scaled h]; exact hs
    · rw [length_of_scaled h]; exact hs

theorem length_of_unsigned {negative : Bool} {text rest : List UInt8} {n : Number}
    (h : unsigned negative text = .ok (n, rest)) : rest.length < text.length := by
  unfold unsigned at h
  split at h
  · simp [failAt] at h
  · rename_i b after
    split at h
    · simp [failAt] at h
    · rename_i hd
      have hs := @length_spanDigits_lt b after (by simpa using hd)
      split at h
      · simp [failOn] at h
      · simp only at h
        split at h
        · rename_i c after' heq
          rw [heq, List.length_cons] at hs
          split at h
          · have := length_of_fraction h; omega
          · split at h
            · have := length_of_exponent h; omega
            · split at h
              · simp only [Except.ok.injEq, Prod.mk.injEq] at h
                rw [← h.2, heq, List.length_cons]; exact hs
              · rw [length_of_scaled h, heq, List.length_cons]; exact hs
        · rename_i heq
          rw [heq] at hs
          split at h
          · simp only [Except.ok.injEq, Prod.mk.injEq] at h
            rw [← h.2, heq]; exact hs
          · rw [length_of_scaled h, heq]; exact hs

theorem length_of_number {text rest : List UInt8} {n : Number} (h : number text = .ok (n, rest)) :
    rest.length < text.length := by
  unfold number at h
  split at h
  · split at h
    · have := length_of_unsigned h; simp only [List.length_cons]; omega
    · exact length_of_unsigned h
  · simp [failAt] at h

end RadioGateway.Json
