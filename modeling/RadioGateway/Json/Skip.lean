import RadioGateway.Json.Number

/-!
# Passing over a value

A value that nobody asked for is checked for its form only: numbers may be too large, strings need
not be text, and there is no limit on the depth.
-/

namespace RadioGateway.Json

def skipExponent (text : List UInt8) : Except Failure (List UInt8) :=
  match (exponentSign text).2 with
  | [] => failAt .badNumber []
  | b :: rest => if isDigit b then .ok (spanDigits rest).2 else failAt .badNumber rest

def skipPower (text : List UInt8) : Except Failure (List UInt8) :=
  match text with
  | [] => .ok []
  | b :: rest => if isExponentMark b then skipExponent rest else .ok (b :: rest)

def skipNumber (text : List UInt8) : Except Failure (List UInt8) :=
  match text with
  | [] => failAt .badNumber []
  | b :: after =>
    if !isDigit b then failAt .badNumber after
    else if b = 0x30 ∧ (after.head?.any isDigit) then failOn .badNumber after
    else match (spanDigits after).2 with
      | [] => .ok []
      | c :: rest =>
        if c = point then
          match spanDigits rest with
          | ([], rest) => failOn .badNumber rest
          | (_, rest) => skipPower rest
        else skipPower (c :: rest)

theorem length_of_skipExponent {text rest : List UInt8} (h : skipExponent text = .ok rest) :
    rest.length ≤ text.length := by
  have hle := length_exponentSign_le text
  unfold skipExponent at h
  split at h
  · simp [failAt] at h
  · rename_i b after heq
    have hs := length_spanDigits_le after
    rw [heq, List.length_cons] at hle
    split at h
    · simp only [Except.ok.injEq] at h
      rw [← h]; omega
    · simp [failAt] at h

theorem length_of_skipPower {text rest : List UInt8} (h : skipPower text = .ok rest) :
    rest.length ≤ text.length := by
  unfold skipPower at h
  split at h
  · simp only [Except.ok.injEq] at h; simp [← h]
  · split at h
    · exact Nat.le_succ_of_le (length_of_skipExponent h)
    · simp only [Except.ok.injEq] at h; subst h; exact Nat.le_refl _

theorem length_of_skipNumber {text rest : List UInt8} (h : skipNumber text = .ok rest) :
    rest.length < text.length := by
  unfold skipNumber at h
  split at h
  · simp [failAt] at h
  · rename_i b after
    have hs := length_spanDigits_le after
    split at h
    · simp [failAt] at h
    · split at h
      · simp [failOn] at h
      · split at h
        · simp only [Except.ok.injEq] at h; simp [← h]
        · rename_i c rest' heq
          rw [heq, List.length_cons] at hs
          have hs' := length_spanDigits_le rest'
          split at h
          · split at h
            · simp [failOn] at h
            · rename_i heq'
              rw [heq'] at hs'
              have := length_of_skipPower h
              simp only [List.length_cons] at hs' ⊢; omega
          · have := length_of_skipPower h
            simp only [List.length_cons] at this ⊢; omega

inductive Bracket where
  | array
  | object
  deriving DecidableEq, Repr

def skipKey (text : List UInt8) : Except Failure (List UInt8) :=
  match skipSpace text with
  | [] => failOn .endOfObject []
  | b :: rest =>
    if b ≠ quote then failOn .keyNotString (b :: rest)
    else match skipString rest with
      | .error f => .error f
      | .ok rest =>
        match skipSpace rest with
        | [] => failOn .endOfObject []
        | c :: after => if c = colon then .ok after else failOn .noColon (c :: after)

/-- A value without parts, or the opening of a container with, if it is an object that holds
something, its first key; `none` stands for a whole value. -/
def skipStart (text : List UInt8) : Except Failure (Option Bracket × List UInt8) :=
  match skipSpace text with
  | [] => failOn .endOfValue []
  | b :: rest =>
    if b = openBracket then
      match skipSpace rest with
      | [] => failOn .endOfList []
      | c :: after => if c = closeBracket then .ok (none, after) else .ok (some .array, c :: after)
    else if b = openBrace then
      match skipSpace rest with
      | [] => failOn .endOfObject []
      | c :: after =>
        if c = closeBrace then .ok (none, after)
        else (skipKey (c :: after)).map fun rest => (some .object, rest)
    else
      (if b = quote then skipString rest
      else if b = minus then skipNumber rest
      else if isDigit b then skipNumber (b :: rest)
      else if b = 0x6E then word nullTail rest
      else if b = 0x74 then word trueTail rest
      else if b = 0x66 then word falseTail rest
      else failOn .noValue (b :: rest)).map fun rest => (none, rest)

/-- What follows a value inside a container: its end, or what leads to the next value. -/
def skipNext (bracket : Bracket) (text : List UInt8) : Except Failure (Bool × List UInt8) :=
  match skipSpace text with
  | [] => failOn (match bracket with | .array => .endOfList | .object => .endOfObject) []
  | b :: rest =>
    match bracket with
    | .array =>
      if b = comma then .ok (true, rest)
      else if b = closeBracket then .ok (false, rest)
      else failOn .noListSeparator (b :: rest)
    | .object =>
      if b = comma then (skipKey rest).map fun rest => (true, rest)
      else if b = closeBrace then .ok (false, rest)
      else failOn .noObjectSeparator (b :: rest)

theorem length_of_map {α β : Type} {r : Except Failure α} {f : α → β × List UInt8} {b : β}
    {rest : List UInt8} {n : Nat} (h : r.map f = .ok (b, rest))
    (hr : ∀ a, r = .ok a → (f a).2.length < n) : rest.length < n := by
  cases r with
  | error e => simp [Except.map] at h
  | ok a =>
    simp only [Except.map, Except.ok.injEq] at h
    have := hr a rfl
    simpa [h] using this

theorem length_of_skipKey {text rest : List UInt8} (h : skipKey text = .ok rest) :
    rest.length < text.length := by
  have hs := length_skipSpace_le text
  unfold skipKey at h
  split at h
  · simp [failOn] at h
  · rename_i heq
    rw [heq, List.length_cons] at hs
    split at h
    · simp [failOn] at h
    · split at h
      · simp at h
      · rename_i rest' hk
        have h₁ := length_of_skipString hk
        have h₂ := length_skipSpace_le rest'
        split at h
        · simp [failOn] at h
        · rename_i heq'
          rw [heq', List.length_cons] at h₂
          split at h
          · simp only [Except.ok.injEq] at h; rw [← h]; omega
          · simp [failOn] at h

theorem length_of_skipStart {text rest : List UInt8} {b : Option Bracket}
    (h : skipStart text = .ok (b, rest)) : rest.length < text.length := by
  have hs := length_skipSpace_le text
  unfold skipStart at h
  split at h
  · simp [failOn] at h
  · rename_i b after heq
    rw [heq, List.length_cons] at hs
    have hs' := length_skipSpace_le after
    split at h
    · split at h
      · simp [failOn] at h
      · rename_i heq'
        rw [heq', List.length_cons] at hs'
        split at h
        · simp only [Except.ok.injEq, Prod.mk.injEq] at h; rw [← h.2]; omega
        · simp only [Except.ok.injEq, Prod.mk.injEq] at h
          rw [← h.2, List.length_cons]; omega
    · split at h
      · split at h
        · simp [failOn] at h
        · rename_i heq'
          rw [heq', List.length_cons] at hs'
          split at h
          · simp only [Except.ok.injEq, Prod.mk.injEq] at h; rw [← h.2]; omega
          · refine length_of_map h fun a ha => ?_
            show a.length < text.length
            have := length_of_skipKey ha
            simp only [List.length_cons] at this; omega
      · refine length_of_map h fun a ha => ?_
        show a.length < text.length
        split at ha
        · have := length_of_skipString ha; omega
        · split at ha
          · have := length_of_skipNumber ha; omega
          · split at ha
            · have := length_of_skipNumber ha; simp only [List.length_cons] at this; omega
            · split at ha
              · have := length_of_word ha; omega
              · split at ha
                · have := length_of_word ha; omega
                · split at ha
                  · have := length_of_word ha; omega
                  · simp [failOn] at ha

theorem length_of_skipNext {bracket : Bracket} {text rest : List UInt8} {more : Bool}
    (h : skipNext bracket text = .ok (more, rest)) : rest.length < text.length := by
  have hs := length_skipSpace_le text
  unfold skipNext at h
  split at h
  · simp [failOn] at h
  · rename_i heq
    rw [heq, List.length_cons] at hs
    split at h
    · split at h
      · simp only [Except.ok.injEq, Prod.mk.injEq] at h; rw [← h.2]; omega
      · split at h
        · simp only [Except.ok.injEq, Prod.mk.injEq] at h; rw [← h.2]; omega
        · simp [failOn] at h
    · split at h
      · refine length_of_map h fun a ha => ?_
        show a.length < text.length
        have := length_of_skipKey ha; omega
      · split at h
        · simp only [Except.ok.injEq, Prod.mk.injEq] at h; rw [← h.2]; omega
        · simp [failOn] at h

/-- Passes over a value, or over what comes after one. -/
def skipLoop (stack : List Bracket) (found : Bool) (text : List UInt8) :
    Except Failure (List UInt8) :=
  match found with
  | false =>
    match _h : skipStart text with
    | .error f => .error f
    | .ok (none, rest) => skipLoop stack true rest
    | .ok (some bracket, rest) => skipLoop (bracket :: stack) false rest
  | true =>
    match stack with
    | [] => .ok text
    | bracket :: outer =>
      match _h : skipNext bracket text with
      | .error f => .error f
      | .ok (false, rest) => skipLoop outer true rest
      | .ok (true, rest) => skipLoop (bracket :: outer) false rest
termination_by text.length
decreasing_by
  · exact length_of_skipStart _h
  · exact length_of_skipStart _h
  · exact length_of_skipNext _h
  · exact length_of_skipNext _h

def skipValue (text : List UInt8) : Except Failure (List UInt8) := skipLoop [] false text

end RadioGateway.Json
