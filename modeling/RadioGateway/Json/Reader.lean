import RadioGateway.Json.Number

/-!
# Reading JSON

One loop with the open arrays and objects on a stack: it either looks for a value or has just found
one and asks the innermost container what comes next. Every round uses up some of the text.
-/

namespace RadioGateway.Json

inductive Frame where
  | array (items : List Value)
  | object (members : List (String × Value)) (key : String)

/-- Containers may be this many levels deep, less one. -/
def depthLimit : Nat := 128

/-- The key of a member, the text starting at it; `atEnd` is what is wrong with a text that ends
there. -/
def memberKey (atEnd : Cause) (text : List UInt8) : Except Failure (String × List UInt8) :=
  match text with
  | [] => failOn atEnd []
  | b :: rest => if b = quote then string rest else failOn .keyNotString text

def memberColon (text : List UInt8) : Except Failure (List UInt8) :=
  match skipSpace text with
  | [] => failOn .endOfObject []
  | b :: rest => if b = colon then .ok rest else failOn .noColon (b :: rest)

/-- What follows an opening brace: nothing, or the first key. -/
def firstKey (text : List UInt8) : Except Failure (Option String × List UInt8) :=
  match skipSpace text with
  | [] => failOn .endOfObject []
  | b :: rest =>
    if b = closeBrace then .ok (none, rest)
    else (memberKey .endOfObject (b :: rest)).map fun (key, rest) => (some key, rest)

/-- What follows a member: the end of the object, or the next key. -/
def nextKey (text : List UInt8) : Except Failure (Option String × List UInt8) :=
  match skipSpace text with
  | [] => failOn .endOfObject []
  | b :: rest =>
    if b = closeBrace then .ok (none, rest)
    else if b ≠ comma then failOn .noObjectSeparator (b :: rest)
    else match skipSpace rest with
      | [] => failOn .endOfValue []
      | c :: after =>
        if c = closeBrace then failOn .trailingComma (c :: after)
        else (memberKey .endOfValue (c :: after)).map fun (key, rest) => (some key, rest)

/-- What follows an item: the end of the array, or a comma with a value to come. -/
def nextItem (text : List UInt8) : Except Failure (Bool × List UInt8) :=
  match skipSpace text with
  | [] => failOn .endOfList []
  | b :: rest =>
    if b = closeBracket then .ok (false, rest)
    else if b ≠ comma then failOn .noListSeparator (b :: rest)
    else match skipSpace rest with
      | [] => failOn .endOfValue []
      | c :: after =>
        if c = closeBracket then failOn .trailingComma (c :: after) else .ok (true, c :: after)

inductive Start where
  | whole (v : Value)
  | array
  | object

def start (depth : Nat) (text : List UInt8) : Except Failure (Start × List UInt8) :=
  match skipSpace text with
  | [] => failOn .endOfValue []
  | b :: rest =>
    if b = openBracket then
      if depth + 1 < depthLimit then .ok (.array, rest) else failOn .tooDeep (b :: rest)
    else if b = openBrace then
      if depth + 1 < depthLimit then .ok (.object, rest) else failOn .tooDeep (b :: rest)
    else if b = quote then (string rest).map fun (s, rest) => (.whole (.string s), rest)
    else if b = minus || isDigit b then
      (number (b :: rest)).map fun (n, rest) => (.whole n.toValue, rest)
    else if b = 0x6E then (word nullTail rest).map fun rest => (.whole .null, rest)
    else if b = 0x74 then (word trueTail rest).map fun rest => (.whole (.bool true), rest)
    else if b = 0x66 then (word falseTail rest).map fun rest => (.whole (.bool false), rest)
    else failOn .noValue (b :: rest)

theorem length_of_memberKey {atEnd : Cause} {text rest : List UInt8} {key : String}
    (h : memberKey atEnd text = .ok (key, rest)) : rest.length < text.length := by
  unfold memberKey at h
  split at h
  · simp [failOn] at h
  · split at h
    · have := length_of_string h
      simp only [List.length_cons]; omega
    · simp [failOn] at h

theorem length_of_memberColon {text rest : List UInt8} (h : memberColon text = .ok rest) :
    rest.length < text.length := by
  have hs := length_skipSpace_le text
  unfold memberColon at h
  split at h
  · simp [failOn] at h
  · rename_i heq
    rw [heq, List.length_cons] at hs
    split at h
    · simp only [Except.ok.injEq] at h; rw [← h]; omega
    · simp [failOn] at h

theorem length_of_firstKey {text rest : List UInt8} {key : Option String}
    (h : firstKey text = .ok (key, rest)) : rest.length < text.length := by
  have hs := length_skipSpace_le text
  unfold firstKey at h
  split at h
  · simp [failOn] at h
  · rename_i heq
    rw [heq, List.length_cons] at hs
    split at h
    · simp only [Except.ok.injEq, Prod.mk.injEq] at h
      rw [← h.2]; omega
    · rename_i b after _
      cases hk : memberKey .endOfObject (b :: after) with
      | error f => simp [hk, Except.map] at h
      | ok p =>
        have := @length_of_memberKey _ _ p.2 p.1 hk
        simp only [hk, Except.map, Except.ok.injEq, Prod.mk.injEq] at h
        rw [← h.2]; simp only [List.length_cons] at this; omega

theorem length_of_nextKey {text rest : List UInt8} {key : Option String}
    (h : nextKey text = .ok (key, rest)) : rest.length < text.length := by
  have hs := length_skipSpace_le text
  unfold nextKey at h
  split at h
  · simp [failOn] at h
  · rename_i heq
    rw [heq, List.length_cons] at hs
    split at h
    · simp only [Except.ok.injEq, Prod.mk.injEq] at h
      rw [← h.2]; omega
    · split at h
      · simp [failOn] at h
      · rename_i after _ _
        have hs' := length_skipSpace_le after
        split at h
        · simp [failOn] at h
        · rename_i c after' heq'
          rw [heq', List.length_cons] at hs'
          split at h
          · simp [failOn] at h
          · cases hk : memberKey .endOfValue (c :: after') with
            | error f => simp [hk, Except.map] at h
            | ok p =>
              have := @length_of_memberKey _ _ p.2 p.1 hk
              simp only [hk, Except.map, Except.ok.injEq, Prod.mk.injEq] at h
              rw [← h.2]; simp only [List.length_cons] at this; omega

theorem length_of_nextItem {text rest : List UInt8} {more : Bool}
    (h : nextItem text = .ok (more, rest)) : rest.length < text.length := by
  have hs := length_skipSpace_le text
  unfold nextItem at h
  split at h
  · simp [failOn] at h
  · rename_i heq
    rw [heq, List.length_cons] at hs
    split at h
    · simp only [Except.ok.injEq, Prod.mk.injEq] at h
      rw [← h.2]; omega
    · split at h
      · simp [failOn] at h
      · rename_i after _ _
        have hs' := length_skipSpace_le after
        split at h
        · simp [failOn] at h
        · rename_i heq'
          rw [heq'] at hs'
          split at h
          · simp [failOn] at h
          · simp only [Except.ok.injEq, Prod.mk.injEq] at h
            rw [← h.2]; omega

theorem length_of_start {depth : Nat} {text rest : List UInt8} {s : Start}
    (h : start depth text = .ok (s, rest)) : rest.length < text.length := by
  have hs := length_skipSpace_le text
  unfold start at h
  split at h
  · simp [failOn] at h
  · rename_i b after heq
    rw [heq, List.length_cons] at hs
    have words {w : List UInt8} {v : Value}
        (h : ((word w after).map fun rest => (Start.whole v, rest)) = .ok (s, rest)) :
        rest.length < text.length := by
      cases hw : word w after with
      | error f => simp [hw, Except.map] at h
      | ok r =>
        have := length_of_word hw
        simp only [hw, Except.map, Except.ok.injEq, Prod.mk.injEq] at h
        rw [← h.2]; omega
    split at h
    · split at h
      · simp only [Except.ok.injEq, Prod.mk.injEq] at h; rw [← h.2]; omega
      · simp [failOn] at h
    · split at h
      · split at h
        · simp only [Except.ok.injEq, Prod.mk.injEq] at h; rw [← h.2]; omega
        · simp [failOn] at h
      · split at h
        · cases hw : string after with
          | error f => simp [hw, Except.map] at h
          | ok p =>
            have := @length_of_string _ p.2 p.1 hw
            simp only [hw, Except.map, Except.ok.injEq, Prod.mk.injEq] at h
            rw [← h.2]; omega
        · split at h
          · cases hw : number (b :: after) with
            | error f => simp [hw, Except.map] at h
            | ok p =>
              have := @length_of_number _ p.2 p.1 hw
              simp only [List.length_cons] at this
              simp only [hw, Except.map, Except.ok.injEq, Prod.mk.injEq] at h
              rw [← h.2]; omega
          · split at h
            · exact words h
            · split at h
              · exact words h
              · split at h
                · exact words h
                · simp [failOn] at h

/-- Reads a value, or what comes after the value just found. -/
def readLoop (stack : List Frame) (found : Option Value) (text : List UInt8) :
    Except Failure (Value × List UInt8) :=
  match found with
  | none =>
    match _h : start stack.length text with
    | .error f => .error f
    | .ok (.whole v, rest) => readLoop stack (some v) rest
    | .ok (.array, rest) =>
      match _h' : skipSpace rest with
      | [] => failOn .endOfList []
      | b :: after =>
        if b = closeBracket then readLoop stack (some (.array [])) after
        else readLoop (.array [] :: stack) none (b :: after)
    | .ok (.object, rest) =>
      match _h' : firstKey rest with
      | .error f => .error f
      | .ok (none, rest) => readLoop stack (some (.object [])) rest
      | .ok (some key, rest) =>
        match _h'' : memberColon rest with
        | .error f => .error f
        | .ok rest => readLoop (.object [] key :: stack) none rest
  | some v =>
    match stack with
    | [] => .ok (v, text)
    | .array items :: outer =>
      match _h : nextItem text with
      | .error f => .error f
      | .ok (false, rest) => readLoop outer (some (.array (v :: items).reverse)) rest
      | .ok (true, rest) => readLoop (.array (v :: items) :: outer) none rest
    | .object members key :: outer =>
      match _h : nextKey text with
      | .error f => .error f
      | .ok (none, rest) => readLoop outer (some (.object (setMember key v members))) rest
      | .ok (some next, rest) =>
        match _h' : memberColon rest with
        | .error f => .error f
        | .ok rest => readLoop (.object (setMember key v members) next :: outer) none rest
termination_by text.length
decreasing_by
  · exact length_of_start _h
  · have := length_of_start _h
    have := length_skipSpace_le rest
    simp only [_h', List.length_cons] at this
    omega
  · have := length_of_start _h
    have := length_skipSpace_le rest
    simp only [_h', List.length_cons] at this ⊢
    omega
  · have := length_of_start _h; have := length_of_firstKey _h'; omega
  · have := length_of_start _h; have := length_of_firstKey _h'
    have := length_of_memberColon _h''; omega
  · exact length_of_nextItem _h
  · exact length_of_nextItem _h
  · exact length_of_nextKey _h
  · have := length_of_nextKey _h; have := length_of_memberColon _h'; omega

/-- Nothing but white space may follow the value. -/
def finish {α : Type} (read : α × List UInt8) : Except Failure α :=
  match skipSpace read.2 with
  | [] => .ok read.1
  | b :: rest => failOn .trailingCharacters (b :: rest)

def read (text : List UInt8) : Except Error Value :=
  ((readLoop [] none text).bind finish).mapError (·.locate text)

end RadioGateway.Json
