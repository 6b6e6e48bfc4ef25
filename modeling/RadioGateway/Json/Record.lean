import RadioGateway.Json.Reader
import RadioGateway.Json.Skip

/-!
# Reading records

A schema names the fields of a record and says what numbers they hold. A record is written as an
object with the fields in any order, where other members are passed over, or as an array of exactly
the fields in the schema's order.
-/

namespace RadioGateway.Json

inductive Kind where
  | real
  | natural (bits : Nat)
  | integer (bits : Nat)
  deriving DecidableEq, Repr

def Kind.describe : Kind → String
  | .real => "f64"
  | .natural bits => "u" ++ String.ofList (Nat.toDigits 10 bits)
  | .integer bits => "i" ++ String.ofList (Nat.toDigits 10 bits)

def Kind.holds : Kind → Int → Bool
  | .real, _ => true
  | .natural bits, i => 0 ≤ i && i < Int.ofNat (1 <<< bits)
  | .integer bits, i => -Int.ofNat (1 <<< (bits - 1)) ≤ i && i < Int.ofNat (1 <<< (bits - 1))

def Kind.refuses (k : Kind) : Number → Option Cause
  | .integer i => if k.holds i then none else some (.invalidValue i k.describe)
  | .real x => if k = .real then none else some (.invalidType (.real x) k.describe)

/-- A field and how its number is put into the record. An optional field may be left out or
`null`. -/
structure Field (ρ : Type) where
  name : String
  kind : Kind
  optional : Bool
  store : Number → ρ → ρ

structure Schema (ρ : Type) where
  name : String
  fields : List (Field ρ)

/-- Names the value that stands where something else was expected. -/
def wrongType {α : Type} (expected : String) (text : List UInt8) : Except Failure α :=
  let wrong (found : Found) (rest : List UInt8) : Except Failure α :=
    failAt (.invalidType found expected) rest
  match text with
  | [] => failOn .endOfValue []
  | b :: rest =>
    if b = openBracket then wrong .sequence text
    else if b = openBrace then wrong .map text
    else if b = quote then (string rest).bind fun (s, rest) => wrong (.string s) rest
    else if b = minus || isDigit b then (number text).bind fun (n, rest) => wrong n.found rest
    else if b = 0x6E then (word nullTail rest).bind fun rest => wrong .null rest
    else if b = 0x74 then (word trueTail rest).bind fun rest => wrong (.bool true) rest
    else if b = 0x66 then (word falseTail rest).bind fun rest => wrong (.bool false) rest
    else failOn .noValue text

def Field.read {ρ : Type} (field : Field ρ) (record : ρ) (text : List UInt8) :
    Except Failure (ρ × List UInt8) :=
  match skipSpace text with
  | [] => failOn .endOfValue []
  | b :: rest =>
    if field.optional && b = 0x6E then (word nullTail rest).map fun rest => (record, rest)
    else if b = minus || isDigit b then
      (number (b :: rest)).bind fun (n, rest) =>
        match field.kind.refuses n with
        | none => .ok (field.store n record, rest)
        | some cause => failAt cause rest
    else wrongType field.kind.describe (b :: rest)

/-- An object that a fault inside it has cut short is still closed if it ends here, and the fault is
reported after that. -/
def closeObject (text : List UInt8) : List UInt8 :=
  match skipSpace text with
  | [] => []
  | b :: rest => if b = closeBrace then rest else b :: rest

/-- The members from a key on; `seen` are the fields that have been read. -/
def Schema.readMembers {ρ : Type} (schema : Schema ρ) (record : ρ) (seen : List String) :
    Nat → Option String → List UInt8 → Except Failure (ρ × List UInt8)
  | _, none, rest =>
    match schema.fields.find? fun f => !f.optional && !seen.contains f.name with
    | some field => failAt (.missingField field.name) rest
    | none => .ok (record, rest)
  | 0, some _, _ => failOn .endOfObject []
  | fuel + 1, some key, rest =>
    match schema.fields.find? (·.name = key) with
    | none => do
      let (next, rest) ← nextKey (← skipValue (← memberColon rest))
      schema.readMembers record seen fuel next rest
    | some field =>
      if seen.contains key then failAt (.duplicateField key) (closeObject rest)
      else do
        let (record, rest) ← field.read record (← memberColon rest)
        let (next, rest) ← nextKey rest
        schema.readMembers record (key :: seen) fuel next rest

def closeArray (text : List UInt8) : Except Failure (List UInt8) :=
  match skipSpace text with
  | [] => failOn .endOfList []
  | b :: rest =>
    if b = closeBracket then .ok rest
    else if b ≠ comma then failOn .trailingCharacters (b :: rest)
    else match skipSpace rest with
      | [] => failOn .trailingCharacters []
      | c :: after =>
        failOn (if c = closeBracket then .trailingComma else .trailingCharacters) (c :: after)

def firstItem (text : List UInt8) : Except Failure (Bool × List UInt8) :=
  match skipSpace text with
  | [] => failOn .endOfList []
  | b :: rest => if b = closeBracket then .ok (false, rest) else .ok (true, b :: rest)

def Schema.readItems {ρ : Type} (schema : Schema ρ) (record : ρ) (count : Nat) :
    List (Field ρ) → List UInt8 → Except Failure (ρ × List UInt8)
  | [], text => (closeArray text).map fun rest => (record, rest)
  | field :: fields, text => do
    let (more, rest) ← if count = 0 then firstItem text else nextItem text
    if more then
      let (record, rest) ← field.read record rest
      schema.readItems record (count + 1) fields rest
    else
      failAt (.invalidLength count (schema.name ++ " with " ++
        String.ofList (Nat.toDigits 10 schema.fields.length) ++ " elements")) rest

def Schema.readFrom {ρ : Type} (schema : Schema ρ) (empty : ρ) (text : List UInt8) :
    Except Failure (ρ × List UInt8) :=
  match skipSpace text with
  | [] => failOn .endOfValue []
  | b :: rest =>
    if b = openBracket then schema.readItems empty 0 schema.fields rest
    else if b = openBrace then do
      let (key, after) ← firstKey rest
      schema.readMembers empty [] rest.length key after
    else wrongType schema.name (b :: rest)

/-- The record that a text holds; `empty` is the record with no field set. -/
def Schema.read {ρ : Type} (schema : Schema ρ) (empty : ρ) (text : List UInt8) : Except Error ρ :=
  ((schema.readFrom empty text).bind finish).mapError (·.locate text)

/-- As `Schema.read`, but the text may also be `null`, which leaves the record empty. -/
def Schema.readOptional {ρ : Type} (schema : Schema ρ) (empty : ρ) (text : List UInt8) :
    Except Error ρ :=
  let read := match skipSpace text with
    | b :: rest =>
      if b = 0x6E then (word nullTail rest).map fun rest => (empty, rest)
      else schema.readFrom empty text
    | [] => schema.readFrom empty text
  (read.bind finish).mapError (·.locate text)

end RadioGateway.Json
