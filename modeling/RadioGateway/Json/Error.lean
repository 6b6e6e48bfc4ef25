import RadioGateway.Decimal.Layout
import RadioGateway.Json.Writer
import RadioGateway.Text.Quoted

/-!
# What is wrong with a JSON text

A reader that stops reports a cause and what was left of the text. The line and the column follow
from how much of the text had been used up, so the readers keep no count.
-/

namespace RadioGateway.Json

/-- A value that stands where another kind was expected. -/
inductive Found where
  | null
  | bool (b : Bool)
  | integer (i : Int)
  | real (x : Float)
  | string (s : String)
  | sequence
  | map

def Found.describe : Found → String
  | .null => "null"
  | .bool b => "boolean `" ++ (if b then "true" else "false") ++ "`"
  | .integer i => "integer `" ++ String.ofList (writeInt i) ++ "`"
  | .real x => "floating point `" ++ String.ofList (Decimal.json.write x) ++ "`"
  | .string s => "string " ++ Text.quoted s
  | .sequence => "sequence"
  | .map => "map"

inductive Cause where
  | endOfList
  | endOfObject
  | endOfString
  | endOfValue
  | noColon
  | noListSeparator
  | noObjectSeparator
  | noWord
  | noValue
  | badEscape
  | badNumber
  | outOfRange
  | badUnicode
  | controlCharacter
  | keyNotString
  | loneSurrogate
  | missingSurrogate
  | trailingComma
  | trailingCharacters
  | tooDeep
  | invalidType (found : Found) (expected : String)
  | invalidValue (i : Int) (expected : String)
  | invalidLength (length : Nat) (expected : String)
  | missingField (name : String)
  | duplicateField (name : String)
  /-- What somebody else has to say. -/
  | other (reason : String)

def Cause.message : Cause → String
  | .endOfList => "EOF while parsing a list"
  | .endOfObject => "EOF while parsing an object"
  | .endOfString => "EOF while parsing a string"
  | .endOfValue => "EOF while parsing a value"
  | .noColon => "expected `:`"
  | .noListSeparator => "expected `,` or `]`"
  | .noObjectSeparator => "expected `,` or `\x7d`"
  | .noWord => "expected ident"
  | .noValue => "expected value"
  | .badEscape => "invalid escape"
  | .badNumber => "invalid number"
  | .outOfRange => "number out of range"
  | .badUnicode => "invalid unicode code point"
  | .controlCharacter => "control character (\\u0000-\\u001F) found while parsing a string"
  | .keyNotString => "key must be a string"
  | .loneSurrogate => "lone leading surrogate in hex escape"
  | .missingSurrogate => "unexpected end of hex escape"
  | .trailingComma => "trailing comma"
  | .trailingCharacters => "trailing characters"
  | .tooDeep => "recursion limit exceeded"
  | .invalidType found expected => "invalid type: " ++ found.describe ++ ", expected " ++ expected
  | .invalidValue i expected =>
    "invalid value: " ++ (Found.integer i).describe ++ ", expected " ++ expected
  | .invalidLength length expected =>
    "invalid length " ++ String.ofList (Nat.toDigits 10 length) ++ ", expected " ++ expected
  | .missingField name => "missing field `" ++ name ++ "`"
  | .duplicateField name => "duplicate field `" ++ name ++ "`"
  | .other reason => reason

/-- A cause with the part of the text that was not used up. -/
structure Failure where
  cause : Cause
  rest : List UInt8

def failAt {α : Type} (cause : Cause) (rest : List UInt8) : Except Failure α := .error ⟨cause, rest⟩

def failOn {α : Type} (cause : Cause) (rest : List UInt8) : Except Failure α :=
  .error ⟨cause, rest.tail⟩

/-- Lines are counted from one; line zero is nowhere. -/
structure Position where
  line : Nat
  column : Nat
  deriving DecidableEq, Repr

/-- Where a reader stands that has used up these octets. -/
def Position.after (used : List UInt8) : Position :=
  used.foldl (fun p b => if b = 0x0A then ⟨p.line + 1, 0⟩ else ⟨p.line, p.column + 1⟩) ⟨1, 0⟩

structure Error where
  cause : Cause
  position : Position

def Failure.locate (text : List UInt8) (f : Failure) : Error :=
  ⟨f.cause, .after (text.take (text.length - f.rest.length))⟩

def lineMark : String := " at line "
def columnMark : String := " column "

def Error.message (e : Error) : String :=
  if e.position.line = 0 then e.cause.message
  else
    e.cause.message ++ lineMark ++ String.ofList (Nat.toDigits 10 e.position.line) ++ columnMark ++
      String.ofList (Nat.toDigits 10 e.position.column)

/-! ## Reasons with a place -/

/-- What stands before a mark and after it, where it occurs for the last time. -/
def splitLast (mark : List Char) : List Char → Option (List Char × List Char)
  | [] => none
  | c :: rest =>
    match splitLast mark rest with
    | some (before, after) => some (c :: before, after)
    | none => if mark.isPrefixOf (c :: rest) then some ([], (c :: rest).drop mark.length) else none

def placeNumber? (digits : List Char) : Option Nat :=
  let n := digits.foldl (fun n c => n * 10 + (c.toNat - '0'.toNat)) 0
  if digits.isEmpty || !digits.all Char.isDigit || UInt64.size ≤ n then none else some n

def splitPlace (text : List Char) : Option (List Char × Position) := do
  let (reason, place) ← splitLast lineMark.toList text
  let line := place.takeWhile Char.isDigit
  let rest := place.drop line.length
  if columnMark.toList.isPrefixOf rest then
    some (reason, ⟨← placeNumber? line, ← placeNumber? (rest.drop columnMark.length)⟩)
  else none

/-- The error that a reason tells of. A place that the reason ends in is taken for its place. -/
def Error.ofReason (reason : String) : Error :=
  match splitPlace reason.toList with
  | some (reason, position) => ⟨.other (String.ofList reason), position⟩
  | none => ⟨.other reason, ⟨0, 0⟩⟩

end RadioGateway.Json
