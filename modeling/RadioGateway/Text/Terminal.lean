/-!
# Text on a terminal

A terminal takes some characters for commands: single controls, and sequences that an escape begins.
What is left of a text without them is what a reader would see of it.
-/

namespace RadioGateway.Text

inductive Sequence where
  | ground
  | escape
  | escapeIntermediate
  | controlEntry
  | controlParameter
  | controlIntermediate
  | controlIgnored
  | deviceEntry
  | deviceParameter
  | deviceIntermediate
  | devicePassed
  | deviceIgnored
  | systemCommand
  | idleString
  deriving DecidableEq, Repr

namespace Sequence

def isIntermediate (b : Nat) : Bool := 0x20 ≤ b && b ≤ 0x2F
def isParameter (b : Nat) : Bool := 0x30 ≤ b && b ≤ 0x3B
def isParameterSpace (b : Nat) : Bool := 0x30 ≤ b && b ≤ 0x3F
def isFinal (b : Nat) : Bool := 0x40 ≤ b && b ≤ 0x7E

/-- What follows on an escape. -/
def afterEscape (b : Nat) : Sequence :=
  if isIntermediate b then .escapeIntermediate
  else if b = 0x50 then .deviceEntry
  else if b = 0x58 ∨ b = 0x5E ∨ b = 0x5F then .idleString
  else if b = 0x5B then .controlEntry
  else if b = 0x5D then .systemCommand
  else if 0x30 ≤ b ∧ b ≤ 0x7E then .ground
  else .escape

def inControl (s : Sequence) (b : Nat) : Sequence :=
  if isFinal b then .ground
  else
    match s with
    | .controlIgnored => .controlIgnored
    | .controlIntermediate => if isParameterSpace b then .controlIgnored else .controlIntermediate
    | _ =>
      if isIntermediate b then .controlIntermediate
      else if s = .controlEntry ∧ isParameterSpace b then .controlParameter
      else if isParameter b then .controlParameter
      else if isParameterSpace b then .controlIgnored
      else s

/-- Before the string of a device control, which a final octet begins. -/
def inDevice (s : Sequence) (b : Nat) : Sequence :=
  if isFinal b then .devicePassed
  else
    match s with
    | .deviceIntermediate => if isParameterSpace b then .deviceIgnored else .deviceIntermediate
    | _ =>
      if isIntermediate b then .deviceIntermediate
      else if s = .deviceEntry ∧ isParameterSpace b then .deviceParameter
      else if isParameter b then .deviceParameter
      else if isParameterSpace b then .deviceIgnored
      else s

/-- The next octet of a sequence. Cancelling and escaping work everywhere. -/
def next (s : Sequence) (b : Nat) : Sequence :=
  if b = 0x18 ∨ b = 0x1A then .ground
  else if b = 0x1B then .escape
  else
    match s with
    | .ground => .ground
    | .escape => afterEscape b
    | .escapeIntermediate => if 0x30 ≤ b ∧ b ≤ 0x7E then .ground else .escapeIntermediate
    | .controlEntry | .controlParameter | .controlIntermediate | .controlIgnored => s.inControl b
    | .deviceEntry | .deviceParameter | .deviceIntermediate => s.inDevice b
    | .devicePassed | .deviceIgnored | .idleString => if b = 0x9C then .ground else s
    | .systemCommand => if b = 0x07 then .ground else .systemCommand

/-- Controls in the midst of these sequences are carried out at once. -/
def carriesOut : Sequence → Bool
  | .ground | .escape | .escapeIntermediate | .controlEntry | .controlParameter
      | .controlIntermediate
  | .controlIgnored => true
  | _ => false

end Sequence

/-- Tab, line feed, form feed and carriage return. -/
def isLayout (c : Char) : Bool := c = '\t' || c = '\n' || c = '\x0c' || c = '\r'

def isAscii (c : Char) : Bool := c.toNat < 0x80

def isSeen (c : Char) : Bool := !isAscii c || isLayout c || (0x20 ≤ c.toNat && c.toNat ≤ 0x7E)

def Sequence.through (s : Sequence) (c : Char) : Sequence :=
  (String.utf8EncodeChar c).foldl (fun s b => s.next b.toNat) s

/-- What is seen of a text. A layout character in the midst of a sequence interrupts it: what
follows is seen up to the next control, and then the sequence goes on. -/
def seenFrom (s : Sequence) (interrupted : Bool) : List Char → List Char
  | [] => []
  | c :: rest =>
    if isSeen c && (interrupted || s = .ground) || isLayout c && s.carriesOut then
      c :: seenFrom (if isAscii c then s else .ground) true rest
    else seenFrom (s.through c) false rest

def seen (text : List Char) : List Char := seenFrom .ground false text

end RadioGateway.Text
