import RadioGateway.Station.Pins

/-!
# Settings of the program

What can be set on the command line, how each option is spelled, and what values it takes.
-/

namespace RadioGateway.CommandLine

open RadioGateway.Radio (number signedNumber)
open RadioGateway.Station (Pins)

structure Settings where
  bind : String := "0.0.0.0"
  port : Nat := 5000
  bufferCapacity : Nat := 100
  simulate : Bool := false
  pins : Pins := {}
  /-- The log filter, unless the environment has one. -/
  logLevel : String := "info"
  deriving DecidableEq, Repr

inductive Flag where
  | bind
  | port
  | bufferCapacity
  | simulate
  | spiBus
  | chipSelect
  | resetPin
  | logLevel
  | help
  deriving DecidableEq, Repr

namespace Flag

def all : List Flag :=
  [.bind, .port, .bufferCapacity, .simulate, .spiBus, .chipSelect, .resetPin, .logLevel, .help]

theorem mem_all (f : Flag) : f ∈ all := by cases f <;> decide

def long : Flag → String
  | .bind => "bind"
  | .port => "port"
  | .bufferCapacity => "buffer-capacity"
  | .simulate => "simulate"
  | .spiBus => "spi-bus"
  | .chipSelect => "chip-select"
  | .resetPin => "reset-pin"
  | .logLevel => "log-level"
  | .help => "help"

def short : Flag → Option Char
  | .port => some 'p'
  | .help => some 'h'
  | _ => none

/-- The others are set by being there. -/
def takesValue : Flag → Bool
  | .simulate | .help => false
  | _ => true

def summary : Flag → String
  | .bind => "Address to listen on"
  | .port => "HTTP port"
  | .bufferCapacity => "Received packets held between polls"
  | .simulate => "Run without radio hardware"
  | .spiBus => "SPI bus the HAT is on"
  | .chipSelect => "SPI chip select (1 = CE1)"
  | .resetPin => "Radio reset pin (BCM numbering)"
  | .logLevel => "Default log filter when RUST_LOG is unset"
  | .help => "Print help"

def placeholder (f : Flag) : String :=
  String.ofList (f.long.toList.map fun c => if c = '-' then '_' else c.toUpper)

def spelling (f : Flag) : String :=
  if f.takesValue then "--" ++ f.long ++ " <" ++ f.placeholder ++ ">" else "--" ++ f.long

def ofLong? (name : List Char) : Option Flag := all.find? fun f => f.long.toList = name

def ofShort? (c : Char) : Option Flag := all.find? fun f => f.short = some c

end Flag

/-! ## Values -/

inductive ValueFault where
  | empty
  | noInteger
  | tooLarge
  | tooSmall
  | outside (value highest : Int)
  deriving DecidableEq, Repr

def ValueFault.message : ValueFault → String
  | .empty => "cannot parse integer from empty string"
  | .noInteger => "invalid digit found in string"
  | .tooLarge => "number too large to fit in target type"
  | .tooSmall => "number too small to fit in target type"
  | .outside value highest => signedNumber value ++ " is not in 0..=" ++ signedNumber highest

/-- Takes digits in from the left, added to `value` or, behind a minus sign, taken from it. What is
wrong is the first character that is no digit or whose digit leads out of the bounds. -/
def readDigits (lowest highest : Int) (negative : Bool) (value : Int) :
    List Char → Except ValueFault Int
  | [] => .ok value
  | c :: rest =>
    if c.isDigit then
      let digit : Int := c.toNat - '0'.toNat
      let value := if negative then value * 10 - digit else value * 10 + digit
      if value < lowest then .error .tooSmall
      else if highest < value then .error .tooLarge
      else readDigits lowest highest negative value rest
    else .error .noInteger

/-- A sign, which need not be there, and digits. A minus sign needs a range that reaches below
zero. -/
def readInteger (lowest highest : Int) (text : List Char) : Except ValueFault Int :=
  match text with
  | [] => .error .empty
  | c :: rest =>
    let negative := c == '-' && decide (lowest < 0)
    let digits := if c = '+' ∨ negative then rest else text
    if digits.isEmpty then .error .noInteger else readDigits lowest highest negative 0 digits

/-- An integer of 64 bits from zero up to `highest`. -/
def readWithin (highest : Nat) (text : List Char) : Except ValueFault Nat := do
  let i ← readInteger Int64.minValue.toInt Int64.maxValue.toInt text
  if 0 ≤ i ∧ i ≤ highest then .ok i.toNat else .error (.outside i highest)

/-- A natural number of 64 bits. -/
def readSize (text : List Char) : Except ValueFault Nat :=
  (readInteger 0 (UInt64.size - 1) text).map Int.toNat

def Settings.set (s : Settings) (f : Flag) (text : String) : Except ValueFault Settings :=
  match f with
  | .bind => .ok { s with bind := text }
  | .logLevel => .ok { s with logLevel := text }
  | .simulate => .ok { s with simulate := true }
  | .help => .ok s
  | .port => (readWithin 65535 text.toList).map fun port => { s with port }
  | .bufferCapacity => (readSize text.toList).map fun bufferCapacity => { s with bufferCapacity }
  | .spiBus => (readWithin 255 text.toList).map fun bus => { s with pins := { s.pins with bus } }
  | .chipSelect =>
    (readWithin 255 text.toList).map fun chipSelect => { s with pins := { s.pins with chipSelect } }
  | .resetPin => (readWithin 255 text.toList).map fun reset =>
    { s with pins := { s.pins with reset } }

def Flag.defaultText (f : Flag) : Option String :=
  let s : Settings := {}
  match f with
  | .bind => some s.bind
  | .port => some (number s.port)
  | .bufferCapacity => some (number s.bufferCapacity)
  | .spiBus => some (number s.pins.bus)
  | .chipSelect => some (number s.pins.chipSelect)
  | .resetPin => some (number s.pins.reset)
  | .logLevel => some s.logLevel
  | .simulate | .help => none

end RadioGateway.CommandLine
