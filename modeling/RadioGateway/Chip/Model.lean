import RadioGateway.Chip.Register

/-!
# A model of the chip

Registers, packet memory, and the two things that happen by themselves: a transmission completes,
and a waiting frame arrives. Both move on only when the interrupt flags are read, so time is the
number of looks at them. A reset changes nothing but its count.
-/

namespace RadioGateway

namespace Chip

/-- A frame on its way: `after` more looks, then it is in the packet memory from `base` on. -/
structure Arrival where
  data : List UInt8
  base : Fin 256
  snr : UInt8
  rssi : UInt8
  flags : UInt8
  after : Nat
  deriving DecidableEq

end Chip

open Chip in
structure Chip where
  registers : Memory 128
  packets : Memory 256
  /-- The mode register never keeps the LoRa bit. -/
  refusesLora : Bool := false
  /-- Looks until a transmission is reported done; `none` means never. -/
  txDoneAfter : Option Nat := some 0
  /-- Looks left in the transmission that is going on. -/
  countdown : Option Nat := none
  arrivals : List Arrival := []
  sent : List (List UInt8) := []
  resets : Nat := 0

namespace Chip

/-- All zero but for the version. -/
def fresh (version : UInt8) : Chip :=
  { registers := (Memory.zero : Memory 128).set Register.version version, packets := Memory.zero }

def get (c : Chip) (a : Address) : UInt8 := c.registers.get a

def set (c : Chip) (a : Address) (b : UInt8) : Chip := { c with registers := c.registers.set a b }

def packetAddress (b : UInt8) : Fin 256 := Fin.ofNat 256 b.toNat

def byteOf (a : Fin 256) : UInt8 := UInt8.ofNat a.val

def fifoPointer (c : Chip) : Fin 256 := packetAddress (c.get Register.fifoPointer)

def setFifoPointer (c : Chip) (a : Fin 256) : Chip := c.set Register.fifoPointer (byteOf a)

def fill (c : Chip) (bytes : List UInt8) : Chip :=
  { c with packets := c.packets.store c.fifoPointer bytes }.setFifoPointer
    (Memory.advance c.fifoPointer bytes.length)

def outgoing (c : Chip) : List UInt8 :=
  c.packets.load (packetAddress (c.get Register.txBase)) (c.get Register.payloadLength).toNat

def enterMode (c : Chip) (mode : UInt8) : Chip :=
  let mode := if c.refusesLora then mode &&& ~~~Mode.longRange else mode
  let c := c.set Register.opMode mode
  if Mode.of mode = Mode.transmit then
    { c with countdown := c.txDoneAfter, sent := c.sent ++ [c.outgoing] }
  else { c with countdown := none }

def write (c : Chip) (a : Address) (bytes : List UInt8) : Chip :=
  if a = Register.fifo then c.fill bytes
  else if a = Register.irqFlags then
    match bytes with
    | [] => c
    | b :: _ => c.set a (c.get a &&& ~~~b)
  else if a = Register.opMode then
    match bytes with
    | [] => c
    | b :: _ => c.enterMode b
  else { c with registers := c.registers.store a bytes }

def tickTransmission (c : Chip) : Chip :=
  match c.countdown with
  | none => c
  | some 0 =>
    { c with countdown := none }.set Register.irqFlags (c.get Register.irqFlags ||| Irq.txDone)
  | some (n + 1) => { c with countdown := some n }

def listening (c : Chip) : Bool :=
  Mode.of (c.get Register.opMode) == Mode.receive &&
    !Irq.raised (c.get Register.irqFlags) Irq.rxDone

/-- Puts a frame into the packet memory and reports it. -/
def deliver (c : Chip) (f : Arrival) : Chip :=
  let c := { c with packets := c.packets.store f.base f.data }
  let c := c.set Register.rxCurrent (byteOf f.base)
  let c := c.set Register.rxBytes (UInt8.ofNat f.data.length)
  let c := c.set Register.packetSnr f.snr
  let c := c.set Register.packetRssi f.rssi
  c.set Register.irqFlags (c.get Register.irqFlags ||| f.flags)

/-- The first frame on its way comes one look closer, if the chip listens. -/
def tickArrival (c : Chip) : Chip :=
  if c.listening then
    match c.arrivals with
    | [] => c
    | f :: rest =>
      match f.after with
      | 0 => { c with arrivals := rest }.deliver f
      | n + 1 => { c with arrivals := { f with after := n } :: rest }
  else c

def tick (c : Chip) : Chip := c.tickTransmission.tickArrival

def read (c : Chip) (a : Address) (count : Nat) : Chip × List UInt8 :=
  if a = Register.fifo then
    (c.setFifoPointer (Memory.advance c.fifoPointer count), c.packets.load c.fifoPointer count)
  else
    let c := if a = Register.irqFlags then c.tick else c
    (c, c.registers.load a count)

def reset (c : Chip) : Chip := { c with resets := c.resets + 1 }

end Chip

end RadioGateway
