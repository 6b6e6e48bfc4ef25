import RadioGateway.Chip.Board
import RadioGateway.Chip.Program

/-!
# Driving the chip

The steps of opening, sending and receiving between two pauses. Between its packets an open chip
listens all the time. Sending and receiving look at the interrupt flags again and again; how often
is decided by whoever waits.
-/

namespace RadioGateway.Chip

open RadioGateway.Radio (Config RadioError Signal)

def payloadLimit : Nat := 252

def hexUpper (b : UInt8) : String :=
  "0x" ++ String.ofList [(Nat.digitChar (b.toNat / 16)).toUpper,
    (Nat.digitChar (b.toNat % 16)).toUpper]

def wrongVersion (version : UInt8) : RadioError :=
  .device ("unexpected chip version " ++ hexUpper version ++
    " (expected " ++ hexUpper chipVersion ++ "), is the HAT seated?")

/-- Resets the chip, makes sure that it is one, and puts it to sleep, where LoRa can be chosen. -/
def identify : Bus Unit := do
  resetChip
  let version ← readByte Register.version
  if version ≠ chipVersion then throw (wrongVersion version)
  writeByte Register.opMode (Mode.longRange ||| Mode.sleep)

def bringUp (c : Config) : Bus Unit := do
  let mode ← readByte Register.opMode
  if mode &&& Mode.longRange = 0 then throw (.device "radio refused LoRa mode")
  writeAll (configure c)

def beginTransmit (c : Config) (payload : List UInt8) : Bus Unit :=
  if payloadLimit < payload.length then throw (.payloadTooLarge payload.length payloadLimit)
  else writeAll (launch c payload)

/-- Looks whether a transmission is done; when it is, the chip listens again. -/
def checkTransmit (c : Config) : Bus Bool := do
  let flags ← readByte Register.irqFlags
  if Irq.raised flags Irq.txDone then
    writeAll (listen c)
    return true
  else return false

def abandonTransmit (c : Config) : Bus Unit := do
  writeAll (listen c)
  throw (.timeout "transmit did not complete")

inductive Look where
  | nothing
  /-- A frame whose checksum is wrong. -/
  | garbled
  | frame (data : List UInt8) (signal : Signal)

def readPacket (c : Config) : Bus (List UInt8 × Signal) := do
  let start ← readByte Register.rxCurrent
  let length ← readByte Register.rxBytes
  writeByte Register.fifoPointer start
  let data ← readBytes Register.fifo length.toNat
  let snr ← readByte Register.packetSnr
  let rssi ← readByte Register.packetRssi
  return (data, packetSignal c snr rssi)

/-- Looks for a frame and reads it. It stays pending until the flags are cleared. -/
def look (c : Config) : Bus Look := do
  let flags ← readByte Register.irqFlags
  if !Irq.raised flags Irq.rxDone then return .nothing
  else if Irq.raised flags Irq.crcError then return .garbled
  else
    let (data, signal) ← readPacket c
    return .frame data signal

def clearFlags : Bus Unit := writeByte Register.irqFlags Irq.all

def putToSleep (c : Config) : Bus Unit := writeAll [setMode c Mode.sleep]

end RadioGateway.Chip
