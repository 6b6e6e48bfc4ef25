import RadioGateway.Chip.Register
import RadioGateway.Radio.Airtime
import RadioGateway.Radio.Frame

/-!
# What a configuration programs

The register writes that put a configuration into the chip, as data, and the formulas behind them.
-/

namespace RadioGateway.Chip

open RadioGateway.Radio (Config Signal)

abbrev RegisterWrite := Address × List UInt8

/-- Frequency of the oscillator in Hz. -/
def oscillator : Nat := 32000000

/-- The bandwidths of the chip in Hz, at the places of their codes. -/
def bandwidthSteps : List Nat :=
  [7800, 10400, 15600, 20800, 31250, 41700, 62500, 125000, 250000, 500000]

/-- The code of the smallest step that is not below a bandwidth, or of the largest step. -/
def bandwidthCode (hz : Nat) : Nat :=
  (bandwidthSteps.findIdx? (hz ≤ ·)).getD (bandwidthSteps.length - 1)

/-- The mode register, with the bits that every mode has. -/
def modeByte (c : Config) (mode : UInt8) : UInt8 :=
  Mode.longRange ||| (if c.frequency < 525 then Mode.lowFrequency else 0) ||| mode

def setMode (c : Config) (mode : UInt8) : RegisterWrite := (Register.opMode, [modeByte c mode])

def frequencyWord (c : Config) : Nat := (c.hertz <<< 19) / oscillator

def bytes3 (n : Nat) : List UInt8 :=
  [UInt8.ofNat (n >>> 16), UInt8.ofNat (n >>> 8), UInt8.ofNat n]

def modem1 (c : Config) : UInt8 :=
  UInt8.ofNat (bandwidthCode c.bandwidth * 16 + (c.codingRate - 4) * 2)

/-- Payloads carry a checksum. -/
def modem2 (c : Config) : UInt8 := UInt8.ofNat (c.spreadingFactor * 16 + 4)

def optimizesLowRate (c : Config) : Bool :=
  match c.symbolMicros with
  | .ok micros => Radio.slowSymbol micros
  | .error _ => false

/-- The gain is automatic. -/
def modem3 (c : Config) : UInt8 := if optimizesLowRate c then 0x0C else 0x04

/-- Powers above 20 dBm need the strong amplifier, which adds 3 dB. -/
def strongAmplifier (c : Config) : Bool := 20 < c.txPower

def amplifier (c : Config) : UInt8 := if strongAmplifier c then 0x87 else 0x84

def outputPower (c : Config) : UInt8 :=
  let power := max 5 (min c.txPower 23)
  0x80 ||| (UInt8.ofNat ((if strongAmplifier c then power - 3 else power) - 5).toNat &&& 0x0F)

def detection (c : Config) : UInt8 × UInt8 :=
  if c.spreadingFactor = 6 then (0xC5, 0x0C) else (0xC3, 0x0A)

def settings (c : Config) : List RegisterWrite :=
  [(Register.frf, bytes3 (frequencyWord c)),
   (Register.modemConfig1, [modem1 c]),
   (Register.modemConfig2, [modem2 c]),
   (Register.modemConfig3, [modem3 c]),
   (Register.detectionOptimize, [(detection c).1]),
   (Register.detectionThreshold, [(detection c).2]),
   (Register.preamble, [0x00, UInt8.ofNat Radio.preambleLength]),
   (Register.paDac, [amplifier c]),
   (Register.paConfig, [outputPower c]),
   (Register.lna, [0x23]),
   (Register.dioMapping1, [0x00])]

/-- Sent and received packets share the packet memory from its start. -/
def baseAddresses : List RegisterWrite := [(Register.txBase, [0x00]), (Register.rxBase, [0x00])]

def listen (c : Config) : List RegisterWrite :=
  [(Register.irqFlags, [Irq.all]), (Register.fifoPointer, [0x00]), setMode c Mode.receive]

/-- All that follows once the chip speaks LoRa. -/
def configure (c : Config) : List RegisterWrite :=
  baseAddresses ++ setMode c Mode.standby :: settings c ++ listen c

def launch (c : Config) (payload : List UInt8) : List RegisterWrite :=
  [setMode c Mode.standby,
   (Register.fifoPointer, [0x00]),
   (Register.fifo, payload),
   (Register.payloadLength, [UInt8.ofNat payload.length]),
   (Register.irqFlags, [Irq.all]),
   setMode c Mode.transmit]

def packetSignal (c : Config) (snrByte rssiByte : UInt8) : Signal :=
  let snr := Float.ofInt snrByte.toInt8.toInt / 4
  let raw := Float.ofNat rssiByte.toNat
  let offset : Float := if c.frequency < 779 then -164 else -157
  { rssi := some (if snr < 0 then offset + raw + snr else offset + raw * 16 / 15), snr := some snr }

end RadioGateway.Chip
