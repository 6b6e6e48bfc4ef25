import RadioGateway.Chip.Memory

/-!
# The register map of an SX127x in LoRa mode

Addresses, operating modes and interrupt bits that the driver uses.
-/

namespace RadioGateway.Chip

abbrev Address := Fin 128

namespace Register

def fifo : Address := 0x00
def opMode : Address := 0x01
/-- Carrier frequency, three bytes. -/
def frf : Address := 0x06
def paConfig : Address := 0x09
def lna : Address := 0x0C
def fifoPointer : Address := 0x0D
def txBase : Address := 0x0E
def rxBase : Address := 0x0F
def rxCurrent : Address := 0x10
/-- Interrupts that have been raised; writing a one clears it. -/
def irqFlags : Address := 0x12
def rxBytes : Address := 0x13
/-- Signal to noise ratio of the last packet, signed, in quarters of a dB. -/
def packetSnr : Address := 0x19
def packetRssi : Address := 0x1A
def modemConfig1 : Address := 0x1D
def modemConfig2 : Address := 0x1E
/-- Length of the preamble, two bytes. -/
def preamble : Address := 0x20
def payloadLength : Address := 0x22
def modemConfig3 : Address := 0x26
def detectionOptimize : Address := 0x31
def detectionThreshold : Address := 0x37
def dioMapping1 : Address := 0x40
def version : Address := 0x42
def paDac : Address := 0x4D

end Register

namespace Mode

/-- Set while the chip speaks LoRa. -/
def longRange : UInt8 := 0x80
def lowFrequency : UInt8 := 0x08
def sleep : UInt8 := 0x00
def standby : UInt8 := 0x01
def transmit : UInt8 := 0x03
def receive : UInt8 := 0x05

/-- The operating mode in a mode register, without its other bits. -/
def of (b : UInt8) : UInt8 := b &&& 0x07

end Mode

namespace Irq

def txDone : UInt8 := 0x08
def validHeader : UInt8 := 0x10
def crcError : UInt8 := 0x20
def rxDone : UInt8 := 0x40
def all : UInt8 := 0xFF

def raised (flags bit : UInt8) : Bool := flags &&& bit != 0

end Irq

/-- What the version register holds on every chip of the family. -/
def chipVersion : UInt8 := 0x12

end RadioGateway.Chip
