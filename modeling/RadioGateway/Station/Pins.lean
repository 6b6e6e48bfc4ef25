import RadioGateway.Station.Driver

/-!
# Pins

How the radio is wired to the header of the board.
-/

namespace RadioGateway.Station

open RadioGateway.Radio

structure Pins where
  bus : Nat := 0
  chipSelect : Nat := 1
  reset : Nat := 25
  deriving DecidableEq, Repr

namespace Pins

/-- A bus or a line that no board has. The bus is looked at first. -/
def fault? (p : Pins) : Option BusError :=
  if 1 < p.bus then
    some (.invalidConfig ("Invalid SPI bus " ++ number p.bus ++ ", only 0 and 1 are supported"))
  else if 2 < p.chipSelect then
    some (.invalidConfig ("Invalid chip select " ++ number p.chipSelect))
  else none

def hardware (p : Pins) : Hardware :=
  match p.fault? with
  | some e => .unavailable e
  | none => .board

def dump (p : Pins) : String :=
  "Rfm9xPins \x7b spi_bus: " ++ number p.bus ++ ", chip_select: " ++ number p.chipSelect ++
    ", reset: " ++ number p.reset ++ " \x7d"

end Pins

end RadioGateway.Station
