import RadioGateway.Gateway.Packet

/-!
# Link statistics
-/

namespace RadioGateway.Gateway

open RadioGateway.Radio (Signal)

structure Stats where
  /-- Packets received, also those that were dropped. -/
  received : Nat := 0
  sent : Nat := 0
  /-- Of the last packet received. -/
  last : Signal := {}
  /-- Packets that found the buffer full. -/
  dropped : Nat := 0
  /-- Frames that were no text. -/
  decodeErrors : Nat := 0

namespace Stats

def recordReceived (s : Stats) (signal : Signal) : Stats :=
  { s with received := s.received + 1, last := signal }

def recordDropped (s : Stats) (signal : Signal) : Stats :=
  { s with received := s.received + 1, dropped := s.dropped + 1, last := signal }

def recordSent (s : Stats) : Stats := { s with sent := s.sent + 1 }

def recordDecodeError (s : Stats) : Stats := { s with decodeErrors := s.decodeErrors + 1 }

def toJson (s : Stats) : Json.Value :=
  .object
    [("packets_received", .integer s.received),
     ("packets_sent", .integer s.sent),
     ("last_rssi", optionalReal s.last.rssi),
     ("last_snr", optionalReal s.last.snr),
     ("packets_dropped", .integer s.dropped),
     ("decode_errors", .integer s.decodeErrors)]

end Stats

end RadioGateway.Gateway
