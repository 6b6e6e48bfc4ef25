import RadioGateway.Gateway.Error
import RadioGateway.Json.Writer
import RadioGateway.Radio.Frame
import RadioGateway.Text.Hex
import RadioGateway.Text.Utf8

/-!
# Packets

A packet is a frame whose payload is text, with the time it came in.
-/

namespace RadioGateway.Gateway

open RadioGateway.Radio (Frame Signal)
open RadioGateway.Text

structure Packet where
  data : String
  signal : Signal
  /-- Seconds since 1970. -/
  timestamp : Float

def decodeReason (payload : List UInt8) (e : Utf8.DecodeError) : String :=
  let place := " from index " ++ Radio.number e.index ++ " (payload " ++
    String.ofList (hex payload) ++ ")"
  match e.length with
  | some n => "invalid utf-8 sequence of " ++ Radio.number n ++ " bytes" ++ place
  | none => "incomplete utf-8 byte sequence" ++ place

def Packet.ofFrame (f : Frame) (timestamp : Float) : Except GatewayError Packet :=
  match Utf8.decode f.data with
  | .ok text => .ok { data := String.ofList text, signal := f.signal, timestamp }
  | .error e => .error (.decode (decodeReason f.data e))

def Packet.synthetic (timestamp : Float) : Packet :=
  { data := "\x7b\"from\":\"!12345678\",\"to\":\"^all\",\"test\":true\x7d"
    signal := { rssi := some (-45.0), snr := some 8.5 }
    timestamp }

/-- A measurement that may be missing. -/
def optionalReal : Option Float → Json.Value
  | none => .null
  | some x => .real x

def Packet.toJson (p : Packet) : Json.Value :=
  .object
    [("data", .string p.data),
     ("rssi", optionalReal p.signal.rssi),
     ("snr", optionalReal p.signal.snr),
     ("timestamp", .real p.timestamp)]

end RadioGateway.Gateway
