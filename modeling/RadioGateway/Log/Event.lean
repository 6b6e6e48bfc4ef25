import RadioGateway.Gateway.Error
import RadioGateway.Radio.Frame

/-!
# The log

What the gateway reports, as events. The wording and the level of an event are decided here only.
-/

namespace RadioGateway.Log

open RadioGateway.Radio
open RadioGateway.Gateway (GatewayError)

inductive Level where
  | error
  | warn
  | info
  | debug
  | trace
  deriving DecidableEq, Repr

/-- Severity: a log set to a level shows the levels of no greater rank. -/
def Level.rank : Level → Nat
  | .error => 1
  | .warn => 2
  | .info => 3
  | .debug => 4
  | .trace => 5

def Level.name : Level → String
  | .error => "ERROR"
  | .warn => "WARN"
  | .info => "INFO"
  | .debug => "DEBUG"
  | .trace => "TRACE"

inductive Event where
  | simulatedConnect
  | simulatedSend (length : Nat)
  | releasing
  | released
  | sleepFailed (e : RadioError)
  | tunedTo (mhz : Float)
  | powerSet (dbm : Int)
  | bandwidthSet (hz : Nat)
  | spreadingSet (factor : Nat)
  | sent (length : Nat)
  | transmitLost
  | frameGarbled
  | connected (device : String) (config : Config)
  | connectFailed (e : RadioError)
  | requestFailed (e : GatewayError)
  | syntheticPacket
  | received (length : Nat) (signal : Signal)
  | undecodable (e : GatewayError)
  | bufferFull (capacity : Nat)
  | loopStarted
  | loopStopped
  | loopFailed (e : GatewayError)
  | loopCrashed (reason : String)

def Event.level : Event → Level
  | .simulatedConnect | .simulatedSend _ | .released | .tunedTo _ | .powerSet _ | .bandwidthSet _
  | .spreadingSet _ | .sent _ | .connected _ _ | .received _ _ | .loopStarted
    | .loopStopped => .info
  | .releasing | .frameGarbled | .syntheticPacket => .debug
  | .sleepFailed _ | .transmitLost | .requestFailed _ | .undecodable _ | .bufferFull _ => .warn
  | .connectFailed _ | .loopFailed _ | .loopCrashed _ => .error

def dumpOption : Option Float → String
  | none => "None"
  | some x => "Some(" ++ String.ofList (Decimal.dump.write x) ++ ")"

def Event.message : Event → String
  | .simulatedConnect => "[MOCK] LoRa radio initialized (mock mode)"
  | .simulatedSend length => "[MOCK] Would send " ++ number length ++ " bytes"
  | .releasing => "Releasing previously attached radio before reconnect"
  | .released => "[LoRa] Radio released"
  | .sleepFailed e => "Failed to put radio to sleep on release: " ++ e.message
  | .tunedTo mhz => "[LoRa] Initialized at " ++ plainNumber mhz ++ " MHz"
  | .powerSet dbm => "[LoRa] TX Power: " ++ signedNumber dbm ++ " dBm"
  | .bandwidthSet hz => "[LoRa] Bandwidth: " ++ plainNumber (Float.ofNat hz / 1000) ++ " kHz"
  | .spreadingSet factor => "[LoRa] Spreading Factor: SF" ++ number factor
  | .sent length => "[LoRa TX] Sent " ++ number length ++ " bytes"
  | .transmitLost => "[LoRa TX] TX_DONE not raised, returning to receive"
  | .frameGarbled => "[LoRa RX] CRC error, frame discarded"
  | .connected device config => "Connected to " ++ device ++ " (" ++ config.dump ++ ")"
  | .connectFailed e => "Failed to connect radio: " ++ e.message
  | .requestFailed e => "Request failed: " ++ e.message
  | .syntheticPacket => "[MOCK] Generated test packet"
  | .received length signal =>
    "[LoRa RX] Received " ++ number length ++ " bytes (RSSI: " ++ dumpOption signal.rssi ++
      " dBm, SNR: " ++ dumpOption signal.snr ++ " dB)"
  | .undecodable e => "[LoRa RX] " ++ e.message ++ ", packet discarded"
  | .bufferFull capacity =>
    "Packet buffer full (" ++ number capacity ++ " packets), dropping new packet"
  | .loopStarted => "Receive loop started"
  | .loopStopped => "Receive loop stopped"
  | .loopFailed e => "Error in receive loop: " ++ e.message
  | .loopCrashed reason => "Receive loop panicked: " ++ reason ++ ", restarting"

def Event.line (e : Event) : String := e.level.name ++ " " ++ e.message

end RadioGateway.Log
