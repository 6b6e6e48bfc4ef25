import RadioGateway.Gateway.Error
import RadioGateway.Json.Error
import RadioGateway.Station.Basic

/-!
# Requests and where they stand
-/

namespace RadioGateway.Gateway

open RadioGateway.Radio (Config RadioError Update)
open RadioGateway.Station (Device Opening)

/-- What a client asks of the radio. A payload that cannot be encoded comes with what is wrong. -/
inductive Request where
  | connect (u : Update)
  | disconnect
  | send (payload : Except Json.Error (List UInt8))

inductive Answer where
  | connected (device : Device) (config : Config)
  | disconnected
  | sent (length : Nat) (simulated : Bool)

abbrev Outcome := Except GatewayError Answer

/-- What a client wants the radio for. -/
inductive Errand where
  | attach (c : Config)
  /-- After an opening that failed: to see whether a driver is left. -/
  | confirm (e : RadioError)
  | detach
  | send (payload : List UInt8)

/-- Where a request stands. Connects and disconnects take turns; one that has its turn goes on to
the radio, which it shares with the sends and the receive loop. -/
inductive Stage where
  | arrived (r : Request)
  | waitingTurn (r : Request)
  | waitingRadio (e : Errand)
  | opening (c : Config) (o : Opening)
  | transmitting (length looks : Nat)
  | finished (outcome : Outcome)

def Stage.isFinished : Stage → Bool
  | .finished _ => true
  | _ => false

/-- A failure that reaches a client over HTTP is logged. -/
inductive Origin where
  | direct
  | http
  deriving DecidableEq, Repr

/-- A request in the foreground is one whose outcome is waited for on the spot. It gives way: when
it is handed a lock it goes on after all others who can, though the clock wakes it before them. -/
inductive Manner where
  | foreground
  | background
  deriving DecidableEq, Repr

structure Client where
  origin : Origin
  manner : Manner
  stage : Stage

end RadioGateway.Gateway
