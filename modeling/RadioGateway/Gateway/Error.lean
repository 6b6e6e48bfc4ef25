import RadioGateway.Radio.Error

/-!
# What can go wrong between a client and the radio
-/

namespace RadioGateway.Gateway

open RadioGateway.Radio (RadioError)

inductive GatewayError where
  | configuration (reason : String)
  | driver (e : RadioError)
  | decode (reason : String)
  | serialization (reason : String)
  deriving DecidableEq, Repr

def GatewayError.message : GatewayError → String
  | .configuration reason => "Invalid configuration: " ++ reason
  | .driver e => "Radio error: " ++ e.message
  | .decode reason => "Invalid packet (decode error): " ++ reason
  | .serialization reason => "Serialization error: " ++ reason

end RadioGateway.Gateway
