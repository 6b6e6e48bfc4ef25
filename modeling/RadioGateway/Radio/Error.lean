import RadioGateway.Radio.Config

/-!
# What can go wrong at the radio
-/

namespace RadioGateway.Radio

/-- A failed access to the bus or to the lines of the radio. -/
inductive BusError where
  | spi (reason : String)
  | gpio (reason : String)
  | invalidConfig (reason : String)
  deriving DecidableEq, Repr

def BusError.message : BusError → String
  | .spi reason => "SPI communication error: " ++ reason
  | .gpio reason => "GPIO operation error: " ++ reason
  | .invalidConfig reason => "Invalid configuration: " ++ reason

inductive RadioError where
  | bus (e : BusError)
  | invalidParams (reason : String)
  | timeout (reason : String)
  | notConnected
  | payloadTooLarge (length limit : Nat)
  | device (reason : String)
  deriving DecidableEq, Repr

def RadioError.message : RadioError → String
  | .bus e => "HAL error: " ++ e.message
  | .invalidParams reason => "Invalid parameters: " ++ reason
  | .timeout reason => "Operation timeout: " ++ reason
  | .notConnected => "Radio not connected"
  | .payloadTooLarge length limit =>
    "Payload too large: " ++ number length ++ " bytes (max " ++ number limit ++ ")"
  | .device reason => "Device error: " ++ reason

def ConfigFault.toError (f : ConfigFault) : RadioError := .invalidParams f.message

end RadioGateway.Radio
