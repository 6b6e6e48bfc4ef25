import RadioGateway.CommandLine.Address
import RadioGateway.CommandLine.Arguments
import RadioGateway.Log.Filter

/-!
# A run of the program

From the arguments to the gateway that listens, and from the request to stop to the end. A run ends
without a gateway if the user asks for help or does something wrong, if the buffer has no room, or
if nothing can listen at the address.
-/

namespace RadioGateway.CommandLine

open RadioGateway.Log (Filter Level Record)
open RadioGateway.Radio (number)

def description : String := "HTTP gateway for Raspberry Pi LoRa HATs (RFM9x)"

/-- What the program says of itself while it starts and stops. -/
inductive Notice where
  | starting
  | simulationRequested
  | withoutHardware (s : Settings)
  | available (radio : Bool)
  | buffering (capacity : Nat)
  | listening (address : String)
  | shutdownRequested
  | stopped

namespace Notice

def level : Notice → Level
  | .withoutHardware _ => .warn
  | _ => .info

def message : Notice → String
  | .starting => "LoRa HAT gateway starting"
  | .simulationRequested => "Simulation mode requested, no radio will be used"
  | .withoutHardware s =>
    "Built without raspberry-pi support, running in simulation mode (SPI" ++ number s.pins.bus ++
      " CE" ++ number s.pins.chipSelect ++ " reset GPIO " ++ number s.pins.reset ++ " ignored)"
  | .available radio => "LoRa available: " ++ (if radio then "true" else "false")
  | .buffering capacity => "Buffering up to " ++ number capacity ++ " packets"
  | .listening address => "Listening on http://" ++ address
  | .shutdownRequested => "Shutdown requested"
  | .stopped => "Gateway stopped"

def record (n : Notice) : Record := ⟨n.level, "lora_hat_gateway::logging", n.message⟩

end Notice

/-- The receive loop and the rest of the gateway are told apart in the log. -/
def source : Log.Event → String
  | .syntheticPacket | .received _ _ | .undecodable _ | .loopStarted | .loopStopped | .loopFailed _
  | .loopCrashed _ => "lora_hat_gateway::gateway::receiver"
  | _ => "lora_hat_gateway"

def recordOf (e : Log.Event) : Record := ⟨e.level, source e, e.message⟩

def Settings.address (s : Settings) : String := s.bind ++ ":" ++ number s.port

/-- This program drives no radio, so a simulated one takes its place whether it is asked for or
not. -/
def Settings.choice (s : Settings) : Notice :=
  if s.simulate then .simulationRequested else .withoutHardware s

/-- Up to the attempt to listen. -/
def Settings.opening (s : Settings) : List Record :=
  [Notice.starting.record, s.choice.record, (Notice.available false).record,
   (Notice.buffering (max s.bufferCapacity 1)).record, recordOf .loopStarted]

/-- What the server says of its end. -/
def serverClosing : List Record :=
  ["signal received, not accepting new connections",
    "received graceful shutdown signal. Telling tasks to shutdown",
    "waiting for 0 task(s) to finish"].map fun message => ⟨.trace, "axum::serve", message⟩

/-- What the records of a run that is asked to stop end with. -/
def closing : List Record :=
  Notice.shutdownRequested.record :: serverClosing ++ [recordOf .loopStopped, Notice.stopped.record]

structure Result where
  exitCode : Nat
  served : Bool := false
  output : List String := []
  /-- Lines written to the error output, records apart. -/
  complaints : List String := []
  records : List Record := []
  deriving DecidableEq, Repr

def usageLines : List String :=
  ["Usage: lora-hat-gateway [OPTIONS]", "", "For more information, try '--help'."]

def Flag.helpLine (f : Flag) : String :=
  let letter := match f.short with
    | some c => "  -" ++ String.ofList [c] ++ ", "
    | none => "      "
  let default := match f.defaultText with
    | some text => " [default: " ++ text ++ "]"
    | none => ""
  let column := String.ofList (List.replicate (38 - f.spelling.length) ' ')
  letter ++ f.spelling ++ column ++ f.summary ++ default

def helpLines : List String :=
  [description, "", "Usage: lora-hat-gateway [OPTIONS]", "", "Options:"] ++
    Flag.all.map Flag.helpLine

inductive Plan where
  | over (r : Result)
  | serve (s : Settings) (filter : Filter) (complaints : List String)

/-- What the arguments and the filter of the environment come to. -/
def plan (arguments : List String) (environmentFilter : Option String) : Plan :=
  match Settings.ofArguments arguments with
  | .error .help => .over { exitCode := 0, output := helpLines }
  | .error (.wrong e) =>
    .over { exitCode := 2, complaints := ("error: " ++ e.message) :: "" :: usageLines }
  | .ok s =>
    let (filter, faults) := Filter.read (environmentFilter.getD s.logLevel)
    let warnings := faults.map fun fault => "warning: " ++ fault.message ++ ", ignoring it"
    if s.bufferCapacity = 0 then
      .over { exitCode := 1
              complaints := warnings ++ ["Error: --buffer-capacity must be at least 1"] }
    else if isListenable s.bind then .serve s filter warnings
    else
      .over { exitCode := 1
              complaints := warnings ++ ["Error: Failed to bind " ++ s.address]
              records := s.opening.filter filter.shows }

/-- A run that is stopped as soon as it listens. -/
def Plan.result : Plan → Result
  | .over r => r
  | .serve s filter complaints =>
    { exitCode := 0
      served := true
      complaints
      records := (s.opening ++ (Notice.listening s.address).record :: closing).filter filter.shows }

end RadioGateway.CommandLine
