import RadioGateway.Log.Event
import RadioGateway.Station.Basic

/-!
# Where a receive loop stands

A loop waits for the radio, listens for a slice of time, and gives the radio back. An iteration
that fails is followed by a pause; a crash is followed by the same pause and a fresh start.
-/

namespace RadioGateway.Gateway

open RadioGateway.Log (Event)
open RadioGateway.Station (Listening)

/-- Milliseconds. -/
structure Timing where
  /-- The longest a single receive waits. -/
  receiveTimeout : Nat := 500
  /-- Between the packets of a simulated radio. -/
  simulationInterval : Nat := 5000
  /-- After an iteration that failed, and after a crash. -/
  errorBackoff : Nat := 1000
  deriving DecidableEq, Repr

inductive ListenerStage where
  | starting
  | proceeding (deadline : Option Nat)
  | simulating
  | waitingRadio (deadline slice : Nat)
  | listening (deadline : Nat) (l : Listening)
  | idle (deadline : Nat)
  | backingOff
  | crashed (reason : String)
  | restarting
  deriving DecidableEq, Repr

def ListenerStage.running : ListenerStage → Bool
  | .crashed _ | .restarting => false
  | _ => true

/-- What the log says of a loop that is told to stop. A loop that has not begun yet begins in order
to stop; a crash is reported first, and after it there is no loop that could report its end. -/
def ListenerStage.lastWords : ListenerStage → List Event
  | .starting => [.loopStarted, .loopStopped]
  | .crashed reason => [.loopCrashed reason]
  | .restarting => []
  | _ => [.loopStopped]

structure Listener where
  timing : Timing
  stage : ListenerStage
  deriving DecidableEq, Repr

end RadioGateway.Gateway
