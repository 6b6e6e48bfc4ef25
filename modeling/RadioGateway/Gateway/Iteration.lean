import RadioGateway.Gateway.Inbox
import RadioGateway.Gateway.Listener
import RadioGateway.Station.Solo

/-!
# A single iteration of the receive loop

The loop's work once over, for a station that nobody else uses.
-/

namespace RadioGateway.Gateway

open RadioGateway.Station

/-- Waits for a packet, or for the next test packet of a simulated radio, and publishes it. The
second result is the time in milliseconds that it takes. -/
def iteration (t : Timing) (timestamp : Float) (s : Station) (i : Inbox) :
    Effect (Station × Inbox) (Except Interruption Unit × Nat) :=
  if s.simulated then
    let (i, log) := i.acceptSynthetic timestamp
    { state := (s, i), log, result := (.ok (), t.simulationInterval) }
  else
    let e := s.receive t.receiveTimeout
    match e.result with
    | (.ok none, ms) => { state := (e.state, i), log := e.log, result := (.ok (), ms) }
    | (.ok (some f), ms) =>
      let (i, log) := i.accept f timestamp
      { state := (e.state, i), log := e.log ++ log, result := (.ok (), ms) }
    | (.error reason, ms) => { state := (e.state, i), log := e.log, result := (.error reason, ms) }

end RadioGateway.Gateway
