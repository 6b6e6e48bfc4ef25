import RadioGateway.CommandLine.Session
import RadioGateway.Http.Server

/-!
# The program

Requests come in over the standard input, one a line: a method, a target and a body with single
spaces between. Each is answered by a line with the status and the body. The end of the input is the
request to stop. Everything that is decided is decided elsewhere; what is done here is reading,
writing and looking at the clock.
-/

namespace RadioGateway.CommandLine

open RadioGateway.Log (Filter Record)

def writeLines (stream : IO.FS.Stream) (lines : List String) : IO Unit :=
  lines.forM fun line => stream.putStr (line ++ "\n")

def writeLog (filter : Filter) (records : List Record) : IO Unit := do
  writeLines (← IO.getStderr) ((records.filter filter.shows).map Record.line)

def requestOfLine (line : String) : Http.Request :=
  match Text.splitAt ' ' (line.toList.filter fun c => c ≠ '\n' ∧ c ≠ '\r') with
  | [] => { method := "", target := "" }
  | [method] => { method := String.ofList method, target := "" }
  | method :: target :: body =>
    { method := String.ofList method
      target := String.ofList target
      body := Text.Utf8.encode ([' '].intercalate body) }

def passTime (filter : Filter) (ms : Nat) (g : Gateway) : IO Gateway := do
  let g := g.wait ms
  writeLog filter (g.log.map recordOf)
  return g.clearLog

/-- Answers requests until the input ends. `seen` is when the clock was last looked at. -/
partial def serveLines (filter : Filter) (seen : Nat) (g : Gateway) : IO Gateway := do
  let line ← (← IO.getStdin).getLine
  let now ← IO.monoMsNow
  let g ← passTime filter (now - seen) g
  if line.isEmpty then return g
  let (g, response) := Http.respond g (requestOfLine line)
  writeLines (← IO.getStdout) [Radio.number response.status ++ " " ++ response.body]
  (← IO.getStdout).flush
  serveLines filter now (← passTime filter 0 g)

/-- Runs a gateway with a simulated radio. Its packets are dated from the start of the program. -/
def serve (s : Settings) (filter : Filter) : IO Unit := do
  let bench : Station.Bench := { board := { chip := .fresh Chip.chipVersion } }
  let (g, _) := (Gateway.start .simulated bench s.bufferCapacity 0).startListener {}
  writeLog filter s.opening
  writeLog filter [(Notice.listening s.address).record]
  let _ ← serveLines filter (← IO.monoMsNow) g.clearLog
  writeLog filter closing

def run (arguments : List String) : IO UInt32 := do
  match plan arguments (← IO.getEnv "RUST_LOG") with
  | .over r =>
    writeLines (← IO.getStdout) r.output
    writeLog { directives := [⟨none, some .trace⟩] } r.records
    writeLines (← IO.getStderr) r.complaints
    return UInt32.ofNat r.exitCode
  | .serve s filter complaints =>
    writeLines (← IO.getStderr) complaints
    serve s filter
    return 0

end RadioGateway.CommandLine

def main (arguments : List String) : IO UInt32 := RadioGateway.CommandLine.run arguments
