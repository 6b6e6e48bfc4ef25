import RadioGateway.Gateway.Run
import RadioGateway.Http.Endpoint

/-!
# Answering requests

A request is answered at once, or it waits for the radio and is answered with the outcome.
-/

namespace RadioGateway.Http

open RadioGateway.Gateway (Answer GatewayError Manner Outcome Packet Report)

def failureBody (e : GatewayError) : Json.Value :=
  .object [("success", .bool false), ("error", .string e.message)]

def disconnectedText : String := "Disconnected from LoRa radio"

def answerBody : Answer → Json.Value
  | .connected device config =>
    .object [("success", .bool true), ("deviceName", .string device.name),
      ("config", config.toJson)]
  | .disconnected => .object [("success", .bool true), ("message", .string disconnectedText)]
  | .sent length simulated =>
    .object ([("success", .bool true), ("bytes_sent", .integer length)] ++
      if simulated then [("mock", .bool true)] else [])

def packetsBody (packets : List Packet) : Json.Value := .array (packets.map Packet.toJson)

def statsBody (r : Report) : Json.Value :=
  .object
    [("success", .bool true),
     ("stats", r.stats.toJson),
     ("config", r.link.config.toJson),
     ("connected", .bool r.link.connected)]

def serviceName : String := "gatemesh-lora-hat"

def healthBody (available connected : Bool) : Json.Value :=
  .object
    [("status", .string "ok"),
     ("service", .string serviceName),
     ("lora_available", .bool available),
     ("connected", .bool connected)]

namespace Response

def ok (body : Json.Value) : Response := ofJson 200 body.render

def failure (e : GatewayError) : Response := ofJson 500 (failureBody e).render

def ofOutcome : Outcome → Response
  | .ok answer => ok (answerBody answer)
  | .error e => failure e

def forMethod (method : String) (r : Response) : Response :=
  if method = "HEAD" then { r with body := "" } else r

end Response

/-- A request that was answered, or whose outcome is to come. -/
inductive Exchange where
  | answered (r : Response)
  | pending (id : Nat)

def serve (g : Gateway) (manner : Manner) (r : Request) : Gateway × Exchange :=
  match r.call with
  | .submit request =>
    let (g, id) := g.submit .http manner request
    (g, .pending id)
  | .poll =>
    let (g, packets) := g.poll
    (g, .answered ((Response.ok (packetsBody packets)).forMethod r.method))
  | .stats => (g, .answered ((Response.ok (statsBody g.report)).forMethod r.method))
  | .health =>
    let body := healthBody (!g.station.simulated) g.report.link.connected
    (g, .answered ((Response.ok body).forMethod r.method))
  | .failed e => (g.note [.requestFailed e], .answered (.failure e))
  | .answered response => (g, .answered response)

/-- The response to a request that was taken in; time goes by until it is there. -/
def Exchange.finish (e : Exchange) (g : Gateway) : Gateway × Response :=
  match e with
  | .answered r => (g, r)
  | .pending id =>
    let (g, outcome) := g.collect id
    (g, .ofOutcome (outcome.getD (.error (.driver .notConnected))))

def respond (g : Gateway) (r : Request) : Gateway × Response :=
  let (g, e) := serve g .foreground r
  e.finish g

end RadioGateway.Http
