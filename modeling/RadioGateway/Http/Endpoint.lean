import RadioGateway.Http.ConnectRequest
import RadioGateway.Http.Message
import RadioGateway.Gateway.Client
import RadioGateway.Json.Reader

/-!
# Endpoints

Which operation a request names. Requests that change something are posted; the others are fetched,
and a fetch may ask for the headers only.
-/

namespace RadioGateway.Http

open RadioGateway.Gateway (GatewayError)

inductive Endpoint where
  | connect
  | disconnect
  | send
  | poll
  | stats
  | health
  deriving DecidableEq, Repr

namespace Endpoint

def all : List Endpoint := [.connect, .disconnect, .send, .poll, .stats, .health]

def path : Endpoint → String
  | .connect => "/api/lora/connect"
  | .disconnect => "/api/lora/disconnect"
  | .send => "/api/lora/send"
  | .poll => "/api/lora/poll"
  | .stats => "/api/lora/stats"
  | .health => "/api/health"

def methods : Endpoint → List String
  | .connect | .disconnect | .send => ["POST"]
  | .poll | .stats | .health => ["GET", "HEAD"]

def allowed (e : Endpoint) : String := ",".intercalate e.methods

def find? (path : String) : Option Endpoint := all.find? (·.path = path)

theorem mem_all (e : Endpoint) : e ∈ all := by cases e <;> decide

end Endpoint

/-- Octets of a body that an endpoint takes in. -/
def bodyLimit : Nat := 2097152

inductive Call where
  | submit (r : Gateway.Request)
  | poll
  | stats
  | health
  /-- A body without meaning. -/
  | failed (e : GatewayError)
  /-- Nothing that concerns the gateway. -/
  | answered (r : Response)

/-- A document to be sent is encoded anew. -/
def Call.ofDocument (body : List UInt8) : Call :=
  match Json.read body with
  | .ok document => .submit (.send (.ok (Text.Utf8.encode document.write)))
  | .error e => .failed (.serialization e.message)

/-- A body within the limit, read by the endpoint that was asked for. -/
def Call.ofBody (body : List UInt8) (read : List UInt8 → Call) : Call :=
  if bodyLimit < body.length then .answered .tooLarge else read body

def Endpoint.call (e : Endpoint) (body : List UInt8) : Call :=
  match e with
  | .connect => .ofBody body fun body =>
    match ConnectRequest.ofBody body with
    | .ok u => .submit (.connect u)
    | .error e => .failed e
  | .disconnect => .submit .disconnect
  | .send => .ofBody body .ofDocument
  | .poll => .poll
  | .stats => .stats
  | .health => .health

/-- A request from a browser that asks beforehand is answered whatever its path is. -/
def Request.call (r : Request) : Call :=
  let endpoint := Endpoint.find? r.path
  if r.method = "OPTIONS" then .answered (.preflight (endpoint.map Endpoint.allowed))
  else
    match endpoint with
    | none => .answered .notFound
    | some e =>
      if e.methods.contains r.method then e.call r.body
      else .answered (.methodNotAllowed e.allowed)

end RadioGateway.Http
