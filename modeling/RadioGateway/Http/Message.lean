/-!
# Requests and responses

Of a request only the method, the target and the body matter; every answer carries the headers that
let a page from anywhere read it.
-/

namespace RadioGateway.Http

structure Request where
  method : String
  target : String
  body : List UInt8 := []

/-- Up to the query or the fragment. -/
def withoutQuery (target : List Char) : List Char := target.takeWhile fun c => c ≠ '?' ∧ c ≠ '#'

/-- What follows `://`, if that is in the text. -/
def afterScheme : List Char → Option (List Char)
  | [] => none
  | ':' :: '/' :: '/' :: rest => some rest
  | _ :: rest => afterScheme rest

/-- The path of a target, which may be absolute. Paths are compared as they are written. -/
def Request.path (r : Request) : String :=
  let text := withoutQuery r.target.toList
  if text.head? = some '/' then String.ofList text
  else
    match afterScheme text with
    | none => String.ofList text
    | some rest =>
      match rest.dropWhile (· ≠ '/') with
      | [] => "/"
      | path => String.ofList path

structure Response where
  status : Nat
  headers : List (String × String)
  body : String
  deriving DecidableEq, Repr

def openToAll : String × String := ("access-control-allow-origin", "*")

namespace Response

def empty (status : Nat) (headers : List (String × String)) : Response :=
  { status, headers := openToAll :: headers, body := "" }

def ofJson (status : Nat) (text : String) : Response :=
  { status, headers := [openToAll, ("content-type", "application/json")], body := text }

def notFound : Response := empty 404 []

def methodNotAllowed (allowed : String) : Response := empty 405 [("allow", allowed)]

def tooLarge : Response :=
  { status := 413
    headers := [openToAll, ("content-type", "text/plain; charset=utf-8")]
    body := "Failed to buffer the request body: length limit exceeded" }

def preflight (allowed : Option String) : Response :=
  empty 200
    ([("access-control-allow-methods", "*"), ("access-control-allow-headers", "*")] ++
      (allowed.map (("allow", ·))).toList)

end Response

end RadioGateway.Http
