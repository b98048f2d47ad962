import ClusterScaling.Duration
import ClusterScaling.Http.Status

/-!
# HTTP exchanges

One request to a server, and what comes back: a response, or a failure on the way.
-/

namespace ClusterScaling.Http

/-- The method of a request. -/
inductive Method where
  | get
  | patch
  | post
deriving DecidableEq, Repr

namespace Method

/-- The name of the method. -/
def label : Method → String
  | get => "GET"
  | patch => "PATCH"
  | post => "POST"

end Method

/-- A request to a server. -/
structure Request where
  method : Method
  /-- The path and query that are asked for. -/
  target : String
  /-- The body, which is JSON. -/
  body : Option String
deriving DecidableEq, Repr

namespace Request

/-- What the client calls itself. -/
def agent : String := "zbchaos/0.1.0"

/-- The type of all bodies. -/
def bodyType : String := "application/json"

/-- The type of the body, if there is one. -/
def contentType? (r : Request) : Option String := r.body.map fun _ => bodyType

/-- The greatest length of a target, in bytes. -/
def targetLimit : Nat := 65534

/-- Whether the target is too long to be sent. -/
def isTooLong (r : Request) : Bool := targetLimit < r.target.utf8ByteSize

/-- The request without its body, in words. -/
def title (r : Request) : String := s!"{r.method.label} {r.target}"

end Request

/-- A response that was read to its end. -/
structure Response where
  status : Status
  body : List UInt8
deriving DecidableEq, Repr

/-- A request with the address that it goes to and the time that it may take. -/
structure Exchange where
  address : String
  request : Request
  timeout : Duration
deriving DecidableEq, Repr

/-- Where an exchange failed. -/
inductive Failure where
  | connect
  | build
  | send
  | readBody
  | timeout
deriving DecidableEq, Repr

namespace Failure

/-- The failure of an exchange in words. -/
def message (x : Exchange) : Failure → String
  | connect => s!"connect {x.address}"
  | build => "build request"
  | send => s!"send {x.request.title}"
  | readBody => "read body"
  | timeout => s!"{x.request.title} timed out after {x.timeout.text}"

end Failure

/-- What came of an exchange. -/
abbrev Answer : Type := Except Failure Response

end ClusterScaling.Http
