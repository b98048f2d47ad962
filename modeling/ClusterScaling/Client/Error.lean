import ClusterScaling.Http.Status
import ClusterScaling.Json.Mismatch
import ClusterScaling.Text.Basic

/-!
# Errors of the management client
-/

namespace ClusterScaling

/-- Why a call of the management API failed. -/
inductive ClientError where
  | invalidEndpoint (endpoint reason : String)
  /-- No answer came: the connection failed, broke off or took too long. -/
  | transport (problem : String)
  | decode (e : Json.DecodeError)
  /-- The cluster does not know this form of change request. -/
  | methodNotAllowed (path : String)
  | rejected (status : Http.Status) (body : String)
  /-- The request has no form as a broker list. -/
  | inexpressible (what : String)
deriving DecidableEq, Repr

namespace ClientError

/-- The error in words. -/
def message : ClientError → String
  | invalidEndpoint endpoint reason => s!"invalid endpoint {Text.quote endpoint}: {reason}"
  | transport problem => s!"transport error: {problem}"
  | decode e => s!"failed to decode response: {e.message}"
  | methodNotAllowed path => s!"method not allowed by {path}"
  | rejected status body => s!"request rejected with status {status.text}: {body}"
  | inexpressible what => s!"legacy broker endpoint cannot express {what}"

/-- What the error goes back to, in words. -/
def causes : ClientError → List String
  | decode e => [e.message]
  | _ => []

/-- Whether the cluster may still answer: nothing that it decided came back. -/
def isTransient : ClientError → Bool
  | transport _ | decode _ => true
  | _ => false

end ClientError

end ClusterScaling
