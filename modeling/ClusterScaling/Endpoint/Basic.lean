import ClusterScaling.Client.Error
import ClusterScaling.Endpoint.Uri
import ClusterScaling.Text.Basic

/-!
# Endpoints

The base URL of a management API, split into the address of its server and the path that stands
before all paths of the API.
-/

namespace ClusterScaling

/-- The base URL of a management API. -/
structure Endpoint where
  /-- Host and port. -/
  address : String
  /-- The path of the API, without a slash at its end. -/
  basePath : String
deriving DecidableEq, Repr

namespace Endpoint

/-- The port of an endpoint that names none. -/
def defaultPort : Nat := 80

/-- The greatest number of a port. -/
def portLimit : Nat := 65535

/-- The port after the last colon of the authority, where that is a number. -/
def port (authority : List Char) : Nat :=
  if authority.contains ':' then
    (Decimal.readBounded? portLimit (Uri.afterLast ':' authority)).getD defaultPort
  else defaultPort

/-- The endpoint of a URI. -/
def ofUri (u : Uri) : Endpoint :=
  ⟨String.ofList (u.host ++ ':' :: Decimal.digits (port u.authority)),
    String.ofList (Text.trimEnd '/' u.path)⟩

/-- Reads an endpoint, which has to be an HTTP URL. -/
def parse (s : String) : Except ClientError Endpoint :=
  match Uri.ofChars? s.toList with
  | none => .error (.invalidEndpoint s "not a valid URI")
  | some u =>
    if u.scheme = some .http then .ok (ofUri u)
    else .error (.invalidEndpoint s "only http:// endpoints are supported")

/-- The target of a request for the given path and query. -/
def target (e : Endpoint) (pathAndQuery : String) : String := e.basePath ++ pathAndQuery

/-- The URL of the given path and query. -/
def url (e : Endpoint) (pathAndQuery : String) : String :=
  "http://" ++ e.address ++ e.target pathAndQuery

end Endpoint

end ClusterScaling
