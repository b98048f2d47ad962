import ClusterScaling.Client.Session
import ClusterScaling.Endpoint.Basic
import ClusterScaling.Json.Reader
import ClusterScaling.Request.BrokerList
import ClusterScaling.Settings.Basic
import ClusterScaling.Topology.Format

/-!
# The client

What the management API of a cluster can be asked. Change requests exist in two forms: a cluster
that does not know the present one refuses its method, and is then asked in the older form.
-/

namespace ClusterScaling

open Http (Method Response)

/-- A client of a management API. -/
structure Client where
  endpoint : Endpoint
  /-- The bound of one request. -/
  timeout : Duration
deriving DecidableEq, Repr

namespace Client

/-- The client that some settings describe. -/
def ofSettings (s : Settings) : Except (OrOverflow ClientError) Client := do
  let endpoint ← (Endpoint.parse s.cluster.endpoint).mapError .cause
  let timeout ← s.requestTimeout.mapError .overflow
  .ok ⟨endpoint, timeout⟩

/-- The exchange for a path of the API. -/
def exchange (c : Client) (method : Method) (path : String) (body : Option String) :
    Http.Exchange :=
  ⟨c.endpoint.address, ⟨method, c.endpoint.target path, body⟩, c.timeout⟩

/-- Sends a request for a path of the API. -/
def send (c : Client) (method : Method) (path : String) (body : Option String) :
    Session Response :=
  .send (c.exchange method path body)

/-- The error for a response that is no success. -/
def rejection (r : Response) : ClientError :=
  .rejected r.status (Text.lossyText (Text.piecesOfBytes r.body))

/-- Reads the body of a response. -/
def decode {α : Type} (shape : Json.Shape α) (r : Response) : Except ClientError α :=
  (shape.decodeDocument (.read (Text.piecesOfBytes r.body))).mapError .decode

/-- The snapshot in a response, with its brokers in order. -/
def snapshot (r : Response) : Except ClientError Topology :=
  if r.status = .ok then (decode Topology.shape r).map Topology.sortBrokers
  else .error (rejection r)

/-- The accepted change in a response. -/
def accepted (r : Response) : Except ClientError ChangeResponse :=
  if r.status.isSuccess then decode ChangeResponse.shape r else .error (rejection r)

/-- Asks for a fresh snapshot. -/
def query (c : Client) : Session Topology := do
  let response ← c.send .get clusterPath none
  .ofExcept (snapshot response)

/-- Sends a change request in its present form. -/
def sendUnified (c : Client) (r : ChangeRequest) (force : Bool) : Session Response :=
  c.send .patch (ChangeRequest.path force) (some r.body)

/-- Submits a change request in its present form only. -/
def submitUnified (c : Client) (r : ChangeRequest) (force : Bool) : Session ChangeResponse := do
  let response ← c.sendUnified r force
  if response.status = .methodNotAllowed then
    .fail (.methodNotAllowed (c.endpoint.target clusterPath))
  else .ofExcept (accepted response)

/-- The brokers that the broker list of a request depends on, read afresh. -/
def currentBrokers (c : Client) (r : ChangeRequest) : Session (List BrokerId) :=
  if r.dependsOnBrokers then do
    let topology ← c.query
    return topology.brokerIds
  else return []

/-- Sends the broker list of a change request, where the cluster has the brokers `current`. -/
def sendBrokerList (c : Client) (r : ChangeRequest) (force : Bool) (current : List BrokerId) :
    Session ChangeResponse :=
  match BrokerList.ofRequest r current with
  | .error e => .fail (.inexpressible e.message)
  | .ok brokers => do
    let response ← c.send .post (brokers.path force) (some brokers.body)
    .ofExcept (accepted response)

/-- Submits a change request in its older form only. -/
def submitBrokerList (c : Client) (r : ChangeRequest) (force : Bool) :
    Session ChangeResponse := do
  let current ← c.currentBrokers r
  c.sendBrokerList r force current

/-- Submits a change request, in its older form if the cluster refuses the method. -/
def submit (c : Client) (r : ChangeRequest) (force : Bool) : Session ChangeResponse := do
  let response ← c.sendUnified r force
  if response.status = .methodNotAllowed then c.submitBrokerList r force
  else .ofExcept (accepted response)

end Client

end ClusterScaling
