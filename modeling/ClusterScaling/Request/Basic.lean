import ClusterScaling.Decimal.Numeral
import ClusterScaling.Json.Value
import ClusterScaling.Topology.Basic

/-!
# Change requests

What a cluster is asked to change: its brokers, its partitions, or both. A part that is not asked
for is not written at all, since the receiver takes a zero as a number to scale to.
-/

namespace ClusterScaling

/-- A change of the brokers. -/
inductive BrokerChange where
  /-- The number of brokers to end with; the cluster adds or removes those of the highest ids. -/
  | count (n : UInt32)
  | add (ids : List BrokerId)
  | remove (ids : List BrokerId)
deriving DecidableEq, Repr

/-- A change of the partitions. -/
structure PartitionChange where
  count : Option UInt32
  replicationFactor : Option UInt32
deriving DecidableEq, Repr

/-- A request to change the cluster. -/
structure ChangeRequest where
  brokers : Option BrokerChange
  partitions : Option PartitionChange
deriving DecidableEq, Repr

namespace ChangeRequest

/-- The request that asks for nothing. -/
def empty : ChangeRequest := ⟨none, none⟩

/-- Asks for `n` brokers, in place of any other change of the brokers. -/
def scaling (r : ChangeRequest) (n : UInt32) : ChangeRequest :=
  { r with brokers := some (.count n) }

/-- Asks for more brokers; no ids leave the request as it is. -/
def adding (r : ChangeRequest) (ids : List BrokerId) : ChangeRequest :=
  if ids.isEmpty then r else { r with brokers := some (.add ids) }

/-- Asks for brokers to leave; no ids leave the request as it is. -/
def removing (r : ChangeRequest) (ids : List BrokerId) : ChangeRequest :=
  if ids.isEmpty then r else { r with brokers := some (.remove ids) }

/-- Asks for partitions and replicas. With neither, the request asks for no change of partitions. -/
def partitioning (r : ChangeRequest) (count replicationFactor : Option UInt32) : ChangeRequest :=
  { r with partitions :=
      if count.isNone && replicationFactor.isNone then none else some ⟨count, replicationFactor⟩ }

/-- Whether the request asks for nothing. -/
def isEmpty (r : ChangeRequest) : Bool := r.brokers.isNone && r.partitions.isNone

/-- Whether the brokers to end with depend on those that the cluster has. -/
def dependsOnBrokers (r : ChangeRequest) : Bool :=
  match r.brokers with
  | some (.count _) => false
  | _ => true

/-- The number as JSON. -/
def natural (n : UInt32) : Json.Value := .integer n.toNat

/-- The ids as JSON. -/
def idList (ids : List BrokerId) : Json.Value := .array (ids.map fun id => .integer id.toInt)

/-- A member, if there is a value for it. -/
def memberOf {α : Type} (name : String) (encode : α → Json.Value) (a : Option α) :
    List (String × Json.Value) :=
  match a with
  | none => []
  | some a => [(name, encode a)]

/-- A change of the brokers as JSON. -/
def encodeBrokers : BrokerChange → Json.Value
  | .count n => .object [("count", natural n)]
  | .add ids => .object [("add", idList ids)]
  | .remove ids => .object [("remove", idList ids)]

/-- A change of the partitions as JSON. -/
def encodePartitions (p : PartitionChange) : Json.Value :=
  .object (memberOf "count" natural p.count ++
    memberOf "replicationFactor" natural p.replicationFactor)

/-- The request as JSON. -/
def encode (r : ChangeRequest) : Json.Value :=
  .object (memberOf "brokers" encodeBrokers r.brokers ++
    memberOf "partitions" encodePartitions r.partitions)

/-- The body of the request. -/
def body (r : ChangeRequest) : String := r.encode.compact

end ChangeRequest

/-- The path of the cluster below the base path of the management API. -/
def clusterPath : String := "/cluster"

/-- A truth value in words. -/
def flagText (b : Bool) : String := if b then "true" else "false"

/-- The path and query of a change request. -/
def ChangeRequest.path (force : Bool) : String := s!"{clusterPath}?force={flagText force}"

end ClusterScaling
