import ClusterScaling.Json.Decode
import ClusterScaling.Topology.Basic

/-!
# Topologies as JSON

The shapes of a topology, of its parts and of the answer to a change request. The names of the
records are those that the management API's messages use.
-/

namespace ClusterScaling

open Json (Shape)

/-- A partition of a broker. -/
def Partition.shape : Shape Partition :=
  .record "PartitionState"
    (.need "id" .integer32 <| .default "state" .text "" <| .default "priority" .integer32 0 .nil)
    (fun (id, state, priority, _) => ⟨id, state, priority⟩)
    (fun p => (p.id, p.state, p.priority, ()))
    (fun _ => rfl) (fun _ => rfl)

/-- A broker. -/
def Broker.shape : Shape Broker :=
  .record "BrokerState"
    (.need "id" .integer32 <| .default "state" .text "" <| .default "version" .integer64 0 <|
      .default "partitions" (.list Partition.shape) [] .nil)
    (fun (id, state, version, partitions, _) => ⟨id, state, version, partitions⟩)
    (fun b => (b.id, b.state, b.version, b.partitions, ()))
    (fun _ => rfl) (fun _ => rfl)

/-- A step of a change. -/
def Operation.shape : Shape Operation :=
  .record "Operation"
    (.need "operation" .text <| .need "brokerId" .integer32 <| .maybe "partitionId" .integer32 <|
      .maybe "priority" .integer32 .nil)
    (fun (operation, broker, partition, priority, _) => ⟨operation, broker, partition, priority⟩)
    (fun o => (o.operation, o.broker, o.partition, o.priority, ()))
    (fun _ => rfl) (fun _ => rfl)

/-- The change that ended last. -/
def LastChange.shape : Shape LastChange :=
  .record "LastChange"
    (.need "id" .integer64 <| .need "status" .text <| .maybe "startedAt" .text <|
      .maybe "completedAt" .text .nil)
    (fun (id, status, startedAt, completedAt, _) => ⟨id, status, startedAt, completedAt⟩)
    (fun c => (c.id, c.status, c.startedAt, c.completedAt, ()))
    (fun _ => rfl) (fun _ => rfl)

/-- The change that is being applied. -/
def PendingChange.shape : Shape PendingChange :=
  .record "PendingChange"
    (.need "id" .integer64 <| .default "status" .text "" <|
      .default "internalVersion" .integer64 0 <|
      .default "completed" (.list Operation.shape) [] <|
      .default "pending" (.list Operation.shape) [] .nil)
    (fun (id, status, version, completed, pending, _) => ⟨id, status, version, completed, pending⟩)
    (fun c => (c.id, c.status, c.internalVersion, c.completed, c.pending, ()))
    (fun _ => rfl) (fun _ => rfl)

/-- How messages find their partition. -/
def MessageCorrelation.shape : Shape MessageCorrelation :=
  .record "MessageCorrelation"
    (.need "strategy" .text <| .default "partitionCount" .natural32 0 .nil)
    (fun (strategy, partitionCount, _) => ⟨strategy, partitionCount⟩)
    (fun c => (c.strategy, c.partitionCount, ()))
    (fun _ => rfl) (fun _ => rfl)

namespace RequestHandling

/-- The fields of the strategies that are known, and none for the others. -/
abbrev Parts : Type :=
  (UInt32 × Unit) ⊕ (UInt32 × List PartitionId × List PartitionId × Unit) ⊕ Unit

/-- The strategy with the given fields. -/
def ofParts : Parts → RequestHandling
  | .inl (count, _) => .allPartitions count
  | .inr (.inl (base, additional, inactive, _)) => .activePartitions base additional inactive
  | .inr (.inr _) => .other

/-- The fields of the strategy. -/
def parts : RequestHandling → Parts
  | .allPartitions count => .inl (count, ())
  | .activePartitions base additional inactive => .inr (.inl (base, additional, inactive, ()))
  | .other => .inr (.inr ())

/-- Which partitions take new requests. -/
def shape : Shape RequestHandling :=
  .union "RequestHandling" "strategy" "Other"
    (.cons "AllPartitions" (.need "partitionCount" .natural32 .nil) <|
      .cons "ActivePartitions"
        (.need "basePartitionCount" .natural32 <|
          .default "additionalActivePartitions" (.list .integer32) [] <|
          .default "inactivePartitions" (.list .integer32) [] .nil) .nil)
    ofParts parts
    (fun h => by cases h <;> rfl)
    (fun p => by rcases p with _ | _ | _ <;> rfl)

end RequestHandling

/-- How requests and messages find their partition. -/
def Routing.shape : Shape Routing :=
  .record "RoutingState"
    (.default "version" .integer64 0 <| .need "messageCorrelation" MessageCorrelation.shape <|
      .need "requestHandling" RequestHandling.shape .nil)
    (fun (version, correlation, handling, _) => ⟨version, correlation, handling⟩)
    (fun r => (r.version, r.messageCorrelation, r.requestHandling, ()))
    (fun _ => rfl) (fun _ => rfl)

/-- A snapshot of a cluster. -/
def Topology.shape : Shape Topology :=
  .record "Topology"
    (.default "version" .integer64 0 <| .null "clusterId" .text <|
      .default "brokers" (.list Broker.shape) [] <|
      .null "lastChange" LastChange.shape <| .null "pendingChange" PendingChange.shape <|
      .null "routing" Routing.shape .nil)
    (fun (version, clusterId, brokers, last, pending, routing, _) =>
      ⟨version, clusterId, brokers, last, pending, routing⟩)
    (fun t => (t.version, t.clusterId, t.brokers, t.lastChange, t.pendingChange, t.routing, ()))
    (fun _ => rfl) (fun _ => rfl)

/-- The answer to a change request. -/
def ChangeResponse.shape : Shape ChangeResponse :=
  .record "ChangeResponse"
    (.need "changeId" .integer64 <| .default "currentTopology" (.list Broker.shape) [] <|
      .default "plannedChanges" (.list Operation.shape) [] <|
      .default "expectedTopology" (.list Broker.shape) [] .nil)
    (fun (id, current, planned, expected, _) => ⟨id, current, planned, expected⟩)
    (fun r => (r.changeId, r.currentTopology, r.plannedChanges, r.expectedTopology, ()))
    (fun _ => rfl) (fun _ => rfl)

end ClusterScaling
