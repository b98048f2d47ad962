/-!
# Topology of a cluster

A snapshot of a cluster as its management API reports it: the brokers with the partitions they
host, the change that ended last, the change that is being applied, and the routing of requests.
-/

namespace ClusterScaling

abbrev BrokerId := Int32
abbrev PartitionId := Int32
abbrev ChangeId := Int64

/-- A partition as one broker hosts it. -/
structure Partition where
  id : PartitionId
  state : String
  priority : Int32
deriving DecidableEq, Repr

/-- A broker and the partitions that it hosts. -/
structure Broker where
  id : BrokerId
  state : String
  version : Int64
  partitions : List Partition
deriving DecidableEq, Repr

/-- A step of a change. -/
structure Operation where
  operation : String
  broker : BrokerId
  partition : Option PartitionId
  priority : Option Int32
deriving DecidableEq, Repr

/-- The change that ended last. -/
structure LastChange where
  id : ChangeId
  status : String
  startedAt : Option String
  completedAt : Option String
deriving DecidableEq, Repr

namespace LastChange

/-- Whether the change was completed; with any other status it failed. -/
def succeeded (c : LastChange) : Bool := c.status == "COMPLETED"

end LastChange

/-- The change that is being applied. -/
structure PendingChange where
  id : ChangeId
  status : String
  internalVersion : Int64
  completed : List Operation
  pending : List Operation
deriving DecidableEq, Repr

namespace PendingChange

/-- The number of operations that are complete. -/
def doneCount (c : PendingChange) : Nat := c.completed.length

/-- The number of all operations. -/
def totalCount (c : PendingChange) : Nat := c.completed.length + c.pending.length

end PendingChange

/-- How messages find their partition. -/
structure MessageCorrelation where
  strategy : String
  partitionCount : UInt32
deriving DecidableEq, Repr

/-- Which partitions take new requests. -/
inductive RequestHandling where
  | allPartitions (count : UInt32)
  | activePartitions (base : UInt32) (additional inactive : List PartitionId)
  /-- A strategy that this library does not know. -/
  | other
deriving DecidableEq, Repr

/-- How requests and messages find their partition. -/
structure Routing where
  version : Int64
  messageCorrelation : MessageCorrelation
  requestHandling : RequestHandling
deriving DecidableEq, Repr

/-- A snapshot of a cluster. -/
structure Topology where
  version : Int64
  clusterId : Option String
  brokers : List Broker
  lastChange : Option LastChange
  pendingChange : Option PendingChange
  routing : Option Routing
deriving DecidableEq, Repr

namespace Topology

/-- The ids of the brokers, in the order of the snapshot. -/
def brokerIds (t : Topology) : List BrokerId := t.brokers.map Broker.id

/-- The number of brokers. -/
def brokerCount (t : Topology) : Nat := t.brokers.length

/-- The ids of all hosted partitions. -/
def partitionIds (t : Topology) : List PartitionId :=
  t.brokers.flatMap fun b => b.partitions.map Partition.id

instance : Std.LawfulOrderMax Int32 where
  max_eq_or a b := by
    show (if a ≤ b then b else a) = a ∨ (if a ≤ b then b else a) = b
    split <;> simp
  max_le_iff a b c := by
    show (if a ≤ b then b else a) ≤ c ↔ a ≤ c ∧ b ≤ c
    simp only [Int32.le_iff_toInt_le]
    split <;> omega

/-- The highest id of a hosted partition, or `0` if there is none: partitions are numbered from
one on. -/
def partitionCount (t : Topology) : PartitionId := t.partitionIds.max?.getD 0

/-- The snapshot with its brokers in the order of their ids; brokers of one id keep their order. -/
def sortBrokers (t : Topology) : Topology :=
  { t with brokers := t.brokers.mergeSort fun a b => a.id ≤ b.id }

end Topology

/-- The answer to a change request: the id of the change, and what it will do. -/
structure ChangeResponse where
  changeId : ChangeId
  currentTopology : List Broker
  plannedChanges : List Operation
  expectedTopology : List Broker
deriving DecidableEq, Repr

end ClusterScaling
