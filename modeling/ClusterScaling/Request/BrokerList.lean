import ClusterScaling.Request.Basic

/-!
# Broker lists

The older form of a change request: the complete list of the brokers that the cluster is to end
with. `BrokerList.ofRequest` brings a change request into it, given the brokers that the cluster
has. A change of the partition count has no such form.
-/

namespace ClusterScaling

/-- Why a change request has no form as a broker list. -/
inductive Inexpressible where
  | emptyChange
  | partitionCount
deriving DecidableEq, Repr

namespace Inexpressible

/-- What cannot be expressed, in words. -/
def message : Inexpressible → String
  | emptyChange => "empty change"
  | partitionCount => "partition count changes"

end Inexpressible

/-- The brokers to end with, and the number of replicas if it is to change. -/
structure BrokerList where
  ids : List BrokerId
  replicationFactor : Option UInt32
deriving DecidableEq, Repr

namespace BrokerList

/-- The ids from `0` to below `n`, taken as a broker id: none from `2 ^ 31` on. -/
def firstIds (n : UInt32) : List BrokerId :=
  (List.range n.toInt32.toInt.toNat).map fun i => Int32.ofNat i

/-- The ids with `id` at its place in ascending order, once. -/
def insertId (id : BrokerId) : List BrokerId → List BrokerId
  | [] => [id]
  | x :: xs => if id < x then id :: x :: xs else if id = x then x :: xs else x :: insertId id xs

/-- All ids of both lists in ascending order, each once. -/
def union (current ids : List BrokerId) : List BrokerId :=
  (current ++ ids).foldl (fun l id => insertId id l) []

/-- The brokers to end with after the change `c`. -/
def idsAfter (current : List BrokerId) (c : Option BrokerChange) : List BrokerId :=
  match c with
  | none => current
  | some (.count n) => firstIds n
  | some (.add ids) => union current ids
  | some (.remove ids) => current.filter fun id => !ids.contains id

/-- The broker list of a change request, where the cluster has the brokers `current`. -/
def ofRequest (r : ChangeRequest) (current : List BrokerId) : Except Inexpressible BrokerList :=
  if r.isEmpty then .error .emptyChange
  else if (r.partitions.bind (·.count)).isSome then .error .partitionCount
  else .ok ⟨idsAfter current r.brokers, r.partitions.bind (·.replicationFactor)⟩

theorem ofRequest_eq_ok_iff {r : ChangeRequest} {current : List BrokerId} {l : BrokerList} :
    ofRequest r current = .ok l ↔ r.isEmpty = false ∧ r.partitions.bind (·.count) = none ∧
      l = ⟨idsAfter current r.brokers, r.partitions.bind (·.replicationFactor)⟩ := by
  unfold ofRequest
  cases hr : r.isEmpty <;> cases hp : r.partitions.bind (·.count) <;> simp [eq_comm]

/-- The path and query of the request. -/
def path (l : BrokerList) (force : Bool) : String :=
  let factor := match l.replicationFactor with
    | none => ""
    | some n => s!"&replicationFactor={Decimal.text n.toNat}"
  s!"{clusterPath}/brokers?force={flagText force}{factor}"

/-- The body of the request. -/
def body (l : BrokerList) : String := (ChangeRequest.idList l.ids).compact

end BrokerList

end ClusterScaling
