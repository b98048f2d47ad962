import ClusterScaling.Error
import ClusterScaling.Request.Basic

/-!
# Plans

A plan is the one change that brings a cluster nearer to a target. Brokers go before partitions,
and the number of partitions only grows.
-/

namespace ClusterScaling

/-- The shape that a cluster is to have; what is not set stays as it is. -/
structure Target where
  brokers : Option UInt32
  partitions : Option UInt32
  replicationFactor : Option UInt32
deriving DecidableEq, Repr

/-- Why a plan asks for nothing. -/
inductive NoChangeReason where
  | partitionShrink (current requested : UInt32)
  | atTarget
deriving DecidableEq, Repr

/-- The one change that is chosen for a target. -/
inductive Plan where
  | scaleDown (current wanted : UInt32)
  | scaleUp (current wanted : UInt32)
  | changePartitions (partitions replicationFactor : Option UInt32)
  | noChange (reason : NoChangeReason)
deriving DecidableEq, Repr

namespace Plan

/-- The request that the plan makes. -/
def request : Plan → Option ChangeRequest
  | scaleDown _ wanted | scaleUp _ wanted => some (ChangeRequest.empty.scaling wanted)
  | changePartitions partitions factor =>
    some (ChangeRequest.empty.partitioning partitions factor)
  | noChange _ => none

/-- The number of brokers in 32 bits. -/
def currentBrokers (t : Topology) : UInt32 := UInt32.ofNat t.brokerCount

/-- The number of partitions; none are hosted if all ids are negative. -/
def currentPartitions (t : Topology) : UInt32 := UInt32.ofNat t.partitionCount.toInt.toNat

/-- The plan for the partitions, where the brokers are as they should be. -/
def ofPartitions (current : UInt32) (target : Target) : Plan :=
  match target.partitions, target.replicationFactor with
  | some p, factor =>
    if current < p then .changePartitions (some p) factor
    else match factor with
      | some f => if p = current then .changePartitions none (some f)
        else .noChange (.partitionShrink current p)
      | none => .noChange (.partitionShrink current p)
  | none, some f => .changePartitions none (some f)
  | none, none => .noChange .atTarget

/-- The plan for a target, unless a change is being applied. -/
def choose (t : Topology) (target : Target) : Except ScaleError Plan :=
  match t.pendingChange with
  | some pending => .error (.alreadyScaling pending.id)
  | none =>
    let current := currentBrokers t
    match target.brokers with
    | some b =>
      if b < current then .ok (.scaleDown current b)
      else if current < b then .ok (.scaleUp current b)
      else .ok (ofPartitions (currentPartitions t) target)
    | none => .ok (ofPartitions (currentPartitions t) target)

/-- A number that may be unset, as records show it. -/
def optionText (n : Option UInt32) : String :=
  match n with
  | none => "None"
  | some n => s!"Some({Decimal.text n.toNat})"

/-- The plan as a record of its fields. -/
def text : Plan → String
  | scaleDown current wanted => "ScaleDownBrokers " ++ fromTo current wanted
  | scaleUp current wanted => "ScaleUpBrokers " ++ fromTo current wanted
  | changePartitions p f =>
    s!"ChangePartitions \x7b partitions: {optionText p}, replication_factor: {optionText f} \x7d"
  | noChange .atTarget => "NoChange(AlreadyAtTarget)"
  | noChange (.partitionShrink current requested) =>
    s!"NoChange(PartitionShrinkUnsupported \x7b current: {Decimal.text current.toNat}, " ++
      s!"requested: {Decimal.text requested.toNat} \x7d)"
where
  fromTo (current wanted : UInt32) : String :=
    s!"\x7b from: {Decimal.text current.toNat}, to: {Decimal.text wanted.toNat} \x7d"

end Plan

end ClusterScaling
