import ClusterScaling.Change.Watch

/-!
# Scaling

Brings a cluster one change nearer to a target. The platform is paused before the cluster is asked
to change. New brokers need their capacity before they can join, and brokers that leave must be
gone before their capacity goes.
-/

namespace ClusterScaling

namespace Scaling

/-- What was done for a target. -/
structure Report where
  plan : Plan
  /-- The id of the change, if one was requested. -/
  change : Option ChangeId
  outcome : Option Outcome
deriving DecidableEq, Repr

/-- What to tell of a plan that asks for nothing. -/
def idleNotice (t : Topology) : Plan → Notice
  | .noChange (.partitionShrink current requested) => .nothingToGrow current requested
  | _ => .atTarget t

/-- Provisions or releases the capacity for exactly so many brokers. -/
def provision (brokers : UInt32) : Program Unit := do
  Program.tell [.provisioning brokers]
  Program.scaleBrokers brokers

/-- Sees a change through that was submitted for a plan. -/
def follow (settings : Settings) (plan : Plan) (change : ChangeId) : Program Outcome := do
  match plan with
  | .scaleUp _ wanted =>
    provision wanted
    Watch.waitWithin settings.ordinaryWait (some change)
  | .scaleDown _ wanted =>
    let outcome ← Watch.waitWithin settings.scaleDownWait (some change)
    provision wanted
    return outcome
  | _ => Watch.waitWithin settings.ordinaryWait (some change)

/-- Carries out a plan that makes a request. -/
def carryOut (settings : Settings) (plan : Plan) (request : ChangeRequest) : Program Report := do
  Program.tell [.scaling plan]
  Program.pauseReconciliation
  let response ← Program.submit request false
  let outcome ← follow settings plan response.changeId
  if settings.scale.resumeReconciliation then
    Program.resumeReconciliation
  return ⟨plan, some response.changeId, some outcome⟩

/-- Scales the cluster towards a target. -/
def scale (settings : Settings) (target : Target) : Program Report := do
  let topology ← Program.query
  let plan ← Program.ofExcept (Plan.choose topology target)
  match plan.request with
  | none =>
    Program.tell [idleNotice topology plan]
    return ⟨plan, none, none⟩
  | some request => carryOut settings plan request

end Scaling

end ClusterScaling
