import ClusterScaling.Client.Error
import ClusterScaling.Duration
import ClusterScaling.Region

/-!
# Errors of scaling and waiting
-/

namespace ClusterScaling

/-- Why a plan, a wait or a failover failed. -/
inductive ScaleError where
  /-- A change is being applied, so none was requested. -/
  | alreadyScaling (change : ChangeId)
  | changeFailed (change : ChangeId) (status : String)
  /-- The wait was given up; the change may still go on. -/
  | timeout (change : Option ChangeId) (bound : Duration)
  | brokersNotReady (expected : UInt32) (observed : Option Nat) (bound : Duration)
  | cancelled
  | region (e : RegionError)
  /-- A call of the platform failed; the messages go from the outermost cause inwards. -/
  | platform (messages : List String)
  | client (e : ClientError)
deriving DecidableEq, Repr

namespace ScaleError

/-- The error in words. -/
def message : ScaleError → String
  | alreadyScaling change =>
    s!"cluster is already scaling (change {Decimal.integerText change.toInt} is pending)"
  | changeFailed change status =>
    s!"change {Decimal.integerText change.toInt} failed with status {status}"
  | timeout change bound =>
    let which := match change with
      | none => "<not yet known>"
      | some c => Decimal.integerText c.toInt
    s!"change {which} did not complete within {bound.text}"
  | brokersNotReady expected observed bound =>
    let seen := match observed with
      | none => "no topology"
      | some n => s!"{Decimal.text n} brokers"
    s!"topology did not report {Decimal.text expected.toNat} brokers within {bound.text} " ++
      s!"(last seen: {seen})"
  | cancelled => "wait for change cancelled"
  | region e => s!"invalid region layout: {e.message}"
  | platform messages => "platform operation failed: " ++ ": ".intercalate messages
  | client e => e.message

/-- What the error goes back to, in words. -/
def causes : ScaleError → List String
  | client e => e.causes
  | region e => [e.message]
  | _ => []

end ScaleError

end ClusterScaling
