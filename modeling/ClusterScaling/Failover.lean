import ClusterScaling.Change.Watch

/-!
# Forced failover

Simulates the loss of all regions but one. As soon as the cluster shows the expected number of
brokers, those outside the surviving region are removed by force, and the change is watched.
-/

namespace ClusterScaling

namespace Failover

/-- What was done for a region. -/
structure Report where
  removed : List BrokerId
  /-- The id of the change, if one was requested. -/
  change : Option ChangeId
  outcome : Option Outcome
deriving DecidableEq, Repr

/-- What an answer means for the wait for `expected` brokers, which keeps the number of brokers
that the last snapshot showed. -/
def judge (expected : UInt32) (observed : Option Nat) (reply : Except ClientError Topology) :
    List Notice × Verdict (Option Nat) Topology :=
  match reply with
  | .error e =>
    if e.isTransient then ([.queryFailed e], .undecided observed)
    else ([], .decided (.error (.client e)))
  | .ok t =>
    if t.brokerCount = expected.toNat then ([], .decided (.ok t))
    else ([.awaitingBrokers expected t.brokerCount], .undecided (some t.brokerCount))

/-- The wait for `expected` brokers within some bounds. -/
def polling (expected : UInt32) (bounds : WaitBounds) : Polling (Option Nat) Topology where
  bounds := bounds
  judge := judge expected
  beforeSleep _ := []
  atBound _ := []
  timeout observed := .brokersNotReady expected observed bounds.timeout

/-- Waits for a snapshot of exactly `expected` brokers. -/
def awaitBrokers (expected : UInt32) (bounds : WaitBounds) : Program Topology :=
  (polling expected bounds).wait none

/-- Removes brokers by force and watches the change. -/
def removeBrokers (layout : RegionLayout) (bounds : WaitBounds) (brokers : List BrokerId) :
    Program Report := do
  Program.tell [.removing layout brokers]
  let response ← Program.submit (ChangeRequest.empty.removing brokers) true
  let outcome ← Watch.wait bounds (some response.changeId)
  return ⟨brokers, some response.changeId, some outcome⟩

/-- Fails over to the surviving region of a layout: waits for `expected` brokers within `ready`,
and for the change within `change`. -/
def run (ready change : WaitBounds) (expected : UInt32) (layout : RegionLayout) :
    Program Report := do
  let topology ← awaitBrokers expected ready
  match topology.pendingChange with
  | some pending => .fail (.alreadyScaling pending.id)
  | none =>
    let outside := topology.brokersOutside layout
    if outside.isEmpty then
      Program.tell [.allInRegion layout]
      return ⟨outside, none, none⟩
    else removeBrokers layout change outside

end Failover

end ClusterScaling
