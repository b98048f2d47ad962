import ClusterScaling.Change.Status
import ClusterScaling.Plan

/-!
# Notices

What a run tells its operator on the way. A notice has a message and named values, which stay
apart so that they can be searched for.
-/

namespace ClusterScaling

/-- How much a notice matters. -/
inductive Level where
  | debug
  | info
  | warning
deriving DecidableEq, Repr

namespace Level

/-- The name of the level. -/
def label : Level → String
  | debug => "DEBUG"
  | info => "INFO"
  | warning => "WARN"

end Level

/-- A message about a run, with the values that it is about. -/
structure Notice where
  level : Level
  message : String
  values : List (String × String)
deriving DecidableEq, Repr

namespace Notice

/-! ## Values -/

/-- The id of a change. -/
def idText (id : ChangeId) : String := Decimal.integerText id.toInt

/-- The id of a change that may not be known. -/
def knownIdText : Option ChangeId → String
  | none => "None"
  | some id => s!"Some({idText id})"

/-- The ids of brokers. -/
def brokersText (ids : List BrokerId) : String :=
  "[" ++ ", ".intercalate (ids.map fun id => Decimal.integerText id.toInt) ++ "]"

/-- A count. -/
def countText (n : UInt32) : String := Decimal.text n.toNat

/-! ## Changes -/

def trackingLatest (id : ChangeId) : Notice :=
  ⟨.info, "tracking latest change", [("change_id", idText id)]⟩

def noChangeExists : Notice := ⟨.info, "no change exists", []⟩

def classified (id : ChangeId) (status : ChangeStatus) : Notice :=
  ⟨.debug, "classified change",
    [("change_id", idText id), ("status", status.label),
     ("terminal", flagText status.isFinal)]⟩

def completed (id : ChangeId) : Notice :=
  ⟨.info, "change completed successfully", [("change_id", idText id)]⟩

def failed (id : ChangeId) (status : String) : Notice :=
  ⟨.warning, "change failed", [("change_id", idText id), ("status", status)]⟩

def outdated (id latest : ChangeId) : Notice :=
  ⟨.info, "change is outdated but most likely completed successfully",
    [("change_id", idText id), ("latest", idText latest)]⟩

def inProgress (c : PendingChange) : Notice :=
  let progress := s!"{Decimal.text c.doneCount}/{Decimal.text c.totalCount}"
  ⟨.info, s!"change in progress: {progress} operations complete",
    [("change_id", idText c.id), ("status", c.status)]⟩

def notStarted (id : ChangeId) : Notice :=
  ⟨.info, "change not yet started", [("change_id", idText id)]⟩

/-! ## Waits -/

def queryFailed (e : ClientError) : Notice :=
  ⟨.warning, "failed to query topology", [("error", e.message)]⟩

def pollFailed (e : ClientError) (iteration : Nat) : Notice :=
  ⟨.warning, "failed to query topology",
    [("error", e.message), ("iteration", Decimal.text iteration)]⟩

def nextPoll (iteration : Nat) (interval : Duration) : Notice :=
  ⟨.debug, "waiting before checking topology again",
    [("iteration", Decimal.text iteration), ("interval", interval.text)]⟩

def gaveUp (id : Option ChangeId) (timeout : Duration) : Notice :=
  ⟨.warning, "gave up waiting for change",
    [("change_id", knownIdText id), ("timeout", timeout.text)]⟩

def awaitingBrokers (expected : UInt32) (actual : Nat) : Notice :=
  ⟨.info, "waiting for brokers to join the topology",
    [("expected", countText expected), ("actual", Decimal.text actual)]⟩

/-! ## Scaling and failover -/

def nothingToGrow (current requested : UInt32) : Notice :=
  ⟨.info, "cannot scale partitions down or to the same count, nothing to do",
    [("current", countText current), ("requested", countText requested)]⟩

def atTarget (t : Topology) : Notice :=
  ⟨.info, "cluster is already at the requested size",
    [("brokers", Decimal.text t.brokerCount),
     ("partitions", Decimal.integerText t.partitionCount.toInt)]⟩

def scaling (p : Plan) : Notice := ⟨.info, "scaling cluster", [("plan", p.text)]⟩

def provisioning (brokers : UInt32) : Notice :=
  ⟨.info, "scaling broker capacity", [("brokers", countText brokers)]⟩

def allInRegion (l : RegionLayout) : Notice :=
  ⟨.info, "all brokers already live in the target region",
    [("regions", countText l.regions), ("region", countText l.target)]⟩

def removing (l : RegionLayout) (brokers : List BrokerId) : Notice :=
  ⟨.info, "forcing removal of brokers outside the target region",
    [("regions", countText l.regions), ("region", countText l.target),
     ("brokers", brokersText brokers)]⟩

/-! ## Operators -/

def interrupted : Notice := ⟨.info, "interrupt received, abandoning wait", []⟩

def scaleByHand (brokers : UInt32) : Notice :=
  ⟨.warning, "capacity is managed externally: scale broker replicas now",
    [("brokers", countText brokers)]⟩

def pauseByHand : Notice :=
  ⟨.warning,
    "capacity is managed externally: make sure no controller reconciles the cluster shape", []⟩

def resumeByHand : Notice :=
  ⟨.warning, "capacity is managed externally: reconciliation may be resumed", []⟩

/-- The notice as a line. -/
def line (n : Notice) : String :=
  let values := String.join (n.values.map fun v => s!" {v.1}={v.2}")
  s!"{n.level.label} {n.message}{values}"

end Notice

end ClusterScaling
