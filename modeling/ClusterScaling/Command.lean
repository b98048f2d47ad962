import ClusterScaling.Client.Basic
import ClusterScaling.Failover
import ClusterScaling.Scaling

/-!
# Commands

What an operator can ask for. A command comes down to a client and a program, whose result is the
text to print.
-/

namespace ClusterScaling

/-- What an operator asks for. -/
inductive Command where
  /-- Show the cluster. -/
  | status
  /-- Wait for a change to end. -/
  | wait (change : Option ChangeId)
  | scale (target : Target)
  /-- Remove all brokers outside one region. -/
  | forceFailover (regions region brokers : UInt32)
deriving DecidableEq, Repr

/-- Why a command fails. -/
inductive CommandError where
  | layout (e : RegionError)
  | client (e : ClientError)
  | run (e : ScaleError)
deriving DecidableEq, Repr

namespace CommandError

/-- The error in words, and what it goes back to. -/
def messages : CommandError → List String
  | layout e => [e.message]
  | client e => e.message :: e.causes
  | run e => e.message :: e.causes

end CommandError

namespace Outcome

/-- The outcome in words. -/
def text : Outcome → String
  | completed change => s!"change {Notice.idText change} completed"
  | outdated change latest =>
    s!"change {Notice.idText change} superseded by completed change {Notice.idText latest}"
  | nothingToTrack => "cluster has no changes to wait for"

end Outcome

namespace Plan

/-- What the plan changes, in words. -/
def title : Plan → String
  | scaleDown current wanted | scaleUp current wanted =>
    s!"brokers {Notice.countText current} -> {Notice.countText wanted}"
  | changePartitions (some p) (some f) =>
    s!"partitions -> {Notice.countText p}, replication factor -> {Notice.countText f}"
  | changePartitions (some p) none => s!"partitions -> {Notice.countText p}"
  | changePartitions none (some f) => s!"replication factor -> {Notice.countText f}"
  | changePartitions none none => "partitions unchanged"
  | noChange _ => "no change"

end Plan

namespace Scaling.Report

/-- The report in words. -/
def text (r : Report) : String :=
  match r.plan, r.outcome with
  | .noChange (.partitionShrink current requested), _ =>
    let counts := s!"{Notice.countText current} -> {Notice.countText requested}"
    s!"partitions can only grow ({counts}), nothing requested"
  | .noChange .atTarget, _ => "cluster already matches the requested size"
  | plan, some outcome => s!"{plan.title}: {outcome.text}"
  | plan, none => plan.title

end Scaling.Report

namespace Failover.Report

/-- The lines of the report on a failover to a region. -/
def lines (r : Report) (region : UInt32) : List String :=
  if r.removed.isEmpty then
    [s!"every broker already lives in region {Notice.countText region}, nothing removed"]
  else
    let removed := Notice.brokersText r.removed
    s!"removed brokers {removed} outside region {Notice.countText region}" ::
      r.outcome.toList.map Outcome.text

end Failover.Report

namespace Command

/-- The lines as a text. -/
def ofLines (lines : List String) : String := String.join (lines.map fun l => l ++ "\n")

/-- The program of a command. -/
def program (s : Settings) : Command → Except RegionError (Program String)
  | status => .ok do
    let topology ← Program.query
    return ofLines [(Topology.shape.encode topology).pretty]
  | wait change => .ok do
    let outcome ← Watch.waitWithin s.ordinaryWait change
    return ofLines [outcome.text]
  | scale target => .ok do
    let report ← Scaling.scale s target
    return ofLines [report.text]
  | forceFailover regions region brokers => do
    let layout ← RegionLayout.ofCounts regions region
    .ok do
      let ready ← Program.ofReading s.failoverWait
      let change ← Program.ofReading s.ordinaryWait
      let report ← Failover.run ready change brokers layout
      return ofLines (report.lines region)

/-- The client and the program of a command. -/
def prepare (s : Settings) (c : Command) :
    Except (OrOverflow CommandError) (Client × Program String) := do
  let program ← (c.program s).mapError fun e => .cause (.layout e)
  let client ← (Client.ofSettings s).mapError (·.map .client)
  .ok (client, program)

end Command

end ClusterScaling
