import ClusterScaling.Json.Decode
import ClusterScaling.Topology.Basic

/-!
# Status of a change

The status of a change is read off one snapshot of the cluster and never kept: `statusOf` takes
the last change first and the pending change after it, since a newer change can only have ended
after this one.
-/

namespace ClusterScaling

/-- The status of a change, as one snapshot shows it. -/
inductive ChangeStatus where
  | completed
  | failed
  | pending
  /-- A newer change has ended, so this one is taken to have completed before it. -/
  | outdated
  /-- The snapshot does not show the change yet. -/
  | unknown
deriving DecidableEq, Repr

namespace ChangeStatus

/-- Whether the status is final. -/
def isFinal : ChangeStatus → Bool
  | completed | failed | outdated => true
  | pending | unknown => false

/-- The name of the status. -/
def label : ChangeStatus → String
  | completed => "COMPLETED"
  | failed => "FAILED"
  | pending => "PENDING"
  | outdated => "OUTDATED"
  | unknown => "UNKNOWN"

/-- All statuses. -/
def all : List ChangeStatus := [completed, failed, pending, outdated, unknown]

/-- Reads a status from a document. -/
def decodeDocument (d : Json.Document) : Except Json.DecodeError ChangeStatus :=
  Json.decodeName (all.map fun s => (s.label, s)) d

end ChangeStatus

namespace Topology

/-- The status of the change `id`. -/
def statusOf (t : Topology) (id : ChangeId) : ChangeStatus :=
  let visible : ChangeStatus :=
    if t.pendingChange.any fun c => c.id == id then .pending else .unknown
  match t.lastChange with
  | none => visible
  | some last =>
    if last.id = id then if last.succeeded then .completed else .failed
    else if id < last.id then .outdated
    else visible

end Topology

end ClusterScaling
