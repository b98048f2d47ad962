import ClusterScaling.Change.Status
import ClusterScaling.Run.Polling

/-!
# Watching a change

A watch polls the cluster until a change has ended. Each snapshot is judged anew by `observe`;
only the id of the tracked change is kept, which a watch without one takes from its first snapshot.
-/

namespace ClusterScaling

/-- How a watched change ended well. -/
inductive Outcome where
  | completed (change : ChangeId)
  /-- A newer change has ended, so this one is taken to have completed before it. -/
  | outdated (change latest : ChangeId)
  /-- No change was asked for, and the cluster has never had one. -/
  | nothingToTrack
deriving DecidableEq, Repr

namespace Outcome

/-- The change that the outcome is about. -/
def change? : Outcome → Option ChangeId
  | completed change | outdated change _ => some change
  | nothingToTrack => none

end Outcome

namespace Watch

/-- The newest change that a snapshot shows. -/
def newest (t : Topology) : Option ChangeId :=
  match t.pendingChange with
  | some c => some c.id
  | none => t.lastChange.map LastChange.id

/-- What a snapshot tells of the change `id`, and what there is to say of it. -/
def judgeChange (t : Topology) (id : ChangeId) :
    List Notice × Except ScaleError (Option Outcome) :=
  match t.statusOf id with
  | .completed => ([.completed id], .ok (some (.completed id)))
  | .failed =>
    let status := (t.lastChange.map LastChange.status).getD ""
    ([.failed id status], .error (.changeFailed id status))
  | .outdated =>
    let latest := (t.lastChange.map LastChange.id).getD id
    ([.outdated id latest], .ok (some (.outdated id latest)))
  | .pending => (t.pendingChange.toList.map .inProgress, .ok none)
  | .unknown => ([.notStarted id], .ok none)

/-- What one snapshot tells of a change. -/
structure Observation where
  tracked : Option ChangeId
  notices : List Notice
  /-- The outcome, or none if the change goes on. -/
  result : Except ScaleError (Option Outcome)

/-- The observation of the change `id`. -/
def observeChange (t : Topology) (id : ChangeId) : Observation :=
  let (notices, result) := judgeChange t id
  ⟨some id, .classified id (t.statusOf id) :: notices, result⟩

/-- Evaluates a snapshot, where `tracked` is the change that is watched so far. -/
def observe (t : Topology) (tracked : Option ChangeId) : Observation :=
  match tracked with
  | some id => observeChange t id
  | none =>
    match newest t with
    | none => ⟨none, [.noChangeExists], .ok (some .nothingToTrack)⟩
    | some id =>
      let seen := observeChange t id
      { seen with notices := .trackingLatest id :: seen.notices }

/-- What a watch has found so far. -/
structure Findings where
  tracked : Option ChangeId
  /-- The number of polls that were made. -/
  polls : Nat
deriving DecidableEq, Repr

/-- What an answer means for a watch. An answer that may yet come right decides nothing. -/
def judge (f : Findings) (reply : Except ClientError Topology) :
    List Notice × Verdict Findings Outcome :=
  let polls := f.polls + 1
  match reply with
  | .error e =>
    if e.isTransient then ([.pollFailed e polls], .undecided ⟨f.tracked, polls⟩)
    else ([], .decided (.error (.client e)))
  | .ok t =>
    let seen := observe t f.tracked
    (seen.notices,
      match seen.result with
      | .error e => .decided (.error e)
      | .ok (some outcome) => .decided (.ok outcome)
      | .ok none => .undecided ⟨seen.tracked, polls⟩)

/-- The wait for a change within some bounds. -/
def polling (bounds : WaitBounds) : Polling Findings Outcome where
  bounds := bounds
  judge := judge
  beforeSleep f := [.nextPoll f.polls bounds.poll]
  atBound f := [.gaveUp f.tracked bounds.timeout]
  timeout f := .timeout f.tracked bounds.timeout

/-- The change to track at first: ids from one on name changes. -/
def requested (change : Option ChangeId) : Option ChangeId := change.filter fun id => 0 < id

/-- Waits until a change has ended. Without an id, or with one that is not positive, that is the
pending change, or else the last one. -/
def wait (bounds : WaitBounds) (change : Option ChangeId) : Program Outcome :=
  (polling bounds).wait ⟨requested change, 0⟩

/-- Waits until a change has ended, within bounds that are read for it. -/
def waitWithin (bounds : Except Overflow WaitBounds) (change : Option ChangeId) :
    Program Outcome := do
  let bounds ← Program.ofReading bounds
  wait bounds change

@[simp] theorem waitWithin_ok (bounds : WaitBounds) (change : Option ChangeId) :
    waitWithin (.ok bounds) change = wait bounds change := rfl

@[simp] theorem waitWithin_error (o : Overflow) (change : Option ChangeId) :
    waitWithin (.error o) change = .stop (.durationOverflow o) := rfl

end Watch

end ClusterScaling
