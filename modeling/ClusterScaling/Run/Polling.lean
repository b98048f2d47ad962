import ClusterScaling.Run.Program
import ClusterScaling.Settings.Basic

/-!
# Polling

The cluster tells nobody when it has changed, so a wait asks it again and again. `Polling` is such
a wait: how each answer is judged, and what to do when the time is over. A wait ends with the first
answer that decides it, at its bound, or with the stop signal.
-/

namespace ClusterScaling

/-- What one answer means for a wait whose findings so far are of type `β`. -/
inductive Verdict (β α : Type) where
  | decided (result : Except ScaleError α)
  | undecided (findings : β)

/-- A wait by polling, for a result of type `α`. -/
structure Polling (β α : Type) where
  bounds : WaitBounds
  /-- What an answer means after some findings, and what to tell of it. -/
  judge : β → Except ClientError Topology → List Notice × Verdict β α
  /-- What to tell before the next poll. -/
  beforeSleep : β → List Notice
  /-- What to tell when the time is over. -/
  atBound : β → List Notice
  /-- The error when the time is over. -/
  timeout : β → ScaleError

namespace Polling

variable {α β : Type}

/-- The number of polls that may pass while the clock stands still. Only a wait without an
interval between its polls can make more than one. -/
def idleLimit : Nat := 10000

/-- Ends the wait at its bound. -/
def abandon (p : Polling β α) (b : β) : Program α :=
  .log (p.atBound b) (.fail (p.timeout b))

/-- Polls at most `fuel` times up to the deadline. -/
def loop (p : Polling β α) (deadline : Nat) : Nat → β → Program α
  | 0, _ => .stop .endless
  | fuel + 1, b => do
    match ← Program.pollUntil deadline with
    | .interrupted => .fail .cancelled
    | .late => p.abandon b
    | .arrived reply =>
      let (notices, verdict) := p.judge b reply
      Program.tell notices
      match verdict with
      | .decided result => .ofExcept result
      | .undecided b =>
        let next ← Program.timeAfter p.bounds.poll
        Program.tell (p.beforeSleep b)
        match ← Program.sleepUntil (min next deadline) with
        | .interrupted => .fail .cancelled
        | .woken =>
          if deadline ≤ (← Program.now) then p.abandon b else p.loop deadline fuel b

/-- The number of polls that suffice: the clock moves between two of them, or they are idle. -/
def fuel (p : Polling β α) : Nat := p.bounds.timeout.millis + idleLimit + 1

/-- Waits from now on, with findings to start from. -/
def wait (p : Polling β α) (b : β) : Program α := do
  let deadline ← Program.timeAfter p.bounds.timeout
  p.loop deadline p.fuel b

end Polling

end ClusterScaling
