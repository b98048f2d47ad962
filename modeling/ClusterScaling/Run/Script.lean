import ClusterScaling.Run.Environment

/-!
# Scripts

A world that answers from a script. Queries take its replies in turn, and the last one again and
again; every submission gets the same answer.
-/

namespace ClusterScaling

/-- An answer and its delay, or none for a call that is never answered. -/
abbrev Timed (α : Type) : Type := Option (Nat × α)

/-- What a scripted world answers. -/
structure Script where
  queries : List (Timed (Except ClientError Topology))
  submission : Timed (Except ClientError ChangeResponse)
  pause : Except (List String) Unit := .ok ()
  resume : Except (List String) Unit := .ok ()
  scaleBrokers : Except (List String) Unit := .ok ()
  /-- The time of the stop signal. -/
  signal : Option Nat := none

namespace Script

/-- The answer to a query when no reply is left: nobody listens. -/
def silence : Timed (Except ClientError Topology) :=
  some (0, .error (.transport "connection refused"))

/-- The answer to a call, where the state is the replies that are left. -/
def answer (script : Script) : (c : Call) → List (Timed (Except ClientError Topology)) → Nat →
    Option (Nat × c.Reply) × List (Timed (Except ClientError Topology))
  | .query, [], _ => (silence, [])
  | .query, [reply], _ => (reply, [reply])
  | .query, reply :: rest, _ => (reply, rest)
  | .submit _ _, rest, _ => (script.submission, rest)
  | .pauseReconciliation, rest, _ => (some (0, script.pause), rest)
  | .resumeReconciliation, rest, _ => (some (0, script.resume), rest)
  | .scaleBrokers _, rest, _ => (some (0, script.scaleBrokers), rest)

/-- The world that answers from the script. -/
def environment (script : Script) : Environment (List (Timed (Except ClientError Topology))) where
  answer := script.answer
  signal _ := script.signal
  signalWins _ _ := true

/-- The course of a program in the world of the script. -/
def run {α : Type} (script : Script) (p : Program α) :
    Course (List (Timed (Except ClientError Topology))) α :=
  script.environment.run p script.queries 0

end Script

end ClusterScaling
