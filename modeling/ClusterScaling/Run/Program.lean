import ClusterScaling.Request.Basic
import ClusterScaling.Run.Notice

/-!
# Programs

A `Program` says what to do with a cluster and its platform without doing it: it is the tree of
its calls, waits and notices, which goes on with whatever the world answers. The world is left
to those who run it. `Environment.run` collects the calls that are made against a world which is
given as data.

Times are counted in milliseconds from some fixed start.
-/

namespace ClusterScaling

/-- A call to the cluster or to the platform that runs its brokers. -/
inductive Call where
  /-- Asks the cluster for a fresh snapshot. -/
  | query
  | submit (request : ChangeRequest) (force : Bool)
  /-- Stops the platform from undoing a change of the cluster. -/
  | pauseReconciliation
  | resumeReconciliation
  /-- Provisions or releases capacity, so that exactly so many brokers run. -/
  | scaleBrokers (n : UInt32)
deriving DecidableEq, Repr

/-- What a call answers. Failures of the platform are messages, the outermost first. -/
abbrev Call.Reply : Call → Type
  | .query => Except ClientError Topology
  | .submit _ _ => Except ClientError ChangeResponse
  | .pauseReconciliation | .resumeReconciliation | .scaleBrokers _ => Except (List String) Unit

/-- How a query with a limit ends. -/
inductive Poll where
  | arrived (reply : Except ClientError Topology)
  /-- The limit passed first. -/
  | late
  /-- The stop signal came first. -/
  | interrupted

/-- The reply that came in time. -/
def Poll.reply? : Poll → Option (Except ClientError Topology)
  | .arrived reply => some reply
  | .late | .interrupted => none

/-- How a sleep ends. -/
inductive Sleep where
  | woken
  | interrupted
deriving DecidableEq, Repr

/-- Why a program ends without a result. -/
inductive Stop where
  | error (e : ScaleError)
  /-- A time was asked for that lies beyond the clock. -/
  | clockOverflow
  /-- A duration was read that overflows. -/
  | durationOverflow (o : Overflow)
  /-- A call is never answered, or polls go on while the clock stands still. -/
  | endless
deriving DecidableEq, Repr

/-- What to do, up to a result. -/
inductive Program (α : Type) where
  | done (a : α)
  | stop (s : Stop)
  | log (notices : List Notice) (next : Program α)
  /-- Reads the clock. -/
  | clock (next : Nat → Program α)
  /-- Waits for the answer to a call as long as it takes. -/
  | call (c : Call) (next : c.Reply → Program α)
  /-- Queries the cluster, up to the time `limit` or the stop signal. -/
  | poll (limit : Nat) (next : Poll → Program α)
  /-- Sleeps up to the time `wake` or the stop signal. -/
  | sleep (wake : Nat) (next : Sleep → Program α)

namespace Program

variable {α β : Type}

/-- Goes on with the result of a program. -/
def bind : Program α → (α → Program β) → Program β
  | done a, f => f a
  | stop s, _ => .stop s
  | log notices p, f => .log notices (p.bind f)
  | clock k, f => .clock fun t => (k t).bind f
  | call c k, f => .call c fun r => (k r).bind f
  | poll limit k, f => .poll limit fun r => (k r).bind f
  | sleep wake k, f => .sleep wake fun r => (k r).bind f

instance : Monad Program where
  pure := .done
  bind := .bind

/-- Ends with an error. -/
def fail (e : ScaleError) : Program α := .stop (.error e)

/-- Ends with the error, or goes on with the value. -/
def ofExcept (r : Except ScaleError α) : Program α :=
  match r with
  | .ok a => .done a
  | .error e => fail e

/-- Goes on with what durations were read for, or stops in their overflow. -/
def ofReading (r : Except Overflow α) : Program α :=
  match r with
  | .ok a => .done a
  | .error o => .stop (.durationOverflow o)

/-- Tells the operator. -/
def tell (notices : List Notice) : Program Unit := .log notices (.done ())

/-- The time. -/
def now : Program Nat := .clock .done

/-- A fresh snapshot. -/
def query : Program Topology := .call .query fun r => ofExcept (r.mapError .client)

/-- Submits a change request. -/
def submit (request : ChangeRequest) (force : Bool) : Program ChangeResponse :=
  .call (.submit request force) fun r => ofExcept (r.mapError .client)

/-- Asks the platform to leave the cluster alone. -/
def pauseReconciliation : Program Unit :=
  .call .pauseReconciliation fun r => ofExcept (r.mapError .platform)

/-- Lets the platform look after the cluster again. -/
def resumeReconciliation : Program Unit :=
  .call .resumeReconciliation fun r => ofExcept (r.mapError .platform)

/-- Asks the platform for exactly so many running brokers. -/
def scaleBrokers (n : UInt32) : Program Unit :=
  .call (.scaleBrokers n) fun r => ofExcept (r.mapError .platform)

/-- Queries the cluster up to the time `limit`. -/
def pollUntil (limit : Nat) : Program Poll := .poll limit .done

/-- Sleeps up to the time `wake`. -/
def sleepUntil (wake : Nat) : Program Sleep := .sleep wake .done

/-- The times of the clock lie below this one: its seconds are counted in 63 bits. -/
def clockEnd : Nat := 0x8000000000000000 * 1000

/-- The time after `d` from now on. -/
def timeAfter (d : Duration) : Program Nat :=
  .clock fun t => if t + d.millis < clockEnd then .done (t + d.millis) else .stop .clockOverflow

end Program

end ClusterScaling
