import ClusterScaling.Run.Program

/-!
# Runs

An `Environment` is the world that a program runs in: what its calls answer and how long that
takes, and when the stop signal comes. It may do anything, so a fact about all environments is a
fact about every cluster, platform and operator. `Environment.run` gives the course of a run: the
calls with their times, the notices, the time at the end and the result.
-/

namespace ClusterScaling

/-- A world of state `σ`. Times and delays are in milliseconds. -/
structure Environment (σ : Type) where
  /-- The answer to a call that is made in a state at a time, and its delay; or none at all. -/
  answer : (c : Call) → σ → Nat → Option (Nat × c.Reply) × σ
  /-- The time of the stop signal, which stays raised, as far as the state knows of it. -/
  signal : σ → Option Nat
  /-- Whether the signal wins over what is ready at the same time, for a wait that starts in a
  state at a time. -/
  signalWins : σ → Nat → Bool

/-- A call of a run with what came of it. -/
structure Exchange (σ : Type) where
  call : Call
  /-- The time of the call. -/
  start : Nat
  /-- The reply that the run went on with; none if it gave up waiting for one. -/
  reply : Option call.Reply
  /-- The time at which the run went on. -/
  finish : Nat
  /-- The state in which the run went on. -/
  state : σ

/-- Something that a run does. -/
inductive Event (σ : Type) where
  | called (x : Exchange σ)
  | told (n : Notice)

/-- The course of a run. -/
structure Course (σ α : Type) where
  events : List (Event σ)
  time : Nat
  state : σ
  result : Except Stop α

namespace Course

variable {σ α : Type}

/-- The course with events before it. -/
def after (events : List (Event σ)) (c : Course σ α) : Course σ α :=
  { c with events := events ++ c.events }

/-- The calls of a run with what came of them. -/
def exchanges (c : Course σ α) : List (Exchange σ) :=
  c.events.filterMap fun
    | .called x => some x
    | .told _ => none

/-- The calls of a run with their times. -/
def calls (c : Course σ α) : List (Nat × Call) := c.exchanges.map fun x => (x.start, x.call)

/-- The notices of a run. -/
def notices (c : Course σ α) : List Notice :=
  c.events.filterMap fun
    | .called _ => none
    | .told n => some n

end Course

/-- The time at which the signal ends a wait that starts at `start` and is ready at `ready`, if it
does. `wins` decides where both come at the same time. -/
def interruption? (signal : Option Nat) (wins : Bool) (start ready : Nat) : Option Nat :=
  match signal with
  | none => none
  | some s =>
    if s ≤ start then (if wins || start < ready then some start else none)
    else if s < ready || (s == ready && wins) then some s
    else none

namespace Environment

variable {σ α : Type}

/-- Whether a wait that starts in the state `s` at `time` ends before it does anything. -/
def preempts (env : Environment σ) (s : σ) (time : Nat) : Bool :=
  env.signalWins s time && (env.signal s).any fun t => t ≤ time

/-- When and how a query of a poll ends, without regard to the signal. -/
def arrival (limit time : Nat) : Option (Nat × Except ClientError Topology) → Nat × Poll
  | none => (max limit time, .late)
  | some (delay, reply) =>
    if time + delay ≤ max limit time then (time + delay, .arrived reply)
    else (max limit time, .late)

/-- When, how and in what state a poll ends whose query is made in the state `s` at `time`. -/
def pollEnd (env : Environment σ) (limit : Nat) (s : σ) (time : Nat) : Nat × Poll × σ :=
  let (reply, s') := env.answer .query s time
  let (ready, result) := arrival limit time reply
  match interruption? (env.signal s') (env.signalWins s time) time ready with
  | some t => (t, .interrupted, s')
  | none => (ready, result, s')

/-- When and how a sleep ends that starts in the state `s` at `time`. -/
def sleepEnd (env : Environment σ) (wake : Nat) (s : σ) (time : Nat) : Nat × Sleep :=
  let ready := max wake time
  match interruption? (env.signal s) (env.signalWins s time) time ready with
  | some t => (t, .interrupted)
  | none => (ready, .woken)

/-- Runs a program from a state and a time on. -/
def run (env : Environment σ) : Program α → σ → Nat → Course σ α
  | .done a, s, time => ⟨[], time, s, .ok a⟩
  | .stop e, s, time => ⟨[], time, s, .error e⟩
  | .log notices next, s, time => (env.run next s time).after (notices.map .told)
  | .clock next, s, time => env.run (next time) s time
  | .call c next, s, time =>
    match env.answer c s time with
    | (none, s') => ⟨[.called ⟨c, time, none, time, s'⟩], time, s', .error .endless⟩
    | (some (delay, reply), s') =>
      (env.run (next reply) s' (time + delay)).after
        [.called ⟨c, time, some reply, time + delay, s'⟩]
  | .poll limit next, s, time =>
    if env.preempts s time then env.run (next .interrupted) s time
    else
      let (t, result, s') := env.pollEnd limit s time
      (env.run (next result) s' t).after [.called ⟨.query, time, result.reply?, t, s'⟩]
  | .sleep wake next, s, time =>
    let (t, result) := env.sleepEnd wake s time
    env.run (next result) s t

end Environment

end ClusterScaling
