import ClusterScaling.Run.Environment

/-!
# Courses of runs

`Environment.run_bind`: a program that goes on with the result of another one runs as the first
does, and then as the second does from the time and the state in which the first ended
(`Course.andThen`). With it the course of a long program is put together from those of its parts.

The shortest parts are the single calls. `Exchange.snapshot?`, `Exchange.response?` and
`Exchange.granted?` read the reply of an exchange, and `Asked` says of the course of a call that
it is one exchange, whose reply gives the result.
-/

namespace ClusterScaling

variable {σ α β : Type}

/-! ## Replies -/

@[simp] theorem mapError_ok {ε ε' : Type} (f : ε → ε') (a : α) :
    (Except.ok a : Except ε α).mapError f = .ok a := rfl

@[simp] theorem mapError_error {ε ε' : Type} (f : ε → ε') (e : ε) :
    (Except.error e : Except ε α).mapError f = .error (f e) := rfl

namespace Exchange

/-- The snapshot that a query was answered with. -/
def snapshot? : Exchange σ → Option Topology
  | ⟨.query, _, some (.ok t), _, _⟩ => some t
  | _ => none

/-- The accepted change that a submission was answered with. -/
def response? : Exchange σ → Option ChangeResponse
  | ⟨.submit _ _, _, some (.ok r), _, _⟩ => some r
  | _ => none

/-- Whether the platform did what it was asked for. -/
def granted? : Exchange σ → Option Unit
  | ⟨.pauseReconciliation, _, some (.ok a), _, _⟩
  | ⟨.resumeReconciliation, _, some (.ok a), _, _⟩
  | ⟨.scaleBrokers _, _, some (.ok a), _, _⟩ => some a
  | _ => none

end Exchange

/-! ## Courses in sequence -/

namespace Course

@[simp] theorem after_result (es : List (Event σ)) (c : Course σ α) :
    (c.after es).result = c.result := rfl

@[simp] theorem after_time (es : List (Event σ)) (c : Course σ α) :
    (c.after es).time = c.time := rfl

/-- The course up to a stop, without a result of its own. -/
def stopped (c : Course σ α) (e : Stop) : Course σ β := ⟨c.events, c.time, c.state, .error e⟩

/-- The course that goes on with the result of `c`. -/
def andThen (c : Course σ α) (f : α → σ → Nat → Course σ β) : Course σ β :=
  match c.result with
  | .ok a => (f a c.state c.time).after c.events
  | .error e => c.stopped e

theorem andThen_after (es : List (Event σ)) (c : Course σ α) (f : α → σ → Nat → Course σ β) :
    (c.after es).andThen f = (c.andThen f).after es := by
  unfold andThen
  cases h : c.result <;> simp [h, after, stopped]

/-- The exchanges among some events. -/
def exchangesOf (es : List (Event σ)) : List (Exchange σ) :=
  es.filterMap fun
    | .called x => some x
    | .told _ => none

theorem exchanges_eq (c : Course σ α) : c.exchanges = exchangesOf c.events := rfl

@[simp] theorem exchangesOf_nil : exchangesOf ([] : List (Event σ)) = [] := rfl

@[simp] theorem exchangesOf_called (x : Exchange σ) (es : List (Event σ)) :
    exchangesOf (.called x :: es) = x :: exchangesOf es := rfl

@[simp] theorem exchangesOf_append (es es' : List (Event σ)) :
    exchangesOf (es ++ es') = exchangesOf es ++ exchangesOf es' := List.filterMap_append

@[simp] theorem exchangesOf_told (ns : List Notice) :
    exchangesOf (ns.map (Event.told (σ := σ))) = [] := by
  simp [exchangesOf]

@[simp] theorem exchanges_after (es : List (Event σ)) (c : Course σ α) :
    (c.after es).exchanges = exchangesOf es ++ c.exchanges := exchangesOf_append es c.events

@[simp] theorem exchanges_stopped (c : Course σ α) (e : Stop) :
    (c.stopped e : Course σ β).exchanges = c.exchanges := rfl

end Course

/-! ## Runs in sequence -/

theorem Program.bind_assoc {γ : Type} (p : Program α) (f : α → Program β) (g : β → Program γ) :
    p >>= f >>= g = p >>= fun a => f a >>= g := by
  change (p.bind f).bind g = p.bind fun a => (f a).bind g
  induction p with
  | done a => rfl
  | stop e => rfl
  | log notices next ih => simp only [bind, ih]
  | clock next ih => simp only [bind, ih]
  | call c next ih => simp only [bind, ih]
  | poll limit next ih => simp only [bind, ih]
  | sleep wake next ih => simp only [bind, ih]

namespace Environment

variable (env : Environment σ)

/-- **A run of two programs in sequence** is the run of the first, followed by that of the second
from the time and the state in which the first ended. -/
theorem run_bind (p : Program α) (f : α → Program β) (s : σ) (time : Nat) :
    env.run (p >>= f) s time = (env.run p s time).andThen fun a s time => env.run (f a) s time := by
  change env.run (p.bind f) s time = _
  induction p generalizing s time with
  | done a => rfl
  | stop e => rfl
  | log notices next ih => simp only [Program.bind, run, ih, Course.andThen_after]
  | clock next ih => exact ih time s time
  | call c next ih =>
    simp only [Program.bind, run]
    split
    · rfl
    · rw [ih, Course.andThen_after]
  | poll limit next ih =>
    simp only [Program.bind, run]
    split
    · exact ih .interrupted s time
    · rw [ih, Course.andThen_after]
  | sleep wake next ih => exact ih _ s _

/-- A run in sequence either goes on with the result of its first part or stops with it. -/
theorem run_bind_cases (p : Program α) (f : α → Program β) (s : σ) (time : Nat) :
    (∃ a, (env.run p s time).result = .ok a ∧ env.run (p >>= f) s time =
      (env.run (f a) (env.run p s time).state (env.run p s time).time).after
        (env.run p s time).events) ∨
    (∃ e, (env.run p s time).result = .error e ∧
      env.run (p >>= f) s time = (env.run p s time).stopped e) := by
  rw [run_bind, Course.andThen]
  cases h : (env.run p s time).result with
  | ok a => exact .inl ⟨a, rfl, rfl⟩
  | error e => exact .inr ⟨e, rfl, rfl⟩

/-- A run whose result is only looked at differently at the end. -/
theorem run_bind_pure (p : Program α) (g : α → β) (s : σ) (time : Nat) :
    env.run (p >>= fun a => pure (g a)) s time = ⟨(env.run p s time).events,
      (env.run p s time).time, (env.run p s time).state, (env.run p s time).result.map g⟩ := by
  rcases env.run_bind_cases p (fun a => pure (g a)) s time with ⟨a, ha, hrun⟩ | ⟨e, he, hrun⟩
  · rw [hrun, ha]
    change Course.mk (_ ++ []) _ _ _ = _
    rw [List.append_nil]
    rfl
  · rw [hrun, he]
    rfl

@[simp] theorem run_pure (a : α) (s : σ) (time : Nat) :
    env.run (pure a) s time = ⟨[], time, s, .ok a⟩ := rfl

theorem run_tell_bind (notices : List Notice) (f : Unit → Program β) (s : σ) (time : Nat) :
    env.run (Program.tell notices >>= f) s time =
      (env.run (f ()) s time).after (notices.map .told) := rfl

theorem run_ofExcept_bind_ok {r : Except ScaleError α} {a : α} (h : r = .ok a)
    (f : α → Program β) (s : σ) (time : Nat) :
    env.run (Program.ofExcept r >>= f) s time = env.run (f a) s time := by
  subst h; rfl

theorem run_ofExcept_bind_error {r : Except ScaleError α} {e : ScaleError} (h : r = .error e)
    (f : α → Program β) (s : σ) (time : Nat) :
    env.run (Program.ofExcept r >>= f) s time = ⟨[], time, s, .error (.error e)⟩ := by
  subst h; rfl

/-! ## Single calls -/

/-- The course consists of one exchange `e`, a call `c`, and `value` reads the result off it. -/
structure Asked (c : Call) (value : Exchange σ → Option α) (course : Course σ α)
    (e : Exchange σ) : Prop where
  call : e.call = c
  events : course.events = [.called e]
  state : course.state = e.state
  time : course.time = e.finish
  result : ∀ a, course.result = .ok a ↔ value e = some a

theorem asked_call {c : Call} {read : c.Reply → Except ScaleError α}
    {value : Exchange σ → Option α} {s : σ} {time : Nat}
    (hnone : ∀ t s', value ⟨c, time, none, t, s'⟩ = none)
    (hsome : ∀ r a t s', read r = .ok a ↔ value ⟨c, time, some r, t, s'⟩ = some a) :
    ∃ e, Asked c value (env.run (.call c fun r => .ofExcept (read r)) s time) e := by
  rcases h : env.answer c s time with ⟨_ | ⟨delay, r⟩, s'⟩
  · refine ⟨⟨c, time, none, time, s'⟩, ?_⟩
    simp only [run, h]
    exact ⟨rfl, rfl, rfl, rfl, fun a => by simp [hnone]⟩
  · refine ⟨⟨c, time, some r, time + delay, s'⟩, ?_⟩
    simp only [run, h]
    cases hr : read r with
    | ok a => exact ⟨rfl, rfl, rfl, rfl, fun b => by simp [← hsome, hr, run, Program.ofExcept]⟩
    | error e =>
      exact ⟨rfl, rfl, rfl, rfl, fun b => by
        simp [← hsome, hr, run, Program.ofExcept, Program.fail]⟩

theorem asked_query (s : σ) (time : Nat) :
    ∃ e, Asked .query Exchange.snapshot? (env.run Program.query s time) e :=
  env.asked_call (fun _ _ => rfl) fun r _ _ _ => by
    cases r <;> simp [Exchange.snapshot?]

theorem asked_submit (r : ChangeRequest) (force : Bool) (s : σ) (time : Nat) :
    ∃ e, Asked (.submit r force) Exchange.response? (env.run (Program.submit r force) s time) e :=
  env.asked_call (fun _ _ => rfl) fun r _ _ _ => by
    cases r <;> simp [Exchange.response?]

theorem asked_pause (s : σ) (time : Nat) :
    ∃ e, Asked .pauseReconciliation Exchange.granted?
      (env.run Program.pauseReconciliation s time) e :=
  env.asked_call (fun _ _ => rfl) fun r _ _ _ => by
    cases r <;> simp [Exchange.granted?]

theorem asked_resume (s : σ) (time : Nat) :
    ∃ e, Asked .resumeReconciliation Exchange.granted?
      (env.run Program.resumeReconciliation s time) e :=
  env.asked_call (fun _ _ => rfl) fun r _ _ _ => by
    cases r <;> simp [Exchange.granted?]

theorem asked_scaleBrokers (n : UInt32) (s : σ) (time : Nat) :
    ∃ e, Asked (.scaleBrokers n) Exchange.granted? (env.run (Program.scaleBrokers n) s time) e :=
  env.asked_call (fun _ _ => rfl) fun r _ _ _ => by
    cases r <;> simp [Exchange.granted?]

end Environment

end ClusterScaling
