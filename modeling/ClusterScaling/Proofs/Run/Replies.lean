import ClusterScaling.Proofs.Run.Waits

/-!
# Replies that come in time

Without a stop signal, what a wait comes to depends only on the replies that it gets before its
deadline. `Environment.replies` lists them, for one who keeps asking up to the deadline whatever
the answers are, and `Polling.settle` looks for the first that decides. `Polling.run_wait_quiet`
shows that a wait ends with just that decision, when it comes, or else at the deadline.
-/

namespace ClusterScaling

variable {σ α β : Type}

/-- What a query is answered with. -/
abbrev QueryReply : Type := Except ClientError Topology

/-- The replies that some exchanges got to queries, with the times at which they came. -/
def Exchange.heard (x : List (Exchange σ)) : List (Nat × QueryReply) :=
  x.filterMap fun
    | ⟨.query, _, some reply, t, _⟩ => some (t, reply)
    | _ => none

namespace Exchange

@[simp] theorem heard_append (x y : List (Exchange σ)) : heard (x ++ y) = heard x ++ heard y :=
  List.filterMap_append

theorem heard_eq_nil {x : List (Exchange σ)} (h : ∀ e ∈ x, e.call ≠ .query) : heard x = [] := by
  refine List.filterMap_eq_nil_iff.2 fun e he => ?_
  obtain ⟨call, start, reply, finish, state⟩ := e
  cases call with
  | query => exact absurd rfl (h _ he)
  | _ => rfl

end Exchange

namespace Environment

/-- There is no stop signal. -/
def Quiet (env : Environment σ) : Prop := ∀ s, env.signal s = none

/-- The replies, with the times at which they come, to one who queries from `time` on up to the
deadline and again `pause` after each reply. A reply that comes later than the deadline, or never,
is the end. -/
def replies (env : Environment σ) (pause deadline : Nat) (s : σ) (time : Nat) :
    List (Nat × QueryReply) :=
  match env.answer .query s time with
  | (none, _) => []
  | (some (delay, reply), s') =>
    if time + delay ≤ max deadline time then
      (time + delay, reply) ::
        if 0 < delay + pause ∧ time + delay + pause < deadline then
          env.replies pause deadline s' (time + delay + pause)
        else []
    else []
termination_by deadline - time
decreasing_by omega

variable {env : Environment σ}

theorem Quiet.preempts (quiet : env.Quiet) (s : σ) (time : Nat) :
    env.preempts s time = false := by
  simp [Environment.preempts, quiet s]

theorem Quiet.pollEnd (quiet : env.Quiet) (limit : Nat) (s : σ) (time : Nat) :
    env.pollEnd limit s time =
      ((arrival limit time (env.answer .query s time).1).1,
        (arrival limit time (env.answer .query s time).1).2, (env.answer .query s time).2) := by
  simp [Environment.pollEnd, quiet _, interruption?]

theorem Quiet.sleepEnd (quiet : env.Quiet) (wake : Nat) (s : σ) (time : Nat) :
    env.sleepEnd wake s time = (max wake time, .woken) := by
  simp [Environment.sleepEnd, quiet s, interruption?]

/-- An undisturbed query has no other way to end than in time or late. -/
theorem Quiet.not_interrupted (quiet : env.Quiet) {limit : Nat} {s s' : σ} {time t : Nat} :
    env.pollEnd limit s time ≠ (t, .interrupted, s') := by
  rw [quiet.pollEnd]
  rcases env.answer .query s time with ⟨_ | ⟨delay, reply⟩, s₁⟩
  · simp [arrival]
  · by_cases h : time + delay ≤ max limit time <;> simp [arrival, h]

/-- Who gets no reply in time to a query gets no more replies. -/
theorem Quiet.replies_of_late (quiet : env.Quiet) {pause deadline : Nat} {s s' : σ} {time t : Nat}
    (h : env.pollEnd deadline s time = (t, .late, s')) :
    env.replies pause deadline s time = [] := by
  rw [quiet.pollEnd] at h
  rw [replies]
  rcases ha : env.answer .query s time with ⟨_ | ⟨delay, reply⟩, s₁⟩
  · rfl
  · by_cases hle : time + delay ≤ max deadline time
    · simp [ha, arrival, hle] at h
    · simp [hle]

/-- A reply in time comes before those to the next queries, if there is time for one. -/
theorem replies_of_arrived {pause deadline : Nat} {s s' : σ} {time t : Nat} {reply : QueryReply}
    (h : env.pollEnd deadline s time = (t, .arrived reply, s')) :
    env.replies pause deadline s time = (t, reply) ::
      if time < t + pause ∧ t + pause < deadline then env.replies pause deadline s' (t + pause)
      else [] := by
  obtain ⟨delay, ha, rfl, hle⟩ := env.pollEnd_arrived h
  rw [replies, ha]
  simp only [hle, if_true, List.cons.injEq, true_and]
  congr 1
  simp only [eq_iff_iff, and_congr_left_iff]
  omega

end Environment

namespace Polling

/-- What the replies come to after some findings: the first decision and its time, or the error
at the deadline. -/
def settle (p : Polling β α) (deadline : Nat) : β → List (Nat × QueryReply) →
    Nat × Except ScaleError α
  | b, [] => (deadline, .error (p.timeout b))
  | b, (t, reply) :: rest =>
    match (p.judge b reply).2 with
    | .decided r => (t, r)
    | .undecided b' => p.settle deadline b' rest

variable {p : Polling β α} {deadline : Nat} {b b' : β} {t : Nat} {reply : QueryReply}
  {rest : List (Nat × QueryReply)} {ns : List Notice} {r : Except ScaleError α}

@[simp] theorem settle_nil : p.settle deadline b [] = (deadline, .error (p.timeout b)) := rfl

theorem settle_decided (h : p.judge b reply = (ns, .decided r)) :
    p.settle deadline b ((t, reply) :: rest) = (t, r) := by
  simp [settle, h]

theorem settle_undecided (h : p.judge b reply = (ns, .undecided b')) :
    p.settle deadline b ((t, reply) :: rest) = p.settle deadline b' rest := by
  simp [settle, h]

/-- The rounds of a wait that nothing disturbs come to what its replies come to. -/
theorem Waits.settle {env : Environment σ} {s : σ} {time : Nat} {c : Course σ α}
    (h : Waits p env deadline b s time c) (quiet : env.Quiet) (interval : 0 < p.bounds.poll.millis)
    (fits : deadline + p.bounds.poll.millis < Program.clockEnd) (start : time ≤ deadline) :
    c.time = (p.settle deadline b (env.replies p.bounds.poll.millis deadline s time)).1 ∧
      c.result = (p.settle deadline b
        (env.replies p.bounds.poll.millis deadline s time)).2.mapError .error := by
  induction h with
  | preempted hpre =>
    rw [quiet.preempts] at hpre
    cases hpre
  | interrupted _ hpoll => exact absurd hpoll quiet.not_interrupted
  | late _ hpoll =>
    rw [quiet.replies_of_late hpoll, settle_nil, env.pollEnd_late hpoll]
    exact ⟨Nat.max_eq_left start, rfl⟩
  | decided hears hj =>
    rw [Environment.replies_of_arrived hears.arrived, settle_decided hj]
    exact ⟨rfl, rfl⟩
  | overflow hears hj hclock =>
    obtain ⟨delay, -, -, hle⟩ := env.pollEnd_arrived hears.arrived
    omega
  | disturbed hears hj hs =>
    rw [quiet.sleepEnd] at hs
    cases hs
  | @expired b s time reply t s' ns b' u hears hj hs hend =>
    -- the next query would start at the deadline or later, so this reply is the last one
    obtain ⟨delay, -, -, hle⟩ := env.pollEnd_arrived hears.arrived
    have hu := env.sleepEnd_woken hs
    rw [Environment.replies_of_arrived hears.arrived, settle_undecided hj, if_neg (by omega),
      settle_nil]
    exact ⟨by dsimp only; omega, rfl⟩
  | @again b s time reply t s' ns b' u c hears hj hs hu hw ih =>
    obtain ⟨delay, -, ht, hle⟩ := env.pollEnd_arrived hears.arrived
    have hwake := env.sleepEnd_woken hs
    obtain rfl : u = t + p.bounds.poll.millis := by omega
    rw [Environment.replies_of_arrived hears.arrived, settle_undecided hj, if_pos (by omega)]
    exact ih (by omega)
  | idle hidle => omega

/-- A wait that ends well, even one that a stop signal could have ended, comes to what the replies
that it heard come to. -/
theorem Waits.settle_heard {env : Environment σ} {s : σ} {time : Nat} {c : Course σ α} {a : α}
    (h : Waits p env deadline b s time c) (hok : c.result = .ok a) :
    p.settle deadline b (Exchange.heard c.exchanges) = (c.time, .ok a) := by
  induction h with
  | @decided b s time reply t s' ns r hears hj =>
    obtain rfl : r = .ok a := by
      cases r with
      | ok a' => simpa using hok
      | error e => simp at hok
    exact settle_decided hj
  | again hears hj hs hu hw ih =>
    rw [Course.exchanges_after]
    simpa [Exchange.heard, settle_undecided hj] using ih hok
  | _ => simp at hok

/-- **A wait that nothing disturbs** ends with the first reply in time that decides it, or else at
its deadline. -/
theorem run_wait_quiet (p : Polling β α) {env : Environment σ} (b : β) (s : σ) {time : Nat}
    (quiet : env.Quiet) (interval : 0 < p.bounds.poll.millis)
    (fits : time + p.bounds.timeout.millis + p.bounds.poll.millis < Program.clockEnd) :
    let deadline := time + p.bounds.timeout.millis
    let settled := p.settle deadline b (env.replies p.bounds.poll.millis deadline s time)
    (env.run (p.wait b) s time).time = settled.1 ∧
      (env.run (p.wait b) s time).result = settled.2.mapError .error :=
  (p.waits_wait env (by omega)).settle quiet interval fits (by omega)

end Polling

end ClusterScaling
