import ClusterScaling.Proofs.Run.Course
import ClusterScaling.Run.Polling

/-!
# How waits go

`Polling.Waits p env deadline b s time c`: from the findings `b`, in the state `s` and at `time`,
the wait `p` takes the course `c`, round after round. The rounds of `Polling.loop` are counted, and
`Polling.waits_loop` shows that the count never matters: unless there is no interval between the
polls, the clock reaches the deadline first. What holds of a wait is proved by induction on
`Waits`, with one case for each way in which a round ends.
-/

namespace ClusterScaling

variable {σ α β : Type}

/-! ## Steps of a round -/

namespace Environment

variable (env : Environment σ)

theorem run_pollUntil_bind (limit : Nat) (f : Poll → Program α) (s : σ) (time : Nat) :
    env.run (Program.pollUntil limit >>= f) s time =
      if env.preempts s time then env.run (f .interrupted) s time
      else
        let (t, result, s') := env.pollEnd limit s time
        (env.run (f result) s' t).after [.called ⟨.query, time, result.reply?, t, s'⟩] := rfl

theorem run_sleepUntil_bind (wake : Nat) (f : Sleep → Program α) (s : σ) (time : Nat) :
    env.run (Program.sleepUntil wake >>= f) s time =
      env.run (f (env.sleepEnd wake s time).2) s (env.sleepEnd wake s time).1 := rfl

theorem run_timeAfter_bind (d : Duration) (f : Nat → Program α) (s : σ) (time : Nat) :
    env.run (Program.timeAfter d >>= f) s time =
      if time + d.millis < Program.clockEnd then env.run (f (time + d.millis)) s time
      else ⟨[], time, s, .error .clockOverflow⟩ := by
  change env.run (Program.bind _ f) s time = _
  simp only [Program.timeAfter, Program.bind, run]
  split <;> rfl

theorem run_now_bind (f : Nat → Program α) (s : σ) (time : Nat) :
    env.run (Program.now >>= f) s time = env.run (f time) s time := rfl

/-- A reply that comes in time is the answer of the world, after its delay. -/
theorem pollEnd_arrived {limit : Nat} {s s' : σ} {time t : Nat}
    {reply : Except ClientError Topology}
    (h : env.pollEnd limit s time = (t, .arrived reply, s')) :
    ∃ delay, env.answer .query s time = (some (delay, reply), s') ∧ t = time + delay ∧
      t ≤ max limit time := by
  unfold pollEnd at h
  rcases ha : env.answer .query s time with ⟨_ | ⟨delay, r⟩, s₁⟩
  · simp only [ha, arrival] at h
    split at h <;> simp at h
  · simp only [ha, arrival] at h
    split at h
    · simp at h
    · split at h
      · rename_i hle
        simp only [Prod.mk.injEq, Poll.arrived.injEq] at h
        obtain ⟨rfl, rfl, rfl⟩ := h
        exact ⟨delay, rfl, rfl, hle⟩
      · simp at h

/-- A poll without an answer in time ends at its limit. -/
theorem pollEnd_late {limit : Nat} {s s' : σ} {time t : Nat}
    (h : env.pollEnd limit s time = (t, .late, s')) : t = max limit time := by
  unfold pollEnd at h
  rcases ha : env.answer .query s time with ⟨_ | ⟨delay, r⟩, s₁⟩
  · simp only [ha, arrival] at h
    split at h
    · simp at h
    · exact (Prod.mk.inj h).1.symm
  · simp only [ha, arrival] at h
    split at h
    · simp at h
    · split at h
      · simp at h
      · exact (Prod.mk.inj h).1.symm

/-- A sleep that nothing disturbs ends at its time. -/
theorem sleepEnd_woken {wake : Nat} {s : σ} {time t : Nat}
    (h : env.sleepEnd wake s time = (t, .woken)) : t = max wake time := by
  unfold sleepEnd at h
  dsimp only at h
  split at h
  · simp at h
  · exact (Prod.mk.inj h).1.symm

end Environment

/-! ## The rounds of a wait -/

namespace Polling

/-- The query of a round that starts in the state `s` at `time` is answered at `t`. -/
structure Hears (env : Environment σ) (deadline : Nat) (s : σ) (time : Nat)
    (reply : Except ClientError Topology) (t : Nat) (s' : σ) : Prop where
  undisturbed : env.preempts s time = false
  arrived : env.pollEnd deadline s time = (t, .arrived reply, s')

/-- The wait `p` takes a course (module doc). -/
inductive Waits (p : Polling β α) (env : Environment σ) (deadline : Nat) :
    β → σ → Nat → Course σ α → Prop
  | preempted {b s time} : env.preempts s time = true →
      Waits p env deadline b s time ⟨[], time, s, .error (.error .cancelled)⟩
  | interrupted {b s time t s'} : env.preempts s time = false →
      env.pollEnd deadline s time = (t, .interrupted, s') →
      Waits p env deadline b s time
        ⟨[.called ⟨.query, time, none, t, s'⟩], t, s', .error (.error .cancelled)⟩
  | late {b s time t s'} : env.preempts s time = false →
      env.pollEnd deadline s time = (t, .late, s') →
      Waits p env deadline b s time
        ⟨.called ⟨.query, time, none, t, s'⟩ :: (p.atBound b).map .told, t, s',
          .error (.error (p.timeout b))⟩
  | decided {b s time reply t s' ns r} : Hears env deadline s time reply t s' →
      p.judge b reply = (ns, .decided r) →
      Waits p env deadline b s time
        ⟨.called ⟨.query, time, some reply, t, s'⟩ :: ns.map .told, t, s', r.mapError .error⟩
  | overflow {b s time reply t s' ns b'} : Hears env deadline s time reply t s' →
      p.judge b reply = (ns, .undecided b') → Program.clockEnd ≤ t + p.bounds.poll.millis →
      Waits p env deadline b s time
        ⟨.called ⟨.query, time, some reply, t, s'⟩ :: ns.map .told, t, s',
          .error .clockOverflow⟩
  | disturbed {b s time reply t s' ns b' u} : Hears env deadline s time reply t s' →
      p.judge b reply = (ns, .undecided b') →
      env.sleepEnd (min (t + p.bounds.poll.millis) deadline) s' t = (u, .interrupted) →
      Waits p env deadline b s time
        ⟨.called ⟨.query, time, some reply, t, s'⟩ :: (ns ++ p.beforeSleep b').map .told, u, s',
          .error (.error .cancelled)⟩
  | expired {b s time reply t s' ns b' u} : Hears env deadline s time reply t s' →
      p.judge b reply = (ns, .undecided b') →
      env.sleepEnd (min (t + p.bounds.poll.millis) deadline) s' t = (u, .woken) → deadline ≤ u →
      Waits p env deadline b s time
        ⟨.called ⟨.query, time, some reply, t, s'⟩ ::
          (ns ++ p.beforeSleep b' ++ p.atBound b').map .told, u, s',
          .error (.error (p.timeout b'))⟩
  | again {b s time reply t s' ns b' u c} : Hears env deadline s time reply t s' →
      p.judge b reply = (ns, .undecided b') →
      env.sleepEnd (min (t + p.bounds.poll.millis) deadline) s' t = (u, .woken) → u < deadline →
      Waits p env deadline b' s' u c →
      Waits p env deadline b s time
        (c.after (.called ⟨.query, time, some reply, t, s'⟩ ::
          (ns ++ p.beforeSleep b').map .told))
  | idle {b s time} : p.bounds.poll.millis = 0 →
      Waits p env deadline b s time ⟨[], time, s, .error .endless⟩

theorem run_abandon (p : Polling β α) (env : Environment σ) (b : β) (s : σ) (time : Nat) :
    env.run (p.abandon b) s time =
      ⟨(p.atBound b).map .told, time, s, .error (.error (p.timeout b))⟩ := by
  simp [abandon, Program.fail, Environment.run, Course.after]

theorem run_ofExcept (env : Environment σ) (r : Except ScaleError α) (s : σ) (time : Nat) :
    env.run (Program.ofExcept r) s time = ⟨[], time, s, r.mapError .error⟩ := by
  cases r <;> rfl

/-! ## One round -/

section
variable {p : Polling β α} {env : Environment σ} {deadline fuel time t u : Nat} {b b' : β} {s s' : σ}
  {reply : Except ClientError Topology} {ns : List Notice} {r : Except ScaleError α}

theorem run_loop_preempted (hpre : env.preempts s time = true) :
    env.run (p.loop deadline (fuel + 1) b) s time =
      ⟨[], time, s, .error (.error .cancelled)⟩ := by
  rw [loop, Environment.run_pollUntil_bind, if_pos hpre]
  rfl

theorem run_loop_interrupted (hpre : env.preempts s time = false)
    (hpoll : env.pollEnd deadline s time = (t, .interrupted, s')) :
    env.run (p.loop deadline (fuel + 1) b) s time =
      ⟨[.called ⟨.query, time, none, t, s'⟩], t, s', .error (.error .cancelled)⟩ := by
  rw [loop, Environment.run_pollUntil_bind, hpre, hpoll]
  rfl

theorem run_loop_late (hpre : env.preempts s time = false)
    (hpoll : env.pollEnd deadline s time = (t, .late, s')) :
    env.run (p.loop deadline (fuel + 1) b) s time =
      ⟨.called ⟨.query, time, none, t, s'⟩ :: (p.atBound b).map .told, t, s',
        .error (.error (p.timeout b))⟩ := by
  rw [loop, Environment.run_pollUntil_bind, hpre, hpoll]
  simp [run_abandon, Course.after, Poll.reply?]

theorem run_loop_decided (hears : Hears env deadline s time reply t s')
    (hj : p.judge b reply = (ns, .decided r)) :
    env.run (p.loop deadline (fuel + 1) b) s time =
      ⟨.called ⟨.query, time, some reply, t, s'⟩ :: ns.map .told, t, s', r.mapError .error⟩ := by
  rw [loop, Environment.run_pollUntil_bind, hears.undisturbed, hears.arrived]
  simp [hj, Environment.run_tell_bind, run_ofExcept, Course.after, Poll.reply?]

/-- What a wait does after a reply that decides nothing. -/
def resume (p : Polling β α) (env : Environment σ) (deadline fuel : Nat) (b : β) (s : σ)
    (time : Nat) : Course σ α :=
  if time + p.bounds.poll.millis < Program.clockEnd then
    let (u, sleep) := env.sleepEnd (min (time + p.bounds.poll.millis) deadline) s time
    Course.after ((p.beforeSleep b).map .told) <|
      match sleep with
      | .interrupted => ⟨[], u, s, .error (.error .cancelled)⟩
      | .woken =>
        if deadline ≤ u then ⟨(p.atBound b).map .told, u, s, .error (.error (p.timeout b))⟩
        else env.run (p.loop deadline fuel b) s u
  else ⟨[], time, s, .error .clockOverflow⟩

theorem run_loop_undecided (hears : Hears env deadline s time reply t s')
    (hj : p.judge b reply = (ns, .undecided b')) :
    env.run (p.loop deadline (fuel + 1) b) s time =
      (p.resume env deadline fuel b' s' t).after
        (.called ⟨.query, time, some reply, t, s'⟩ :: ns.map .told) := by
  rw [loop, Environment.run_pollUntil_bind, hears.undisturbed, hears.arrived]
  simp only [Bool.false_eq_true, if_false, hj, Environment.run_tell_bind,
    Environment.run_timeAfter_bind, resume]
  by_cases hclock : t + p.bounds.poll.millis < Program.clockEnd
  · rcases hs : env.sleepEnd (min (t + p.bounds.poll.millis) deadline) s' t with ⟨u, _ | _⟩
    case interrupted =>
      simp [hclock, hs, Environment.run_sleepUntil_bind, Program.fail, Environment.run,
        Course.after, Poll.reply?]
    case woken =>
      by_cases hend : deadline ≤ u <;>
        simp [hclock, hs, hend, Environment.run_sleepUntil_bind, Environment.run_now_bind,
          run_abandon, Course.after, Poll.reply?]
  · simp [hclock, Course.after, Poll.reply?]

theorem resume_overflow (hclock : Program.clockEnd ≤ time + p.bounds.poll.millis) :
    p.resume env deadline fuel b s time = ⟨[], time, s, .error .clockOverflow⟩ :=
  if_neg (Nat.not_lt.2 hclock)

theorem resume_disturbed (hclock : time + p.bounds.poll.millis < Program.clockEnd)
    (hs : env.sleepEnd (min (time + p.bounds.poll.millis) deadline) s time = (u, .interrupted)) :
    p.resume env deadline fuel b s time =
      ⟨(p.beforeSleep b).map .told, u, s, .error (.error .cancelled)⟩ := by
  rw [resume, if_pos hclock, hs]
  simp [Course.after]

theorem resume_expired (hclock : time + p.bounds.poll.millis < Program.clockEnd)
    (hs : env.sleepEnd (min (time + p.bounds.poll.millis) deadline) s time = (u, .woken))
    (hend : deadline ≤ u) :
    p.resume env deadline fuel b s time =
      ⟨(p.beforeSleep b ++ p.atBound b).map .told, u, s, .error (.error (p.timeout b))⟩ := by
  rw [resume, if_pos hclock, hs]
  simp [hend, Course.after]

theorem resume_again (hclock : time + p.bounds.poll.millis < Program.clockEnd)
    (hs : env.sleepEnd (min (time + p.bounds.poll.millis) deadline) s time = (u, .woken))
    (hgo : u < deadline) :
    p.resume env deadline fuel b s time =
      (env.run (p.loop deadline fuel b) s u).after ((p.beforeSleep b).map .told) := by
  rw [resume, if_pos hclock, hs]
  simp [Nat.not_le.2 hgo]

end

/-- **The rounds of the loop are those of a wait**, however many it may make, as long as they
outlast the time that is left. -/
theorem waits_loop (p : Polling β α) (env : Environment σ) (deadline fuel : Nat) {b : β} {s : σ}
    {time : Nat} (hfuel : 0 < p.bounds.poll.millis → deadline - time < fuel) :
    Waits p env deadline b s time (env.run (p.loop deadline fuel b) s time) := by
  -- each round that goes on moves the clock by the interval, so the rounds that are left outlast the
  -- time that is left
  induction fuel generalizing b s time with
  | zero =>
    exact .idle (Nat.eq_zero_of_not_pos fun h => absurd (hfuel h) (Nat.not_lt_zero _))
  | succ fuel ih =>
    cases hpre : env.preempts s time with
    | true =>
      rw [run_loop_preempted hpre]
      exact .preempted hpre
    | false =>
      rcases hpoll : env.pollEnd deadline s time with ⟨t, _ | _ | _, s'⟩
      case late =>
        rw [run_loop_late hpre hpoll]
        exact .late hpre hpoll
      case interrupted =>
        rw [run_loop_interrupted hpre hpoll]
        exact .interrupted hpre hpoll
      case arrived reply =>
        have hears : Hears env deadline s time reply t s' := ⟨hpre, hpoll⟩
        rcases hj : p.judge b reply with ⟨ns, r | b'⟩
        · rw [run_loop_decided hears hj]
          exact .decided hears hj
        · rw [run_loop_undecided hears hj]
          by_cases hclock : t + p.bounds.poll.millis < Program.clockEnd
          · rcases hs : env.sleepEnd (min (t + p.bounds.poll.millis) deadline) s' t with ⟨u, _ | _⟩
            case interrupted =>
              rw [resume_disturbed hclock hs]
              simpa [Course.after] using Waits.disturbed (p := p) (b := b) hears hj hs
            case woken =>
              have hu := Environment.sleepEnd_woken env hs
              obtain ⟨delay, -, ht, -⟩ := env.pollEnd_arrived hpoll
              by_cases hend : deadline ≤ u
              · rw [resume_expired hclock hs hend]
                simpa [Course.after] using Waits.expired (p := p) (b := b) hears hj hs hend
              · have hgo : u < deadline := Nat.lt_of_not_le hend
                have hnext : Waits p env deadline b' s' u
                    (env.run (p.loop deadline fuel b') s' u) := ih fun h => by
                  have := hfuel h
                  omega
                rw [resume_again hclock hs hgo]
                simpa [Course.after] using Waits.again (p := p) (b := b) hears hj hs hgo hnext
          · rw [resume_overflow (Nat.le_of_not_lt hclock)]
            simpa [Course.after] using
              Waits.overflow (p := p) (b := b) hears hj (Nat.le_of_not_lt hclock)

theorem run_wait_of_fits (p : Polling β α) (env : Environment σ) (b : β) (s : σ) {time : Nat}
    (fits : time + p.bounds.timeout.millis < Program.clockEnd) :
    env.run (p.wait b) s time =
      env.run (p.loop (time + p.bounds.timeout.millis) p.fuel b) s time := by
  rw [wait, Environment.run_timeAfter_bind, if_pos fits]

/-- The rounds of a wait outlast its time. -/
theorem lt_fuel (p : Polling β α) (time : Nat) :
    time + p.bounds.timeout.millis - time < p.fuel := by
  simp only [fuel]
  omega

/-- A wait that fits the clock runs its rounds up to its deadline. -/
theorem waits_wait (p : Polling β α) (env : Environment σ) {b : β} {s : σ} {time : Nat}
    (fits : time + p.bounds.timeout.millis < Program.clockEnd) :
    Waits p env (time + p.bounds.timeout.millis) b s time (env.run (p.wait b) s time) := by
  rw [p.run_wait_of_fits env b s fits]
  exact p.waits_loop env _ _ fun _ => p.lt_fuel time

/-- A wait that does not fit the clock makes no call. -/
theorem run_wait_of_overflow (p : Polling β α) (env : Environment σ) (b : β) (s : σ) {time : Nat}
    (late : Program.clockEnd ≤ time + p.bounds.timeout.millis) :
    env.run (p.wait b) s time = ⟨[], time, s, .error .clockOverflow⟩ := by
  rw [wait, Environment.run_timeAfter_bind, if_neg (by omega)]

/-! ## Calls of a wait -/

/-- **A wait does nothing but ask for snapshots.** -/
theorem Waits.call_eq_query {p : Polling β α} {env : Environment σ} {deadline : Nat} {b : β}
    {s : σ} {time : Nat} {c : Course σ α} (h : Waits p env deadline b s time c) :
    ∀ e ∈ c.exchanges, e.call = .query := by
  induction h with
  | again hears hj hs hu hw ih =>
    intro e he
    simp only [Course.exchanges_after, Course.exchangesOf_called, Course.exchangesOf_told,
      List.mem_append, List.mem_singleton] at he
    rcases he with rfl | he
    · rfl
    · exact ih e he
  | _ => simp [Course.exchanges_eq]

theorem wait_call_eq_query (p : Polling β α) (env : Environment σ) (b : β) (s : σ) (time : Nat) :
    ∀ e ∈ (env.run (p.wait b) s time).exchanges, e.call = .query := by
  by_cases fits : time + p.bounds.timeout.millis < Program.clockEnd
  · exact (p.waits_wait env fits).call_eq_query
  · rw [p.run_wait_of_overflow env b s (by omega)]
    simp [Course.exchanges_eq]

end Polling

end ClusterScaling
