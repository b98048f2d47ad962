import ClusterScaling.Proofs.Run.Replies
import ClusterScaling.Proofs.Run.StopsInWaits
import ClusterScaling.Proofs.Settings.Validation
import ClusterScaling.Run.Script

/-!
# The end of the clock

A wait asks for two times to come: its deadline, and the next poll after each reply. Either may lie
beyond the clock, and nothing that settings are checked for keeps it from that
(`scale_overflows_after_submission`). `waits_overflow_near_end` says exactly which waits can overrun
the clock, and that a scaling run or a failover does so only where its end is near.
-/

namespace ClusterScaling

variable {σ α β : Type}

namespace Polling

variable {p : Polling β α} {env : Environment σ} {deadline start time : Nat} {b : β} {s : σ}
  {c : Course σ α}

/-! ## One wait -/

theorem Waits.time_ge (h : Waits p env deadline b s time c) (hc : c.result = .error .clockOverflow) :
    Program.clockEnd ≤ c.time + p.bounds.poll.millis := by
  induction h with
  | overflow _ _ hclock => exact hclock
  | again _ _ _ _ _ ih => exact ih hc
  | @decided _ _ _ _ _ _ _ r => cases r <;> cases hc
  | _ => cases hc

/-- A wait overruns the clock only near its end. -/
theorem time_ge_of_overflow (h : (env.run (p.wait b) s start).result = .error .clockOverflow) :
    Program.clockEnd ≤ (env.run (p.wait b) s start).time + p.bounds.timeout.millis ∨
      Program.clockEnd ≤ (env.run (p.wait b) s start).time + p.bounds.poll.millis := by
  by_cases fits : start + p.bounds.timeout.millis < Program.clockEnd
  · exact .inr ((p.waits_wait env fits).time_ge h)
  · rw [p.run_wait_of_overflow env b s (by omega)]
    exact .inl (by dsimp only; omega)

/-- No reply that comes in time leads beyond the clock if the deadline and one more interval fit. -/
theorem Waits.ne_clockOverflow (h : Waits p env deadline b s time c)
    (fits : deadline + p.bounds.poll.millis < Program.clockEnd) (hstart : time ≤ deadline) :
    c.result ≠ .error .clockOverflow := by
  induction h with
  | overflow hears _ hclock =>
    obtain ⟨delay, -, -, hle⟩ := env.pollEnd_arrived hears.arrived
    omega
  | again _ _ _ hu _ ih => exact ih (Nat.le_of_lt hu)
  | @decided _ _ _ _ _ _ _ r => cases r <;> nofun
  | _ => nofun

/-- A reply that decides nothing and comes too late for another interval is the end. -/
theorem run_wait_of_late_reply (p : Polling β α) {reply : Except ClientError Topology} {t : Nat}
    {s' : σ} {ns : List Notice} {b' : β}
    (fits : start + p.bounds.timeout.millis < Program.clockEnd)
    (hears : Hears env (start + p.bounds.timeout.millis) s start reply t s')
    (hj : p.judge b reply = (ns, .undecided b'))
    (late : Program.clockEnd ≤ t + p.bounds.poll.millis) :
    (env.run (p.wait b) s start).result = .error .clockOverflow := by
  rw [wait, Environment.run_timeAfter_bind, if_pos fits, fuel, loop,
    Environment.run_pollUntil_bind, hears.undisturbed, hears.arrived]
  simp only [Bool.false_eq_true, if_false, hj, Environment.run_tell_bind,
    Environment.run_timeAfter_bind, if_neg (Nat.not_lt.2 late), Course.after_result]

/-- A world in which all queries fail after the same time. -/
def failingAfter (delay : Nat) : Script where
  queries := [some (delay, .error (.transport "connection refused"))]
  submission := none

/-- **Which waits can overrun the clock**: those whose deadline and one more interval do not fit. -/
theorem ne_clockOverflow_iff (p : Polling β α) (b : β) (start : Nat)
    (hundecided : ∃ ns b', p.judge b (.error (.transport "connection refused")) =
      (ns, .undecided b')) :
    (∀ (σ : Type) (env : Environment σ) (s : σ),
      (env.run (p.wait b) s start).result ≠ .error .clockOverflow) ↔
      start + p.bounds.timeout.millis + p.bounds.poll.millis < Program.clockEnd := by
  constructor
  · intro h
    apply Nat.lt_of_not_le
    intro hlate
    by_cases fits : start + p.bounds.timeout.millis < Program.clockEnd
    · -- the first query fails at the deadline, from where the next poll is out of reach
      obtain ⟨ns, b', hj⟩ := hundecided
      let script := failingAfter p.bounds.timeout.millis
      have hears : Hears script.environment (start + p.bounds.timeout.millis) script.queries start
          (.error (.transport "connection refused")) (start + p.bounds.timeout.millis)
          script.queries := by
        have hanswer : script.environment.answer .query script.queries start =
            (some (p.bounds.timeout.millis, .error (.transport "connection refused")),
              script.queries) := rfl
        have quiet : script.environment.Quiet := fun _ => rfl
        refine ⟨rfl, ?_⟩
        rw [quiet.pollEnd, hanswer]
        simp only [Environment.arrival, if_pos (Nat.le_max_left _ _)]
      exact h _ _ _ (p.run_wait_of_late_reply fits hears hj (by omega))
    · apply h (List (Timed (Except ClientError Topology))) (failingAfter 0).environment []
      rw [p.run_wait_of_overflow _ b _ (by omega)]
  · intro fits σ env s
    exact (p.waits_wait env (by omega)).ne_clockOverflow fits (by omega)

end Polling

/-! ## Runs -/

/-- The end of the clock is nearer than a time that a wait within the bounds may ask for. -/
def NearClockEnd (bounds : WaitBounds) (time : Nat) : Prop :=
  Program.clockEnd ≤ time + bounds.timeout.millis ∨ Program.clockEnd ≤ time + bounds.poll.millis

/-- The program overruns the clock only near its end, which one of the bounds reaches. -/
def OverflowsWithin (bounds : List (Except Overflow WaitBounds)) (q : Program α) : Prop :=
  ∀ (σ : Type) (env : Environment σ) (s : σ) (start : Nat),
    (env.run q s start).result = .error .clockOverflow →
      ∃ w, .ok w ∈ bounds ∧ NearClockEnd w (env.run q s start).time

section
variable {bounds : List (Except Overflow WaitBounds)} {w : WaitBounds}

theorem overflowsWithin_watch (hw : .ok w ∈ bounds)
    (change : Option ChangeId) : OverflowsWithin bounds (Watch.wait w change) :=
  fun _ _ _ _ h => ⟨w, hw, Polling.time_ge_of_overflow h⟩

theorem overflowsWithin_brokers (hw : .ok w ∈ bounds) (expected : UInt32) :
    OverflowsWithin bounds (Failover.awaitBrokers expected w) :=
  fun _ _ _ _ h => ⟨w, hw, Polling.time_ge_of_overflow h⟩

/-- A run ends where the part ends that overruns the clock. -/
theorem overflowsWithin_of_failsIn {p : Program α}
    (h : ∀ (σ : Type) (env : Environment σ),
      env.FailsIn .clockOverflow (fun q => OverflowsWithin bounds q) p) :
    OverflowsWithin bounds p := by
  intro σ env s start hp
  obtain ⟨β, q, s', time', es, hq, hreaches, hoverflow⟩ := h σ env s start hp
  rw [hreaches.run_of_error hoverflow]
  exact hq σ env s' time' hoverflow

end

/-- **Where the clock is overrun.** Without any world that makes it overrun the clock is just a wait
whose deadline and one interval after it fit, and runs overrun the clock only near its end. -/
theorem waits_overflow_near_end (settings : Settings) :
    (∀ (bounds : WaitBounds) (start : Nat),
      (∀ change, (∀ (σ : Type) (env : Environment σ) (s : σ),
        (env.run (Watch.wait bounds change) s start).result ≠ .error .clockOverflow) ↔
          start + bounds.timeout.millis + bounds.poll.millis < Program.clockEnd) ∧
      ∀ expected, (∀ (σ : Type) (env : Environment σ) (s : σ),
        (env.run (Failover.awaitBrokers expected bounds) s start).result ≠ .error .clockOverflow) ↔
          start + bounds.timeout.millis + bounds.poll.millis < Program.clockEnd) ∧
    (∀ target, OverflowsWithin settings.waits (Scaling.scale settings target)) ∧
    ∀ ready change expected layout, OverflowsWithin [.ok ready, .ok change]
      (Failover.run ready change expected layout) := by
  have hordinary : settings.ordinaryWait ∈ settings.waits := by simp [Settings.waits]
  have hscaleDown : settings.scaleDownWait ∈ settings.waits := by simp [Settings.waits]
  refine ⟨fun bounds start => ⟨fun change => ?_, fun expected => ?_⟩, fun target => ?_,
    fun ready change expected layout => ?_⟩
  · exact (Watch.polling bounds).ne_clockOverflow_iff _ start ⟨_, _, rfl⟩
  · exact (Failover.polling expected bounds).ne_clockOverflow_iff none start ⟨_, _, rfl⟩
  · exact overflowsWithin_of_failsIn fun σ env => failsIn_scale .clockOverflow
      (fun bounds hread => overflowsWithin_watch (hread ▸ hordinary))
      (fun bounds hread => overflowsWithin_watch (hread ▸ hscaleDown)) target
  · exact overflowsWithin_of_failsIn fun σ env => failsIn_failover .clockOverflow
      (overflowsWithin_brokers (by simp) expected) (overflowsWithin_watch (by simp)) layout

/-- An empty cluster that gives a change request the id `5`, and then shows its end. -/
def accepting : Script :=
  let snapshot last : Topology := ⟨1, none, [], last, none, none⟩
  { queries := [some (0, .ok (snapshot none)),
      some (0, .ok (snapshot (some ⟨5, "COMPLETED", none, none⟩)))]
    submission := some (0, .ok ⟨5, [], [], []⟩) }

/-- Settings with a bound of `2 ^ 64 - 1` seconds, twice the range of the clock. -/
def unbounded : Settings := { watch := { timeout := "18446744073709551615" } }

/-- Such settings are accepted, and the run finds out only after the cluster has taken the change. -/
theorem scale_overflows_after_submission :
    let course := accepting.run (Scaling.scale unbounded ⟨some 3, none, none⟩)
    unbounded.validate = .ok () ∧
      course.calls.map Prod.snd = [.query, .pauseReconciliation,
        .submit (ChangeRequest.empty.scaling 3) false, .scaleBrokers 3] ∧
      course.exchanges.filterMap Exchange.response? = [⟨5, [], [], []⟩] ∧
      course.result = .error .clockOverflow := by
  refine ⟨rfl, by decide +kernel, by decide +kernel, ?_⟩
  have hstopped : (match (accepting.run (Scaling.scale unbounded ⟨some 3, none, none⟩)).result with
      | .error .clockOverflow => true
      | _ => false) = true := by decide +kernel
  split at hstopped
  · assumption
  · cases hstopped

end ClusterScaling
