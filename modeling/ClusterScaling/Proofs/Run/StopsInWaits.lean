import ClusterScaling.Failover
import ClusterScaling.Proofs.Run.Parts
import ClusterScaling.Scaling

/-!
# Stops that come from waits

Only a wait looks at the stop signal, and only a wait asks for a time to come. So a scaling run or a
failover that is cancelled, or that overruns the clock, is stopped in one of its waits, and the
bounds of that wait are known (`failsIn_scale`, `failsIn_failover`).
-/

namespace ClusterScaling

variable {σ α : Type}

/-- Only waits can end with it. -/
inductive Stop.IsOfWait : Stop → Prop
  | cancelled : IsOfWait (.error .cancelled)
  | clockOverflow : IsOfWait .clockOverflow

variable {e : Stop}

theorem Stop.IsOfWait.error_ne (h : e.IsOfWait) {e' : ScaleError} (he : e' ≠ .cancelled) :
    .error e' ≠ e := by
  rintro rfl
  cases h
  exact he rfl

theorem Stop.IsOfWait.endless_ne (h : e.IsOfWait) : .endless ≠ e := by
  rintro rfl
  cases h

theorem Stop.IsOfWait.durationOverflow_ne (h : e.IsOfWait) (o : Overflow) :
    .durationOverflow o ≠ e := by
  rintro rfl
  cases h

/-- No answer of the cluster or the platform is an order to stop. -/
theorem Stop.IsOfWait.mapError_ne (h : e.IsOfWait) {ε : Type} {f : ε → ScaleError}
    (hf : ∀ x, f x ≠ .cancelled) {r : Except ε α} {e' : ScaleError}
    (hr : r.mapError f = .error e') : .error e' ≠ e := by
  cases r with
  | ok a => cases hr
  | error x =>
    obtain rfl := Except.error.inj hr
    exact h.error_ne (hf x)

section
variable {env : Environment σ} {Q : ∀ {β : Type}, Program β → Prop} (h : e.IsOfWait)
include h

theorem failsIn_query : env.FailsIn e Q Program.query :=
  Environment.failsIn_call (fun _ _ => h.mapError_ne nofun) h.endless_ne

theorem failsIn_submit (request : ChangeRequest) (force : Bool) :
    env.FailsIn e Q (Program.submit request force) :=
  Environment.failsIn_call (fun _ _ => h.mapError_ne nofun) h.endless_ne

theorem failsIn_pause : env.FailsIn e Q Program.pauseReconciliation :=
  Environment.failsIn_call (fun _ _ => h.mapError_ne nofun) h.endless_ne

theorem failsIn_resume : env.FailsIn e Q Program.resumeReconciliation :=
  Environment.failsIn_call (fun _ _ => h.mapError_ne nofun) h.endless_ne

theorem failsIn_provision (n : UInt32) : env.FailsIn e Q (Scaling.provision n) :=
  (Environment.failsIn_tell _).bind fun _ =>
    Environment.failsIn_call (fun _ _ => h.mapError_ne nofun) h.endless_ne

theorem failsIn_failover {ready change : WaitBounds} {expected : UInt32}
    (hready : Q (Failover.awaitBrokers expected ready)) (hchange : ∀ id, Q (Watch.wait change id))
    (layout : RegionLayout) : env.FailsIn e Q (Failover.run ready change expected layout) := by
  refine (Environment.failsIn_self hready).bind fun t => ?_
  split
  · exact Environment.failsIn_fail (h.error_ne nofun)
  · dsimp only
    split
    · exact (Environment.failsIn_tell _).bind fun _ => Environment.failsIn_pure _
    · refine (Environment.failsIn_tell _).bind fun _ => (failsIn_submit h _ _).bind fun r => ?_
      exact (Environment.failsIn_self (hchange _)).bind fun o => Environment.failsIn_pure _

/-- Bounds that cannot be read stop the run, but not as a wait does. -/
theorem failsIn_waitWithin {read : Except Overflow WaitBounds} {change : Option ChangeId}
    (hread : ∀ bounds, read = .ok bounds → Q (Watch.wait bounds change)) :
    env.FailsIn e Q (Watch.waitWithin read change) := by
  cases read with
  | ok bounds => exact Environment.failsIn_self (hread bounds rfl)
  | error o =>
    exact Environment.failsIn_of_ne fun _ _ he => h.durationOverflow_ne o (Except.error.inj he)

theorem failsIn_follow {settings : Settings}
    (hordinary : ∀ bounds, settings.ordinaryWait = .ok bounds → ∀ id, Q (Watch.wait bounds id))
    (hscaleDown : ∀ bounds, settings.scaleDownWait = .ok bounds → ∀ id, Q (Watch.wait bounds id))
    (plan : Plan) (change : ChangeId) : env.FailsIn e Q (Scaling.follow settings plan change) := by
  have hwatch : env.FailsIn e Q (Watch.waitWithin settings.ordinaryWait (some change)) :=
    failsIn_waitWithin h fun bounds hread => hordinary bounds hread _
  cases plan with
  | scaleUp current wanted => exact (failsIn_provision h wanted).bind fun _ => hwatch
  | scaleDown current wanted =>
    refine (failsIn_waitWithin h fun bounds hread => hscaleDown bounds hread _).bind fun o => ?_
    exact (failsIn_provision h wanted).bind fun _ => Environment.failsIn_pure o
  | changePartitions partitions factor => exact hwatch
  | noChange reason => exact hwatch

omit h in
theorem choose_eq_error {t : Topology} {target : Target} {e' : ScaleError}
    (hchoose : Plan.choose t target = .error e') : ∃ change, e' = .alreadyScaling change := by
  cases hp : t.pendingChange with
  | some p =>
    obtain rfl : ScaleError.alreadyScaling p.id = e' := by simpa [Plan.choose, hp] using hchoose
    exact ⟨p.id, rfl⟩
  | none =>
    simp only [Plan.choose, hp] at hchoose
    split at hchoose
    · split at hchoose
      · cases hchoose
      · split at hchoose <;> cases hchoose
    · cases hchoose

theorem failsIn_scale {settings : Settings}
    (hordinary : ∀ bounds, settings.ordinaryWait = .ok bounds → ∀ id, Q (Watch.wait bounds id))
    (hscaleDown : ∀ bounds, settings.scaleDownWait = .ok bounds → ∀ id, Q (Watch.wait bounds id))
    (target : Target) : env.FailsIn e Q (Scaling.scale settings target) := by
  refine (failsIn_query h).bind fun t => ?_
  have hchoose : env.FailsIn e Q (Program.ofExcept (Plan.choose t target)) :=
    Environment.failsIn_ofExcept fun e' he => h.error_ne (by
      obtain ⟨change, rfl⟩ := choose_eq_error he
      nofun)
  refine hchoose.bind fun plan => ?_
  split
  · exact (Environment.failsIn_tell _).bind fun _ => Environment.failsIn_pure _
  · refine (Environment.failsIn_tell _).bind fun _ => (failsIn_pause h).bind fun _ =>
      (failsIn_submit h _ _).bind fun r =>
        (failsIn_follow h hordinary hscaleDown _ _).bind fun o => ?_
    split
    · exact (failsIn_resume h).bind fun _ => Environment.failsIn_pure _
    · exact Environment.failsIn_pure _

end

end ClusterScaling
