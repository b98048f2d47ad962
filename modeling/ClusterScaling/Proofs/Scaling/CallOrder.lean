import ClusterScaling.Proofs.Run.Exchanges
import ClusterScaling.Proofs.Run.Waits
import ClusterScaling.Scaling

/-!
# The order of calls when scaling

What a scaling run asks of the cluster and of the platform, and in which order, whatever they
answer and whenever the stop signal comes. `Scaling.scale_protocol` lists the exchanges of all runs.
From it `Scaling.scale_callOrder` reads off the order that matters: nothing is submitted before the
platform is paused, new brokers get their capacity before the change is watched, and capacity is
released only after a watch that ended well (`Scaling.CallOrder`).
-/

namespace ClusterScaling

open Exchange

variable {σ : Type}

namespace Scaling

/-! ## The exchanges of a run -/

section
variable (env : Environment σ) (settings : Settings)

/-- `x` holds the queries of the watch for `change` that starts after the exchange `e`. It ends with
them unless the watch ends well, in which case it goes on as `next` says. -/
def Watched (bounds : Except Overflow WaitBounds) (change : ChangeId)
    (next : List (Exchange σ) → Prop) (e : Exchange σ) (x : List (Exchange σ)) : Prop :=
  let watch := env.run (Watch.waitWithin bounds (some change)) e.state e.finish
  (∀ d ∈ watch.exchanges, d.call = .query) ∧
    ∃ rest, x = watch.exchanges ++ rest ∧ ((∃ o, watch.result = .ok o) → next rest) ∧
      ((¬ ∃ o, watch.result = .ok o) → rest = [])

/-- `x` resumes the platform if the settings say so. -/
def Resumed (x : List (Exchange σ)) : Prop :=
  if settings.scale.resumeReconciliation then ∃ e, x = [e] ∧ e.call = .resumeReconciliation
  else x = []

/-- `x` follows a change that was submitted for a plan by the exchange `e`. -/
def Followed (plan : Plan) (change : ChangeId) (e : Exchange σ) (x : List (Exchange σ)) : Prop :=
  match plan with
  | .scaleUp _ wanted =>
    Begins (.scaleBrokers wanted) granted?
      (fun b _ => Watched env settings.ordinaryWait change (Resumed settings) b) x
  | .scaleDown _ wanted =>
    Watched env settings.scaleDownWait change
      (Begins (.scaleBrokers wanted) granted? fun _ _ => Resumed settings) e x
  | _ => Watched env settings.ordinaryWait change (Resumed settings) e x

/-- `x` carries out a plan. -/
def CarriedOut (plan : Plan) (request : ChangeRequest) : List (Exchange σ) → Prop :=
  Begins .pauseReconciliation granted? fun _ _ =>
    Begins (.submit request false) response? fun e r =>
      Followed env settings plan r.changeId e

/-- The exchange `e` shows a cluster for which the target asks for a plan that makes a request. -/
def Due (target : Target) (e : Exchange σ) (plan : Plan) (request : ChangeRequest) : Prop :=
  ∃ t, e.snapshot? = some t ∧ Plan.choose t target = .ok plan ∧ plan.request = some request

/-- A watch within bounds that cannot be read makes no call at all. -/
theorem waitWithin_call_eq_query (bounds : Except Overflow WaitBounds) (change : Option ChangeId)
    (s : σ) (time : Nat) :
    ∀ e ∈ (env.run (Watch.waitWithin bounds change) s time).exchanges, e.call = .query := by
  cases bounds with
  | ok bounds =>
    rw [Watch.waitWithin_ok]
    exact (Watch.polling bounds).wait_call_eq_query env _ s time
  | error o => exact fun e he => absurd he List.not_mem_nil

theorem watched_bind {β : Type} {bounds : Except Overflow WaitBounds} {change : ChangeId}
    {next : List (Exchange σ) → Prop} {e : Exchange σ} {f : Outcome → Program β}
    (h : ∀ o s time, next (env.run (f o) s time).exchanges) :
    Watched env bounds change next e
      (env.run (Watch.waitWithin bounds (some change) >>= f) e.state e.finish).exchanges := by
  refine ⟨waitWithin_call_eq_query env bounds _ _ _, ?_⟩
  rcases env.run_bind_cases (Watch.waitWithin bounds (some change)) f e.state e.finish with
    ⟨o, ho, hrun⟩ | ⟨stop, hstop, hrun⟩
  · refine ⟨_, by rw [hrun, Course.exchanges_after]; rfl, fun _ => h o _ _, fun hn => ?_⟩
    exact absurd ⟨o, ho⟩ hn
  · refine ⟨[], by rw [hrun]; simp, fun ⟨o, ho⟩ => ?_, fun _ => rfl⟩
    rw [ho] at hstop
    cases hstop

/-- The end of a run that was successful so far. -/
theorem resumed_run (report : Report) (s : σ) (time : Nat) :
    Resumed settings (env.run (if settings.scale.resumeReconciliation then
        Program.resumeReconciliation >>= fun _ => pure report
      else pure report) s time).exchanges := by
  unfold Resumed
  split
  · have h : Begins .resumeReconciliation granted? (fun _ _ x => x = [])
        (env.run (Program.resumeReconciliation >>= fun _ => pure report) s time).exchanges :=
      env.begins_bind (env.asked_resume s time) fun _ _ _ => rfl
    obtain ⟨e, rest, hx, hcall, ⟨-, rfl⟩ | ⟨a, -, rfl⟩⟩ := h.cases
    · exact ⟨e, hx, hcall⟩
    · exact ⟨e, hx, hcall⟩
  · rfl

theorem carryOut_carriedOut (plan : Plan) (request : ChangeRequest) (s : σ) (time : Nat) :
    CarriedOut env settings plan request
      (env.run (carryOut settings plan request) s time).exchanges := by
  rw [carryOut, env.run_tell_bind, Course.exchanges_after, Course.exchangesOf_told,
    List.nil_append]
  refine env.begins_bind (env.asked_pause s time) fun p _ _ => ?_
  refine env.begins_bind (env.asked_submit request false _ _) fun u response _ => ?_
  have resumed := fun o => resumed_run env settings ⟨plan, some response.changeId, some o⟩
  cases plan with
  | scaleUp current wanted =>
    simp only [follow, provision, Program.bind_assoc, env.run_tell_bind, Course.exchanges_after,
      Course.exchangesOf_told, List.nil_append]
    exact env.begins_bind (env.asked_scaleBrokers wanted _ _) fun b _ _ =>
      watched_bind env resumed
  | scaleDown current wanted =>
    simp only [follow, provision, Program.bind_assoc]
    refine watched_bind env fun o s time => ?_
    simp only [env.run_tell_bind, Course.exchanges_after, Course.exchangesOf_told,
      List.nil_append]
    exact env.begins_bind (env.asked_scaleBrokers wanted _ _) fun b _ _ => resumed o _ _
  | changePartitions partitions factor => exact watched_bind env resumed
  | noChange reason => exact watched_bind env resumed

/-- **The exchanges of a scaling run**: one query, and all that carrying out the plan takes if the
answer leads to one. -/
theorem scale_protocol (target : Target) (s : σ) (time : Nat) :
    ∃ first rest, (env.run (scale settings target) s time).exchanges = first :: rest ∧
      first.call = .query ∧
      ((¬ ∃ plan request, Due target first plan request) → rest = []) ∧
      ∀ plan request, Due target first plan request →
        CarriedOut env settings plan request rest := by
  have h : Begins .query snapshot? (fun _ t rest =>
      ((¬ ∃ plan request, Plan.choose t target = .ok plan ∧ plan.request = some request) →
        rest = []) ∧
      ∀ plan request, Plan.choose t target = .ok plan → plan.request = some request →
        CarriedOut env settings plan request rest)
      (env.run (scale settings target) s time).exchanges := by
    rw [scale]
    refine env.begins_bind (env.asked_query s time) fun _ t _ => ?_
    cases hp : Plan.choose t target with
    | error e =>
      rw [env.run_ofExcept_bind_error rfl]
      exact ⟨fun _ => rfl, by simp⟩
    | ok plan =>
      rw [env.run_ofExcept_bind_ok rfl]
      cases hr : plan.request with
      | none =>
        refine ⟨fun _ => rfl, ?_⟩
        rintro _ request ⟨⟩ h
        rw [hr] at h
        cases h
      | some request =>
        refine ⟨fun hn => absurd ⟨plan, request, rfl, hr⟩ hn, ?_⟩
        rintro _ request' ⟨⟩ h
        rw [hr] at h
        cases h
        exact carryOut_carriedOut env settings plan request _ _
  obtain ⟨first, rest, hx, hcall, hend, hgo⟩ := h
  refine ⟨first, rest, hx, hcall, fun hn => ?_, fun plan request hdue => ?_⟩
  · cases hv : first.snapshot? with
    | none => exact hend hv
    | some t =>
      refine (hgo t hv).1 fun ⟨plan, request, hp, hr⟩ => hn ⟨plan, request, t, hv, hp, hr⟩
  · obtain ⟨t, hv, hp, hr⟩ := hdue
    exact (hgo t hv).2 plan request hp hr

/-! ## The order of the calls -/

/-- The platform is paused once and before all else, and the request is submitted at most once,
without force and only after that succeeded. -/
structure OpensInOrder (request : ChangeRequest) (x : List (Exchange σ)) : Prop where
  pausesFirst : (calls x).head? = some .pauseReconciliation
  pausesOnce : (calls x).count .pauseReconciliation = 1
  submitsOnce : (calls x).countP Call.isSubmission ≤ 1
  submits : ∀ r force, .submit r force ∈ calls x → r = request ∧ force = false
  submitsPaused : Preceded x (fun e => e.call = .pauseReconciliation ∧ e.granted? = some ())
    (fun e => e.call.isSubmission)

/-- New capacity is provisioned once after the submission and before the first query of the
watch. -/
structure GrowsInOrder (wanted : UInt32) (x : List (Exchange σ)) : Prop where
  scales : ∀ n, .scaleBrokers n ∈ calls x → n = wanted
  scalesOnce : (∃ e ∈ x, ∃ r, e.response? = some r) → (calls x).countP Call.isScaling = 1
  scalesSubmitted : Preceded x (fun e => ∃ r, e.response? = some r) (fun e => e.call.isScaling)
  watchesScaled : Preceded x (fun e => e.call = .scaleBrokers wanted ∧ e.granted? = some ())
    (fun e => e.call = .query)

/-- Capacity is released at most once, after the queries of a watch with the bounds for brokers
that leave, and only if that ended well. -/
structure ShrinksInOrder (wanted : UInt32) (x : List (Exchange σ)) : Prop where
  scales : ∀ n, .scaleBrokers n ∈ calls x → n = wanted
  scalesOnce : (calls x).countP Call.isScaling ≤ 1
  scalesSubmitted : Preceded x (fun e => ∃ r, e.response? = some r) (fun e => e.call.isScaling)
  scalesWatched : ∀ before u after r, x = before ++ u :: after → u.response? = some r →
    Watched env settings.scaleDownWait r.changeId
      (fun rest => (calls rest).head? = some (.scaleBrokers wanted) ∧ .query ∉ calls rest) u after

/-- The platform is resumed only if the settings say so, and at the very end. -/
def ResumesLast (x : List (Exchange σ)) : Prop :=
  .resumeReconciliation ∈ calls x → settings.scale.resumeReconciliation = true ∧
    ∃ y e, x = y ++ [e] ∧ .resumeReconciliation ∉ calls y

/-- The order of the calls `x` that carry out a plan. -/
structure CallOrder (plan : Plan) (request : ChangeRequest) (x : List (Exchange σ)) : Prop where
  opens : OpensInOrder request x
  /-- All that comes after a successful submission. -/
  follows : ∀ before u after r, x = before ++ u :: after → u.response? = some r →
    Followed env settings plan r.changeId u after
  grows : ∀ current wanted, plan = .scaleUp current wanted → GrowsInOrder wanted x
  shrinks : ∀ current wanted, plan = .scaleDown current wanted →
    ShrinksInOrder env settings wanted x
  /-- A change of the partitions leaves the capacity as it is. -/
  keeps : ∀ partitions factor, plan = .changePartitions partitions factor →
    ∀ n, .scaleBrokers n ∉ calls x
  resumes : ResumesLast settings x

end

/-! ## From the exchanges to their order -/

section
variable {env : Environment σ} {settings : Settings} {plan : Plan} {request : ChangeRequest}
  {x y : List (Exchange σ)} {e : Exchange σ} {change : ChangeId}

theorem Resumed.call_eq (h : Resumed settings x) : ∀ d ∈ x, d.call = .resumeReconciliation := by
  unfold Resumed at h
  split at h
  · obtain ⟨e, rfl, he⟩ := h
    simpa using he
  · simp [h]

/-- A watch is the last that is done, or `x` goes on after its queries. -/
theorem Watched.cases {bounds : Except Overflow WaitBounds} {next : List (Exchange σ) → Prop}
    (h : Watched env bounds change next e x) :
    ∃ queries rest, x = queries ++ rest ∧ (∀ d ∈ queries, d.call = .query) ∧
      (rest = [] ∨ next rest) := by
  obtain ⟨hqueries, rest, hx, hgo, hend⟩ := h
  refine ⟨_, rest, hx, hqueries, ?_⟩
  by_cases hok :
      ∃ o, (env.run (Watch.waitWithin bounds (some change)) e.state e.finish).result = .ok o
  · exact .inr (hgo hok)
  · exact .inl (hend hok)

/-- What a watch is followed by, together with its queries. -/
theorem Watched.forall_call {bounds : Except Overflow WaitBounds} {next : List (Exchange σ) → Prop}
    (h : Watched env bounds change next e x) {P : Call → Prop} (hq : P .query)
    (hnext : ∀ y, next y → ∀ d ∈ y, P d.call) : ∀ d ∈ x, P d.call := by
  obtain ⟨queries, rest, rfl, hqueries, hrest⟩ := h.cases
  intro d hd
  rcases List.mem_append.1 hd with hd | hd
  · rw [hqueries d hd]
    exact hq
  · rcases hrest with rfl | hn
    · cases hd
    · exact hnext rest hn d hd

theorem Followed.forall_call (h : Followed env settings plan change e x) {P : Call → Prop}
    (hq : P .query) (hr : P .resumeReconciliation)
    (hs : ∀ current wanted, plan = .scaleUp current wanted ∨ plan = .scaleDown current wanted →
      P (.scaleBrokers wanted)) : ∀ d ∈ x, P d.call := by
  have resumed : ∀ y : List (Exchange σ), Resumed settings y → ∀ d ∈ y, P d.call := by
    intro y hy d hd
    rw [hy.call_eq d hd]
    exact hr
  cases plan with
  | scaleUp current wanted =>
    exact Begins.forall_call h (hs current wanted (.inl rfl)) fun b _ y hy =>
      Watched.forall_call hy hq resumed
  | scaleDown current wanted =>
    exact Watched.forall_call h hq fun y hy =>
      Begins.forall_call hy (hs current wanted (.inr rfl)) fun _ _ => resumed
  | changePartitions partitions factor => exact Watched.forall_call h hq resumed
  | noChange reason => exact Watched.forall_call h hq resumed

/-- Nothing is submitted after a submission, and the platform is not paused again. -/
theorem Followed.not_opening (h : Followed env settings plan change e x) :
    ∀ d ∈ x, d.call ≠ .pauseReconciliation ∧ d.call.isSubmission = false :=
  h.forall_call (P := fun c => c ≠ .pauseReconciliation ∧ c.isSubmission = false)
    ⟨nofun, rfl⟩ ⟨nofun, rfl⟩ fun _ _ _ => ⟨nofun, rfl⟩

/-- A plan is carried out up to a failure before anything is accepted, or on to what follows an
accepted change. -/
theorem CarriedOut.cases (h : CarriedOut env settings plan request x) :
    ∃ p more, x = p :: more ∧ p.call = .pauseReconciliation ∧ (more = [] ∨
      p.granted? = some () ∧ ∃ u y, more = u :: y ∧ u.call = .submit request false ∧
        (u.response? = none ∧ y = [] ∨
          ∃ r, u.response? = some r ∧ Followed env settings plan r.changeId u y)) := by
  obtain ⟨p, more, rfl, hp, ⟨-, rfl⟩ | ⟨a, hg, hmore⟩⟩ := Begins.cases h
  · exact ⟨p, [], rfl, hp, .inl rfl⟩
  · obtain ⟨u, y, rfl, hu, hy⟩ := hmore.cases
    exact ⟨p, u :: y, rfl, hp, .inr ⟨hg, u, y, rfl, hu, hy⟩⟩

theorem CarriedOut.opensInOrder (h : CarriedOut env settings plan request x) :
    OpensInOrder request x := by
  obtain ⟨p, more, rfl, hp, rfl | ⟨hg, u, y, rfl, hu, hy⟩⟩ := h.cases
  · exact ⟨by simp [hp], by simp [hp], by simp [hp, Call.isSubmission], by simp [hp],
      by simp [preceded_cons_iff, hp, Call.isSubmission]⟩
  · have hy : ∀ d ∈ y, d.call ≠ .pauseReconciliation ∧ d.call.isSubmission = false := by
      rcases hy with ⟨-, rfl⟩ | ⟨r, -, hy⟩
      · simp
      · exact hy.not_opening
    have hpauses := List.count_eq_zero.2 (not_mem_calls fun d hd => (hy d hd).1)
    have hsubs := countP_calls_eq_zero fun d hd => (hy d hd).2
    refine ⟨by simp [hp], ?_, ?_, fun r force hm => ?_, ?_⟩
    · simp [hp, hu, hpauses]
    · simp [hp, hu, List.countP_cons, hsubs, Call.isSubmission]
    · simp only [calls_cons, hp, hu, List.mem_cons, reduceCtorEq, false_or] at hm
      rcases hm with hm | hm
      · cases hm
        exact ⟨rfl, rfl⟩
      · obtain ⟨d, hd, hdc⟩ := List.mem_map.1 hm
        have := (hy d hd).2
        rw [hdc] at this
        cases this
    · exact preceded_cons_iff.2 ⟨by simp [hp, Call.isSubmission], .inl ⟨hp, hg⟩⟩

/-- What comes after an accepted change follows it. -/
theorem CarriedOut.follows {before after : List (Exchange σ)} {u : Exchange σ}
    {r : ChangeResponse} (h : CarriedOut env settings plan request x)
    (hx : x = before ++ u :: after) (hr : u.response? = some r) :
    Followed env settings plan r.changeId u after := by
  have hu := isSubmission_of_response? hr
  obtain ⟨p, more, rfl, hp, hmore⟩ := h.cases
  have hpause : ∀ e ∈ [p], ¬ e.call.isSubmission := by simp [hp, Call.isSubmission]
  rcases hmore with rfl | ⟨-, u', y, rfl, -, hy⟩
  · exact absurd hu (hpause u (by simp [hx]))
  · have hnot : ∀ e ∈ y, ¬ e.call.isSubmission := by
      rcases hy with ⟨-, rfl⟩ | ⟨r', -, hy⟩
      · simp
      · exact fun e he => by simp [(hy.not_opening e he).2]
    obtain ⟨-, rfl, rfl⟩ :=
      split_unique (P := fun e : Exchange σ => e.call.isSubmission) hx hpause hnot hu
    rcases hy with ⟨hnone, -⟩ | ⟨r', hr', hy⟩
    · rw [hnone] at hr
      cases hr
    · obtain rfl : r' = r := Option.some.inj (hr'.symm.trans hr)
      exact hy

/-- A plan of which nothing is accepted is neither watched nor provided with capacity. -/
theorem CarriedOut.accepted (h : CarriedOut env settings plan request x) :
    (∀ d ∈ x, d.response? = none ∧ d.call.isScaling = false ∧ d.call ≠ .query ∧
      d.call ≠ .resumeReconciliation) ∨
    ∃ p u r y, x = p :: u :: y ∧ p.call = .pauseReconciliation ∧
      u.call = .submit request false ∧ u.response? = some r ∧
      Followed env settings plan r.changeId u y := by
  obtain ⟨p, more, rfl, hp, hmore⟩ := h.cases
  have hnone : p.response? = none := by
    cases hr : p.response? with
    | none => rfl
    | some r =>
      have := isSubmission_of_response? hr
      rw [hp] at this
      cases this
  rcases hmore with rfl | ⟨-, u, y, rfl, hu, ⟨hr, rfl⟩ | ⟨r, hr, hy⟩⟩
  · exact .inl (by simp [hnone, hp, Call.isScaling])
  · exact .inl (by simp [hnone, hp, hr, hu, Call.isScaling])
  · exact .inr ⟨p, u, r, y, rfl, hp, hu, hr, hy⟩

theorem CarriedOut.growsInOrder {current wanted : UInt32}
    (h : CarriedOut env settings (.scaleUp current wanted) request x) :
    GrowsInOrder wanted x := by
  rcases h.accepted with hx | ⟨p, u, r, y, rfl, hp, hu, hr, hy⟩
  · refine ⟨fun n hm => ?_, fun ⟨d, hd, r, hr⟩ => ?_, ?_, ?_⟩
    · exact absurd hm (scaleBrokers_not_mem_calls (fun d hd => (hx d hd).2.1) n)
    · rw [(hx d hd).1] at hr
      cases hr
    · exact .of_forall_not fun d hd => by simp [(hx d hd).2.1]
    · exact .of_forall_not fun d hd => (hx d hd).2.2.1
  · obtain ⟨b, z, rfl, hb, hz⟩ := Begins.cases hy
    have hcalls : ∀ d ∈ z, d.call.isScaling = false := by
      rcases hz with ⟨-, rfl⟩ | ⟨a, -, hz⟩
      · simp
      · refine hz.forall_call (P := fun c => c.isScaling = false) rfl fun y hy d hd => ?_
        rw [hy.call_eq d hd]
        rfl
    refine ⟨fun n hm => ?_, fun _ => ?_, ?_, ?_⟩
    · simpa [hp, hu, hb, scaleBrokers_not_mem_calls hcalls] using hm
    · simp [hp, hu, hb, List.countP_cons, countP_calls_eq_zero hcalls, Call.isScaling]
    · simp [preceded_cons_iff, hp, hu, hr, Call.isScaling]
    · refine preceded_cons_iff.2 ⟨by simp [hp], .inr (preceded_cons_iff.2 ⟨by simp [hu], .inr ?_⟩)⟩
      refine preceded_cons_iff.2 ⟨by simp [hb], ?_⟩
      rcases hz with ⟨-, rfl⟩ | ⟨a, hg, -⟩
      · exact .inr preceded_nil
      · exact .inl ⟨hb, hg⟩

/-- After a watch that ended well the capacity is released, and the platform may be resumed. -/
theorem released_cases {wanted : UInt32}
    (h : Begins (.scaleBrokers wanted) granted? (fun _ _ => Resumed settings) x) :
    ∃ b z, x = b :: z ∧ b.call = .scaleBrokers wanted ∧
      ∀ d ∈ z, d.call = .resumeReconciliation := by
  obtain ⟨b, z, hx, hb, ⟨-, rfl⟩ | ⟨a, -, hz⟩⟩ := h.cases
  · exact ⟨b, [], hx, hb, by simp⟩
  · exact ⟨b, z, hx, hb, hz.call_eq⟩

theorem Watched.mono {bounds : Except Overflow WaitBounds} {next next' : List (Exchange σ) → Prop}
    (h : Watched env bounds change next e x) (hn : ∀ y, next y → next' y) :
    Watched env bounds change next' e x := by
  obtain ⟨hq, rest, hx, hgo, hend⟩ := h
  exact ⟨hq, rest, hx, fun hok => hn rest (hgo hok), hend⟩

theorem CarriedOut.watched {current wanted : UInt32}
    (h : CarriedOut env settings (.scaleDown current wanted) request x)
    {before after : List (Exchange σ)} {u : Exchange σ} {r : ChangeResponse}
    (hx : x = before ++ u :: after) (hr : u.response? = some r) :
    Watched env settings.scaleDownWait r.changeId
      (fun rest => (calls rest).head? = some (.scaleBrokers wanted) ∧ .query ∉ calls rest)
      u after := by
  refine Watched.mono (h.follows hx hr) fun y hy => ?_
  obtain ⟨b, z, rfl, hb, hz⟩ := released_cases hy
  refine ⟨by simp [hb], not_mem_calls fun d hd => ?_⟩
  rcases List.mem_cons.1 hd with rfl | hd
  · simp [hb]
  · simp [hz d hd]

/-- Brokers that leave make for one change of the capacity at most. -/
theorem Followed.countP_isScaling_le {current wanted : UInt32}
    (h : Followed env settings (.scaleDown current wanted) change e x) :
    (calls x).countP Call.isScaling ≤ 1 := by
  obtain ⟨queries, rest, rfl, hq, hrest⟩ := Watched.cases h
  have hqueries : (calls queries).countP Call.isScaling = 0 :=
    countP_calls_eq_zero fun d hd => by rw [hq d hd]; rfl
  rcases hrest with rfl | hrest
  · simp [hqueries]
  · obtain ⟨b, z, rfl, hb, hz⟩ := released_cases hrest
    have hresumes : (calls z).countP Call.isScaling = 0 :=
      countP_calls_eq_zero fun d hd => by rw [hz d hd]; rfl
    simp [List.countP_cons, hqueries, hresumes, hb, Call.isScaling]

theorem CarriedOut.shrinksInOrder {current wanted : UInt32}
    (h : CarriedOut env settings (.scaleDown current wanted) request x) :
    ShrinksInOrder env settings wanted x := by
  rcases h.accepted with hx | ⟨p, u, r, y, rfl, hp, hu, hr, hy⟩
  · have hscales : ∀ d ∈ x, d.call.isScaling = false := fun d hd => (hx d hd).2.1
    refine ⟨fun n hm => ?_, ?_, ?_, fun _ _ _ _ => h.watched⟩
    · exact absurd hm (scaleBrokers_not_mem_calls hscales n)
    · simp [countP_calls_eq_zero hscales]
    · exact .of_forall_not fun d hd => by simp [hscales d hd]
  · refine ⟨fun n hm => ?_, ?_, ?_, fun _ _ _ _ => h.watched⟩
    · have hn := hy.forall_call (P := fun c => ∀ n, c = .scaleBrokers n → n = wanted)
        nofun nofun (by rintro _ _ (⟨⟨⟩⟩ | ⟨⟨⟩⟩) n ⟨⟩; rfl)
      simp only [calls_cons, hp, hu, List.mem_cons, reduceCtorEq, false_or] at hm
      obtain ⟨d, hd, hdc⟩ := List.mem_map.1 hm
      exact hn d hd n hdc
    · simpa [hp, hu, List.countP_cons, Call.isScaling] using hy.countP_isScaling_le
    · simp [preceded_cons_iff, hp, hu, hr, Call.isScaling]

theorem CarriedOut.not_scaleBrokers {partitions factor : Option UInt32}
    (h : CarriedOut env settings (.changePartitions partitions factor) request x) (n : UInt32) :
    .scaleBrokers n ∉ calls x := by
  refine scaleBrokers_not_mem_calls ?_ n
  rcases h.accepted with hx | ⟨p, u, r, y, rfl, hp, hu, -, hy⟩
  · exact fun d hd => (hx d hd).2.1
  · have hy := hy.forall_call (P := fun c => c.isScaling = false) rfl rfl
      (by rintro _ _ (⟨⟨⟩⟩ | ⟨⟨⟩⟩))
    simpa [hp, hu, Call.isScaling] using hy

theorem ResumesLast.nil : ResumesLast settings ([] : List (Exchange σ)) := nofun

theorem ResumesLast.append {y z : List (Exchange σ)}
    (hy : ∀ d ∈ y, d.call ≠ .resumeReconciliation) (hz : ResumesLast settings z) :
    ResumesLast settings (y ++ z) := by
  have hny : .resumeReconciliation ∉ calls y := not_mem_calls hy
  intro hm
  simp only [calls_append, List.mem_append, hny, false_or] at hm
  obtain ⟨hset, v, e, rfl, hv⟩ := hz hm
  exact ⟨hset, y ++ v, e, by simp, by simp [hny, hv]⟩

theorem ResumesLast.cons {z : List (Exchange σ)} (he : e.call ≠ .resumeReconciliation)
    (hz : ResumesLast settings z) : ResumesLast settings (e :: z) :=
  .append (y := [e]) (by simpa using he) hz

theorem Resumed.resumesLast (h : Resumed settings x) : ResumesLast settings x := by
  unfold Resumed at h
  split at h
  · rename_i hset
    obtain ⟨e, rfl, -⟩ := h
    exact fun _ => ⟨hset, [], e, rfl, by simp⟩
  · rw [h]
    exact .nil

theorem Watched.resumesLast {bounds : Except Overflow WaitBounds} {next : List (Exchange σ) → Prop}
    (h : Watched env bounds change next e x) (hn : ∀ y, next y → ResumesLast settings y) :
    ResumesLast settings x := by
  obtain ⟨queries, rest, rfl, hq, hrest⟩ := h.cases
  refine .append (fun d hd => by simp [hq d hd]) ?_
  rcases hrest with rfl | hrest
  · exact .nil
  · exact hn rest hrest

theorem resumesLast_of_scaled {n : UInt32} {next : Exchange σ → Unit → List (Exchange σ) → Prop}
    (h : Begins (.scaleBrokers n) granted? next x)
    (hn : ∀ e a y, next e a y → ResumesLast settings y) : ResumesLast settings x := by
  obtain ⟨b, rest, rfl, hb, ⟨-, rfl⟩ | ⟨a, -, hrest⟩⟩ := h.cases
  · exact .cons (by simp [hb]) .nil
  · exact .cons (by simp [hb]) (hn b a rest hrest)

theorem Followed.resumesLast (h : Followed env settings plan change e x) :
    ResumesLast settings x := by
  cases plan with
  | scaleUp current wanted =>
    exact resumesLast_of_scaled h fun _ _ _ hy =>
      Watched.resumesLast hy fun _ => Resumed.resumesLast
  | scaleDown current wanted =>
    exact Watched.resumesLast h fun _ hy =>
      resumesLast_of_scaled hy fun _ _ _ => Resumed.resumesLast
  | changePartitions partitions factor => exact Watched.resumesLast h fun _ => Resumed.resumesLast
  | noChange reason => exact Watched.resumesLast h fun _ => Resumed.resumesLast

theorem CarriedOut.resumesLast (h : CarriedOut env settings plan request x) :
    ResumesLast settings x := by
  rcases h.accepted with hx | ⟨p, u, r, y, rfl, hp, hu, -, hy⟩
  · exact fun hm => absurd hm (not_mem_calls fun d hd => (hx d hd).2.2.2)
  · exact .cons (by simp [hp]) (.cons (by simp [hu]) hy.resumesLast)

theorem CarriedOut.callOrder (h : CarriedOut env settings plan request x) :
    CallOrder env settings plan request x where
  opens := h.opensInOrder
  follows _ _ _ _ hx hr := h.follows hx hr
  grows _ _ hp := by
    subst hp
    exact h.growsInOrder
  shrinks _ _ hp := by
    subst hp
    exact h.shrinksInOrder
  keeps _ _ hp := by
    subst hp
    exact h.not_scaleBrokers
  resumes := h.resumesLast

end

/-- **The order of the calls of a scaling run**, for all answers of the cluster and the platform and
all stop signals: one query, and nothing else unless its answer leads to a request; then the calls
that carry out the plan in their order. -/
theorem scale_callOrder (env : Environment σ) (settings : Settings) (target : Target) (s : σ)
    (time : Nat) :
    ∃ first rest, (env.run (scale settings target) s time).exchanges = first :: rest ∧
      first.call = .query ∧
      ((¬ ∃ plan request, Due target first plan request) → rest = []) ∧
      ∀ plan request, Due target first plan request → CallOrder env settings plan request rest := by
  obtain ⟨first, rest, hx, hcall, hend, hgo⟩ := scale_protocol env settings target s time
  exact ⟨first, rest, hx, hcall, hend, fun plan request hdue => (hgo plan request hdue).callOrder⟩

end Scaling

end ClusterScaling
