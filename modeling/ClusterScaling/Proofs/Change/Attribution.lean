import ClusterScaling.Failover
import ClusterScaling.Proofs.Change.Verdict
import ClusterScaling.Proofs.Run.Yields
import ClusterScaling.Proofs.Scaling.CallOrder

/-!
# Whose outcome is reported

A run that submits a change reports its outcome. `Watch.Attributed` says which change an outcome
is about: the submitted one if its id is positive, as all ids that name a change are. Any other id
leaves the choice to the first snapshot. `submission_attributed` shows it for scaling and for
forced failovers, and that capacity is not released on account of another change.
-/

namespace ClusterScaling

open Exchange

variable {σ : Type}

namespace Watch

/-- The outcome of a watch for `change` that got the replies is about that change; or about the
newest one of the first snapshot, if the id is not positive. -/
def Attributed (change : ChangeId) (replies : List QueryReply) (o : Outcome) : Prop :=
  if 0 < change then o = .completed change ∨ ∃ latest, o = .outdated change latest
  else ∃ t, firstSnapshot replies = some t ∧ o.change? = newest t

/-- The snapshot shows that the change is over: it is complete, or a newer one has ended. -/
def ShowsEnd (change : ChangeId) (t : Topology) : Prop :=
  ∃ last, t.lastChange = some last ∧
    (last.id = change ∧ last.status = "COMPLETED" ∨ change < last.id)

/-- The replies to the queries among some exchanges. -/
def replies (x : List (Exchange σ)) : List QueryReply := (heard x).map Prod.snd

/-- After its submission a change came to an outcome by the exchanges `x`. -/
structure Concluded (change : ChangeId) (o : Outcome) (x : List (Exchange σ)) : Prop where
  submitsNothing : ∀ e ∈ x, e.call.isSubmission = false
  attributed : Attributed change (replies x) o

/-- A run with the exchanges `x` reports the submitted change and its outcome. -/
def Reported (x : List (Exchange σ)) (change : Option ChangeId) (outcome : Option Outcome) :
    Prop :=
  ∀ before u after r, x = before ++ u :: after → u.response? = some r →
    change = some r.changeId ∧
      ∃ o, outcome = some o ∧ Attributed r.changeId (replies after) o

/-- Capacity is released only after a snapshot, asked for after the submission, that shows the end
of the submitted change. -/
def ReleasedAtEnd (x : List (Exchange σ)) : Prop :=
  ∀ before u between b after r n, x = before ++ u :: (between ++ b :: after) →
    u.response? = some r → b.call = .scaleBrokers n → 0 < r.changeId →
      ∃ t, .ok t ∈ replies between ∧ ShowsEnd r.changeId t

variable {change : ChangeId} {o : Outcome} {bound : Duration} {deadline time : Nat}
  {timed : List (Nat × QueryReply)} {x y : List (Exchange σ)}

/-! ## Outcomes of watches -/

theorem requested_of_pos (h : 0 < change) : requested (some change) = some change := by
  simp [requested, Option.filter, h]

theorem requested_of_not_pos (h : ¬ 0 < change) : requested (some change) = none := by
  simp [requested, Option.filter, h]

theorem followed_of_pos (h : 0 < change) (replies : List QueryReply) :
    followed (some change) replies = some change := by
  simp [followed, requested_of_pos h]

theorem Decides.outcome_of_some {d : ChangeId} {reply : QueryReply}
    (h : Decides (some d) reply (.ok o)) : (o = .completed d ∨ ∃ latest, o = .outdated d latest) ∧
      ∃ t, reply = .ok t ∧ ShowsEnd d t := by
  cases h with
  | completed hl hid hs => exact ⟨.inl rfl, _, rfl, _, hl, .inl ⟨hid, hs⟩⟩
  | outdated hl hlt => exact ⟨.inr ⟨_, rfl⟩, _, rfl, _, hl, .inr hlt⟩

theorem Decides.change? {d : Option ChangeId} {reply : QueryReply} (h : Decides d reply (.ok o)) :
    o.change? = d ∧ ∃ t, reply = .ok t := by
  cases h with
  | nothing | completed | outdated => exact ⟨rfl, _, rfl⟩

theorem Ends.attributed (h : Ends (some change) bound deadline timed time (.ok o)) :
    Attributed change (timed.map Prod.snd) o := by
  cases h with
  | @decided before _ reply after _ hx hu hd =>
    unfold Attributed
    split
    · rename_i hpos
      rw [followed_of_pos hpos] at hd
      exact hd.outcome_of_some.1
    · rename_i hpos
      obtain ⟨ho, t, rfl⟩ := hd.change?
      cases hs : firstSnapshot (before.map Prod.snd ++ [.ok t]) with
      | none => simp [firstSnapshot_append, firstSnapshot] at hs
      | some t' =>
        refine ⟨t', ?_, ?_⟩
        · have hmap : timed.map Prod.snd =
              (before.map Prod.snd ++ [.ok t]) ++ after.map Prod.snd := by simp [hx]
          rw [hmap, firstSnapshot_append, hs]
          rfl
        · simpa [followed, requested_of_not_pos hpos, hs] using ho

theorem Ends.showsEnd (h : Ends (some change) bound deadline timed time (.ok o))
    (hpos : 0 < change) : ∃ t, .ok t ∈ timed.map Prod.snd ∧ ShowsEnd change t := by
  cases h with
  | decided hx hu hd =>
    rw [followed_of_pos hpos] at hd
    obtain ⟨-, t, rfl, ht⟩ := hd.outcome_of_some
    exact ⟨t, by simp [hx], ht⟩

/-- The replies that a watch for `change` got led it to its outcome. -/
theorem yields_ends (env : Environment σ) (read : Except Overflow WaitBounds) (change : ChangeId) :
    env.Yields (waitWithin read (some change)) fun o x => (∀ e ∈ x, e.call = .query) ∧
      ∃ bound deadline t, Ends (some change) bound deadline (heard x) t (.ok o) := by
  cases read with
  | ok bounds =>
    refine (Environment.yields_wait (polling bounds) _).mono fun o x ⟨hq, deadline, t, hx⟩ => ?_
    refine ⟨hq, bounds.timeout, deadline, t, ?_⟩
    have hends := ends_settle (some change) bounds deadline (heard x)
    rwa [hx] at hends
  | error o => nofun

/-! ## Exchanges after a submission -/

theorem replies_append (x y : List (Exchange σ)) : replies (x ++ y) = replies x ++ replies y := by
  simp [replies]

theorem replies_eq_nil (h : ∀ e ∈ x, e.call ≠ .query) : replies x = [] := by
  simp [replies, heard_eq_nil h]

theorem Concluded.around (before after : List (Exchange σ)) (h : Concluded change o x)
    (hbefore : ∀ e ∈ before, e.call ≠ .query ∧ e.call.isSubmission = false)
    (hafter : ∀ e ∈ after, e.call ≠ .query ∧ e.call.isSubmission = false) :
    Concluded change o (before ++ x ++ after) where
  submitsNothing e he := by
    simp only [List.mem_append] at he
    rcases he with (he | he) | he
    · exact (hbefore e he).2
    · exact h.submitsNothing e he
    · exact (hafter e he).2
  attributed := by
    simpa [replies_append, replies_eq_nil fun e he => (hbefore e he).1,
      replies_eq_nil fun e he => (hafter e he).1] using h.attributed

theorem yields_concluded (env : Environment σ) (read : Except Overflow WaitBounds)
    (change : ChangeId) :
    env.Yields (waitWithin read (some change)) fun o x => Concluded change o x :=
  (yields_ends env read change).mono fun o x ⟨hq, _, _, _, hends⟩ =>
    ⟨fun e he => by rw [hq e he]; rfl, hends.attributed⟩

theorem reported_of_forall (h : ∀ e ∈ x, e.call.isSubmission = false)
    (change : Option ChangeId) (outcome : Option Outcome) : Reported x change outcome :=
  fun before u after r hx hr => by
    have := isSubmission_of_response? hr
    rw [h u (by simp [hx])] at this
    cases this

theorem Reported.cons {e : Exchange σ} {change : Option ChangeId} {outcome : Option Outcome}
    (h : Reported x change outcome) (he : e.call.isSubmission = false) :
    Reported (e :: x) change outcome := by
  intro before u after r hx hr
  cases before with
  | nil =>
    obtain ⟨rfl, -⟩ := List.cons.inj hx
    have := isSubmission_of_response? hr
    rw [he] at this
    cases this
  | cons d before =>
    obtain ⟨rfl, hrest⟩ := List.cons.inj hx
    exact h before u after r hrest hr

/-- A run that submits once reports what came of it. -/
theorem Concluded.reported {before : List (Exchange σ)} {u : Exchange σ} {r : ChangeResponse}
    (hbefore : ∀ e ∈ before, e.call.isSubmission = false) (hr : u.response? = some r)
    (h : Concluded r.changeId o x) :
    Reported (before ++ u :: x) (some r.changeId) (some o) := by
  intro before' u' after r' hx hr'
  obtain ⟨rfl, rfl, rfl⟩ := split_unique (P := fun e : Exchange σ => e.call.isSubmission) hx
    (fun e he => by simp [hbefore e he]) (fun e he => by simp [h.submitsNothing e he])
    (isSubmission_of_response? hr')
  obtain rfl : r = r' := Option.some.inj (hr.symm.trans hr')
  exact ⟨rfl, o, rfl, h.attributed⟩

end Watch

open Watch Environment

variable (env : Environment σ)

/-! ## Scaling -/

namespace Scaling

theorem yields_provision (n : UInt32) :
    env.Yields (provision n) fun _ x => ∀ e ∈ x, e.call ≠ .query ∧ e.call.isSubmission = false := by
  refine yields_tell_bind ((yields_asked (env.asked_scaleBrokers n)).mono ?_)
  rintro - _ ⟨b, rfl, hb, -⟩ e he
  obtain rfl := List.mem_singleton.1 he
  simp [hb, Call.isSubmission]

theorem yields_follow (settings : Settings) (plan : Plan) (change : ChangeId) :
    env.Yields (follow settings plan change) fun o x => Concluded change o x := by
  cases plan with
  | scaleUp current wanted =>
    refine (yields_provision env wanted).bind fun _ x hx => ?_
    refine (yields_concluded env settings.ordinaryWait change).mono fun o y hy => ?_
    simpa using hy.around x [] hx (by simp)
  | scaleDown current wanted =>
    refine (yields_concluded env settings.scaleDownWait change).bind fun o x hx => ?_
    refine (yields_provision env wanted).bind fun _ y hy => yields_pure ?_
    simpa using hx.around [] y (by simp) hy
  | changePartitions partitions factor => exact yields_concluded env _ change
  | noChange reason => exact yields_concluded env _ change

theorem yields_carryOut (settings : Settings) (plan : Plan) (request : ChangeRequest) :
    env.Yields (carryOut settings plan request) fun report x =>
      Reported x report.change report.outcome := by
  refine yields_tell_bind ((yields_asked env.asked_pause).bind ?_)
  rintro - _ ⟨p, rfl, hp, -⟩
  refine (yields_asked (env.asked_submit request false)).bind ?_
  rintro r _ ⟨u, rfl, -, hr⟩
  refine (yields_follow env settings plan r.changeId).bind fun o x hx => ?_
  have hpause : ∀ e ∈ [p], e.call.isSubmission = false := by simp [hp, Call.isSubmission]
  split
  · refine (yields_asked env.asked_resume).bind ?_
    rintro - _ ⟨e, rfl, he, -⟩
    have hy : Concluded r.changeId o ([] ++ x ++ [e]) :=
      hx.around [] [e] (by simp) (by simp [he, Call.isSubmission])
    exact yields_pure (by simpa using hy.reported hpause hr)
  · exact yields_pure (by simpa using hx.reported hpause hr)

theorem yields_scale (settings : Settings) (target : Target) :
    env.Yields (scale settings target) fun report x =>
      Reported x report.change report.outcome := by
  refine (yields_asked env.asked_query).bind ?_
  rintro t _ ⟨q, rfl, hq, -⟩
  have hq : q.call.isSubmission = false := by rw [hq]; rfl
  refine (yields_ofExcept (Q := fun plan x => x = []) fun _ _ => rfl).bind ?_
  rintro plan _ rfl
  split
  · exact yields_tell_bind (yields_pure (reported_of_forall (by simpa using hq) _ _))
  · exact (yields_carryOut env settings plan _).mono fun report x hx => hx.cons hq

/-- When brokers leave, the capacity is released after the watch has seen the end of the change. -/
theorem CarriedOut.releasedAtEnd {settings : Settings} {current wanted : UInt32}
    {request : ChangeRequest} {x : List (Exchange σ)}
    (h : CarriedOut env settings (.scaleDown current wanted) request x) : ReleasedAtEnd x := by
  intro before u between b after r n hx hr hb hpos
  obtain ⟨hqueries, rest, hsplit, -, hend⟩ := h.follows hx hr
  -- the watch only asks for snapshots, so its queries are over when the capacity is released
  obtain ⟨m, hbetween, hrest⟩ := split_of_forall_not (P := fun e => e.call ≠ .query)
    hsplit.symm (fun e he => by simp [hqueries e he]) (by simp [hb])
  by_cases hok : ∃ o, (env.run (waitWithin settings.scaleDownWait (some r.changeId)) u.state
      u.finish).result = .ok o
  · obtain ⟨o, ho⟩ := hok
    obtain ⟨-, bound, deadline, t, hends⟩ := yields_ends env _ _ _ _ o ho
    obtain ⟨snapshot, hmem, hshows⟩ := hends.showsEnd hpos
    refine ⟨snapshot, ?_, hshows⟩
    rw [hbetween, replies_append]
    exact List.mem_append_left _ hmem
  · simp [hend hok] at hrest

end Scaling

/-! ## Forced failovers -/

namespace Failover

theorem yields_removeBrokers (layout : RegionLayout) (bounds : WaitBounds)
    (brokers : List BrokerId) {before : List (Exchange σ)}
    (hbefore : ∀ e ∈ before, e.call.isSubmission = false) :
    env.Yields (removeBrokers layout bounds brokers) fun report x =>
      Reported (before ++ x) report.change report.outcome := by
  refine yields_tell_bind ((yields_asked (env.asked_submit _ true)).bind ?_)
  rintro r _ ⟨u, rfl, -, hr⟩
  refine (yields_concluded env (.ok bounds) r.changeId).bind fun o x hx => yields_pure ?_
  simpa using hx.reported hbefore hr

theorem yields_run (ready change : WaitBounds) (expected : UInt32) (layout : RegionLayout) :
    env.Yields (run ready change expected layout) fun report x =>
      Reported x report.change report.outcome := by
  refine (yields_wait (polling expected ready) none).bind fun t x ⟨hq, _⟩ => ?_
  have hx : ∀ e ∈ x, e.call.isSubmission = false := fun e he => by rw [hq e he]; rfl
  dsimp only
  split
  · exact yields_fail _
  · split
    · exact yields_tell_bind (yields_pure (reported_of_forall (by simpa using hx) _ _))
    · exact yields_removeBrokers env layout change _ hx

end Failover

/-- **The reported outcome is that of the submitted change**, in scaling runs and in forced
failovers, if its id is positive; and if brokers leave, their capacity is released only when that
change is over. -/
theorem submission_attributed (s : σ) (time : Nat) :
    (∀ settings target report,
      (env.run (Scaling.scale settings target) s time).result = .ok report →
        Reported (env.run (Scaling.scale settings target) s time).exchanges report.change
          report.outcome) ∧
    (∀ ready change expected layout report,
      (env.run (Failover.run ready change expected layout) s time).result = .ok report →
        Reported (env.run (Failover.run ready change expected layout) s time).exchanges
          report.change report.outcome) ∧
    ∀ settings target first rest current wanted request,
      (env.run (Scaling.scale settings target) s time).exchanges = first :: rest →
        Scaling.Due target first (.scaleDown current wanted) request → ReleasedAtEnd rest := by
  refine ⟨fun settings target report => Scaling.yields_scale env settings target s time report,
    fun ready change expected layout report =>
      Failover.yields_run env ready change expected layout s time report,
    fun settings target first rest current wanted request hx hdue => ?_⟩
  obtain ⟨first', rest', hx', -, -, hgo⟩ := Scaling.scale_protocol env settings target s time
  obtain ⟨rfl, rfl⟩ := List.cons.inj (hx.symm.trans hx')
  exact (hgo _ _ hdue).releasedAtEnd

/-- A cluster of the brokers `0` and `1` that gives a change request the id `change`, and then shows
the last change `9`. -/
def departing (change : ChangeId) : Script :=
  let brokers : List Broker := [⟨0, "ACTIVE", 1, []⟩, ⟨1, "ACTIVE", 1, []⟩]
  let snapshot last : Topology := ⟨1, none, brokers, last, none, none⟩
  { queries := [some (0, .ok (snapshot none)),
      some (0, .ok (snapshot (some ⟨9, "COMPLETED", none, none⟩)))]
    submission := some (0, .ok ⟨change, [], [], []⟩) }

theorem submission_attributed_departing :
    let scaled := (departing 9).run (Scaling.scale {} ⟨some 1, none, none⟩)
    let failover := (departing 9).run
      (Failover.run ⟨⟨10⟩, ⟨100⟩⟩ ⟨⟨10⟩, ⟨100⟩⟩ 2 ⟨2, 0, by decide⟩)
    scaled.result = .ok ⟨.scaleDown 2 1, some 9, some (.completed 9)⟩ ∧
      Reported scaled.exchanges (some 9) (some (.completed 9)) ∧
      failover.result = .ok ⟨[1], some 9, some (.completed 9)⟩ ∧
      Reported failover.exchanges (some 9) (some (.completed 9)) ∧
      ∃ first rest request, scaled.exchanges = first :: rest ∧
        Scaling.Due ⟨some 1, none, none⟩ first (.scaleDown 2 1) request ∧ ReleasedAtEnd rest := by
  intro scaled failover
  obtain ⟨hscale, hfailover, hrelease⟩ :=
    submission_attributed (departing 9).environment (departing 9).queries 0
  have hscaled : scaled.result = .ok ⟨.scaleDown 2 1, some 9, some (.completed 9)⟩ := rfl
  have hfailed : failover.result = .ok ⟨[1], some 9, some (.completed 9)⟩ := rfl
  have hdue : ∃ first rest request, scaled.exchanges = first :: rest ∧
      Scaling.Due ⟨some 1, none, none⟩ first (.scaleDown 2 1) request :=
    ⟨_, _, _, rfl, _, rfl, rfl, rfl⟩
  obtain ⟨first, rest, request, hx, hdue⟩ := hdue
  exact ⟨hscaled, hscale _ _ _ hscaled, hfailed, hfailover _ _ _ _ _ hfailed, first, rest, request,
    hx, hdue, hrelease _ _ _ _ _ _ _ hx hdue⟩

/-- An id that is not positive names no change: capacity is released for the change `9` here. -/
theorem scale_reports_other_change :
    let course := (departing 0).run (Scaling.scale {} ⟨some 1, none, none⟩)
    course.calls.map Prod.snd = [.query, .pauseReconciliation,
      .submit (ChangeRequest.empty.scaling 1) false, .query, .scaleBrokers 1] ∧
    course.exchanges.filterMap response? = [⟨0, [], [], []⟩] ∧
    ∃ report, course.result = .ok report ∧ report.outcome = some (.completed 9) ∧
      ¬ (report.outcome = some (.completed 0) ∨
        ∃ latest, report.outcome = some (.outdated 0 latest)) := by
  refine ⟨rfl, rfl, ⟨.scaleDown 2 1, some 0, some (.completed 9)⟩, rfl, rfl, ?_⟩
  rintro (h | ⟨latest, h⟩)
  · cases h
  · cases h

end ClusterScaling
