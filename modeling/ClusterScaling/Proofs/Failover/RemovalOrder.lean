import ClusterScaling.Failover
import ClusterScaling.Proofs.Run.Endings
import ClusterScaling.Proofs.Run.Exchanges
import ClusterScaling.Run.Script

/-!
# What a failover removes

A failover removes brokers by force, so it must do that once, on the strength of a fresh snapshot,
and for the right brokers. `Failover.run_cases` lists the exchanges of all runs: the queries of the
wait for the brokers, and what is done about the snapshot that ends it (`Failover.Decision`).
`Failover.run_removalOrder` reads off it what matters (`Failover.RemovalOrder`), whatever the
cluster answers and whenever the stop signal comes.
-/

namespace ClusterScaling

open Exchange

variable {σ : Type}

namespace RegionLayout

/-- The broker lives in the region that is to survive. -/
def Survives (l : RegionLayout) (id : BrokerId) : Prop :=
  id.toInt % l.regions.toNat = l.target.toNat

theorem regionOf_eq_target_iff {l : RegionLayout} {id : BrokerId} :
    l.regionOf id = l.target ↔ l.Survives id := by
  rw [Survives, ← toNat_regionOf, ← UInt32.toNat_inj]
  omega

/-- `ids` are the brokers of a snapshot outside the surviving region, each as often and in the order
in which the snapshot lists them. -/
structure Outside (l : RegionLayout) (t : Topology) (ids : List BrokerId) : Prop where
  inOrder : ids.Sublist t.brokerIds
  spares : ∀ id ∈ ids, ¬ l.Survives id
  count_eq : ∀ id, ¬ l.Survives id → ids.count id = t.brokerIds.count id

theorem outside_brokersOutside (l : RegionLayout) (t : Topology) :
    l.Outside t (t.brokersOutside l) where
  inOrder := List.filter_sublist
  spares id hid := by
    have hne := (List.mem_filter.1 hid).2
    rw [← regionOf_eq_target_iff]
    simpa using hne
  count_eq id hid := by
    rw [← regionOf_eq_target_iff] at hid
    exact List.count_filter (by simpa using hid)

theorem brokersOutside_eq_nil_iff {l : RegionLayout} {t : Topology} :
    t.brokersOutside l = [] ↔ ∀ id ∈ t.brokerIds, l.Survives id := by
  simp [Topology.brokersOutside, List.filter_eq_nil_iff, regionOf_eq_target_iff]

end RegionLayout

namespace Failover

/-! ## The wait for the brokers -/

/-- The reply decides the wait for `expected` brokers with a result. -/
inductive Decides (expected : UInt32) : QueryReply → Except ScaleError Topology → Prop
  | ready {t} : t.brokerCount = expected.toNat → Decides expected (.ok t) (.ok t)
  | rejected {e} : e.isTransient = false → Decides expected (.error e) (.error (.client e))

/-- The exchange shows a cluster of the expected number of brokers. -/
def Shows (expected : UInt32) (e : Exchange σ) (t : Topology) : Prop :=
  e.snapshot? = some t ∧ t.brokerCount = expected.toNat

/-- After `asked`, the exchange `q` is the first to show the expected number of brokers. -/
structure FirstShown (expected : UInt32) (asked : List (Exchange σ)) (q : Exchange σ)
    (t : Topology) : Prop where
  shows : Shows expected q t
  first : ∀ e ∈ asked, ∀ t, ¬ Shows expected e t

/-- The verdict on a reply says whether it decides the wait. -/
def Fits (expected : UInt32) (reply : QueryReply) : Verdict (Option Nat) Topology → Prop
  | .decided r => Decides expected reply r
  | .undecided _ => ∀ r, ¬ Decides expected reply r

variable {expected : UInt32} {reply : QueryReply} {observed : Option Nat} {t : Topology}

theorem judge_fits (expected : UInt32) (observed : Option Nat) (reply : QueryReply) :
    Fits expected reply (judge expected observed reply).2 := by
  cases reply with
  | error e =>
    cases he : e.isTransient with
    | true =>
      simp only [judge, he, if_true]
      rintro r ⟨⟩
      simp_all
    | false =>
      simp only [judge, he, Bool.false_eq_true, if_false]
      exact .rejected he
  | ok t =>
    by_cases h : t.brokerCount = expected.toNat
    · simp only [judge, h, if_true]
      exact .ready h
    · simp only [judge, h, if_false]
      rintro r ⟨⟩
      exact h ‹_›

section
variable {bounds : WaitBounds}

theorem decides_of_judge {v : Except ScaleError Topology}
    (h : ((polling expected bounds).judge observed reply).2 = .decided v) :
    Decides expected reply v := by
  have hfits := judge_fits expected observed reply
  rwa [show (judge expected observed reply).2 = .decided v from h] at hfits

theorem not_decides_of_judge {observed' : Option Nat}
    (h : ((polling expected bounds).judge observed reply).2 = .undecided observed') :
    ∀ v, ¬ Decides expected reply v := by
  have hfits := judge_fits expected observed reply
  rwa [show (judge expected observed reply).2 = .undecided observed' from h] at hfits

end

theorem shows_iff_decides {e : Exchange σ} {f : Nat} (he : heard [e] = [(f, reply)]) :
    Shows expected e t ↔ Decides expected reply (.ok t) := by
  obtain ⟨start, s, rfl⟩ := heard_eq_singleton_iff.1 he
  cases reply with
  | error e =>
    constructor
    · rintro ⟨h, -⟩
      simp [snapshot?] at h
    · rintro ⟨⟩
  | ok t' =>
    constructor
    · rintro ⟨h, hcount⟩
      obtain rfl : t' = t := by simpa [snapshot?] using h
      exact .ready hcount
    · rintro ⟨hcount⟩
      exact ⟨rfl, hcount⟩

theorem heard_of_shows {e : Exchange σ} (h : Shows expected e t) :
    heard [e] = [(e.finish, .ok t)] := by
  obtain ⟨h, -⟩ := h
  unfold snapshot? at h
  split at h
  · obtain rfl := Option.some.inj h
    rfl
  · cases h

theorem not_shows_of_learn {bounds : WaitBounds} {x : List (Exchange σ)} {b : Option Nat}
    (h : (polling expected bounds).learn observed (heard x) = some b) :
    ∀ e ∈ x, ∀ t, ¬ Shows expected e t := by
  intro e he t hshows
  have hheard := heard_of_shows hshows
  obtain ⟨c, c', hc⟩ := Polling.undecided_of_learn h _ (mem_heard_iff.2 ⟨e, he, hheard⟩)
  exact not_decides_of_judge hc _ ((shows_iff_decides hheard).1 hshows)

variable (env : Environment σ) (s : σ) (time : Nat)

/-- The wait ends with the first snapshot of the expected number of brokers, or without one. -/
theorem awaitBrokers_shows (expected : UInt32) (bounds : WaitBounds) :
    let wait := env.run (awaitBrokers expected bounds) s time
    (∀ t, wait.result = .ok t → ∃ asked q, wait.exchanges = asked ++ [q] ∧
      FirstShown expected asked q t) ∧
    ∀ e, wait.result = .error e → ∀ d ∈ wait.exchanges, ∀ t, ¬ Shows expected d t := by
  intro wait
  have hcloses :
      (polling expected bounds).Closes env (time + bounds.timeout.millis) none wait ∨
      wait = ⟨[], time, s, .error .clockOverflow⟩ := by
    by_cases fits : time + bounds.timeout.millis < Program.clockEnd
    · exact .inl ((polling expected bounds).waits_wait env fits).closes
    · exact .inr ((polling expected bounds).run_wait_of_overflow env none s (Nat.le_of_not_lt fits))
  rcases hcloses with hcloses | hoverflow
  · cases hcloses with
    | @decided before q reply b r hx hq hstate hlearn hd hr =>
      have hdecides := decides_of_judge hd
      have hbefore := not_shows_of_learn hlearn
      refine ⟨fun t ht => ⟨before, q, hx, ?_, hbefore⟩, fun e he d hd' t => ?_⟩
      · cases hdecides with
        | ready hcount =>
          obtain rfl : _ = t := by simpa [hr] using ht
          exact (shows_iff_decides hq).2 (.ready hcount)
        | rejected => simp [hr] at ht
      · rw [hx, List.mem_append, List.mem_singleton] at hd'
        rcases hd' with hd' | rfl
        · exact hbefore d hd' t
        · cases hdecides with
          | ready => simp [hr] at he
          | rejected =>
            rw [shows_iff_decides hq]
            rintro ⟨⟩
    | undecided hlearn hr =>
      exact ⟨fun t ht => by simp [hr] at ht, fun _ _ => not_shows_of_learn hlearn⟩
  · rw [hoverflow]
    exact ⟨nofun, by simp [Course.exchanges_eq]⟩

/-! ## What is done about the brokers -/

/-- The request that removes brokers. -/
def removal (ids : List BrokerId) : ChangeRequest := ⟨some (.remove ids), none⟩

variable (change : WaitBounds) (layout : RegionLayout)

/-- What a failover does and comes to once it has seen the snapshot `t`. -/
inductive Decision (t : Topology) : List (Exchange σ) → Except Stop Report → Prop
  | refused {p} : t.pendingChange = some p →
      Decision t [] (.error (.error (.alreadyScaling p.id)))
  | spared : t.pendingChange = none → t.brokersOutside layout = [] →
      Decision t [] (.ok ⟨[], none, none⟩)
  | rejected {u stop} : t.pendingChange = none → t.brokersOutside layout ≠ [] →
      u.call = .submit (removal (t.brokersOutside layout)) true → u.response? = none →
      Decision t [u] (.error stop)
  | watched {u r} : t.pendingChange = none → t.brokersOutside layout ≠ [] →
      u.call = .submit (removal (t.brokersOutside layout)) true → u.response? = some r →
      Decision t
        (u :: (env.run (Watch.wait change (some r.changeId)) u.state u.finish).exchanges)
        ((env.run (Watch.wait change (some r.changeId)) u.state u.finish).result.map fun o =>
          ⟨t.brokersOutside layout, some r.changeId, some o⟩)

theorem removing_empty {ids : List BrokerId} (h : ids ≠ []) :
    ChangeRequest.empty.removing ids = removal ids := by
  cases ids with
  | nil => exact absurd rfl h
  | cons id ids => rfl

theorem removeBrokers_decision (hp : t.pendingChange = none)
    (hout : t.brokersOutside layout ≠ []) :
    Decision env change layout t
      (env.run (removeBrokers layout change (t.brokersOutside layout)) s time).exchanges
      (env.run (removeBrokers layout change (t.brokersOutside layout)) s time).result := by
  rw [removeBrokers, env.run_tell_bind, Course.exchanges_after, Course.exchangesOf_told,
    List.nil_append, Course.after_result, removing_empty hout]
  obtain ⟨u, hu⟩ := env.asked_submit (removal (t.brokersOutside layout)) true s time
  have hx : (env.run (Program.submit (removal (t.brokersOutside layout)) true) s time).exchanges =
      [u] := by
    rw [Course.exchanges_eq, hu.events]
    rfl
  rcases env.run_bind_cases (Program.submit (removal (t.brokersOutside layout)) true) _ s time with
    ⟨r, hr, hrun⟩ | ⟨stop, hstop, hrun⟩
  · rw [hrun, env.run_bind_pure, hu.events, hu.state, hu.time]
    exact .watched hp hout hu.call ((hu.result r).1 hr)
  · rw [hrun, Course.exchanges_stopped, hx]
    refine .rejected hp hout hu.call ?_
    cases hresponse : u.response? with
    | none => rfl
    | some r => rw [(hu.result r).2 hresponse] at hstop; cases hstop

/-- What `run` does with the snapshot that ends the wait. -/
def act (t : Topology) : Program Report :=
  match t.pendingChange with
  | some pending => .fail (.alreadyScaling pending.id)
  | none =>
    if (t.brokersOutside layout).isEmpty then
      Program.tell [.allInRegion layout] >>= fun _ => pure ⟨t.brokersOutside layout, none, none⟩
    else removeBrokers layout change (t.brokersOutside layout)

theorem act_decision (t : Topology) :
    Decision env change layout t (env.run (act change layout t) s time).exchanges
      (env.run (act change layout t) s time).result := by
  unfold act
  split
  · exact .refused ‹_›
  · rename_i hp
    by_cases hout : t.brokersOutside layout = []
    · rw [hout]
      exact .spared hp hout
    · rw [if_neg (by simpa using hout)]
      exact removeBrokers_decision env _ _ change layout hp hout

/-- **The exchanges of a failover**: the queries of the wait for the brokers, and what is done about
the snapshot that ends it. -/
theorem run_cases (ready : WaitBounds) (expected : UInt32) :
    let wait := env.run (awaitBrokers expected ready) s time
    let course := env.run (run ready change expected layout) s time
    (∀ e ∈ wait.exchanges, e.call = .query) ∧
    ((∃ stop, wait.result = .error stop ∧ course.result = .error stop ∧
      course.exchanges = wait.exchanges ∧ ∀ e ∈ wait.exchanges, ∀ t, ¬ Shows expected e t) ∨
    ∃ asked q t after, wait.result = .ok t ∧ wait.exchanges = asked ++ [q] ∧
      FirstShown expected asked q t ∧ course.exchanges = asked ++ q :: after ∧
      Decision env change layout t after course.result) := by
  intro wait course
  refine ⟨Polling.wait_call_eq_query _ env none s time, ?_⟩
  obtain ⟨hok, herror⟩ := awaitBrokers_shows env s time expected ready
  rcases env.run_bind_cases (awaitBrokers expected ready) (act change layout) s time with
    ⟨t, ht, hrun⟩ | ⟨stop, hstop, hrun⟩
  · obtain ⟨asked, q, hwait, hfirst⟩ := hok t ht
    have hx : course.exchanges =
        asked ++ q :: (env.run (act change layout t) wait.state wait.time).exchanges := by
      rw [show course = _ from hrun, Course.exchanges_after, ← Course.exchanges_eq, hwait,
        List.append_assoc]
      rfl
    have hr : course.result = (env.run (act change layout t) wait.state wait.time).result := by
      rw [show course = _ from hrun, Course.after_result]
    refine .inr ⟨asked, q, t, _, ht, hwait, hfirst, hx, ?_⟩
    rw [hr]
    exact act_decision ..
  · refine .inl ⟨stop, hstop, ?_, ?_, herror stop hstop⟩
    · rw [show course = _ from hrun]
      rfl
    · rw [show course = _ from hrun, Course.exchanges_stopped]

/-! ## The order that matters -/

/-- What matters about a run with the course `c`, where `wait` is that of its wait for the
brokers. -/
structure RemovalOrder (expected : UInt32) (wait : Course σ Topology) (c : Course σ Report) :
    Prop where
  /-- A failed wait is all that happens. -/
  fails : ∀ stop, wait.result = .error stop →
    c.result = .error stop ∧ ∀ e ∈ c.exchanges, e.call = .query
  /-- The wait succeeds with the first snapshot of the expected number of brokers, if any. -/
  awaits : ∀ t, wait.result = .ok t ↔
    ∃ asked q after, c.exchanges = asked ++ q :: after ∧ FirstShown expected asked q t
  /-- A pending change is left alone. -/
  refuses : ∀ asked q after t p, c.exchanges = asked ++ q :: after →
    FirstShown expected asked q t → t.pendingChange = some p →
    after = [] ∧ c.result = .error (.error (.alreadyScaling p.id))
  /-- Without a broker to remove there is nothing to do. -/
  spares : ∀ asked q after t, c.exchanges = asked ++ q :: after →
    FirstShown expected asked q t → t.pendingChange = none →
    (∀ id ∈ t.brokerIds, layout.Survives id) → after = [] ∧ c.result = .ok ⟨[], none, none⟩
  /-- Otherwise the next call submits the removal. -/
  removes : ∀ asked q after t, c.exchanges = asked ++ q :: after →
    FirstShown expected asked q t → t.pendingChange = none →
    (∃ id ∈ t.brokerIds, ¬ layout.Survives id) →
    ∃ u rest ids, after = u :: rest ∧ u.call = .submit (removal ids) true
  submitsOnce : (calls c.exchanges).countP Call.isSubmission ≤ 1
  /-- What is submitted, after what, and before what. -/
  submits : ∀ before u after request force, c.exchanges = before ++ u :: after →
    u.call = .submit request force →
    force = true ∧ (∀ e ∈ before, e.call = .query) ∧ (∀ e ∈ after, e.call = .query) ∧
      ∃ asked q t ids, before = asked ++ [q] ∧ FirstShown expected asked q t ∧
        t.pendingChange = none ∧ ids ≠ [] ∧ layout.Outside t ids ∧ request = removal ids
  /-- The report tells what was submitted and accepted, and how the watch of that change ended. -/
  reports : ∀ report, c.result = .ok report →
    report = ⟨[], none, none⟩ ∧ (∀ e ∈ c.exchanges, e.call = .query) ∨
    ∃ before u after r o, c.exchanges = before ++ u :: after ∧
      u.call = .submit (removal report.removed) true ∧ u.response? = some r ∧
      report = ⟨report.removed, some r.changeId, some o⟩ ∧
      let watch := env.run (Watch.wait change (some r.changeId)) u.state u.finish
      after = watch.exchanges ∧ watch.result = .ok o

section
variable {env change layout} {asked x : List (Exchange σ)} {q : Exchange σ}
  {r : Except Stop Report}

/-- The first snapshot of the expected number of brokers is where it is. -/
theorem FirstShown.unique {x' y y' : List (Exchange σ)} {u u' : Exchange σ} {t' : Topology}
    (h : FirstShown expected x u t) (h' : FirstShown expected x' u' t')
    (heq : x ++ u :: y = x' ++ u' :: y') : x = x' ∧ u = u' ∧ t = t' ∧ y = y' := by
  obtain ⟨rfl, rfl, rfl⟩ := split_first (P := fun e => ∃ t, Shows expected e t) heq
    (fun e he ⟨t, ht⟩ => h.first e he t ht) ⟨t, h.shows⟩
    (fun e he ⟨t, ht⟩ => h'.first e he t ht) ⟨t', h'.shows⟩
  exact ⟨rfl, rfl, Option.some.inj (h.shows.1.symm.trans h'.shows.1), rfl⟩

/-- The only submission is the first call, and queries follow it. -/
theorem Decision.cases (h : Decision env change layout t x r) :
    x = [] ∨ ∃ u rest, x = u :: rest ∧ t.pendingChange = none ∧ t.brokersOutside layout ≠ [] ∧
      u.call = .submit (removal (t.brokersOutside layout)) true ∧
      ∀ e ∈ rest, e.call = .query := by
  cases h with
  | refused | spared => exact .inl rfl
  | rejected hp hout hu => exact .inr ⟨_, [], rfl, hp, hout, hu, by simp⟩
  | watched hp hout hu =>
    exact .inr ⟨_, _, rfl, hp, hout, hu, Polling.wait_call_eq_query _ env _ _ _⟩

theorem Decision.refuses (h : Decision env change layout t x r) {p : PendingChange}
    (hp : t.pendingChange = some p) :
    x = [] ∧ r = .error (.error (.alreadyScaling p.id)) := by
  cases h with
  | refused hp' =>
    obtain rfl := Option.some.inj (hp.symm.trans hp')
    exact ⟨rfl, rfl⟩
  | spared hp' | rejected hp' | watched hp' =>
    rw [hp] at hp'
    cases hp'

theorem Decision.spares (h : Decision env change layout t x r) (hp : t.pendingChange = none)
    (hout : t.brokersOutside layout = []) : x = [] ∧ r = .ok ⟨[], none, none⟩ := by
  cases h with
  | refused hp' =>
    rw [hp] at hp'
    cases hp'
  | spared => exact ⟨rfl, rfl⟩
  | rejected _ hout' | watched _ hout' => exact absurd hout hout'

theorem Decision.removes (h : Decision env change layout t x r) (hp : t.pendingChange = none)
    (hout : t.brokersOutside layout ≠ []) :
    ∃ u rest, x = u :: rest ∧ u.call = .submit (removal (t.brokersOutside layout)) true := by
  cases h with
  | refused hp' =>
    rw [hp] at hp'
    cases hp'
  | spared _ hout' => exact absurd hout' hout
  | rejected _ _ hu | watched _ _ hu => exact ⟨_, _, rfl, hu⟩

theorem countP_submissions_of_queries (h : ∀ e ∈ x, e.call = .query) :
    (calls x).countP Call.isSubmission = 0 :=
  countP_calls_eq_zero fun e he => by
    rw [h e he]
    rfl

theorem Decision.submitsOnce (h : Decision env change layout t x r) :
    (calls x).countP Call.isSubmission ≤ 1 := by
  obtain rfl | ⟨u, rest, rfl, -, -, hu, hrest⟩ := h.cases
  · exact Nat.zero_le 1
  · simp [List.countP_cons, hu, countP_submissions_of_queries hrest, Call.isSubmission]

/-- After some queries, only the removal is submitted. -/
theorem Decision.submits (h : Decision env change layout t x r) {queries before after}
    {u : Exchange σ} {request : ChangeRequest} {force : Bool}
    (hqueries : ∀ e ∈ queries, e.call = .query) (hsplit : queries ++ x = before ++ u :: after)
    (hu : u.call = .submit request force) :
    before = queries ∧ (∀ e ∈ after, e.call = .query) ∧ t.pendingChange = none ∧
      t.brokersOutside layout ≠ [] ∧ request = removal (t.brokersOutside layout) ∧
      force = true := by
  obtain ⟨m, rfl, hm⟩ := split_of_forall_not (P := fun e => e.call = .submit request force)
    hsplit (fun e he => by simp [hqueries e he]) hu
  obtain rfl | ⟨u', rest, rfl, hp, hout, hu', hrest⟩ := h.cases
  · simp at hm
  · cases m with
    | nil =>
      obtain ⟨rfl, rfl⟩ : u' = u ∧ rest = after := by simpa using hm
      obtain ⟨rfl, rfl⟩ : request = removal (t.brokersOutside layout) ∧ force = true := by
        simpa [hu'] using hu.symm
      exact ⟨List.append_nil _, hrest, hp, hout, rfl, rfl⟩
    | cons e m =>
      obtain ⟨-, rfl⟩ := List.cons.inj hm
      rw [hrest u (by simp)] at hu
      cases hu

theorem Decision.reports (h : Decision env change layout t x r) {report : Report}
    (hr : r = .ok report) :
    report = ⟨[], none, none⟩ ∧ x = [] ∨
    ∃ u after response o, x = u :: after ∧ u.call = .submit (removal report.removed) true ∧
      u.response? = some response ∧
      report = ⟨report.removed, some response.changeId, some o⟩ ∧
      let watch := env.run (Watch.wait change (some response.changeId)) u.state u.finish
      after = watch.exchanges ∧ watch.result = .ok o := by
  cases h with
  | refused | rejected => cases hr
  | spared =>
    obtain rfl := Except.ok.inj hr
    exact .inl ⟨rfl, rfl⟩
  | @watched u response hp hout hu hresponse =>
    cases hw : (env.run (Watch.wait change (some response.changeId)) u.state u.finish).result with
    | error stop =>
      rw [hw] at hr
      cases hr
    | ok o =>
      obtain rfl : _ = report := by simpa [hw, Except.map] using hr
      exact .inr ⟨u, _, response, o, rfl, hu, hresponse, rfl, rfl, hw⟩

/-- Where the first snapshot of the expected number of brokers is acted upon, all is in order. -/
theorem Decision.removalOrder {wait : Course σ Topology} {c : Course σ Report}
    (hwait : wait.result = .ok t) (hfirst : FirstShown expected asked q t)
    (hqueries : ∀ e ∈ asked ++ [q], e.call = .query) (hx : c.exchanges = asked ++ q :: x)
    (h : Decision env change layout t x c.result) :
    RemovalOrder env change layout expected wait c := by
  have hx : c.exchanges = asked ++ [q] ++ x := by simpa using hx
  -- whatever split of the exchanges the snapshot is found in, it is this one
  have hshown : ∀ {asked' q' after t'}, c.exchanges = asked' ++ q' :: after →
      FirstShown expected asked' q' t' → after = x ∧ t' = t := fun hx' hfirst' => by
    obtain ⟨-, -, ht, hafter⟩ :=
      hfirst'.unique hfirst (hx'.symm.trans (by rw [hx, List.append_assoc]; rfl))
    exact ⟨hafter, ht⟩
  refine ⟨fun stop hstop => ?_, fun t' => ⟨fun ht' => ?_, ?_⟩, ?_, ?_, ?_, ?_, ?_,
    fun report hr => ?_⟩
  · rw [hwait] at hstop
    cases hstop
  · obtain rfl : t = t' := Except.ok.inj (hwait.symm.trans ht')
    exact ⟨asked, q, x, by simpa using hx, hfirst⟩
  · rintro ⟨asked', q', after, hx', hfirst'⟩
    obtain ⟨-, rfl⟩ := hshown hx' hfirst'
    exact hwait
  · intro asked' q' after t' p hx' hfirst' hp
    obtain ⟨rfl, rfl⟩ := hshown hx' hfirst'
    exact h.refuses hp
  · intro asked' q' after t' hx' hfirst' hp hsurvive
    obtain ⟨rfl, rfl⟩ := hshown hx' hfirst'
    exact h.spares hp (RegionLayout.brokersOutside_eq_nil_iff.2 hsurvive)
  · intro asked' q' after t' hx' hfirst' hp hout
    obtain ⟨rfl, rfl⟩ := hshown hx' hfirst'
    have hne : t'.brokersOutside layout ≠ [] := fun hnil => by
      obtain ⟨id, hid, hn⟩ := hout
      exact hn (RegionLayout.brokersOutside_eq_nil_iff.1 hnil id hid)
    obtain ⟨u, rest, hafter, hu⟩ := h.removes hp hne
    exact ⟨u, rest, _, hafter, hu⟩
  · rw [hx, calls_append, List.countP_append, countP_submissions_of_queries hqueries, Nat.zero_add]
    exact h.submitsOnce
  · intro before u after request force hsplit hu
    obtain ⟨rfl, hafter, hp, hout, rfl, rfl⟩ := h.submits hqueries (hx.symm.trans hsplit) hu
    exact ⟨rfl, hqueries, hafter, asked, q, t, _, rfl, hfirst, hp, hout,
      layout.outside_brokersOutside t, rfl⟩
  · rcases h.reports hr with ⟨hreport, rfl⟩ | ⟨u, after, response, o, rfl, hu⟩
    · rw [hx, List.append_nil]
      exact .inl ⟨hreport, hqueries⟩
    · exact .inr ⟨asked ++ [q], u, after, response, o, hx, hu⟩

/-- Nothing but queries happens where the wait for the brokers fails. -/
theorem removalOrder_of_error {wait : Course σ Topology} {c : Course σ Report} {stop : Stop}
    (hwait : wait.result = .error stop) (hr : c.result = .error stop)
    (hqueries : ∀ e ∈ c.exchanges, e.call = .query)
    (hunseen : ∀ e ∈ c.exchanges, ∀ t, ¬ Shows expected e t) :
    RemovalOrder env change layout expected wait c := by
  have hnot : ∀ {P : Prop} {asked q after t}, c.exchanges = asked ++ q :: after →
      FirstShown expected asked q t → P := fun hx hfirst =>
    absurd hfirst.shows (hunseen _ (by rw [hx]; simp) _)
  have hcalls := countP_submissions_of_queries hqueries
  refine ⟨fun stop' hstop => ?_, fun t => ⟨fun ht => ?_, ?_⟩, ?_, ?_, ?_,
    hcalls ▸ Nat.zero_le 1, ?_, fun report hok => ?_⟩
  · obtain rfl : stop = stop' := Except.error.inj (hwait.symm.trans hstop)
    exact ⟨hr, hqueries⟩
  · rw [hwait] at ht
    cases ht
  · rintro ⟨asked, q, after, hx, hfirst⟩
    exact hnot hx hfirst
  · exact fun _ _ _ _ _ hx hfirst => hnot hx hfirst
  · exact fun _ _ _ _ hx hfirst => hnot hx hfirst
  · exact fun _ _ _ _ hx hfirst => hnot hx hfirst
  · intro before u after request force hx hu
    rw [hqueries u (by rw [hx]; simp)] at hu
    cases hu
  · rw [hr] at hok
    cases hok
end

/-- **What a failover removes**, for all answers of the cluster and all stop signals: nothing unless
the first snapshot of the expected number of brokers shows some outside the surviving region and no
pending change; then those at once, by force, and nothing else after them. -/
theorem run_removalOrder (ready change : WaitBounds) (expected : UInt32) (layout : RegionLayout) :
    RemovalOrder env change layout expected
      (env.run (awaitBrokers expected ready) s time)
      (env.run (run ready change expected layout) s time) := by
  obtain ⟨hqueries, ⟨stop, hwait, hr, hx, hunseen⟩ |
    ⟨asked, q, t, after, hwait, hx, hfirst, hcourse, hdecision⟩⟩ :=
    run_cases env s time change layout ready expected
  · exact removalOrder_of_error hwait hr (hx ▸ hqueries) (hx ▸ hunseen)
  · exact hdecision.removalOrder hwait hfirst (hx ▸ hqueries) hcourse

end Failover

end ClusterScaling
