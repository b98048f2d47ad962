import ClusterScaling.Proofs.Failover.RemovalOrder

/-!
# When the brokers are there

The wait for the brokers ends with the first reply that decides it (`Failover.Decides`): a snapshot
of just the expected number of brokers, or an error that is not transient. `Failover.Ends` says so of
all replies that come in time, and what is reported if none of them decides: the number of brokers
that the last snapshot showed, whatever errors came after it. `Failover.awaitBrokers_verdict` shows
that every wait without a stop signal ends in this way.
-/

namespace ClusterScaling

variable {σ : Type}

namespace Failover

/-- No reply decides the wait. -/
def Undecided (expected : UInt32) (replies : List QueryReply) : Prop :=
  ∀ r ∈ replies, ∀ v, ¬ Decides expected r v

/-- The number of brokers that the last snapshot among some replies shows. -/
def lastCount (replies : List QueryReply) : Option Nat :=
  (replies.filterMap Except.toOption).getLast?.map Topology.brokerCount

/-- The replies, which come at their times up to the deadline, end the wait for `expected` brokers
at `t` with the result `v`. -/
inductive Ends (expected : UInt32) (bound : Duration) (deadline : Nat)
    (replies : List (Nat × QueryReply)) : Nat → Except ScaleError Topology → Prop
  | decided {before t reply after v} : replies = before ++ (t, reply) :: after →
      Undecided expected (before.map Prod.snd) → Decides expected reply v →
      Ends expected bound deadline replies t v
  | notReady : Undecided expected (replies.map Prod.snd) →
      Ends expected bound deadline replies deadline
        (.error (.brokersNotReady expected (lastCount (replies.map Prod.snd)) bound))

variable {expected : UInt32} {reply : QueryReply} {replies : List QueryReply}
  {v w : Except ScaleError Topology}

/-! ## One reply -/

theorem Decides.unique (h : Decides expected reply v) (h' : Decides expected reply w) : v = w := by
  cases h <;> cases h' <;> rfl

theorem Decides.result_eq {e : ScaleError} (h : Decides expected reply (.error e)) :
    ∃ c, e = .client c := by
  cases h
  exact ⟨_, rfl⟩

theorem Undecided.concat (h : Undecided expected replies)
    (hreply : ∀ v, ¬ Decides expected reply v) : Undecided expected (replies ++ [reply]) := by
  intro r hr
  rcases List.mem_append.1 hr with hr | hr
  · exact h r hr
  · obtain rfl := List.mem_singleton.1 hr
    exact hreply

theorem lastCount_concat_ok (replies : List QueryReply) (t : Topology) :
    lastCount (replies ++ [.ok t]) = some t.brokerCount := by
  simp [lastCount, Except.toOption]

/-- An error does not change what was seen last. -/
theorem lastCount_concat_error (replies : List QueryReply) (e : ClientError) :
    lastCount (replies ++ [.error e]) = lastCount replies := by
  simp [lastCount, Except.toOption]

theorem lastCount_eq_none_iff : lastCount replies = none ↔ ∀ r ∈ replies, ∃ e, r = .error e := by
  rw [lastCount, Option.map_eq_none_iff, List.getLast?_eq_none_iff, List.filterMap_eq_nil_iff]
  refine forall₂_congr fun r _ => ?_
  cases r <;> simp [Except.toOption]

/-- A reply that decides nothing is remembered if it is a snapshot. -/
theorem lastCount_of_undecided {observed : Option Nat}
    (hj : (judge expected (lastCount replies) reply).2 = .undecided observed) :
    observed = lastCount (replies ++ [reply]) := by
  unfold judge at hj
  cases reply with
  | error e =>
    dsimp only at hj
    split at hj
    · rw [lastCount_concat_error]
      exact (Verdict.undecided.inj hj).symm
    · cases hj
  | ok t =>
    dsimp only at hj
    split at hj
    · cases hj
    · rw [lastCount_concat_ok]
      exact (Verdict.undecided.inj hj).symm

/-! ## All replies -/

/-- As long as nothing decides the wait, it remembers the last snapshot. -/
theorem lastCount_of_learn {bounds : WaitBounds} {observed : Option Nat}
    {xs : List (Nat × QueryReply)} (h : (polling expected bounds).learn none xs = some observed) :
    observed = lastCount (xs.map Prod.snd) ∧ Undecided expected (xs.map Prod.snd) := by
  have hstart : none = lastCount [] ∧ Undecided expected [] := ⟨rfl, nofun⟩
  refine Polling.learn_induction
    (fun observed before => observed = lastCount before ∧ Undecided expected before)
    (fun observed before reply observed' hbefore hj => ?_) hstart h
  obtain ⟨rfl, hu⟩ := hbefore
  exact ⟨lastCount_of_undecided hj, hu.concat (not_decides_of_judge hj)⟩

/-- The first decision among the replies ends the wait. -/
theorem ends_settle (expected : UInt32) (bounds : WaitBounds) (deadline : Nat)
    (replies : List (Nat × QueryReply)) :
    Ends expected bounds.timeout deadline replies
      ((polling expected bounds).settle deadline none replies).1
      ((polling expected bounds).settle deadline none replies).2 := by
  rcases (polling expected bounds).settle_cases deadline none replies with
    ⟨before, t, reply, after, observed, v, rfl, hlearn, hj, hsettle⟩ | ⟨observed, hlearn, hsettle⟩
  · rw [hsettle]
    exact .decided rfl (lastCount_of_learn hlearn).2 (decides_of_judge hj)
  · obtain ⟨rfl, hu⟩ := lastCount_of_learn hlearn
    rw [hsettle]
    exact .notReady hu

section
variable {bound : Duration} {deadline t₁ t₂ : Nat} {replies before after : List (Nat × QueryReply)}

theorem Undecided.not_decides (h : Undecided expected (replies.map Prod.snd))
    (hx : replies = before ++ (t₁, reply) :: after) : ¬ Decides expected reply v :=
  h reply (by simp [hx]) v

theorem Undecided.forall_not (h : Undecided expected (replies.map Prod.snd)) :
    ∀ x ∈ replies, ¬ ∃ v, Decides expected x.2 v := by
  rintro x hx ⟨v, hd⟩
  exact h x.2 (List.mem_map_of_mem hx) v hd

/-- The replies end the wait in one way only. -/
theorem Ends.unique (h : Ends expected bound deadline replies t₁ v)
    (h' : Ends expected bound deadline replies t₂ w) : t₁ = t₂ ∧ v = w := by
  cases h with
  | decided hx hu hd =>
    cases h' with
    | decided hx' hu' hd' =>
      obtain ⟨-, hreply, -⟩ := split_first (P := fun x => ∃ v, Decides expected x.2 v)
        (hx.symm.trans hx') hu.forall_not ⟨v, hd⟩ hu'.forall_not ⟨w, hd'⟩
      cases hreply
      exact ⟨rfl, hd.unique hd'⟩
    | notReady hu' => exact absurd hd (hu'.not_decides hx)
  | notReady hu =>
    cases h' with
    | decided hx' _ hd' => exact absurd hd' (hu.not_decides hx')
    | notReady _ => exact ⟨rfl, rfl⟩

/-- The wait is given up without a number of brokers just if no snapshot came. -/
theorem Ends.observed_eq_none_iff {observed : Option Nat}
    (h : Ends expected bound deadline replies t₁
      (.error (.brokersNotReady expected observed bound))) :
    observed = none ↔ ∀ x ∈ replies, ∃ e, x.2 = .error e := by
  generalize hv : (Except.error (.brokersNotReady expected observed bound) :
    Except ScaleError Topology) = v at h
  cases h with
  | decided _ _ hd =>
    subst hv
    obtain ⟨c, hc⟩ := hd.result_eq
    cases hc
  | notReady hu =>
    obtain rfl : observed = lastCount (replies.map Prod.snd) := by simpa using hv
    rw [lastCount_eq_none_iff, List.forall_mem_map]

end

/-- **When the wait for brokers ends** without a stop signal. Of the replies that come in time the
first that decides it ends it at once, with a snapshot of just the expected number of brokers or
with an error that is not transient. If there is none, the wait is given up at its deadline, and it
reports the number of brokers of the last snapshot. -/
theorem awaitBrokers_verdict (env : Environment σ) (bounds : WaitBounds) (expected : UInt32) (s : σ)
    (time : Nat) (quiet : env.Quiet) (interval : 0 < bounds.poll.millis)
    (fits : time + bounds.timeout.millis + bounds.poll.millis < Program.clockEnd) :
    let deadline := time + bounds.timeout.millis
    let replies := env.replies bounds.poll.millis deadline s time
    let course := env.run (awaitBrokers expected bounds) s time
    ∃ v, course.result = v.mapError .error ∧
      (∀ t w, Ends expected bounds.timeout deadline replies t w ↔ t = course.time ∧ w = v) ∧
      ∀ observed, v = .error (.brokersNotReady expected observed bounds.timeout) →
        (observed = none ↔ ∀ x ∈ replies, ∃ e, x.2 = .error e) := by
  intro deadline replies course
  let settled := (polling expected bounds).settle deadline none replies
  obtain ⟨htime, hresult⟩ : course.time = settled.1 ∧ course.result = settled.2.mapError .error :=
    (polling expected bounds).run_wait_quiet none s quiet interval fits
  have hends : Ends expected bounds.timeout deadline replies course.time settled.2 := by
    rw [htime]
    exact ends_settle expected bounds deadline replies
  refine ⟨settled.2, hresult, fun t w => ⟨fun h => h.unique hends, ?_⟩, fun observed hv => ?_⟩
  · rintro ⟨rfl, rfl⟩
    exact hends
  · rw [hv] at hends
    exact hends.observed_eq_none_iff

/-- A world in which a query shows one broker and all later ones fail. -/
def losing : Script where
  queries := [some (4, .ok ⟨1, none, [⟨0, "ACTIVE", 1, []⟩], none, none, none⟩),
    some (1, .error (.transport "connection reset"))]
  submission := none

/-- The failures after the snapshot do not make the wait forget the one broker that it showed. -/
theorem awaitBrokers_verdict_losing :
    let course := losing.environment.run (awaitBrokers 3 ⟨⟨10⟩, ⟨30⟩⟩) losing.queries 2
    losing.environment.Quiet ∧ 0 < 10 ∧ 2 + 30 + 10 < Program.clockEnd ∧
      course.time = 32 ∧ course.result = .error (.error (.brokersNotReady 3 (some 1) ⟨30⟩)) := by
  intro course
  have quiet : losing.environment.Quiet := fun _ => rfl
  have interval : 0 < 10 := by decide
  have fits : 2 + 30 + 10 < Program.clockEnd := by decide
  obtain ⟨v, hresult, hends, -⟩ := awaitBrokers_verdict losing.environment ⟨⟨10⟩, ⟨30⟩⟩ 3
    losing.queries 2 quiet interval fits
  have hreplies : losing.environment.replies 10 (2 + 30) losing.queries 2 =
      [(6, .ok ⟨1, none, [⟨0, "ACTIVE", 1, []⟩], none, none, none⟩),
        (17, .error (.transport "connection reset")),
        (28, .error (.transport "connection reset"))] := by
    rw [Environment.replies_of_arrived rfl, if_pos (by decide), Environment.replies_of_arrived rfl,
      if_pos (by decide), Environment.replies_of_arrived rfl, if_neg (by decide)]
    rfl
  have hundecided : Undecided 3 ((losing.environment.replies 10 (2 + 30) losing.queries 2).map
      Prod.snd) := by
    rw [hreplies]
    rintro r hr v hd
    cases hd with
    | ready hcount => simp_all [Topology.brokerCount]
    | rejected he =>
      simp at hr
      subst hr
      cases he
  have hend : Ends 3 ⟨30⟩ (2 + 30) _ (2 + 30) _ := .notReady hundecided
  obtain ⟨htime, rfl⟩ := (hends _ _).1 hend
  refine ⟨quiet, interval, fits, htime.symm, ?_⟩
  rw [hresult, hreplies]
  rfl

end Failover

end ClusterScaling
