import ClusterScaling.Proofs.Change.Verdict
import ClusterScaling.Proofs.Failover.RemovalOrder
import ClusterScaling.Proofs.Run.Endings
import ClusterScaling.Proofs.Run.StopsInWaits
import ClusterScaling.Run.Flag

/-!
# Stopping on a signal

What a raised stop flag does to a watch, a failover and a scaling run, whenever it is raised and
whatever the cluster answers meanwhile. A wait ends as soon as the flag is up (`Heeds`), and a run
with a wait that was cancelled (`Heeded`). `watching_heeded` shows it for all runs.
-/

namespace ClusterScaling

open Exchange

variable {σ α β : Type}

/-! ## Waits -/

/-- What decides a wait: the replies that came before, the reply, and the result. -/
abbrev Deciding (α : Type) : Type := List QueryReply → QueryReply → Except ScaleError α → Prop

/-- A program that waits within some bounds for a reply that decides it. -/
inductive IsWait : {α : Type} → Program α → WaitBounds → Deciding α → Prop
  | watch (bounds : WaitBounds) (change : Option ChangeId) :
      IsWait (Watch.wait bounds change) bounds fun before reply v =>
        Watch.Decides (Watch.followed change (before ++ [reply])) reply v
  | brokers (expected : UInt32) (bounds : WaitBounds) :
      IsWait (Failover.awaitBrokers expected bounds) bounds fun _ reply v =>
        Failover.Decides expected reply v

/-- The last reply of a wait came when the wait ended, and decided it. -/
def DecidedAtEnd (decides : Deciding α) (c : Course σ α) : Prop :=
  ∃ before e reply v, c.exchanges = before ++ [e] ∧ heard [e] = [(c.time, reply)] ∧
    decides ((heard before).map Prod.snd) reply v ∧ c.result = v.mapError .error

/-- The course of a wait from `start` on is as the flag asks for. -/
structure Heeds (flag : Flag) (bounds : WaitBounds) (decides : Deciding α) (start : Nat)
    (c : Course σ α) : Prop where
  /-- Nothing is cancelled before the flag is raised. -/
  cancelled : c.result = .error (.error .cancelled) → ∃ t ≤ c.time, flag.RaisedAt t
  /-- The wait ends when the flag is raised, or at once if that was before it. -/
  ends : 0 < bounds.poll.millis → 0 < bounds.timeout.millis →
    start + bounds.timeout.millis + bounds.poll.millis < Program.clockEnd →
    ∀ t, flag.RaisedAt t → t < start + bounds.timeout.millis →
      c.time ≤ max start t ∧ c.exchanges.countP (fun e => t ≤ e.start) ≤ 1 ∧
      (t ≤ c.time → c.time = max start t ∧
        (c.result = .error (.error .cancelled) ∨ DecidedAtEnd decides c))

/-- The wait `p` with the findings `b` to start from is decided as `decides` says. -/
structure Polling.DecidesBy (p : Polling β α) (b : β) (decides : Deciding α) : Prop where
  judge : ∀ xs f reply r, p.learn b xs = some f → (p.judge f reply).2 = .decided r →
    decides (xs.map Prod.snd) reply r
  verdict_ne : ∀ before reply v, decides before reply v → v ≠ .error .cancelled
  timeout_ne : ∀ f, p.timeout f ≠ .cancelled

section
variable {p : Polling β α} {b : β} {decides : Deciding α} {flag : Flag} {start : Nat}

/-- How a wait ends: decided, cancelled once the flag was raised, or given up. -/
theorem Polling.DecidesBy.cases (h : p.DecidesBy b decides) (env : Environment σ) (s : σ)
    (fits : start + p.bounds.timeout.millis < Program.clockEnd) :
    let c := env.run (p.wait b) s start
    (DecidedAtEnd decides c ∧ c.result ≠ .error (.error .cancelled)) ∨
    (c.result = .error (.error .cancelled) ∧ ∃ t, env.signal c.state = some t ∧ t ≤ c.time) ∨
    (c.result ≠ .error (.error .cancelled) ∧ (start + p.bounds.timeout.millis ≤ c.time ∨
      Program.clockEnd ≤ c.time + p.bounds.poll.millis ∨ p.bounds.poll.millis = 0)) := by
  intro c
  cases (p.waits_wait env (b := b) (s := s) fits).closes with
  | @decided before e reply f r hx hheard hstate hlearn hjudge hresult =>
    have hdecides := h.judge _ f reply r hlearn hjudge
    refine .inl ⟨⟨before, e, reply, r, hx, hheard, hdecides, hresult⟩, ?_⟩
    rw [show c.result = _ from hresult]
    have hne := h.verdict_ne _ _ _ hdecides
    cases r with
    | ok a => nofun
    | error e' =>
      rintro ⟨⟩
      exact hne rfl
  | undecided hlearn hresult hgives =>
    cases hgives with
    | cancelled ht hle => exact .inr (.inl ⟨hresult, _, ht, hle⟩)
    | expired hend =>
      refine .inr (.inr ⟨?_, .inl hend⟩)
      rw [show c.result = _ from hresult]
      exact fun he => h.timeout_ne _ (Stop.error.inj (Except.error.inj he))
    | overflow hclock =>
      refine .inr (.inr ⟨?_, .inr (.inl hclock)⟩)
      rw [show c.result = _ from hresult]
      nofun
    | idle hidle =>
      refine .inr (.inr ⟨?_, .inr (.inr hidle)⟩)
      rw [show c.result = _ from hresult]
      nofun

theorem Polling.DecidesBy.heeds (h : p.DecidesBy b decides) (steady : flag.Steady)
    (env : Environment σ) (s : σ) :
    Heeds flag p.bounds decides start ((env.watching (some flag)).run (p.wait b) s start) := by
  have hsignal : ∀ t s, (env.watching (some flag)).signal s = some t ↔ flag.RaisedAt t :=
    fun _ _ => steady.seen_eq_some_iff
  refine ⟨fun hcancelled => ?_, fun interval bound fits t ht early => ?_⟩
  · by_cases fits : start + p.bounds.timeout.millis < Program.clockEnd
    · rcases h.cases (env.watching (some flag)) s fits with
        ⟨-, hne⟩ | ⟨-, t, ht, hle⟩ | ⟨hne, -⟩
      · exact absurd hcancelled hne
      · exact ⟨t, hle, (hsignal t _).1 ht⟩
      · exact absurd hcancelled hne
    · rw [p.run_wait_of_overflow _ b s (by omega)] at hcancelled
      cases hcancelled
  · have fits' : start + p.bounds.timeout.millis < Program.clockEnd := by omega
    obtain ⟨hstart, htime, hqueries⟩ :=
      (p.waits_wait (env.watching (some flag)) (b := b) (s := s) fits').signalled
        (fun s => (hsignal t s).2 ht) interval early (by omega)
    refine ⟨htime, hqueries, fun hle => ⟨by omega, ?_⟩⟩
    -- the signal came in time, so the wait cannot have given up by itself
    rcases h.cases (env.watching (some flag)) s fits' with
      ⟨hdecided, -⟩ | ⟨hcancelled, -⟩ | ⟨-, hend⟩
    · exact .inr hdecided
    · exact .inl hcancelled
    · omega
end

theorem Watch.Decides.ne_cancelled {change : Option ChangeId} {reply : QueryReply}
    {v : Except ScaleError Outcome} (h : Watch.Decides change reply v) :
    v ≠ .error .cancelled := by
  rintro rfl
  cases h

theorem Failover.Decides.ne_cancelled {expected : UInt32} {reply : QueryReply}
    {v : Except ScaleError Topology} (h : Failover.Decides expected reply v) :
    v ≠ .error .cancelled := by
  rintro rfl
  cases h

theorem Watch.decidesBy (bounds : WaitBounds) (change : Option ChangeId) :
    (Watch.polling bounds).DecidesBy ⟨Watch.requested change, 0⟩ fun before reply v =>
      Watch.Decides (Watch.followed change (before ++ [reply])) reply v where
  judge _ _ _ _ hlearn hjudge := Watch.decides_of_learn hlearn hjudge
  verdict_ne _ _ _ := Watch.Decides.ne_cancelled
  timeout_ne _ := nofun

theorem Failover.decidesBy (expected : UInt32) (bounds : WaitBounds) :
    (Failover.polling expected bounds).DecidesBy none fun _ reply v =>
      Failover.Decides expected reply v where
  judge _ _ _ _ _ hjudge := Failover.decides_of_judge hjudge
  verdict_ne _ _ _ := Failover.Decides.ne_cancelled
  timeout_ne _ := nofun

theorem IsWait.heeds {q : Program α} {bounds : WaitBounds} {decides : Deciding α}
    (h : IsWait q bounds decides) {flag : Flag} (steady : flag.Steady) (env : Environment σ)
    (s : σ) (start : Nat) :
    Heeds flag bounds decides start ((env.watching (some flag)).run q s start) := by
  cases h with
  | watch bounds change => exact (Watch.decidesBy bounds change).heeds steady env s
  | brokers expected bounds => exact (Failover.decidesBy expected bounds).heeds steady env s

/-! ## Runs -/

/-- The program waits for something. -/
def Waiting (q : Program α) : Prop := ∃ bounds decides, IsWait q bounds decides

/-- The runs of a program from a state and a time on are as the flag asks for. -/
structure Heeded (env : Environment σ) (flag : Flag) (p : Program α) (s : σ) (time : Nat) :
    Prop where
  /-- A run is cancelled only after the flag was raised. -/
  cancelled :
    let course := (env.watching (some flag)).run p s time
    course.result = .error (.error .cancelled) → ∃ t ≤ course.time, flag.RaisedAt t
  /-- A run is cancelled only in a wait that it comes to. -/
  within : (env.watching (some flag)).FailsIn (.error .cancelled) Waiting p
  /-- Each wait that a run comes to ends as the flag asks for. -/
  waits : ∀ {β : Type} (q : Program β) bounds decides s' time' es,
    IsWait q bounds decides → (env.watching (some flag)).Reaches q s' time' p s time es →
    Heeds flag bounds decides time' ((env.watching (some flag)).run q s' time')
  /-- Nothing happens after a wait that was cancelled. -/
  ends : ∀ {β : Type} (q : Program β) s' time' es,
    let world := env.watching (some flag)
    world.Reaches q s' time' p s time es →
    (world.run q s' time').result = .error (.error .cancelled) →
    (world.run p s time).result = .error (.error .cancelled) ∧
      (world.run p s time).time = (world.run q s' time').time ∧
      (world.run p s time).events = es ++ (world.run q s' time').events
  /-- A flag that is never raised is as good as none. -/
  unraised : (∀ e ∈ flag.history, e.2 ≠ .set true) →
    (env.watching (some flag)).run p s time = (env.watching none).run p s time

theorem watching_of_down (env : Environment σ) {flag : Flag}
    (down : ∀ e ∈ flag.history, e.2 ≠ .set true) :
    env.watching (some flag) = env.watching none := by
  simp [Environment.watching, Flag.seen_eq_none down]

/-- A program that can only be cancelled in a wait heeds the flag. -/
theorem heeded_of_failsIn {env : Environment σ} {flag : Flag} {p : Program α}
    (steady : flag.Steady)
    (h : (env.watching (some flag)).FailsIn (.error .cancelled) Waiting p) (s : σ) (time : Nat) :
    Heeded env flag p s time := by
  refine ⟨fun hcancelled => ?_, h, fun q bounds decides s' time' es hq _ => ?_,
    fun q s' time' es hreaches hq => ?_, fun down => ?_⟩
  · obtain ⟨β, q, s', time', es, ⟨bounds, decides, hwait⟩, hreaches, hq⟩ := h s time hcancelled
    rw [hreaches.run_of_error hq]
    exact (hwait.heeds steady env s' time').cancelled hq
  · exact hq.heeds steady env s' time'
  · rw [hreaches.run_of_error hq]
    exact ⟨rfl, rfl, rfl⟩
  · rw [watching_of_down env down]

/-- Every watch is a wait. -/
theorem waiting_watch (bounds : WaitBounds) (change : Option ChangeId) :
    Waiting (Watch.wait bounds change) := ⟨_, _, .watch bounds change⟩

/-- **The stop flag is heeded** by watches, failovers and scaling runs. The first part says that the
signal of the world is the flag as each single wait sees it. -/
theorem watching_heeded (env : Environment σ) (flag : Flag) (steady : flag.Steady) (s : σ)
    (time : Nat) :
    (∀ s' wins start ready, start ≤ ready →
      interruption? ((env.watching (some flag)).signal s') wins start ready =
        (flag.seen start).filter fun t => t < ready || (t == ready && wins)) ∧
    (∀ bounds change, Heeded env flag (Watch.wait bounds change) s time) ∧
    (∀ ready change expected layout,
      Heeded env flag (Failover.run ready change expected layout) s time) ∧
    ∀ settings target, Heeded env flag (Scaling.scale settings target) s time :=
  ⟨fun _ _ _ _ h => steady.interruption?_seen h,
    fun bounds change =>
      heeded_of_failsIn steady (Environment.failsIn_self (waiting_watch bounds change)) s time,
    fun ready change expected layout =>
      heeded_of_failsIn steady (failsIn_failover .cancelled ⟨_, _, .brokers expected ready⟩
        (waiting_watch change) layout) s time,
    fun _ target =>
      heeded_of_failsIn steady (failsIn_scale .cancelled (fun bounds _ => waiting_watch bounds)
        (fun bounds _ => waiting_watch bounds) target) s time⟩

/-- A cluster of the brokers `0` and `1` that takes ten milliseconds to accept a change. -/
def slow : Script :=
  let brokers : List Broker := [⟨0, "ACTIVE", 1, []⟩, ⟨1, "ACTIVE", 1, []⟩]
  { queries := [some (0, .ok ⟨1, none, brokers, none, none, none⟩)]
    submission := some (10, .ok ⟨4, [], [], []⟩) }

/-- The flag is raised during the submission, and its holder is gone before the answer. The watch
after it still finds out, with the one query that it makes. -/
theorem watching_heeded_after_submission :
    let flag : Flag := ⟨[(3, .set false), (7, .set true), (9, .dropped)]⟩
    let env := { slow.environment with signalWins := fun _ _ => false }
    let bounds : WaitBounds := ⟨⟨20⟩, ⟨100⟩⟩
    let world := env.watching (some flag)
    let watch := world.run (Watch.wait bounds (some 4)) slow.queries 10
    let course := world.run (Failover.run bounds bounds 2 ⟨2, 0, by decide⟩) slow.queries 0
    flag.Steady ∧ flag.RaisedAt 7 ∧ watch.time = 10 ∧
      watch.exchanges.countP (fun e => 7 ≤ e.start) ≤ 1 ∧
      course.result = .error (.error .cancelled) ∧ course.time = 10 ∧
      course.calls.map Prod.snd = [.query, .submit (Failover.removal [1]) true, .query] := by
  intro flag env bounds world watch course
  have steady : flag.Steady := ⟨by simp [flag], by simp [flag]⟩
  have raised : flag.RaisedAt 7 := ⟨[(3, .set false)], [(9, .dropped)], rfl, by simp⟩
  obtain ⟨-, -, hfailover, -⟩ := watching_heeded env flag steady slow.queries 0
  have heeded : Heeded env flag (Failover.run bounds bounds 2 ⟨2, 0, by decide⟩) slow.queries 0 :=
    hfailover bounds bounds 2 ⟨2, 0, by decide⟩
  have hreaches : ∃ es, world.Reaches (Watch.wait bounds (some 4)) slow.queries 10
      (Failover.run bounds bounds 2 ⟨2, 0, by decide⟩) slow.queries 0 es :=
    ⟨_, .next rfl (.next rfl (.next rfl (.first .here)))⟩
  obtain ⟨es, hreaches⟩ := hreaches
  have heeds := heeded.waits _ _ _ _ _ _ (.watch bounds (some 4)) hreaches
  obtain ⟨htime, hqueries, hend⟩ :=
    heeds.ends (by decide) (by decide) (by decide) 7 raised (by decide)
  have hcancelled : watch.result = .error (.error .cancelled) := rfl
  obtain ⟨hresult, hcoursetime, -⟩ := heeded.ends _ _ _ _ hreaches hcancelled
  have hwatchtime : watch.time = 10 := (hend (by decide)).1
  exact ⟨steady, raised, hwatchtime, hqueries, hresult, hcoursetime.trans hwatchtime, rfl⟩

end ClusterScaling
