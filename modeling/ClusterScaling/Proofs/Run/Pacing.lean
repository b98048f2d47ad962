import ClusterScaling.Proofs.Failover.RemovalOrder
import ClusterScaling.Proofs.Settings.Durations
import Mathlib.Data.List.Chain

/-!
# The pace of waits

Without a stop signal a round of a wait ends in one of four ways, which `Polling.Undisturbed` lists
with their times. From them follows what a wait costs (`Polling.Timely`): it is over at its deadline
at the latest and gives up only there, and its queries are apart by the interval of the wait, so
there is a bound on their number.
-/

namespace ClusterScaling

variable {σ α β : Type}

/-- A wait was given up since its time was over. -/
inductive ScaleError.IsTimeout : ScaleError → Prop
  | timeout {change bound} : IsTimeout (.timeout change bound)
  | brokersNotReady {expected observed bound} : IsTimeout (.brokersNotReady expected observed bound)

/-! ## Queries that are apart -/

namespace Exchange

/-- Each exchange but the first begins `pause` after the one before it has ended, and before the
deadline. -/
def Paced (pause deadline : Nat) (x : List (Exchange σ)) : Prop :=
  x.IsChain fun d e => e.start = d.finish + pause ∧ e.start < deadline

variable {pause deadline : Nat} {d e : Exchange σ} {x : List (Exchange σ)}

/-- The exchanges after the first take at least a pause each. -/
theorem Paced.length_mul_le (h : Paced pause deadline (e :: x))
    (hends : ∀ d ∈ e :: x, d.start ≤ d.finish) (hx : x ≠ []) :
    e.start + x.length * pause < deadline := by
  induction x generalizing e with
  | nil => exact absurd rfl hx
  | cons d x ih =>
    obtain ⟨⟨hstart, hearly⟩, hrest⟩ := List.isChain_cons_cons.1 h
    obtain ⟨hfirst, hlater⟩ := List.forall_mem_cons.1 hends
    rw [List.length_cons, Nat.succ_mul]
    by_cases hnil : x = []
    · subst hnil
      simp only [List.length_nil, Nat.zero_mul]
      omega
    · have := ih hrest hlater hnil
      omega

/-- There are no more exchanges than pauses that fit the time, with one at least. -/
theorem Paced.length_le {start bound : Nat} (h : Paced pause (start + bound) x)
    (hpause : 0 < pause) (hbegins : x.head?.map Exchange.start = some start)
    (hends : ∀ d ∈ x, d.start ≤ d.finish) :
    x.length ≤ max 1 ((bound + pause - 1) / pause) := by
  cases x with
  | nil => simp
  | cons e x =>
    obtain rfl : e.start = start := by simpa using hbegins
    by_cases hnil : x = []
    · subst hnil
      exact Nat.le_max_left _ _
    · have hlt : x.length * pause < bound := by
        have := h.length_mul_le hends hnil
        omega
      have hle : (x.length + 1) * pause ≤ bound + pause - 1 := by
        rw [Nat.succ_mul]
        omega
      have := (Nat.le_div_iff_mul_le hpause).2 hle
      rw [List.length_cons]
      omega

end Exchange

namespace Polling

open Exchange

/-! ## Rounds without a signal -/

/-- The wait `p` takes a course on which nothing disturbs it (module doc). -/
inductive Undisturbed (p : Polling β α) (env : Environment σ) (deadline : Nat) :
    β → σ → Nat → Course σ α → Prop
  | late {b s time s'} : time ≤ deadline → env.pollEnd deadline s time = (deadline, .late, s') →
      Undisturbed p env deadline b s time
        ⟨.called ⟨.query, time, none, deadline, s'⟩ :: (p.atBound b).map .told, deadline, s',
          .error (.error (p.timeout b))⟩
  | decided {b s time reply t s' ns r} : time ≤ t → t ≤ deadline →
      env.pollEnd deadline s time = (t, .arrived reply, s') → p.judge b reply = (ns, .decided r) →
      Undisturbed p env deadline b s time
        ⟨.called ⟨.query, time, some reply, t, s'⟩ :: ns.map .told, t, s', r.mapError .error⟩
  | expired {b s time reply t s' ns b'} : time ≤ t → t ≤ deadline →
      env.pollEnd deadline s time = (t, .arrived reply, s') →
      p.judge b reply = (ns, .undecided b') → deadline ≤ t + p.bounds.poll.millis →
      Undisturbed p env deadline b s time
        ⟨.called ⟨.query, time, some reply, t, s'⟩ ::
          (ns ++ p.beforeSleep b' ++ p.atBound b').map .told, deadline, s',
          .error (.error (p.timeout b'))⟩
  | again {b s time reply t s' ns b' c} : time ≤ t →
      env.pollEnd deadline s time = (t, .arrived reply, s') →
      p.judge b reply = (ns, .undecided b') → t + p.bounds.poll.millis < deadline →
      Undisturbed p env deadline b' s' (t + p.bounds.poll.millis) c →
      Undisturbed p env deadline b s time
        (c.after (.called ⟨.query, time, some reply, t, s'⟩ ::
          (ns ++ p.beforeSleep b').map .told))

variable {p : Polling β α} {env : Environment σ} {deadline time : Nat} {b : β} {s : σ}
  {c : Course σ α}

/-- **Without a signal no wait is disturbed**, as long as it fits the clock. -/
theorem Waits.undisturbed (h : Waits p env deadline b s time c) (quiet : env.Quiet)
    (interval : 0 < p.bounds.poll.millis)
    (fits : deadline + p.bounds.poll.millis < Program.clockEnd) (start : time ≤ deadline) :
    Undisturbed p env deadline b s time c := by
  induction h with
  | preempted hpre =>
    rw [quiet.preempts] at hpre
    cases hpre
  | interrupted _ hpoll => exact absurd hpoll quiet.not_interrupted
  | late _ hpoll =>
    have ht := env.pollEnd_late hpoll
    rw [Nat.max_eq_left start] at ht
    subst ht
    exact .late start hpoll
  | decided hears hj =>
    obtain ⟨delay, -, ht, hle⟩ := env.pollEnd_arrived hears.arrived
    exact .decided (by omega) (by omega) hears.arrived hj
  | overflow hears hj hclock =>
    obtain ⟨delay, -, ht, hle⟩ := env.pollEnd_arrived hears.arrived
    omega
  | disturbed hears hj hs =>
    rw [quiet.sleepEnd] at hs
    cases hs
  | @expired b s time reply t s' ns b' u hears hj hs hend =>
    -- the sleep is cut off at the deadline, where the wait is given up
    obtain ⟨delay, -, ht, hle⟩ := env.pollEnd_arrived hears.arrived
    have hu := env.sleepEnd_woken hs
    obtain rfl : u = deadline := by omega
    exact .expired (by omega) (by omega) hears.arrived hj (by omega)
  | @again b s time reply t s' ns b' u c hears hj hs hu hw ih =>
    obtain ⟨delay, -, ht, hle⟩ := env.pollEnd_arrived hears.arrived
    have hwake := env.sleepEnd_woken hs
    obtain rfl : u = t + p.bounds.poll.millis := by omega
    exact .again (by omega) hears.arrived hj hu (ih (by omega))
  | idle hidle => omega

/-- A wait that fits the clock and that nothing disturbs. -/
theorem undisturbed_wait (p : Polling β α) (b : β) (s : σ) (quiet : env.Quiet)
    (interval : 0 < p.bounds.poll.millis)
    (fits : time + p.bounds.timeout.millis + p.bounds.poll.millis < Program.clockEnd) :
    Undisturbed p env (time + p.bounds.timeout.millis) b s time (env.run (p.wait b) s time) :=
  (p.waits_wait env (by omega)).undisturbed quiet interval fits (by omega)

/-! ## Times -/

theorem Undisturbed.time_le (h : Undisturbed p env deadline b s time c) :
    time ≤ c.time ∧ c.time ≤ deadline := by
  induction h with
  | late hstart _ => exact ⟨hstart, Nat.le_refl _⟩
  | decided hle hdeadline _ _ => exact ⟨hle, hdeadline⟩
  | expired hle hdeadline _ _ _ => exact ⟨by dsimp only; omega, Nat.le_refl _⟩
  | again hle _ _ hnext _ ih =>
    obtain ⟨hstart, hend⟩ := ih
    exact ⟨by rw [Course.after_time]; omega, hend⟩

/-- A wait that is not decided goes on up to its deadline. -/
theorem Undisturbed.time_eq (h : Undisturbed p env deadline b s time c)
    (hjudge : ∀ b reply e, (p.judge b reply).2 = .decided (.error e) → ¬ e.IsTimeout)
    {e : ScaleError} (hresult : c.result = .error (.error e)) (he : e.IsTimeout) :
    c.time = deadline := by
  induction h with
  | late | expired => rfl
  | @decided b s time reply t s' ns r _ _ _ hj =>
    obtain rfl : r = .error e := by
      cases r with
      | ok a => cases hresult
      | error e' => rw [Stop.error.inj (Except.error.inj hresult)]
    exact absurd he (hjudge b reply e (by rw [hj]))
  | again _ _ _ _ _ ih => exact ih hresult

/-! ## Queries -/

theorem Undisturbed.head_start (h : Undisturbed p env deadline b s time c) :
    c.exchanges.head?.map Exchange.start = some time := by
  cases h with
  | again => rw [Course.exchanges_after]; rfl
  | _ => rfl

theorem Undisturbed.start_le_finish (h : Undisturbed p env deadline b s time c) :
    ∀ e ∈ c.exchanges, e.start ≤ e.finish := by
  induction h with
  | late hstart _ => simpa [Course.exchanges_eq] using hstart
  | decided hle | expired hle => simpa [Course.exchanges_eq] using hle
  | again hle _ _ _ _ ih =>
    intro e he
    simp only [Course.exchanges_after, Course.exchangesOf_called, Course.exchangesOf_told,
      List.mem_append, List.mem_singleton] at he
    rcases he with rfl | he
    · exact hle
    · exact ih e he

theorem Undisturbed.paced (h : Undisturbed p env deadline b s time c) :
    Paced p.bounds.poll.millis deadline c.exchanges := by
  induction h with
  | again _ _ _ hnext hrest ih =>
    have hhead := hrest.head_start
    rw [Course.exchanges_after, Course.exchangesOf_called, Course.exchangesOf_told,
      List.singleton_append]
    refine List.isChain_cons.2 ⟨fun e he => ?_, ih⟩
    rw [Option.mem_def.1 he] at hhead
    have hstart := Option.some.inj hhead
    exact ⟨hstart, by omega⟩
  | _ => simp [Course.exchanges_eq, Paced]

/-! ## All waits -/

/-- The course of a wait within some bounds, from `start` on, takes no more than its time. -/
structure Timely (bounds : WaitBounds) (start : Nat) (c : Course σ α) : Prop where
  ends : ∃ r : Except ScaleError α, c.result = r.mapError .error
  inTime : start ≤ c.time ∧ c.time ≤ start + bounds.timeout.millis
  /-- The wait is given up only when all of its time has passed. -/
  expires : ∀ e, c.result = .error (.error e) → e.IsTimeout →
    c.time = start + bounds.timeout.millis
  asks : ∀ e ∈ c.exchanges, e.call = .query ∧ e.start ≤ e.finish
  begins : c.exchanges.head?.map Exchange.start = some start
  paced : Paced bounds.poll.millis (start + bounds.timeout.millis) c.exchanges
  /-- There are no more queries than intervals that the time is begun to be filled with. -/
  few : c.exchanges.length ≤
    max 1 ((bounds.timeout.millis + bounds.poll.millis - 1) / bounds.poll.millis)

theorem timely_wait (p : Polling β α) (b : β) (s : σ) (quiet : env.Quiet)
    (interval : 0 < p.bounds.poll.millis)
    (fits : time + p.bounds.timeout.millis + p.bounds.poll.millis < Program.clockEnd)
    (hjudge : ∀ b reply e, (p.judge b reply).2 = .decided (.error e) → ¬ e.IsTimeout) :
    Timely p.bounds time (env.run (p.wait b) s time) := by
  have h := undisturbed_wait p b s quiet interval fits
  obtain ⟨-, hresult⟩ := p.run_wait_quiet b s quiet interval fits
  exact {
    ends := ⟨_, hresult⟩
    inTime := h.time_le
    expires := fun e he htimeout => h.time_eq hjudge he htimeout
    asks := fun e he => ⟨p.wait_call_eq_query env b s time e he, h.start_le_finish e he⟩
    begins := h.head_start
    paced := h.paced
    few := h.paced.length_le interval h.head_start h.start_le_finish }

end Polling

open Polling

theorem Watch.judgeChange_eq_error {t : Topology} {c : ChangeId} {e : ScaleError}
    (h : (Watch.judgeChange t c).2 = .error e) : ∃ status, e = .changeFailed c status := by
  unfold Watch.judgeChange at h
  split at h
  case h_2 => exact ⟨_, (Except.error.inj h).symm⟩
  all_goals cases h

/-- No reply decides a watch to be out of time. -/
theorem Watch.not_isTimeout_of_judge {f : Watch.Findings} {reply : QueryReply} {e : ScaleError}
    (h : (Watch.judge f reply).2 = .decided (.error e)) : ¬ e.IsTimeout := by
  cases reply with
  | error e' =>
    simp only [Watch.judge] at h
    split at h
    · cases h
    · obtain rfl : ScaleError.client e' = e := by simpa using h
      nofun
  | ok t =>
    have hresult : (Watch.observe t f.tracked).result = .error e := by
      simp only [Watch.judge] at h
      split at h
      · rename_i e' he
        obtain rfl : e' = e := by simpa using h
        exact he
      · cases h
      · cases h
    have hfailed : ∃ c, (Watch.judgeChange t c).2 = .error e := by
      unfold Watch.observe at hresult
      split at hresult
      · exact ⟨_, hresult⟩
      · split at hresult
        · cases hresult
        · exact ⟨_, hresult⟩
    obtain ⟨c, hc⟩ := hfailed
    obtain ⟨status, rfl⟩ := Watch.judgeChange_eq_error hc
    nofun

/-- No reply decides the wait for brokers to be out of time. -/
theorem Failover.not_isTimeout_of_judge {expected : UInt32} {observed : Option Nat}
    {reply : QueryReply} {e : ScaleError}
    (h : (Failover.judge expected observed reply).2 = .decided (.error e)) : ¬ e.IsTimeout := by
  have hfits := Failover.judge_fits expected observed reply
  rw [h] at hfits
  cases hfits
  nofun

/-- **Waits keep to their time.** A watch and the wait for brokers end by their deadline whatever
the cluster does, and their queries are apart by the interval, which valid settings make positive. -/
theorem waits_timely (env : Environment σ) (bounds : WaitBounds) (s : σ) (time : Nat)
    (quiet : env.Quiet) (interval : 0 < bounds.poll.millis)
    (fits : time + bounds.timeout.millis + bounds.poll.millis < Program.clockEnd) :
    (∀ change, Timely bounds time (env.run (Watch.wait bounds change) s time)) ∧
    (∀ expected, Timely bounds time (env.run (Failover.awaitBrokers expected bounds) s time)) ∧
    ∀ settings : Settings, settings.validate = .ok () →
      ∀ w ∈ settings.waits, ∃ bounds, w = .ok bounds ∧ 0 < bounds.poll.millis := by
  refine ⟨fun change => ?_, fun expected => ?_, fun settings h => settings.poll_pos_of_validate h⟩
  · exact timely_wait (Watch.polling bounds) _ s quiet interval fits
      fun _ _ _ => Watch.not_isTimeout_of_judge
  · exact timely_wait (Failover.polling expected bounds) none s quiet interval fits
      fun _ _ _ => Failover.not_isTimeout_of_judge

/-- A world in which the first query fails after five milliseconds and no other one is answered. -/
def fading : Script where
  queries := [some (5, .error (.transport "connection reset")), none]
  submission := none

/-- The second query hangs when the time is over, and the waits are given up on time. -/
theorem waits_timely_fading :
    let bounds : WaitBounds := ⟨⟨10⟩, ⟨25⟩⟩
    let watch := fading.environment.run (Watch.wait bounds none) fading.queries 3
    let brokers := fading.environment.run (Failover.awaitBrokers 2 bounds) fading.queries 3
    fading.environment.Quiet ∧ 0 < bounds.poll.millis ∧
      3 + bounds.timeout.millis + bounds.poll.millis < Program.clockEnd ∧
      watch.result = .error (.error (.timeout none ⟨25⟩)) ∧ watch.time = 28 ∧
      watch.calls = [(3, .query), (18, .query)] ∧ watch.exchanges.length ≤ 3 ∧
      brokers.result = .error (.error (.brokersNotReady 2 none ⟨25⟩)) ∧ brokers.time = 28 := by
  intro bounds watch brokers
  have quiet : fading.environment.Quiet := fun _ => rfl
  have interval : 0 < bounds.poll.millis := by decide
  have fits : 3 + bounds.timeout.millis + bounds.poll.millis < Program.clockEnd := by decide
  obtain ⟨hwatch, hbrokers, -⟩ :=
    waits_timely fading.environment bounds fading.queries 3 quiet interval fits
  have hgaveUp : watch.result = .error (.error (.timeout none ⟨25⟩)) := rfl
  have hnotReady : brokers.result = .error (.error (.brokersNotReady 2 none ⟨25⟩)) := rfl
  exact ⟨quiet, interval, fits, hgaveUp, (hwatch none).expires _ hgaveUp .timeout, rfl,
    (hwatch none).few.trans (by decide), hnotReady, (hbrokers 2).expires _ hnotReady .brokersNotReady⟩

end ClusterScaling
