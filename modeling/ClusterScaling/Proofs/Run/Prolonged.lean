import ClusterScaling.Proofs.Run.Pacing

/-!
# Waits with more time

A wait that is decided before its time is over has no use for more of it. `Polling.run_loop_later`
sets two waits side by side that differ only in their bounds and in what they come to there: as long
as the shorter one is not given up, neither a query nor a sleep is cut off by its deadline, so the
longer one polls at the same times and hears the same replies.
-/

namespace ClusterScaling

variable {σ α β : Type}

/-! ## Queries and sleeps -/

/-- A signal that comes before something is ready comes before what is ready later. -/
theorem interruption?_later {signal : Option Nat} {wins : Bool} {start ready ready' u : Nat}
    (h : interruption? signal wins start ready = some u) (hle : ready ≤ ready') :
    interruption? signal wins start ready' = some u := by
  cases signal with
  | none => cases h
  | some t =>
    simp only [interruption?, Bool.or_eq_true, Bool.and_eq_true, decide_eq_true_eq,
      beq_iff_eq] at h ⊢
    split at h
    · rename_i ht
      split at h
      · rename_i hfirst
        have hfirst' : wins = true ∨ start < ready' := hfirst.imp_right fun hlt => by omega
        rw [if_pos ht, if_pos hfirst']
        exact h
      · cases h
    · rename_i ht
      split at h
      · rename_i hfirst
        have hfirst' : t < ready' ∨ t = ready' ∧ wins = true := by
          rcases hfirst with hlt | ⟨rfl, hwins⟩
          · exact .inl (by omega)
          · exact (Nat.lt_or_eq_of_le hle).imp_right fun heq => ⟨heq, hwins⟩
        rw [if_neg ht, if_pos hfirst']
        exact h
      · cases h

namespace Environment

variable {env : Environment σ} {limit limit' time t u : Nat} {s s' : σ} {poll : Poll}

/-- A reply that is in time for one limit is in time for a later one. -/
theorem arrival_later (hle : limit ≤ limit') (time : Nat) (reply : Option (Nat × QueryReply)) :
    (arrival limit time reply).1 ≤ (arrival limit' time reply).1 ∧
      ((arrival limit time reply).2 ≠ .late →
        arrival limit' time reply = arrival limit time reply) := by
  rcases reply with _ | ⟨delay, reply⟩
  · refine ⟨?_, fun h => absurd rfl h⟩
    simp only [arrival]
    omega
  · by_cases h : time + delay ≤ max limit time
    · have h' : time + delay ≤ max limit' time := by omega
      simp [arrival, h, h']
    · by_cases h' : time + delay ≤ max limit' time <;> simp [arrival, h, h'] <;> omega

/-- A query that does not run into its limit ends as it would with a later one. -/
theorem pollEnd_later (h : env.pollEnd limit s time = (t, poll, s')) (hpoll : poll ≠ .late)
    (hle : limit ≤ limit') : env.pollEnd limit' s time = (t, poll, s') := by
  unfold pollEnd at h ⊢
  rcases ha : env.answer .query s time with ⟨reply, s₁⟩
  obtain ⟨hready, harrival⟩ := arrival_later hle time reply
  simp only [ha] at h ⊢
  cases hi : interruption? (env.signal s₁) (env.signalWins s time) time
      (arrival limit time reply).1 with
  | some u =>
    rw [hi] at h
    rw [interruption?_later hi hready]
    exact h
  | none =>
    rw [hi] at h
    obtain ⟨rfl, rfl, rfl⟩ : (arrival limit time reply).1 = t ∧
      (arrival limit time reply).2 = poll ∧ s₁ = s' := by simpa using h
    rw [harrival hpoll, hi]

/-- A sleep that the deadline does not cut off ends as it would with a later one. -/
theorem sleepEnd_later {wake deadline deadline' : Nat} {sleep : Sleep}
    (h : env.sleepEnd (min wake deadline) s time = (u, sleep))
    (hsleep : sleep = .woken → u < deadline) (hle : deadline ≤ deadline') :
    env.sleepEnd (min wake deadline') s time = (u, sleep) := by
  cases sleep with
  | woken =>
    have hu := env.sleepEnd_woken h
    have hearly := hsleep rfl
    have hwake : min wake deadline' = min wake deadline := by omega
    rw [hwake]
    exact h
  | interrupted =>
    simp only [sleepEnd] at h ⊢
    split at h
    · rename_i hi
      rw [interruption?_later hi (by omega)]
      exact h
    · cases h

end Environment

/-! ## Two waits side by side -/

namespace Polling

variable {p p' : Polling β α} {env : Environment σ} {deadline deadline' time fuel fuel' : Nat}
  {b : β} {s : σ}

/-- The waits judge replies alike and pause alike. -/
structure SameRounds (p p' : Polling β α) : Prop where
  judge : p'.judge = p.judge
  beforeSleep : p'.beforeSleep = p.beforeSleep
  poll : p'.bounds.poll = p.bounds.poll

/-- A wait is given up by an error of its own that says so. -/
def GivenUp (p : Polling β α) (c : Course σ α) : Prop :=
  ∃ b, c.result = .error (.error (p.timeout b))

/-- **With more time a wait goes the same way**, unless it is given up. -/
theorem run_loop_later (same : p.SameRounds p') (interval : 0 < p.bounds.poll.millis)
    (hle : deadline ≤ deadline') (hfuel : deadline - time < fuel)
    (hfuel' : deadline' - time < fuel')
    (kept : ¬ p.GivenUp (env.run (p.loop deadline fuel b) s time)) :
    env.run (p'.loop deadline' fuel' b) s time = env.run (p.loop deadline fuel b) s time := by
  -- round by round both polls hear the same reply at the same time, up to the last round
  induction fuel generalizing fuel' b s time with
  | zero => omega
  | succ fuel ih =>
    obtain ⟨fuel', rfl⟩ : ∃ n, fuel' = n + 1 := ⟨fuel' - 1, by omega⟩
    cases hpre : env.preempts s time with
    | true => rw [run_loop_preempted hpre, run_loop_preempted hpre]
    | false =>
      rcases hpoll : env.pollEnd deadline s time with ⟨t, _ | _ | _, s'⟩
      case late =>
        rw [run_loop_late hpre hpoll] at kept
        exact absurd ⟨b, rfl⟩ kept
      case interrupted =>
        have hpoll' := Environment.pollEnd_later hpoll nofun hle
        rw [run_loop_interrupted hpre hpoll, run_loop_interrupted hpre hpoll']
      case arrived reply =>
        have hears : Hears env deadline s time reply t s' := ⟨hpre, hpoll⟩
        have hears' : Hears env deadline' s time reply t s' :=
          ⟨hpre, Environment.pollEnd_later hpoll nofun hle⟩
        obtain ⟨delay, -, ht, -⟩ := env.pollEnd_arrived hpoll
        rcases hj : p.judge b reply with ⟨ns, r | b'⟩
        · have hj' : p'.judge b reply = (ns, .decided r) := by rw [same.judge, hj]
          rw [run_loop_decided hears hj, run_loop_decided hears' hj']
        · have hj' : p'.judge b reply = (ns, .undecided b') := by rw [same.judge, hj]
          rw [run_loop_undecided hears hj] at kept ⊢
          rw [run_loop_undecided hears' hj']
          congr 1
          by_cases hclock : t + p.bounds.poll.millis < Program.clockEnd
          · have hclock' : t + p'.bounds.poll.millis < Program.clockEnd := by rwa [same.poll]
            rcases hs : env.sleepEnd (min (t + p.bounds.poll.millis) deadline) s' t with ⟨u, _ | _⟩
            case interrupted =>
              have hs' := Environment.sleepEnd_later hs nofun hle
              rw [← same.poll] at hs'
              rw [resume_disturbed hclock hs, resume_disturbed hclock' hs', same.beforeSleep]
            case woken =>
              by_cases hend : deadline ≤ u
              · rw [resume_expired hclock hs hend] at kept
                exact absurd ⟨b', rfl⟩ kept
              · have hgo : u < deadline := Nat.lt_of_not_le hend
                have hu := env.sleepEnd_woken hs
                have hs' := Environment.sleepEnd_later hs (fun _ => hgo) hle
                rw [← same.poll] at hs'
                rw [resume_again hclock hs hgo] at kept ⊢
                rw [resume_again hclock' hs' (by omega), same.beforeSleep,
                  ih (by omega) (by omega) kept]
          · have hover := Nat.le_of_not_lt hclock
            rw [resume_overflow hover, resume_overflow (by rwa [same.poll])]

/-- The same of whole waits, of which the longer one fits the clock. -/
theorem run_wait_later (same : p.SameRounds p') (interval : 0 < p.bounds.poll.millis)
    (longer : p.bounds.timeout.millis ≤ p'.bounds.timeout.millis)
    (fits : time + p'.bounds.timeout.millis < Program.clockEnd)
    (kept : ¬ p.GivenUp (env.run (p.wait b) s time)) :
    env.run (p'.wait b) s time = env.run (p.wait b) s time := by
  have hfits : time + p.bounds.timeout.millis < Program.clockEnd := by omega
  rw [p.run_wait_of_fits env b s hfits] at kept ⊢
  rw [p'.run_wait_of_fits env b s fits]
  exact run_loop_later same interval (by omega) (p.lt_fuel time) (p'.lt_fuel time) kept

end Polling

/-! ## Watches and the wait for brokers -/

/-- The run ended otherwise than by using up the time of a wait. -/
def Course.InTime (c : Course σ α) : Prop :=
  ∀ e, c.result = .error (.error e) → ¬ e.IsTimeout

theorem Course.InTime.not_givenUp {c : Course σ α} (h : c.InTime) {p : Polling β α}
    (htimeout : ∀ b, (p.timeout b).IsTimeout) : ¬ p.GivenUp c := by
  rintro ⟨b, hb⟩
  exact h _ hb (htimeout b)

/-- **Longer bounds are conservative.** A watch that ends in time, and so with an outcome, a failed
change or an error of the client, takes the very same course with any longer bound that fits the
clock: it makes the same queries at the same times and ends in the same way at the same time. So
does the wait for brokers. -/
theorem waits_prolonged (env : Environment σ) (poll bound bound' : Duration) (s : σ) (time : Nat)
    (interval : 0 < poll.millis) (longer : bound.millis ≤ bound'.millis)
    (fits : time + bound'.millis < Program.clockEnd) :
    (∀ change, (env.run (Watch.wait ⟨poll, bound⟩ change) s time).InTime →
      env.run (Watch.wait ⟨poll, bound'⟩ change) s time =
        env.run (Watch.wait ⟨poll, bound⟩ change) s time) ∧
    ∀ expected, (env.run (Failover.awaitBrokers expected ⟨poll, bound⟩) s time).InTime →
      env.run (Failover.awaitBrokers expected ⟨poll, bound'⟩) s time =
        env.run (Failover.awaitBrokers expected ⟨poll, bound⟩) s time := by
  refine ⟨fun change inTime => ?_, fun expected inTime => ?_⟩
  · have same : (Watch.polling ⟨poll, bound⟩).SameRounds (Watch.polling ⟨poll, bound'⟩) :=
      ⟨rfl, rfl, rfl⟩
    exact Polling.run_wait_later same interval longer fits
      (inTime.not_givenUp fun _ => .timeout)
  · have same : (Failover.polling expected ⟨poll, bound⟩).SameRounds
        (Failover.polling expected ⟨poll, bound'⟩) := ⟨rfl, rfl, rfl⟩
    exact Polling.run_wait_later same interval longer fits
      (inTime.not_givenUp fun _ => .brokersNotReady)

/-- A world in which the first query fails after five milliseconds and the others take one to show a
broker and that the change `7` has ended. -/
def hesitant : Script where
  queries := [some (5, .error (.transport "connection reset")),
    some (1, .ok ⟨1, none, [⟨0, "ACTIVE", 1, []⟩], some ⟨7, "COMPLETED", none, none⟩, none, none⟩)]
  submission := none

/-- The second reply comes at the very end of the shorter bound. -/
theorem waits_prolonged_atDeadline :
    let watch bound := hesitant.environment.run (Watch.wait ⟨⟨10⟩, bound⟩ (some 7)) hesitant.queries 3
    let brokers bound :=
      hesitant.environment.run (Failover.awaitBrokers 1 ⟨⟨10⟩, bound⟩) hesitant.queries 3
    0 < 10 ∧ 16 ≤ 1000 ∧ 3 + 1000 < Program.clockEnd ∧
      (watch ⟨16⟩).InTime ∧ (watch ⟨16⟩).time = 3 + 16 ∧ watch ⟨1000⟩ = watch ⟨16⟩ ∧
      (watch ⟨1000⟩).result = .ok (.completed 7) ∧
      (watch ⟨1000⟩).calls = [(3, .query), (18, .query)] ∧
      (brokers ⟨16⟩).InTime ∧ brokers ⟨1000⟩ = brokers ⟨16⟩ := by
  intro watch brokers
  have interval : 0 < 10 := by decide
  have longer : 16 ≤ 1000 := by decide
  have fits : 3 + 1000 < Program.clockEnd := by decide
  obtain ⟨hwatch, hbrokers⟩ := waits_prolonged hesitant.environment ⟨10⟩ ⟨16⟩ ⟨1000⟩
    hesitant.queries 3 interval longer fits
  have hresult : (watch ⟨16⟩).result = .ok (.completed 7) := rfl
  have inTime : (watch ⟨16⟩).InTime := by
    intro e he
    rw [hresult] at he
    cases he
  have inTime' : (brokers ⟨16⟩).InTime := by
    intro e he
    have hbrokers : (brokers ⟨16⟩).result.isOk = true := rfl
    rw [he] at hbrokers
    cases hbrokers
  have hsame : watch ⟨1000⟩ = watch ⟨16⟩ := hwatch (some 7) inTime
  refine ⟨interval, longer, fits, inTime, rfl, hsame, ?_, ?_, inTime', hbrokers 1 inTime'⟩
  · rw [hsame, hresult]
  · rw [hsame]
    rfl

end ClusterScaling
