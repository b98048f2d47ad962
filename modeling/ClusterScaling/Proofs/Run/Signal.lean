import ClusterScaling.Proofs.Run.Waits

/-!
# The stop signal during a wait

A wait is ended by the signal when it comes, or at once if it came before the wait
(`interruption?_eq_some`, `interruption?_eq_none`). `Polling.Waits.signalled` bounds the time of a
wait by it, and the number of the queries that are made although the signal has come.
-/

namespace ClusterScaling

variable {σ α β : Type}

/-! ## One query or sleep -/

section
variable {signal : Option Nat} {wins : Bool} {start ready t u : Nat}

theorem interruption?_eq_some (h : interruption? signal wins start ready = some u) :
    ∃ t, signal = some t ∧ u = max start t := by
  cases signal with
  | none => cases h
  | some t =>
    refine ⟨t, rfl, ?_⟩
    simp only [interruption?] at h
    split at h
    · split at h
      · obtain rfl := Option.some.inj h
        omega
      · cases h
    · split at h
      · obtain rfl := Option.some.inj h
        omega
      · cases h

theorem interruption?_eq_none (h : interruption? (some t) wins start ready = none) :
    ready ≤ max start t := by
  simp only [interruption?] at h
  split at h
  · split at h
    · cases h
    · rename_i hn
      have : ¬ start < ready := fun hlt => hn (by simp [hlt])
      omega
  · split at h
    · cases h
    · rename_i hn
      have : ¬ t < ready := fun hlt => hn (by simp [hlt])
      omega

end

namespace Environment

variable {env : Environment σ} {limit wake time t u : Nat} {s s' : σ} {poll : Poll}

theorem signal_of_preempts (h : env.preempts s time = true) :
    ∃ t, env.signal s = some t ∧ t ≤ time := by
  simp only [preempts, Bool.and_eq_true, Option.any_eq_true, decide_eq_true_eq] at h
  exact h.2

theorem pollEnd_interrupted (h : env.pollEnd limit s time = (u, .interrupted, s')) :
    ∃ t, env.signal s' = some t ∧ u = max time t := by
  unfold pollEnd at h
  rcases ha : env.answer .query s time with ⟨reply, s₁⟩
  simp only [ha] at h
  split at h
  · rename_i hi
    obtain ⟨rfl, -, rfl⟩ : _ = u ∧ _ ∧ s₁ = s' := by simpa only [Prod.mk.injEq] using h
    exact interruption?_eq_some hi
  · obtain ⟨-, harrival, -⟩ : _ ∧ (arrival limit time reply).2 = .interrupted ∧ _ := by
      simpa using h
    unfold arrival at harrival
    split at harrival
    · cases harrival
    · split at harrival <;> cases harrival

/-- A query goes on no longer than up to the signal. -/
theorem pollEnd_le (h : env.pollEnd limit s time = (u, poll, s')) (ht : env.signal s' = some t) :
    u ≤ max time t := by
  unfold pollEnd at h
  rcases ha : env.answer .query s time with ⟨reply, s₁⟩
  simp only [ha] at h
  split at h
  · rename_i hi
    obtain ⟨rfl, -, rfl⟩ : _ = u ∧ _ ∧ s₁ = s' := by simpa only [Prod.mk.injEq] using h
    obtain ⟨t', ht', rfl⟩ := interruption?_eq_some hi
    obtain rfl := Option.some.inj (ht.symm.trans ht')
    exact Nat.le_refl _
  · rename_i hi
    obtain ⟨rfl, -, rfl⟩ : (arrival limit time reply).1 = u ∧ _ ∧ s₁ = s' := by simpa using h
    rw [ht] at hi
    exact interruption?_eq_none hi

theorem sleepEnd_interrupted (h : env.sleepEnd wake s time = (u, .interrupted)) :
    ∃ t, env.signal s = some t ∧ u = max time t := by
  unfold sleepEnd at h
  dsimp only at h
  split at h
  · rename_i hi
    obtain ⟨rfl, -⟩ := Prod.mk.inj h
    exact interruption?_eq_some hi
  · cases h

/-- A sleep that nothing disturbs is over when the signal comes. -/
theorem sleepEnd_woken_le (h : env.sleepEnd wake s time = (u, .woken))
    (ht : env.signal s = some t) : u ≤ max time t := by
  unfold sleepEnd at h
  dsimp only at h
  split at h
  · cases h
  · rename_i hi
    obtain ⟨rfl, -⟩ := Prod.mk.inj h
    rw [ht] at hi
    exact interruption?_eq_none hi

end Environment

/-! ## A whole wait -/

namespace Polling

/-- The course of a wait from `start` on, to which the signal comes at `t`. -/
structure Signalled (start t : Nat) (c : Course σ α) : Prop where
  start_le : start ≤ c.time
  time_le : c.time ≤ max start t
  queries_le : c.exchanges.countP (fun e => t ≤ e.start) ≤ 1

variable {p : Polling β α} {env : Environment σ} {deadline start t : Nat} {b : β} {s : σ}
  {c : Course σ α}

theorem countP_round_le (e : Exchange σ) (f : Exchange σ → Bool) (ns : List Notice) (u : Nat)
    (s' : σ) (r : Except Stop α) :
    (⟨.called e :: ns.map .told, u, s', r⟩ : Course σ α).exchanges.countP f ≤ 1 := by
  have := List.countP_le_length (p := f) (l := [e])
  simpa [Course.exchanges_eq] using this

/-- **The signal bounds a wait** if it comes before the deadline. -/
theorem Waits.signalled (h : Waits p env deadline b s start c)
    (signal : ∀ s, env.signal s = some t) (interval : 0 < p.bounds.poll.millis)
    (early : t < deadline) (begun : start < deadline) : Signalled start t c := by
  induction h with
  | preempted => exact ⟨Nat.le_refl _, Nat.le_max_left _ _, by simp [Course.exchanges_eq]⟩
  | interrupted _ hpoll =>
    obtain ⟨t', -, hu⟩ := Environment.pollEnd_interrupted hpoll
    have hle := Environment.pollEnd_le hpoll (signal _)
    exact ⟨by dsimp only; omega, hle, countP_round_le _ _ [] _ _ _⟩
  | late _ hpoll =>
    have hle := Environment.pollEnd_le hpoll (signal _)
    have hlate := env.pollEnd_late hpoll
    omega
  | decided hears _ | overflow hears =>
    obtain ⟨delay, -, hreply, -⟩ := env.pollEnd_arrived hears.arrived
    have hle := Environment.pollEnd_le hears.arrived (signal _)
    exact ⟨by dsimp only; omega, hle, countP_round_le _ _ _ _ _ _⟩
  | disturbed hears _ hs =>
    obtain ⟨delay, -, hreply, -⟩ := env.pollEnd_arrived hears.arrived
    have hle := Environment.pollEnd_le hears.arrived (signal _)
    obtain ⟨t', ht', hu⟩ := Environment.sleepEnd_interrupted hs
    obtain rfl : t = t' := Option.some.inj ((signal _).symm.trans ht')
    exact ⟨by dsimp only; omega, by dsimp only; omega, countP_round_le _ _ _ _ _ _⟩
  | expired hears _ hs hend =>
    have hle := Environment.pollEnd_le hears.arrived (signal _)
    have hwoken := Environment.sleepEnd_woken_le hs (signal _)
    omega
  | @again _ _ start _ _ _ _ _ u c hears _ hs hu _ ih =>
    -- the sleep takes its time, so the signal has not come before it is over
    obtain ⟨delay, -, hreply, -⟩ := env.pollEnd_arrived hears.arrived
    have hwake := env.sleepEnd_woken hs
    have hwoken := Environment.sleepEnd_woken_le hs (signal _)
    obtain ⟨hstart, htime, hqueries⟩ := ih (by omega)
    refine ⟨by rw [Course.after_time]; omega, by rw [Course.after_time]; omega, ?_⟩
    have hnot : ¬ t ≤ start := by omega
    simpa [List.countP_cons, hnot] using hqueries
  | idle hidle => omega

end Polling

end ClusterScaling
