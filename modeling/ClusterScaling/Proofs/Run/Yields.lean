import ClusterScaling.Proofs.Run.Replies

/-!
# Runs that end well

`Environment.Yields p Q`: whenever a run of the program `p` ends with a result, `Q` holds of it and
of the exchanges of the run. The rules follow the program: `Yields.bind` goes on after its first
part, and each call and each wait has a rule of its own.
-/

namespace ClusterScaling

variable {σ α β : Type}

namespace Environment

/-- The results of `p` and the exchanges that lead to them are as `Q` says. -/
def Yields (env : Environment σ) (p : Program α) (Q : α → List (Exchange σ) → Prop) : Prop :=
  ∀ s time a, (env.run p s time).result = .ok a → Q a (env.run p s time).exchanges

variable {env : Environment σ} {p : Program α} {Q Q' : α → List (Exchange σ) → Prop}
  {R : β → List (Exchange σ) → Prop}

theorem Yields.mono (h : env.Yields p Q) (hQ : ∀ a x, Q a x → Q' a x) : env.Yields p Q' :=
  fun s time a ha => hQ a _ (h s time a ha)

/-- **The rule of sequence.** -/
theorem Yields.bind {f : α → Program β} (hp : env.Yields p Q)
    (hf : ∀ a x, Q a x → env.Yields (f a) fun b y => R b (x ++ y)) :
    env.Yields (p >>= f) R := by
  intro s time b hb
  rcases env.run_bind_cases p f s time with ⟨a, ha, hrun⟩ | ⟨e, -, hrun⟩
  · rw [hrun, Course.after_result] at hb
    rw [hrun, Course.exchanges_after]
    exact hf a _ (hp s time a ha) _ _ b hb
  · rw [hrun] at hb
    cases hb

theorem yields_pure {a : α} (h : Q a []) : env.Yields (pure a) Q := by
  intro s time b hb
  obtain rfl : a = b := by simpa using hb
  exact h

theorem yields_fail (e : ScaleError) : env.Yields (Program.fail e) Q := nofun

theorem yields_ofExcept {r : Except ScaleError α} (h : ∀ a, r = .ok a → Q a []) :
    env.Yields (Program.ofExcept r) Q := by
  cases r with
  | ok a => exact yields_pure (h a rfl)
  | error e => exact yields_fail e

theorem yields_tell_bind {ns : List Notice} {f : Unit → Program α} (h : env.Yields (f ()) Q) :
    env.Yields (Program.tell ns >>= f) Q := by
  intro s time a ha
  rw [env.run_tell_bind] at ha ⊢
  rw [Course.exchanges_after, Course.exchangesOf_told]
  exact h s time a ha

/-- A call that succeeds is one exchange, which holds the result. -/
theorem yields_asked {c : Call} {value : Exchange σ → Option α}
    (h : ∀ s time, ∃ e, Asked c value (env.run p s time) e) :
    env.Yields p fun a x => ∃ e, x = [e] ∧ e.call = c ∧ value e = some a := by
  intro s time a ha
  obtain ⟨e, he⟩ := h s time
  refine ⟨e, ?_, he.call, (he.result a).1 ha⟩
  rw [Course.exchanges_eq, he.events]
  rfl

/-- A wait that ends well comes to what its replies come to. -/
theorem yields_wait (p : Polling β α) (b : β) :
    env.Yields (p.wait b) fun a x => (∀ e ∈ x, e.call = .query) ∧
      ∃ deadline t, p.settle deadline b (Exchange.heard x) = (t, .ok a) := by
  intro s time a ha
  refine ⟨p.wait_call_eq_query env b s time, ?_⟩
  by_cases fits : time + p.bounds.timeout.millis < Program.clockEnd
  · exact ⟨_, _, (p.waits_wait env fits).settle_heard ha⟩
  · rw [p.run_wait_of_overflow env b s (by omega)] at ha
    cases ha

end Environment

end ClusterScaling
