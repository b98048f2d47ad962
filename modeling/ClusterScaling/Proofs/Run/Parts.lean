import ClusterScaling.Proofs.Run.Course

/-!
# Parts of runs

`env.Reaches q s' time' p s time es`: after the events `es`, a run of the program `p` comes to its
part `q`, in the state `s'` at `time'`. A part that fails is the end of the whole run
(`Environment.Reaches.run_of_error`). `Environment.FailsIn` says which parts can end a program with
an error.
-/

namespace ClusterScaling

variable {σ α β : Type}

namespace Environment

/-- A run comes to a part of its program (module doc). -/
inductive Reaches (env : Environment σ) (q : Program β) (s' : σ) (time' : Nat) :
    {α : Type} → Program α → σ → Nat → List (Event σ) → Prop
  | here : Reaches env q s' time' q s' time' []
  | first {α γ : Type} {p : Program γ} {f : γ → Program α} {s : σ} {time : Nat}
      {es : List (Event σ)} : Reaches env q s' time' p s time es →
      Reaches env q s' time' (p >>= f) s time es
  | next {α γ : Type} {p : Program γ} {f : γ → Program α} {s : σ} {time : Nat} {c : γ}
      {es : List (Event σ)} : (env.run p s time).result = .ok c →
      Reaches env q s' time' (f c) (env.run p s time).state (env.run p s time).time es →
      Reaches env q s' time' (p >>= f) s time ((env.run p s time).events ++ es)

variable {env : Environment σ} {p : Program α} {q : Program β} {s s' : σ} {time time' : Nat}
  {es : List (Event σ)} {e : Stop}

/-- **A run ends with the part that fails.** -/
theorem Reaches.run_of_error (h : env.Reaches q s' time' p s time es)
    (hq : (env.run q s' time').result = .error e) :
    env.run p s time = ⟨es ++ (env.run q s' time').events, (env.run q s' time').time,
      (env.run q s' time').state, .error e⟩ := by
  induction h with
  | here => rw [List.nil_append, ← hq]
  | @first _ _ p f s time es _ ih =>
    rcases env.run_bind_cases p f s time with ⟨c, hc, -⟩ | ⟨stop, hstop, hrun⟩
    · rw [ih] at hc
      cases hc
    · rw [ih] at hstop
      obtain rfl := Except.error.inj hstop
      rw [hrun, ih]
      rfl
  | @next _ _ p f s time c es hc _ ih =>
    rw [env.run_bind, Course.andThen, hc]
    dsimp only
    rw [ih, Course.after, List.append_assoc]

/-- When a run of the program ends with the error, it does so with a part that is as `Q` says. -/
def FailsIn (env : Environment σ) (e : Stop) (Q : ∀ {β : Type}, Program β → Prop)
    (p : Program α) : Prop :=
  ∀ s time, (env.run p s time).result = .error e →
    ∃ (β : Type) (q : Program β) (s' : σ) (time' : Nat) (es : List (Event σ)),
      Q q ∧ env.Reaches q s' time' p s time es ∧ (env.run q s' time').result = .error e

variable {Q : ∀ {β : Type}, Program β → Prop}

theorem failsIn_self (h : Q p) : env.FailsIn e Q p :=
  fun s time he => ⟨α, p, s, time, [], h, .here, he⟩

theorem failsIn_of_ne (h : ∀ s time, (env.run p s time).result ≠ .error e) : env.FailsIn e Q p :=
  fun s time he => absurd he (h s time)

/-- The rule of sequence. -/
theorem FailsIn.bind {f : α → Program β} (hp : env.FailsIn e Q p)
    (hf : ∀ a, env.FailsIn e Q (f a)) : env.FailsIn e Q (p >>= f) := by
  intro s time he
  rcases env.run_bind_cases p f s time with ⟨a, ha, hrun⟩ | ⟨stop, hstop, hrun⟩
  · rw [hrun, Course.after_result] at he
    obtain ⟨γ, q, s', time', es, hq, hreaches, hqe⟩ := hf a _ _ he
    exact ⟨γ, q, s', time', _, hq, .next ha hreaches, hqe⟩
  · obtain rfl : stop = e := by
      rw [hrun] at he
      exact Except.error.inj he
    obtain ⟨γ, q, s', time', es, hq, hreaches, hqe⟩ := hp s time hstop
    exact ⟨γ, q, s', time', es, hq, .first hreaches, hqe⟩

theorem failsIn_pure (a : α) : env.FailsIn e Q (pure a : Program α) :=
  failsIn_of_ne fun _ _ => nofun

theorem failsIn_tell (ns : List Notice) : env.FailsIn e Q (Program.tell ns) :=
  failsIn_of_ne fun _ _ => nofun

theorem failsIn_fail {e' : ScaleError} (h : .error e' ≠ e) :
    env.FailsIn e Q (Program.fail e' : Program α) :=
  failsIn_of_ne fun _ _ he => h (Except.error.inj he)

theorem failsIn_ofExcept {r : Except ScaleError α} (h : ∀ e', r = .error e' → .error e' ≠ e) :
    env.FailsIn e Q (Program.ofExcept r) := by
  cases r with
  | ok a => exact failsIn_pure a
  | error e' => exact failsIn_fail (h e' rfl)

/-- A call fails with an error that its reply is read as, or it is never answered. -/
theorem failsIn_call {c : Call} {read : c.Reply → Except ScaleError α}
    (hread : ∀ r e', read r = .error e' → .error e' ≠ e) (hnever : .endless ≠ e) :
    env.FailsIn e Q (.call c fun r => .ofExcept (read r)) := by
  refine failsIn_of_ne fun s time he => ?_
  rcases h : env.answer c s time with ⟨_ | ⟨delay, r⟩, s'⟩
  · simp only [run, h] at he
    exact hnever (Except.error.inj he)
  · simp only [run, h, Course.after_result] at he
    cases hr : read r with
    | ok a =>
      rw [hr] at he
      cases he
    | error e' =>
      rw [hr] at he
      exact hread r e' hr (Except.error.inj he)

end Environment

end ClusterScaling
