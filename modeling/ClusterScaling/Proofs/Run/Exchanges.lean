import ClusterScaling.Proofs.Run.Course

/-!
# Exchanges in order

Properties of the list of exchanges of a run. `Preceded x P Q` puts each `Q` after a `P`, and
`Begins c value next x` describes the exchanges of a program that makes the call `c` and goes on
only with its success (`Environment.begins_bind`).
-/

namespace ClusterScaling

variable {σ α β : Type}

/-! ## Splits of lists -/

section
variable {γ : Type} {x y x' y' : List γ} {u u' : γ} {P : γ → Prop}

/-- An element with a property that those of `x` do not have comes after `x`. -/
theorem split_of_forall_not (h : x ++ y = x' ++ u :: y') (hx : ∀ e ∈ x, ¬ P e) (hu : P u) :
    ∃ m, x' = x ++ m ∧ y = m ++ u :: y' := by
  rcases List.append_eq_append_iff.1 h with ⟨m, hx', hy⟩ | ⟨m, hx', hy⟩
  · exact ⟨m, hx', hy⟩
  · cases m with
    | nil => exact ⟨[], by simpa using hx'.symm, by simpa using hy.symm⟩
    | cons e m =>
      obtain ⟨rfl, -⟩ := List.cons.inj hy
      exact absurd hu (hx u (by simp [hx']))

/-- A list splits in one way around the only element with a property. -/
theorem split_unique (h : x ++ u :: y = x' ++ u' :: y') (hx : ∀ e ∈ x, ¬ P e)
    (hy : ∀ e ∈ y, ¬ P e) (hu : P u') : x = x' ∧ u = u' ∧ y = y' := by
  obtain ⟨m, rfl, hm⟩ := split_of_forall_not h hx hu
  cases m with
  | nil => simpa using hm
  | cons e m =>
    obtain ⟨-, rfl⟩ := List.cons.inj hm
    exact absurd hu (hy u' (by simp))

/-- A list splits in one way around the first element with a property. -/
theorem split_first (h : x ++ u :: y = x' ++ u' :: y') (hx : ∀ e ∈ x, ¬ P e) (hu : P u)
    (hx' : ∀ e ∈ x', ¬ P e) (hu' : P u') : x = x' ∧ u = u' ∧ y = y' := by
  obtain ⟨m, rfl, hm⟩ := split_of_forall_not h hx hu'
  cases m with
  | nil => simpa using hm
  | cons e m =>
    obtain ⟨rfl, -⟩ := List.cons.inj hm
    exact absurd hu (hx' u (by simp))

end

namespace Call

/-- Whether the call submits a change request. -/
def isSubmission : Call → Bool
  | submit _ _ => true
  | _ => false

/-- Whether the call changes the capacity for brokers. -/
def isScaling : Call → Bool
  | scaleBrokers _ => true
  | _ => false

end Call

namespace Exchange

def calls (x : List (Exchange σ)) : List Call := x.map Exchange.call

@[simp] theorem calls_nil : calls ([] : List (Exchange σ)) = [] := rfl

@[simp] theorem calls_cons (e : Exchange σ) (x : List (Exchange σ)) :
    calls (e :: x) = e.call :: calls x := rfl

@[simp] theorem calls_append (x y : List (Exchange σ)) :
    calls (x ++ y) = calls x ++ calls y := List.map_append

theorem not_mem_calls {c : Call} {x : List (Exchange σ)} (h : ∀ e ∈ x, e.call ≠ c) :
    c ∉ calls x := fun hm => by
  obtain ⟨e, he, hc⟩ := List.mem_map.1 hm
  exact h e he hc

theorem countP_calls_eq_zero {f : Call → Bool} {x : List (Exchange σ)}
    (h : ∀ e ∈ x, f e.call = false) : (calls x).countP f = 0 := by
  refine List.countP_eq_zero.2 fun c hm => ?_
  obtain ⟨e, he, rfl⟩ := List.mem_map.1 hm
  simp [h e he]

theorem scaleBrokers_not_mem_calls {x : List (Exchange σ)}
    (h : ∀ e ∈ x, e.call.isScaling = false) (n : UInt32) : .scaleBrokers n ∉ calls x :=
  not_mem_calls fun e he hc => by
    have := h e he
    rw [hc] at this
    cases this

theorem isSubmission_of_response? {e : Exchange σ} {r : ChangeResponse}
    (h : e.response? = some r) : e.call.isSubmission = true := by
  unfold response? at h
  split at h
  · rfl
  · cases h

/-- Each exchange of `x` with the property `Q` comes after one with the property `P`. -/
def Preceded (x : List (Exchange σ)) (P Q : Exchange σ → Prop) : Prop :=
  ∀ before e after, x = before ++ e :: after → Q e → ∃ d ∈ before, P d

variable {x y : List (Exchange σ)} {P Q : Exchange σ → Prop} {e : Exchange σ}

theorem Preceded.of_forall_not (h : ∀ e ∈ x, ¬ Q e) : Preceded x P Q :=
  fun before e after hx hq => absurd hq (h e (by simp [hx]))

@[simp] theorem preceded_nil : Preceded ([] : List (Exchange σ)) P Q := .of_forall_not (by simp)

theorem preceded_cons_iff : Preceded (e :: x) P Q ↔ ¬ Q e ∧ (P e ∨ Preceded x P Q) := by
  constructor
  · intro h
    constructor
    · intro hq
      obtain ⟨d, hd, -⟩ := h [] e x rfl hq
      cases hd
    · by_cases hp : P e
      · exact .inl hp
      · refine .inr fun before d after hx hq => ?_
        obtain ⟨d', hd', hP⟩ := h (e :: before) d after (by simp [hx]) hq
        rcases List.mem_cons.1 hd' with rfl | hd'
        · exact absurd hP hp
        · exact ⟨d', hd', hP⟩
  · rintro ⟨hn, h⟩ before d after hx hq
    cases before with
    | nil =>
      obtain ⟨rfl, rfl⟩ := List.cons.inj hx
      exact absurd hq hn
    | cons b before =>
      obtain ⟨rfl, hrest⟩ := List.cons.inj hx
      rcases h with hp | h
      · exact ⟨_, List.mem_cons_self, hp⟩
      · obtain ⟨d', hd', hP⟩ := h before d after hrest hq
        exact ⟨d', List.mem_cons_of_mem _ hd', hP⟩

/-- `x` begins with the call `c`. It ends there unless `value` reads a value off the reply, with
which it goes on as `next` says. -/
def Begins (c : Call) (value : Exchange σ → Option α)
    (next : Exchange σ → α → List (Exchange σ) → Prop) (x : List (Exchange σ)) : Prop :=
  ∃ e rest, x = e :: rest ∧ e.call = c ∧ (value e = none → rest = []) ∧
    ∀ a, value e = some a → next e a rest

/-- The call fails and is the last, or it gives the value with which `x` goes on. -/
theorem Begins.cases {c : Call} {value : Exchange σ → Option α}
    {next : Exchange σ → α → List (Exchange σ) → Prop} (h : Begins c value next x) :
    ∃ e rest, x = e :: rest ∧ e.call = c ∧
      (value e = none ∧ rest = [] ∨ ∃ a, value e = some a ∧ next e a rest) := by
  obtain ⟨e, rest, hx, hc, hend, hgo⟩ := h
  refine ⟨e, rest, hx, hc, ?_⟩
  cases hv : value e with
  | none => exact .inl ⟨rfl, hend hv⟩
  | some a => exact .inr ⟨a, rfl, hgo a hv⟩

/-- What a call is followed by, together with it. -/
theorem Begins.forall_call {c : Call} {value : Exchange σ → Option α}
    {next : Exchange σ → α → List (Exchange σ) → Prop} (h : Begins c value next x)
    {P : Call → Prop} (hc : P c) (hnext : ∀ e a y, next e a y → ∀ d ∈ y, P d.call) :
    ∀ d ∈ x, P d.call := by
  obtain ⟨e, rest, rfl, he, hrest⟩ := h.cases
  intro d hd
  rcases List.mem_cons.1 hd with rfl | hd
  · rw [he]
    exact hc
  · rcases hrest with ⟨-, rfl⟩ | ⟨a, -, hn⟩
    · cases hd
    · exact hnext e a rest hn d hd

end Exchange

namespace Environment

variable (env : Environment σ)

open Exchange

/-- A program that goes on with the value of a call begins with that call. -/
theorem begins_bind {p : Program α} {c : Call} {value : Exchange σ → Option α}
    {f : α → Program β} {s : σ} {time : Nat}
    {next : Exchange σ → α → List (Exchange σ) → Prop}
    (h : ∃ e, Asked c value (env.run p s time) e)
    (hnext : ∀ e a, value e = some a → next e a (env.run (f a) e.state e.finish).exchanges) :
    Begins c value next (env.run (p >>= f) s time).exchanges := by
  obtain ⟨e, hcall, hevents, hstate, htime, hresult⟩ := h
  rcases env.run_bind_cases p f s time with ⟨a, ha, hrun⟩ | ⟨stop, hstop, hrun⟩
  · have hv : value e = some a := (hresult a).1 ha
    refine ⟨e, (env.run (f a) e.state e.finish).exchanges, ?_, hcall, ?_, ?_⟩
    · rw [hrun, hevents, hstate, htime]
      simp
    · intro hnone
      rw [hv] at hnone
      cases hnone
    · intro b hb
      obtain rfl : a = b := Option.some.inj (hv.symm.trans hb)
      exact hnext e a hv
  · refine ⟨e, [], ?_, hcall, fun _ => rfl, fun a ha => ?_⟩
    · rw [hrun, Course.exchanges_stopped, Course.exchanges_eq, hevents]
      rfl
    · rw [(hresult a).2 ha] at hstop
      cases hstop

end Environment

end ClusterScaling
