import ClusterScaling.Run.Environment

/-!
# The stop flag

The stop signal is a flag, which is down at first. Its holder sets it, and is gone one day. A wait
looks at the flag when it starts and then each time it was set, until it finds it up; when the
holder is gone it does not look any more (`noticed`). So each wait finds out for itself what
happened before it, and `Environment.watching` is a world in which a flag gives the signal.
-/

namespace ClusterScaling

/-- What happens to a flag. -/
inductive FlagEvent where
  | set (raised : Bool)
  /-- The holder is gone. -/
  | dropped
deriving DecidableEq, Repr

/-- When one who looks at a flag from `time` on finds it up, if ever, where the flag was `raised` or
not so far, and what comes is still to happen. -/
def noticed (time : Nat) (raised : Bool) : List (Nat × FlagEvent) → Option Nat
  | [] => if raised then some time else none
  | (t, e) :: later =>
    if raised && time < t then some time
    else
      match e with
      | .dropped => if raised then some time else none
      | .set up => noticed (max time t) up later

/-- A flag with its history, which is in the order of the times. -/
structure Flag where
  history : List (Nat × FlagEvent)

namespace Flag

/-- When one who looks at the flag from `time` on finds it up, if ever. -/
def seen (f : Flag) (time : Nat) : Option Nat := noticed time false f.history

/-- Once it is up, the flag stays up. -/
structure Steady (f : Flag) : Prop where
  inOrder : f.history.Pairwise fun a b => a.1 ≤ b.1
  kept : f.history.Pairwise fun a b => a.2 = .set true → b.2 ≠ .set false

/-- The flag is raised at `t` for the first time. -/
def RaisedAt (f : Flag) (t : Nat) : Prop :=
  ∃ before after, f.history = before ++ (t, .set true) :: after ∧
    ∀ e ∈ before, e.2 = .set false

end Flag

/-- The world in which a flag gives the stop signal; without a flag there is none. -/
def Environment.watching {σ : Type} (env : Environment σ) (flag : Option Flag) : Environment σ :=
  { env with signal := fun _ => flag.bind fun f => f.seen 0 }

/-! ## When a flag is seen -/

variable {time t : Nat} {h : List (Nat × FlagEvent)} {f : Flag}

theorem noticed_of_raised (kept : ∀ e ∈ h, e.2 ≠ .set false) : noticed time true h = some time := by
  induction h generalizing time with
  | nil => rfl
  | cons e h ih =>
    obtain ⟨t, e⟩ := e
    by_cases ht : time < t
    · simp [noticed, ht]
    · cases e with
      | dropped => simp [noticed]
      | set up =>
        cases up with
        | false => exact absurd rfl (kept (t, .set false) List.mem_cons_self)
        | true =>
          have hrest : noticed (max time t) true h = some (max time t) :=
            ih fun e he => kept e (List.mem_cons_of_mem _ he)
          have hmax : max time t = time := by omega
          simpa [noticed, ht, hmax] using hrest

/-- Who looks later finds the flag up at once, if it is up by then. -/
theorem noticed_eq (kept : h.Pairwise fun a b => a.2 = .set true → b.2 ≠ .set false) :
    noticed time false h = (noticed 0 false h).map (max time) := by
  induction h generalizing time with
  | nil => rfl
  | cons e h ih =>
    obtain ⟨t, e⟩ := e
    obtain ⟨hfirst, hrest⟩ := List.pairwise_cons.1 kept
    cases e with
    | dropped => rfl
    | set up =>
      cases up with
      | true =>
        have hraised : ∀ e ∈ h, e.2 ≠ .set false := fun e he => hfirst e he rfl
        simp [noticed, noticed_of_raised hraised]
      | false =>
        have hnext : ∀ time, noticed time false ((t, .set false) :: h) =
            (noticed 0 false h).map (max (max time t)) := fun time => ih hrest
        rw [hnext, hnext, Option.map_map]
        congr 1
        funext u
        simp only [Function.comp_apply]
        omega

theorem noticed_eq_none (down : ∀ e ∈ h, e.2 ≠ .set true) : noticed time false h = none := by
  induction h generalizing time with
  | nil => rfl
  | cons e h ih =>
    obtain ⟨t, e⟩ := e
    obtain ⟨hfirst, hrest⟩ := List.forall_mem_cons.1 down
    cases e with
    | dropped => rfl
    | set up =>
      cases up with
      | true => exact absurd rfl hfirst
      | false => exact ih hrest

/-- The first of the events, as long as the flag is only set to stay down, that raises it at `t`. -/
theorem raisedAt_cons_iff {e : FlagEvent} {u : Nat} :
    (⟨(u, e) :: h⟩ : Flag).RaisedAt t ↔
      u = t ∧ e = .set true ∨ e = .set false ∧ (⟨h⟩ : Flag).RaisedAt t := by
  constructor
  · rintro ⟨_ | ⟨d, before⟩, after, hx, hdown⟩
    · obtain ⟨⟨⟩, -⟩ := List.cons.inj hx
      exact .inl ⟨rfl, rfl⟩
    · obtain ⟨rfl, rfl⟩ := List.cons.inj hx
      exact .inr ⟨hdown _ List.mem_cons_self, before, after, rfl,
        fun e he => hdown e (List.mem_cons_of_mem _ he)⟩
  · rintro (⟨rfl, rfl⟩ | ⟨rfl, before, after, rfl, hdown⟩)
    · exact ⟨[], h, rfl, by simp⟩
    · exact ⟨(u, .set false) :: before, after, rfl, by simpa using hdown⟩

theorem noticed_eq_some_iff (inOrder : h.Pairwise fun a b => a.1 ≤ b.1)
    (kept : h.Pairwise fun a b => a.2 = .set true → b.2 ≠ .set false)
    (ahead : ∀ e ∈ h, time ≤ e.1) :
    noticed time false h = some t ↔ (⟨h⟩ : Flag).RaisedAt t := by
  induction h generalizing time with
  | nil => simp [noticed, Flag.RaisedAt]
  | cons e h ih =>
    obtain ⟨u, e⟩ := e
    obtain ⟨hfrom, hinOrder⟩ := List.pairwise_cons.1 inOrder
    obtain ⟨hup, hkept⟩ := List.pairwise_cons.1 kept
    have hmax : max time u = u := Nat.max_eq_right (ahead (u, e) List.mem_cons_self)
    rw [raisedAt_cons_iff]
    cases e with
    | dropped => simp [noticed]
    | set up =>
      cases up with
      | true =>
        have hraised : ∀ e ∈ h, e.2 ≠ .set false := fun e he => hup e he rfl
        simp [noticed, noticed_of_raised hraised, hmax]
      | false =>
        have hrest : noticed u false h = some t ↔ (⟨h⟩ : Flag).RaisedAt t :=
          ih hinOrder hkept hfrom
        simpa [noticed, hmax] using hrest

namespace Flag

/-- Who looks at the flag later finds it up at once, if it is up by then. -/
theorem Steady.seen_eq (steady : f.Steady) (time : Nat) :
    f.seen time = (f.seen 0).map (max time) :=
  noticed_eq steady.kept

theorem Steady.seen_eq_some_iff (steady : f.Steady) : f.seen 0 = some t ↔ f.RaisedAt t :=
  noticed_eq_some_iff steady.inOrder steady.kept fun _ _ => Nat.zero_le _

theorem seen_eq_none (down : ∀ e ∈ f.history, e.2 ≠ .set true) : f.seen time = none :=
  noticed_eq_none down

/-- The signal ends a wait in the world of the flag when one who looks at the flag during the wait
finds it up. -/
theorem Steady.interruption?_seen (steady : f.Steady) {wins : Bool} {ready : Nat}
    (h : time ≤ ready) :
    interruption? (f.seen 0) wins time ready =
      (f.seen time).filter fun u => u < ready || (u == ready && wins) := by
  rw [steady.seen_eq time]
  cases f.seen 0 with
  | none => rfl
  | some u =>
    by_cases hu : u ≤ time
    · have hready : time = ready ∨ time < ready := by omega
      rcases hready with rfl | hready
      · cases wins <;> simp [interruption?, hu, Option.filter]
      · cases wins <;> simp [interruption?, hu, hready, Option.filter]
    · have hmax : max time u = u := by omega
      by_cases hlt : u < ready || (u == ready && wins) <;>
        simp [interruption?, hu, hmax, hlt, Option.filter]

end Flag

end ClusterScaling
