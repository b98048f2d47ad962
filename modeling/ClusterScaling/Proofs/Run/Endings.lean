import ClusterScaling.Proofs.Run.Replies
import ClusterScaling.Proofs.Run.Signal

/-!
# How waits end

`Polling.Closes` says of the course of a wait which of its replies led to the result: the last one
if it was decided, and none if it was cancelled by the stop signal, timed out or overran the clock.
It holds of all courses of waits (`Polling.Waits.closes`), whatever the stop signal does.
-/

namespace ClusterScaling

open Exchange

variable {σ α β : Type}

namespace Exchange

/-- A query that was answered, and when. -/
theorem heard_eq_singleton_iff {e : Exchange σ} {t : Nat} {reply : QueryReply} :
    heard [e] = [(t, reply)] ↔ ∃ start s, e = ⟨.query, start, some reply, t, s⟩ := by
  constructor
  · intro h
    obtain ⟨call, start, reply', finish, s⟩ := e
    cases call with
    | query =>
      cases reply' with
      | none => simp [heard] at h
      | some r =>
        obtain ⟨rfl, rfl⟩ : finish = t ∧ r = reply := by simpa [heard] using h
        exact ⟨start, s, rfl⟩
    | _ => simp [heard] at h
  · rintro ⟨start, s, rfl⟩
    rfl

theorem mem_heard_iff {x : List (Exchange σ)} {t : Nat} {reply : QueryReply} :
    (t, reply) ∈ heard x ↔ ∃ e ∈ x, heard [e] = [(t, reply)] := by
  simp only [heard, List.mem_filterMap, List.filterMap_cons, List.filterMap_nil]
  refine exists_congr fun e => and_congr_right fun _ => ?_
  split <;> simp

end Exchange

namespace Polling

/-- The findings after some replies, if none of them decides the wait. -/
def learn (p : Polling β α) : β → List (Nat × QueryReply) → Option β
  | b, [] => some b
  | b, (_, reply) :: rest =>
    match (p.judge b reply).2 with
    | .decided _ => none
    | .undecided b' => p.learn b' rest

/-- Why a wait with the findings `b` ends at `time` although no reply decides it. -/
inductive GivesUp (p : Polling β α) (signal : Option Nat) (deadline : Nat) (b : β) (time : Nat) :
    Stop → Prop
  | cancelled {t} : signal = some t → t ≤ time →
      GivesUp p signal deadline b time (.error .cancelled)
  | expired : deadline ≤ time → GivesUp p signal deadline b time (.error (p.timeout b))
  | overflow : Program.clockEnd ≤ time + p.bounds.poll.millis →
      GivesUp p signal deadline b time .clockOverflow
  | idle : p.bounds.poll.millis = 0 → GivesUp p signal deadline b time .endless

/-- How the replies of a wait lead to its result (module doc). -/
inductive Closes (p : Polling β α) (env : Environment σ) (deadline : Nat) (b : β)
    (c : Course σ α) : Prop
  | decided {before e reply f r} : c.exchanges = before ++ [e] →
      heard [e] = [(c.time, reply)] → e.state = c.state → p.learn b (heard before) = some f →
      (p.judge f reply).2 = .decided r → c.result = r.mapError .error → Closes p env deadline b c
  | undecided {f stop} : p.learn b (heard c.exchanges) = some f → c.result = .error stop →
      GivesUp p (env.signal c.state) deadline f c.time stop → Closes p env deadline b c

variable {p : Polling β α} {deadline : Nat} {b b' : β} {t : Nat} {reply : QueryReply}
  {xs : List (Nat × QueryReply)} {ns : List Notice}

@[simp] theorem learn_nil : p.learn b [] = some b := rfl

theorem learn_undecided (h : p.judge b reply = (ns, .undecided b')) :
    p.learn b ((t, reply) :: xs) = p.learn b' xs := by
  simp [learn, h]

theorem learn_cons_eq_some {b'' : β} (h : p.learn b ((t, reply) :: xs) = some b'') :
    ∃ b', (p.judge b reply).2 = .undecided b' ∧ p.learn b' xs = some b'' := by
  rcases hj : p.judge b reply with ⟨ns, r | b'⟩
  · simp [learn, hj] at h
  · rw [learn_undecided hj] at h
    exact ⟨b', rfl, h⟩

/-- No reply that the findings were learned from decides the wait. -/
theorem undecided_of_learn (h : p.learn b xs = some b') :
    ∀ x ∈ xs, ∃ c c', (p.judge c x.2).2 = .undecided c' := by
  induction xs generalizing b with
  | nil => simp
  | cons x xs ih =>
    obtain ⟨c, hc, hrest⟩ := learn_cons_eq_some h
    intro y hy
    rcases List.mem_cons.1 hy with rfl | hy
    · exact ⟨b, c, hc⟩
    · exact ih hrest y hy

/-- What holds of the first findings, and after each reply that decides nothing of the next ones,
holds of the findings after all replies. -/
theorem learn_induction (P : β → List QueryReply → Prop)
    (hstep : ∀ f before reply f', P f before → (p.judge f reply).2 = .undecided f' →
      P f' (before ++ [reply]))
    {before : List QueryReply} (hstart : P b before) (h : p.learn b xs = some b') :
    P b' (before ++ xs.map Prod.snd) := by
  induction xs generalizing b before with
  | nil =>
    obtain rfl : b = b' := by simpa using h
    simpa using hstart
  | cons x xs ih =>
    obtain ⟨c, hc, hrest⟩ := learn_cons_eq_some h
    simpa using ih (hstep b before x.2 c hstart hc) hrest

/-- Replies come to the first decision among them, or to the error at the deadline if they bring
findings only. -/
theorem settle_cases (p : Polling β α) (deadline : Nat) (b : β) (xs : List (Nat × QueryReply)) :
    (∃ before t reply after f r, xs = before ++ (t, reply) :: after ∧
      p.learn b before = some f ∧ (p.judge f reply).2 = .decided r ∧
      p.settle deadline b xs = (t, r)) ∨
    ∃ f, p.learn b xs = some f ∧ p.settle deadline b xs = (deadline, .error (p.timeout f)) := by
  induction xs generalizing b with
  | nil => exact .inr ⟨b, rfl, rfl⟩
  | cons x xs ih =>
    obtain ⟨t, reply⟩ := x
    rcases hj : p.judge b reply with ⟨ns, r | b'⟩
    · exact .inl ⟨[], t, reply, xs, b, r, rfl, rfl, by rw [hj], settle_decided hj⟩
    · rw [settle_undecided hj, learn_undecided hj]
      rcases ih b' with ⟨before, u, last, after, f, r, rfl, hlearn, hr, hsettle⟩ | hnone
      · refine .inl ⟨(t, reply) :: before, u, last, after, f, r, rfl, ?_, hr, hsettle⟩
        rw [learn_undecided hj, hlearn]
      · exact .inr hnone

variable {env : Environment σ} {s : σ} {time : Nat} {c : Course σ α}

/-- A reply that decides nothing is passed over. -/
theorem Closes.after {start : Nat} {s' : σ} {ns' : List Notice} (h : Closes p env deadline b' c)
    (hj : p.judge b reply = (ns, .undecided b')) :
    Closes p env deadline b
      (c.after (.called ⟨.query, start, some reply, t, s'⟩ :: ns'.map .told)) := by
  have hx : (c.after (.called ⟨.query, start, some reply, t, s'⟩ :: ns'.map .told)).exchanges =
      ⟨.query, start, some reply, t, s'⟩ :: c.exchanges := by simp
  have hlearn : ∀ x : List (Exchange σ),
      p.learn b (heard (⟨.query, start, some reply, t, s'⟩ :: x)) = p.learn b' (heard x) :=
    fun x => learn_undecided hj
  cases h with
  | @decided before e _ _ _ hc he hs hl hd hr =>
    exact .decided (by rw [hx, hc, ← List.cons_append]) he hs (by rw [hlearn]; exact hl) hd hr
  | undecided hl hr hstop => exact .undecided (by rw [hx, hlearn]; exact hl) hr hstop

theorem exchanges_round (e : Exchange σ) (ns : List Notice) (t : Nat) (s : σ)
    (r : Except Stop α) :
    (⟨.called e :: ns.map .told, t, s, r⟩ : Course σ α).exchanges = [e] := by
  simp [Course.exchanges_eq]

/-- **All waits end in one of these ways.** -/
theorem Waits.closes (h : Waits p env deadline b s time c) : Closes p env deadline b c := by
  -- what is learned from the only reply of a round that does not go on
  have learned : ∀ {b b' : β} {ns ns' : List Notice} {start t u : Nat} {s₁ s₂ : σ}
      {reply : QueryReply} {r : Except Stop α}, p.judge b reply = (ns, .undecided b') →
      p.learn b (heard (⟨.called ⟨.query, start, some reply, t, s₁⟩ :: ns'.map .told, u, s₂, r⟩ :
        Course σ α).exchanges) = some b' := by
    intro b b' ns ns' start t u s₁ s₂ reply r hj
    rw [exchanges_round]
    exact learn_undecided hj
  induction h with
  | preempted hpre =>
    obtain ⟨t, ht, hle⟩ := Environment.signal_of_preempts hpre
    exact .undecided rfl rfl (.cancelled ht hle)
  | interrupted _ hpoll =>
    obtain ⟨t, ht, rfl⟩ := Environment.pollEnd_interrupted hpoll
    exact .undecided rfl rfl (.cancelled ht (Nat.le_max_right _ _))
  | late _ hpoll =>
    refine .undecided (by rw [exchanges_round]; rfl) rfl (.expired ?_)
    rw [env.pollEnd_late hpoll]
    exact Nat.le_max_left _ _
  | decided _ hj =>
    exact .decided ((exchanges_round _ _ _ _ _).trans (List.nil_append _).symm) rfl rfl rfl
      (by rw [hj]) rfl
  | overflow _ hj hclock => exact .undecided (learned hj) rfl (.overflow hclock)
  | disturbed _ hj hs =>
    obtain ⟨t, ht, rfl⟩ := Environment.sleepEnd_interrupted hs
    exact .undecided (learned hj) rfl (.cancelled ht (Nat.le_max_right _ _))
  | expired _ hj _ hend => exact .undecided (learned hj) rfl (.expired hend)
  | again _ hj _ _ _ ih => exact ih.after hj
  | idle hidle => exact .undecided rfl rfl (.idle hidle)

end Polling

end ClusterScaling
