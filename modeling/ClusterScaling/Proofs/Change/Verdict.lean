import ClusterScaling.Change.Watch
import ClusterScaling.Proofs.Run.Endings
import ClusterScaling.Run.Script

/-!
# The verdict of a watch

`Watch.Decides` says which replies decide a watch and how, and `Watch.followed` which change is
watched. `Watch.wait_verdict` shows that a watch without a stop signal ends with the verdict of the
first reply in time that decides it, or with a timeout. Replies with a transient error have no part
in it.
-/

namespace ClusterScaling

variable {σ : Type}

namespace Watch

/-! ## Decisive replies -/

/-- The first snapshot among some replies. -/
def firstSnapshot : List QueryReply → Option Topology
  | [] => none
  | .ok t :: _ => some t
  | .error _ :: rest => firstSnapshot rest

/-- The change that is watched after some replies: the one that was asked for, or else the newest
one of the first snapshot. -/
def followed (change : Option ChangeId) (replies : List QueryReply) : Option ChangeId :=
  match requested change with
  | some c => some c
  | none => (firstSnapshot replies).bind newest

/-- The reply decides a watch with a result. The first argument is the change that is watched, if
it is known by then. -/
inductive Decides : Option ChangeId → QueryReply → Except ScaleError Outcome → Prop
  | rejected {change e} : e.isTransient = false → Decides change (.error e) (.error (.client e))
  | nothing {t} : t.pendingChange = none → t.lastChange = none →
      Decides none (.ok t) (.ok .nothingToTrack)
  | completed {t last c} : t.lastChange = some last → last.id = c → last.status = "COMPLETED" →
      Decides (some c) (.ok t) (.ok (.completed c))
  | failed {t last c} : t.lastChange = some last → last.id = c → last.status ≠ "COMPLETED" →
      Decides (some c) (.ok t) (.error (.changeFailed c last.status))
  | outdated {t last c} : t.lastChange = some last → c < last.id →
      Decides (some c) (.ok t) (.ok (.outdated c last.id))

/-- No reply decides the watch for `change`. -/
def Undecided (change : Option ChangeId) (replies : List QueryReply) : Prop :=
  ∀ before reply after, replies = before ++ reply :: after →
    ∀ v, ¬ Decides (followed change (before ++ [reply])) reply v

/-- The replies, which come at their times up to the deadline, end the watch for `change` at `t`
with the result `v`. -/
inductive Ends (change : Option ChangeId) (bound : Duration) (deadline : Nat)
    (replies : List (Nat × QueryReply)) : Nat → Except ScaleError Outcome → Prop
  | decided {before t reply after v} : replies = before ++ (t, reply) :: after →
      Undecided change (before.map Prod.snd) →
      Decides (followed change (before.map Prod.snd ++ [reply])) reply v →
      Ends change bound deadline replies t v
  | timeout : Undecided change (replies.map Prod.snd) →
      Ends change bound deadline replies deadline
        (.error (.timeout (followed change (replies.map Prod.snd)) bound))

variable {change : Option ChangeId} {replies before : List QueryReply} {reply : QueryReply}
  {t : Topology} {c : ChangeId} {v w : Except ScaleError Outcome}

/-! ## The watched change -/

theorem firstSnapshot_append (xs ys : List QueryReply) :
    firstSnapshot (xs ++ ys) = (firstSnapshot xs).or (firstSnapshot ys) := by
  induction xs with
  | nil => rfl
  | cons x xs ih => cases x <;> simp [firstSnapshot, ih]

/-- Once the change is known, it stays. -/
theorem followed_append_some (h : followed change replies = some c) (more : List QueryReply) :
    followed change (replies ++ more) = some c := by
  unfold followed at *
  cases hr : requested change with
  | some r => simpa [hr] using h
  | none =>
    simp only [hr, Option.bind_eq_some_iff] at h ⊢
    obtain ⟨t, ht, hc⟩ := h
    exact ⟨t, by simp [firstSnapshot_append, ht], hc⟩

theorem requested_eq_none (h : followed change replies = none) : requested change = none := by
  cases hr : requested change with
  | none => rfl
  | some c => simp [followed, hr] at h

theorem followed_append_error (e : ClientError) :
    followed change (replies ++ [.error e]) = followed change replies := by
  simp [followed, firstSnapshot_append, firstSnapshot]

theorem newest_eq_none_iff : newest t = none ↔ t.pendingChange = none ∧ t.lastChange = none := by
  cases hp : t.pendingChange <;> simp [newest, hp]

theorem firstSnapshot_split (h : firstSnapshot replies = some t) :
    ∃ errors rest, replies = errors ++ .ok t :: rest ∧ firstSnapshot errors = none := by
  induction replies with
  | nil => cases h
  | cons r rs ih =>
    cases r with
    | ok t' =>
      obtain rfl : t' = t := by simpa [firstSnapshot] using h
      exact ⟨[], rs, rfl, rfl⟩
    | error e =>
      obtain ⟨errors, rest, rfl, hnone⟩ := ih (by simpa [firstSnapshot] using h)
      exact ⟨.error e :: errors, rest, rfl, by simpa [firstSnapshot] using hnone⟩

/-- A watch that does not know its change has not seen any snapshot, or else it would be over. -/
theorem Undecided.firstSnapshot_eq_none (h : Undecided change replies)
    (hn : followed change replies = none) : firstSnapshot replies = none := by
  cases hs : firstSnapshot replies with
  | none => rfl
  | some t =>
    have hr := requested_eq_none hn
    have hnew : newest t = none := by simpa [followed, hr, hs] using hn
    obtain ⟨hp, hl⟩ := newest_eq_none_iff.1 hnew
    obtain ⟨errors, rest, rfl, hnone⟩ := firstSnapshot_split hs
    have hfollowed : followed change (errors ++ [.ok t]) = none := by
      simp [followed, hr, firstSnapshot_append, hnone, firstSnapshot, hnew]
    refine absurd ?_ (h errors (.ok t) rest rfl (.ok .nothingToTrack))
    rw [hfollowed]
    exact .nothing hp hl

theorem Undecided.followed_concat (h : Undecided change replies) :
    followed change (replies ++ [.ok t]) = (followed change replies).or (newest t) := by
  cases hf : followed change replies with
  | some c => exact followed_append_some hf _
  | none =>
    simp [followed, requested_eq_none hf, firstSnapshot_append, h.firstSnapshot_eq_none hf,
      firstSnapshot]

/-! ## One reply -/

theorem decides_error_iff {e : ClientError} :
    Decides change (.error e) v ↔ e.isTransient = false ∧ v = .error (.client e) := by
  constructor
  · rintro ⟨h⟩
    exact ⟨h, rfl⟩
  · rintro ⟨h, rfl⟩
    exact .rejected h

theorem Decides.unique {d : Option ChangeId} (h : Decides d reply v) (h' : Decides d reply w) :
    v = w := by
  cases h <;> cases h' <;> simp_all [Int64.lt_irrefl]

/-- The verdict on a reply is right for a watch of which the reply makes `change` known. -/
def Fits (change : Option ChangeId) (reply : QueryReply) : Verdict Findings Outcome → Prop
  | .decided v => Decides change reply v
  | .undecided f => f.tracked = change ∧ ∀ v, ¬ Decides change reply v

theorem observe_known {tracked : Option ChangeId} (h : tracked.or (newest t) = some c) :
    (observe t tracked).tracked = some c ∧ (observe t tracked).result = (judgeChange t c).2 := by
  cases tracked with
  | some d =>
    obtain rfl : d = c := by simpa using h
    exact ⟨rfl, rfl⟩
  | none =>
    have hn : newest t = some c := by simpa using h
    simp [observe, hn, observeChange]

/-- A snapshot is judged by its last change alone once the watched change is known. -/
theorem judge_snapshot_fits {f : Findings} (h : f.tracked.or (newest t) = some c) :
    Fits (some c) (.ok t) (judge f (.ok t)).2 := by
  obtain ⟨htracked, hresult⟩ := observe_known h
  simp only [judge, htracked, hresult]
  cases hl : t.lastChange with
  | none =>
    have hres : (judgeChange t c).2 = .ok none := by
      by_cases hp : t.pendingChange.any fun p => p.id == c <;>
        simp [judgeChange, Topology.statusOf, hl, hp]
    rw [hres]
    refine ⟨rfl, fun v hv => ?_⟩
    cases hv <;> simp_all
  | some last =>
    by_cases hid : last.id = c
    · by_cases hs : last.status = "COMPLETED"
      · have hres : (judgeChange t c).2 = .ok (some (.completed c)) := by
          simp [judgeChange, Topology.statusOf, LastChange.succeeded, hl, hid, hs]
        rw [hres]
        exact Decides.completed hl hid hs
      · have hres : (judgeChange t c).2 = .error (.changeFailed c last.status) := by
          simp [judgeChange, Topology.statusOf, LastChange.succeeded, hl, hid, hs]
        rw [hres]
        exact Decides.failed hl hid hs
    · by_cases hlt : c < last.id
      · have hres : (judgeChange t c).2 = .ok (some (.outdated c last.id)) := by
          simp [judgeChange, Topology.statusOf, hl, hid, hlt]
        rw [hres]
        exact Decides.outdated hl hlt
      · have hres : (judgeChange t c).2 = .ok none := by
          by_cases hp : t.pendingChange.any fun p => p.id == c <;>
            simp [judgeChange, Topology.statusOf, hl, hid, hlt, hp]
        rw [hres]
        refine ⟨rfl, fun v hv => ?_⟩
        cases hv with
        | completed h hid' | failed h hid' =>
          obtain rfl := Option.some.inj (hl.symm.trans h)
          exact hid hid'
        | outdated h hlt' =>
          obtain rfl := Option.some.inj (hl.symm.trans h)
          exact hlt hlt'

/-- What a watch makes of a reply that comes after those of `before`. -/
theorem judge_fits {f : Findings} (reply : QueryReply) (hf : f.tracked = followed change before)
    (hu : Undecided change before) :
    Fits (followed change (before ++ [reply])) reply (judge f reply).2 := by
  cases reply with
  | error e =>
    rw [followed_append_error]
    cases he : e.isTransient with
    | true =>
      simp only [judge, he, if_true]
      exact ⟨hf, fun v hv => by simp [decides_error_iff, he] at hv⟩
    | false =>
      simp only [judge, he, Bool.false_eq_true, if_false]
      exact Decides.rejected he
  | ok t =>
    -- as nothing was decided before, a change that is not known yet is that of this snapshot
    rw [hu.followed_concat, ← hf]
    cases hc : f.tracked.or (newest t) with
    | some c => exact judge_snapshot_fits hc
    | none =>
      obtain ⟨htracked, hn⟩ := Option.or_eq_none_iff.1 hc
      obtain ⟨hp, hl⟩ := newest_eq_none_iff.1 hn
      simp only [judge, observe, htracked, hn]
      exact Decides.nothing hp hl

/-! ## All replies -/

theorem undecided_nil : Undecided change [] := by
  intro before reply after h
  simp at h

theorem Undecided.concat (h : Undecided change before) (reply : QueryReply)
    (hr : ∀ v, ¬ Decides (followed change (before ++ [reply])) reply v) :
    Undecided change (before ++ [reply]) := by
  intro before' reply' after hx
  rcases List.eq_nil_or_concat after with rfl | ⟨after, last, rfl⟩
  · obtain ⟨rfl, hlast⟩ := List.append_inj' hx rfl
    obtain rfl := List.singleton_inj.1 hlast
    exact hr
  · refine h before' reply' after ?_
    have hx' : before ++ [reply] = (before' ++ reply' :: after) ++ [last] := by simpa using hx
    exact (List.append_inj' hx' rfl).1

theorem followed_nil : followed change [] = requested change := by
  cases hr : requested change <;> simp [followed, hr, firstSnapshot]

/-- A watch keeps the change that it follows, as long as nothing decides it. -/
theorem followed_of_learn {bounds : WaitBounds} {f : Findings} {xs : List (Nat × QueryReply)}
    (h : (polling bounds).learn ⟨requested change, 0⟩ xs = some f) :
    f.tracked = followed change (xs.map Prod.snd) ∧ Undecided change (xs.map Prod.snd) := by
  refine Polling.learn_induction
    (fun f before => f.tracked = followed change before ∧ Undecided change before)
    (fun f before reply f' hbefore hj => ?_) ⟨followed_nil.symm, undecided_nil⟩ h
  obtain ⟨hf, hu⟩ := hbefore
  have hfits := judge_fits reply hf hu
  rw [show (judge f reply).2 = .undecided f' from hj] at hfits
  exact ⟨hfits.1, hu.concat reply hfits.2⟩

/-- A reply that ends a watch decides the change that is watched by then. -/
theorem decides_of_learn {bounds : WaitBounds} {f : Findings} {xs : List (Nat × QueryReply)}
    (h : (polling bounds).learn ⟨requested change, 0⟩ xs = some f)
    (hj : ((polling bounds).judge f reply).2 = .decided v) :
    Decides (followed change (xs.map Prod.snd ++ [reply])) reply v := by
  obtain ⟨hf, hu⟩ := followed_of_learn h
  have hfits := judge_fits reply hf hu
  rwa [show (judge f reply).2 = .decided v from hj] at hfits

/-- The first decision among the replies ends the watch. -/
theorem ends_settle (change : Option ChangeId) (bounds : WaitBounds) (deadline : Nat)
    (replies : List (Nat × QueryReply)) :
    Ends change bounds.timeout deadline replies
      ((polling bounds).settle deadline ⟨requested change, 0⟩ replies).1
      ((polling bounds).settle deadline ⟨requested change, 0⟩ replies).2 := by
  rcases (polling bounds).settle_cases deadline ⟨requested change, 0⟩ replies with
    ⟨before, t, reply, after, f, v, rfl, hlearn, hj, hsettle⟩ | ⟨f, hlearn, hsettle⟩
  · rw [hsettle]
    exact .decided rfl (followed_of_learn hlearn).2 (decides_of_learn hlearn hj)
  · obtain ⟨hf, hu⟩ := followed_of_learn hlearn
    have hend : Ends change bounds.timeout deadline replies deadline _ := .timeout hu
    rw [hsettle]
    simpa [polling, hf] using hend

section
variable {bound : Duration} {deadline t₁ t₂ : Nat} {replies : List (Nat × QueryReply)}
  {b₁ a₁ b₂ a₂ : List (Nat × QueryReply)} {r₁ r₂ : QueryReply}

theorem Undecided.not_decides (h : Undecided change (replies.map Prod.snd))
    (hx : replies = b₁ ++ (t₁, r₁) :: a₁) :
    ¬ Decides (followed change (b₁.map Prod.snd ++ [r₁])) r₁ v :=
  h _ r₁ (a₁.map Prod.snd) (by simp [hx]) v

/-- No reply before the first decision decides the watch. -/
theorem Undecided.length_le (h : b₁ ++ (t₁, r₁) :: a₁ = b₂ ++ (t₂, r₂) :: a₂)
    (hu : Undecided change (b₂.map Prod.snd))
    (hd : Decides (followed change (b₁.map Prod.snd ++ [r₁])) r₁ v) : b₂.length ≤ b₁.length := by
  rcases List.append_eq_append_iff.1 h with ⟨m, rfl, hm⟩ | ⟨m, rfl, -⟩
  · cases m with
    | nil => simp
    | cons x m =>
      obtain ⟨rfl, -⟩ := List.cons.inj hm
      exact absurd hd (hu.not_decides rfl)
  · simp

theorem Ends.unique (h : Ends change bound deadline replies t₁ v)
    (h' : Ends change bound deadline replies t₂ w) : t₁ = t₂ ∧ v = w := by
  cases h with
  | decided hx hu hd =>
    cases h' with
    | decided hx' hu' hd' =>
      have hsplit := hx.symm.trans hx'
      have hlen := Nat.le_antisymm (hu.length_le hsplit.symm hd') (hu'.length_le hsplit hd)
      obtain ⟨rfl, hrest⟩ := List.append_inj hsplit hlen
      obtain ⟨hreply, -⟩ := List.cons.inj hrest
      cases hreply
      exact ⟨rfl, hd.unique hd'⟩
    | timeout hu' => exact absurd hd (hu'.not_decides hx)
  | timeout hu =>
    cases h' with
    | decided hx' _ hd' => exact absurd hd' (hu.not_decides hx')
    | timeout _ => exact ⟨rfl, rfl⟩

/-- Only the first snapshot can show that there is nothing to watch. -/
theorem Ends.nothing (h : Ends change bound deadline replies t₁ (.ok .nothingToTrack)) :
    requested change = none ∧ ∃ t, firstSnapshot (replies.map Prod.snd) = some t ∧
      t.pendingChange = none ∧ t.lastChange = none := by
  cases h with
  | @decided before _ reply after _ hx hu hd =>
    generalize hf : followed change (before.map Prod.snd ++ [reply]) = d at hd
    cases hd with
    | @nothing t hp hl =>
      have hbefore : followed change (before.map Prod.snd) = none := by
        cases hb : followed change (before.map Prod.snd) with
        | none => rfl
        | some c => rw [followed_append_some hb] at hf; cases hf
      refine ⟨requested_eq_none hf, t, ?_, hp, hl⟩
      simp [hx, firstSnapshot_append, hu.firstSnapshot_eq_none hbefore, firstSnapshot]

/-! ## Transient errors -/

/-- The reply is an error that leaves the watch as it is. -/
def isTransient : QueryReply → Bool
  | .ok _ => false
  | .error e => e.isTransient

@[simp] theorem isTransient_error (e : ClientError) : isTransient (.error e) = e.isTransient := rfl

theorem firstSnapshot_filter (replies : List QueryReply) :
    firstSnapshot (replies.filter fun r => !isTransient r) = firstSnapshot replies := by
  induction replies with
  | nil => rfl
  | cons r replies ih =>
    cases r with
    | ok t => rfl
    | error e => cases he : e.isTransient <;> simp [he, firstSnapshot, ih]

theorem followed_filter (replies : List QueryReply) :
    followed change (replies.filter fun r => !isTransient r) = followed change replies := by
  simp [followed, firstSnapshot_filter]

theorem Decides.isTransient_eq_false (h : Decides change reply v) : isTransient reply = false := by
  cases reply with
  | ok t => rfl
  | error e => exact (decides_error_iff.1 h).1

theorem Undecided.filter {replies : List QueryReply} (h : Undecided change replies) :
    Undecided change (replies.filter fun r => !isTransient r) := by
  intro before reply after hx v hd
  obtain ⟨front, back, rfl, rfl, hback⟩ := List.filter_eq_append_iff.1 hx
  obtain ⟨skipped, rest, rfl, hskipped, hkept, -⟩ := List.filter_eq_cons_iff.1 hback
  refine h (front ++ skipped) reply rest (by simp) v ?_
  have hnone : skipped.filter (fun r => !isTransient r) = [] :=
    List.filter_eq_nil_iff.2 hskipped
  rw [← followed_filter]
  simpa [hnone, hkept] using hd

/-- The end of a watch does not depend on the transient errors among its replies. -/
theorem Ends.filter (h : Ends change bound deadline replies t₁ v) :
    Ends change bound deadline (replies.filter fun r => !isTransient r.2) t₁ v := by
  have hmap : ∀ xs : List (Nat × QueryReply),
      (xs.filter fun r => !isTransient r.2).map Prod.snd =
        (xs.map Prod.snd).filter fun r => !isTransient r := fun xs => by
    rw [List.filter_map]
    rfl
  cases h with
  | @decided before _ reply after _ hx hu hd =>
    have hkept := hd.isTransient_eq_false
    have hsplit : (replies.filter fun r => !isTransient r.2) =
        (before.filter fun r => !isTransient r.2) ++
          (t₁, reply) :: after.filter fun r => !isTransient r.2 := by
      simp [hx, hkept]
    refine .decided hsplit ?_ ?_
    · rw [hmap]
      exact hu.filter
    · rw [← followed_filter] at hd
      simpa [hmap, hkept] using hd
  | timeout hu =>
    have hfilter : Undecided change ((replies.filter fun r => !isTransient r.2).map Prod.snd) := by
      rw [hmap]
      exact hu.filter
    have hend : Ends change bound deadline (replies.filter fun r => !isTransient r.2) deadline _ :=
      .timeout hfilter
    rwa [hmap, followed_filter] at hend

end

/-- **The verdict of a watch** that no stop signal ends: among the replies that come in time, it is
that of the first one that decides it, which ends the watch at once; without one the watch ends at
its deadline. -/
theorem wait_verdict (env : Environment σ) (bounds : WaitBounds) (change : Option ChangeId) (s : σ)
    (time : Nat) (quiet : env.Quiet) (interval : 0 < bounds.poll.millis)
    (fits : time + bounds.timeout.millis + bounds.poll.millis < Program.clockEnd) :
    let deadline := time + bounds.timeout.millis
    let replies := env.replies bounds.poll.millis deadline s time
    let course := env.run (wait bounds change) s time
    ∃ v, course.result = v.mapError .error ∧
      (∀ t w, Ends change bounds.timeout deadline replies t w ↔ t = course.time ∧ w = v) ∧
      Ends change bounds.timeout deadline (replies.filter fun r => !isTransient r.2)
        course.time v ∧
      (v = .ok .nothingToTrack → requested change = none ∧
        ∃ t, firstSnapshot (replies.map Prod.snd) = some t ∧
          t.pendingChange = none ∧ t.lastChange = none) := by
  intro deadline replies course
  let settled := (polling bounds).settle deadline ⟨requested change, 0⟩ replies
  obtain ⟨htime, hresult⟩ : course.time = settled.1 ∧ course.result = settled.2.mapError .error :=
    (polling bounds).run_wait_quiet ⟨requested change, 0⟩ s quiet interval fits
  have hends : Ends change bounds.timeout deadline replies course.time settled.2 := by
    rw [htime]
    exact ends_settle change bounds deadline replies
  refine ⟨settled.2, hresult, fun t w => ⟨fun h => h.unique hends, ?_⟩, hends.filter, fun h => ?_⟩
  · rintro ⟨rfl, rfl⟩
    exact hends
  · rw [h] at hends
    exact hends.nothing

/-- A world in which the first query fails and the next one shows that the change `7` has ended. -/
def recovering : Script where
  queries := [some (5, .error (.transport "connection refused")),
    some (0, .ok ⟨1, none, [], some ⟨7, "COMPLETED", none, none⟩, none, none⟩)]
  submission := none

/-- The failure costs its time and the pause after it, and no more. -/
theorem wait_verdict_recovering :
    let course := recovering.environment.run (wait ⟨⟨10⟩, ⟨20⟩⟩ (some 7)) recovering.queries 0
    recovering.environment.Quiet ∧ 0 < 10 ∧ 0 + 20 + 10 < Program.clockEnd ∧
      course.time = 15 ∧ course.result = .ok (.completed 7) := by
  intro course
  have quiet : recovering.environment.Quiet := fun _ => rfl
  have interval : 0 < 10 := by decide
  have fits : 0 + 20 + 10 < Program.clockEnd := by decide
  obtain ⟨v, hresult, hends, -, -⟩ := wait_verdict recovering.environment ⟨⟨10⟩, ⟨20⟩⟩ (some 7)
    recovering.queries 0 quiet interval fits
  have hreplies : recovering.environment.replies 10 (0 + 20) recovering.queries 0 =
      [(5, .error (.transport "connection refused")),
        (15, .ok ⟨1, none, [], some ⟨7, "COMPLETED", none, none⟩, none, none⟩)] := by
    rw [Environment.replies_of_arrived rfl, if_pos (by decide), Environment.replies_of_arrived rfl,
      if_neg (by decide)]
    rfl
  have hfirst : Undecided (some 7) [.error (.transport "connection refused")] :=
    undecided_nil.concat _ fun v hv => by
      simp [decides_error_iff, ClientError.isTransient] at hv
  have hend : Ends (some 7) ⟨20⟩ (0 + 20) (recovering.environment.replies 10 (0 + 20)
      recovering.queries 0) 15 (.ok (.completed 7)) := by
    rw [hreplies]
    exact .decided (List.singleton_append).symm hfirst (.completed rfl rfl rfl)
  obtain ⟨htime, rfl⟩ := (hends 15 (.ok (.completed 7))).1 hend
  exact ⟨quiet, interval, fits, htime.symm, hresult⟩

end Watch

end ClusterScaling
