import ClusterScaling.Proofs.Change.Attribution
import ClusterScaling.Proofs.Signal.Heeded
import Mathlib.Data.List.Pairwise

/-!
# Progress of changes

In a history, where the last change is never an older one than before, the statuses of a change
make progress: it goes on, it ends in one way, and newer changes outdate it. So those who watch the
same change agree on its end, except that some come too late to see it (`history_progress`).
-/

namespace ClusterScaling

open Exchange

/-! ## Statuses in progress -/

namespace ChangeStatus

/-- A final status stays until the change is outdated. -/
def MayBecome (s s' : ChangeStatus) : Prop := s.isFinal = true → s' = s ∨ s' = .outdated

/-- A change goes on, then it has ended in one way, and then it is outdated. -/
def Progressive (ss : List ChangeStatus) : Prop :=
  ∃ opened ended outdated, ss = opened ++ ended ++ outdated ∧
    (∀ s ∈ opened, s = .unknown ∨ s = .pending) ∧
    ((∀ s ∈ ended, s = .completed) ∨ ∀ s ∈ ended, s = .failed) ∧
    ∀ s ∈ outdated, s = .outdated

variable {s s' : ChangeStatus} {ss : List ChangeStatus}

theorem MayBecome.isFinal (h : s.MayBecome s') (hs : s.isFinal = true) : s'.isFinal = true := by
  obtain rfl | rfl := h hs
  · exact hs
  · rfl

/-- A change that has ended goes on with the same status, up to where it is outdated. -/
theorem Progressive.cons_ended (h : Progressive ss) (hs : s = .completed ∨ s = .failed)
    (hss : ∀ s' ∈ ss, s' = s ∨ s' = .outdated) : Progressive (s :: ss) := by
  obtain ⟨opened, ended, outdated, rfl, hopened, hended, houtdated⟩ := h
  have hsame : ∀ s' ∈ opened ++ ended, s' = s := by
    intro s' hs'
    refine (hss s' (List.mem_append_left _ hs')).resolve_right ?_
    rintro rfl
    rcases List.mem_append.1 hs' with ho | he
    · cases hopened _ ho with
      | inl h => cases h
      | inr h => cases h
    · cases hended with
      | inl h => cases h _ he
      | inr h => cases h _ he
  have hall : ∀ s' ∈ s :: (opened ++ ended), s' = s := List.forall_mem_cons.2 ⟨rfl, hsame⟩
  refine ⟨[], s :: (opened ++ ended), outdated, by simp, by simp, ?_, houtdated⟩
  rcases hs with rfl | rfl
  · exact .inl hall
  · exact .inr hall

theorem progressive_of_pairwise (h : ss.Pairwise MayBecome) : Progressive ss := by
  induction h with
  | nil => exact ⟨[], [], [], rfl, by simp, by simp, by simp⟩
  | @cons s ss hs _ ih =>
    cases s with
    | unknown | pending =>
      obtain ⟨opened, ended, outdated, rfl, hopened, hended, houtdated⟩ := ih
      exact ⟨_ :: opened, ended, outdated, rfl, List.forall_mem_cons.2 ⟨by simp, hopened⟩, hended,
        houtdated⟩
    | completed => exact ih.cons_ended (.inl rfl) fun s' hs' => hs s' hs' rfl
    | failed => exact ih.cons_ended (.inr rfl) fun s' hs' => hs s' hs' rfl
    | outdated =>
      have hall : ∀ s' ∈ outdated :: ss, s' = .outdated :=
        List.forall_mem_cons.2 ⟨rfl, fun s' hs' => (hs s' hs' rfl).elim id id⟩
      exact ⟨[], [], outdated :: ss, rfl, by simp, by simp, hall⟩

/-- A change does not both complete and fail. -/
theorem Progressive.not_both (h : Progressive ss) : ¬ (.completed ∈ ss ∧ .failed ∈ ss) := by
  rintro ⟨hcompleted, hfailed⟩
  obtain ⟨opened, ended, outdated, rfl, hopened, hended, houtdated⟩ := h
  have hmem : ∀ s ∈ opened ++ ended ++ outdated, s ∈ ended ∨ s = .unknown ∨ s = .pending ∨
      s = .outdated := by
    intro s hs
    rcases List.mem_append.1 hs with hs | hs
    · rcases List.mem_append.1 hs with hs | hs
      · exact .inr ((hopened s hs).imp_right .inl)
      · exact .inl hs
    · exact .inr (.inr (.inr (houtdated s hs)))
  have hc : .completed ∈ ended := by simpa using hmem _ hcompleted
  have hf : .failed ∈ ended := by simpa using hmem _ hfailed
  cases hended with
  | inl h => cases h _ hf
  | inr h => cases h _ hc

end ChangeStatus

/-! ## Histories -/

namespace Topology

/-- The last change of `u` is that of `t` or a newer one. -/
def Precedes (t u : Topology) : Prop :=
  ∀ a, t.lastChange = some a → ∃ b, u.lastChange = some b ∧ a.id ≤ b.id

/-- Where both snapshots show the record of a change, they show the same status. -/
def Agrees (t u : Topology) : Prop :=
  ∀ a b, t.lastChange = some a → u.lastChange = some b → a.id = b.id → a.status = b.status

variable {t u : Topology} {last : LastChange} {id : ChangeId}

theorem Agrees.refl (t : Topology) : t.Agrees t := by
  intro a b ha hb _
  obtain rfl := Option.some.inj (ha.symm.trans hb)
  rfl

instance : Std.Symm Agrees where
  symm _ _ h a b ha hb hid := (h b a hb ha hid.symm).symm

theorem statusOf_of_outdated (h : t.lastChange = some last) (hlt : id < last.id) :
    t.statusOf id = .outdated := by
  have hne : last.id ≠ id := by
    rintro rfl
    exact absurd hlt (Int64.lt_irrefl)
  simp [statusOf, h, hne, hlt]

theorem statusOf_of_ended (h : t.lastChange = some last) :
    t.statusOf last.id = if last.succeeded then .completed else .failed := by
  simp [statusOf, h]

/-- What the last change of a snapshot is when the change has ended. -/
theorem exists_last_of_isFinal (h : (t.statusOf id).isFinal = true) :
    ∃ last, t.lastChange = some last ∧ (last.id = id ∨ id < last.id) := by
  have hvisible : (if t.pendingChange.any fun c => c.id == id then ChangeStatus.pending
      else .unknown).isFinal = false := by
    split <;> rfl
  unfold statusOf at h
  cases hl : t.lastChange with
  | none => simp [hl, hvisible] at h
  | some last =>
    refine ⟨last, rfl, ?_⟩
    apply Classical.byContradiction
    intro hnone
    obtain ⟨hid, hlt⟩ := not_or.1 hnone
    simp [hl, hid, hlt, hvisible] at h

theorem statusOf_mayBecome (grows : t.Precedes u) (keeps : t.Agrees u) (id : ChangeId) :
    (t.statusOf id).MayBecome (u.statusOf id) := by
  intro hfinal
  obtain ⟨a, ha, hid⟩ := exists_last_of_isFinal hfinal
  obtain ⟨b, hb, hle⟩ := grows a ha
  by_cases hlt : id < b.id
  · exact .inr (statusOf_of_outdated hb hlt)
  · -- the last change is still the same one, and so is its status
    obtain ⟨rfl, hsame⟩ : a.id = id ∧ a.id = b.id := by
      rw [Int64.lt_iff_toInt_lt] at *
      rw [Int64.le_iff_toInt_le] at hle
      rw [← Int64.toInt_inj, ← Int64.toInt_inj] at *
      omega
    have hsucceeded : a.succeeded = b.succeeded := by
      simp [LastChange.succeeded, keeps a b ha hb hsame]
    left
    rw [statusOf_of_ended ha, hsame, statusOf_of_ended hb, hsucceeded]

end Topology

/-- Snapshots that were taken one after the other. -/
structure History (ts : List Topology) : Prop where
  grows : ts.Pairwise Topology.Precedes
  keeps : ts.Pairwise Topology.Agrees

namespace History

variable {ts : List Topology} {t u : Topology} {a b : LastChange}

theorem pairwise_statusOf (h : History ts) (id : ChangeId) :
    (ts.map (·.statusOf id)).Pairwise ChangeStatus.MayBecome :=
  List.pairwise_map.2 ((h.grows.and h.keeps).imp fun ⟨grows, keeps⟩ =>
    Topology.statusOf_mayBecome grows keeps id)

/-- All snapshots of a history agree on the status of a change that is their last one. -/
theorem status_eq (h : History ts) (ht : t ∈ ts) (hu : u ∈ ts) (ha : t.lastChange = some a)
    (hb : u.lastChange = some b) (hid : a.id = b.id) : a.status = b.status := by
  have hagrees : t.Agrees u :=
    List.Pairwise.forall_of_forall (fun t _ => Topology.Agrees.refl t) h.keeps ht hu
  exact hagrees a b ha hb hid

end History

/-! ## Watches over a history -/

/-- The snapshots among the answers. -/
def Exchange.snapshots {σ : Type} (x : List (Exchange σ)) : List Topology :=
  (heard x).filterMap fun r => r.2.toOption

namespace Watch

/-- The result says what a snapshot has shown of the watched change. -/
inductive IsVerdict : Except Stop Outcome → Prop
  | outcome (o) : IsVerdict (.ok o)
  | failed (change status) : IsVerdict (.error (.error (.changeFailed change status)))

variable {σ : Type} {env : Environment σ} {bounds : WaitBounds} {id : ChangeId} {s : σ} {time : Nat}

/-- A verdict of a watch is that of one of the snapshots that it got. -/
theorem exists_decides_of_isVerdict (hpos : 0 < id)
    (h : IsVerdict (env.run (wait bounds (some id)) s time).result) :
    ∃ t v, t ∈ snapshots (env.run (wait bounds (some id)) s time).exchanges ∧
      Decides (some id) (.ok t) v ∧
      (env.run (wait bounds (some id)) s time).result = v.mapError .error := by
  by_cases fits : time + bounds.timeout.millis < Program.clockEnd
  · cases ((polling bounds).waits_wait env (b := ⟨requested (some id), 0⟩) (s := s) fits).closes with
    | @decided before e reply f r hx hheard hstate hlearn hjudge hresult =>
      have hdecides := (decidesBy bounds (some id)).judge _ f reply r hlearn hjudge
      rw [followed_of_pos hpos] at hdecides
      have hresult : (env.run (wait bounds (some id)) s time).result = r.mapError .error := hresult
      cases reply with
      | error e' =>
        obtain ⟨-, rfl⟩ := decides_error_iff.1 hdecides
        rw [hresult] at h
        cases h
      | ok t =>
        refine ⟨t, r, ?_, hdecides, hresult⟩
        have hx : (env.run (wait bounds (some id)) s time).exchanges = before ++ [e] := hx
        rw [hx, snapshots, heard_append, hheard]
        simp [Except.toOption]
    | @undecided f stop hlearn hresult hgives =>
      have hresult : (env.run (wait bounds (some id)) s time).result = .error stop := hresult
      rw [hresult] at h
      cases h
      cases hgives
  · have hresult := (polling bounds).run_wait_of_overflow env ⟨requested (some id), 0⟩ s
      (Nat.le_of_not_lt fits)
    rw [wait, hresult] at h
    cases h

/-- Two snapshots of a history that decide a watch do so in the same way, unless one of them is of
a time when the change is outdated. -/
theorem Decides.agree {ts : List Topology} {t u : Topology} {v w : Except ScaleError Outcome}
    (h : History ts) (ht : t ∈ ts) (hu : u ∈ ts) (hv : Decides (some id) (.ok t) v)
    (hw : Decides (some id) (.ok u) w) :
    v = w ∨ (∃ latest, v = .ok (.outdated id latest)) ∨ ∃ latest, w = .ok (.outdated id latest) := by
  cases hv with
  | outdated => exact .inr (.inl ⟨_, rfl⟩)
  | completed ha hid hs =>
    cases hw with
    | outdated => exact .inr (.inr ⟨_, rfl⟩)
    | completed => exact .inl rfl
    | failed hb hid' hs' =>
      have hsame := h.status_eq ht hu ha hb (hid.trans hid'.symm)
      exact absurd (hsame.symm.trans hs) hs'
  | failed ha hid hs =>
    cases hw with
    | outdated => exact .inr (.inr ⟨_, rfl⟩)
    | completed hb hid' hs' =>
      have hsame := h.status_eq ht hu ha hb (hid.trans hid'.symm)
      exact absurd (hsame.trans hs') hs
    | failed hb hid' hs' =>
      left
      rw [h.status_eq ht hu ha hb (hid.trans hid'.symm)]

end Watch

/-- **Changes make progress** in every history, and any two watches of one change agree on its end,
whatever snapshots of the history they get between failures, or one of them finds it outdated. -/
theorem history_progress {ts : List Topology} (h : History ts) :
    (∀ id, let ss := ts.map (·.statusOf id)
      ChangeStatus.Progressive ss ∧ ss.Pairwise (fun s s' => s.isFinal → s'.isFinal) ∧
        ¬ (.completed ∈ ss ∧ .failed ∈ ss)) ∧
    ∀ {σ τ : Type} (env : Environment σ) (env' : Environment τ) (bounds bounds' : WaitBounds)
      (s : σ) (s' : τ) (time time' : Nat) (id : ChangeId),
      let c := env.run (Watch.wait bounds (some id)) s time
      let c' := env'.run (Watch.wait bounds' (some id)) s' time'
      0 < id → snapshots c.exchanges ⊆ ts → snapshots c'.exchanges ⊆ ts →
        Watch.IsVerdict c.result → Watch.IsVerdict c'.result →
        (c.result = .ok (.completed id) →
          ∀ change status, c'.result ≠ .error (.error (.changeFailed change status))) ∧
        (c.result = c'.result ∨ (∃ latest, c.result = .ok (.outdated id latest)) ∨
          ∃ latest, c'.result = .ok (.outdated id latest)) := by
  refine ⟨fun id => ?_, ?_⟩
  · have hpairwise := h.pairwise_statusOf id
    have hprogressive := ChangeStatus.progressive_of_pairwise hpairwise
    exact ⟨hprogressive, hpairwise.imp fun hs => hs.isFinal, hprogressive.not_both⟩
  · intro σ τ env env' bounds bounds' s s' time time' id c c' hpos hc hc' hverdict hverdict'
    obtain ⟨t, v, ht, hv, hresult⟩ := Watch.exists_decides_of_isVerdict hpos hverdict
    obtain ⟨u, w, hu, hw, hresult'⟩ := Watch.exists_decides_of_isVerdict hpos hverdict'
    have hresult : c.result = v.mapError .error := hresult
    have hresult' : c'.result = w.mapError .error := hresult'
    have hagree : c.result = c'.result ∨ (∃ latest, c.result = .ok (.outdated id latest)) ∨
        ∃ latest, c'.result = .ok (.outdated id latest) := by
      rcases hv.agree h (hc ht) (hc' hu) hw with rfl | ⟨latest, rfl⟩ | ⟨latest, rfl⟩
      · exact .inl (hresult.trans hresult'.symm)
      · exact .inr (.inl ⟨latest, hresult⟩)
      · exact .inr (.inr ⟨latest, hresult'⟩)
    refine ⟨fun hcompleted change status hfailed => ?_, hagree⟩
    rw [hcompleted, hfailed] at hagree
    rcases hagree with h | ⟨_, h⟩ | ⟨_, h⟩
    · cases h
    · cases h
    · cases h

/-- The change `7` is applied, it has ended, and a newer one has ended after it. -/
def successive : List Topology :=
  [⟨1, none, [], none, some ⟨7, "IN_PROGRESS", 1, [], []⟩, none⟩,
    ⟨2, none, [], some ⟨7, "COMPLETED", none, none⟩, none, none⟩,
    ⟨3, none, [], some ⟨9, "FAILED", none, none⟩, none, none⟩]

/-- A world that shows the history from some snapshot on, after a first query that fails. -/
def successiveFrom (n : Nat) : Script where
  queries := some (0, .error (.transport "connection reset")) ::
    (successive.drop n).map fun t => some (0, .ok t)
  submission := none

theorem history_successive : History successive where
  grows := by simp [successive, Topology.Precedes]
  keeps := by simp [successive, Topology.Agrees]

/-- Who comes late finds the change outdated. -/
theorem history_progress_successive :
    let early := (successiveFrom 0).run (Watch.wait ⟨⟨10⟩, ⟨100⟩⟩ (some 7))
    let late := (successiveFrom 2).run (Watch.wait ⟨⟨20⟩, ⟨50⟩⟩ (some 7))
    History successive ∧ ChangeStatus.Progressive [.pending, .completed, .outdated] ∧
      snapshots early.exchanges ⊆ successive ∧ snapshots late.exchanges ⊆ successive ∧
      early.result = .ok (.completed 7) ∧ late.result = .ok (.outdated 7 9) ∧
      ∀ change status, late.result ≠ .error (.error (.changeFailed change status)) := by
  intro early late
  obtain ⟨hprogress, hagree⟩ := history_progress history_successive
  have hearly : early.result = .ok (.completed 7) := rfl
  have hlate : late.result = .ok (.outdated 7 9) := rfl
  have hearlySeen : snapshots early.exchanges ⊆ successive := by
    have hseen : snapshots early.exchanges = successive.take 2 := by decide +kernel
    rw [hseen]
    exact List.take_subset 2 successive
  have hlateSeen : snapshots late.exchanges ⊆ successive := by
    have hseen : snapshots late.exchanges = successive.drop 2 := by decide +kernel
    rw [hseen]
    exact List.drop_subset 2 successive
  have hearlyEnds : Watch.IsVerdict early.result := by
    rw [hearly]
    exact .outcome _
  have hlateEnds : Watch.IsVerdict late.result := by
    rw [hlate]
    exact .outcome _
  obtain ⟨hnever, -⟩ := hagree _ _ _ _ _ _ _ _ 7 (by decide) hearlySeen hlateSeen hearlyEnds
    hlateEnds
  exact ⟨history_successive, (hprogress 7).1, hearlySeen, hlateSeen, hearly, hlate, hnever hearly⟩

end ClusterScaling
