import ClusterScaling.Request.BrokerList

/-!
# Additions and removals as broker lists

The older form of a change request names all brokers to end with. For an addition these are the ids
of two sets in ascending order (`BrokerList.union_ascending`, `BrokerList.mem_union`), for a removal
the current ones without some (`BrokerList.LeavesOut`), and for more replicas the current ones.
`BrokerList.ofRequest_members` says so of all requests but those for a count. Asking for the same
again then changes nothing, since the list has what is added and lacks what is removed.
-/

namespace ClusterScaling

namespace BrokerList

variable {id x : BrokerId} {current ids xs ys : List BrokerId}

/-! ## Ascending ids -/

theorem mem_insertId : x ∈ insertId id xs ↔ x = id ∨ x ∈ xs := by
  induction xs with
  | nil => simp [insertId]
  | cons y ys ih =>
    unfold insertId
    split
    · simp
    · split
      · simp [*]
      · simp only [List.mem_cons, ih]
        exact or_left_comm

theorem insertId_ascending (h : xs.Pairwise (· < ·)) : (insertId id xs).Pairwise (· < ·) := by
  induction xs with
  | nil => simp [insertId]
  | cons y ys ih =>
    obtain ⟨hy, hys⟩ := List.pairwise_cons.1 h
    unfold insertId
    split
    · rename_i hlt
      refine List.pairwise_cons.2 ⟨fun z hz => ?_, h⟩
      rcases List.mem_cons.1 hz with rfl | hz
      · exact hlt
      · exact Int32.lt_trans hlt (hy z hz)
    · split
      · exact h
      · rename_i hlt hne
        refine List.pairwise_cons.2 ⟨fun z hz => ?_, ih hys⟩
        rcases mem_insertId.1 hz with rfl | hz
        · exact (Int32.lt_or_lt_of_ne hne).resolve_left hlt
        · exact hy z hz

theorem mem_foldl_insertId :
    x ∈ ids.foldl (fun l id => insertId id l) xs ↔ x ∈ xs ∨ x ∈ ids := by
  induction ids generalizing xs with
  | nil => simp
  | cons id ids ih =>
    rw [List.foldl_cons, ih, mem_insertId, List.mem_cons, or_assoc, or_left_comm]

theorem foldl_insertId_ascending (h : xs.Pairwise (· < ·)) :
    (ids.foldl (fun l id => insertId id l) xs).Pairwise (· < ·) := by
  induction ids generalizing xs with
  | nil => exact h
  | cons id ids ih => exact ih (insertId_ascending h)

theorem mem_union : x ∈ union current ids ↔ x ∈ current ∨ x ∈ ids := by
  unfold union
  simp [mem_foldl_insertId]

theorem union_ascending (current ids : List BrokerId) :
    (union current ids).Pairwise (· < ·) := foldl_insertId_ascending .nil

theorem nodup_of_ascending (h : xs.Pairwise (· < ·)) : xs.Nodup := by
  refine h.imp fun hlt => ?_
  rintro rfl
  exact Int32.lt_irrefl hlt

/-- Ascending lists of the same ids are equal. -/
theorem eq_of_ascending (hxs : xs.Pairwise (· < ·)) (hys : ys.Pairwise (· < ·))
    (h : ∀ id, id ∈ xs ↔ id ∈ ys) : xs = ys :=
  List.Perm.eq_of_pairwise (fun _ _ _ _ hlt hgt => absurd hgt (Int32.lt_asymm hlt)) hxs hys
    ((List.perm_ext_iff_of_nodup (nodup_of_ascending hxs) (nodup_of_ascending hys)).2 h)

theorem union_union (current ids : List BrokerId) :
    union (union current ids) ids = union current ids := by
  refine eq_of_ascending (union_ascending _ _) (union_ascending _ _) fun id => ?_
  rw [mem_union, mem_union, or_assoc, or_self]

/-! ## Ids left out -/

/-- `rest` is `current` without the brokers `ids`: all others are there as often as before, in the
order that they had. -/
structure LeavesOut (ids current rest : List BrokerId) : Prop where
  inOrder : rest.Sublist current
  gone : ∀ id ∈ ids, id ∉ rest
  kept : ∀ id, id ∉ ids → rest.count id = current.count id

theorem leavesOut_filter (ids current : List BrokerId) :
    LeavesOut ids current (current.filter fun id => !ids.contains id) where
  inOrder := List.filter_sublist
  gone id hid hmem := by simp [hid] at hmem
  kept id hid := List.count_filter (by simpa using hid)

theorem filter_contains_congr {ids' : List BrokerId} (h : ∀ id ∈ current, id ∈ ids' ↔ id ∈ ids) :
    (current.filter fun id => !ids'.contains id) = current.filter fun id => !ids.contains id := by
  refine List.filter_congr fun id hid => ?_
  simp [h id hid]

/-! ## Requests and their lists -/

/-- What the broker list of a request is, where the cluster has the brokers `current`. -/
structure Follows (r : ChangeRequest) (current : List BrokerId) (l : BrokerList) : Prop where
  adds : ∀ ids, r.brokers = some (.add ids) →
    l.ids.Pairwise (· < ·) ∧ ∀ id, id ∈ l.ids ↔ id ∈ current ∨ id ∈ ids
  removes : ∀ ids, r.brokers = some (.remove ids) → LeavesOut ids current l.ids
  /-- It does not matter which brokers are to be removed that the cluster does not have. -/
  ignores : ∀ ids ids', r.brokers = some (.remove ids) → (∀ id ∈ current, id ∈ ids' ↔ id ∈ ids) →
    ofRequest { r with brokers := some (.remove ids') } current = .ok l
  resubmits : r.brokers = none → l.ids = current
  factor : l.replicationFactor = r.partitions.bind (·.replicationFactor)
  /-- The same request changes nothing any more. -/
  settles : ofRequest r l.ids = .ok l
  ascending : current.Pairwise (· < ·) → l.ids.Pairwise (· < ·)

theorem isEmpty_eq_false_iff {r : ChangeRequest} :
    r.isEmpty = false ↔ r.brokers ≠ none ∨ r.partitions ≠ none := by
  unfold ChangeRequest.isEmpty
  cases r.brokers <;> cases r.partitions <;> simp

theorem exists_ofRequest_iff {r : ChangeRequest} :
    (∃ l, ofRequest r current = .ok l) ↔ (r.brokers ≠ none ∨ r.partitions ≠ none) ∧
      ∀ p, r.partitions = some p → p.count = none := by
  simp only [ofRequest_eq_ok_iff, isEmpty_eq_false_iff, exists_and_left, exists_eq, and_true]
  refine and_congr_right fun _ => ?_
  cases r.partitions <;> simp

theorem idsAfter_idsAfter {c : Option BrokerChange} (h : ∀ n, c ≠ some (.count n)) :
    idsAfter (idsAfter current c) c = idsAfter current c := by
  cases c with
  | none => rfl
  | some c =>
    cases c with
    | count n => exact absurd rfl (h n)
    | add ids => exact union_union current ids
    | remove ids => simp [idsAfter, List.filter_filter]

theorem idsAfter_ascending {c : Option BrokerChange} (h : ∀ n, c ≠ some (.count n))
    (hcurrent : current.Pairwise (· < ·)) : (idsAfter current c).Pairwise (· < ·) := by
  cases c with
  | none => exact hcurrent
  | some c =>
    cases c with
    | count n => exact absurd rfl (h n)
    | add ids => exact union_ascending current ids
    | remove ids => exact hcurrent.filter _

/-- **Additions and removals in the older form**, for all requests but those for a count and all
brokers of the cluster: which of them have such a form, and what brokers it names. -/
theorem ofRequest_members (r : ChangeRequest) (current : List BrokerId)
    (uncounted : ∀ n, r.brokers ≠ some (.count n)) :
    ((∃ l, ofRequest r current = .ok l) ↔ (r.brokers ≠ none ∨ r.partitions ≠ none) ∧
      ∀ p, r.partitions = some p → p.count = none) ∧
    ∀ l, ofRequest r current = .ok l → Follows r current l := by
  refine ⟨exists_ofRequest_iff, fun l hl => ?_⟩
  obtain ⟨hasked, hcount, rfl⟩ := ofRequest_eq_ok_iff.1 hl
  refine ⟨fun ids hids => ?_, fun ids hids => ?_, fun ids ids' hids hsame => ?_, fun hnone => ?_,
    rfl, ?_, idsAfter_ascending uncounted⟩
  · rw [hids]
    exact ⟨union_ascending current ids, fun id => mem_union⟩
  · rw [hids]
    exact leavesOut_filter ids current
  · refine ofRequest_eq_ok_iff.2 ⟨rfl, hcount, ?_⟩
    rw [hids]
    simp only [idsAfter, filter_contains_congr hsame]
  · rw [hnone]
    rfl
  · refine ofRequest_eq_ok_iff.2 ⟨hasked, hcount, ?_⟩
    simp only [idsAfter_idsAfter uncounted]

/-- Of the brokers `3`, `1`, `2`, `1` and `3`, listed so, the removal of `1` and of the unknown `5`
leaves three, and with `4` and `1` added they are four. -/
theorem ofRequest_members_repeated :
    let current : List BrokerId := [3, 1, 2, 1, 3]
    let removal := (ChangeRequest.empty.removing [5, 1]).partitioning none (some 2)
    let addition := ChangeRequest.empty.adding [4, 1, 4]
    (∀ n, removal.brokers ≠ some (.count n)) ∧ Follows removal current ⟨[3, 2, 3], some 2⟩ ∧
      Follows addition current ⟨[1, 2, 3, 4], none⟩ := by
  intro current removal addition
  have hremoval : ∀ n, removal.brokers ≠ some (.count n) := by
    intro n
    exact nofun
  exact ⟨hremoval, (ofRequest_members removal current hremoval).2 _ rfl,
    (ofRequest_members addition current (fun _ => nofun)).2 _ rfl⟩

end BrokerList

end ClusterScaling
