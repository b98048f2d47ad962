import Mathlib.Data.List.Perm.Subperm
import ClusterScaling.Proofs.Request.BrokerMembers

/-!
# Broker counts as broker lists

A cluster that is asked for a number of brokers adds or removes those of the highest ids
(`BrokerList.Reaches`). The broker list of such a request does not depend on the brokers that the
cluster has: it is that of the first ids. `BrokerList.ofRequest_count` says for which clusters both
come to the same. Where the ids have no gaps they always do, and nowhere else. A count from `2 ^ 31`
on is no broker id, and its list is empty (`BrokerList.ofRequest_enumerates`): the cluster that is
asked for so many brokers would lose all that it has (`BrokerList.ofRequest_count_empties`).
-/

namespace ClusterScaling

namespace BrokerList

/-! ## What a count asks for -/

/-- `ids` are the `n` lowest of the brokers `current`, in ascending order. -/
structure Lowest (n : Nat) (current ids : List BrokerId) : Prop where
  ascending : ids.Pairwise (· < ·)
  length_eq : ids.length = n
  subset : ids ⊆ current
  lowest : ∀ a ∈ ids, ∀ b ∈ current, b ∉ ids → a < b

/-- A cluster of the brokers `current` that ends with the brokers `ids` has added or removed
brokers of the highest ids to have `n`. -/
def Reaches (n : Nat) (current ids : List BrokerId) : Prop :=
  if n ≤ current.length then Lowest n current ids else current ⊆ ids

/-- The request asks for `n` brokers, and the older form can express it. -/
structure Counts (r : ChangeRequest) (n : UInt32) : Prop where
  brokers : r.brokers = some (.count n)
  partitions : r.partitions.bind (·.count) = none
  positive : 0 < n.toNat
  bounded : n.toNat < 0x80000000

/-- The ids of the brokers go from zero up without a gap, in any order. -/
def Gapless (current : List BrokerId) : Prop := ∀ id ∈ current, id.toInt < current.length

variable {current ids : List BrokerId} {n i : Nat} {m : UInt32} {id : BrokerId}

/-! ## The first ids -/

theorem toInt_toInt32 (h : m.toNat < 0x80000000) : m.toInt32.toInt = m.toNat := by
  change m.toBitVec.toInt = m.toBitVec.toNat
  refine BitVec.toInt_eq_toNat_of_lt ?_
  change 2 * m.toNat < 0x100000000
  omega

theorem firstIds_eq (h : m.toNat < 0x80000000) :
    firstIds m = (List.range m.toNat).map Int32.ofNat := by
  simp [firstIds, toInt_toInt32 h]

theorem length_firstIds (h : m.toNat < 0x80000000) : (firstIds m).length = m.toNat := by
  simp [firstIds_eq h]

theorem map_toInt_firstIds (h : m.toNat < 0x80000000) :
    (firstIds m).map Int32.toInt = (List.range m.toNat).map Int.ofNat := by
  rw [firstIds_eq h, List.map_map]
  refine List.map_congr_left fun i hi => ?_
  have := List.mem_range.1 hi
  exact Int32.toInt_ofNat_of_lt (by omega)

theorem ofNat_toNat_toInt (h : 0 ≤ id.toInt) : Int32.ofNat id.toInt.toNat = id := by
  have := id.toInt_lt
  refine Int32.toInt_inj.1 ?_
  rw [Int32.toInt_ofNat_of_lt (by omega)]
  omega

theorem mem_firstIds (h : m.toNat < 0x80000000) :
    id ∈ firstIds m ↔ 0 ≤ id.toInt ∧ id.toInt < m.toNat := by
  simp only [firstIds_eq h, List.mem_map, List.mem_range]
  constructor
  · rintro ⟨i, hi, rfl⟩
    rw [Int32.toInt_ofNat_of_lt (by omega)]
    omega
  · rintro ⟨h0, hlt⟩
    exact ⟨id.toInt.toNat, by omega, ofNat_toNat_toInt h0⟩

theorem firstIds_ascending (h : m.toNat < 0x80000000) : (firstIds m).Pairwise (· < ·) := by
  rw [firstIds_eq h, List.pairwise_map]
  refine List.pairwise_lt_range.imp_of_mem fun ha hb hab => ?_
  rw [List.mem_range] at ha hb
  rw [Int32.lt_iff_toInt_lt, Int32.toInt_ofNat_of_lt (by omega), Int32.toInt_ofNat_of_lt (by omega)]
  omega

theorem firstIds_nodup (h : m.toNat < 0x80000000) : (firstIds m).Nodup :=
  nodup_of_ascending (firstIds_ascending h)

/-! ## Counts and lists -/

theorem ofRequest_of_counts {r : ChangeRequest} (h : Counts r m) (current : List BrokerId) :
    ofRequest r current = .ok ⟨firstIds m, r.partitions.bind (·.replicationFactor)⟩ := by
  simp [ofRequest, ChangeRequest.isEmpty, idsAfter, h.brokers, h.partitions]

/-- The first ids are the lowest ones of the cluster if they are among them at all. -/
theorem lowest_firstIds_iff (h : m.toNat < 0x80000000) (natural : ∀ id ∈ current, 0 ≤ id.toInt) :
    Lowest m.toNat current (firstIds m) ↔ firstIds m ⊆ current := by
  refine ⟨Lowest.subset, fun hsub => ⟨firstIds_ascending h, length_firstIds h, hsub, ?_⟩⟩
  intro a ha b hb hnot
  rw [mem_firstIds h] at ha hnot
  have := natural b hb
  rw [Int32.lt_iff_toInt_lt]
  omega

theorem reaches_firstIds_iff (h : m.toNat < 0x80000000) (natural : ∀ id ∈ current, 0 ≤ id.toInt) :
    Reaches m.toNat current (firstIds m) ↔
      if m.toNat ≤ current.length then firstIds m ⊆ current else current ⊆ firstIds m := by
  unfold Reaches
  split
  · exact lowest_firstIds_iff h natural
  · rfl

/-- Brokers without a gap are the first ids in some order. -/
theorem Gapless.perm (gapless : Gapless current) (distinct : current.Nodup)
    (natural : ∀ id ∈ current, 0 ≤ id.toInt) :
    current.Perm ((List.range current.length).map Int32.ofNat) := by
  -- the brokers are as many of the first ids as there are brokers, so they are all of these
  have hsub : current ⊆ (List.range current.length).map Int32.ofNat := by
    intro id hid
    have hlt := gapless id hid
    have hnat := natural id hid
    refine List.mem_map.2 ⟨id.toInt.toNat, List.mem_range.2 ?_, ofNat_toNat_toInt hnat⟩
    rw [Int.toNat_lt hnat]
    exact hlt
  exact (distinct.subperm hsub).perm_of_length_le (by simp)

/-- All first ids up to the number of brokers are taken where there is no gap. -/
theorem Gapless.firstIds_subset (gapless : Gapless current) (distinct : current.Nodup)
    (natural : ∀ id ∈ current, 0 ≤ id.toInt) (h : m.toNat < 0x80000000)
    (hle : m.toNat ≤ current.length) : firstIds m ⊆ current := by
  rw [firstIds_eq h]
  intro id hid
  obtain ⟨i, hi, rfl⟩ := List.mem_map.1 hid
  have hi := List.mem_range.1 hi
  exact (gapless.perm distinct natural).mem_iff.2
    (List.mem_map.2 ⟨i, List.mem_range.2 (by omega), rfl⟩)

theorem Gapless.reaches (gapless : Gapless current) (distinct : current.Nodup)
    (natural : ∀ id ∈ current, 0 ≤ id.toInt) (h : m.toNat < 0x80000000) :
    Reaches m.toNat current (firstIds m) := by
  rw [reaches_firstIds_iff h natural]
  split
  · exact gapless.firstIds_subset distinct natural h ‹_›
  · intro id hid
    have := gapless id hid
    exact (mem_firstIds h).2 ⟨natural id hid, by omega⟩

/-- A gap shows when the cluster is asked for as many brokers as it has. -/
theorem gapless_of_forall_reaches
    (h : ∀ n : UInt32, 0 < n.toNat → n.toNat < 0x80000000 → Reaches n.toNat current (firstIds n)) :
    Gapless current := by
  intro id hid
  by_contra hgap
  have hid31 := id.toInt_lt
  have hpos := List.length_pos_of_mem hid
  have hm : (UInt32.ofNat current.length).toNat = current.length :=
    UInt32.toNat_ofNat_of_lt' (by rw [UInt32.size]; omega)
  have hbound : (UInt32.ofNat current.length).toNat < 0x80000000 := by omega
  have hreach := h (UInt32.ofNat current.length) (by omega) hbound
  rw [Reaches, if_pos (by omega)] at hreach
  -- as many first ids as there are brokers are all the brokers
  have hperm := ((firstIds_nodup hbound).subperm hreach.subset).perm_of_length_le
    (Nat.le_of_eq (by rw [length_firstIds hbound, hm]))
  have := (mem_firstIds hbound).1 (hperm.mem_iff.2 hid)
  omega

/-- **Broker counts in the older form**: the list holds the first ids, whatever brokers the cluster
has. So it keeps the lowest ones if all first ids are taken, it drops none if all ids are below the
count, and for all counts it comes to what they ask for just where the ids have no gaps. -/
theorem ofRequest_count (current : List BrokerId) (distinct : current.Nodup)
    (natural : ∀ id ∈ current, 0 ≤ id.toInt) :
    (∀ r n, Counts r n → ∃ l, ofRequest r current = .ok l ∧
      l.ids.map Int32.toInt = (List.range n.toNat).map Int.ofNat ∧
      l.replicationFactor = r.partitions.bind (·.replicationFactor) ∧
      (Reaches n.toNat current l.ids ↔
        if n.toNat ≤ current.length then ∀ i < n.toNat, Int32.ofNat i ∈ current
        else ∀ id ∈ current, id.toInt < n.toNat)) ∧
    (Gapless current ↔
      ∀ r n l, Counts r n → ofRequest r current = .ok l → Reaches n.toNat current l.ids) := by
  refine ⟨fun r n hc => ?_, fun gapless r n l hc hl => ?_, fun h => ?_⟩
  · refine ⟨_, ofRequest_of_counts hc current, map_toInt_firstIds hc.bounded, rfl, ?_⟩
    rw [reaches_firstIds_iff hc.bounded natural]
    split
    · simp [firstIds_eq hc.bounded, List.subset_def]
    · refine forall₂_congr fun id hid => ?_
      simp [mem_firstIds hc.bounded, natural id hid]
  · rw [ofRequest_of_counts hc current] at hl
    cases hl
    exact gapless.reaches distinct natural hc.bounded
  · refine gapless_of_forall_reaches fun n hpos hbound => ?_
    have hc : Counts (ChangeRequest.empty.scaling n) n := ⟨rfl, rfl, hpos, hbound⟩
    exact h _ n _ hc (ofRequest_of_counts hc current)

/-- The cluster of the brokers `1`, `4` and `0`, which has a gap, and one of `1`, `2` and `0`. -/
theorem ofRequest_count_gap :
    (∀ id ∈ [1, 4, 0], 0 ≤ Int32.toInt id) ∧
      (∃ l, ofRequest (ChangeRequest.empty.scaling 2) [1, 4, 0] = .ok l ∧
        Reaches 2 [1, 4, 0] l.ids) ∧
      ¬ Gapless [1, 4, 0] ∧ Gapless [1, 2, 0] ∧
      ∀ r n l, Counts r n → ofRequest r [1, 2, 0] = .ok l → Reaches n.toNat [1, 2, 0] l.ids := by
  have hnat : ∀ id ∈ [1, 4, 0], 0 ≤ Int32.toInt id := by simp
  have hgap : ¬ Gapless [1, 4, 0] := by simp [Gapless]
  have hgapless : Gapless [1, 2, 0] := by simp [Gapless]
  obtain ⟨hlist, -⟩ := ofRequest_count [1, 4, 0] (by decide) hnat
  obtain ⟨l, hl, -, -, hreach⟩ := hlist (ChangeRequest.empty.scaling 2) 2
    ⟨rfl, rfl, by decide, by decide⟩
  refine ⟨hnat, ⟨l, hl, hreach.2 ?_⟩, hgap, hgapless, ?_⟩
  · decide
  · exact (ofRequest_count [1, 2, 0] (by decide) (by simp)).2.1 hgapless

/-- Where a failover has left the brokers `0` and `2`, asking for two brokers removes `2` and adds
`1`. Where it has left `0`, `2` and `4`, the last one is removed when a fourth is asked for. -/
theorem ofRequest_count_swaps_brokers :
    (([0, 2] : List BrokerId).Nodup ∧ (∀ id ∈ [0, 2], 0 ≤ Int32.toInt id) ∧
      Counts (ChangeRequest.empty.scaling 2) 2 ∧
      ofRequest (ChangeRequest.empty.scaling 2) [0, 2] = .ok ⟨[0, 1], none⟩ ∧
      ¬ Reaches 2 [0, 2] [0, 1]) ∧
    ([0, 2, 4] : List BrokerId).Nodup ∧ (∀ id ∈ [0, 2, 4], 0 ≤ Int32.toInt id) ∧
      Counts (ChangeRequest.empty.scaling 4) 4 ∧
      ofRequest (ChangeRequest.empty.scaling 4) [0, 2, 4] = .ok ⟨[0, 1, 2, 3], none⟩ ∧
      ¬ Reaches 4 [0, 2, 4] [0, 1, 2, 3] := by
  refine ⟨⟨by decide, by simp, ⟨rfl, rfl, by decide, by decide⟩, rfl, fun h => ?_⟩,
    by decide, by simp, ⟨rfl, rfl, by decide, by decide⟩, rfl, fun h => ?_⟩
  · have hsub : [0, 1] ⊆ ([0, 2] : List BrokerId) := Lowest.subset h
    exact absurd hsub (by decide)
  · have hsub : [0, 2, 4] ⊆ ([0, 1, 2, 3] : List BrokerId) := h
    exact absurd hsub (by decide)

/-! ## Counts beyond the ids -/

/-- A count from `2 ^ 31` on is a negative broker id, so there are no ids from zero to below it. -/
theorem firstIds_eq_nil (h : 0x80000000 ≤ m.toNat) : firstIds m = [] := by
  have hneg : m.toInt32.toInt ≤ 0 := by
    have hm := m.toNat_lt
    change m.toBitVec.toInt ≤ 0
    rw [BitVec.toInt_eq_toNat_bmod]
    change Int.bmod m.toNat (2 ^ 32) ≤ 0
    rw [Int.bmod]
    omega
  unfold firstIds
  rw [Int.toNat_of_nonpos hneg]
  rfl

theorem length_firstIds_eq (m : UInt32) :
    (firstIds m).length = if m.toNat < 0x80000000 then m.toNat else 0 := by
  split
  · exact length_firstIds ‹_›
  · rw [firstIds_eq_nil (by omega)]
    rfl

theorem ids_of_count {r : ChangeRequest} {l : BrokerList} (h : r.brokers = some (.count m))
    (hl : ofRequest r current = .ok l) : l.ids = firstIds m := by
  obtain ⟨-, -, rfl⟩ := ofRequest_eq_ok_iff.1 hl
  rw [h]
  rfl

/-- What the broker list for the count `n` is, whatever the count. -/
structure Enumerates (r : ChangeRequest) (n : UInt32) (current : List BrokerId) : Prop where
  /-- Nothing but a change of the partition count stands against it. -/
  refuses : ∀ e, ofRequest r current = .error e ↔
    e = .partitionCount ∧ ∃ p, r.partitions = some p ∧ p.count ≠ none
  enumerates : ∀ l, ofRequest r current = .ok l →
    (l.ids.map Int32.toInt = (List.range n.toNat).map Int.ofNat ↔ n.toNat < 0x80000000)
  empties : ∀ l, ofRequest r current = .ok l →
    (l.ids = [] ↔ n.toNat = 0 ∨ 0x80000000 ≤ n.toNat)
  /-- A lower count has the longer list just if it is in range and `n` is not. -/
  shortens : ∀ l r' m current' l', ofRequest r current = .ok l →
    r'.brokers = some (.count m) → ofRequest r' current' = .ok l' → m.toNat ≤ n.toNat →
    (l.ids.length < l'.ids.length ↔
      0 < m.toNat ∧ m.toNat < 0x80000000 ∧ 0x80000000 ≤ n.toNat)

/-- **Broker lists of all counts**: the list holds just as many first ids as the request asks for up
to the highest broker id. From `2 ^ 31` on it is empty, so that asking for more brokers removes all. -/
theorem ofRequest_enumerates {r : ChangeRequest} {n : UInt32} (h : r.brokers = some (.count n))
    (current : List BrokerId) : Enumerates r n current := by
  refine ⟨fun e => ?_, fun l hl => ?_, fun l hl => ?_, fun l r' m current' l' hl h' hl' hle => ?_⟩
  · have hasked : r.isEmpty = false := by simp [ChangeRequest.isEmpty, h]
    unfold ofRequest
    cases hp : r.partitions with
    | none => simp [hasked]
    | some p => cases hc : p.count <;> simp [hasked, hc, eq_comm]
  · rw [ids_of_count h hl]
    constructor
    · intro hids
      have hlength := congrArg List.length hids
      rw [List.length_map, List.length_map, List.length_range, length_firstIds_eq] at hlength
      have := n.toNat_lt
      split at hlength <;> omega
    · exact map_toInt_firstIds
  · rw [ids_of_count h hl, ← List.length_eq_zero_iff, length_firstIds_eq]
    split <;> omega
  · rw [ids_of_count h hl, ids_of_count h' hl', length_firstIds_eq, length_firstIds_eq]
    split <;> split <;> omega

/-- The highest count that has its ids, were it not for the partition count, and the one above it. -/
theorem ofRequest_enumerates_limit :
    let highest := (ChangeRequest.empty.scaling 0x7fffffff).partitioning (some 8) none
    let beyond := ChangeRequest.empty.scaling 0x80000000
    highest.brokers = some (.count 0x7fffffff) ∧ Enumerates highest 0x7fffffff [0, 1] ∧
      ofRequest highest [0, 1] = .error .partitionCount ∧
      beyond.brokers = some (.count 0x80000000) ∧ Enumerates beyond 0x80000000 [0, 1] ∧
      ofRequest beyond [0, 1] = .ok ⟨[], none⟩ :=
  ⟨rfl, ofRequest_enumerates rfl _, rfl, rfl, ofRequest_enumerates rfl _, rfl⟩

/-- A request for one broker keeps one, and a request for `2 ^ 31` of them is written as the empty
list: all are to be removed. -/
theorem ofRequest_count_empties :
    ofRequest (ChangeRequest.empty.scaling 1) [0, 1] = .ok ⟨[0], none⟩ ∧
      ofRequest (ChangeRequest.empty.scaling 0x80000000) [0, 1] = .ok ⟨[], none⟩ ∧
      body ⟨[], none⟩ = "[]" ∧
      ¬ ∀ (n : UInt32) current l, ofRequest (ChangeRequest.empty.scaling n) current = .ok l →
        l.ids.map Int32.toInt = (List.range n.toNat).map Int.ofNat := by
  have hempty : ofRequest (ChangeRequest.empty.scaling 0x80000000) [0, 1] = .ok ⟨[], none⟩ := rfl
  refine ⟨rfl, hempty, by decide, fun h => ?_⟩
  have hlength := congrArg List.length (h 0x80000000 [0, 1] _ hempty)
  rw [List.length_map, List.length_map, List.length_range] at hlength
  exact absurd hlength (by decide)

end BrokerList

end ClusterScaling
