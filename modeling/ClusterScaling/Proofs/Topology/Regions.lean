import Mathlib.Data.Int.ModEq
import ClusterScaling.Region

/-!
# Regions share out the brokers

A broker lives in the region that its id leaves as remainder, and so in one region only. A failover to
that region keeps it, and a failover to any other lists it to be removed
(`RegionLayout.exists_home`). What is listed and what is kept make up the snapshot, in its order
(`Interleaves`). `RegionLayout.brokers_sharedOut` says so for all numbers of regions.
-/

namespace ClusterScaling

/-! ## Interleavings -/

/-- The third list takes its members in turn from the first two, in their order and till both have
ended. -/
inductive Interleaves {α : Type} : List α → List α → List α → Prop
  | nil : Interleaves [] [] []
  | left {a : α} {xs ys zs : List α} : Interleaves xs ys zs → Interleaves (a :: xs) ys (a :: zs)
  | right {a : α} {xs ys zs : List α} : Interleaves xs ys zs → Interleaves xs (a :: ys) (a :: zs)

theorem interleaves_filter {α : Type} (p : α → Bool) (xs : List α) :
    Interleaves (xs.filter p) (xs.filter fun x => !p x) xs := by
  induction xs with
  | nil => exact .nil
  | cons x xs ih =>
    cases hx : p x with
    | true =>
      rw [List.filter_cons_of_pos hx, List.filter_cons_of_neg (by simp [hx])]
      exact ih.left
    | false =>
      rw [List.filter_cons_of_neg (by simp [hx]), List.filter_cons_of_pos (by simp [hx])]
      exact ih.right

namespace Topology

variable {t : Topology} {l : RegionLayout} {id : BrokerId} {ids : List BrokerId}

/-- The ids of the brokers that are not listed to be removed, in the order of the snapshot. -/
def brokersKept (t : Topology) (l : RegionLayout) : List BrokerId :=
  t.brokerIds.filter fun id => id ∉ t.brokersOutside l

/-- The snapshot after the brokers `ids` have left. -/
def without (t : Topology) (ids : List BrokerId) : Topology :=
  { t with brokers := t.brokers.filter fun b => b.id ∉ ids }

theorem mem_brokersOutside :
    id ∈ t.brokersOutside l ↔ id ∈ t.brokerIds ∧ l.regionOf id ≠ l.target := by
  simp [brokersOutside]

theorem brokersKept_eq :
    t.brokersKept l = t.brokerIds.filter fun id => !decide (l.regionOf id ≠ l.target) := by
  refine List.filter_congr fun id hid => ?_
  simp [mem_brokersOutside, hid]

theorem mem_brokerIds_without : id ∈ (t.without ids).brokerIds ↔ id ∈ t.brokerIds ∧ id ∉ ids := by
  simp only [brokerIds, without, List.mem_map, List.mem_filter, decide_eq_true_eq]
  constructor
  · rintro ⟨b, ⟨hb, hgone⟩, rfl⟩
    exact ⟨⟨b, hb, rfl⟩, hgone⟩
  · rintro ⟨⟨b, hb, rfl⟩, hgone⟩
    exact ⟨b, ⟨hb, hgone⟩, rfl⟩

theorem brokersOutside_without (t : Topology) (l : RegionLayout) :
    (t.without (t.brokersOutside l)).brokersOutside l = [] := by
  rw [List.eq_nil_iff_forall_not_mem]
  intro id hid
  obtain ⟨hleft, hregion⟩ := mem_brokersOutside.1 hid
  obtain ⟨hid, hgone⟩ := mem_brokerIds_without.1 hleft
  exact hgone (mem_brokersOutside.2 ⟨hid, hregion⟩)

end Topology

namespace RegionLayout

variable {l m : RegionLayout} {id : BrokerId} {t : Topology} {regions : UInt32}

/-! ## The region of a broker -/

theorem regionOf_lt (l : RegionLayout) (id : BrokerId) : l.regionOf id < l.regions := by
  have hpos := l.regions_pos
  have hregion := l.toNat_regionOf id
  have hlt := Int.emod_lt_of_pos id.toInt (b := l.regions.toNat) (by omega)
  rw [UInt32.lt_iff_toNat_lt]
  omega

theorem regionOf_modEq (l : RegionLayout) (id : BrokerId) :
    id.toInt ≡ (l.regionOf id).toNat [ZMOD l.regions.toNat] := by
  rw [toNat_regionOf]
  exact (Int.mod_modEq _ _).symm

theorem regionOf_congr (h : l.regions = m.regions) (id : BrokerId) :
    l.regionOf id = m.regionOf id := by
  unfold regionOf
  rw [h]

theorem eq_of_target_eq (hregions : l.regions = m.regions) (htarget : l.target = m.target) :
    l = m := by
  cases l
  cases m
  cases hregions
  cases htarget
  rfl

theorem ofCounts_eq_ok_iff {target : UInt32} :
    ofCounts regions target = .ok l ↔ l.regions = regions ∧ l.target = target := by
  unfold ofCounts
  split
  · rename_i h0
    refine ⟨nofun, ?_⟩
    rintro ⟨rfl, -⟩
    have := l.regions_pos
    rw [h0] at this
    cases this
  · split
    · constructor
      · rintro ⟨⟩
        exact ⟨rfl, rfl⟩
      · rintro ⟨rfl, rfl⟩
        rfl
    · rename_i hout
      refine ⟨nofun, ?_⟩
      rintro ⟨rfl, rfl⟩
      exact absurd l.target_lt hout

/-! ## Brokers kept and brokers listed -/

/-- The layout of as many regions of which the region of the broker survives. -/
def home (l : RegionLayout) (id : BrokerId) : RegionLayout :=
  ⟨l.regions, l.regionOf id, l.regionOf_lt id⟩

theorem regionOf_eq_target_iff_eq_home (h : m.regions = l.regions) :
    m.regionOf id = m.target ↔ m = l.home id := by
  rw [regionOf_congr h id]
  constructor
  · intro htarget
    exact eq_of_target_eq h htarget.symm
  · rintro rfl
    rfl

/-- A broker is kept by one layout and listed by all others. -/
theorem exists_home (l : RegionLayout) (hid : id ∈ t.brokerIds) :
    ∃ h : RegionLayout, h.regions = l.regions ∧ id ∉ t.brokersOutside h ∧
      ∀ m : RegionLayout, m.regions = l.regions → m ≠ h → id ∈ t.brokersOutside m := by
  refine ⟨l.home id, rfl, fun hout => ?_, fun m hm hne => ?_⟩
  · have hregion := (Topology.mem_brokersOutside.1 hout).2
    exact hregion ((regionOf_eq_target_iff_eq_home rfl).2 rfl)
  · refine Topology.mem_brokersOutside.2 ⟨hid, fun htarget => ?_⟩
    exact hne ((regionOf_eq_target_iff_eq_home hm).1 htarget)

theorem interleaves_brokersKept (t : Topology) (l : RegionLayout) :
    Interleaves (t.brokersOutside l) (t.brokersKept l) t.brokerIds := by
  rw [Topology.brokersKept_eq]
  exact interleaves_filter _ _

/-- How the layouts of so many regions share out the brokers of a snapshot. -/
structure SharesOut (regions : UInt32) (t : Topology) : Prop where
  /-- Each region can be the one that is to survive. -/
  targets : ∀ target, (∃ l, ofCounts regions target = .ok l) ↔ target < regions
  layouts : ∀ target l, ofCounts regions target = .ok l ↔ l.regions = regions ∧ l.target = target
  resides : ∀ l : RegionLayout, l.regions = regions → ∀ id, l.regionOf id < regions ∧
    id.toInt ≡ (l.regionOf id).toNat [ZMOD regions.toNat]
  keepsOnce : ∀ id ∈ t.brokerIds, ∃ l : RegionLayout, l.regions = regions ∧
    id ∉ t.brokersOutside l ∧
    ∀ m : RegionLayout, m.regions = regions → m ≠ l → id ∈ t.brokersOutside m
  makesUp : ∀ l : RegionLayout, l.regions = regions →
    Interleaves (t.brokersOutside l) (t.brokersKept l) t.brokerIds
  /-- No broker is kept by two layouts. -/
  covers : ∀ l m : RegionLayout, l.regions = regions → m.regions = regions → l ≠ m →
    ∀ id ∈ t.brokerIds, id ∈ t.brokersOutside l ∨ id ∈ t.brokersOutside m
  /-- Nothing is left to remove once it has been done. -/
  settles : ∀ l : RegionLayout, l.regions = regions →
    (t.without (t.brokersOutside l)).brokersOutside l = []

/-- **Regions share out the brokers**, for all numbers of regions and all snapshots. -/
theorem brokers_sharedOut (regions : UInt32) (hpos : 0 < regions) (t : Topology) :
    SharesOut regions t := by
  have htargets : ∀ target, (∃ l, ofCounts regions target = .ok l) ↔ target < regions := by
    intro target
    constructor
    · rintro ⟨l, hl⟩
      obtain ⟨rfl, rfl⟩ := ofCounts_eq_ok_iff.1 hl
      exact l.target_lt
    · intro hlt
      exact ⟨⟨regions, target, hlt⟩, ofCounts_eq_ok_iff.2 ⟨rfl, rfl⟩⟩
  refine ⟨htargets, fun target l => ofCounts_eq_ok_iff, ?_, fun id hid => ?_,
    fun l _ => interleaves_brokersKept t l, ?_, fun l _ => t.brokersOutside_without l⟩
  · rintro l rfl id
    exact ⟨l.regionOf_lt id, l.regionOf_modEq id⟩
  · exact exists_home ⟨regions, 0, hpos⟩ hid
  · rintro l m rfl hm hne id hid
    obtain ⟨h, hregions, -, hall⟩ := exists_home l hid
    by_cases hl : l = h
    · exact .inr (hall m hm (by rintro rfl; exact hne hl))
    · exact .inl (hall l rfl hl)

/-- Of three regions, the second one has the brokers `-2` and `1`. -/
theorem brokers_sharedOut_negative :
    let brokers : List Broker := [5, -2, -1, 5, 1].map fun id => ⟨id, "ACTIVE", 1, []⟩
    let t : Topology := ⟨1, none, brokers, none, none, none⟩
    let layout : RegionLayout := ⟨3, 1, by decide⟩
    0 < (3 : UInt32) ∧ SharesOut 3 t ∧
      t.brokersOutside layout = [5, -1, 5] ∧ t.brokersKept layout = [-2, 1] := by
  intro brokers t layout
  have hpos : 0 < (3 : UInt32) := by decide
  exact ⟨hpos, brokers_sharedOut 3 hpos t, by decide, by decide⟩

end RegionLayout

end ClusterScaling
