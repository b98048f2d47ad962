import ClusterScaling.Proofs.Failover.RemovalOrder
import ClusterScaling.Proofs.Request.BrokerCount
import ClusterScaling.Proofs.Topology.Regions

/-!
# What a failover leaves

A failover is to leave one region alive. Just the brokers of that region are left, so it comes down
to whether the snapshot that is acted upon shows any. Nothing makes sure of it: where none lives in
the region, all brokers are removed (`Failover.run_survival`), as are the brokers `1` and `3` for
the first of two regions (`Failover.run_removes_all`). A cluster whose ids have no gap has a broker in
each region of a number below that of its brokers (`RegionLayout.exists_survives_iff`).
-/

namespace ClusterScaling

open Exchange

variable {σ : Type}

namespace RegionLayout

variable {l : RegionLayout} {t : Topology} {ids : List BrokerId}

theorem mem_brokersOutside_iff {id : BrokerId} :
    id ∈ t.brokersOutside l ↔ id ∈ t.brokerIds ∧ ¬ l.Survives id := by
  rw [Topology.mem_brokersOutside, Ne, regionOf_eq_target_iff]

/-- Of brokers without a gap there is one in the surviving region just if the region's number is
below that of the brokers. -/
theorem exists_survives_iff (gapless : BrokerList.Gapless ids) (distinct : ids.Nodup)
    (natural : ∀ id ∈ ids, 0 ≤ id.toInt) :
    (∃ id ∈ ids, l.Survives id) ↔ l.target.toNat < ids.length := by
  have htarget := UInt32.lt_iff_toNat_lt.1 l.target_lt
  constructor
  · rintro ⟨id, hid, hsurvives⟩
    have hlt := gapless id hid
    rw [Survives] at hsurvives
    by_cases hsmall : id.toInt < l.regions.toNat
    · rw [Int.emod_eq_of_lt (natural id hid) hsmall] at hsurvives
      omega
    · omega
  · intro hlt
    -- the broker that has the number of the region as its id lives there
    have hid : Int32.ofNat l.target.toNat ∈ ids :=
      (gapless.perm distinct natural).mem_iff.2 (List.mem_map.2 ⟨_, List.mem_range.2 hlt, rfl⟩)
    have hnat := natural _ hid
    have htarget32 := l.target.toNat_lt
    have hint : (Int32.ofNat l.target.toNat).toInt = l.target.toNat := by
      rw [Int32.toInt_ofNat', Int32.size, Int.bmod] at hnat ⊢
      omega
    refine ⟨_, hid, ?_⟩
    rw [Survives, hint]
    exact Int.emod_eq_of_lt (by omega) (by omega)

end RegionLayout

namespace Failover

variable (layout : RegionLayout) {t : Topology} {asked x : List (Exchange σ)} {q : Exchange σ}
  {expected : UInt32}

/-- After the snapshot of `q`, the exchange `u` asks to remove all brokers that the snapshot shows. -/
def RemovesAll (q u : Exchange σ) : Prop :=
  ∃ t ids, q.snapshot? = some t ∧ u.call = .submit (removal ids) true ∧
    ∀ id ∈ t.brokerIds, id ∈ ids

/-- Which brokers a run with the course `c` leaves. -/
structure Survival (expected : UInt32) (c : Course σ Report) : Prop where
  /-- A removal leaves the brokers of the surviving region, of those that it was computed from. -/
  leaves : ∀ before u after request force, c.exchanges = before ++ u :: after →
    u.call = .submit request force →
    ∃ asked q t ids, before = asked ++ [q] ∧ q.snapshot? = some t ∧
      t.brokerCount = expected.toNat ∧ request = removal ids ∧
      ∀ id ∈ t.brokerIds, id ∉ ids ↔ layout.Survives id
  /-- All brokers are removed just if the snapshot that is acted upon shows none of the surviving
  region. -/
  empties : (∃ before q u after, c.exchanges = before ++ q :: u :: after ∧ RemovesAll q u) ↔
    ∃ asked q t after, c.exchanges = asked ++ q :: after ∧ FirstShown expected asked q t ∧
      t.pendingChange = none ∧ ∀ id ∈ t.brokerIds, ¬ layout.Survives id
  /-- A snapshot without gaps shows a broker of the surviving region just if there are more brokers
  than regions before it. -/
  gapless : ∀ asked q t after, c.exchanges = asked ++ q :: after → FirstShown expected asked q t →
    BrokerList.Gapless t.brokerIds → t.brokerIds.Nodup → (∀ id ∈ t.brokerIds, 0 ≤ id.toInt) →
    ((∃ id ∈ t.brokerIds, layout.Survives id) ↔ layout.target.toNat < expected.toNat)

theorem forall_mem_brokersOutside_iff :
    (∀ id ∈ t.brokerIds, id ∈ t.brokersOutside layout) ↔
      ∀ id ∈ t.brokerIds, ¬ layout.Survives id := by
  simp only [RegionLayout.mem_brokersOutside_iff]
  exact forall₂_congr fun id hid => and_iff_right hid

theorem removal_inj {ids ids' : List BrokerId} (h : removal ids = removal ids') : ids = ids' := by
  simpa [removal] using h

variable (env : Environment σ) (s : σ) (time : Nat)

/-- **Which brokers a failover leaves**, for all answers of the cluster and all stop signals: those
of the surviving region, and so none at all exactly if the snapshot that it acts upon shows none
there. -/
theorem run_survival (ready change : WaitBounds) (hexpected : 0 < expected.toNat) :
    Survival layout expected (env.run (run ready change expected layout) s time) := by
  have hgapless : ∀ asked q t after,
      (env.run (run ready change expected layout) s time).exchanges = asked ++ q :: after →
      FirstShown expected asked q t → BrokerList.Gapless t.brokerIds → t.brokerIds.Nodup →
      (∀ id ∈ t.brokerIds, 0 ≤ id.toInt) →
      ((∃ id ∈ t.brokerIds, layout.Survives id) ↔ layout.target.toNat < expected.toNat) := by
    intro asked q t after _ hfirst hgapless hdistinct hnatural
    rw [RegionLayout.exists_survives_iff hgapless hdistinct hnatural, ← hfirst.shows.2,
      Topology.brokerIds, List.length_map, Topology.brokerCount]
  obtain ⟨hqueries, ⟨stop, -, -, hx, hunseen⟩ | ⟨asked, q, t, x, -, hx, hfirst, hcourse, hdecision⟩⟩ :=
    run_cases env s time change layout ready expected
  · -- nothing is submitted, and no snapshot is acted upon
    refine ⟨fun before u after request force hsplit hu => ?_, ⟨?_, ?_⟩, hgapless⟩
    · rw [hqueries u (by rw [← hx, hsplit]; simp)] at hu
      cases hu
    · rintro ⟨before, q, u, after, hsplit, t, ids, -, hu, -⟩
      rw [hqueries u (by rw [← hx, hsplit]; simp)] at hu
      cases hu
    · rintro ⟨asked, q, t, after, hsplit, hfirst, -⟩
      exact absurd hfirst.shows (hunseen q (by rw [← hx, hsplit]; simp) t)
  · have hq : ∀ e ∈ asked ++ [q], e.call = .query := fun e he => hqueries e (hx ▸ he)
    have hcount := hfirst.shows.2
    have hsome : ∃ id, id ∈ t.brokerIds := by
      refine List.exists_mem_of_length_pos ?_
      rw [Topology.brokerIds, List.length_map]
      show 0 < t.brokerCount
      omega
    have hcourse := hcourse.trans (List.append_cons asked q x)
    refine ⟨fun before u after request force hsplit hu => ?_, ⟨?_, ?_⟩, hgapless⟩
    · obtain ⟨rfl, -, -, -, rfl, -⟩ := hdecision.submits hq (hcourse.symm.trans hsplit) hu
      refine ⟨asked, q, t, _, rfl, hfirst.shows.1, hcount, rfl, fun id hid => ?_⟩
      rw [RegionLayout.mem_brokersOutside_iff, not_and_not_right]
      exact ⟨fun h => h hid, fun h _ => h⟩
    · rintro ⟨before, q', u, after, hsplit, t', ids, ht', hu, hall⟩
      rw [List.append_cons] at hsplit
      obtain ⟨hbefore, -, hp, -, hids, -⟩ := hdecision.submits hq (hcourse.symm.trans hsplit) hu
      obtain ⟨rfl, rfl⟩ : before = asked ∧ q' = q := by simpa using hbefore
      obtain rfl := removal_inj hids
      obtain rfl : t' = t := Option.some.inj (ht'.symm.trans hfirst.shows.1)
      exact ⟨before, q', t', x, by simpa using hcourse, hfirst, hp,
        (forall_mem_brokersOutside_iff layout).1 hall⟩
    · rintro ⟨asked', q', t', after, hsplit, hfirst', hp, hnone⟩
      obtain ⟨rfl, rfl, rfl, rfl⟩ :=
        hfirst'.unique hfirst (hsplit.symm.trans (by simpa using hcourse))
      have hall := (forall_mem_brokersOutside_iff layout).2 hnone
      obtain ⟨id, hid⟩ := hsome
      obtain ⟨u, rest, rfl, hu⟩ := hdecision.removes hp (List.ne_nil_of_mem (hall id hid))
      exact ⟨asked', q', u, rest, hsplit, t', _, hfirst.shows.1, hu, hall⟩

/-- A world with brokers of the given ids that carries out a change request at once. -/
def obliging (ids : List BrokerId) : Script :=
  let brokers : List Broker := ids.map fun id => ⟨id, "ACTIVE", 1, []⟩
  let snapshot last : Topology := ⟨1, none, brokers, last, none, none⟩
  { queries := [some (0, .ok (snapshot none)),
      some (0, .ok (snapshot (some ⟨5, "COMPLETED", none, none⟩)))]
    submission := some (0, .ok ⟨5, [], [], []⟩) }

/-- The first of two regions survives with the brokers `0` and `2`. -/
theorem run_survival_even :
    let layout : RegionLayout := ⟨2, 0, by decide⟩
    let course := (obliging [0, 1, 2, 3]).run (run ⟨⟨10⟩, ⟨100⟩⟩ ⟨⟨10⟩, ⟨100⟩⟩ 4 layout)
    0 < (4 : UInt32).toNat ∧ Survival layout 4 course ∧
      course.calls.map Prod.snd = [.query, .submit (removal [1, 3]) true, .query] ∧
      layout.Survives 0 ∧ layout.Survives 2 := by
  intro layout course
  have hexpected : 0 < (4 : UInt32).toNat := by decide
  refine ⟨hexpected, ?_, by decide +kernel, ?_, ?_⟩
  · exact run_survival layout (obliging [0, 1, 2, 3]).environment (obliging [0, 1, 2, 3]).queries 0
      ⟨⟨10⟩, ⟨100⟩⟩ ⟨⟨10⟩, ⟨100⟩⟩ hexpected
  · show (0 : Int) % 2 = 0
    decide
  · show (2 : Int) % 2 = 0
    decide

/-- Where an earlier failover has left the brokers `1` and `3`, one to the first of two regions
removes both. -/
theorem run_removes_all :
    let layout : RegionLayout := ⟨2, 0, by decide⟩
    let course := (obliging [1, 3]).run (run ⟨⟨10⟩, ⟨100⟩⟩ ⟨⟨10⟩, ⟨100⟩⟩ 2 layout)
    course.calls.map Prod.snd = [.query, .submit (removal [1, 3]) true, .query] ∧
      ∃ before q u after, course.exchanges = before ++ q :: u :: after ∧ RemovesAll q u := by
  refine ⟨rfl, [], _, _, _, rfl, _, [1, 3], rfl, rfl, ?_⟩
  exact fun _ h => h

end Failover

end ClusterScaling
