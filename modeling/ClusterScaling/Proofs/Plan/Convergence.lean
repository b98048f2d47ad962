import ClusterScaling.Proofs.Plan.Decision

/-!
# Planning converges

A plan asks for one change at a time, so a target is reached by planning again once the cluster has
carried out what was asked for (`Plan.CarriedOut`). `Plan.gap` counts the changes that a cluster is
away from a target, two at most. A plan is idle where the gap is closed, and each other plan lessens
it by one (`Plan.gap_of_carriedOut`). So planning ends, with the brokers and partitions of the target
(`Plan.planning_converges`).
-/

namespace ClusterScaling

namespace Plan

variable {t t' : Topology} {target : Target} {p : Plan} {ps : List Plan}

/-! ## Single plans -/

/-- The number of brokers that the target asks for. -/
def wantedBrokers (t : Topology) (target : Target) : Nat :=
  (target.brokers.map UInt32.toNat).getD t.brokerCount

/-- The number of partitions to end with, which is never lower than the present one. -/
def wantedPartitions (t : Topology) (target : Target) : Nat :=
  (target.partitions.map fun n => max (currentPartitions t).toNat n.toNat).getD
    (currentPartitions t).toNat

/-- The number of changes that the cluster is away from the target. -/
def gap (t : Topology) (target : Target) : Nat :=
  (if t.brokerCount = wantedBrokers t target then 0 else 1) +
    if (currentPartitions t).toNat = wantedPartitions t target then 0 else 1

theorem gap_le (t : Topology) (target : Target) : gap t target ≤ 2 := by
  unfold gap
  split <;> split <;> omega

theorem gap_eq_zero_iff :
    gap t target = 0 ↔ t.brokerCount = wantedBrokers t target ∧
      (currentPartitions t).toNat = wantedPartitions t target := by
  unfold gap
  split <;> split <;> simp [*]

/-- What is chosen for the brokers and partitions of a target, and when. -/
inductive Choice (t : Topology) (target : Target) : Plan → Prop
  | scaleDown {n} : target.brokers = some n → n.toNat < t.brokerCount →
      Choice t target (.scaleDown (currentBrokers t) n)
  | scaleUp {n} : target.brokers = some n → t.brokerCount < n.toNat →
      Choice t target (.scaleUp (currentBrokers t) n)
  | grow {n} : t.brokerCount = wantedBrokers t target → target.partitions = some n →
      (currentPartitions t).toNat < n.toNat →
      Choice t target (.changePartitions (some n) none)
  | idle {reason} : t.brokerCount = wantedBrokers t target →
      (currentPartitions t).toNat = wantedPartitions t target →
      Choice t target (.noChange reason)

/-- A plan that is due for a target without replicas is the one that the numbers ask for. -/
theorem Warranted.choice (settled : Settled t) (bare : target.replicationFactor = none)
    (h : Warranted t target (currentPartitions t).toNat p) : Choice t target p := by
  have hbrokers : KeepsBrokers t target → t.brokerCount = wantedBrokers t target := by
    intro hkeeps
    unfold wantedBrokers
    cases hn : target.brokers with
    | none => rfl
    | some n => exact (hkeeps n hn).symm
  cases p with
  | scaleDown current n =>
    obtain ⟨hcurrent, hn, hlt⟩ := h
    obtain rfl := settled.eq_currentBrokers hcurrent
    exact .scaleDown hn hlt
  | scaleUp current n =>
    obtain ⟨hcurrent, hn, hgt⟩ := h
    obtain rfl := settled.eq_currentBrokers hcurrent
    exact .scaleUp hn hgt
  | changePartitions n factor =>
    cases n with
    | none =>
      obtain ⟨-, -, ⟨hfactor, -⟩, -⟩ := h
      exact absurd bare hfactor
    | some n =>
      obtain ⟨hkeeps, hgrows, hn, rfl⟩ := h
      rw [bare]
      exact .grow (hbrokers hkeeps) hn (UInt32.lt_iff_toNat_lt.1 ((growsPartitions_iff hn).1 hgrows))
  | noChange reason =>
    obtain ⟨hkeeps, hgrows, -, -⟩ := h
    refine .idle (hbrokers hkeeps) ?_
    unfold wantedPartitions
    cases hn : target.partitions with
    | none => rfl
    | some n =>
      have hlt : ¬ currentPartitions t < n := fun h => hgrows ((growsPartitions_iff hn).2 h)
      rw [UInt32.lt_iff_toNat_lt] at hlt
      simp only [Option.map_some, Option.getD_some]
      omega

/-- A plan for a settled cluster never fails, and is the one that the numbers ask for. -/
theorem exists_choice (settled : Settled t) (bare : target.replicationFactor = none) :
    ∃ p, choose t target = .ok p ∧ Choice t target p := by
  obtain ⟨p, hp, hwarranted⟩ := exists_warranted settled target
  exact ⟨p, hp, hwarranted.choice settled bare⟩

theorem choice_of_choose (settled : Settled t) (bare : target.replicationFactor = none)
    (h : choose t target = .ok p) : Choice t target p :=
  ((choose_eq_ok_iff settled).1 h).choice settled bare

/-- A plan is idle exactly if the gap is closed. -/
theorem Choice.isIdle_iff (h : Choice t target p) : p.IsIdle ↔ gap t target = 0 := by
  rw [gap_eq_zero_iff]
  cases h with
  | scaleDown hn hlt => simp [IsIdle, wantedBrokers, hn]; omega
  | scaleUp hn hlt => simp [IsIdle, wantedBrokers, hn]; omega
  | grow hb hn hlt => simp [IsIdle, wantedPartitions, hn]; omega
  | idle hb hp => simp [IsIdle, hb, hp]

/-! ## Plans carried out -/

/-- The number of brokers after the plan, of `n` before. -/
def brokersAfter (n : Nat) : Plan → Nat
  | scaleDown _ wanted | scaleUp _ wanted => wanted.toNat
  | changePartitions _ _ | noChange _ => n

/-- The number of partitions after the plan, of `n` before. -/
def partitionsAfter (n : UInt32) : Plan → UInt32
  | changePartitions (some wanted) _ => wanted
  | changePartitions none _ | scaleDown _ _ | scaleUp _ _ | noChange _ => n

/-- The cluster `t` has become `t'` by doing just what the plan asks for, and no change is pending. -/
structure CarriedOut (p : Plan) (t t' : Topology) : Prop where
  noPending : t'.pendingChange = none
  brokers : t'.brokerCount = p.brokersAfter t.brokerCount
  partitions : currentPartitions t' = p.partitionsAfter (currentPartitions t)

/-- What a round of planning and carrying out does to the numbers of the cluster. -/
structure Nears (target : Target) (t t' : Topology) : Prop where
  settled : Settled t'
  wantedBrokers_eq : wantedBrokers t' target = wantedBrokers t target
  wantedPartitions_eq : wantedPartitions t' target = wantedPartitions t target
  brokers : t'.brokerCount = t.brokerCount ∨ t'.brokerCount = wantedBrokers t target
  partitions : (currentPartitions t).toNat ≤ (currentPartitions t').toNat

theorem nears_of_carriedOut (settled : Settled t) (h : Choice t target p)
    (done : p.CarriedOut t t') : Nears target t t' := by
  obtain ⟨hpending, hbrokers, hpartitions⟩ := done
  cases h with
  | @scaleDown n hn hlt | @scaleUp n hn hlt =>
    have hn32 := n.toNat_lt
    simp only [brokersAfter, partitionsAfter] at hbrokers hpartitions
    exact ⟨⟨hpending, by omega⟩, by simp [wantedBrokers, hn],
      by simp [wantedPartitions, hpartitions], .inr (by simp [wantedBrokers, hn, hbrokers]),
      by simp [hpartitions]⟩
  | @grow n hb hn hlt =>
    simp only [brokersAfter, partitionsAfter] at hbrokers hpartitions
    refine ⟨⟨hpending, hbrokers ▸ settled.countable⟩, by simp [wantedBrokers, hbrokers], ?_,
      .inl hbrokers, by rw [hpartitions]; omega⟩
    simp only [wantedPartitions, hn, hpartitions, Option.map_some, Option.getD_some]
    omega
  | idle hb hp =>
    simp only [brokersAfter, partitionsAfter] at hbrokers hpartitions
    exact ⟨⟨hpending, hbrokers ▸ settled.countable⟩, by simp [wantedBrokers, hbrokers],
      by simp [wantedPartitions, hpartitions], .inl hbrokers, by simp [hpartitions]⟩

/-- **One round lessens the gap by one**, unless it is closed. -/
theorem gap_of_carriedOut (settled : Settled t) (h : Choice t target p)
    (done : p.CarriedOut t t') : gap t' target = gap t target - 1 := by
  have hnears := nears_of_carriedOut settled h done
  obtain ⟨-, hbrokers, hpartitions⟩ := done
  unfold gap
  rw [hnears.wantedBrokers_eq, hnears.wantedPartitions_eq]
  cases h with
  | @scaleDown n hn hlt | @scaleUp n hn hlt =>
    have hwanted : wantedBrokers t target = n.toNat := by simp [wantedBrokers, hn]
    simp only [brokersAfter, partitionsAfter] at hbrokers hpartitions
    have hne : t.brokerCount ≠ n.toNat := by omega
    rw [hbrokers, hpartitions, hwanted, if_pos rfl, if_neg hne]
    omega
  | @grow n hb hn hlt =>
    have hwanted : wantedPartitions t target = n.toNat := by
      simp only [wantedPartitions, hn, Option.map_some, Option.getD_some]
      omega
    simp only [brokersAfter, partitionsAfter] at hbrokers hpartitions
    rw [hbrokers, hpartitions, hwanted, if_pos hb, if_pos rfl, if_neg (by omega)]
  | idle hb hp =>
    simp only [brokersAfter, partitionsAfter] at hbrokers hpartitions
    rw [hbrokers, hpartitions, if_pos hb, if_pos hp]

/-! ## Planning again and again -/

/-- Planning for the target leads from one snapshot to another by the plans `ps`, each of which the
cluster carries out before the next one is made. -/
inductive Rounds (target : Target) : Topology → List Plan → Topology → Prop
  | done {t : Topology} : Rounds target t [] t
  | next {t t' t'' : Topology} {p : Plan} {ps : List Plan} :
      choose t target = .ok p → p.CarriedOut t t' → Rounds target t' ps t'' →
      Rounds target t (p :: ps) t''

/-- What holds after the plans `ps` have led from `t` to `t'`. -/
structure Converges (target : Target) (t : Topology) (ps : List Plan) (t' : Topology) : Prop where
  /-- Planning does not fail. -/
  plans : ∃ p, choose t' target = .ok p
  /-- A plan that asks for something is the first or the second, and all before it did so too. -/
  busy : ∀ p, choose t' target = .ok p → ¬ p.IsIdle → ps.length < 2 ∧ ∀ q ∈ ps, ¬ q.IsIdle
  /-- Planning is idle once the numbers are those of the target, and not before. -/
  settles : ∀ p, choose t' target = .ok p →
    (p.IsIdle ↔ t'.brokerCount = wantedBrokers t target ∧
      (currentPartitions t').toNat = wantedPartitions t target)
  /-- The number of brokers goes to the wanted one at once. -/
  brokers : t'.brokerCount = t.brokerCount ∨ t'.brokerCount = wantedBrokers t target
  /-- The number of partitions does not shrink. -/
  partitions : (currentPartitions t).toNat ≤ (currentPartitions t').toNat

theorem Rounds.nears (h : Rounds target t ps t') (settled : Settled t)
    (bare : target.replicationFactor = none) :
    Nears target t t' ∧ gap t' target = gap t target - ps.length := by
  induction h with
  | done => exact ⟨⟨settled, rfl, rfl, .inl rfl, Nat.le_refl _⟩, rfl⟩
  | next hp hdone _ ih =>
    have hchoice := choice_of_choose settled bare hp
    have hstep := nears_of_carriedOut settled hchoice hdone
    obtain ⟨hrest, hgap⟩ := ih hstep.settled
    refine ⟨⟨hrest.settled, hrest.wantedBrokers_eq.trans hstep.wantedBrokers_eq,
      hrest.wantedPartitions_eq.trans hstep.wantedPartitions_eq, ?_,
      Nat.le_trans hstep.partitions hrest.partitions⟩, ?_⟩
    · rcases hrest.brokers with h | h
      · rw [h]
        exact hstep.brokers
      · exact .inr (h.trans hstep.wantedBrokers_eq)
    · rw [hgap, gap_of_carriedOut settled hchoice hdone, List.length_cons]
      omega

/-- As long as the gap is open, no plan was idle. -/
theorem Rounds.not_isIdle (h : Rounds target t ps t') (settled : Settled t)
    (bare : target.replicationFactor = none) (hopen : 0 < gap t' target) :
    ∀ q ∈ ps, ¬ q.IsIdle := by
  induction h with
  | done => simp
  | @next t _ _ p ps hp hdone hrounds ih =>
    have hchoice := choice_of_choose settled bare hp
    have hstep := nears_of_carriedOut settled hchoice hdone
    have hall : Rounds target t (p :: ps) _ := .next hp hdone hrounds
    have hgap := (hall.nears settled bare).2
    intro q hq
    rcases List.mem_cons.1 hq with rfl | hq
    · rw [hchoice.isIdle_iff]
      omega
    · exact ih hstep.settled hopen q hq

/-- **Planning converges.** For all clusters and targets, at most the first two plans ask for
anything, and planning is idle from then on, with the brokers of the target and no fewer partitions
than before. -/
theorem planning_converges (settled : Settled t) (bare : target.replicationFactor = none)
    (h : Rounds target t ps t') : Converges target t ps t' := by
  obtain ⟨hnears, hgap⟩ := h.nears settled bare
  have hidle : ∀ p, choose t' target = .ok p → (p.IsIdle ↔ gap t' target = 0) := fun p hp =>
    (choice_of_choose hnears.settled bare hp).isIdle_iff
  refine ⟨?_, fun p hp hbusy => ?_, fun p hp => ?_, hnears.brokers, hnears.partitions⟩
  · obtain ⟨p, hp, -⟩ := exists_choice hnears.settled bare
    exact ⟨p, hp⟩
  · rw [hidle p hp] at hbusy
    have hle := gap_le t target
    exact ⟨by omega, h.not_isIdle settled bare (Nat.pos_of_ne_zero hbusy)⟩
  · rw [hidle p hp, gap_eq_zero_iff, hnears.wantedBrokers_eq, hnears.wantedPartitions_eq]

/-- From two brokers with one partition to three brokers with four partitions. -/
theorem planning_converges_twice :
    let target : Target := ⟨some 3, some 4, none⟩
    let plans := [scaleUp 2 3, changePartitions (some 4) none]
    Settled (evenCluster 2 1) ∧ target.replicationFactor = none ∧
      Rounds target (evenCluster 2 1) plans (evenCluster 3 4) ∧
      Converges target (evenCluster 2 1) plans (evenCluster 3 4) ∧
      choose (evenCluster 3 4) target = .ok (.noChange (.partitionShrink 4 4)) := by
  intro target plans
  have hsettled : Settled (evenCluster 2 1) := ⟨rfl, by decide⟩
  have hgrow : (scaleUp 2 3).CarriedOut (evenCluster 2 1) (evenCluster 3 1) :=
    ⟨rfl, by decide, by decide⟩
  have hspread : (changePartitions (some 4) none).CarriedOut (evenCluster 3 1) (evenCluster 3 4) :=
    ⟨rfl, by decide, by decide⟩
  have hrounds : Rounds target (evenCluster 2 1) plans (evenCluster 3 4) :=
    .next rfl hgrow (.next rfl hspread .done)
  exact ⟨hsettled, rfl, hrounds, planning_converges hsettled rfl hrounds, rfl⟩

end Plan

end ClusterScaling
