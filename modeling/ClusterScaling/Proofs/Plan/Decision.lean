import ClusterScaling.Plan

/-!
# Which plan is chosen

Brokers go before partitions, and new partitions before more replicas. `Plan.Warranted` says for each
plan when it is due, and `Plan.choose_eq_ok_iff` that the plan for a target is the one that is. What
a plan then asks the cluster for is named by the target (`Plan.Asks`). `Plan.choose_prioritises` puts
both together.
-/

namespace ClusterScaling

variable {t : Topology} {target : Target} {hosted : Nat}

/-! ## Partitions in effect -/

/-- The cluster hosts partitions up to the number `n`: the highest id of a hosted partition, or zero
if there is none above it. -/
structure Topology.HostsUpTo (t : Topology) (n : Nat) : Prop where
  bound : ∀ b ∈ t.brokers, ∀ p ∈ b.partitions, p.id.toInt ≤ n
  reached : n = 0 ∨ ∃ b ∈ t.brokers, ∃ p ∈ b.partitions, p.id.toInt = n

theorem Topology.HostsUpTo.le {n m : Nat} (h : t.HostsUpTo n) (h' : t.HostsUpTo m) : n ≤ m := by
  rcases h.reached with h0 | ⟨b, hb, p, hp, hid⟩
  · omega
  · have := h'.bound b hb p hp
    omega

namespace Plan

theorem toNat_currentPartitions (t : Topology) :
    (currentPartitions t).toNat = t.partitionCount.toInt.toNat := by
  have := t.partitionCount.toInt_lt
  unfold currentPartitions
  exact UInt32.toNat_ofNat_of_lt' (by rw [UInt32.size]; omega)

theorem mem_partitionIds {id : PartitionId} :
    id ∈ t.partitionIds ↔ ∃ b ∈ t.brokers, ∃ p ∈ b.partitions, p.id = id := by
  simp [Topology.partitionIds]

theorem hostsUpTo_currentPartitions (t : Topology) : t.HostsUpTo (currentPartitions t).toNat := by
  rw [toNat_currentPartitions]
  unfold Topology.partitionCount
  cases hmax : t.partitionIds.max? with
  | none =>
    have hnone := List.max?_eq_none_iff.1 hmax
    refine ⟨fun b hb p hp => ?_, .inl rfl⟩
    have hmem := mem_partitionIds.2 ⟨b, hb, p, hp, rfl⟩
    rw [hnone] at hmem
    cases hmem
  | some highest =>
    obtain ⟨hmem, hbound⟩ := List.max?_eq_some_iff.1 hmax
    rw [Option.getD_some]
    refine ⟨fun b hb p hp => ?_, ?_⟩
    · have hle := Int32.le_iff_toInt_le.1 (hbound _ (mem_partitionIds.2 ⟨b, hb, p, hp, rfl⟩))
      omega
    · obtain ⟨b, hb, p, hp, rfl⟩ := mem_partitionIds.1 hmem
      by_cases hpos : 0 < p.id.toInt
      · exact .inr ⟨b, hb, p, hp, by omega⟩
      · exact .inl (by omega)

theorem hostsUpTo_iff : t.HostsUpTo hosted ↔ hosted = (currentPartitions t).toNat := by
  have hcurrent := hostsUpTo_currentPartitions t
  constructor
  · intro h
    exact Nat.le_antisymm (h.le hcurrent) (hcurrent.le h)
  · rintro rfl
    exact hcurrent

/-! ## Plans and their warrants -/

/-- The plan asks for nothing. -/
def IsIdle (p : Plan) : Prop := ∃ reason, p = noChange reason

/-- The brokers of the cluster can be counted, and no change is pending. -/
structure Settled (t : Topology) : Prop where
  noPending : t.pendingChange = none
  countable : t.brokerCount < 0x100000000

theorem toNat_currentBrokers (h : t.brokerCount < 0x100000000) :
    (currentBrokers t).toNat = t.brokerCount :=
  UInt32.toNat_ofNat_of_lt' (by rw [UInt32.size]; omega)

theorem Settled.eq_currentBrokers {n : UInt32} (settled : Settled t)
    (h : n.toNat = t.brokerCount) : n = currentBrokers t := by
  rw [← UInt32.toNat_inj, toNat_currentBrokers settled.countable]
  exact h

/-- The target leaves the number of brokers as it is. -/
def KeepsBrokers (t : Topology) (target : Target) : Prop :=
  ∀ n, target.brokers = some n → n.toNat = t.brokerCount

/-- The target asks for more than the `hosted` partitions. -/
def GrowsPartitions (target : Target) (hosted : Nat) : Prop :=
  ∃ n, target.partitions = some n ∧ hosted < n.toNat

/-- The target asks for replicas of the partitions that there are. -/
def Replicates (target : Target) (hosted : Nat) : Prop :=
  target.replicationFactor ≠ none ∧ ∀ n, target.partitions = some n → n.toNat = hosted

/-- The reason says why nothing is to be done about the partitions. -/
def Explains (target : Target) (hosted : Nat) : NoChangeReason → Prop
  | .atTarget => target.partitions = none
  | .partitionShrink current requested =>
    current.toNat = hosted ∧ target.partitions = some requested

/-- When each plan is due for a cluster with the partitions `hosted`. -/
def Warranted (t : Topology) (target : Target) (hosted : Nat) : Plan → Prop
  | scaleDown current wanted =>
    current.toNat = t.brokerCount ∧ target.brokers = some wanted ∧ wanted.toNat < t.brokerCount
  | scaleUp current wanted =>
    current.toNat = t.brokerCount ∧ target.brokers = some wanted ∧ t.brokerCount < wanted.toNat
  | changePartitions (some n) factor =>
    KeepsBrokers t target ∧ GrowsPartitions target hosted ∧
      target.partitions = some n ∧ factor = target.replicationFactor
  | changePartitions none factor =>
    KeepsBrokers t target ∧ ¬ GrowsPartitions target hosted ∧ Replicates target hosted ∧
      factor = target.replicationFactor
  | noChange reason =>
    KeepsBrokers t target ∧ ¬ GrowsPartitions target hosted ∧ ¬ Replicates target hosted ∧
      Explains target hosted reason

/-! ## Rows of the choice

Each row is an equation under the condition that no row before it applies. -/

section
variable (settled : Settled t)
include settled

theorem choose_of_fewer {n : UInt32} (hn : target.brokers = some n) (hlt : n.toNat < t.brokerCount) :
    choose t target = .ok (.scaleDown (currentBrokers t) n) := by
  have hcount := toNat_currentBrokers settled.countable
  have hlt : n < currentBrokers t := UInt32.lt_iff_toNat_lt.2 (by omega)
  unfold choose
  simp [settled.noPending, hn, hlt]

theorem choose_of_more {n : UInt32} (hn : target.brokers = some n) (hgt : t.brokerCount < n.toNat) :
    choose t target = .ok (.scaleUp (currentBrokers t) n) := by
  have hcount := toNat_currentBrokers settled.countable
  have hgt : currentBrokers t < n := UInt32.lt_iff_toNat_lt.2 (by omega)
  have hlt : ¬ n < currentBrokers t := by
    rw [UInt32.lt_iff_toNat_lt] at hgt ⊢
    omega
  unfold choose
  simp [settled.noPending, hn, hlt, hgt]

theorem choose_of_keepsBrokers (h : KeepsBrokers t target) :
    choose t target = .ok (ofPartitions (currentPartitions t) target) := by
  unfold choose
  rw [settled.noPending]
  cases hn : target.brokers with
  | none => rfl
  | some n =>
    obtain rfl := settled.eq_currentBrokers (h n hn)
    simp

end

theorem growsPartitions_iff {n current : UInt32} (hn : target.partitions = some n) :
    GrowsPartitions target current.toNat ↔ current < n := by
  simp [GrowsPartitions, hn, UInt32.lt_iff_toNat_lt]

section
variable {n current : UInt32}

theorem ofPartitions_of_grows (hn : target.partitions = some n)
    (hgrows : GrowsPartitions target current.toNat) :
    ofPartitions current target = .changePartitions (some n) target.replicationFactor := by
  have hlt := (growsPartitions_iff hn).1 hgrows
  unfold ofPartitions
  simp [hn, hlt]

theorem ofPartitions_of_replicates (hgrows : ¬ GrowsPartitions target current.toNat)
    (hreplicates : Replicates target current.toNat) :
    ofPartitions current target = .changePartitions none target.replicationFactor := by
  obtain ⟨hfactor, hsame⟩ := hreplicates
  obtain ⟨f, hf⟩ := Option.ne_none_iff_exists'.1 hfactor
  unfold ofPartitions
  cases hn : target.partitions with
  | none => simp [hf]
  | some n =>
    obtain rfl : n = current := UInt32.toNat_inj.1 (hsame n hn)
    simp [hf]

theorem ofPartitions_of_atTarget (hn : target.partitions = none)
    (hreplicates : ¬ Replicates target hosted) :
    ofPartitions current target = .noChange .atTarget := by
  unfold ofPartitions
  cases hf : target.replicationFactor with
  | none => simp [hn]
  | some f => exact absurd ⟨by simp [hf], by simp [hn]⟩ hreplicates

theorem ofPartitions_of_shrink (hn : target.partitions = some n)
    (hgrows : ¬ GrowsPartitions target current.toNat)
    (hreplicates : ¬ Replicates target current.toNat) :
    ofPartitions current target = .noChange (.partitionShrink current n) := by
  have hlt : ¬ current < n := fun h => hgrows ((growsPartitions_iff hn).2 h)
  unfold ofPartitions
  cases hf : target.replicationFactor with
  | none => simp [hn, hlt]
  | some f =>
    have hne : n ≠ current := by
      rintro rfl
      exact hreplicates ⟨by simp [hf], by simp [hn]⟩
    simp [hn, hlt, hne]

end

/-! ## The plan that is due -/

theorem ofPartitions_warranted (hkeeps : KeepsBrokers t target) (current : UInt32) :
    Warranted t target current.toNat (ofPartitions current target) := by
  by_cases hgrows : GrowsPartitions target current.toNat
  · obtain ⟨n, hn, -⟩ := id hgrows
    rw [ofPartitions_of_grows hn hgrows]
    exact ⟨hkeeps, hgrows, hn, rfl⟩
  · by_cases hreplicates : Replicates target current.toNat
    · rw [ofPartitions_of_replicates hgrows hreplicates]
      exact ⟨hkeeps, hgrows, hreplicates, rfl⟩
    · cases hn : target.partitions with
      | none =>
        rw [ofPartitions_of_atTarget hn hreplicates]
        exact ⟨hkeeps, hgrows, hreplicates, hn⟩
      | some n =>
        rw [ofPartitions_of_shrink hn hgrows hreplicates]
        exact ⟨hkeeps, hgrows, hreplicates, rfl, hn⟩

/-- A plan for a settled cluster never fails, and it is due. -/
theorem exists_warranted (settled : Settled t) (target : Target) :
    ∃ p, choose t target = .ok p ∧ Warranted t target (currentPartitions t).toNat p := by
  have hcount := toNat_currentBrokers settled.countable
  by_cases hkeeps : KeepsBrokers t target
  · exact ⟨_, choose_of_keepsBrokers settled hkeeps, ofPartitions_warranted hkeeps _⟩
  · obtain ⟨n, hn, hne⟩ : ∃ n, target.brokers = some n ∧ n.toNat ≠ t.brokerCount := by
      simpa [KeepsBrokers] using hkeeps
    rcases Nat.lt_or_gt_of_ne hne with hlt | hgt
    · exact ⟨_, choose_of_fewer settled hn hlt, hcount, hn, hlt⟩
    · exact ⟨_, choose_of_more settled hn hgt, hcount, hn, hgt⟩

/-- A plan that is due is the one that is chosen. -/
theorem Warranted.choose_eq {p : Plan} (settled : Settled t)
    (h : Warranted t target (currentPartitions t).toNat p) : choose t target = .ok p := by
  cases p with
  | scaleDown current n =>
    obtain ⟨hcurrent, hn, hlt⟩ := h
    obtain rfl := settled.eq_currentBrokers hcurrent
    exact choose_of_fewer settled hn hlt
  | scaleUp current n =>
    obtain ⟨hcurrent, hn, hgt⟩ := h
    obtain rfl := settled.eq_currentBrokers hcurrent
    exact choose_of_more settled hn hgt
  | changePartitions n factor =>
    cases n with
    | none =>
      obtain ⟨hkeeps, hgrows, hreplicates, rfl⟩ := h
      rw [choose_of_keepsBrokers settled hkeeps, ofPartitions_of_replicates hgrows hreplicates]
    | some n =>
      obtain ⟨hkeeps, hgrows, hn, rfl⟩ := h
      rw [choose_of_keepsBrokers settled hkeeps, ofPartitions_of_grows hn hgrows]
  | noChange reason =>
    obtain ⟨hkeeps, hgrows, hreplicates, hreason⟩ := h
    rw [choose_of_keepsBrokers settled hkeeps]
    cases reason with
    | atTarget => rw [ofPartitions_of_atTarget hreason hreplicates]
    | partitionShrink current n =>
      obtain ⟨hcurrent, hn⟩ := hreason
      obtain rfl : current = currentPartitions t := UInt32.toNat_inj.1 hcurrent
      rw [ofPartitions_of_shrink hn hgrows hreplicates]

/-- **The plan that is chosen is the one that is due.** -/
theorem choose_eq_ok_iff {p : Plan} (settled : Settled t) :
    choose t target = .ok p ↔ Warranted t target (currentPartitions t).toNat p := by
  constructor
  · intro h
    obtain ⟨q, hq, hwarranted⟩ := exists_warranted settled target
    obtain rfl : q = p := Except.ok.inj (hq.symm.trans h)
    exact hwarranted
  · exact Warranted.choose_eq settled

theorem choose_eq_error_iff {e : ScaleError} (countable : t.brokerCount < 0x100000000) :
    choose t target = .error e ↔ ∃ c, t.pendingChange = some c ∧ e = .alreadyScaling c.id := by
  cases hp : t.pendingChange with
  | none =>
    obtain ⟨p, hchoose, -⟩ := exists_warranted ⟨hp, countable⟩ target
    simp [hchoose]
  | some c =>
    unfold choose
    simp [hp, eq_comm]

/-! ## What a plan asks for -/

/-- The request changes either the brokers or the partitions. It names no number but the target's,
each in its own place, and leaves out what the target leaves open. -/
structure Asks (target : Target) (hosted : Nat) (r : ChangeRequest) : Prop where
  nonempty : r.isEmpty = false
  oneKind : r.brokers = none ↔ r.partitions ≠ none
  /-- A change of the partitions names at least one number. -/
  named : r.partitions ≠ none → r.partitions.bind (·.count) ≠ none ∨
    r.partitions.bind (·.replicationFactor) ≠ none
  brokers : r.brokers = none ∨ r.brokers = target.brokers.map .count
  partitions : r.partitions.bind (·.count) = none ∨
    r.partitions.bind (·.count) = target.partitions
  factor : r.partitions.bind (·.replicationFactor) = none ∨
    r.partitions.bind (·.replicationFactor) = target.replicationFactor
  /-- Partitions are only added. -/
  grows : ∀ n, r.partitions.bind (·.count) = some n → hosted < n.toNat

theorem asks_scaling {n : UInt32} (hn : target.brokers = some n) :
    Asks target hosted (ChangeRequest.empty.scaling n) where
  nonempty := rfl
  oneKind := by simp [ChangeRequest.scaling, ChangeRequest.empty]
  named := by simp [ChangeRequest.scaling, ChangeRequest.empty]
  brokers := .inr (by simp [ChangeRequest.scaling, hn])
  partitions := .inl rfl
  factor := .inl rfl
  grows := nofun

theorem asks_partitioning {count : Option UInt32}
    (hasked : count ≠ none ∨ target.replicationFactor ≠ none)
    (hcount : ∀ n, count = some n → target.partitions = some n ∧ hosted < n.toNat) :
    Asks target hosted (ChangeRequest.empty.partitioning count target.replicationFactor) := by
  have hparts : (ChangeRequest.empty.partitioning count target.replicationFactor).partitions =
      some ⟨count, target.replicationFactor⟩ := by
    unfold ChangeRequest.partitioning
    rcases hasked with h | h <;> simp [h]
  refine ⟨?_, ?_, ?_, .inl rfl, ?_, .inr (by simp [hparts]), ?_⟩
  · simp [ChangeRequest.isEmpty, hparts]
  · rw [hparts]
    simp [ChangeRequest.partitioning, ChangeRequest.empty]
  · intro _
    rw [hparts]
    exact hasked
  · rw [hparts]
    cases count with
    | none => exact .inl rfl
    | some n => exact .inr (hcount n rfl).1.symm
  · intro n hn
    rw [hparts] at hn
    exact (hcount n hn).2

theorem Warranted.asks {p : Plan} {r : ChangeRequest} (h : Warranted t target hosted p)
    (hr : p.request = some r) : Asks target hosted r := by
  cases p with
  | scaleDown current n | scaleUp current n =>
    obtain rfl := Option.some.inj hr
    exact asks_scaling h.2.1
  | changePartitions n factor =>
    obtain rfl := Option.some.inj hr
    cases n with
    | none =>
      obtain ⟨-, -, ⟨hfactor, -⟩, rfl⟩ := h
      exact asks_partitioning (.inr hfactor) nofun
    | some n =>
      obtain ⟨-, ⟨m, hm, hlt⟩, hn, rfl⟩ := h
      obtain rfl : m = n := Option.some.inj (hm.symm.trans hn)
      refine asks_partitioning (.inl nofun) fun k hk => ?_
      obtain rfl : m = k := Option.some.inj hk
      exact ⟨hm, hlt⟩
  | noChange reason => cases hr

theorem request_eq_none_iff {p : Plan} : p.request = none ↔ p.IsIdle := by
  unfold IsIdle
  cases p <;> simp [request]

/-- How the plan for a target comes about where `hosted` partitions are in effect. -/
structure Prioritises (t : Topology) (target : Target) (hosted : Nat) : Prop where
  /-- A pending change is the one thing that stands against a plan. -/
  refuses : ∀ e, choose t target = .error e ↔
    ∃ c, t.pendingChange = some c ∧ e = .alreadyScaling c.id
  chooses : t.pendingChange = none → ∀ p,
    choose t target = .ok p ↔ Warranted t target hosted p
  idles : ∀ p, choose t target = .ok p → (p.request = none ↔ p.IsIdle)
  asks : ∀ p r, choose t target = .ok p → p.request = some r → Asks target hosted r

/-- **Brokers go before partitions, and new partitions before more replicas**, for all clusters and
targets, and a plan asks for nothing that the target does not name. -/
theorem choose_prioritises (t : Topology) (target : Target)
    (countable : t.brokerCount < 0x100000000) :
    ∃ hosted, (∀ n, t.HostsUpTo n ↔ n = hosted) ∧ Prioritises t target hosted := by
  refine ⟨(currentPartitions t).toNat, fun n => hostsUpTo_iff, ?_⟩
  have hchooses : t.pendingChange = none → ∀ p, choose t target = .ok p ↔
      Warranted t target (currentPartitions t).toNat p :=
    fun hp p => choose_eq_ok_iff ⟨hp, countable⟩
  refine ⟨fun e => choose_eq_error_iff countable, hchooses, fun p _ => request_eq_none_iff, ?_⟩
  intro p r hp hr
  cases hpending : t.pendingChange with
  | none => exact ((hchooses hpending p).1 hp).asks hr
  | some c =>
    rw [(choose_eq_error_iff countable).2 ⟨c, hpending, rfl⟩] at hp
    cases hp

/-- A cluster of so many brokers, each of which hosts the partition `highest`. -/
def evenCluster (brokers : Nat) (highest : PartitionId) : Topology where
  version := 1
  clusterId := none
  brokers := (List.range brokers).map fun i => ⟨Int32.ofNat i, "ACTIVE", 1, [⟨highest, "ACTIVE", 1⟩]⟩
  lastChange := none
  pendingChange := none
  routing := none

/-- Where all partitions have negative ids none is in effect, so a target of no partitions is one
of the partitions that there are, and the replicas are due. -/
theorem choose_prioritises_replicas :
    let t := evenCluster 2 (-1)
    let target : Target := ⟨some 2, some 0, some 3⟩
    t.brokerCount < 0x100000000 ∧
      (∃ hosted, (∀ n, t.HostsUpTo n ↔ n = hosted) ∧ Prioritises t target hosted) ∧
      t.HostsUpTo 0 ∧ choose t target = .ok (.changePartitions none (some 3)) := by
  intro t target
  have hcountable : t.brokerCount < 0x100000000 := by decide
  exact ⟨hcountable, choose_prioritises t target hcountable, hostsUpTo_iff.2 rfl, rfl⟩

end Plan

end ClusterScaling
