import Mathlib.Data.List.Nodup
import Mathlib.Data.List.Perm.Subperm
import ClusterScaling.Plan
import ClusterScaling.Region
import ClusterScaling.Proofs.Client.Submission
import ClusterScaling.Proofs.Json.Rearrangement
import ClusterScaling.Proofs.Topology.RoundTrip

/-!
# The order of the brokers

A cluster lists its brokers in any order, and a client puts them into the order of their ids
(`Topology.Sorts`). So replies that differ in the order of the brokers only give one snapshot if the
ids are distinct (`Topology.Sorts.unique`), and all that is done with it is the same
(`Client.query_brokerOrder`).
-/

namespace ClusterScaling

open Http (Answer Response)

/-! ## Sorted snapshots -/

namespace Topology

/-- `s` is `t` with its brokers in the order of their ids. -/
structure Sorts (t s : Topology) : Prop where
  rest : s = { t with brokers := s.brokers }
  perm : s.brokers.Perm t.brokers
  ascending : s.brokerIds.Pairwise (· ≤ ·)
  /-- Brokers of one id keep their order. -/
  stable : ∀ id, s.brokers.filter (fun b => b.id = id) = t.brokers.filter fun b => b.id = id
  brokerCount : s.brokerCount = t.brokerCount
  partitionCount : s.partitionCount = t.partitionCount

theorem max?_eq_of_perm {l l' : List Int32} (h : l.Perm l') : l.max? = l'.max? := by
  cases hl : l.max? with
  | none =>
    obtain rfl := List.max?_eq_none_iff.1 hl
    rw [← h.nil_eq, hl]
  | some a =>
    obtain ⟨ha, hmax⟩ := List.max?_eq_some_iff.1 hl
    exact (List.max?_eq_some_iff.2 ⟨h.subset ha, fun b hb => hmax b (h.symm.subset hb)⟩).symm

section
variable {brokers brokers' : List Broker}

theorem le_trans_id (a b c : Broker) (hab : decide (a.id ≤ b.id) = true)
    (hbc : decide (b.id ≤ c.id) = true) : decide (a.id ≤ c.id) = true := by
  simp only [decide_eq_true_eq] at *
  exact Int32.le_trans hab hbc

theorem le_total_id (a b : Broker) : (decide (a.id ≤ b.id) || decide (b.id ≤ a.id)) = true := by
  simpa using Int32.le_total a.id b.id

theorem pairwise_mergeSort_id (brokers : List Broker) :
    (brokers.mergeSort fun a b => a.id ≤ b.id).Pairwise fun a b => a.id ≤ b.id := by
  simpa using List.pairwise_mergeSort le_trans_id le_total_id brokers

/-- Sorting keeps the order of brokers of one id: they are a sorted part of the list, and so a part
of the sorted list, which has no more of them. -/
theorem filter_mergeSort_id (brokers : List Broker) (id : BrokerId) :
    (brokers.mergeSort fun a b => a.id ≤ b.id).filter (fun b => b.id = id) =
      brokers.filter fun b => b.id = id := by
  have hsorted : (brokers.filter fun b => b.id = id).Pairwise fun a b =>
      decide (a.id ≤ b.id) = true := by
    refine List.pairwise_of_forall_mem_list fun a ha b hb => ?_
    have hida := List.of_mem_filter ha
    have hidb := List.of_mem_filter hb
    simp only [decide_eq_true_eq] at hida hidb ⊢
    rw [hida, hidb]
    exact Int32.le_refl id
  have hpart := List.sublist_mergeSort le_trans_id le_total_id hsorted List.filter_sublist
  have hfilter := hpart.filter fun b => decide (b.id = id)
  simp only [List.filter_filter, Bool.and_self] at hfilter
  have hlength := ((List.mergeSort_perm brokers fun a b => a.id ≤ b.id).filter
    fun b => decide (b.id = id)).length_eq
  exact (hfilter.eq_of_length hlength.symm).symm

end

theorem sorts_sortBrokers (t : Topology) : t.Sorts t.sortBrokers where
  rest := rfl
  perm := List.mergeSort_perm ..
  ascending := List.pairwise_map.2 (pairwise_mergeSort_id t.brokers)
  stable := filter_mergeSort_id t.brokers
  brokerCount := (List.mergeSort_perm ..).length_eq
  partitionCount :=
    congrArg (·.getD 0) (max?_eq_of_perm ((List.mergeSort_perm ..).flatMap_right _))

/-- The snapshots differ in the order of their brokers only. -/
structure Rearranged (t t' : Topology) : Prop where
  rest : t' = { t with brokers := t'.brokers }
  perm : t.brokers.Perm t'.brokers

section
variable {t t' s s' : Topology}

theorem Sorts.brokerIds_perm (h : t.Sorts s) : s.brokerIds.Perm t.brokerIds := h.perm.map _

/-- **There is one order** of brokers with distinct ids. -/
theorem Sorts.unique (h : t.Sorts s) (h' : t'.Sorts s') (ht : t.Rearranged t')
    (distinct : t.brokerIds.Nodup) : s = s' := by
  have hperm : s.brokers.Perm s'.brokers := (h.perm.trans ht.perm).trans h'.perm.symm
  have hdistinct : (s.brokers.map Broker.id).Nodup := h.brokerIds_perm.nodup_iff.2 distinct
  have hbrokers : s.brokers = s'.brokers := by
    have hsame : ∀ a b, a ∈ s.brokers → b ∈ s'.brokers → a.id ≤ b.id → b.id ≤ a.id → a = b :=
      fun a b ha hb hab hba =>
        List.inj_on_of_nodup_map hdistinct ha (hperm.mem_iff.2 hb) (Int32.le_antisymm hab hba)
    exact hperm.eq_of_pairwise hsame (List.pairwise_map.1 h.ascending)
      (List.pairwise_map.1 h'.ascending)
  rw [h.rest, h'.rest, ht.rest, hbrokers]

/-- A plan depends on the counts only. -/
theorem Sorts.choose (h : t.Sorts s) (target : Target) :
    Plan.choose s target = Plan.choose t target := by
  have hpending : s.pendingChange = t.pendingChange := by rw [h.rest]
  have hbrokers : Plan.currentBrokers s = Plan.currentBrokers t := by
    rw [Plan.currentBrokers, h.brokerCount, Plan.currentBrokers]
  have hpartitions : Plan.currentPartitions s = Plan.currentPartitions t := by
    rw [Plan.currentPartitions, h.partitionCount, Plan.currentPartitions]
  simp only [Plan.choose, hpending, hbrokers, hpartitions]

/-- The brokers outside a region are the same, in the order of their ids. -/
theorem Sorts.brokersOutside (h : t.Sorts s) (layout : RegionLayout) :
    (s.brokersOutside layout).Perm (t.brokersOutside layout) ∧
      (s.brokersOutside layout).Pairwise (· ≤ ·) :=
  ⟨h.brokerIds_perm.filter _, h.ascending.filter _⟩

end

/-- Topologies that are read from documents with the same brokers in any order. -/
theorem rearranged_of_decode {depth : Nat} {u u' : Json.Tree} {t t' : Topology}
    (hu : u.Rearranged "brokers" 2 u') (h : shape.decode depth u = .ok t)
    (h' : shape.decode depth u' = .ok t') : t.Rearranged t' := by
  obtain ⟨hversion, hid, hbrokers, hlast, hpending, hrouting, -⟩ :=
    Json.Shape.decode_rearranged hu rfl h h'
  simp only [Json.Shape.AgreesIn, String.reduceEq, false_and, or_false] at hversion hid hlast
  simp only [Json.Shape.AgreesIn, String.reduceEq, false_and, or_false] at hpending hrouting
  obtain ⟨version, id, brokers, last, pending, routing⟩ := t
  obtain ⟨version', id', brokers', last', pending', routing'⟩ := t'
  subst hversion hid hlast hpending hrouting
  refine ⟨rfl, ?_⟩
  rcases hbrokers with hsame | ⟨-, hshuffled⟩
  · exact .of_eq hsame
  · exact hshuffled.perm

end Topology

/-! ## Replies -/

namespace Client

variable {c : Client} {r r' : Response} {t t' s : Topology}

/-- The documents of the replies differ in the order of the brokers only. -/
def BrokersRearranged (r r' : Response) : Prop :=
  (Json.Document.read (Text.piecesOfBytes r.body)).root.Rearranged "brokers" 2
    (Json.Document.read (Text.piecesOfBytes r'.body)).root

theorem decode_eq_ok {α : Type} {shape : Json.Shape α} {a : α} (h : decode shape r = .ok a) :
    shape.decode 0 (Json.Document.read (Text.piecesOfBytes r.body)).root = .ok a := by
  refine Json.Shape.decode_root ?_
  unfold decode at h
  cases hd : shape.decodeDocument (Json.Document.read (Text.piecesOfBytes r.body)) with
  | error e =>
    rw [hd] at h
    cases h
  | ok b =>
    rw [hd] at h
    exact congrArg Except.ok (Except.ok.inj h)

theorem BrokersRearranged.decode (hr : BrokersRearranged r r') (h : decode Topology.shape r = .ok t)
    (h' : Client.decode Topology.shape r' = .ok t') : t.Rearranged t' :=
  Topology.rearranged_of_decode hr (decode_eq_ok h) (decode_eq_ok h')

theorem snapshot_of_decode {r : Response} {t : Topology} (hok : r.status = .ok)
    (h : decode Topology.shape r = .ok t) : snapshot r = .ok t.sortBrokers := by
  rw [snapshot, if_pos hok, h]
  rfl

theorem converse_query (c : Client) (answers : Nat → Answer) :
    c.query.converse answers =
      ⟨[(c.snapshotExchange, answers 0)], outcome snapshot c.snapshotExchange (answers 0)⟩ :=
  converse_send_ofExcept snapshot c.snapshotExchange answers

/-- A submission in the older form whose snapshot is read goes on with the brokers of the snapshot
alone. -/
theorem converse_submitBrokerList {request : ChangeRequest} {answers : Nat → Answer} (force : Bool)
    (hd : request.dependsOnBrokers = true) (hr : answers 0 = .ok r) (hs : snapshot r = .ok s) :
    (c.submitBrokerList request force).converse answers =
      ((c.sendBrokerList request force s.brokerIds).converse fun n => answers (n + 1)).after
        (c.snapshotExchange, .ok r) := by
  rw [submitBrokerList_eq_bind c request force hd, Session.converse_send_bind, hr]
  simp only [hs, Session.ofExcept_bind_ok]

/-- The requests and the result of a conversation. -/
def said {α : Type} (talk : Conversation α) : List Http.Exchange × Except ClientError α :=
  (talk.exchanges.map Prod.fst, talk.result)

/-- Replies with one snapshot make one submission. -/
theorem said_submit {request : ChangeRequest} (force : Bool) (hd : request.dependsOnBrokers = true)
    (hs : snapshot r = .ok s) (hs' : snapshot r' = .ok s) (first : Answer)
    (later : Nat → Answer) :
    said ((c.submit request force).converse
        (Session.prepend first (Session.prepend (.ok r) later))) =
      said ((c.submit request force).converse
        (Session.prepend first (Session.prepend (.ok r') later))) := by
  rw [submit_eq_bind, Session.converse_send_bind, Session.converse_send_bind]
  simp only [Session.prepend_zero, Session.prepend_succ]
  cases first with
  | error f => rfl
  | ok refusal =>
    by_cases hrefused : refusal.status = .methodNotAllowed
    · simp only [if_pos hrefused]
      rw [converse_submitBrokerList force hd rfl hs, converse_submitBrokerList force hd rfl hs']
      simp [said]
    · simp [if_neg hrefused, said]

/-- **The order of the brokers does not matter.** A client gives the brokers of a reply in the order
of their ids, each as it was received. Replies that differ in the order of the brokers only give one
snapshot, and with it one plan, the same brokers outside a region and the same submission, if their
ids are distinct. -/
theorem query_brokerOrder (c : Client) :
    (∀ answers r t, answers 0 = .ok r → r.status = .ok → decode Topology.shape r = .ok t →
      ∃ s, (c.query.converse answers).result = .ok s ∧ t.Sorts s) ∧
    ∀ r r' t t', r.status = .ok → r'.status = .ok → decode Topology.shape r = .ok t →
      decode Topology.shape r' = .ok t' → BrokersRearranged r r' → t.brokerIds.Nodup →
      ∃ s, t.Sorts s ∧ t'.Sorts s ∧
        (∀ later, (c.query.converse (Session.prepend (.ok r) later)).result = .ok s ∧
          (c.query.converse (Session.prepend (.ok r') later)).result = .ok s) ∧
        (∀ target, Plan.choose t target = Plan.choose s target ∧
          Plan.choose t' target = Plan.choose s target) ∧
        (∀ layout, (s.brokersOutside layout).Pairwise (· ≤ ·) ∧
          (s.brokersOutside layout).Perm (t.brokersOutside layout) ∧
          (s.brokersOutside layout).Perm (t'.brokersOutside layout)) ∧
        ∀ request force first later, (∀ n, request.brokers ≠ some (.count n)) →
          said ((c.submit request force).converse
              (Session.prepend first (Session.prepend (.ok r) later))) =
            said ((c.submit request force).converse
              (Session.prepend first (Session.prepend (.ok r') later))) := by
  refine ⟨fun answers r t hanswer hok hdecode => ?_, ?_⟩
  · refine ⟨t.sortBrokers, ?_, t.sorts_sortBrokers⟩
    rw [converse_query, hanswer]
    exact snapshot_of_decode hok hdecode
  · intro r r' t t' hok hok' hdecode hdecode' hr hdistinct
    have hsorts := t.sorts_sortBrokers
    have hsorts' := t'.sorts_sortBrokers
    have hs : snapshot r = .ok t.sortBrokers := snapshot_of_decode hok hdecode
    have hs' : snapshot r' = .ok t'.sortBrokers := snapshot_of_decode hok' hdecode'
    rw [← hsorts.unique hsorts' (hr.decode hdecode hdecode') hdistinct] at hs' hsorts'
    refine ⟨t.sortBrokers, hsorts, hsorts', fun later => ?_, fun target => ?_, fun layout => ?_, ?_⟩
    · rw [converse_query, converse_query]
      exact ⟨hs, hs'⟩
    · exact ⟨(hsorts.choose target).symm, (hsorts'.choose target).symm⟩
    · exact ⟨(hsorts.brokersOutside layout).2, (hsorts.brokersOutside layout).1,
        (hsorts'.brokersOutside layout).1⟩
    · intro request force first later hcount
      exact said_submit force (dependsOnBrokers_iff.2 hcount) hs hs' first later

/-- A snapshot as a reply. -/
def reply (t : Topology) : Response := ⟨.ok, (Topology.shape.encode t).compact.toUTF8.toList⟩

theorem root_reply (t : Topology) :
    (Json.Document.read (Text.piecesOfBytes (reply t).body)).root =
      (Topology.shape.encode t).tree := by
  rw [reply, Text.piecesOfBytes_toUTF8]
  exact congrArg _ (Json.Value.read_compact (Topology.shape.regular_encode t))

theorem decode_reply (t : Topology) : decode Topology.shape (reply t) = .ok t := by
  rw [decode, reply, (Topology.shape_roundTrips.compact t).bytes]
  rfl

/-- Two brokers that host partitions, listed in either order. -/
theorem query_brokerOrder_swapped :
    let zero : Broker := ⟨0, "ACTIVE", 1, [⟨1, "ACTIVE", 1⟩, ⟨2, "ACTIVE", 2⟩]⟩
    let one : Broker := ⟨1, "ACTIVE", 1, [⟨3, "ACTIVE", 1⟩]⟩
    let sorted : Topology := ⟨1, none, [zero, one], none, none, none⟩
    let swapped : Topology := ⟨1, none, [one, zero], none, none, none⟩
    let c : Client := ⟨⟨"zeebe:9600", "/actuator"⟩, ⟨1000⟩⟩
    let talk t := c.query.converse (Session.prepend (.ok (reply t)) fun _ => .error .connect)
    decode Topology.shape (reply sorted) = .ok sorted ∧
      decode Topology.shape (reply swapped) = .ok swapped ∧
      BrokersRearranged (reply swapped) (reply sorted) ∧ swapped.brokerIds.Nodup ∧
      (talk swapped).result = .ok sorted ∧ (talk sorted).result = .ok sorted := by
  intro zero one sorted swapped c talk
  have hrearranged : BrokersRearranged (reply swapped) (reply sorted) := by
    rw [BrokersRearranged, root_reply, root_reply]
    exact .object (.there (.there (.here (Json.text_written "brokers")
      (List.Perm.swap (Broker.shape.encode zero).tree (Broker.shape.encode one).tree [])
      (.same _))))
  have hdistinct : swapped.brokerIds.Nodup := by decide
  obtain ⟨hany, htwo⟩ := query_brokerOrder c
  obtain ⟨s, -, hsorted, hresult, -⟩ := htwo (reply swapped) (reply sorted) swapped sorted rfl rfl
    (decode_reply swapped) (decode_reply sorted) hrearranged hdistinct
  have hs : s = sorted := by
    have hbrokers : [zero, one].mergeSort (fun a b => a.id ≤ b.id) = [zero, one] :=
      List.mergeSort_of_pairwise (by decide)
    rw [hsorted.unique sorted.sorts_sortBrokers ⟨rfl, .rfl⟩ (by decide), Topology.sortBrokers,
      hbrokers]
  rw [hs] at hresult
  obtain ⟨hfirst, hsecond⟩ := hresult fun _ => .error .connect
  exact ⟨decode_reply sorted, decode_reply swapped, hrearranged, hdistinct, hfirst, hsecond⟩

end Client

end ClusterScaling
