import Mathlib.Data.List.Forall2
import ClusterScaling.Request.Basic
import ClusterScaling.Proofs.Json.Decoding

/-!
# Building and writing change requests

A request is built up by calls that set its parts. Each part is what the last call asked for that
sets it (`ChangeRequest.Built`), and none is without content (`ChangeRequest.Proper`). What is
written of a request holds its parts and nothing else (`ChangeRequest.WrittenAs`), so the request
can be told from its body: `ChangeRequest.build_body`.
-/

namespace ClusterScaling

open Json

namespace ChangeRequest

/-! ## Building -/

/-- A call that builds up a request. -/
inductive Step where
  | scaling (n : UInt32)
  | adding (ids : List BrokerId)
  | removing (ids : List BrokerId)
  | partitioning (count replicationFactor : Option UInt32)
deriving DecidableEq, Repr

/-- The request after a call. -/
def apply (r : ChangeRequest) : Step → ChangeRequest
  | .scaling n => r.scaling n
  | .adding ids => r.adding ids
  | .removing ids => r.removing ids
  | .partitioning count replicationFactor => r.partitioning count replicationFactor

/-- The request that the calls build up, one after the other. -/
def build (steps : List Step) : ChangeRequest := steps.foldl apply empty

namespace Step

/-- The change of the brokers that a call asks for. No ids are no change. -/
def brokers? : Step → Option BrokerChange
  | scaling n => some (.count n)
  | adding ids => if ids = [] then none else some (.add ids)
  | removing ids => if ids = [] then none else some (.remove ids)
  | partitioning _ _ => none

/-- What a call says of the partitions: which change to ask for, or that there is to be none. -/
def partitions? : Step → Option (Option PartitionChange)
  | partitioning none none => some none
  | partitioning count replicationFactor => some (some ⟨count, replicationFactor⟩)
  | _ => none

end Step

/-- Brokers that are added or removed are named. -/
def HasBrokers : BrokerChange → Prop
  | .count _ => True
  | .add ids | .remove ids => ids ≠ []

/-- One of the two numbers is set. -/
def HasNumber (p : PartitionChange) : Prop := p.count ≠ none ∨ p.replicationFactor ≠ none

/-- No change in the request is without content. -/
structure Proper (r : ChangeRequest) : Prop where
  brokers : ∀ c, r.brokers = some c → HasBrokers c
  partitions : ∀ p, r.partitions = some p → HasNumber p

/-- The request is what the calls ask for. -/
structure Built (steps : List Step) (r : ChangeRequest) : Prop where
  brokers : r.brokers = (steps.filterMap Step.brokers?).getLast?
  partitions : r.partitions = (steps.filterMap Step.partitions?).getLast?.join
  isEmpty : r.isEmpty = true ↔ r.brokers = none ∧ r.partitions = none
  proper : r.Proper

section
variable (r : ChangeRequest) (s : Step) (steps : List Step)

theorem brokers_apply : (r.apply s).brokers = s.brokers?.or r.brokers := by
  cases s with
  | scaling n => rfl
  | adding ids | removing ids => cases ids <;> rfl
  | partitioning count replicationFactor => rfl

theorem partitions_apply : (r.apply s).partitions = s.partitions?.getD r.partitions := by
  cases s with
  | scaling n => rfl
  | adding ids | removing ids => cases ids <;> rfl
  | partitioning count replicationFactor => cases count <;> cases replicationFactor <;> rfl

variable {r s}

theorem Step.hasBrokers {c : BrokerChange} (h : s.brokers? = some c) : HasBrokers c := by
  cases s with
  | scaling n =>
    cases h
    trivial
  | adding ids | removing ids =>
    by_cases hids : ids = []
    · simp [brokers?, hids] at h
    · simp only [brokers?, if_neg hids, Option.some.injEq] at h
      subst h
      exact hids
  | partitioning count replicationFactor => cases h

theorem Step.hasNumber {p : PartitionChange} (h : s.partitions? = some (some p)) :
    HasNumber p := by
  unfold partitions? at h
  split at h
  · cases h
  · rename_i count replicationFactor hnone
    cases h
    cases count with
    | none => exact .inr fun hfactor => hnone rfl hfactor
    | some n => exact .inl nofun
  · cases h

/-- A call keeps the changes in the request from being without content. -/
theorem Proper.apply (h : r.Proper) : (r.apply s).Proper := by
  refine ⟨fun c hc => ?_, fun p hp => ?_⟩
  · rw [brokers_apply, Option.or_eq_some_iff] at hc
    rcases hc with hs | ⟨-, hr⟩
    · exact Step.hasBrokers hs
    · exact h.brokers c hr
  · rw [partitions_apply] at hp
    cases hs : s.partitions? with
    | none =>
      rw [hs] at hp
      exact h.partitions p hp
    | some q =>
      obtain rfl : q = some p := by simpa [hs] using hp
      exact Step.hasNumber hs

theorem Proper.foldl (h : r.Proper) : (steps.foldl ChangeRequest.apply r).Proper := by
  induction steps generalizing r with
  | nil => exact h
  | cons s steps ih => exact ih h.apply

/-- A part that every call sets to what it asks for, if anything, is what was asked for last. -/
theorem foldl_apply_eq {α : Type} (part : ChangeRequest → α) (asks : Step → Option α)
    (h : ∀ r s, part (r.apply s) = (asks s).getD (part r)) (r : ChangeRequest) :
    part (steps.foldl ChangeRequest.apply r) = (steps.filterMap asks).getLast?.getD (part r) := by
  induction steps generalizing r with
  | nil => rfl
  | cons s steps ih =>
    rw [List.foldl_cons, ih, h]
    cases hs : asks s with
    | none => simp [hs]
    | some a => simp [hs, List.getLast?_cons]

theorem build_brokers : (build steps).brokers = (steps.filterMap Step.brokers?).getLast? := by
  have hstep : ∀ r s, (apply r s).brokers = (s.brokers?.map some).getD r.brokers := by
    intro r s
    rw [brokers_apply]
    cases s.brokers? <;> rfl
  have hlast := foldl_apply_eq steps brokers (fun s => s.brokers?.map some) hstep empty
  rw [build, hlast, ← List.map_filterMap, List.getLast?_map]
  cases (steps.filterMap Step.brokers?).getLast? <;> rfl

theorem build_partitions :
    (build steps).partitions = (steps.filterMap Step.partitions?).getLast?.join := by
  rw [build, foldl_apply_eq steps partitions Step.partitions? partitions_apply]
  cases (steps.filterMap Step.partitions?).getLast? <;> rfl

theorem isEmpty_iff : r.isEmpty = true ↔ r.brokers = none ∧ r.partitions = none := by
  simp [ChangeRequest.isEmpty]

/-- A request is built up as the calls ask for. -/
theorem built_build : Built steps (build steps) where
  brokers := build_brokers steps
  partitions := build_partitions steps
  isEmpty := isEmpty_iff
  proper := Proper.foldl steps ⟨nofun, nofun⟩

end

/-! ## What is written -/

/-- The tree is the number. -/
def IsNatural (n : UInt32) (t : Tree) : Prop := t.integer? = some n.toNat

/-- The tree is an array of the ids, in their order. -/
def IsIdList (ids : List BrokerId) (t : Tree) : Prop :=
  ∃ ts, t.items? = some ts ∧ List.Forall₂ (fun id t => t.integer? = some id.toInt) ids ts

/-- The tree is an object with one member. -/
def IsSingle (name : String) (P : Tree → Prop) (t : Tree) : Prop :=
  ∃ ms v, t = .object ms ∧ ms.Named ∧ ms.entries = [(name, v)] ∧ P v

/-- The tree is an object of at most two members, each of which is there just if its value is
set. -/
def IsPair {α β : Type} (name name' : String) (R : α → Tree → Prop) (R' : β → Tree → Prop)
    (a : Option α) (b : Option β) (t : Tree) : Prop :=
  ∃ ms, t = .object ms ∧ ms.Named ∧ (∀ e ∈ ms.entries, e.1 = name ∨ e.1 = name') ∧
    List.Forall₂ R a.toList (ms.under name) ∧ List.Forall₂ R' b.toList (ms.under name')

/-- The tree says which change of the brokers to make. -/
def BrokersAs : BrokerChange → Tree → Prop
  | .count n => IsSingle "count" (IsNatural n)
  | .add ids => IsSingle "add" (IsIdList ids)
  | .remove ids => IsSingle "remove" (IsIdList ids)

/-- The tree says which change of the partitions to make. -/
def PartitionsAs (p : PartitionChange) : Tree → Prop :=
  IsPair "count" "replicationFactor" IsNatural IsNatural p.count p.replicationFactor

/-- The tree is the request. -/
def WrittenAs (r : ChangeRequest) : Tree → Prop :=
  IsPair "brokers" "partitions" BrokersAs PartitionsAs r.brokers r.partitions

/-! ## One request for a tree -/

section
open Relator (LeftUnique)

variable {α β : Type} {name name' : String}

theorem leftUnique_isNatural : LeftUnique IsNatural := by
  intro n n' t h h'
  have heq : (n.toNat : Int) = n'.toNat := Option.some.inj (h.symm.trans h')
  exact UInt32.toNat_inj.1 (Int.ofNat.inj heq)

theorem leftUnique_isIdList : LeftUnique IsIdList := by
  rintro ids ids' t ⟨ts, hts, h⟩ ⟨ts', hts', h'⟩
  obtain rfl : ts = ts' := Option.some.inj (hts.symm.trans hts')
  refine List.left_unique_forall₂' (fun id id' t hid hid' => ?_) h h'
  exact Int32.toInt_inj.1 (Option.some.inj (hid.symm.trans hid'))

theorem IsSingle.agree {P P' : Tree → Prop} {t : Tree} (h : IsSingle name P t)
    (h' : IsSingle name' P' t) : name = name' ∧ ∃ v, P v ∧ P' v := by
  obtain ⟨ms, v, rfl, -, hms, hv⟩ := h
  obtain ⟨_, v', ⟨⟩, -, hms', hv'⟩ := h'
  obtain ⟨rfl, rfl⟩ : name = name' ∧ v = v' := by simpa using hms.symm.trans hms'
  exact ⟨rfl, v, hv, hv'⟩

theorem eq_of_forall₂_toList {R : α → Tree → Prop} (hR : LeftUnique R) {a b : Option α}
    {ts : List Tree} (h : List.Forall₂ R a.toList ts) (h' : List.Forall₂ R b.toList ts) : a = b := by
  have hlists : a.toList = b.toList := List.left_unique_forall₂' hR h h'
  simpa using congrArg List.head? hlists

theorem IsPair.unique {R : α → Tree → Prop} {R' : β → Tree → Prop} (hR : LeftUnique R)
    (hR' : LeftUnique R') {a c : Option α} {b d : Option β} {t : Tree}
    (h : IsPair name name' R R' a b t) (h' : IsPair name name' R R' c d t) : a = c ∧ b = d := by
  obtain ⟨ms, rfl, -, -, ha, hb⟩ := h
  obtain ⟨_, ⟨⟩, -, -, hc, hd⟩ := h'
  exact ⟨eq_of_forall₂_toList hR ha hc, eq_of_forall₂_toList hR' hb hd⟩

/-- The one member tells the kinds of change apart. -/
theorem leftUnique_brokersAs : LeftUnique BrokersAs := by
  intro c c' t h h'
  cases c with
  | count n =>
    cases c' with
    | count n' =>
      obtain ⟨-, v, hv, hv'⟩ := h.agree h'
      rw [leftUnique_isNatural hv hv']
    | add | remove => simpa using (h.agree h').1
  | add ids =>
    cases c' with
    | add ids' =>
      obtain ⟨-, v, hv, hv'⟩ := h.agree h'
      rw [leftUnique_isIdList hv hv']
    | count | remove => simpa using (h.agree h').1
  | remove ids =>
    cases c' with
    | remove ids' =>
      obtain ⟨-, v, hv, hv'⟩ := h.agree h'
      rw [leftUnique_isIdList hv hv']
    | count | add => simpa using (h.agree h').1

theorem leftUnique_partitionsAs : LeftUnique PartitionsAs := by
  rintro ⟨count, factor⟩ ⟨count', factor'⟩ t h h'
  obtain ⟨rfl, rfl⟩ := h.unique leftUnique_isNatural leftUnique_isNatural h'
  rfl

theorem leftUnique_writtenAs : LeftUnique WrittenAs := by
  rintro ⟨brokers, partitions⟩ ⟨brokers', partitions'⟩ t h h'
  obtain ⟨rfl, rfl⟩ := h.unique leftUnique_brokersAs leftUnique_partitionsAs h'
  rfl

end

/-! ## Encoding -/

section
variable {α β : Type} {name name' : String} {f : α → Value} {g : β → Value}

theorem isNatural_natural (n : UInt32) : IsNatural n (natural n).tree := integer?_ofInt n.toNat

theorem toList_treeItems (vs : List Value) : (Value.treeItems vs).toList = vs.map Value.tree := by
  induction vs with
  | nil => rfl
  | cons v vs ih => rw [Value.treeItems, Items.toList, ih, List.map_cons]

theorem isIdList_idList (ids : List BrokerId) : IsIdList ids (idList ids).tree := by
  refine ⟨_, rfl, ?_⟩
  rw [toList_treeItems, List.map_map, List.forall₂_map_right_iff]
  exact List.forall₂_same.2 fun id _ => integer?_ofInt id.toInt

theorem isSingle_object {P : Tree → Prop} {v : Value} (h : P v.tree) :
    IsSingle name P (Value.object [(name, v)]).tree :=
  ⟨_, v.tree, rfl, named_treeMembers _, entries_treeMembers _, h⟩

theorem isPair_object {R : α → Tree → Prop} {R' : β → Tree → Prop} (hname : name ≠ name')
    (hR : ∀ a, R a (f a).tree) (hR' : ∀ b, R' b (g b).tree) (a : Option α) (b : Option β) :
    IsPair name name' R R' a b (Value.object (memberOf name f a ++ memberOf name' g b)).tree := by
  refine ⟨_, rfl, named_treeMembers _, ?_, ?_, ?_⟩
  · rw [entries_treeMembers]
    cases a <;> cases b <;> simp [memberOf]
  · rw [Members.under, entries_treeMembers]
    cases a <;> cases b <;> simp [memberOf, valuesOf, hR, hname.symm]
  · rw [Members.under, entries_treeMembers]
    cases a <;> cases b <;> simp [memberOf, valuesOf, hR', hname]

theorem brokersAs_encode (c : BrokerChange) : BrokersAs c (encodeBrokers c).tree := by
  cases c with
  | count n => exact isSingle_object (isNatural_natural n)
  | add ids | remove ids => exact isSingle_object (isIdList_idList ids)

theorem partitionsAs_encode (p : PartitionChange) : PartitionsAs p (encodePartitions p).tree :=
  isPair_object (by decide) isNatural_natural isNatural_natural p.count p.replicationFactor

theorem writtenAs_encode (r : ChangeRequest) : r.WrittenAs r.encode.tree :=
  isPair_object (by decide) brokersAs_encode partitionsAs_encode r.brokers r.partitions

theorem regular_object (hf : ∀ a, (f a).Regular) (hg : ∀ b, (g b).Regular) (a : Option α)
    (b : Option β) : (Value.object (memberOf name f a ++ memberOf name' g b)).Regular := by
  cases a <;> cases b <;> simp [memberOf, Value.Regular, Value.RegularMembers, hf, hg]

theorem regular_natural (n : UInt32) : (natural n).Regular := spelled_ofInt n.toNat

theorem regular_idList (ids : List BrokerId) : (idList ids).Regular :=
  regularItems_map (f := fun id : BrokerId => .integer id.toInt)
    (fun id => spelled_ofInt id.toInt) ids

theorem regular_encode (r : ChangeRequest) : r.encode.Regular := by
  refine regular_object (fun c => ?_) (fun p => ?_) r.brokers r.partitions
  · cases c with
    | count n => exact ⟨regular_natural n, trivial⟩
    | add ids | remove ids => exact ⟨regular_idList ids, trivial⟩
  · exact regular_object regular_natural regular_natural p.count p.replicationFactor

end

theorem spelled_body (r : ChangeRequest) : SpelledDocument r.encode.tree r.body.toList :=
  Value.spelledDocument_compact r.regular_encode

/-- A body is that of one request only, since it has one reading. -/
theorem body_injective : Function.Injective body := by
  intro r r' h
  have hread := Document.read_spelled r.spelled_body
  rw [h, Document.read_spelled r'.spelled_body] at hread
  have htree : r'.encode.tree = r.encode.tree := congrArg Document.root hread
  exact leftUnique_writtenAs r.writtenAs_encode (htree ▸ r'.writtenAs_encode)

/-- **Building and writing change requests.** Whatever calls build up a request, each of its parts
is what was asked for last, and none is without content. The body of any request is a JSON text that
holds the parts that are set and nothing else, and no other request has the same body. -/
theorem build_body :
    (∀ steps, Built steps (build steps)) ∧
    (∀ r : ChangeRequest, ∃ t, SpelledDocument t r.body.toList ∧ r.WrittenAs t) ∧
    Function.Injective body :=
  ⟨built_build, fun r => ⟨r.encode.tree, r.spelled_body, r.writtenAs_encode⟩, body_injective⟩

/-- An unset number is not written, and a zero is. -/
example : (build [.adding [], .partitioning none (some 0)]).body =
    "\x7b\"partitions\":\x7b\"replicationFactor\":0\x7d\x7d" := by decide +kernel

end ChangeRequest

end ClusterScaling
