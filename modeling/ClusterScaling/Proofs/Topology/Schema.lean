import ClusterScaling.Proofs.Json.Decoding
import ClusterScaling.Proofs.Topology.Meaning
import ClusterScaling.Proofs.Topology.RoundTrip

/-!
# Topologies are decoded by their schemas

What the management API's documents are decoded as depends on their values alone: those that their
schemas ask for (`Topology.ofTree?` and its siblings) have to be there once and of the right kind.
The order of members, members of other names and white space do not matter
(`decoding_follows_schema`).
-/

namespace ClusterScaling

open Json

/-- The shapes of documents about a topology, and what a tree means by their schemas. -/
inductive Documented : {α : Type} → Shape α → (Tree → Option α) → Prop
  | topology : Documented Topology.shape Topology.ofTree?
  | broker : Documented Broker.shape Broker.ofTree?
  | partition : Documented Partition.shape Partition.ofTree?
  | lastChange : Documented LastChange.shape LastChange.ofTree?
  | pendingChange : Documented PendingChange.shape PendingChange.ofTree?
  | operation : Documented Operation.shape Operation.ofTree?
  | changeResponse : Documented ChangeResponse.shape ChangeResponse.ofTree?
  | routing : Documented Routing.shape Routing.ofTree?

namespace Documented

variable {α : Type} {s : Shape α} {meaning : Tree → Option α}

theorem coherent (h : Documented s meaning) : s.Coherent := by
  cases h with
  | topology => exact Topology.shape_coherent
  | broker => exact Broker.shape_coherent
  | partition => exact Partition.shape_coherent
  | lastChange => exact LastChange.shape_coherent
  | pendingChange => exact PendingChange.shape_coherent
  | operation => exact Operation.shape_coherent
  | changeResponse => exact ChangeResponse.shape_coherent
  | routing => exact Routing.shape_coherent

theorem interpret_eq (h : Documented s meaning) : s.interpret = meaning := by
  cases h with
  | topology => exact Topology.interpret_shape
  | broker => exact Broker.interpret_shape
  | partition => exact Partition.interpret_shape
  | lastChange => exact LastChange.interpret_shape
  | pendingChange => exact PendingChange.interpret_shape
  | operation => exact Operation.interpret_shape
  | changeResponse => exact ChangeResponse.interpret_shape
  | routing => exact Routing.interpret_shape

end Documented

/-! ## Written values -/

theorem record_admits {α β : Type} {name : String} {fields : Fields β} {make : β → α} {parts : α → β}
    {make_parts : ∀ a, make (parts a) = a} {parts_make : ∀ b, parts (make b) = b} {depth : Nat}
    {ms : List (String × Value)}
    (h : fields.Admits (depth + 1) (valuesOf (ms.map fun m => (m.1, m.2.tree)))) :
    (Shape.record name fields make parts make_parts parts_make).Admits depth
      (Value.object ms).tree := by
  refine ⟨nofun, ?_⟩
  rintro _ ⟨⟩
  refine ⟨named_treeMembers ms, ?_⟩
  rwa [Members.under, entries_treeMembers]

/-! ## Documents in different orders -/

namespace Routing

/-- A strategy with its tag at the end. -/
def handling : Value :=
  .object [("partitionCount", .integer 3), ("strategy", .string "AllPartitions")]

/-- Routing that is written in the order of its fields. -/
def orderly : Value :=
  .object [("version", .integer 7), ("messageCorrelation", .object [("strategy", .string "Hash")]),
    ("requestHandling", handling)]

/-- The same routing in another order, with a member of no field. -/
def scattered : Value :=
  .object [("requestHandling", handling), ("note", .array [.null, .object [("version", .null)]]),
    ("messageCorrelation", .object [("strategy", .string "Hash")]), ("version", .integer 7)]

theorem handling_admits : RequestHandling.shape.Admits 1 handling.tree := by
  refine ⟨nofun, ?_⟩
  rintro _ ⟨⟩
  refine ⟨?_, by decide +kernel, ?_⟩
  · have hcount : (Numeral.ofInt 3).value? ≠ none := by decide +kernel
    exact ⟨⟨_, text_written _⟩, hcount, ⟨_, text_written _⟩, ⟨_, text_written _⟩, trivial⟩
  · rw [Members.under, entries_treeMembers]
    simp [Cases.Admits, Fields.Admits, Fields.need, Fields.default, valuesOf, Shape.Admits]

theorem correlation_admits :
    MessageCorrelation.shape.Admits 1 (Value.object [("strategy", .string "Hash")]).tree :=
  record_admits (by simp [Fields.Admits, Fields.need, Fields.default, valuesOf, Shape.Admits])

theorem orderly_admits : Routing.shape.Admits 0 orderly.tree :=
  record_admits (by
    simp [Fields.Admits, Fields.need, Fields.default, valuesOf, Shape.Admits, handling_admits,
      correlation_admits])

theorem scattered_admits : Routing.shape.Admits 0 scattered.tree :=
  record_admits (by
    simp [Fields.Admits, Fields.need, Fields.default, valuesOf, Shape.Admits, handling_admits,
      correlation_admits])

theorem orderly_alike_scattered : Routing.shape.Alike orderly.tree scattered.tree := by
  refine Shape.record_alike_of_perm ?_
  rw [entries_treeMembers, entries_treeMembers]
  exact List.reverse_perm [("requestHandling", handling.tree),
    ("messageCorrelation", (Value.object [("strategy", .string "Hash")]).tree),
    ("version", (Value.integer 7).tree)]

theorem orderly_regular : orderly.Regular :=
  ⟨spelled_ofInt 7, ⟨trivial, trivial⟩, ⟨spelled_ofInt 3, trivial, trivial⟩, trivial⟩

theorem scattered_regular : scattered.Regular :=
  ⟨⟨spelled_ofInt 3, trivial, trivial⟩, ⟨trivial, ⟨trivial, trivial⟩, trivial⟩, ⟨trivial, trivial⟩,
    spelled_ofInt 7, trivial⟩

end Routing

/-! ## Decoding -/

open Routing

/-- **Decoding follows the schema.** Every text is decoded as what its value means by the schema, or
not at all if it means nothing; and so is every other text with a value that differs from it in the
order of members and in members of no field only. -/
theorem decoding_follows_schema {α : Type} {s : Shape α} {meaning : Tree → Option α}
    (hs : Documented s meaning) {t : Tree} {text : String}
    (spelled : SpelledDocument t text.toList) (admits : s.Admits 0 t) :
    s.Decodes text (meaning t) ∧
      ∀ u text', SpelledDocument u text'.toList → s.Admits 0 u → s.Alike t u →
        meaning u = meaning t ∧ s.Decodes text' (meaning t) := by
  rw [← hs.interpret_eq]
  refine ⟨Shape.follows_schema hs.coherent spelled admits, fun u text' spelled' admits' alike => ?_⟩
  have hsame : s.interpret u = s.interpret t := (s.interpret_eq_of_alike alike).symm
  refine ⟨hsame, ?_⟩
  rw [← hsame]
  exact Shape.follows_schema hs.coherent spelled' admits'

/-- Both texts are decoded as the same routing. -/
theorem decoding_follows_schema_scattered :
    let routing : Routing := ⟨7, ⟨"Hash", 0⟩, .allPartitions 3⟩
    Documented Routing.shape Routing.ofTree? ∧
      SpelledDocument orderly.tree orderly.compact.toList ∧ Routing.shape.Admits 0 orderly.tree ∧
      Routing.shape.Decodes orderly.compact (some routing) ∧
      SpelledDocument scattered.tree scattered.compact.toList ∧
      Routing.shape.Decodes scattered.compact (some routing) := by
  intro routing
  have hspelled := Value.spelledDocument_compact orderly_regular
  have hspelled' := Value.spelledDocument_compact scattered_regular
  have hmeaning : Routing.ofTree? orderly.tree = some routing := by decide +kernel
  obtain ⟨horderly, hothers⟩ := decoding_follows_schema .routing hspelled orderly_admits
  obtain ⟨-, hscattered⟩ := hothers _ _ hspelled' scattered_admits orderly_alike_scattered
  rw [hmeaning] at horderly hscattered
  exact ⟨.routing, hspelled, orderly_admits, horderly, hspelled', hscattered⟩

end ClusterScaling
