import ClusterScaling.Command
import ClusterScaling.Proofs.Json.RoundTrip
import ClusterScaling.Proofs.Run.Yields
import ClusterScaling.Topology.Format

/-!
# Topologies are read back

The names in each shape keep its parts apart, so every topology, every part of one and every answer
to a change request is read back from its texts (`shapes_roundTrip`), and so is the snapshot of which
an operator sees the printed form (`status_printsSnapshots`).
-/

namespace ClusterScaling

open Environment Json

/-! ## Coherence -/

theorem Partition.shape_coherent : Partition.shape.Coherent := by
  simp [Partition.shape, Fields.need, Fields.default]

theorem Broker.shape_coherent : Broker.shape.Coherent := by
  simp [Broker.shape, Fields.need, Fields.default, Partition.shape_coherent]

theorem Operation.shape_coherent : Operation.shape.Coherent := by
  simp [Operation.shape, Fields.need, Fields.maybe]

theorem LastChange.shape_coherent : LastChange.shape.Coherent := by
  simp [LastChange.shape, Fields.need, Fields.maybe]

theorem PendingChange.shape_coherent : PendingChange.shape.Coherent := by
  simp [PendingChange.shape, Fields.need, Fields.default, Operation.shape_coherent]

theorem MessageCorrelation.shape_coherent : MessageCorrelation.shape.Coherent := by
  simp [MessageCorrelation.shape, Fields.need, Fields.default]

theorem RequestHandling.shape_coherent : RequestHandling.shape.Coherent := by
  simp [RequestHandling.shape, Fields.need, Fields.default]

theorem Routing.shape_coherent : Routing.shape.Coherent := by
  simp [Routing.shape, Fields.need, Fields.default, MessageCorrelation.shape_coherent,
    RequestHandling.shape_coherent]

theorem Topology.shape_coherent : Topology.shape.Coherent := by
  have hlast : LastChange.shape.isNullable = false := rfl
  have hpending : PendingChange.shape.isNullable = false := rfl
  have hrouting : Routing.shape.isNullable = false := rfl
  simp [Topology.shape, Fields.null, Fields.default, hlast, hpending, hrouting,
    Broker.shape_coherent, LastChange.shape_coherent, PendingChange.shape_coherent,
    Routing.shape_coherent]

theorem ChangeResponse.shape_coherent : ChangeResponse.shape.Coherent := by
  simp [ChangeResponse.shape, Fields.need, Fields.default, Broker.shape_coherent,
    Operation.shape_coherent]

/-! ## Round trips -/

theorem Topology.shape_roundTrips : Topology.shape.RoundTrips :=
  Shape.roundTrips Topology.shape_coherent (by decide)

theorem Command.ofLines_singleton (line : String) : Command.ofLines [line] = line ++ "\n" := by
  simp [Command.ofLines, String.join]

/-- The program prints the snapshot that the cluster gives, in a text that is read back as it. -/
structure PrintsSnapshots (p : Program String) : Prop where
  prints : ∀ {σ : Type} (env : Environment σ) s time delay t s',
    env.answer .query s time = (some (delay, .ok t), s') →
      ∃ text, (env.run p s time).result = .ok text ∧ Topology.shape.Reads text t
  /-- It prints nothing else. -/
  yields : ∀ {σ : Type} (env : Environment σ), env.Yields p fun text x =>
    ∃ e t, x = [e] ∧ e.snapshot? = some t ∧ Topology.shape.Reads text t

theorem status_printsSnapshots (settings : Settings) :
    ∃ p, Command.status.program settings = .ok p ∧ PrintsSnapshots p := by
  have hprinted : ∀ t : Topology,
      Topology.shape.Reads (Command.ofLines [(Topology.shape.encode t).pretty]) t := by
    intro t
    rw [Command.ofLines_singleton]
    exact Topology.shape_roundTrips.prettyLines t
  refine ⟨_, rfl, fun env s time delay t s' h => ⟨_, ?_, hprinted t⟩, fun env =>
    (yields_asked env.asked_query).bind ?_⟩
  · simp only [Program.query, Bind.bind, Program.bind, Environment.run, h]
    rfl
  · rintro t _ ⟨e, rfl, -, he⟩
    exact yields_pure ⟨e, t, rfl, he, hprinted t⟩

/-- **Everything that is exchanged** with the management API about a topology is read back from its
compact text and from its pretty text, and so is a topology from what is printed of it. -/
theorem shapes_roundTrip :
    Topology.shape.RoundTrips ∧ Broker.shape.RoundTrips ∧ Partition.shape.RoundTrips ∧
    LastChange.shape.RoundTrips ∧ PendingChange.shape.RoundTrips ∧ Operation.shape.RoundTrips ∧
    ChangeResponse.shape.RoundTrips ∧ Routing.shape.RoundTrips ∧
    RequestHandling.shape.RoundTrips ∧
    ∀ settings, ∃ p, Command.status.program settings = .ok p ∧ PrintsSnapshots p := by
  refine ⟨Topology.shape_roundTrips, ?_, ?_, ?_, ?_, ?_, ?_, ?_, ?_, status_printsSnapshots⟩
  · exact Shape.roundTrips Broker.shape_coherent (by decide)
  · exact Shape.roundTrips Partition.shape_coherent (by decide)
  · exact Shape.roundTrips LastChange.shape_coherent (by decide)
  · exact Shape.roundTrips PendingChange.shape_coherent (by decide)
  · exact Shape.roundTrips Operation.shape_coherent (by decide)
  · exact Shape.roundTrips ChangeResponse.shape_coherent (by decide)
  · exact Shape.roundTrips Routing.shape_coherent (by decide)
  · exact Shape.roundTrips RequestHandling.shape_coherent (by decide)

end ClusterScaling
