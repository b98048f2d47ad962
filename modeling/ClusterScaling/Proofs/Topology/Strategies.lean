import ClusterScaling.Proofs.Json.Replacement
import ClusterScaling.Proofs.Topology.Schema

/-!
# Unknown strategies

A cluster may name a strategy for its requests that this library does not know, with members of
any kind (`RequestHandling.Unknown`). It is read as such, wherever among its members its name
stands. So no topology is refused for it, and all else in the topology is read as before
(`Topology.tolerates_unknown`).
-/

namespace ClusterScaling

open Json

namespace RequestHandling

/-- An object of a JSON text, standing in `depth` containers, that names one strategy, which is not
known. -/
structure Unknown (depth : Nat) (ms : Members) : Prop where
  spelled : ∃ cs, (Tree.object ms).SpelledBy cs
  evaluates : ms.Evaluates
  height : depth + 1 + ms.height ≤ depthLimit
  strategy : ∃ t name, ms.under "strategy" = [t] ∧ t.text? = some name ∧
    name ≠ "AllPartitions" ∧ name ≠ "ActivePartitions"

/-- Any value is replaced by an object that names an unknown strategy. -/
def ReplacedByUnknown (depth : Nat) (_ v : Tree) : Prop := ∃ ms, v = .object ms ∧ Unknown depth ms

section
variable {depth : Nat} {ms : Members}

theorem Unknown.pass (h : Unknown depth ms) : ms.pass = .ok () := by
  obtain ⟨_, hspelled⟩ := h.spelled
  exact Tree.SpelledBy.pass _ hspelled

/-- Only fields of numbers are asked for, so nothing else is of interest about the members. -/
theorem Unknown.admits (h : Unknown depth ms) : shape.Admits depth (.object ms) := by
  refine ⟨nofun, ?_⟩
  rintro _ ⟨⟩
  refine ⟨h.evaluates, h.height, ?_⟩
  simp [Cases.Admits, Fields.Admits, Fields.need, Fields.default, Shape.Admits]

theorem Unknown.interpret (h : Unknown depth ms) : shape.interpret (.object ms) = some .other := by
  obtain ⟨t, name, hunder, ht, hall, hactive⟩ := h.strategy
  rw [shape, Shape.interpret, Tree.members?, Option.bind_some, hunder, pick, ht, Option.bind_some,
    Cases.interpret, if_neg hall, Cases.interpret, if_neg hactive]
  rfl

/-- An unknown strategy is read as such, whatever its members. -/
theorem Unknown.decode (h : Unknown depth ms) : shape.decode depth (.object ms) = .ok .other := by
  have hdecode := shape.toOption_decode shape_coherent depth (.object ms) h.pass h.admits
  rw [h.interpret] at hdecode
  cases hresult : shape.decode depth (.object ms) with
  | error e =>
    rw [hresult] at hdecode
    cases hdecode
  | ok r =>
    rw [hresult] at hdecode
    exact congrArg Except.ok (Option.some.inj hdecode)

end

end RequestHandling

open RequestHandling (Unknown ReplacedByUnknown)

/-! ## Replaced strategies -/

section
variable {depth : Nat} {u u' : Tree}

/-- Routing is read as before, but for the strategy. -/
theorem Routing.decode_replaced {r : Routing}
    (hu : u.Replaced "requestHandling" 2 (ReplacedByUnknown (depth + 1)) u')
    (h : Routing.shape.decode depth u = .ok r) :
    Routing.shape.decode depth u' = .ok { r with requestHandling := .other } := by
  have htakes : ∀ v v' (a : RequestHandling), ReplacedByUnknown (depth + 1) v v' →
      RequestHandling.shape.decode (depth + 1) v = .ok a →
      ∃ a', RequestHandling.shape.decode (depth + 1) v' = .ok a' := by
    rintro v _ a ⟨ms, rfl, hms⟩ -
    exact ⟨.other, hms.decode⟩
  obtain ⟨r', hr', hversion, hcorrelation, hhandling, -⟩ :=
    Shape.decode_replaced hu Routing.shape_coherent.1 rfl
      ⟨by simp, by simp, fun _ => htakes, trivial⟩ h
  simp only [String.reduceEq, if_false, if_true] at hversion hcorrelation hhandling
  obtain ⟨v, _, ⟨ms, rfl, hms⟩, -, hother⟩ := hhandling
  obtain ⟨version, correlation, handling⟩ := r
  obtain ⟨version', correlation', handling'⟩ := r'
  obtain rfl : version = version' := hversion
  obtain rfl : correlation = correlation' := hcorrelation
  obtain rfl : RequestHandling.other = handling' := Except.ok.inj (hms.decode.symm.trans hother)
  exact hr'

/-- A topology is read as before, but for the strategy in its routing. -/
theorem Topology.decode_replaced {t : Topology}
    (hu : u.Replaced "routing" 5
      (Tree.Replaced "requestHandling" 2 (ReplacedByUnknown (depth + 2))) u')
    (h : Topology.shape.decode depth u = .ok t) :
    ∃ r, t.routing = some r ∧ Topology.shape.decode depth u' =
      .ok { t with routing := some { r with requestHandling := .other } } := by
  have hrouting : ∀ v v' (a : Option Routing),
      v.Replaced "requestHandling" 2 (ReplacedByUnknown (depth + 2)) v' →
      (Shape.nullable Routing.shape).decode (depth + 1) v = .ok a →
      ∃ r, a = some r ∧ (Shape.nullable Routing.shape).decode (depth + 1) v' =
        .ok (some { r with requestHandling := .other }) := by
    intro v v' a hv ha
    rw [decode_nullable hv.ne_null.1] at ha
    obtain ⟨r, hr, rfl⟩ := map_eq_ok ha
    refine ⟨r, rfl, ?_⟩
    rw [decode_nullable hv.ne_null.2, Routing.decode_replaced hv hr]
    rfl
  have htakes : ∀ v v' (a : Option Routing),
      v.Replaced "requestHandling" 2 (ReplacedByUnknown (depth + 2)) v' →
      (Shape.nullable Routing.shape).decode (depth + 1) v = .ok a →
      ∃ a', (Shape.nullable Routing.shape).decode (depth + 1) v' = .ok a' := by
    intro v v' a hv ha
    obtain ⟨r, -, hr⟩ := hrouting v v' a hv ha
    exact ⟨_, hr⟩
  obtain ⟨t', ht', hversion, hid, hbrokers, hlast, hpending, hreplaced, -⟩ :=
    Shape.decode_replaced hu Topology.shape_coherent.1 rfl
      ⟨by simp, by simp, by simp, by simp, by simp, fun _ => htakes, trivial⟩ h
  simp only [String.reduceEq, if_false, if_true] at hversion hid hbrokers hlast hpending hreplaced
  obtain ⟨v, v', hv, hbefore, hafter⟩ := hreplaced
  obtain ⟨r, hr, hother⟩ := hrouting v v' _ hv hbefore
  refine ⟨r, hr, ?_⟩
  obtain ⟨version, id, brokers, last, pending, routing⟩ := t
  obtain ⟨version', id', brokers', last', pending', routing'⟩ := t'
  obtain rfl : version = version' := hversion
  obtain rfl : id = id' := hid
  obtain rfl : brokers = brokers' := hbrokers
  obtain rfl : last = last' := hlast
  obtain rfl : pending = pending' := hpending
  obtain rfl : _ = routing' := Except.ok.inj (hother.symm.trans hafter)
  exact ht'

end

/-- **Unknown strategies are tolerated.** An object that names an unknown strategy is read as such,
at any place and from any text. Put in place of the strategy in any topology that is read, it
leaves all else as it is read, be the records objects or arrays. -/
theorem Topology.tolerates_unknown :
    (∀ depth ms, Unknown depth ms →
      RequestHandling.shape.decode depth (.object ms) = .ok .other) ∧
    (∀ ms text, Unknown 0 ms → SpelledDocument (.object ms) text.toList →
      RequestHandling.shape.Reads text .other) ∧
    ∀ d t u, Topology.shape.decodeDocument d = .ok t →
      d.root.Replaced "routing" 5 (Tree.Replaced "requestHandling" 2 (ReplacedByUnknown 2)) u →
      ∃ r, t.routing = some r ∧
        let t' : Topology := { t with routing := some { r with requestHandling := .other } }
        Topology.shape.decodeDocument ⟨u, false⟩ = .ok t' ∧
        ∀ text, SpelledDocument u text.toList → Topology.shape.Reads text t' := by
  refine ⟨fun depth ms h => h.decode, fun ms text h hspelled => ?_, fun d t u ht hu => ?_⟩
  · exact Shape.reads_of_decode (Document.read_spelled hspelled) h.decode
  · obtain ⟨r, hr, hdecode⟩ := Topology.decode_replaced hu (Shape.decode_root ht)
    refine ⟨r, hr, ?_, fun text hspelled => ?_⟩
    · rw [Shape.decodeDocument, hdecode]
      rfl
    · exact Shape.reads_of_decode (Document.read_spelled hspelled) hdecode

namespace RequestHandling

/-- The members of a strategy that is not known. Some have the names of those of known strategies,
but other values. -/
def weighted : List (String × Value) :=
  [("partitionCount", .string "many"), ("strategy", .string "Weighted"),
    ("inactivePartitions", .array [.null, .object [("strategy", .integer (-1))]])]

theorem weighted_regular : (Value.object weighted).Regular :=
  ⟨trivial, trivial, ⟨trivial, ⟨spelled_ofInt (-1), trivial⟩, trivial⟩, trivial⟩

theorem weighted_unknown {depth : Nat} (h : depth ≤ 2) : Unknown depth (Value.treeMembers weighted)
    where
  spelled := ⟨_, Value.spelled_compact (.object weighted) weighted_regular⟩
  evaluates := by
    have hnumber : (Numeral.ofInt (-1)).value? ≠ none := by decide +kernel
    exact ⟨⟨_, text_written _⟩, ⟨_, text_written _⟩, ⟨_, text_written _⟩, ⟨_, text_written _⟩,
      ⟨_, text_written _⟩, ⟨trivial, ⟨⟨_, text_written _⟩, hnumber, trivial⟩, trivial⟩, trivial⟩
  height := by
    have hheight : (Value.treeMembers weighted).height = 2 := by decide +kernel
    rw [hheight, depthLimit]
    omega
  strategy := by
    refine ⟨(Value.string "Weighted").tree, "Weighted", ?_, ?_, by decide, by decide⟩
    · rw [Members.under, entries_treeMembers]
      rfl
    · rw [Value.tree, Tree.text?, text_written]
      rfl

end RequestHandling

/-- A topology with a known strategy, and the same topology with an unknown one. -/
theorem Topology.tolerates_unknown_weighted :
    let known : Topology := ⟨7, none, [], none, none, some ⟨3, ⟨"Hash", 3⟩, .allPartitions 3⟩⟩
    let unknown : Topology := ⟨7, none, [], none, none, some ⟨3, ⟨"Hash", 3⟩, .other⟩⟩
    let written : Value := .object [("version", .integer 7), ("clusterId", .null),
      ("brokers", .array []), ("lastChange", .null), ("pendingChange", .null),
      ("routing", .object [("version", .integer 3),
        ("messageCorrelation", MessageCorrelation.shape.encode ⟨"Hash", 3⟩),
        ("requestHandling", .object RequestHandling.weighted)])]
    let d : Document := ⟨(Topology.shape.encode known).tree, false⟩
    Unknown 0 (Value.treeMembers RequestHandling.weighted) ∧
      Topology.shape.decodeDocument d = .ok known ∧
      d.root.Replaced "routing" 5 (Tree.Replaced "requestHandling" 2 (ReplacedByUnknown 2))
        written.tree ∧
      RequestHandling.shape.Reads (Value.object RequestHandling.weighted).compact .other ∧
      Topology.shape.Reads written.compact unknown := by
  intro known unknown written d
  have hunknown := RequestHandling.weighted_unknown (Nat.zero_le 2)
  have hknown : Topology.shape.decodeDocument d = .ok known := by
    rw [← (Topology.shape_roundTrips.compact known).chars,
      Value.read_compact (Topology.shape.regular_encode known)]
  have hreplaced : d.root.Replaced "routing" 5
      (Tree.Replaced "requestHandling" 2 (ReplacedByUnknown 2)) written.tree :=
    .object (.there (.there (.there (.there (.there (.here (text_written "routing")
      (.object (.there (.there (.here (text_written "requestHandling")
        ⟨_, rfl, RequestHandling.weighted_unknown (Nat.le_refl 2)⟩))))))))))
  have hwritten : written.Regular :=
    ⟨spelled_ofInt 7, trivial, trivial, trivial, trivial, ⟨spelled_ofInt 3,
      MessageCorrelation.shape.regular_encode ⟨"Hash", 3⟩, RequestHandling.weighted_regular,
      trivial⟩, trivial⟩
  obtain ⟨-, hreads, hdocuments⟩ := Topology.tolerates_unknown
  obtain ⟨r, hr, -, htexts⟩ := hdocuments d known written.tree hknown hreplaced
  obtain rfl : (⟨3, ⟨"Hash", 3⟩, .allPartitions 3⟩ : Routing) = r := Option.some.inj hr
  exact ⟨hunknown, hknown, hreplaced,
    hreads _ _ hunknown (Value.spelledDocument_compact RequestHandling.weighted_regular),
    htexts _ (Value.spelledDocument_compact hwritten)⟩

end ClusterScaling
