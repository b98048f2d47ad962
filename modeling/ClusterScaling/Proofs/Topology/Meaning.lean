import ClusterScaling.Proofs.Json.Schema
import ClusterScaling.Topology.Format

/-!
# What documents about topologies mean

The management API's schemas, field by field: under which name a value stands, of which kind and in
which range it is, whether it may be absent or null, and what it is then. `Topology.ofTree?` and its
siblings take the values from a tree as these schemas say. They know nothing of shapes, by which
documents are read and written; a shape means what its schema says (`Topology.interpret_shape`,
`ChangeResponse.interpret_shape`, and so on).
-/

namespace ClusterScaling

/-! ## Kinds of values -/

namespace Json

variable {α : Type}

namespace Tree

/-- An integer from `low` to `high`. -/
def integerIn? (low high : Int) (ofInt : Int → α) (t : Tree) : Option α :=
  t.integer?.bind fun n => if low ≤ n ∧ n ≤ high then some (ofInt n) else none

def int32? : Tree → Option Int32 := integerIn? (-2147483648) 2147483647 Int32.ofInt

def int64? : Tree → Option Int64 :=
  integerIn? (-9223372036854775808) 9223372036854775807 Int64.ofInt

def nat32? : Tree → Option UInt32 := integerIn? 0 4294967295 fun n => UInt32.ofNat n.toNat

/-- An array of items of one kind. -/
def listOf? (item : Tree → Option α) (t : Tree) : Option (List α) := do
  (← t.items?).mapM item

/-- A value of a kind, or null. -/
def orNull? (value : Tree → Option α) : Tree → Option (Option α)
  | null => some none
  | t => (value t).map some

end Tree

/-- The value of a field that has to be there, given the values under its name. -/
abbrev required (value : Tree → Option α) : List Tree → Option α := pick none value

/-- The value of a field that may be absent. -/
abbrev defaulted (value : Tree → Option α) (absent : α) : List Tree → Option α :=
  pick (some absent) value

/-- The value of a field that may be absent or null. -/
abbrev nullable (value : Tree → Option α) : List Tree → Option (Option α) :=
  defaulted (Tree.orNull? value) none

end Json

open Json
open Json.Tree (text? int32? int64? nat32? listOf? orNull?)

/-! ## Schemas -/

def Partition.ofTree? (t : Tree) : Option Partition := do
  let under ← t.members?
  return {
    id := ← required int32? (under "id")
    state := ← defaulted text? "" (under "state")
    priority := ← defaulted int32? 0 (under "priority") }

def Broker.ofTree? (t : Tree) : Option Broker := do
  let under ← t.members?
  return {
    id := ← required int32? (under "id")
    state := ← defaulted text? "" (under "state")
    version := ← defaulted int64? 0 (under "version")
    partitions := ← defaulted (listOf? Partition.ofTree?) [] (under "partitions") }

def Operation.ofTree? (t : Tree) : Option Operation := do
  let under ← t.members?
  return {
    operation := ← required text? (under "operation")
    broker := ← required int32? (under "brokerId")
    partition := ← nullable int32? (under "partitionId")
    priority := ← nullable int32? (under "priority") }

def LastChange.ofTree? (t : Tree) : Option LastChange := do
  let under ← t.members?
  return {
    id := ← required int64? (under "id")
    status := ← required text? (under "status")
    startedAt := ← nullable text? (under "startedAt")
    completedAt := ← nullable text? (under "completedAt") }

def PendingChange.ofTree? (t : Tree) : Option PendingChange := do
  let under ← t.members?
  return {
    id := ← required int64? (under "id")
    status := ← defaulted text? "" (under "status")
    internalVersion := ← defaulted int64? 0 (under "internalVersion")
    completed := ← defaulted (listOf? Operation.ofTree?) [] (under "completed")
    pending := ← defaulted (listOf? Operation.ofTree?) [] (under "pending") }

def MessageCorrelation.ofTree? (t : Tree) : Option MessageCorrelation := do
  let under ← t.members?
  return {
    strategy := ← required text? (under "strategy")
    partitionCount := ← defaulted nat32? 0 (under "partitionCount") }

/-- The strategy says which fields there are; one that is not known has none. -/
def RequestHandling.ofTree? (t : Tree) : Option RequestHandling := do
  let under ← t.members?
  let strategy ← required text? (under "strategy")
  if strategy = "AllPartitions" then
    return .allPartitions (← required nat32? (under "partitionCount"))
  else if strategy = "ActivePartitions" then
    return .activePartitions (← required nat32? (under "basePartitionCount"))
      (← defaulted (listOf? int32?) [] (under "additionalActivePartitions"))
      (← defaulted (listOf? int32?) [] (under "inactivePartitions"))
  else
    return .other

def Routing.ofTree? (t : Tree) : Option Routing := do
  let under ← t.members?
  return {
    version := ← defaulted int64? 0 (under "version")
    messageCorrelation := ← required MessageCorrelation.ofTree? (under "messageCorrelation")
    requestHandling := ← required RequestHandling.ofTree? (under "requestHandling") }

def Topology.ofTree? (t : Tree) : Option Topology := do
  let under ← t.members?
  return {
    version := ← defaulted int64? 0 (under "version")
    clusterId := ← nullable text? (under "clusterId")
    brokers := ← defaulted (listOf? Broker.ofTree?) [] (under "brokers")
    lastChange := ← nullable LastChange.ofTree? (under "lastChange")
    pendingChange := ← nullable PendingChange.ofTree? (under "pendingChange")
    routing := ← nullable Routing.ofTree? (under "routing") }

def ChangeResponse.ofTree? (t : Tree) : Option ChangeResponse := do
  let under ← t.members?
  return {
    changeId := ← required int64? (under "changeId")
    currentTopology := ← defaulted (listOf? Broker.ofTree?) [] (under "currentTopology")
    plannedChanges := ← defaulted (listOf? Operation.ofTree?) [] (under "plannedChanges")
    expectedTopology := ← defaulted (listOf? Broker.ofTree?) [] (under "expectedTopology") }

/-! ## Shapes mean what the schemas say -/

namespace Json

variable {α β γ : Type} {name : String} {under : String → List Tree}

theorem interpret_integer {w : Width α} {low high : Int} {ofInt : Int → α}
    (h : ∀ n, w.ofInt? n = if low ≤ n ∧ n ≤ high then some (ofInt n) else none) :
    (Shape.integer w).interpret = Tree.integerIn? low high ofInt := by
  funext t
  rw [Shape.interpret, Tree.integerIn?, funext h]

@[simp] theorem interpret_integer32 : Shape.integer32.interpret = int32? :=
  interpret_integer fun _ => if_congr (by omega) rfl rfl

@[simp] theorem interpret_integer64 : Shape.integer64.interpret = int64? :=
  interpret_integer fun _ => if_congr (by omega) rfl rfl

@[simp] theorem interpret_natural32 : Shape.natural32.interpret = nat32? :=
  interpret_integer fun _ => if_congr (by omega) rfl rfl

@[simp] theorem interpret_text : Shape.text.interpret = text? := by
  funext t
  rw [Shape.interpret]

@[simp] theorem interpret_list (item : Shape α) :
    (Shape.list item).interpret = listOf? item.interpret := by
  funext t
  rw [Shape.interpret]
  rfl

@[simp] theorem interpret_nullable (s : Shape α) :
    (Shape.nullable s).interpret = orNull? s.interpret := by
  funext t
  cases t <;> simp [Shape.interpret, orNull?]

@[simp] theorem interpret_record {fields : Fields β} {make : β → α} {parts : α → β}
    {make_parts : ∀ a, make (parts a) = a} {parts_make : ∀ b, parts (make b) = b} (t : Tree) :
    (Shape.record name fields make parts make_parts parts_make).interpret t =
      t.members?.bind fun under => (fields.interpret under).map make := by
  rw [Shape.interpret]

@[simp] theorem interpret_union {tag other : String} {cases : Cases β} {make : β → α}
    {parts : α → β} {make_parts : ∀ a, make (parts a) = a} {parts_make : ∀ b, parts (make b) = b}
    (t : Tree) : (Shape.union name tag other cases make parts make_parts parts_make).interpret t =
      t.members?.bind fun under => (required text? (under tag)).bind fun chosen =>
        (cases.interpret chosen under).map make := by
  rw [Shape.interpret]

/-! A record is made of its fields one after the other. -/

@[simp] theorem map_interpret_nil (f : Unit → β) :
    (Fields.nil.interpret under).map f = some (f ()) := by
  rw [Fields.interpret, Option.map_some]

theorem map_interpret_cons (s : Shape α) (presence : Presence α) (rest : Fields β)
    (f : α × β → γ) :
    ((Fields.cons name s presence rest).interpret under).map f =
      (pick presence.default? s.interpret (under name)).bind fun a =>
        (rest.interpret under).map fun b => f (a, b) := by
  rw [Fields.interpret, Option.map_bind]
  congr 1
  funext a
  exact Option.map_map f (a, ·) (rest.interpret under)

@[simp] theorem map_interpret_need (s : Shape α) (rest : Fields β) (f : α × β → γ) :
    ((Fields.need name s rest).interpret under).map f =
      (required s.interpret (under name)).bind fun a =>
        (rest.interpret under).map fun b => f (a, b) :=
  map_interpret_cons s .required rest f

@[simp] theorem map_interpret_default (s : Shape α) (absent : α) (rest : Fields β)
    (f : α × β → γ) :
    ((Fields.default name s absent rest).interpret under).map f =
      (defaulted s.interpret absent (under name)).bind fun a =>
        (rest.interpret under).map fun b => f (a, b) :=
  map_interpret_cons s (.absentAs absent) rest f

@[simp] theorem map_interpret_null (s : Shape α) (rest : Fields β)
    (f : Option α × β → γ) :
    ((Fields.null name s rest).interpret under).map f =
      (nullable s.interpret (under name)).bind fun a =>
        (rest.interpret under).map fun b => f (a, b) := by
  rw [nullable, ← interpret_nullable]
  exact map_interpret_cons (.nullable s) _ rest f

@[simp] theorem map_interpret_maybe (s : Shape α) (rest : Fields β)
    (f : Option α × β → γ) :
    ((Fields.maybe name s rest).interpret under).map f =
      (nullable s.interpret (under name)).bind fun a =>
        (rest.interpret under).map fun b => f (a, b) := by
  rw [nullable, ← interpret_nullable]
  exact map_interpret_cons (.nullable s) _ rest f

@[simp] theorem map_interpret_noCase (chosen : String) (f : Unit → γ) :
    (Cases.nil.interpret chosen under).map f = some (f ()) := by
  rw [Cases.interpret, Option.map_some]

@[simp] theorem map_interpret_case (fields : Fields α) (rest : Cases β) (chosen : String)
    (f : α ⊕ β → γ) :
    ((Cases.cons name fields rest).interpret chosen under).map f =
      if chosen = name then (fields.interpret under).map fun a => f (.inl a)
      else (rest.interpret chosen under).map fun b => f (.inr b) := by
  rw [Cases.interpret]
  split <;> exact Option.map_map ..

end Json

@[simp] theorem Partition.interpret_shape : Partition.shape.interpret = Partition.ofTree? := by
  funext t
  simp [Partition.shape, Partition.ofTree?]

@[simp] theorem Broker.interpret_shape : Broker.shape.interpret = Broker.ofTree? := by
  funext t
  simp [Broker.shape, Broker.ofTree?]

@[simp] theorem Operation.interpret_shape : Operation.shape.interpret = Operation.ofTree? := by
  funext t
  simp [Operation.shape, Operation.ofTree?]

@[simp] theorem LastChange.interpret_shape : LastChange.shape.interpret = LastChange.ofTree? := by
  funext t
  simp [LastChange.shape, LastChange.ofTree?]

@[simp] theorem PendingChange.interpret_shape :
    PendingChange.shape.interpret = PendingChange.ofTree? := by
  funext t
  simp [PendingChange.shape, PendingChange.ofTree?]

@[simp] theorem MessageCorrelation.interpret_shape :
    MessageCorrelation.shape.interpret = MessageCorrelation.ofTree? := by
  funext t
  simp [MessageCorrelation.shape, MessageCorrelation.ofTree?]

@[simp] theorem RequestHandling.interpret_shape :
    RequestHandling.shape.interpret = RequestHandling.ofTree? := by
  funext t
  simp [RequestHandling.shape, RequestHandling.ofTree?, RequestHandling.ofParts]

@[simp] theorem Routing.interpret_shape : Routing.shape.interpret = Routing.ofTree? := by
  funext t
  simp [Routing.shape, Routing.ofTree?]

theorem Topology.interpret_shape : Topology.shape.interpret = Topology.ofTree? := by
  funext t
  simp [Topology.shape, Topology.ofTree?]

theorem ChangeResponse.interpret_shape :
    ChangeResponse.shape.interpret = ChangeResponse.ofTree? := by
  funext t
  simp [ChangeResponse.shape, ChangeResponse.ofTree?]

end ClusterScaling
