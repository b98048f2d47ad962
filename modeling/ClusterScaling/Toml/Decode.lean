import ClusterScaling.Json.Shape
import ClusterScaling.Toml.Value

/-!
# Reading values of a shape from TOML

`Shape.ofToml` reads a value of a shape from a TOML value. A record may stand as a table, with its
fields in any order among others, or as an array of its fields in their order; items after the
last field are left out of account. The first problem in document order decides.
-/

namespace ClusterScaling.Json

namespace Mismatch

/-- The kind of a TOML value. A date or a time counts as a map. -/
def seenToml : Toml.Value → Seen
  | .string s => .text s
  | .integer n => .integer n
  | .float x => .floating x
  | .boolean b => .bool b
  | .moment | .table _ => .map
  | .array _ => .sequence

/-- Refuses a TOML value, since `expected` is asked for in its place. -/
def refuseToml {α : Type} (expected : Expected) (v : Toml.Value) : Except Mismatch α :=
  .error (.kind (seenToml v) expected)

end Mismatch

/-- Reads every item of a list. -/
def collectList {ε α β : Type} (f : α → Except ε β) : List α → Except ε (List β)
  | [] => .ok []
  | a :: l => (f a).bind fun b => (collectList f l).map (b :: ·)

/-- Reads the entries of a list one after the other into a state. -/
def collectInto {ε σ α : Type} (f : σ → α → Except ε σ) (s : σ) : List α → Except ε σ
  | [] => .ok s
  | a :: l => (f s a).bind fun s => collectInto f s l

mutual

/-- Reads a value of the shape. -/
def Shape.ofToml : {α : Type} → Shape α → Toml.Value → Except Mismatch α
  | _, .integer w, v =>
    match v with
    | .integer n =>
      match w.ofInt? n with
      | some a => .ok a
      | none => .error (.range n w.expected)
    | v => Mismatch.refuseToml w.expected v
  | _, .text, v =>
    match v with
    | .string s => .ok s
    | v => Mismatch.refuseToml .text v
  | _, .flag, v =>
    match v with
    | .boolean b => .ok b
    | v => Mismatch.refuseToml .flag v
  | _, .list item, v =>
    match v with
    | .array vs => collectList (fun v => item.ofToml v) vs
    | v => Mismatch.refuseToml .sequence v
  | _, .nullable s, v => (s.ofToml v).map some
  | _, .record name fields make _ _ _, v =>
    match v with
    | .table entries => do
      let slots ← collectInto (fun slots e => fields.putToml slots e.1 e.2) fields.vacant entries
      (fields.complete slots).map make
    | .moment => (fields.complete fields.vacant).map make
    | .array vs =>
      (fields.ofTomlItems (.fieldsOf (Expected.record name).message fields.length) 0 vs).map make
    | v => Mismatch.refuseToml (.record name) v
  | _, .union name tag _ cases make _ _ _, v =>
    match v with
    | .table entries =>
      match entries.lookup tag with
      | some (.string chosen) => (cases.ofToml tag chosen entries).map make
      | some v => Mismatch.refuseToml .unionName v
      | none => .error (.missingField tag)
    | v => Mismatch.refuseToml (.union name) v

/-- Reads the entry `key` of a table into its slot. -/
def Fields.putToml : {β : Type} → (fs : Fields β) → fs.Slots → String → Toml.Value →
    Except Mismatch fs.Slots
  | _, .nil, slots, _, _ => .ok slots
  | _, @Fields.cons α _ name shape _ rest, slots, key, v =>
    let held : Option α × rest.Slots := slots
    if key = name then (shape.ofToml v).map fun a => (some a, held.2)
    else (rest.putToml held.2 key v).map fun slots => (held.1, slots)

/-- Reads the fields, of which the first has the given index, from the items of an array. -/
def Fields.ofTomlItems : {β : Type} → Fields β → Arity → Nat → List Toml.Value → Except Mismatch β
  | _, .nil, _, _, _ => .ok ()
  | _, .cons _ shape presence rest, arity, index, vs =>
    match vs with
    | v :: vs => do
      let a ← shape.ofToml v
      (rest.ofTomlItems arity (index + 1) vs).map (a, ·)
    | [] =>
      match presence with
      | .required => .error (.length index arity)
      | .absentAs d | .hiddenAs d _ _ => (rest.ofTomlItems arity (index + 1) []).map (d, ·)

/-- Reads the case `chosen` from the entries of a table. -/
def Cases.ofToml : {β : Type} → Cases β → String → String → List (String × Toml.Value) →
    Except Mismatch β
  | _, .nil, _, _, _ => .ok ()
  | _, .cons name fields rest, tag, chosen, entries =>
    if chosen = name then do
      let slots ← collectInto (fun slots e => fields.putToml slots e.1 e.2) fields.vacant
        (entries.filter fun e => e.1 ≠ tag)
      (fields.complete slots).map .inl
    else (rest.ofToml tag chosen entries).map .inr

end

end ClusterScaling.Json
