import ClusterScaling.Proofs.Toml.Decoding

/-!
# Tables that differ in one entry

A record whose first field may be absent is read from two tables that differ in the entry of this
field. If what is read of the entry is the same but for something, then so is the record
(`Shape.ofToml_varyAt`).
-/

namespace ClusterScaling

namespace Toml

/-- The entry under the key, if there is a value. -/
def entry (key : String) (v : Option Value) : List (String × Value) := (v.map (key, ·)).toList

/-- The entries agree but for the one under the key, and what stands there is related. -/
inductive VaryAt (key : String) (r : Option Value → Option Value → Prop) :
    List (String × Value) → List (String × Value) → Prop
  | mk {before after : List (String × Value)} {x y : Option Value} :
      (∀ e ∈ before, e.1 ≠ key) → (∀ e ∈ after, e.1 ≠ key) → r x y →
      VaryAt key r (before ++ (entry key x ++ after)) (before ++ (entry key y ++ after))

theorem VaryAt.imp {key : String} {r r' : Option Value → Option Value → Prop}
    {entries entries' : List (String × Value)} (h : VaryAt key r entries entries')
    (hr : ∀ {x y}, r x y → r' x y) : VaryAt key r' entries entries' := by
  obtain ⟨hbefore, hafter, hxy⟩ := h
  exact ⟨hbefore, hafter, hr hxy⟩

end Toml

namespace Json

theorem collectInto_append {ε σ α : Type} {f : σ → α → Except ε σ} {s : σ} {xs ys : List α} :
    collectInto f s (xs ++ ys) = (collectInto f s xs).bind fun s => collectInto f s ys := by
  induction xs generalizing s with
  | nil => rfl
  | cons x xs ih =>
    rw [List.cons_append, collectInto, collectInto]
    cases f s x with
    | error e => rfl
    | ok s => exact ih

/-- Reads the value of an entry, which may be absent. -/
def Shape.ofEntry {α : Type} (shape : Shape α) (default : α) :
    Option Toml.Value → Except Mismatch α
  | none => .ok default
  | some v => shape.ofToml v

/-- Reads the entries of a table into slots. -/
def Fields.takeToml {β : Type} (fs : Fields β) (slots : fs.Slots)
    (entries : List (String × Toml.Value)) : Except Mismatch fs.Slots :=
  collectInto (fun slots e => fs.putToml slots e.1 e.2) slots entries

section
variable {α β : Type} {name : String} {shape : Shape α} {presence : Presence α} {default : α}
  {rest : Fields β} {slots : rest.Slots} {before after : List (String × Toml.Value)}
  {x : Option Toml.Value}

/-- What follows once the entry of the first field has been read, or found to be absent. -/
theorem complete_takeToml_hold {held : Option α} {a : α} (hafter : ∀ e ∈ after, e.1 ≠ name)
    (h : held.or presence.default? = some a) :
    ((Fields.cons name shape presence rest).takeToml (Fields.hold held slots) after).bind
        (Fields.cons name shape presence rest).complete =
      ((rest.takeToml slots after).bind rest.complete).map (a, ·) := by
  rw [Fields.takeToml, collectInto_of_ne hafter, ← Fields.takeToml]
  cases rest.takeToml slots after with
  | error m => rfl
  | ok slots => exact complete_hold h

theorem takeToml_entry (hafter : ∀ e ∈ after, e.1 ≠ name) :
    ((Fields.cons name shape (.absentAs default) rest).takeToml (Fields.hold none slots)
        (Toml.entry name x ++ after)).bind
        (Fields.cons name shape (.absentAs default) rest).complete =
      (shape.ofEntry default x).bind fun a =>
        ((rest.takeToml slots after).bind rest.complete).map (a, ·) := by
  cases x with
  | none => exact complete_takeToml_hold hafter rfl
  | some v =>
    show (Except.bind (Fields.putToml _ (Fields.hold none slots) name v) _).bind _ =
      (shape.ofToml v).bind _
    cases hv : shape.ofToml v with
    | error m =>
      rw [Fields.putToml]
      simp only [if_true, hv]
      rfl
    | ok a =>
      rw [putToml_self hv]
      exact complete_takeToml_hold hafter rfl

/-- The fields are read in document order: what stands before the entry of the first field, this
entry, and what stands after it. -/
theorem Fields.readToml_split (hbefore : ∀ e ∈ before, e.1 ≠ name)
    (hafter : ∀ e ∈ after, e.1 ≠ name) :
    ((Fields.cons name shape (.absentAs default) rest).takeToml (Fields.hold none rest.vacant)
        (before ++ (Toml.entry name x ++ after))).bind
        (Fields.cons name shape (.absentAs default) rest).complete =
      (rest.takeToml rest.vacant before).bind fun slots =>
        (shape.ofEntry default x).bind fun a =>
          ((rest.takeToml slots after).bind rest.complete).map (a, ·) := by
  rw [takeToml, collectInto_append, collectInto_of_ne hbefore, ← takeToml]
  cases rest.takeToml rest.vacant before with
  | error m => rfl
  | ok slots => exact takeToml_entry hafter

theorem ofTomlItems_absentAs {arity : Arity} {index : Nat} {items : List Toml.Value} :
    (Fields.cons name shape (.absentAs default) rest).ofTomlItems arity index items =
      (shape.ofEntry default items.head?).bind fun a =>
        (rest.ofTomlItems arity (index + 1) items.tail).map (a, ·) := by
  cases items <;> (rw [Fields.ofTomlItems]; rfl)

/-! ## Records of the same but one field -/

variable {γ δ ε : Type} {what : String} {make : α × β → δ} {parts : δ → α × β}
  {make_parts : ∀ a, make (parts a) = a} {parts_make : ∀ b, parts (make b) = b}
  {entries entries' : List (String × Toml.Value)} {items items' : List Toml.Value} {f : α → γ}
  {g : δ → ε}

/-- What makes no difference between the first fields makes none between the records. -/
theorem map_make_congr {first first' : Except Mismatch α} {others : Except Mismatch β}
    (h : first.map f = first'.map f)
    (hg : ∀ a a' b, f a = f a' → g (make (a, b)) = g (make (a', b))) :
    ((first.bind fun a => others.map (a, ·)).map make).map g =
      ((first'.bind fun a => others.map (a, ·)).map make).map g := by
  cases first with
  | error m =>
    cases first' with
    | error m' =>
      obtain rfl := Except.error.inj h
      rfl
    | ok a' => cases h
  | ok a =>
    cases first' with
    | error m' => cases h
    | ok a' =>
      cases others with
      | error m => rfl
      | ok b => exact congrArg Except.ok (hg a a' b (Except.ok.inj h))

/-- **What is read of one entry decides**: if `f` makes no difference between what is read of the
entries of the first field, and `g` none between records that differ so, then `g` makes no
difference between the records. -/
theorem Shape.ofToml_varyAt
    (h : Toml.VaryAt name (fun x y =>
      (shape.ofEntry default x).map f = (shape.ofEntry default y).map f) entries entries')
    (hg : ∀ a a' b, f a = f a' → g (make (a, b)) = g (make (a', b))) :
    let record := Shape.record what (.cons name shape (.absentAs default) rest) make parts
      make_parts parts_make
    (record.ofToml (.table entries)).map g = (record.ofToml (.table entries')).map g := by
  intro record
  have hrecord : ∀ entries, record.ofToml (.table entries) =
      (((Fields.cons name shape (.absentAs default) rest).takeToml (Fields.hold none rest.vacant)
        entries).bind (Fields.cons name shape (.absentAs default) rest).complete).map make := by
    intro entries
    rw [Shape.ofToml]
    change (Fields.takeToml _ (Fields.hold none rest.vacant) entries).bind _ = _
    cases Fields.takeToml _ (Fields.hold none rest.vacant) entries <;> rfl
  rw [hrecord, hrecord]
  obtain ⟨hbefore, hafter, hxy⟩ := h
  rw [Fields.readToml_split hbefore hafter, Fields.readToml_split hbefore hafter]
  cases rest.takeToml rest.vacant _ with
  | error m => rfl
  | ok slots => exact map_make_congr hxy hg

/-- The same of records that stand as arrays and differ in the first item. -/
theorem Shape.ofToml_varyHead
    (h : (shape.ofEntry default items.head?).map f = (shape.ofEntry default items'.head?).map f)
    (htail : items.tail = items'.tail)
    (hg : ∀ a a' b, f a = f a' → g (make (a, b)) = g (make (a', b))) :
    let record := Shape.record what (.cons name shape (.absentAs default) rest) make parts
      make_parts parts_make
    (record.ofToml (.array items)).map g = (record.ofToml (.array items')).map g := by
  intro record
  have hrecord : ∀ items, record.ofToml (.array items) =
      ((Fields.cons name shape (.absentAs default) rest).ofTomlItems
        (.fieldsOf (Expected.record what).message (rest.length + 1)) 0 items).map make := by
    intro items
    rw [Shape.ofToml]
    rfl
  rw [hrecord, hrecord, ofTomlItems_absentAs, ofTomlItems_absentAs, htail]
  exact map_make_congr h hg

end

end Json

end ClusterScaling
