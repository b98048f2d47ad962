import ClusterScaling.Json.Mismatch
import ClusterScaling.Json.Value

/-!
# Shapes

A `Shape α` describes how the values of the type `α` stand in a document. One description gives
the writer (`Shape.encode`), the reader (`Shape.decode`), and their errors.
-/

namespace ClusterScaling.Json

/-- The integer types of documents. -/
inductive Width : Type → Type 1 where
  | integer32 : Width Int32
  | integer64 : Width Int64
  | natural32 : Width UInt32

namespace Width

variable {α : Type}

/-- The integer as an unbounded one. -/
def toInt : Width α → α → Int
  | integer32, n => n.toInt
  | integer64, n => n.toInt
  | natural32, n => n.toNat

/-- The integer of the type, if `n` is in its range. -/
def ofInt? : Width α → Int → Option α
  | integer32, n => if -0x80000000 ≤ n ∧ n < 0x80000000 then some (Int32.ofInt n) else none
  | integer64, n =>
    if -0x8000000000000000 ≤ n ∧ n < 0x8000000000000000 then some (Int64.ofInt n) else none
  | natural32, n => if 0 ≤ n ∧ n < 0x100000000 then some (UInt32.ofNat n.toNat) else none

/-- What messages ask for. -/
def expected : Width α → Expected
  | integer32 => .integer32
  | integer64 => .integer64
  | natural32 => .natural32

/-- The integer that stands for an absent one. -/
def zero : Width α → α
  | integer32 => 0
  | integer64 => 0
  | natural32 => 0

end Width

/-- Whether a field may be absent, and what it is then. -/
inductive Presence (α : Type) where
  | required
  | absentAs (default : α)
  /-- Absent stands for `default`, and a value that `hidden` holds of is not written. -/
  | hiddenAs (default : α) (hidden : α → Bool) (eq_default : ∀ a, hidden a = true → a = default)

mutual

/-- How values of a type stand in a document. -/
inductive Shape : Type → Type 1 where
  | integer {α : Type} (width : Width α) : Shape α
  | text : Shape String
  | flag : Shape Bool
  | list {α : Type} (item : Shape α) : Shape (List α)
  | nullable {α : Type} (value : Shape α) : Shape (Option α)
  /-- A record, whose fields taken one by one are a `β`. -/
  | record {α β : Type} (name : String) (fields : Fields β) (make : β → α) (parts : α → β)
      (make_parts : ∀ a, make (parts a) = a) (parts_make : ∀ b, parts (make b) = b) : Shape α
  /-- One of several records, told apart by the text of the field `tag`. Any other text stands for
  the last case, which has no fields and is written as `other`. -/
  | union {α β : Type} (name tag other : String) (cases : Cases β) (make : β → α) (parts : α → β)
      (make_parts : ∀ a, make (parts a) = a) (parts_make : ∀ b, parts (make b) = b) : Shape α

/-- The fields of a record, in the order in which they are written. -/
inductive Fields : Type → Type 1 where
  | nil : Fields Unit
  | cons {α β : Type} (name : String) (shape : Shape α) (presence : Presence α)
      (rest : Fields β) : Fields (α × β)

/-- The cases of a union but the last. -/
inductive Cases : Type → Type 1 where
  | nil : Cases Unit
  | cons {α β : Type} (name : String) (fields : Fields α) (rest : Cases β) : Cases (α ⊕ β)

end

namespace Fields

/-- The number of fields. -/
def length : {β : Type} → Fields β → Nat
  | _, nil => 0
  | _, cons _ _ _ rest => rest.length + 1

/-- The values read so far while the members of an object pass. -/
def Slots : {β : Type} → Fields β → Type
  | _, nil => Unit
  | _, @cons α _ _ _ _ rest => Option α × rest.Slots

/-- No value is read. -/
def vacant : {β : Type} → (fs : Fields β) → fs.Slots
  | _, nil => ()
  | _, cons _ _ _ rest => (none, rest.vacant)

/-- The record of the values read, once no more member comes: the first required field without a
value is missed. -/
def complete : {β : Type} → (fs : Fields β) → fs.Slots → Except Mismatch β
  | _, nil, _ => .ok ()
  | _, @cons α _ name _ presence rest, slots =>
    let held : Option α × rest.Slots := slots
    match held.1, presence with
    | some a, _ => (rest.complete held.2).map (a, ·)
    | none, .required => .error (.missingField name)
    | none, .absentAs d | none, .hiddenAs d _ _ => (rest.complete held.2).map (d, ·)

end Fields

/-! ## Common fields and shapes -/

/-- A required field. -/
def Fields.need {α β : Type} (name : String) (shape : Shape α) (rest : Fields β) : Fields (α × β) :=
  .cons name shape .required rest

/-- A field that stands for `default` if it is absent. -/
def Fields.default {α β : Type} (name : String) (shape : Shape α) (default : α) (rest : Fields β) :
    Fields (α × β) :=
  .cons name shape (.absentAs default) rest

/-- A field that may be null, and is written as null. -/
def Fields.null {α β : Type} (name : String) (shape : Shape α) (rest : Fields β) :
    Fields (Option α × β) :=
  .cons name (.nullable shape) (.absentAs none) rest

/-- A field that may be null, and is then not written. -/
def Fields.maybe {α β : Type} (name : String) (shape : Shape α) (rest : Fields β) :
    Fields (Option α × β) :=
  .cons name (.nullable shape)
    (.hiddenAs none Option.isNone fun _ h => Option.isNone_iff_eq_none.1 h) rest

/-- An integer of 32 bits. -/
abbrev Shape.integer32 : Shape Int32 := .integer .integer32

/-- An integer of 64 bits. -/
abbrev Shape.integer64 : Shape Int64 := .integer .integer64

/-- A natural number of 32 bits. -/
abbrev Shape.natural32 : Shape UInt32 := .integer .natural32

/-! ## Writing -/

mutual

/-- The value as it is written. -/
def Shape.encode : {α : Type} → Shape α → α → Value
  | _, .integer w, n => .integer (w.toInt n)
  | _, .text, s => .string s
  | _, .flag, b => .bool b
  | _, .list item, l => .array (l.map fun a => item.encode a)
  | _, .nullable _, none => .null
  | _, .nullable s, some a => s.encode a
  | _, .record _ fields _ parts _ _, a => .object (fields.encode (parts a))
  | _, .union _ tag other cases _ parts _ _, a => .object (cases.encode tag other (parts a))

/-- The members of a record. -/
def Fields.encode : {β : Type} → Fields β → β → List (String × Value)
  | _, .nil, _ => []
  | _, .cons name shape presence rest, (a, b) =>
    match presence with
    | .required | .absentAs _ => (name, shape.encode a) :: rest.encode b
    | .hiddenAs _ hidden _ =>
      if hidden a then rest.encode b else (name, shape.encode a) :: rest.encode b

/-- The members of a case, its tag first. -/
def Cases.encode : {β : Type} → String → String → Cases β → β → List (String × Value)
  | _, tag, other, .nil, _ => [(tag, .string other)]
  | _, tag, _, .cons name fields _, .inl a => (tag, .string name) :: fields.encode a
  | _, tag, other, .cons _ _ rest, .inr b => rest.encode tag other b

end

end ClusterScaling.Json
