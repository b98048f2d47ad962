import ClusterScaling.Json.Decode
import ClusterScaling.Proofs.Json.Writing
import ClusterScaling.Proofs.Text.Utf8

/-!
# Encoded values are decoded

A shape writes its values so that it reads them back (`Shape.roundTrips`). For that the names in it
have to keep its parts apart, and only one null may stand for an absent value (`Shape.Coherent`).
A union is buffered as a whole, so its values must not be nested too deeply (`Shape.height`).
-/

namespace ClusterScaling.Json

/-! ## Coherent shapes -/

/-- The names of the fields. -/
@[simp] def Fields.names : {β : Type} → Fields β → List String
  | _, .nil => []
  | _, .cons name _ _ rest => name :: rest.names

/-- The names of the cases but the last. -/
@[simp] def Cases.names : {β : Type} → Cases β → List String
  | _, .nil => []
  | _, .cons name _ rest => name :: rest.names

/-- Whether a null is one of the values. -/
def Shape.isNullable : {α : Type} → Shape α → Bool
  | _, .nullable _ => true
  | _, _ => false

@[simp] theorem isNullable_integer {α : Type} (w : Width α) :
    (Shape.integer w).isNullable = false := rfl

@[simp] theorem isNullable_text : Shape.text.isNullable = false := rfl

mutual

/-- What is written for a value of the shape tells what it was. -/
@[simp] def Shape.Coherent : {α : Type} → Shape α → Prop
  | _, .integer _ => True
  | _, .text => True
  | _, .flag => True
  | _, .list item => item.Coherent
  | _, .nullable value => value.isNullable = false ∧ value.Coherent
  | _, .record _ fields _ _ _ _ => fields.names.Nodup ∧ fields.Coherent
  | _, .union _ tag other cases _ _ _ _ =>
    (cases.names ++ [other]).Nodup ∧ cases.Coherent tag

/-- All fields are coherent. -/
@[simp] def Fields.Coherent : {β : Type} → Fields β → Prop
  | _, .nil => True
  | _, .cons _ shape _ rest => shape.Coherent ∧ rest.Coherent

/-- The fields of all cases are coherent and told apart from the tag. -/
@[simp] def Cases.Coherent : {β : Type} → String → Cases β → Prop
  | _, _, .nil => True
  | _, tag, .cons _ fields rest =>
    (tag :: fields.names).Nodup ∧ fields.Coherent ∧ rest.Coherent tag

end

mutual

/-- How deep the containers in a value of the shape are nested. -/
def Shape.height : {α : Type} → Shape α → Nat
  | _, .integer _ => 0
  | _, .text => 0
  | _, .flag => 0
  | _, .list item => item.height + 1
  | _, .nullable value => value.height
  | _, .record _ fields _ _ _ _ => fields.height + 1
  | _, .union _ _ _ cases _ _ _ _ => cases.height + 1

/-- How deep the containers in the fields are nested. -/
def Fields.height : {β : Type} → Fields β → Nat
  | _, .nil => 0
  | _, .cons _ shape _ rest => max shape.height rest.height

/-- How deep the containers in the fields of the cases are nested. -/
def Cases.height : {β : Type} → Cases β → Nat
  | _, .nil => 0
  | _, .cons _ fields rest => max fields.height rest.height

end

/-! ## Integers and texts -/

section
variable {cs : List Char} {c : Char} {k m n : Nat}

theorem leading_append_singleton (h : Numeral.leading n cs = (k, [])) :
    Numeral.leading n (cs ++ [c]) =
      if 10 * k + Decimal.digitValue c ≤ Numeral.wordLimit then
        (10 * k + Decimal.digitValue c, [])
      else (k, [c]) := by
  induction cs generalizing n with
  | nil =>
    obtain rfl : n = k := by simpa [Numeral.leading] using h
    simp [Numeral.leading]
  | cons d cs ih =>
    simp only [Numeral.leading, List.cons_append] at h ⊢
    split at h
    · rename_i hle
      rw [if_pos hle]
      exact ih h
    · cases h

theorem leading_digits (h : m ≤ Numeral.wordLimit) :
    Numeral.leading 0 (Decimal.digits m) = (m, []) := by
  fun_induction Decimal.digits m with
  | case1 m hm => simp [Numeral.leading, Decimal.digitValue_digitChar hm, h]
  | case2 m hm ih =>
    have hvalue : 10 * (m / 10) + Decimal.digitValue (Decimal.digitChar (m % 10)) = m := by
      rw [Decimal.digitValue_digitChar (Nat.mod_lt _ (by decide))]
      omega
    rw [leading_append_singleton (ih (by omega)), hvalue, if_pos h]

/-- An integer of 64 bits means what it says. -/
theorem evaluate_ofInt {n : Int} (hlow : -0x8000000000000000 ≤ n)
    (hhigh : n ≤ 0xffffffffffffffff) : (Numeral.ofInt n).evaluate = .ok (.integer n) := by
  have hleading : Numeral.leading 0 (Decimal.digits n.natAbs) = (n.natAbs, []) :=
    leading_digits (by unfold Numeral.wordLimit; omega)
  have hvalue : (Numeral.ofInt n).value? = some (.integer n) := by
    by_cases hn : n < 0
    · have hle : 0 < n.natAbs ∧ n.natAbs ≤ 0x8000000000000000 := by omega
      have habs : -(n.natAbs : Int) = n := by omega
      simp only [Numeral.value?, Numeral.ofInt, hleading, hn, hle, decide_true, habs, if_true]
      rfl
    · have habs : (n.natAbs : Int) = n := by omega
      simp only [Numeral.value?, Numeral.ofInt, hleading, hn, decide_false, habs]
      rfl
  simp [Numeral.evaluate, hvalue]

end

section
variable {α : Type}

theorem Width.toInt_bounds (w : Width α) (a : α) :
    -0x8000000000000000 ≤ w.toInt a ∧ w.toInt a ≤ 0xffffffffffffffff := by
  cases w with
  | integer32 =>
    have hlow := Int32.le_toInt a
    have hhigh := Int32.toInt_lt a
    simp only [Width.toInt]
    omega
  | integer64 =>
    have hlow := Int64.le_toInt a
    have hhigh := Int64.toInt_lt a
    simp only [Width.toInt]
    omega
  | natural32 =>
    have hhigh := UInt32.toNat_lt a
    simp only [Width.toInt]
    omega

theorem Width.ofInt?_toInt (w : Width α) (a : α) : w.ofInt? (w.toInt a) = some a := by
  cases w with
  | integer32 =>
    have hlow := Int32.le_toInt a
    have hhigh := Int32.toInt_lt a
    simp only [Width.ofInt?, Width.toInt, Int32.ofInt_toInt]
    rw [if_pos (by omega)]
  | integer64 =>
    have hlow := Int64.le_toInt a
    have hhigh := Int64.toInt_lt a
    simp only [Width.ofInt?, Width.toInt, Int64.ofInt_toInt]
    rw [if_pos (by omega)]
  | natural32 =>
    have hhigh := UInt32.toNat_lt a
    simp only [Width.ofInt?, Width.toInt, Int.toNat_natCast, UInt32.ofNat_toNat]
    rw [if_pos (by omega)]

theorem evaluate_width (w : Width α) (a : α) :
    (Numeral.ofInt (w.toInt a)).evaluate = .ok (.integer (w.toInt a)) :=
  evaluate_ofInt (w.toInt_bounds a).1 (w.toInt_bounds a).2

theorem decodeInteger_integer (w : Width α) (a : α) :
    (Value.integer (w.toInt a)).tree.decodeInteger w = .ok a := by
  simp [Value.integer, Value.tree, Tree.decodeInteger, evaluate_width, w.ofInt?_toInt]

end

/-- A text is decoded as it was written. -/
theorem decodeText_string (expected : Expected) (s : String) :
    (Value.string s).tree.decodeText expected = .ok s := by
  rw [Value.tree, Tree.decodeText, text_written]
  rfl

/-! ## Writing -/

/-- Whether a value is not written. -/
def Presence.hides {α : Type} : Presence α → α → Bool
  | .hiddenAs _ hidden _, a => hidden a
  | _, _ => false

section
variable {α β : Type} {name : String} {shape : Shape α} {presence : Presence α} {rest : Fields β}

theorem encode_cons (a : α) (b : β) :
    (Fields.cons name shape presence rest).encode (a, b) =
      if presence.hides a then rest.encode b else (name, shape.encode a) :: rest.encode b := by
  cases presence <;> rfl

theorem regularItems_map {f : α → Value} (h : ∀ a, (f a).Regular) (l : List α) :
    Value.RegularItems (l.map f) := by
  induction l with
  | nil => trivial
  | cons a l ih => exact ⟨h a, ih⟩

end

mutual

/-- The numbers of encoded values are integers. -/
theorem Shape.regular_encode : {α : Type} → (s : Shape α) → (a : α) → (s.encode a).Regular
  | _, .integer w, a => spelled_ofInt (w.toInt a)
  | _, .text, _ => trivial
  | _, .flag, _ => trivial
  | _, .list item, l => regularItems_map item.regular_encode l
  | _, .nullable _, none => trivial
  | _, .nullable value, some a => value.regular_encode a
  | _, .record _ fields _ parts _ _, a => fields.regular_encode (parts a)
  | _, .union _ tag other cases _ parts _ _, a => cases.regular_encode tag other (parts a)

theorem Fields.regular_encode : {β : Type} → (fs : Fields β) → (b : β) →
    Value.RegularMembers (fs.encode b)
  | _, .nil, _ => trivial
  | _, .cons _ shape _ rest, (a, b) => by
    rw [encode_cons]
    split
    · exact rest.regular_encode b
    · exact ⟨shape.regular_encode a, rest.regular_encode b⟩

theorem Cases.regular_encode : {β : Type} → (cs : Cases β) → (tag other : String) → (b : β) →
    Value.RegularMembers (cs.encode tag other b)
  | _, .nil, _, _, _ => ⟨trivial, trivial⟩
  | _, .cons _ fields _, _, _, .inl a => ⟨trivial, fields.regular_encode a⟩
  | _, .cons _ _ rest, tag, other, .inr b => rest.regular_encode tag other b

end

/-! ## Buffering -/

theorem buffer_treeItems {α : Type} {f : α → Value} {depth : Nat}
    (h : ∀ a, (f a).tree.buffer depth = .ok ()) (l : List α) :
    (Value.treeItems (l.map f)).buffer depth = .ok () := by
  induction l with
  | nil => rfl
  | cons a l ih =>
    rw [List.map_cons, Value.treeItems, Items.buffer, h a]
    exact ih

theorem buffer_treeMembers_cons {k : String} {v : Value} {ms : List (String × Value)} {depth : Nat}
    (hv : v.tree.buffer depth = .ok ()) (hms : (Value.treeMembers ms).buffer depth = .ok ()) :
    (Value.treeMembers ((k, v) :: ms)).buffer depth = .ok () := by
  rw [Value.treeMembers, Members.buffer, text_written, hv]
  exact hms

mutual

/-- An encoded value can be buffered, unless it would stand in too many containers. -/
theorem Shape.buffer_encode : {α : Type} → (s : Shape α) → {depth : Nat} →
    depth + s.height ≤ depthLimit → (a : α) → (s.encode a).tree.buffer depth = .ok ()
  | _, .integer w, _, _, a => by
    simp [Shape.encode, Value.integer, Value.tree, Tree.buffer, evaluate_width, Except.map]
  | _, .text, _, _, a => by
    simp [Shape.encode, Value.tree, Tree.buffer, Except.map]
  | _, .flag, _, _, _ => rfl
  | _, .list item, depth, h, l => by
    rw [Shape.height] at h
    rw [Shape.encode, Value.tree, Tree.buffer, if_pos (by omega)]
    exact buffer_treeItems (fun a => item.buffer_encode (by omega) a) l
  | _, .nullable _, _, _, none => rfl
  | _, .nullable value, _, h, some a => value.buffer_encode h a
  | _, .record _ fields _ parts _ _, depth, h, a => by
    rw [Shape.height] at h
    rw [Shape.encode, Value.tree, Tree.buffer, if_pos (by omega)]
    exact fields.buffer_encode (by omega) (parts a)
  | _, .union _ tag other cases _ parts _ _, depth, h, a => by
    rw [Shape.height] at h
    rw [Shape.encode, Value.tree, Tree.buffer, if_pos (by omega)]
    exact cases.buffer_encode (by omega) tag other (parts a)

theorem Fields.buffer_encode : {β : Type} → (fs : Fields β) → {depth : Nat} →
    depth + fs.height ≤ depthLimit → (b : β) →
    (Value.treeMembers (fs.encode b)).buffer depth = .ok ()
  | _, .nil, _, _, _ => rfl
  | _, .cons _ shape _ rest, depth, h, (a, b) => by
    rw [Fields.height] at h
    rw [encode_cons]
    split
    · exact rest.buffer_encode (by omega) b
    · exact buffer_treeMembers_cons (shape.buffer_encode (by omega) a)
        (rest.buffer_encode (by omega) b)

theorem Cases.buffer_encode : {β : Type} → (cs : Cases β) → {depth : Nat} →
    depth + cs.height ≤ depthLimit → (tag other : String) → (b : β) →
    (Value.treeMembers (cs.encode tag other b)).buffer depth = .ok ()
  | _, .nil, _, _, _, _, _ => by
    refine buffer_treeMembers_cons ?_ rfl
    simp [Value.tree, Tree.buffer, Except.map]
  | _, .cons _ fields _, depth, h, _, _, .inl a => by
    rw [Cases.height] at h
    refine buffer_treeMembers_cons ?_ (fields.buffer_encode (by omega) a)
    simp [Value.tree, Tree.buffer, Except.map]
  | _, .cons _ _ rest, depth, h, tag, other, .inr b => by
    rw [Cases.height] at h
    exact rest.buffer_encode (by omega) tag other b

end

/-! ## Records -/

/-- The values of a record once all of its members are read; those that are not written stay
open. -/
def Fields.filled : {β : Type} → (fs : Fields β) → β → fs.Slots
  | _, .nil, _ => ()
  | _, .cons _ _ presence rest, (a, b) =>
    (if presence.hides a then none else some a, rest.filled b)

theorem Fields.complete_filled : {β : Type} → (fs : Fields β) → (b : β) →
    fs.complete (fs.filled b) = .ok b
  | _, .nil, _ => rfl
  | _, .cons name shape presence rest, (a, b) => by
    have hrest := rest.complete_filled b
    cases presence with
    | required => simp [Fields.complete, Fields.filled, Presence.hides, hrest, Except.map]
    | absentAs d => simp [Fields.complete, Fields.filled, Presence.hides, hrest, Except.map]
    | hiddenAs d hidden eq_default =>
      cases hhidden : hidden a with
      | true =>
        obtain rfl := eq_default a hhidden
        simp [Fields.complete, Fields.filled, Presence.hides, hrest, hhidden, Except.map]
      | false =>
        simp [Fields.complete, Fields.filled, Presence.hides, hrest, hhidden, Except.map]

theorem Fields.mem_names_of_mem_encode : {β : Type} → (fs : Fields β) → (b : β) →
    ∀ m ∈ fs.encode b, m.1 ∈ fs.names
  | _, .nil, _ => nofun
  | _, .cons name shape presence rest, (a, b) => fun m hm => by
    have hrest := rest.mem_names_of_mem_encode b
    rw [encode_cons] at hm
    rw [Fields.names, List.mem_cons]
    split at hm
    · exact .inr (hrest m hm)
    · rcases List.mem_cons.1 hm with rfl | hm
      · exact .inl rfl
      · exact .inr (hrest m hm)

section
variable {α β : Type} {name : String} {shape : Shape α} {presence : Presence α} {rest : Fields β}
  {depth : Nat} {except : Option String} {a : α} {slots : rest.Slots} {held : Option α}
  {key : String} {value : Tree} {ms : List (String × Value)}

/-- What is read for the first field and for the others. -/
def Fields.hold (held : Option α) (slots : rest.Slots) :
    (Fields.cons name shape presence rest).Slots := (held, slots)

/-- A member under another name than that of the first field is left to the others. -/
theorem put_of_ne (h : key ≠ name) :
    (Fields.cons name shape presence rest).put depth except (Fields.hold held slots) key value =
      (rest.put depth except slots key value).map (Fields.hold held) := by
  rw [Fields.put]
  exact if_neg (by simp [h])

/-- The member of the first field fills its slot. -/
theorem put_self (hexcept : except ≠ some name) (h : shape.decode depth value = .ok a) :
    (Fields.cons name shape presence rest).put depth except (Fields.hold none slots) name value =
      .ok (Fields.hold (some a) slots) := by
  rw [Fields.put, h]
  exact if_pos (by simp [hexcept])

theorem collect_treeMembers_cons {ε σ : Type} {ofFault : Fault → ε}
    {f : σ → String → Tree → Except ε σ} {s : σ} {k : String} {v : Value} :
    (Value.treeMembers ((k, v) :: ms)).collect ofFault f s =
      (f s k v.tree).bind fun s => (Value.treeMembers ms).collect ofFault f s := by
  simp [Value.treeMembers, Members.collect]

/-- Members under other names than that of the first field are left to the others. -/
theorem collect_of_ne (h : ∀ m ∈ ms, m.1 ≠ name) :
    (Value.treeMembers ms).collect DecodeError.fault (fun slots key value =>
        (Fields.cons name shape presence rest).put depth except slots key value)
        (Fields.hold held slots) =
      ((Value.treeMembers ms).collect DecodeError.fault
        (fun slots key value => rest.put depth except slots key value) slots).map
        (Fields.hold held) := by
  induction ms generalizing slots with
  | nil => rfl
  | cons m ms ih =>
    obtain ⟨k, v⟩ := m
    obtain ⟨hk, hms⟩ := List.forall_mem_cons.1 h
    rw [collect_treeMembers_cons, collect_treeMembers_cons, put_of_ne hk]
    cases rest.put depth except slots k v.tree with
    | error e => rfl
    | ok slots' => exact ih hms

end

/-! ## Unions -/

/-- The text of the tag. -/
def Cases.choose : {β : Type} → Cases β → String → β → String
  | _, .nil, other, _ => other
  | _, .cons name _ _, _, .inl _ => name
  | _, .cons _ _ rest, other, .inr b => rest.choose other b

theorem Cases.choose_mem : {β : Type} → (cs : Cases β) → (other : String) → (b : β) →
    cs.choose other b ∈ cs.names ++ [other]
  | _, .nil, _, _ => List.mem_cons_self
  | _, .cons _ _ _, _, .inl _ => List.mem_cons_self
  | _, .cons _ _ rest, other, .inr b => List.mem_cons_of_mem _ (rest.choose_mem other b)

section
variable {β : Type} {tag name : String} {depth : Nat} {found : Option String}
  {ms : List (String × Value)}

/-- Members under other names than the tag are only buffered in the search for it. -/
theorem findTag_of_ne (hne : ∀ m ∈ ms, m.1 ≠ tag)
    (hbuffer : (Value.treeMembers ms).buffer depth = .ok ()) :
    (Value.treeMembers ms).findTag tag depth found = .ok found := by
  induction ms with
  | nil => rfl
  | cons m ms ih =>
    obtain ⟨k, v⟩ := m
    obtain ⟨hk, hms⟩ := List.forall_mem_cons.1 hne
    rw [Value.treeMembers, Members.buffer, text_written] at hbuffer
    have hv : v.tree.buffer depth = .ok () ∧
        (Value.treeMembers ms).buffer depth = .ok () := by
      cases hv : v.tree.buffer depth with
      | error e =>
        rw [hv] at hbuffer
        cases hbuffer
      | ok u =>
        rw [hv] at hbuffer
        exact ⟨rfl, hbuffer⟩
    rw [Members.findTag, collect_treeMembers_cons, if_neg hk, hv.1]
    exact ih hms hv.2

/-- The tag is found as the first member. -/
theorem findTag_cons (hne : ∀ m ∈ ms, m.1 ≠ tag)
    (hbuffer : (Value.treeMembers ms).buffer depth = .ok ()) :
    (Value.treeMembers ((tag, .string name) :: ms)).findTag tag depth none = .ok (some name) := by
  rw [Members.findTag, collect_treeMembers_cons, if_pos rfl, decodeText_string]
  exact findTag_of_ne hne hbuffer

end

/-- The tag of an encoded union is found. -/
theorem Cases.findTag_encode : {β : Type} → (cs : Cases β) → {tag : String} → cs.Coherent tag →
    (depth : Nat) → depth + cs.height ≤ depthLimit → (other : String) → (b : β) →
    (Value.treeMembers (cs.encode tag other b)).findTag tag depth none =
      .ok (some (cs.choose other b))
  | _, .nil, _, _, _, _, _, _ => findTag_cons nofun rfl
  | _, .cons _ fields rest, tag, hc, depth, h, _, .inl a => by
    obtain ⟨htag, -, -⟩ := hc
    rw [Cases.height] at h
    refine findTag_cons (fun m hm => ?_) (fields.buffer_encode (by omega) a)
    rintro rfl
    exact (List.nodup_cons.1 htag).1 (fields.mem_names_of_mem_encode a m hm)
  | _, .cons _ _ rest, _, hc, depth, h, other, .inr b => by
    obtain ⟨-, -, hrest⟩ := hc
    rw [Cases.height] at h
    exact rest.findTag_encode hrest depth (by omega) other b

/-- A tag is no field of a record. -/
theorem put_tag : {β : Type} → (fs : Fields β) → {tag : String} → tag ∉ fs.names →
    (depth : Nat) → (except : Option String) → (slots : fs.Slots) → (name : String) →
    fs.put depth except slots tag (Value.string name).tree = .ok slots
  | _, .nil, _, _, _, _, _, _ => rfl
  | _, @Fields.cons α _ key shape presence rest, tag, h, depth, except, slots, name => by
    rw [Fields.names, List.mem_cons, not_or] at h
    let held : Option α × rest.Slots := slots
    have hrest := put_tag rest h.2 depth except held.2 name
    change (Fields.cons key shape presence rest).put depth except (Fields.hold held.1 held.2) tag _
      = _
    rw [put_of_ne h.1, hrest]
    rfl

/-! ## Decoding -/

theorem collect_treeItems {α : Type} {f : α → Value} {decode : Tree → Except DecodeError α}
    (h : ∀ a, decode (f a).tree = .ok a) (l : List α) :
    (Value.treeItems (l.map f)).collect DecodeError.fault decode = .ok l := by
  induction l with
  | nil => rfl
  | cons a l ih =>
    rw [List.map_cons, Value.treeItems, Items.collect, h a]
    change Except.map _ _ = _
    rw [ih]
    rfl

/-- Only a shape with a null among its values writes one. -/
theorem tree_encode_ne_null {α : Type} {s : Shape α} (h : s.isNullable = false) (a : α) :
    (s.encode a).tree ≠ .null := by
  cases s with
  | nullable => cases h
  | _ => nofun

theorem decode_nullable {α : Type} {s : Shape α} {depth : Nat} {t : Tree} (h : t ≠ .null) :
    (Shape.nullable s).decode depth t = (s.decode depth t).map some := by
  cases t with
  | null => exact absurd rfl h
  | _ => rw [Shape.decode]; nofun

mutual

/-- **An encoded value is decoded.** -/
theorem Shape.decode_encode : {α : Type} → (s : Shape α) → s.Coherent → (depth : Nat) →
    depth + s.height ≤ depthLimit → (a : α) → s.decode depth (s.encode a).tree = .ok a
  | _, .integer w, _, _, _, a => by
    rw [Shape.decode, Shape.encode, decodeInteger_integer]
  | _, .text, _, _, _, a => by
    rw [Shape.decode, Shape.encode, decodeText_string]
  | _, .flag, _, _, _, _ => rfl
  | _, .list item, hc, depth, h, l => by
    rw [Shape.height] at h
    exact collect_treeItems (fun a => item.decode_encode hc (depth + 1) (by omega) a) l
  | _, .nullable value, _, _, _, none => by
    rw [Shape.encode, Value.tree, Shape.decode]
  | _, .nullable value, hc, depth, h, some a => by
    obtain ⟨hnull, hvalue⟩ := hc
    have hdecode := value.decode_encode hvalue depth h a
    rw [Shape.encode, decode_nullable (tree_encode_ne_null hnull a), hdecode]
    rfl
  | _, .record _ fields make parts make_parts _, hc, depth, h, a => by
    obtain ⟨hnames, hfields⟩ := hc
    rw [Shape.height] at h
    have hcollect :=
      fields.collect_encode hfields hnames none nofun (depth + 1) (by omega) (parts a)
    rw [Shape.encode, Value.tree, Shape.decode, hcollect]
    change Except.map make (DecodeError.ofMismatch (fields.complete (fields.filled (parts a)))) = _
    rw [fields.complete_filled]
    change Except.ok (make (parts a)) = _
    rw [make_parts]
  | _, .union name tag other cases make parts make_parts _, hc, depth, h, a => by
    obtain ⟨hnames, hcases⟩ := hc
    rw [Shape.height] at h
    -- the members are gone through twice: for the tag, and for the fields of its case
    have htag := cases.findTag_encode hcases (depth + 1) (by omega) other (parts a)
    have hdecode := cases.decode_encode hnames hcases (depth + 1) (by omega) (parts a) name
    rw [Shape.encode, Value.tree, Shape.decode, htag]
    change Except.map make _ = _
    rw [hdecode]
    change Except.ok (make (parts a)) = _
    rw [make_parts]

/-- The members of an encoded record fill its slots. -/
theorem Fields.collect_encode : {β : Type} → (fs : Fields β) → fs.Coherent → fs.names.Nodup →
    (except : Option String) → (∀ name ∈ fs.names, except ≠ some name) → (depth : Nat) →
    depth + fs.height ≤ depthLimit → (b : β) →
    (Value.treeMembers (fs.encode b)).collect DecodeError.fault
      (fun slots key value => fs.put depth except slots key value) fs.vacant = .ok (fs.filled b)
  | _, .nil, _, _, _, _, _, _, _ => rfl
  | _, .cons name shape presence rest, hc, hnames, except, hexcept, depth, h, (a, b) => by
    obtain ⟨hshape, hrest⟩ := hc
    rw [Fields.height] at h
    obtain ⟨hname, hnames⟩ := List.nodup_cons.1 hnames
    obtain ⟨hself, hothers⟩ := List.forall_mem_cons.1 hexcept
    have hfirst := shape.decode_encode hshape depth (by omega) a
    have hcollect := rest.collect_encode hrest hnames except hothers depth (by omega) b
    have hne : ∀ m ∈ rest.encode b, m.1 ≠ name := fun m hm hm' =>
      hname (hm' ▸ rest.mem_names_of_mem_encode b m hm)
    have hvacant : (Fields.cons name shape presence rest).vacant =
      Fields.hold none rest.vacant := rfl
    rw [encode_cons, hvacant]
    -- a hidden value leaves its slot open, and stands for the default in the end
    split
    · rename_i hhides
      rw [collect_of_ne hne, hcollect, Fields.filled, if_pos hhides]
      rfl
    · rename_i hwrites
      rw [collect_treeMembers_cons, put_self hself hfirst]
      change (Value.treeMembers (rest.encode b)).collect _ _ (Fields.hold (some a) rest.vacant) = _
      rw [collect_of_ne hne, hcollect, Fields.filled, if_neg hwrites]
      rfl

/-- The case of an encoded union is found and filled. -/
theorem Cases.decode_encode : {β : Type} → (cs : Cases β) → {tag other : String} →
    (cs.names ++ [other]).Nodup → cs.Coherent tag → (depth : Nat) →
    depth + cs.height ≤ depthLimit → (b : β) → (union : String) →
    cs.decodeObject union tag (cs.choose other b) depth
      (Value.treeMembers (cs.encode tag other b)) = .ok b
  | _, .nil, _, _, _, _, _, _, _, _ => rfl
  | _, .cons name fields rest, tag, other, _, hc, depth, h, .inl a, _ => by
    obtain ⟨htag, hfields, -⟩ := hc
    rw [Cases.height] at h
    obtain ⟨htag, hnames⟩ := List.nodup_cons.1 htag
    -- the tag is passed over when the fields are read, which is only sound as no field has its name
    have hother : ∀ n ∈ fields.names, some tag ≠ some n := fun n hn hn' =>
      htag (Option.some.inj hn' ▸ hn)
    have hcollect :=
      fields.collect_encode hfields hnames (some tag) hother depth (by omega) a
    rw [Cases.choose, Cases.encode, Cases.decodeObject, if_pos rfl, collect_treeMembers_cons,
      put_tag fields htag]
    change (Value.treeMembers (fields.encode a)).collect _ _ fields.vacant >>= _ = _
    rw [hcollect]
    change Except.map _ (DecodeError.ofMismatch (fields.complete (fields.filled a))) = _
    rw [fields.complete_filled]
    rfl
  | _, .cons name fields rest, tag, other, hnames, hc, depth, h, .inr b, union => by
    obtain ⟨-, -, hrest⟩ := hc
    rw [Cases.height] at h
    obtain ⟨hname, hnames⟩ := List.nodup_cons.1 hnames
    have hdecode := rest.decode_encode hnames hrest depth (by omega) b union
    have hchosen : rest.choose other b ≠ name := fun heq =>
      hname (heq ▸ rest.choose_mem other b)
    rw [Cases.choose, Cases.encode, Cases.decodeObject, if_neg hchosen, hdecode]
    rfl

end

/-! ## Round trips -/

/-- The text is read as the value `a`, be it from its characters or from its bytes. -/
structure Shape.Reads {α : Type} (s : Shape α) (text : String) (a : α) : Prop where
  chars : s.decodeDocument (.read (Text.piecesOfChars text.toList)) = .ok a
  bytes : s.decodeDocument (.read (Text.piecesOfBytes text.toUTF8.toList)) = .ok a

/-- Every value is read back from each of its texts. -/
structure Shape.RoundTrips {α : Type} (s : Shape α) : Prop where
  compact : ∀ a, s.Reads (s.encode a).compact a
  pretty : ∀ a, s.Reads (s.encode a).pretty a
  prettyLines : ∀ a, s.Reads ((s.encode a).pretty ++ "\n") a

section
variable {α : Type} {s : Shape α}

/-- The text of a value that is decoded. -/
theorem Shape.reads_of_decode {t : Tree} {text : String} {a : α}
    (hread : Document.read (Text.piecesOfChars text.toList) = ⟨t, false⟩)
    (h : s.decode 0 t = .ok a) : s.Reads text a := by
  have hdocument : s.decodeDocument ⟨t, false⟩ = .ok a := by
    rw [decodeDocument, h]
    rfl
  refine ⟨?_, ?_⟩
  · rw [hread, hdocument]
  · rw [Text.piecesOfBytes_toUTF8, hread, hdocument]

/-- A text of a value in which the value is seen. -/
theorem Shape.reads_of_read (hs : s.Coherent) (hdepth : s.height ≤ depthLimit) {text : String}
    {a : α} (h : Document.read (Text.piecesOfChars text.toList) = ⟨(s.encode a).tree, false⟩) :
    s.Reads text a :=
  reads_of_decode h (s.decode_encode hs 0 (by omega) a)

/-- **Round trips.** A coherent shape that is not too deep reads back what it writes. -/
theorem Shape.roundTrips (hs : s.Coherent) (hdepth : s.height ≤ depthLimit) : s.RoundTrips where
  compact a := reads_of_read hs hdepth (Value.read_compact (s.regular_encode a))
  pretty a := reads_of_read hs hdepth (Value.read_pretty (s.regular_encode a))
  prettyLines a := reads_of_read hs hdepth (Value.read_prettyLines (s.regular_encode a))

end

end ClusterScaling.Json
