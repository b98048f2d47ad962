import ClusterScaling.Proofs.Json.Schema

/-!
# Decoding follows the schema

Decoding goes through a tree once and in order, and stops at the first problem. It passes over
members of no field without looking at their values, and buffers unions. `Shape.toOption_decode`
shows that it nevertheless comes to what `Shape.interpret` says, on all well-formed trees that the
shape admits (`Shape.Admits`), and `Shape.follows_schema` shows it for texts.
-/

namespace ClusterScaling.Json

variable {α β : Type}

/-! ## Admitted trees -/

/-- The literal denotes a text: its surrogates come in pairs. -/
def Literal.IsText (l : Literal) : Prop := ∃ s, l.text = .ok s

def Members.Named : Members → Prop
  | .cons k _ rest => k.IsText ∧ rest.Named
  | _ => True

mutual

/-- How deep the containers in the tree are nested. -/
def Tree.height : Tree → Nat
  | .array items => items.height + 1
  | .object ms => ms.height + 1
  | _ => 0

def Items.height : Items → Nat
  | .cons t rest => max t.height rest.height
  | _ => 0

def Members.height : Members → Nat
  | .cons _ v rest => max v.height rest.height
  | _ => 0

end

mutual

/-- All literals of the tree denote texts, and all numbers are in the range of binary64. -/
def Tree.Evaluates : Tree → Prop
  | .number n => n.value? ≠ none
  | .string l => l.IsText
  | .array items => items.Evaluates
  | .object ms => ms.Evaluates
  | _ => True

def Items.Evaluates : Items → Prop
  | .cons t rest => t.Evaluates ∧ rest.Evaluates
  | _ => True

def Members.Evaluates : Members → Prop
  | .cons k v rest => k.IsText ∧ v.Evaluates ∧ rest.Evaluates
  | _ => True

end

mutual

/-- No array stands for a record, whose keys are texts, and unions, which are buffered, hold only
what can be. The first argument is the number of containers around the tree. -/
def Shape.Admits : {α : Type} → Shape α → Nat → Tree → Prop
  | _, .integer _, _, _ => True
  | _, .text, _, _ => True
  | _, .flag, _, _ => True
  | _, .list item, depth, t =>
    ∀ items, t = .array items → ∀ t ∈ items.toList, item.Admits (depth + 1) t
  | _, .nullable s, depth, t => s.Admits depth t
  | _, .record _ fields _ _ _ _, depth, t =>
    (∀ items, t ≠ .array items) ∧
      ∀ ms, t = .object ms → ms.Named ∧ fields.Admits (depth + 1) ms.under
  | _, .union _ _ _ cases _ _ _ _, depth, t =>
    (∀ items, t ≠ .array items) ∧
      ∀ ms, t = .object ms → ms.Evaluates ∧ depth + 1 + ms.height ≤ depthLimit ∧
        cases.Admits (depth + 1) ms.under

def Fields.Admits : {β : Type} → Fields β → Nat → (String → List Tree) → Prop
  | _, .nil, _, _ => True
  | _, .cons name shape _ rest, depth, under =>
    (∀ t ∈ under name, shape.Admits depth t) ∧ rest.Admits depth under

def Cases.Admits : {β : Type} → Cases β → Nat → (String → List Tree) → Prop
  | _, .nil, _, _ => True
  | _, .cons _ fields rest, depth, under => fields.Admits depth under ∧ rest.Admits depth under

end

/-! ## Results without their errors -/

section
variable {ε : Type}

theorem toOption_bind (x : Except ε α) (f : α → Except ε β) :
    (x.bind f).toOption = x.toOption.bind fun a => (f a).toOption := by
  cases x <;> rfl

theorem toOption_map (x : Except ε α) (f : α → β) : (x.map f).toOption = x.toOption.map f := by
  cases x <;> rfl

theorem toOption_bind_map {γ : Type} (x : Except ε α) (f : α → Except ε β) (g : β → γ) :
    (x.bind fun a => (f a).map g).toOption = (x.bind f).toOption.map g := by
  cases x with
  | error e => rfl
  | ok a => exact toOption_map (f a) g

theorem toOption_refuse (expected : Expected) (t : Tree) :
    (t.refuse expected : Except DecodeError α).toOption = none := by
  unfold Tree.refuse
  split <;> rfl

end

/-! ## Well-formed trees -/

section
variable {ε : Type}

theorem bind_eq_ok {x : Except ε α} {f : α → Except ε β} {b : β} (h : x.bind f = .ok b) :
    ∃ a, x = .ok a ∧ f a = .ok b := by
  cases x with
  | error e => cases h
  | ok a => exact ⟨a, rfl, h⟩

theorem map_eq_ok {x : Except ε α} {f : α → β} {b : β} (h : x.map f = .ok b) :
    ∃ a, x = .ok a ∧ f a = b := by
  cases x with
  | error e => cases h
  | ok a => exact ⟨a, rfl, Except.ok.inj h⟩

@[simp] theorem ofMismatch_ok (a : α) : DecodeError.ofMismatch (.ok a) = .ok a := rfl

@[simp] theorem ofMismatch_error (m : Mismatch) :
    DecodeError.ofMismatch (.error m : Except Mismatch α) = .error (.mismatch m) := rfl

theorem ofMismatch_eq_ok_iff {x : Except Mismatch α} {a : α} :
    DecodeError.ofMismatch x = .ok a ↔ x = .ok a := by
  cases x <;> simp

theorem collect_cons_of_ok {ε σ : Type} {ofFault : Fault → ε} {f : σ → String → Tree → Except ε σ}
    {s s' : σ} {k : Literal} {key : String} {v : Tree} {rest : Members} (hk : k.text = .ok key)
    (h : f s key v = .ok s') :
    (Members.cons k v rest).collect ofFault f s = rest.collect ofFault f s' := by
  rw [Members.collect, hk]
  change (f s key v).bind _ = _
  rw [h]
  rfl

theorem collect_cons_eq_ok {ε σ : Type} {ofFault : Fault → ε} {f : σ → String → Tree → Except ε σ}
    {s t : σ} {k : Literal} {v : Tree} {rest : Members}
    (h : (Members.cons k v rest).collect ofFault f s = .ok t) :
    ∃ key s', k.text = .ok key ∧ f s key v = .ok s' ∧ rest.collect ofFault f s' = .ok t := by
  rw [Members.collect] at h
  split at h
  · cases h
  · rename_i key hkey
    obtain ⟨s', hs', h⟩ := bind_eq_ok h
    exact ⟨key, s', hkey, hs', h⟩

end

theorem Literal.SpelledBy.pass {l : Literal} {cs : List Char} (h : l.SpelledBy cs) :
    l.pass = .ok () := by
  cases h
  rfl

mutual

/-- A value that is spelled has no fault. -/
theorem Tree.SpelledBy.pass : (t : Tree) → {cs : List Char} → t.SpelledBy cs → t.pass = .ok ()
  | .null, _, _ | .bool _, _, _ | .number _, _, _ => rfl
  | .cutNumber _, _, h | .fault _, _, h => by cases h
  | .string _, _, h => by
    cases h with
    | string hl => exact hl.pass
  | .array items, _, h => by
    cases h with
    | array hitems => exact Items.SpelledBy.pass items hitems
  | .object ms, _, h => by
    cases h with
    | object hms => exact Members.SpelledBy.pass ms hms

theorem Items.SpelledBy.pass : (items : Items) → {first : Bool} → {cs : List Char} →
    items.SpelledBy first cs → items.pass = .ok ()
  | .done, _, _, _ => rfl
  | .cut _, _, _, h => by cases h
  | .cons t rest, _, _, h => by
    cases h with
    | cons _ _ ht hrest =>
      rw [Items.pass, Tree.SpelledBy.pass t ht]
      exact Items.SpelledBy.pass rest hrest

theorem Members.SpelledBy.pass : (ms : Members) → {first : Bool} → {cs : List Char} →
    ms.SpelledBy first cs → ms.pass = .ok ()
  | .done, _, _, _ => rfl
  | .cut _, _, _, h | .noKey _, _, _, h | .oddKey _, _, _, h => by cases h
  | .cons k v rest, _, _, h => by
    cases h with
    | cons _ _ hk _ _ hv hrest =>
      rw [Members.pass, hk.pass]
      change (v.pass.bind fun _ => rest.pass) = _
      rw [Tree.SpelledBy.pass v hv]
      exact Members.SpelledBy.pass rest hrest

end

theorem Items.pass_cons {t : Tree} {rest : Items} (h : (Items.cons t rest).pass = .ok ()) :
    t.pass = .ok () ∧ rest.pass = .ok () := by
  obtain ⟨_, ht, hrest⟩ := bind_eq_ok h
  exact ⟨ht, hrest⟩

theorem Members.pass_cons {k : Literal} {v : Tree} {rest : Members}
    (h : (Members.cons k v rest).pass = .ok ()) : v.pass = .ok () ∧ rest.pass = .ok () := by
  obtain ⟨_, -, hvalue⟩ := bind_eq_ok h
  obtain ⟨_, hv, hrest⟩ := bind_eq_ok hvalue
  exact ⟨hv, hrest⟩

theorem Items.forall_pass : (items : Items) → items.pass = .ok () →
    ∀ t ∈ items.toList, t.pass = .ok ()
  | .done, _ | .cut _, _ => nofun
  | .cons _ rest, h => by
    obtain ⟨ht, hrest⟩ := Items.pass_cons h
    exact List.forall_mem_cons.2 ⟨ht, rest.forall_pass hrest⟩

theorem Members.entries_cons {k : Literal} {v : Tree} {rest : Members} {name : String}
    (h : k.text = .ok name) : (Members.cons k v rest).entries = (name, v) :: rest.entries := by
  simp [entries, h]

theorem Members.forall_pass : (ms : Members) → ms.Named → ms.pass = .ok () →
    ∀ e ∈ ms.entries, e.2.pass = .ok ()
  | .done, _, _ | .cut _, _, _ | .noKey _, _, _ | .oddKey _, _, _ => nofun
  | .cons _ _ rest, ⟨⟨name, hname⟩, hnamed⟩, h => by
    obtain ⟨hv, hrest⟩ := Members.pass_cons h
    rw [entries_cons hname]
    exact List.forall_mem_cons.2 ⟨hv, rest.forall_pass hnamed hrest⟩

/-- The items of a well-formed array are read one after the other. -/
theorem Items.toOption_collect {f : Tree → Except DecodeError α} : (items : Items) →
    items.pass = .ok () →
    (items.collect .fault f).toOption = items.toList.mapM fun t => (f t).toOption
  | .done, _ => rfl
  | .cut _, h => by cases h
  | .cons t rest, h => by
    obtain ⟨-, hrest⟩ := Items.pass_cons h
    rw [Items.collect, toOption_bind, Items.toList, List.mapM_cons]
    congr 1
    funext a
    rw [toOption_map, rest.toOption_collect hrest]
    cases rest.toList.mapM fun t => (f t).toOption <;> rfl

/-- The members of a well-formed object are read one after the other. -/
theorem Members.collect_eq_foldlM {σ : Type} {f : σ → String → Tree → Except DecodeError σ} :
    (ms : Members) → ms.Named → ms.pass = .ok () → (s : σ) →
    ms.collect .fault f s = ms.entries.foldlM (fun s e => f s e.1 e.2) s
  | .done, _, _, _ => rfl
  | .cut _, _, h, _ | .noKey _, _, h, _ | .oddKey _, _, h, _ => by cases h
  | .cons _ v rest, ⟨⟨name, hname⟩, hnamed⟩, h, s => by
    obtain ⟨-, hrest⟩ := Members.pass_cons h
    rw [collect, entries_cons hname, List.foldlM_cons, hname]
    change ((f s name v).bind fun s => rest.collect .fault f s) = (f s name v).bind _
    congr 1
    funext s
    exact rest.collect_eq_foldlM hnamed hrest s

theorem SpelledDocument.pass {t : Tree} {cs : List Char} (h : SpelledDocument t cs) :
    t.pass = .ok () := by
  cases h with
  | mk _ ht _ => exact Tree.SpelledBy.pass t ht

/-! ## Written objects -/

theorem entries_treeMembers (ms : List (String × Value)) :
    (Value.treeMembers ms).entries = ms.map fun m => (m.1, m.2.tree) := by
  induction ms with
  | nil => rfl
  | cons m ms ih =>
    rw [Value.treeMembers, Members.entries_cons (text_written m.1), ih]
    rfl

theorem named_treeMembers (ms : List (String × Value)) : (Value.treeMembers ms).Named := by
  induction ms with
  | nil => trivial
  | cons m ms ih => exact ⟨⟨m.1, text_written m.1⟩, ih⟩

/-! ## Buffering -/

mutual

/-- A value that can be evaluated and is not too deep can be buffered. -/
theorem Tree.buffer_of_evaluates : (t : Tree) → t.pass = .ok () → t.Evaluates → {depth : Nat} →
    depth + t.height ≤ depthLimit → t.buffer depth = .ok ()
  | .null, _, _, _, _ | .bool _, _, _, _, _ => rfl
  | .number n, _, h, _, _ => by
    rw [Tree.buffer, Numeral.evaluate]
    cases hv : n.value? with
    | none => exact absurd hv h
    | some v => rfl
  | .cutNumber _, h, _, _, _ | .fault _, h, _, _, _ => by cases h
  | .string l, _, ⟨s, hs⟩, _, _ => by
    rw [Tree.buffer, hs]
    rfl
  | .array items, hpass, h, depth, hdepth => by
    rw [Tree.height] at hdepth
    rw [Tree.buffer, if_pos (by omega)]
    exact items.buffer_of_evaluates hpass h (by omega)
  | .object ms, hpass, h, depth, hdepth => by
    rw [Tree.height] at hdepth
    rw [Tree.buffer, if_pos (by omega)]
    exact ms.buffer_of_evaluates hpass h (by omega)

theorem Items.buffer_of_evaluates : (items : Items) → items.pass = .ok () → items.Evaluates →
    {depth : Nat} → depth + items.height ≤ depthLimit → items.buffer depth = .ok ()
  | .done, _, _, _, _ => rfl
  | .cut _, h, _, _, _ => by cases h
  | .cons t rest, hpass, ⟨ht, hrest⟩, depth, hdepth => by
    obtain ⟨htpass, hrestpass⟩ := Items.pass_cons hpass
    rw [Items.height] at hdepth
    rw [Items.buffer, t.buffer_of_evaluates htpass ht (by omega)]
    exact rest.buffer_of_evaluates hrestpass hrest (by omega)

theorem Members.buffer_of_evaluates : (ms : Members) → ms.pass = .ok () → ms.Evaluates →
    {depth : Nat} → depth + ms.height ≤ depthLimit → ms.buffer depth = .ok ()
  | .done, _, _, _, _ => rfl
  | .cut _, h, _, _, _ | .noKey _, h, _, _, _ | .oddKey _, h, _, _, _ => by cases h
  | .cons k v rest, hpass, ⟨⟨s, hs⟩, hv, hrest⟩, depth, hdepth => by
    obtain ⟨hvpass, hrestpass⟩ := Members.pass_cons hpass
    rw [Members.height] at hdepth
    rw [Members.buffer, hs]
    change ((v.buffer depth).bind fun _ => rest.buffer depth) = _
    rw [v.buffer_of_evaluates hvpass hv (by omega)]
    exact rest.buffer_of_evaluates hrestpass hrest (by omega)

end

theorem Members.Evaluates.named : (ms : Members) → ms.Evaluates → ms.Named
  | .done, _ | .cut _, _ | .noKey _, _ | .oddKey _, _ => trivial
  | .cons _ _ rest, ⟨hk, _, hrest⟩ => ⟨hk, Members.Evaluates.named rest hrest⟩

theorem Members.forall_buffer {depth : Nat} : (ms : Members) → ms.Named →
    ms.buffer depth = .ok () → ∀ e ∈ ms.entries, e.2.buffer depth = .ok ()
  | .done, _, _ | .cut _, _, _ | .noKey _, _, _ | .oddKey _, _, _ => nofun
  | .cons _ _ rest, ⟨⟨name, hname⟩, hnamed⟩, h => by
    obtain ⟨_, -, hvalue⟩ := bind_eq_ok h
    obtain ⟨_, hv, hrest⟩ := bind_eq_ok hvalue
    rw [entries_cons hname]
    exact List.forall_mem_cons.2 ⟨hv, rest.forall_buffer hnamed hrest⟩

/-! ## Fields -/

/-- Fills a slot with the values that come for it, of which it takes only one. -/
def fill (f : Tree → Option α) : Option α → List Tree → Option (Option α)
  | held, [] => some held
  | none, t :: ts => (f t).bind fun a => fill f (some a) ts
  | some _, _ :: _ => none

theorem fill_bind_or (f : Tree → Option α) (absent : Option α) (ts : List Tree) :
    (fill f none ts).bind (fun held => held.or absent) = pick absent f ts := by
  match ts with
  | [] => rfl
  | [t] =>
    rw [fill, pick]
    cases f t <;> rfl
  | t :: _ :: _ =>
    rw [fill]
    cases f t <;> rfl

section
variable {name key : String} {value : Tree} {es : List (String × Tree)}

theorem valuesOf_cons_self : valuesOf ((name, value) :: es) name = value :: valuesOf es name := by
  simp [valuesOf]

theorem valuesOf_cons_ne (h : key ≠ name) :
    valuesOf ((key, value) :: es) name = valuesOf es name := by
  simp [valuesOf, h]

end

theorem forall_pass_valuesOf {es : List (String × Tree)} (h : ∀ e ∈ es, e.2.pass = .ok ())
    (name : String) : ∀ t ∈ valuesOf es name, t.pass = .ok () := by
  intro t ht
  obtain ⟨e, he, hvalue⟩ := List.mem_filterMap.1 ht
  split at hvalue
  · obtain rfl := Option.some.inj hvalue
    exact h e he
  · cases hvalue

/-- A well-formed member of no field is passed over. -/
theorem put_of_not_mem : {β : Type} → (fs : Fields β) → {key : String} → key ∉ fs.names →
    {value : Tree} → value.pass = .ok () → (depth : Nat) → (except : Option String) →
    (slots : fs.Slots) → fs.put depth except slots key value = .ok slots
  | _, .nil, _, _, _, h, _, _, _ => by
    rw [Fields.put, h]
    rfl
  | _, @Fields.cons α _ name shape presence rest, _, hkey, _, h, depth, except, slots => by
    rw [Fields.names, List.mem_cons, not_or] at hkey
    let held : Option α × rest.Slots := slots
    have hrest := put_of_not_mem rest hkey.2 h depth except held.2
    change (Fields.cons name shape presence rest).put depth except (Fields.hold held.1 held.2) _ _
      = _
    rw [put_of_ne hkey.1, hrest]
    rfl

theorem foldlM_put_nil (es : List (String × Tree)) (hpass : ∀ e ∈ es, e.2.pass = .ok ())
    (depth : Nat) (except : Option String) :
    es.foldlM (fun slots e => Fields.nil.put depth except slots e.1 e.2) Fields.nil.vacant =
      .ok Fields.nil.vacant := by
  induction es with
  | nil => rfl
  | cons e es ih =>
    obtain ⟨he, hes⟩ := List.forall_mem_cons.1 hpass
    rw [List.foldlM_cons, put_of_not_mem .nil nofun he]
    exact ih hes

section
variable {name : String} {shape : Shape α} {presence : Presence α} {rest : Fields β} {depth : Nat}
  {except : Option String}

theorem put_taken (hexcept : except ≠ some name) (a : α) (slots : rest.Slots) (value : Tree) :
    (Fields.cons name shape presence rest).put depth except (Fields.hold (some a) slots) name
      value = .error (.mismatch (.duplicateField name)) := by
  rw [Fields.put]
  exact if_pos (by simp [hexcept])

theorem put_open (hexcept : except ≠ some name) (slots : rest.Slots) (value : Tree) :
    (Fields.cons name shape presence rest).put depth except (Fields.hold none slots) name value =
      (shape.decode depth value).map fun a => Fields.hold (some a) slots := by
  rw [Fields.put]
  exact if_pos (by simp [hexcept])

/-- The first field is filled with the values under its name, whatever the other fields do with the
other members. -/
theorem toOption_foldlM_put (hname : name ∉ rest.names) (hexcept : except ≠ some name)
    (es : List (String × Tree)) (hpass : ∀ e ∈ es, e.2.pass = .ok ()) (held : Option α)
    (slots : rest.Slots) :
    (es.foldlM (fun slots e =>
        (Fields.cons name shape presence rest).put depth except slots e.1 e.2)
        (Fields.hold held slots)).toOption =
      (fill (fun t => (shape.decode depth t).toOption) held (valuesOf es name)).bind fun held =>
        (es.foldlM (fun slots e => rest.put depth except slots e.1 e.2) slots).toOption.map
          (Fields.hold held) := by
  induction es generalizing held slots with
  | nil => rfl
  | cons e es ih =>
    obtain ⟨key, value⟩ := e
    obtain ⟨hvalue, hes⟩ := List.forall_mem_cons.1 hpass
    rw [List.foldlM_cons, List.foldlM_cons]
    by_cases hkey : key = name
    · subst hkey
      rw [put_of_not_mem rest hname hvalue, valuesOf_cons_self]
      cases held with
      | some a =>
        rw [put_taken hexcept]
        rfl
      | none =>
        rw [put_open hexcept, fill]
        cases shape.decode depth value with
        | error e => rfl
        | ok a => exact ih hes (some a) slots
    · rw [put_of_ne hkey, valuesOf_cons_ne hkey]
      cases rest.put depth except slots key value with
      | error e => cases fill _ held (valuesOf es name) <;> rfl
      | ok slots' => exact ih hes held slots'

/-- A record is complete with the value of its first field, or its default, and those of the
others. -/
theorem toOption_complete (held : Option α) (slots : rest.Slots) :
    (DecodeError.ofMismatch
        ((Fields.cons name shape presence rest).complete (Fields.hold held slots))).toOption =
      (held.or presence.default?).bind fun a =>
        (DecodeError.ofMismatch (rest.complete slots)).toOption.map (a, ·) := by
  cases held with
  | some a =>
    cases presence <;> cases hrest : rest.complete slots <;>
      simp [Fields.complete, Fields.hold, hrest, Except.map, Except.toOption]
  | none =>
    cases presence <;> cases hrest : rest.complete slots <;>
      simp [Fields.complete, Fields.hold, hrest, Except.map, Except.toOption, Presence.default?]

end

theorem toOption_decodeText (expected : Expected) (t : Tree) :
    (t.decodeText expected).toOption = t.text? := by
  cases t with
  | string l =>
    rw [Tree.decodeText, Tree.text?]
    cases l.text <;> rfl
  | _ => simp [Tree.decodeText, Tree.text?, toOption_refuse]

/-- The tag of a union is found under its name. -/
theorem toOption_findTag (tag : String) {depth : Nat} (es : List (String × Tree))
    (hbuffer : ∀ e ∈ es, e.2.buffer depth = .ok ()) (found : Option String) :
    (es.foldlM (fun (found : Option String) e =>
        if e.1 = tag then
          if found.isSome then .error (.mismatch (.duplicateField tag))
          else (e.2.decodeText .unionName).map some
        else (DecodeError.ofFault (e.2.buffer depth)).map fun _ => found) found).toOption =
      fill Tree.text? found (valuesOf es tag) := by
  induction es generalizing found with
  | nil => rfl
  | cons e es ih =>
    obtain ⟨key, value⟩ := e
    obtain ⟨hvalue, hes⟩ := List.forall_mem_cons.1 hbuffer
    rw [List.foldlM_cons]
    by_cases hkey : key = tag
    · subst hkey
      rw [if_pos rfl, valuesOf_cons_self]
      cases found with
      | some s => rfl
      | none =>
        rw [fill, ← toOption_decodeText .unionName]
        cases value.decodeText .unionName with
        | error e => rfl
        | ok s => exact ih hes (some s)
    · rw [if_neg hkey, valuesOf_cons_ne hkey, hvalue]
      exact ih hes found

/-! ## Decoding -/

theorem toOption_decodeInteger (w : Width α) (t : Tree) :
    (t.decodeInteger w).toOption = t.integer?.bind w.ofInt? := by
  cases t with
  | number n => exact toOption_decodeNumber w n
  | _ => simp [Tree.decodeInteger, Tree.integer?, toOption_refuse]

theorem toOption_decodeFlag (t : Tree) : t.decodeFlag.toOption = t.flag? := by
  cases t with
  | bool b => rfl
  | _ => simp [Tree.decodeFlag, Tree.flag?, toOption_refuse]

mutual

/-- **Decoding follows the schema** on well-formed trees that the shape admits. -/
theorem Shape.toOption_decode : {α : Type} → (s : Shape α) → s.Coherent → (depth : Nat) →
    (t : Tree) → t.pass = .ok () → s.Admits depth t → (s.decode depth t).toOption = s.interpret t
  | _, .integer w, _, _, t, _, _ => toOption_decodeInteger w t
  | _, .text, _, _, t, _, _ => toOption_decodeText _ t
  | _, .flag, _, _, t, _, _ => toOption_decodeFlag t
  | _, .list item, hc, depth, t, hpass, h => by
    cases t with
    | array items =>
      rw [Shape.decode, items.toOption_collect hpass]
      exact mapM_congr (List.forall₂_same.2 fun t ht =>
        item.toOption_decode hc (depth + 1) t (items.forall_pass hpass t ht) (h _ rfl t ht))
    | _ => simp [Shape.decode, Shape.interpret, Tree.items?, toOption_refuse]
  | _, .nullable value, hc, depth, t, hpass, h => by
    cases t with
    | null => rfl
    | _ =>
      have hvalue := value.toOption_decode hc.2 depth _ hpass h
      exact (toOption_map _ _).trans (congrArg (Option.map some) hvalue)
  | _, .record name fields make _ _ _, hc, depth, t, hpass, h => by
    obtain ⟨harray, hobject⟩ := h
    cases t with
    | object ms =>
      obtain ⟨hnamed, hadmits⟩ := hobject ms rfl
      have hfields := fields.toOption_decode hc.2 hc.1 none nofun (depth + 1) ms.entries
        (ms.forall_pass hnamed hpass) hadmits
      rw [Shape.decode, ms.collect_eq_foldlM hnamed hpass]
      exact (toOption_bind_map _ _ make).trans (congrArg (Option.map make) hfields)
    | array items => exact absurd rfl (harray items)
    | _ => simp [Shape.decode, Shape.interpret, Tree.members?, toOption_refuse]
  | _, .union name tag other cases make _ _ _, hc, depth, t, hpass, h => by
    obtain ⟨harray, hobject⟩ := h
    cases t with
    | object ms =>
      obtain ⟨hevaluates, hheight, hadmits⟩ := hobject ms rfl
      have hnamed := Members.Evaluates.named ms hevaluates
      have hbuffer := ms.buffer_of_evaluates hpass hevaluates hheight
      have htag := toOption_findTag tag ms.entries (ms.forall_buffer hnamed hbuffer) none
      have hcases := fun chosen => cases.toOption_decode tag hc.2 name chosen (depth + 1) ms hnamed
        hpass hadmits
      rw [Shape.decode, Members.findTag, ms.collect_eq_foldlM hnamed hpass]
      change (Except.bind _ _).toOption = (pick none Tree.text? (ms.under tag)).bind fun chosen =>
        (cases.interpret chosen ms.under).map make
      rw [toOption_bind, htag, ← fill_bind_or, Option.bind_assoc]
      congr 1
      funext found
      cases found with
      | none => rfl
      | some chosen => exact (toOption_map _ _).trans (congrArg (Option.map make) (hcases chosen))
    | array items => exact absurd rfl (harray items)
    | _ => simp [Shape.decode, Shape.interpret, Tree.members?, toOption_refuse]

theorem Fields.toOption_decode : {β : Type} → (fs : Fields β) → fs.Coherent → fs.names.Nodup →
    (except : Option String) → (∀ name ∈ fs.names, except ≠ some name) → (depth : Nat) →
    (es : List (String × Tree)) → (∀ e ∈ es, e.2.pass = .ok ()) →
    fs.Admits depth (valuesOf es) →
    ((es.foldlM (fun slots e => fs.put depth except slots e.1 e.2) fs.vacant).bind fun slots =>
      DecodeError.ofMismatch (fs.complete slots)).toOption = fs.interpret (valuesOf es)
  | _, .nil, _, _, except, _, depth, es, hpass, _ => by
    rw [foldlM_put_nil es hpass depth except]
    rfl
  | _, .cons name shape presence rest, hc, hnames, except, hexcept, depth, es, hpass, h => by
    obtain ⟨hshape, hrestc⟩ := hc
    obtain ⟨hname, hnames⟩ := List.nodup_cons.1 hnames
    obtain ⟨hself, hothers⟩ := List.forall_mem_cons.1 hexcept
    obtain ⟨hfirst, hrest⟩ := h
    have hothers := rest.toOption_decode hrestc hnames except hothers depth es hpass hrest
    have hvalue : ∀ t ∈ valuesOf es name, (shape.decode depth t).toOption = shape.interpret t :=
      fun t ht => shape.toOption_decode hshape depth t (forall_pass_valuesOf hpass name t ht)
        (hfirst t ht)
    rw [toOption_bind] at hothers
    change (Except.bind (es.foldlM _ (Fields.hold none rest.vacant)) _).toOption = _
    rw [toOption_bind, toOption_foldlM_put hname hself es hpass, Fields.interpret, ← hothers,
      ← pick_congr (.of_perm .rfl hvalue), ← fill_bind_or, Option.bind_assoc, Option.bind_assoc]
    congr 1
    funext held
    -- the other fields are read on the way and the default is taken in the end
    simp only [Option.bind_map, Function.comp_def, toOption_complete]
    cases held.or presence.default? with
    | none => exact Option.bind_fun_none _
    | some a =>
      rw [Option.bind_some, Option.map_bind]
      rfl

theorem Cases.toOption_decode : {β : Type} → (cs : Cases β) → (tag : String) → cs.Coherent tag →
    (union chosen : String) → (depth : Nat) → (ms : Members) → ms.Named → ms.pass = .ok () →
    cs.Admits depth ms.under →
    (cs.decodeObject union tag chosen depth ms).toOption = cs.interpret chosen ms.under
  | _, .nil, _, _, _, _, _, _, _, _, _ => rfl
  | _, .cons name fields rest, tag, hc, union, chosen, depth, ms, hnamed, hpass, h => by
    obtain ⟨htag, hfields, hrest⟩ := hc
    obtain ⟨htag, hnames⟩ := List.nodup_cons.1 htag
    obtain ⟨hadmits, hothers⟩ := h
    rw [Cases.decodeObject, Cases.interpret]
    split
    · have hother : ∀ n ∈ fields.names, some tag ≠ some n := fun n hn hn' =>
        htag (Option.some.inj hn' ▸ hn)
      have hdecode := fields.toOption_decode hfields hnames (some tag) hother depth ms.entries
        (ms.forall_pass hnamed hpass) hadmits
      rw [ms.collect_eq_foldlM hnamed hpass]
      exact (toOption_bind_map _ _ Sum.inl).trans (congrArg (Option.map Sum.inl) hdecode)
    · rw [toOption_map, rest.toOption_decode tag hrest union chosen depth ms hnamed hpass hothers]

end

/-! ## Documents -/

/-- What a document is decoded as is what its value is decoded as. -/
theorem Shape.decode_root {s : Shape α} {d : Document} {a : α} (h : s.decodeDocument d = .ok a) :
    s.decode 0 d.root = .ok a := by
  obtain ⟨b, hb, h⟩ := bind_eq_ok h
  split at h
  · cases h
  · rwa [← Except.ok.inj h]

/-- The text is decoded as the value, or not at all if there is none, be it from its characters or
from its bytes. -/
structure Shape.Decodes (s : Shape α) (text : String) (a : Option α) : Prop where
  chars : (s.decodeDocument (.read (Text.piecesOfChars text.toList))).toOption = a
  bytes : (s.decodeDocument (.read (Text.piecesOfBytes text.toUTF8.toList))).toOption = a

/-- Every text of a tree is decoded as the schema says. -/
theorem Shape.follows_schema {s : Shape α} (hs : s.Coherent) {t : Tree} {text : String}
    (spelled : SpelledDocument t text.toList) (admits : s.Admits 0 t) :
    s.Decodes text (s.interpret t) := by
  have hread : Document.read (Text.piecesOfChars text.toList) = ⟨t, false⟩ :=
    Document.read_spelled spelled
  have hdecode : (s.decodeDocument ⟨t, false⟩).toOption = s.interpret t := by
    rw [← s.toOption_decode hs 0 t spelled.pass admits, decodeDocument]
    cases s.decode 0 t <;> rfl
  refine ⟨?_, ?_⟩
  · rw [hread, hdecode]
  · rw [Text.piecesOfBytes_toUTF8, hread, hdecode]

end ClusterScaling.Json
