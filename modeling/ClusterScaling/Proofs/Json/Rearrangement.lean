import Mathlib.Data.List.Perm.Basic
import ClusterScaling.Proofs.Json.Decoding

/-!
# Documents whose items are rearranged

Two documents may differ in nothing but the order of the items of the arrays under one name
(`Tree.Rearranged`). If both are decoded as records, the records differ in nothing but that field,
whose value is read from arrays of the same items (`Shape.decode_rearranged`). This is shown of two
decodings side by side: each member that both read keeps the values read so far alike
(`Fields.put_rearranged`), so all members do.
-/

namespace ClusterScaling.Json

variable {α β : Type}

/-! ## Rearranged documents -/

/-- The arrays have the same items in any order. -/
def Items.Shuffled (items items' : Items) : Prop := items.toList.Perm items'.toList

/-- The objects differ in the order of the items of arrays under the name. -/
inductive Members.Rearranged (name : String) : Members → Members → Prop
  | same (ms : Members) : Rearranged name ms ms
  | here {k items items' rest rest'} : k.text = .ok name → Items.Shuffled items items' →
      Rearranged name rest rest' →
      Rearranged name (.cons k (.array items) rest) (.cons k (.array items') rest')
  | there {k v rest rest'} : Rearranged name rest rest' →
      Rearranged name (.cons k v rest) (.cons k v rest')

/-- The arrays differ in the order of the items of the array at the index. -/
inductive Items.RearrangedAt : Nat → Items → Items → Prop
  | here {items items' rest} : Items.Shuffled items items' →
      RearrangedAt 0 (.cons (.array items) rest) (.cons (.array items') rest)
  | there {index t rest rest'} : RearrangedAt index rest rest' →
      RearrangedAt (index + 1) (.cons t rest) (.cons t rest')

/-- The trees of a record differ in the order of the items of one of its fields, be it that of the
name in an object or that at the index in an array. -/
inductive Tree.Rearranged (name : String) (index : Nat) : Tree → Tree → Prop
  | object {ms ms'} : Members.Rearranged name ms ms' → Rearranged name index (.object ms) (.object ms')
  | array {items items'} : Items.RearrangedAt index items items' →
      Rearranged name index (.array items) (.array items')

/-! ## Values of rearranged fields -/

/-- The values are read from two arrays of the same items. -/
def Shape.Shuffled (s : Shape α) (a a' : α) : Prop :=
  ∃ depth items items', Items.Shuffled items items' ∧ s.decode depth (.array items) = .ok a ∧
    s.decode depth (.array items') = .ok a'

/-- The values of the field `key` are the same, or it is that of the name and they are shuffled. -/
def Shape.AgreesIn (s : Shape α) (name key : String) (a a' : α) : Prop :=
  a = a' ∨ key = name ∧ s.Shuffled a a'

/-- The records differ in the order of the items of the field of the name. -/
def Fields.Rearranged (name : String) : {β : Type} → Fields β → β → β → Prop
  | _, .nil, _, _ => True
  | _, .cons key shape _ rest, (a, b), (a', b') =>
    shape.AgreesIn name key a a' ∧ rest.Rearranged name b b'

/-- The values read so far differ in the order of the items of the field of the name. -/
def Fields.SlotsRearranged (name : String) : {β : Type} → (fs : Fields β) → fs.Slots → fs.Slots →
    Prop
  | _, .nil, _, _ => True
  | _, @Fields.cons α _ key shape _ rest, slots, slots' =>
    let held : Option α × rest.Slots := slots
    let held' : Option α × rest.Slots := slots'
    Option.Rel (shape.AgreesIn name key) held.1 held'.1 ∧ rest.SlotsRearranged name held.2 held'.2

theorem Fields.rearranged_refl (name : String) : {β : Type} → (fs : Fields β) → (b : β) →
    fs.Rearranged name b b
  | _, .nil, _ => trivial
  | _, .cons _ _ _ rest, b => ⟨.inl rfl, rest.rearranged_refl name b.2⟩

theorem Fields.vacant_rearranged (name : String) : {β : Type} → (fs : Fields β) →
    fs.SlotsRearranged name fs.vacant fs.vacant
  | _, .nil => trivial
  | _, .cons _ _ _ rest => ⟨.none, rest.vacant_rearranged name⟩

section
variable {ε : Type}

/-- All items are read, each on its own. -/
theorem Items.collect_eq_ok {ofFault : Fault → ε} {f : Tree → Except ε α} {items : Items}
    {l : List α} (h : items.collect ofFault f = .ok l) : items.toList.map f = l.map .ok := by
  induction items using Items.collect.induct generalizing l with
  | case1 =>
    obtain rfl := Except.ok.inj h
    rfl
  | case2 => cases h
  | case3 t rest ih =>
    obtain ⟨a, ha, h⟩ := bind_eq_ok h
    obtain ⟨l', hl', rfl⟩ := map_eq_ok h
    rw [Items.toList, List.map_cons, List.map_cons, ha, ih hl']

end

/-- Lists that are read from the same items are permutations of each other. -/
theorem Shape.Shuffled.perm {item : Shape α} {l l' : List α} (h : (Shape.list item).Shuffled l l') :
    l.Perm l' := by
  obtain ⟨depth, items, items', hperm, hl, hl'⟩ := h
  rw [Shape.decode] at hl hl'
  have hmap := hperm.map fun t => item.decode (depth + 1) t
  rw [Items.collect_eq_ok hl, Items.collect_eq_ok hl'] at hmap
  exact (List.map_perm_map_iff fun _ _ => Except.ok.inj).1 hmap

/-! ## Decoding side by side -/

section
variable {name key : String} {depth : Nat} {except : Option String} {v v' : Tree}

/-- The values of a member in two documents are the same, or shuffled under the name. -/
def MemberAgrees (name key : String) (v v' : Tree) : Prop :=
  v = v' ∨ key = name ∧
    ∃ items items', v = .array items ∧ v' = .array items' ∧ Items.Shuffled items items'

theorem Shape.decode_agrees {shape : Shape α} {a a' : α} (hv : MemberAgrees name key v v')
    (ha : shape.decode depth v = .ok a) (ha' : shape.decode depth v' = .ok a') :
    shape.AgreesIn name key a a' := by
  rcases hv with rfl | ⟨rfl, items, items', rfl, rfl, hperm⟩
  · exact .inl (Except.ok.inj (ha.symm.trans ha'))
  · exact .inr ⟨rfl, depth, items, items', hperm, ha, ha'⟩

/-- A member that both documents give keeps the values read so far alike. -/
theorem Fields.put_rearranged : {β : Type} → (fs : Fields β) → {s s' t t' : fs.Slots} →
    fs.SlotsRearranged name s s' → MemberAgrees name key v v' →
    fs.put depth except s key v = .ok t → fs.put depth except s' key v' = .ok t' →
    fs.SlotsRearranged name t t'
  | _, .nil, _, _, _, _, _, _, _, _ => trivial
  | _, @Fields.cons α _ own shape _ rest, s, s', t, t', hs, hv, h, h' => by
    obtain ⟨hfirst, hrest⟩ := hs
    rw [Fields.put] at h h'
    by_cases hkey : (key = own && except != some own) = true
    · rw [if_pos hkey] at h h'
      obtain ⟨hown, -⟩ := by simpa using hkey
      split at h
      · cases h
      · split at h'
        · cases h'
        · obtain ⟨a, ha, rfl⟩ := map_eq_ok h
          obtain ⟨a', ha', rfl⟩ := map_eq_ok h'
          exact ⟨.some (hown ▸ Shape.decode_agrees hv ha ha'), hrest⟩
    · rw [if_neg hkey] at h h'
      obtain ⟨u, hu, rfl⟩ := map_eq_ok h
      obtain ⟨u', hu', rfl⟩ := map_eq_ok h'
      exact ⟨hfirst, rest.put_rearranged hrest hv hu hu'⟩

end

section
variable {name : String} {depth : Nat} {except : Option String} {fs : Fields β}

/-- Members that are the same in both documents keep the values read so far alike. -/
theorem collect_same : (ms : Members) → {s s' t t' : fs.Slots} → fs.SlotsRearranged name s s' →
    ms.collect DecodeError.fault (fun slots k v => fs.put depth except slots k v) s = .ok t →
    ms.collect DecodeError.fault (fun slots k v => fs.put depth except slots k v) s' = .ok t' →
    fs.SlotsRearranged name t t'
  | .done, _, _, _, _, hs, h, h' => by
    obtain rfl := Except.ok.inj h
    obtain rfl := Except.ok.inj h'
    exact hs
  | .cons _ _ rest, _, _, _, _, hs, h, h' => by
    obtain ⟨key, u, hkey, hu, h⟩ := collect_cons_eq_ok h
    obtain ⟨key', u', hkey', hu', h'⟩ := collect_cons_eq_ok h'
    obtain rfl : key = key' := Except.ok.inj (hkey.symm.trans hkey')
    exact collect_same rest (fs.put_rearranged hs (.inl rfl) hu hu') h h'

/-- So all members keep the values read so far alike. -/
theorem Members.Rearranged.collect {ms ms' : Members} (hms : ms.Rearranged name ms')
    {s s' t t' : fs.Slots} (hs : fs.SlotsRearranged name s s')
    (h : ms.collect DecodeError.fault (fun slots k v => fs.put depth except slots k v) s = .ok t)
    (h' : ms'.collect DecodeError.fault (fun slots k v => fs.put depth except slots k v) s' =
      .ok t') :
    fs.SlotsRearranged name t t' := by
  induction hms generalizing s s' with
  | same ms => exact collect_same ms hs h h'
  | @here k items items' _ _ hname hperm _ ih =>
    obtain ⟨key, u, hkey, hu, h⟩ := collect_cons_eq_ok h
    obtain ⟨key', u', hkey', hu', h'⟩ := collect_cons_eq_ok h'
    obtain rfl : name = key := Except.ok.inj (hname.symm.trans hkey)
    obtain rfl : name = key' := Except.ok.inj (hname.symm.trans hkey')
    exact ih (fs.put_rearranged hs (.inr ⟨rfl, items, items', rfl, rfl, hperm⟩) hu hu') h h'
  | there _ ih =>
    obtain ⟨key, u, hkey, hu, h⟩ := collect_cons_eq_ok h
    obtain ⟨key', u', hkey', hu', h'⟩ := collect_cons_eq_ok h'
    obtain rfl : key = key' := Except.ok.inj (hkey.symm.trans hkey')
    exact ih (fs.put_rearranged hs (.inl rfl) hu hu') h h'

end

/-- Values read so far that are alike give alike records. -/
theorem Fields.complete_rearranged (name : String) : {β : Type} → (fs : Fields β) →
    {s s' : fs.Slots} → fs.SlotsRearranged name s s' → {b b' : β} → fs.complete s = .ok b →
    fs.complete s' = .ok b' → fs.Rearranged name b b'
  | _, .nil, _, _, _, _, _, _, _ => trivial
  | _, @Fields.cons α _ key shape presence rest, s, s', hs, b, b', h, h' => by
    obtain ⟨hfirst, hrest⟩ := hs
    have halike : ∀ {c c'}, rest.complete s.2 = .ok c → rest.complete s'.2 = .ok c' →
        rest.Rearranged name c c' := rest.complete_rearranged name hrest
    obtain ⟨held, slots⟩ := s
    obtain ⟨held', slots'⟩ := s'
    cases hfirst with
    | @some a a' ha =>
      obtain ⟨c, hc, rfl⟩ := map_eq_ok h
      obtain ⟨c', hc', rfl⟩ := map_eq_ok h'
      exact ⟨ha, halike hc hc'⟩
    | none =>
      cases presence with
      | required => cases h
      | absentAs | hiddenAs =>
        obtain ⟨c, hc, rfl⟩ := map_eq_ok h
        obtain ⟨c', hc', rfl⟩ := map_eq_ok h'
        exact ⟨.inl rfl, halike hc hc'⟩

/-- The fields in an array, of which that at the index is rearranged. -/
theorem Fields.decodeItems_rearranged {name : String} : {β : Type} → (fs : Fields β) →
    {depth index start : Nat} → {arity : Arity} → {items items' : Items} →
    items.RearrangedAt index items' → fs.names[index]? = some name → {r r' : β × Items} →
    fs.decodeItems depth arity start items = .ok r →
    fs.decodeItems depth arity start items' = .ok r' → fs.Rearranged name r.1 r'.1
  | _, .nil, _, _, _, _, _, _, _, _, _, _, _, _ => trivial
  | _, .cons key shape presence rest, _, _, _, _, _, _, hitems, hname, r, r', h, h' => by
    cases hitems with
    | @here items items' rest hperm =>
      obtain rfl : key = name := by simpa using hname
      obtain ⟨a, ha, h⟩ := bind_eq_ok h
      obtain ⟨a', ha', h'⟩ := bind_eq_ok h'
      obtain ⟨c, hc, rfl⟩ := map_eq_ok h
      obtain ⟨c', hc', rfl⟩ := map_eq_ok h'
      obtain rfl : c = c' := Except.ok.inj (hc.symm.trans hc')
      exact ⟨Shape.decode_agrees (.inr ⟨rfl, items, items', rfl, rfl, hperm⟩) ha ha',
        Fields.rearranged_refl ..⟩
    | there hitems =>
      obtain ⟨a, ha, h⟩ := bind_eq_ok h
      obtain ⟨a', ha', h'⟩ := bind_eq_ok h'
      obtain ⟨c, hc, rfl⟩ := map_eq_ok h
      obtain ⟨c', hc', rfl⟩ := map_eq_ok h'
      exact ⟨.inl (Except.ok.inj (ha.symm.trans ha')),
        rest.decodeItems_rearranged hitems (by simpa using hname) hc hc'⟩

/-- **Records of rearranged documents** differ in nothing but the field whose items are
rearranged. -/
theorem Shape.decode_rearranged {what name : String} {fields : Fields β} {make : β → α}
    {parts : α → β} {make_parts : ∀ a, make (parts a) = a} {parts_make : ∀ b, parts (make b) = b}
    {depth index : Nat} {t t' : Tree} {a a' : α} (ht : t.Rearranged name index t')
    (hname : fields.names[index]? = some name)
    (h : (Shape.record what fields make parts make_parts parts_make).decode depth t = .ok a)
    (h' : (Shape.record what fields make parts make_parts parts_make).decode depth t' = .ok a') :
    fields.Rearranged name (parts a) (parts a') := by
  cases ht with
  | object hms =>
    rw [Shape.decode] at h h'
    obtain ⟨s, hs, h⟩ := bind_eq_ok h
    obtain ⟨s', hs', h'⟩ := bind_eq_ok h'
    obtain ⟨b, hb, rfl⟩ := map_eq_ok h
    obtain ⟨b', hb', rfl⟩ := map_eq_ok h'
    have hslots := hms.collect (fields.vacant_rearranged name) hs hs'
    rw [parts_make, parts_make]
    exact fields.complete_rearranged name hslots (ofMismatch_eq_ok_iff.1 hb)
      (ofMismatch_eq_ok_iff.1 hb')
  | array hitems =>
    rw [Shape.decode] at h h'
    obtain ⟨r, hr, h⟩ := bind_eq_ok h
    obtain ⟨r', hr', h'⟩ := bind_eq_ok h'
    obtain ⟨_, -, h⟩ := bind_eq_ok h
    obtain ⟨_, -, h'⟩ := bind_eq_ok h'
    obtain rfl := Except.ok.inj h
    obtain rfl := Except.ok.inj h'
    rw [parts_make, parts_make]
    exact fields.decodeItems_rearranged hitems hname hr hr'

end ClusterScaling.Json
