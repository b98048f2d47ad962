import ClusterScaling.Proofs.Json.Decoding

/-!
# Documents in which a value is replaced

Of two documents of a record, one may have another value in the place of one field
(`Tree.Replaced`). Where that field takes the values put in place of those that it takes
(`Fields.Takes`), the document is still decoded, and what is read of the other fields is the same
(`Shape.decode_replaced`). Up to the value both documents are decoded alike. From there on they
differ in the value of that field, which plays no part for the other members (`Fields.put_same`).
-/

namespace ClusterScaling.Json

variable {α β : Type}

/-! ## Replaced values -/

/-- The objects differ in the value of one member of the name. -/
inductive Members.Replaced (name : String) (R : Tree → Tree → Prop) : Members → Members → Prop
  | here {k v v' rest} : k.text = .ok name → R v v' →
      Replaced name R (.cons k v rest) (.cons k v' rest)
  | there {k v rest rest'} : Replaced name R rest rest' →
      Replaced name R (.cons k v rest) (.cons k v rest')

/-- The arrays differ in the item at the index. -/
inductive Items.ReplacedAt (R : Tree → Tree → Prop) : Nat → Items → Items → Prop
  | here {t t' rest} : R t t' → ReplacedAt R 0 (.cons t rest) (.cons t' rest)
  | there {index t rest rest'} : ReplacedAt R index rest rest' →
      ReplacedAt R (index + 1) (.cons t rest) (.cons t rest')

/-- The trees of a record differ in the value of one of its fields, be it that of the name in an
object or that at the index in an array. -/
inductive Tree.Replaced (name : String) (index : Nat) (R : Tree → Tree → Prop) : Tree → Tree → Prop
  | object {ms ms'} : Members.Replaced name R ms ms' →
      Replaced name index R (.object ms) (.object ms')
  | array {items items'} : Items.ReplacedAt R index items items' →
      Replaced name index R (.array items) (.array items')

section
variable (R : Tree → Tree → Prop) (depth : Nat) (name : String)

/-- The second value is read from what is put in place of a value of the first. -/
def Shape.Replaced (s : Shape α) (a a' : α) : Prop :=
  ∃ v v', R v v' ∧ s.decode depth v = .ok a ∧ s.decode depth v' = .ok a'

/-- The records differ in the field of the name, whose value is replaced. -/
def Fields.Replaced : {β : Type} → Fields β → β → β → Prop
  | _, .nil, _, _ => True
  | _, .cons key shape _ rest, (a, b), (a', b') =>
    (if key = name then shape.Replaced R depth a a' else a = a') ∧ rest.Replaced b b'

/-- The values read so far differ in the field of the name, whose value is replaced. -/
def Fields.SlotsReplaced : {β : Type} → (fs : Fields β) → fs.Slots → fs.Slots → Prop
  | _, .nil, _, _ => True
  | _, @Fields.cons α _ key shape _ rest, slots, slots' =>
    let held : Option α × rest.Slots := slots
    let held' : Option α × rest.Slots := slots'
    (if key = name then
        ∃ a a', held.1 = some a ∧ held'.1 = some a' ∧ shape.Replaced R depth a a'
      else held.1 = held'.1) ∧
      rest.SlotsReplaced held.2 held'.2

/-- The field of the name takes what is put in place of a value that it takes. -/
def Fields.Takes : {β : Type} → Fields β → Prop
  | _, .nil => True
  | _, .cons key shape _ rest =>
    (key = name → ∀ v v' a, R v v' → shape.decode depth v = .ok a →
      ∃ a', shape.decode depth v' = .ok a') ∧ rest.Takes

end

section
variable {R : Tree → Tree → Prop} {depth : Nat} {name key : String} {v v' : Tree}

theorem Tree.Replaced.ne_null {index : Nat} {t t' : Tree} (h : t.Replaced name index R t') :
    t ≠ .null ∧ t' ≠ .null := by
  cases h with
  | object | array => exact ⟨nofun, nofun⟩

theorem Fields.replaced_of_not_mem : {β : Type} → (fs : Fields β) → name ∉ fs.names → (b : β) →
    fs.Replaced R depth name b b
  | _, .nil, _, _ => trivial
  | _, .cons key _ _ rest, hname, b => by
    rw [Fields.names, List.mem_cons, not_or] at hname
    refine ⟨?_, rest.replaced_of_not_mem hname.2 b.2⟩
    rw [if_neg (Ne.symm hname.1)]

theorem Fields.slotsReplaced_of_not_mem : {β : Type} → (fs : Fields β) → name ∉ fs.names →
    (s : fs.Slots) → fs.SlotsReplaced R depth name s s
  | _, .nil, _, _ => trivial
  | _, .cons key _ _ rest, hname, s => by
    rw [Fields.names, List.mem_cons, not_or] at hname
    refine ⟨?_, rest.slotsReplaced_of_not_mem hname.2 s.2⟩
    rw [if_neg (Ne.symm hname.1)]

/-! ## Members -/

/-- Once a replaced value is read, the other members are taken as before: a second value for its
field is refused whatever the first one was. -/
theorem Fields.put_same : {β : Type} → (fs : Fields β) → {s s' t : fs.Slots} →
    fs.SlotsReplaced R depth name s s' → fs.put depth none s key v = .ok t →
    ∃ t', fs.put depth none s' key v = .ok t' ∧ fs.SlotsReplaced R depth name t t'
  | _, .nil, _, _, t, _, h => ⟨t, h, trivial⟩
  | _, @Fields.cons α _ own shape presence rest, s, s', t, hs, h => by
    obtain ⟨held, slots⟩ : Option α × rest.Slots := s
    obtain ⟨held', slots'⟩ : Option α × rest.Slots := s'
    obtain ⟨hfirst, hrest⟩ := hs
    change (Fields.cons own shape presence rest).put depth none (Fields.hold held slots) key v = _
      at h
    by_cases hkey : key = own
    · subst hkey
      have hexcept : (none : Option String) ≠ some key := nofun
      cases held with
      | some a =>
        rw [put_taken hexcept] at h
        cases h
      | none =>
        split at hfirst
        · obtain ⟨_, _, hheld, -⟩ := hfirst
          cases hheld
        · rename_i hname
          obtain rfl : none = held' := hfirst
          rw [put_open hexcept] at h
          obtain ⟨a, ha, rfl⟩ := map_eq_ok h
          refine ⟨_, put_self hexcept ha, ?_, hrest⟩
          rw [if_neg hname]
          rfl
    · rw [put_of_ne hkey] at h
      obtain ⟨u, hu, rfl⟩ := map_eq_ok h
      obtain ⟨u', hu', hsame⟩ := rest.put_same hrest hu
      refine ⟨Fields.hold held' u', ?_, hfirst, hsame⟩
      exact (put_of_ne hkey).trans (congrArg (Except.map _) hu')

/-- The value put in place of another one is taken as well. -/
theorem Fields.put_replaced : {β : Type} → (fs : Fields β) → fs.names.Nodup →
    fs.Takes R depth name → name ∈ fs.names → R v v' → {s t : fs.Slots} →
    fs.put depth none s name v = .ok t →
    ∃ t', fs.put depth none s name v' = .ok t' ∧ fs.SlotsReplaced R depth name t t'
  | _, .nil, _, _, hname, _, _, _, _ => nomatch hname
  | _, @Fields.cons α _ own shape presence rest, hnames, htakes, hname, hv, s, t, h => by
    obtain ⟨held, slots⟩ : Option α × rest.Slots := s
    obtain ⟨hown, hnames⟩ := List.nodup_cons.1 hnames
    obtain ⟨htake, htakes⟩ := htakes
    change (Fields.cons own shape presence rest).put depth none (Fields.hold held slots) name v = _
      at h
    by_cases hkey : name = own
    · subst hkey
      have hexcept : (none : Option String) ≠ some name := nofun
      cases held with
      | some a =>
        rw [put_taken hexcept] at h
        cases h
      | none =>
        rw [put_open hexcept] at h
        obtain ⟨a, ha, rfl⟩ := map_eq_ok h
        obtain ⟨a', ha'⟩ := htake rfl _ _ _ hv ha
        refine ⟨_, put_self hexcept ha', ?_, rest.slotsReplaced_of_not_mem hown slots⟩
        rw [if_pos rfl]
        exact ⟨a, a', rfl, rfl, _, _, hv, ha, ha'⟩
    · rw [put_of_ne hkey] at h
      obtain ⟨u, hu, rfl⟩ := map_eq_ok h
      have hname : name ∈ rest.names := (List.mem_cons.1 hname).resolve_left hkey
      obtain ⟨u', hu', hreplaced⟩ := rest.put_replaced hnames htakes hname hv hu
      refine ⟨Fields.hold held u', ?_, ?_, hreplaced⟩
      · exact (put_of_ne hkey).trans (congrArg (Except.map _) hu')
      · rw [if_neg (Ne.symm hkey)]
        rfl

section
variable {fs : Fields β}

theorem Fields.collect_same : (ms : Members) → {s s' t : fs.Slots} →
    fs.SlotsReplaced R depth name s s' →
    ms.collect .fault (fun slots k v => fs.put depth none slots k v) s = .ok t →
    ∃ t', ms.collect .fault (fun slots k v => fs.put depth none slots k v) s' = .ok t' ∧
      fs.SlotsReplaced R depth name t t'
  | .done, _, s', _, hs, h => by
    obtain rfl := Except.ok.inj h
    exact ⟨s', rfl, hs⟩
  | .cons _ _ rest, _, _, _, hs, h => by
    obtain ⟨key, u, hkey, hu, h⟩ := collect_cons_eq_ok h
    obtain ⟨u', hu', hsame⟩ := fs.put_same hs hu
    rw [collect_cons_of_ok hkey hu']
    exact Fields.collect_same rest hsame h

/-- The members before the replaced one are read alike, and those after it keep what is read. -/
theorem Members.Replaced.collect {ms ms' : Members} (hms : ms.Replaced name R ms')
    (hnames : fs.names.Nodup) (htakes : fs.Takes R depth name) (hname : name ∈ fs.names)
    {s t : fs.Slots}
    (h : ms.collect .fault (fun slots k v => fs.put depth none slots k v) s = .ok t) :
    ∃ t', ms'.collect .fault (fun slots k v => fs.put depth none slots k v) s = .ok t' ∧
      fs.SlotsReplaced R depth name t t' := by
  induction hms generalizing s with
  | here hkey hv =>
    obtain ⟨key, u, hkey', hu, h⟩ := collect_cons_eq_ok h
    obtain rfl : name = key := Except.ok.inj (hkey.symm.trans hkey')
    obtain ⟨u', hu', hreplaced⟩ := fs.put_replaced hnames htakes hname hv hu
    rw [collect_cons_of_ok hkey hu']
    exact Fields.collect_same _ hreplaced h
  | there _ ih =>
    obtain ⟨key, u, hkey, hu, h⟩ := collect_cons_eq_ok h
    rw [collect_cons_of_ok hkey hu]
    exact ih h

end

/-! ## Records -/

/-- Nothing is missed that was not missed before. -/
theorem Fields.complete_replaced : {β : Type} → (fs : Fields β) → {s s' : fs.Slots} →
    fs.SlotsReplaced R depth name s s' → {b : β} → fs.complete s = .ok b →
    ∃ b', fs.complete s' = .ok b' ∧ fs.Replaced R depth name b b'
  | _, .nil, _, _, _, b, h => ⟨b, h, trivial⟩
  | _, @Fields.cons α _ key shape presence rest, s, s', hs, b, h => by
    obtain ⟨held, slots⟩ : Option α × rest.Slots := s
    obtain ⟨held', slots'⟩ : Option α × rest.Slots := s'
    obtain ⟨hfirst, hrest⟩ := hs
    by_cases hkey : key = name
    · rw [if_pos hkey] at hfirst
      obtain ⟨a, a', rfl, rfl, ha⟩ := hfirst
      obtain ⟨c, hc, rfl⟩ := map_eq_ok h
      obtain ⟨c', hc', hreplaced⟩ := rest.complete_replaced hrest hc
      refine ⟨(a', c'), congrArg (Except.map _) hc', ?_, hreplaced⟩
      rwa [if_pos hkey]
    · rw [if_neg hkey] at hfirst
      obtain rfl : held = held' := hfirst
      have hsame : ∀ {a : α}, (if key = name then shape.Replaced R depth a a else a = a) :=
        (if_neg hkey).mpr rfl
      cases held with
      | some a =>
        obtain ⟨c, hc, rfl⟩ := map_eq_ok h
        obtain ⟨c', hc', hreplaced⟩ := rest.complete_replaced hrest hc
        exact ⟨(a, c'), congrArg (Except.map _) hc', hsame, hreplaced⟩
      | none =>
        cases presence with
        | required => cases h
        | absentAs d | hiddenAs d _ _ =>
          obtain ⟨c, hc, rfl⟩ := map_eq_ok h
          obtain ⟨c', hc', hreplaced⟩ := rest.complete_replaced hrest hc
          exact ⟨(d, c'), congrArg (Except.map _) hc', hsame, hreplaced⟩

/-- The fields in an array, of which that at the index is replaced. -/
theorem Fields.decodeItems_replaced : {β : Type} → (fs : Fields β) → fs.names.Nodup →
    fs.Takes R depth name → {index start : Nat} → {arity : Arity} → {items items' : Items} →
    items.ReplacedAt R index items' → fs.names[index]? = some name → {r : β × Items} →
    fs.decodeItems depth arity start items = .ok r →
    ∃ b', fs.decodeItems depth arity start items' = .ok (b', r.2) ∧
      fs.Replaced R depth name r.1 b'
  | _, .nil, _, _, _, _, _, _, _, _, hname, _, _ => by simp at hname
  | _, .cons key shape presence rest, hnames, htakes, _, _, _, _, _, hitems, hname, r, h => by
    obtain ⟨hkey, hnames⟩ := List.nodup_cons.1 hnames
    obtain ⟨htake, htakes⟩ := htakes
    cases hitems with
    | @here t t' items ht =>
      obtain rfl : key = name := by simpa using hname
      obtain ⟨a, ha, h⟩ := bind_eq_ok h
      obtain ⟨c, hc, rfl⟩ := map_eq_ok h
      obtain ⟨a', ha'⟩ := htake rfl _ _ _ ht ha
      refine ⟨(a', c.1), ?_, ?_, rest.replaced_of_not_mem hkey c.1⟩
      · rw [Fields.decodeItems, ha', hc]
        rfl
      · rw [if_pos rfl]
        exact ⟨_, _, ht, ha, ha'⟩
    | @there index _ _ _ hitems =>
      obtain ⟨a, ha, h⟩ := bind_eq_ok h
      obtain ⟨c, hc, rfl⟩ := map_eq_ok h
      have hname : rest.names[index]? = some name := by simpa using hname
      obtain ⟨c', hc', hreplaced⟩ := rest.decodeItems_replaced hnames htakes hitems hname hc
      refine ⟨(a, c'), ?_, ?_, hreplaced⟩
      · rw [Fields.decodeItems, ha, hc']
        rfl
      · rw [if_neg]
        rintro rfl
        exact hkey (List.mem_of_getElem? hname)

/-- **A document in which the value of one field is replaced** is decoded if the field takes the
new value, with nothing else changed. -/
theorem Shape.decode_replaced {what : String} {fields : Fields β} {make : β → α} {parts : α → β}
    {make_parts : ∀ a, make (parts a) = a} {parts_make : ∀ b, parts (make b) = b} {index : Nat}
    {t t' : Tree} {a : α} (ht : t.Replaced name index R t') (hnames : fields.names.Nodup)
    (hname : fields.names[index]? = some name) (htakes : fields.Takes R (depth + 1) name)
    (h : (Shape.record what fields make parts make_parts parts_make).decode depth t = .ok a) :
    ∃ a', (Shape.record what fields make parts make_parts parts_make).decode depth t' = .ok a' ∧
      fields.Replaced R (depth + 1) name (parts a) (parts a') := by
  cases ht with
  | object hms =>
    rw [Shape.decode] at h
    obtain ⟨s, hs, h⟩ := bind_eq_ok h
    obtain ⟨b, hb, rfl⟩ := map_eq_ok h
    obtain ⟨s', hs', hslots⟩ := hms.collect hnames htakes (List.mem_of_getElem? hname) hs
    obtain ⟨b', hb', hreplaced⟩ := fields.complete_replaced hslots (ofMismatch_eq_ok_iff.1 hb)
    refine ⟨make b', ?_, ?_⟩
    · rw [Shape.decode, hs']
      exact congrArg (Except.map make) (ofMismatch_eq_ok_iff.2 hb')
    · rwa [parts_make, parts_make]
  | array hitems =>
    rw [Shape.decode] at h
    obtain ⟨r, hr, h⟩ := bind_eq_ok h
    obtain ⟨_, hend, h⟩ := bind_eq_ok h
    obtain rfl := Except.ok.inj h
    obtain ⟨b', hb', hreplaced⟩ := fields.decodeItems_replaced hnames htakes hitems hname hr
    refine ⟨make b', ?_, ?_⟩
    · rw [Shape.decode, hb']
      exact congrArg (fun x => x.bind fun _ => Except.ok (make b')) hend
    · rwa [parts_make, parts_make]

end

end ClusterScaling.Json
