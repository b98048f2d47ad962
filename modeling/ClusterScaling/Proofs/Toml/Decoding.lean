import ClusterScaling.Proofs.Json.Schema
import ClusterScaling.Toml.Decode

/-!
# Reading records from tables

A record is read from a table by the names of its fields, whatever the order of the entries is and
whatever else the table holds (`Shape.ofToml_record`).
-/

namespace ClusterScaling.Json

variable {α β : Type} {entries : List (String × Toml.Value)} {name key : String}

/-- The fields have these values in a table: each that under its name, or its default. -/
def Fields.ReadToml : {β : Type} → Fields β → List (String × Toml.Value) → β → Prop
  | _, .nil, _, _ => True
  | _, .cons name shape presence rest, entries, b =>
    (match entries.lookup name with
      | some v => shape.ofToml v = .ok b.1
      | none => presence.default? = some b.1) ∧ rest.ReadToml entries b.2

/-- A table decides the fields. -/
theorem Fields.ReadToml.unique : {β : Type} → {fs : Fields β} → {b b' : β} →
    fs.ReadToml entries b → fs.ReadToml entries b' → b = b'
  | _, .nil, _, _, _, _ => rfl
  | _, .cons name shape presence rest, _, _, h, h' => by
    obtain ⟨hself, hrest⟩ := h
    obtain ⟨hself', hrest'⟩ := h'
    refine Prod.ext ?_ (unique hrest hrest')
    cases hlookup : entries.lookup name with
    | none =>
      rw [hlookup] at hself hself'
      exact Option.some.inj (hself.symm.trans hself')
    | some v =>
      rw [hlookup] at hself hself'
      exact Except.ok.inj (hself.symm.trans hself')

section
variable {shape : Shape α} {presence : Presence α} {rest : Fields β} {held : Option α}
  {slots : rest.Slots} {v : Toml.Value} {a : α}

theorem putToml_self (h : shape.ofToml v = .ok a) :
    (Fields.cons name shape presence rest).putToml (Fields.hold held slots) name v =
      .ok (Fields.hold (some a) slots) := by
  rw [Fields.putToml]
  simp only [if_true, h]
  rfl

theorem putToml_of_ne (hkey : key ≠ name) :
    (Fields.cons name shape presence rest).putToml (Fields.hold held slots) key v =
      (rest.putToml slots key v).map (Fields.hold held) := by
  rw [Fields.putToml]
  exact if_neg hkey

theorem putToml_of_not_mem : {β : Type} → (fs : Fields β) → (slots : fs.Slots) →
    key ∉ fs.names → fs.putToml slots key v = .ok slots
  | _, .nil, _, _ => by rw [Fields.putToml]
  | _, @Fields.cons α _ name shape presence rest, slots, hkey => by
    rw [Fields.names, List.mem_cons, not_or] at hkey
    let parts : Option α × rest.Slots := slots
    change (Fields.cons name shape presence rest).putToml (Fields.hold parts.1 parts.2) _ _ = _
    rw [putToml_of_ne hkey.1, putToml_of_not_mem rest parts.2 hkey.2]
    rfl

/-- Entries of other names leave a field as it is. -/
theorem collectInto_of_ne (h : ∀ e ∈ entries, e.1 ≠ name) :
    collectInto (fun slots e => (Fields.cons name shape presence rest).putToml slots e.1 e.2)
        (Fields.hold held slots) entries =
      (collectInto (fun slots e => rest.putToml slots e.1 e.2) slots entries).map
        (Fields.hold held) := by
  induction entries generalizing slots with
  | nil => rfl
  | cons e entries ih =>
    obtain ⟨he, hentries⟩ := List.forall_mem_cons.1 h
    rw [collectInto, collectInto, putToml_of_ne he]
    cases rest.putToml slots e.1 e.2 with
    | error m => rfl
    | ok slots' => exact ih hentries

/-- The entry of its name fills a field, and is nothing to the other fields. -/
theorem collectInto_of_lookup (hname : name ∉ rest.names) (hkeys : (entries.map Prod.fst).Nodup)
    (hlookup : entries.lookup name = some v) (ha : shape.ofToml v = .ok a) :
    collectInto (fun slots e => (Fields.cons name shape presence rest).putToml slots e.1 e.2)
        (Fields.hold held slots) entries =
      (collectInto (fun slots e => rest.putToml slots e.1 e.2) slots entries).map
        (Fields.hold (some a)) := by
  induction entries generalizing slots with
  | nil => cases hlookup
  | cons e entries ih =>
    obtain ⟨key, v'⟩ := e
    obtain ⟨hkey, hkeys⟩ := List.nodup_cons.1 hkeys
    rw [collectInto, collectInto]
    by_cases hself : key = name
    · subst hself
      obtain rfl : v' = v := by simpa using hlookup
      have hothers : ∀ e ∈ entries, e.1 ≠ key := fun e he h =>
        hkey (List.mem_map.2 ⟨e, he, h⟩)
      rw [putToml_self ha, putToml_of_not_mem rest slots hname]
      exact collectInto_of_ne hothers
    · have hne : (name == key) = false := by simpa using Ne.symm hself
      rw [List.lookup_cons, hne] at hlookup
      rw [putToml_of_ne hself]
      cases rest.putToml slots key v' with
      | error m => rfl
      | ok slots' => exact ih hkeys hlookup

theorem complete_hold (h : held.or presence.default? = some a) :
    (Fields.cons name shape presence rest).complete (Fields.hold held slots) =
      (rest.complete slots).map (a, ·) := by
  cases held with
  | some b =>
    obtain rfl := Option.some.inj h
    rfl
  | none => cases presence <;> cases h <;> rfl

end

theorem collectInto_nil (entries : List (String × Toml.Value)) :
    collectInto (fun slots e => Fields.nil.putToml slots e.1 e.2) Fields.nil.vacant entries =
      .ok Fields.nil.vacant := by
  induction entries with
  | nil => rfl
  | cons e entries ih =>
    rw [collectInto, putToml_of_not_mem .nil _ nofun]
    exact ih

/-- **Fields are read by their names** from tables with distinct keys. -/
theorem Fields.readToml : {β : Type} → (fs : Fields β) → (b : β) → fs.names.Nodup →
    (entries.map Prod.fst).Nodup → fs.ReadToml entries b →
    (collectInto (fun slots e => fs.putToml slots e.1 e.2) fs.vacant entries).bind fs.complete =
      .ok b
  | _, .nil, _, _, _, _ => by
    rw [collectInto_nil]
    rfl
  | _, @Fields.cons α β name shape presence rest, b, hnames, hkeys, h => by
    obtain ⟨hname, hnames⟩ := List.nodup_cons.1 hnames
    obtain ⟨hself, hrest⟩ := h
    have hothers := rest.readToml b.2 hnames hkeys hrest
    have hcollect : ∃ held : Option α, held.or presence.default? = some b.1 ∧
        collectInto (fun slots e => (Fields.cons name shape presence rest).putToml slots e.1 e.2)
            (Fields.hold none rest.vacant) entries =
          (collectInto (fun slots e => rest.putToml slots e.1 e.2) rest.vacant entries).map
            (Fields.hold held) := by
      cases hlookup : entries.lookup name with
      | some v =>
        rw [hlookup] at hself
        exact ⟨some b.1, rfl, collectInto_of_lookup hname hkeys hlookup hself⟩
      | none =>
        rw [hlookup] at hself
        refine ⟨none, hself, collectInto_of_ne fun e he h => ?_⟩
        simpa [h] using List.lookup_eq_none_iff.1 hlookup e he
    obtain ⟨held, hheld, hcollect⟩ := hcollect
    change (collectInto _ (Fields.hold none rest.vacant) entries).bind _ = _
    rw [hcollect]
    cases hslots : collectInto (fun slots e => rest.putToml slots e.1 e.2) rest.vacant entries with
    | error m =>
      rw [hslots] at hothers
      cases hothers
    | ok slots =>
      rw [hslots] at hothers
      have hcomplete : rest.complete slots = .ok b.2 := hothers
      show (Fields.cons name shape presence rest).complete (Fields.hold held slots) = .ok b
      rw [complete_hold hheld, hcomplete]
      rfl

/-- A record is read from a table with its fields. -/
theorem Shape.ofToml_record {fields : Fields β} {make : β → α} {parts : α → β}
    {make_parts : ∀ a, make (parts a) = a} {parts_make : ∀ b, parts (make b) = b} {b : β}
    (hnames : fields.names.Nodup) (hkeys : (entries.map Prod.fst).Nodup)
    (h : fields.ReadToml entries b) :
    (Shape.record name fields make parts make_parts parts_make).ofToml (.table entries) =
      .ok (make b) := by
  have hread := fields.readToml b hnames hkeys h
  rw [Shape.ofToml]
  cases hslots : collectInto (fun slots e => fields.putToml slots e.1 e.2) fields.vacant entries with
  | error m =>
    rw [hslots] at hread
    cases hread
  | ok slots =>
    rw [hslots] at hread
    have hcomplete : fields.complete slots = .ok b := hread
    show (fields.complete slots).map make = .ok (make b)
    rw [hcomplete]
    rfl

end ClusterScaling.Json
