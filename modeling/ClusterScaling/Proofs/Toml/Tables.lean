import ClusterScaling.Proofs.Toml.Outline
import ClusterScaling.Toml.Document

/-!
# Outlines of tables

The tables that a reader builds up have outlines of their own, and each operation on tables does to
the outline what it should: `Table.updateAt` changes what stands below a path and makes the tables on
the way (`Table.updateAt_outline`), and `Table.insertKey` grafts a value (`Table.insertKey_outline`).
All of them keep the keys of each table distinct (`Table.Tidy`).
-/

namespace ClusterScaling.Toml

variable {path : List String} {k : String}

/-! ## Outlines of tables -/

mutual

/-- What a value says. -/
def Value.outline : Value → Outline
  | .table entries => fun
    | [] => some .inline
    | k :: q => Value.entriesOutline entries k q
  | v => .single (.value v)

def Value.entriesOutline : List (String × Value) → String → Outline
  | [], _ => fun _ => none
  | (j, v) :: rest, k => if j = k then v.outline else Value.entriesOutline rest k

end

/-- The role of a table that came about in a way. -/
def tableRole : Bool → Bool → Role
  | true, true => .dotted
  | true, false => .named
  | false, false => .headed
  | false, true => .inline

mutual

/-- What an entry of a table under construction says. -/
def Node.outline : Node → Outline
  | .value v => v.outline
  | .table (.mk implicit dotted entries) => fun
    | [] => some (tableRole implicit dotted)
    | k :: q => entriesOutline entries k q
  | .tables [] => .single .elements
  | .tables (.mk _ _ entries :: _) => fun
    | [] => some .elements
    | k :: q => entriesOutline entries k q

def entriesOutline : List (String × Node) → String → Outline
  | [], _ => fun _ => none
  | (j, n) :: rest, k => if j = k then n.outline else entriesOutline rest k

end

mutual

/-- The keys of each table in the value are distinct. -/
def Value.Tidy : Value → Prop
  | .table entries => (entries.map Prod.fst).Nodup ∧ Value.TidyEntries entries
  | _ => True

def Value.TidyEntries : List (String × Value) → Prop
  | [] => True
  | (_, v) :: rest => v.Tidy ∧ Value.TidyEntries rest

end

mutual

/-- The keys of each table in the entry are distinct, and no array of tables is empty. -/
def Node.Tidy : Node → Prop
  | .value v => v.Tidy
  | .table (.mk _ _ entries) => (entries.map Prod.fst).Nodup ∧ TidyEntries entries
  | .tables ts => ts ≠ [] ∧ TidyTables ts

def TidyEntries : List (String × Node) → Prop
  | [] => True
  | (_, n) :: rest => n.Tidy ∧ TidyEntries rest

def TidyTables : List Table → Prop
  | [] => True
  | .mk _ _ entries :: rest =>
    ((entries.map Prod.fst).Nodup ∧ TidyEntries entries) ∧ TidyTables rest

end

namespace Table

/-- What a table says. -/
def outline (t : Table) : Outline := (Node.table t).outline

/-- The keys of the table and of each table in it are distinct. -/
def Tidy (t : Table) : Prop := (Node.table t).Tidy

variable {t t' s : Table} {n : Node} {j : String}

theorem tidy_iff : t.Tidy ↔ (t.entries.map Prod.fst).Nodup ∧ TidyEntries t.entries := by
  obtain ⟨implicit, dotted, entries⟩ := t
  rfl

theorem tidyEntries_iff {entries : List (String × Node)} :
    TidyEntries entries ↔ ∀ e ∈ entries, e.2.Tidy := by
  induction entries with
  | nil => simp [TidyEntries]
  | cons e entries ih =>
    obtain ⟨k, n⟩ := e
    simp [TidyEntries, ih]

theorem entriesOutline_eq (entries : List (String × Node)) (k : String) (q : List String) :
    entriesOutline entries k q = (entries.lookup k).bind fun n => n.outline q := by
  induction entries with
  | nil => rfl
  | cons e entries ih =>
    obtain ⟨j, n⟩ := e
    by_cases hj : j = k
    · subst hj
      simp [entriesOutline]
    · have hk : (k == j) = false := by simpa using Ne.symm hj
      simp [entriesOutline, List.lookup_cons, hj, hk, ih]

theorem outline_nil (t : Table) : t.outline [] = some (tableRole t.isImplicit t.isDotted) := by
  obtain ⟨implicit, dotted, entries⟩ := t
  rfl

/-- What stands below a table stands in one of its entries. -/
theorem outline_cons (t : Table) (k : String) (q : List String) :
    t.outline (k :: q) = (t.find? k).bind fun n => n.outline q := by
  obtain ⟨implicit, dotted, entries⟩ := t
  exact entriesOutline_eq entries k q

end Table

theorem Value.outline_nil_ne (v : Value) : v.outline [] ≠ none := by
  cases v <;> simp [Value.outline, Outline.single]

theorem Node.outline_nil_ne (n : Node) : n.outline [] ≠ none := by
  match n with
  | .value v => exact v.outline_nil_ne
  | .table (.mk implicit dotted entries) => simp [Node.outline]
  | .tables [] => simp [Node.outline, Outline.single]
  | .tables (.mk _ _ entries :: _) => simp [Node.outline]

namespace Table

variable {t t' s : Table} {n : Node} {j : String}

theorem find?_eq_none_iff : t.find? k = none ↔ t.outline [k] = none := by
  rw [outline_cons]
  cases hn : t.find? k with
  | none => simp
  | some n => simpa using n.outline_nil_ne

theorem outline_eq_none (h : t.outline [k] = none) (q : List String) : t.outline (k :: q) = none := by
  rw [outline_cons, find?_eq_none_iff.2 h]
  rfl

theorem tidy_of_find? (ht : t.Tidy) (h : t.find? k = some n) : n.Tidy := by
  obtain ⟨l₁, l₂, hsplit, -⟩ := List.lookup_eq_some_iff.1 h
  exact tidyEntries_iff.1 (tidy_iff.1 ht).2 (k, n) (by simp [hsplit])

theorem outline_empty : empty.outline = Outline.single .headed := by
  funext q
  cases q <;> rfl

theorem empty_tidy : empty.Tidy := tidy_iff.2 ⟨List.nodup_nil, trivial⟩

@[simp] theorem entries_withEntries (entries : List (String × Node)) :
    (t.withEntries entries).entries = entries := rfl

/-! ### Entries -/

theorem outline_withEntries_nil (entries : List (String × Node)) :
    (t.withEntries entries).outline [] = t.outline [] := by
  rw [outline_nil, outline_nil]
  rfl

@[simp] theorem append_outline_nil : (t.append k n).outline [] = t.outline [] :=
  outline_withEntries_nil _

@[simp] theorem replace_outline_nil : (t.replace k n).outline [] = t.outline [] :=
  outline_withEntries_nil _

@[simp] theorem erase_outline_nil : (t.erase k).outline [] = t.outline [] :=
  outline_withEntries_nil _

theorem append_outline_cons (h : t.find? k = none) (j : String) (q : List String) :
    (t.append k n).outline (j :: q) = if j = k then n.outline q else t.outline (j :: q) := by
  rw [outline_cons, outline_cons, find?, append, entries_withEntries, List.lookup_append]
  by_cases hj : j = k
  · subst hj
    have hnone : t.entries.lookup j = none := h
    simp [hnone]
  · have hne : (j == k) = false := by simpa using hj
    simp [List.lookup_cons, hj, hne, find?]

theorem lookup_map_replace (entries : List (String × Node)) (j : String) :
    (entries.map fun e => if e.1 = k then (k, n) else e).lookup j =
      if j = k then (entries.lookup k).map fun _ => n else entries.lookup j := by
  induction entries with
  | nil => simp
  | cons e entries ih =>
    obtain ⟨i, m⟩ := e
    rw [List.map_cons, List.lookup_cons]
    by_cases hi : i = k
    · subst hi
      by_cases hj : j = i
      · subst hj
        simp
      · have hne : (j == i) = false := by simpa using hj
        simp [ih, hj, hne, List.lookup_cons]
    · by_cases hj : j = k
      · subst hj
        have hne : (j == i) = false := by simpa using Ne.symm hi
        simp [ih, hi, hne, List.lookup_cons]
      · simp [ih, hi, hj, List.lookup_cons]

theorem replace_outline_cons (h : (t.find? k).isSome) (j : String) (q : List String) :
    (t.replace k n).outline (j :: q) = if j = k then n.outline q else t.outline (j :: q) := by
  rw [outline_cons, outline_cons, find?, replace, entries_withEntries, lookup_map_replace]
  by_cases hj : j = k
  · subst hj
    obtain ⟨m, hm⟩ := Option.isSome_iff_exists.1 h
    have hfind : t.entries.lookup j = some m := hm
    simp [hfind]
  · simp [hj, find?]

theorem erase_outline_cons (j : String) (q : List String) :
    (t.erase k).outline (j :: q) = if j = k then none else t.outline (j :: q) := by
  have hlookup : ∀ entries : List (String × Node),
      (entries.filter fun e => e.1 ≠ k).lookup j = if j = k then none else entries.lookup j := by
    intro entries
    induction entries with
    | nil => simp
    | cons e entries ih =>
      obtain ⟨i, m⟩ := e
      by_cases hi : i = k
      · subst hi
        rw [List.filter_cons_of_neg (by simp), ih]
        by_cases hj : j = i
        · simp [hj]
        · have hne : (j == i) = false := by simpa using hj
          simp [hj, hne, List.lookup_cons]
      · rw [List.filter_cons_of_pos (by simpa using hi), List.lookup_cons, List.lookup_cons, ih]
        by_cases hj : j = k
        · subst hj
          have hne : (j == i) = false := by simpa using Ne.symm hi
          simp [hne]
        · simp [hj]
  rw [outline_cons, outline_cons, find?, erase, entries_withEntries, hlookup]
  by_cases hj : j = k
  · simp [hj]
  · simp [hj, find?]

theorem append_tidy (ht : t.Tidy) (h : t.find? k = none) (hn : n.Tidy) : (t.append k n).Tidy := by
  obtain ⟨hnodup, hentries⟩ := tidy_iff.1 ht
  have hk : k ∉ t.entries.map Prod.fst := fun hmem => by
    obtain ⟨e, he, rfl⟩ := List.mem_map.1 hmem
    simpa using List.lookup_eq_none_iff.1 h e he
  refine tidy_iff.2 ⟨?_, tidyEntries_iff.2 ?_⟩
  · simpa [append, List.nodup_append, hnodup] using fun a b hab => fun hak => hk (by
      subst hak
      exact List.mem_map.2 ⟨_, hab, rfl⟩)
  · intro e he
    rcases List.mem_append.1 he with he | he
    · exact tidyEntries_iff.1 hentries e he
    · obtain rfl := List.mem_singleton.1 he
      exact hn

theorem replace_tidy (ht : t.Tidy) (hn : n.Tidy) : (t.replace k n).Tidy := by
  obtain ⟨hnodup, hentries⟩ := tidy_iff.1 ht
  refine tidy_iff.2 ⟨?_, tidyEntries_iff.2 ?_⟩
  · have hkeys : (t.replace k n).entries.map Prod.fst = t.entries.map Prod.fst := by
      rw [replace, entries_withEntries, List.map_map]
      refine List.map_congr_left fun e _ => ?_
      show (if e.1 = k then (k, n) else e).1 = e.1
      split
      · exact Eq.symm ‹_›
      · rfl
    rwa [hkeys]
  · intro e he
    obtain ⟨e', he', rfl⟩ := List.mem_map.1 he
    split
    · exact hn
    · exact tidyEntries_iff.1 hentries e' he'

theorem erase_tidy (ht : t.Tidy) : (t.erase k).Tidy := by
  obtain ⟨hnodup, hentries⟩ := tidy_iff.1 ht
  refine tidy_iff.2 ⟨?_, tidyEntries_iff.2 fun e he => ?_⟩
  · exact hnodup.sublist (List.filter_sublist.map _)
  · exact tidyEntries_iff.1 hentries e (List.mem_filter.1 he).1

/-! ### Changes at a path -/

/-- What a path may lead through. -/
def passes (dotted : Bool) : Role → Bool :=
  if dotted then Role.takesDotted else Role.takesHeaders

theorem outline_table (t : Table) : (Node.table t).outline = t.outline := rfl

theorem outline_tables_cons {last : Table} {before : List Table} (j : String) (q : List String) :
    (Node.tables (last :: before)).outline (j :: q) = last.outline (j :: q) := by
  obtain ⟨implicit, dotted, entries⟩ := last
  rfl

theorem outline_tables_nil (ts : List Table) : (Node.tables ts).outline [] = some .elements := by
  match ts with
  | [] => rfl
  | .mk _ _ _ :: _ => rfl

theorem tidy_tables_cons {last : Table} {before : List Table} :
    (Node.tables (last :: before)).Tidy ↔ last.Tidy ∧ TidyTables before := by
  obtain ⟨implicit, dotted, entries⟩ := last
  simp only [Node.Tidy, TidyTables, ne_eq, reduceCtorEq, not_false_eq_true, true_and]
  rfl

theorem isImplicit_of_takesDotted
    (h : ∀ r ∈ t.outline [], Role.takesDotted r = true) : t.isImplicit = true := by
  obtain ⟨implicit, dotted, entries⟩ := t
  cases implicit with
  | true => rfl
  | false => cases dotted <;> cases h _ rfl

/-- A change at a path that begins with `k` is one in the table `u`, which `put` puts back. -/
structure Opens (dotted : Bool) (k : String) (t u : Table) (put : Table → Table) : Prop where
  step : ∀ {α : Type} (f : Table → Option (Table × α)) (ks : List String),
    updateAt dotted f (k :: ks) t = (updateAt dotted f ks u).map fun r => (put r.1, r.2)
  tidy : u.Tidy
  put_tidy : ∀ u' : Table, u'.Tidy → (put u').Tidy
  inside : ∀ j q, u.outline (j :: q) = t.outline (k :: j :: q)
  role : t.outline [k] ≠ some .elements →
    u.outline [] = (t.outline [k]).or (some (tableRole true dotted))
  put_nil : ∀ u' : Table, (put u').outline [] = t.outline []
  put_self : ∀ u' : Table, u'.outline [] = u.outline [] →
    (put u').outline [k] = (t.outline [k]).or (some (tableRole true dotted))
  put_inside : ∀ (u' : Table) j q, (put u').outline (k :: j :: q) = u'.outline (j :: q)
  put_outside : ∀ (u' : Table) j q, j ≠ k → (put u').outline (j :: q) = t.outline (j :: q)

/-- Where nothing is, a table is made. -/
theorem opens_none (dotted : Bool) (ht : t.Tidy) (hfind : t.find? k = none) :
    Opens dotted k t (mk true dotted []) fun u => t.append k (.table u) where
  step f ks := by rw [updateAt, hfind]
  tidy := tidy_iff.2 ⟨List.nodup_nil, trivial⟩
  put_tidy u' hu' := append_tidy ht hfind hu'
  inside j q := (outline_eq_none (find?_eq_none_iff.1 hfind) (j :: q)).symm
  role _ := by
    rw [find?_eq_none_iff.1 hfind]
    rfl
  put_nil _ := append_outline_nil
  put_self u' hu' := by
    rw [append_outline_cons hfind, if_pos rfl, outline_table, hu', find?_eq_none_iff.1 hfind]
    rfl
  put_inside u' j q := by rw [append_outline_cons hfind, if_pos rfl, outline_table]
  put_outside u' j q hj := by rw [append_outline_cons hfind, if_neg hj]

theorem opens_table {u : Table} {dotted : Bool} (ht : t.Tidy) (hfind : t.find? k = some (.table u))
    (hpass : dotted = true → u.isImplicit = true) :
    Opens dotted k t u fun u => t.replace k (.table u) where
  step f ks := by
    have himplicit : (dotted && !u.isImplicit) = false := by
      cases dotted with
      | false => rfl
      | true => simpa using hpass rfl
    rw [updateAt, hfind]
    simp only [himplicit, Bool.false_eq_true, if_false]
  tidy := tidy_of_find? ht hfind
  put_tidy u' hu' := replace_tidy ht hu'
  inside j q := by
    rw [outline_cons t, hfind]
    rfl
  role _ := by
    rw [outline_cons, hfind, Option.bind_some, outline_table, outline_nil]
    rfl
  put_nil _ := replace_outline_nil
  put_self u' hu' := by
    rw [replace_outline_cons (by simp [hfind]), if_pos rfl, outline_table, hu', outline_cons, hfind,
      Option.bind_some, outline_table, outline_nil]
    rfl
  put_inside u' j q := by rw [replace_outline_cons (by simp [hfind]), if_pos rfl, outline_table]
  put_outside u' j q hj := by rw [replace_outline_cons (by simp [hfind]), if_neg hj]

/-- In an array of tables the path goes through the last one. -/
theorem opens_tables {last : Table} {before : List Table} (dotted : Bool) (ht : t.Tidy)
    (hfind : t.find? k = some (.tables (last :: before))) :
    Opens dotted k t last fun u => t.replace k (.tables (u :: before)) where
  step f ks := by rw [updateAt, hfind]
  tidy := (tidy_tables_cons.1 (tidy_of_find? ht hfind)).1
  put_tidy u' hu' := replace_tidy ht
    (tidy_tables_cons.2 ⟨hu', (tidy_tables_cons.1 (tidy_of_find? ht hfind)).2⟩)
  inside j q := by rw [outline_cons t, hfind, Option.bind_some, outline_tables_cons]
  role h := by
    rw [outline_cons, hfind, Option.bind_some, outline_tables_nil] at h
    exact absurd rfl h
  put_nil _ := replace_outline_nil
  put_self u' _ := by
    rw [replace_outline_cons (by simp [hfind]), if_pos rfl, outline_tables_nil, outline_cons, hfind,
      Option.bind_some, outline_tables_nil]
    rfl
  put_inside u' j q := by
    rw [replace_outline_cons (by simp [hfind]), if_pos rfl, outline_tables_cons]
  put_outside u' j q hj := by rw [replace_outline_cons (by simp [hfind]), if_neg hj]

/-- What is passed can be opened. -/
theorem exists_opens (dotted : Bool) (ht : t.Tidy)
    (hpass : ∀ r ∈ t.outline [k], passes dotted r = true) : ∃ u put, Opens dotted k t u put := by
  cases hfind : t.find? k with
  | none => exact ⟨_, _, opens_none dotted ht hfind⟩
  | some n =>
    have hn := tidy_of_find? ht hfind
    rw [outline_cons, hfind, Option.bind_some] at hpass
    match n with
    | .value v =>
      -- neither a value nor an inline table is passed
      exfalso
      cases v <;> cases dotted <;> cases hpass _ rfl
    | .tables [] => exact absurd rfl hn.1
    | .tables (last :: before) => exact ⟨_, _, opens_tables dotted ht hfind⟩
    | .table u =>
      refine ⟨_, _, opens_table ht hfind fun hdotted => ?_⟩
      subst hdotted
      exact isImplicit_of_takesDotted hpass

/-- `s` is the table at a path, and whatever a change makes of it stands below the path then. -/
structure ChangesAt (dotted : Bool) (path : List String) (t s : Table) : Prop where
  tidy : s.Tidy
  entries : ∀ j q, s.outline (j :: q) = t.outline (path ++ j :: q)
  role : t.outline path ≠ some .elements →
    s.outline [] = (t.outline path).or (some (tableRole true dotted))
  change : ∀ {α : Type} (f : Table → Option (Table × α)) (s' : Table) (a : α), f s = some (s', a) →
    s'.Tidy → s'.outline [] = s.outline [] →
      ∃ t', updateAt dotted f path t = some (t', a) ∧ t'.Tidy ∧
        t'.outline = Outline.setBelow (tableRole true dotted) s'.outline path t.outline
  refuse : ∀ {α : Type} (f : Table → Option (Table × α)), f s = none →
    updateAt dotted f path t = none

theorem outline_nil_ne_elements (t : Table) : t.outline [] ≠ some .elements := by
  rw [outline_nil]
  cases t.isImplicit <;> cases t.isDotted <;> nofun

theorem ChangesAt.cons {dotted : Bool} {ks : List String} {u : Table} {put : Table → Table}
    (hopens : Opens dotted k t u put) (h : ChangesAt dotted ks u s) :
    ChangesAt dotted (k :: ks) t s where
  tidy := h.tidy
  entries j q := by
    rw [h.entries, List.cons_append]
    cases ks <;> exact hopens.inside _ _
  role hrole := by
    cases ks with
    | nil => rw [h.role (outline_nil_ne_elements u), ← hopens.role hrole, outline_nil]; rfl
    | cons j ks =>
      rw [← hopens.inside] at hrole ⊢
      exact h.role hrole
  change f s' a hf hs' hrole := by
    obtain ⟨u', hu', htidy, houtline⟩ := h.change f s' a hf hs' hrole
    have hself : u'.outline [] = u.outline [] := by
      rw [houtline, Outline.setBelow_self, outline_nil]
      rfl
    refine ⟨put u', ?_, hopens.put_tidy u' htidy, funext fun q => ?_⟩
    · rw [hopens.step, hu']
      rfl
    · match q with
      | [] =>
        rw [hopens.put_nil, Outline.setBelow_self, outline_nil]
        rfl
      | j :: q =>
        by_cases hj : j = k
        · subst hj
          rw [Outline.setBelow_cons_cons, if_pos rfl]
          cases q with
          | nil =>
            rw [hopens.put_self u' hself, Outline.setBelow_self]
            rfl
          | cons i q =>
            rw [hopens.put_inside, houtline]
            exact Outline.setBelow_congr hopens.inside i q
        · rw [hopens.put_outside u' j q hj, Outline.setBelow_cons_cons, if_neg hj]
  refuse f hf := by
    rw [hopens.step, h.refuse f hf]
    rfl

/-- **A change at a path** changes what stands below the path, if the path may be gone. -/
theorem updateAt_outline (dotted : Bool) (path : List String) (t : Table) (ht : t.Tidy)
    (hpass : Outline.Passable (passes dotted) path t.outline) : ∃ s, ChangesAt dotted path t s := by
  induction path generalizing t with
  | nil =>
    refine ⟨t, ht, fun _ _ => rfl, fun _ => by simp [outline_nil], fun f s' a hf hs' hrole => ?_,
      fun f hf => hf⟩
    refine ⟨s', hf, hs', funext fun q => ?_⟩
    cases q with
    | nil => simp [hrole, outline_nil]
    | cons j q => rfl
  | cons k ks ih =>
    obtain ⟨hk, hks⟩ := hpass
    obtain ⟨u, put, hopens⟩ := exists_opens dotted ht hk
    obtain ⟨s, hs⟩ := ih u hopens.tidy ((Outline.passable_congr hopens.inside).2 hks)
    exact ⟨s, hs.cons hopens⟩

/-! ### Values under keys -/

theorem splitKey_append (path : List String) (k : String) : splitKey (path ++ [k]) = (path, k) := by
  simp [splitKey]

theorem isDotted_of_role (h : t.outline [] = some .dotted) : t.isDotted = true := by
  rw [outline_nil] at h
  cases hi : t.isImplicit <;> cases hd : t.isDotted <;> simp_all [tableRole]

theorem isDotted_of_headed (h : t.outline [] = some .headed) : t.isDotted = false := by
  rw [outline_nil] at h
  cases hi : t.isImplicit <;> cases hd : t.isDotted <;> simp_all [tableRole]

theorem isDotted_of_named (h : t.outline [] = some .named) : t.isDotted = false := by
  rw [outline_nil] at h
  cases hi : t.isImplicit <;> cases hd : t.isDotted <;> simp_all [tableRole]

/-- Puts a value into the table at the end of a path. -/
def putValue (path : List String) (k : String) (v : Value) (s : Table) : Option (Table × Unit) :=
  if s.isDotted == path.isEmpty || (s.find? k).isSome then none
  else some (s.append k (.value v), ())

theorem insertKey_eq (t : Table) (path : List String) (k : String) (v : Value) :
    t.insertKey (path ++ [k]) v = (updateAt true (putValue path k v) path t).map Prod.fst := by
  rw [insertKey, splitKey_append]
  rfl

section
variable {path : List String} {v : Value}

/-- A table takes values itself, and so do those that its dotted keys lead to. -/
theorem ChangesAt.takes (hs : ChangesAt true path t s) (hself : t.outline [] = some .headed)
    (hpass : Outline.Passable Role.takesDotted path t.outline)
    (hplace : t.outline path ≠ some .named) : (s.isDotted == path.isEmpty) = false := by
  cases path with
  | nil =>
    have hrole := hs.role (by rw [hself]; nofun)
    rw [hself] at hrole
    rw [isDotted_of_headed hrole]
    rfl
  | cons j path =>
    have hpassed := Outline.passes_of_passable hpass (by simp)
    have hrole : s.outline [] = some .dotted := by
      cases ho : t.outline (j :: path) with
      | none =>
        rw [hs.role (by rw [ho]; nofun), ho]
        rfl
      | some r =>
        have htakes := hpassed r ho
        cases r with
        | value | inline | headed | elements => cases htakes
        | named => exact absurd ho hplace
        | dotted =>
          rw [hs.role (by rw [ho]; nofun), ho]
          rfl
    rw [isDotted_of_role hrole]
    rfl

/-- A value is put into a table that takes it. -/
theorem insertKey_outline {key : List String} (ht : t.Tidy) (hself : t.outline [] = some .headed)
    (hkey : key ≠ []) (hadmits : Outline.Admits t.outline key)
    (hplace : t.outline key.dropLast ≠ some .named) (hv : v.Tidy) :
    ∃ t', t.insertKey key v = some t' ∧ t'.Tidy ∧
      t'.outline = Outline.graft .dotted v.outline key t.outline := by
  obtain ⟨path, k, rfl⟩ : ∃ path k, key = path ++ [k] :=
    ⟨_, _, (List.dropLast_concat_getLast hkey).symm⟩
  obtain ⟨hpass, hnone⟩ := hadmits
  rw [List.dropLast_concat] at hpass hplace
  obtain ⟨s, hs⟩ := updateAt_outline true path t ht hpass
  have htakes := hs.takes hself hpass hplace
  have hfind : s.find? k = none := by
    rw [find?_eq_none_iff, hs.entries]
    exact hnone
  have hput : putValue path k v s = some (s.append k (.value v), ()) := by
    simp [putValue, htakes, hfind]
  obtain ⟨t', ht', htidy, houtline⟩ :=
    hs.change _ _ () hput (append_tidy hs.tidy hfind hv) append_outline_nil
  refine ⟨t', by rw [insertKey_eq, ht']; rfl, htidy, ?_⟩
  rw [houtline, Outline.graft_concat]
  refine Outline.setBelow_inner fun j q => ?_
  rw [append_outline_cons hfind, hs.entries]
  rfl

/-- A dotted key puts no value into a table that is only named. -/
theorem insertKey_named (ht : t.Tidy) (hpass : Outline.Passable Role.takesDotted path t.outline)
    (hpath : path ≠ []) (hnamed : t.outline path = some .named) :
    t.insertKey (path ++ [k]) v = none := by
  obtain ⟨s, hs⟩ := updateAt_outline true path t ht hpass
  have hrole : s.outline [] = some .named := by
    rw [hs.role (by rw [hnamed]; nofun), hnamed]
    rfl
  have hput : putValue path k v s = none := by
    have hempty : path.isEmpty = false := List.isEmpty_eq_false_iff.2 hpath
    simp [putValue, isDotted_of_named hrole, hempty]
  rw [insertKey_eq, hs.refuse _ hput]
  rfl

end

end Table

end ClusterScaling.Toml
