import ClusterScaling.Proofs.Toml.Tables

/-!
# Places of documents

A document is read into a state: the root table, and the table of the last header, which is put in
its place later. `State.Lays` relates a state to the layout of the lines read so far. Headers and
values do to the state what they do to the layout, as long as they fit it.
-/

namespace ClusterScaling.Toml

open Outline (Passable graft setBelow)

variable {path : List String} {k : String} {l : Layout}

/-- What an array of tables says whose last table says `o`. -/
def elementOf (o : Outline) : Outline
  | [] => some .elements
  | k :: q => o (k :: q)

/-- The current table at its place in the root table completes the layout. -/
inductive Place.Lays : Place → Outline → Outline → Layout → Prop
  | root {root current : Outline} : Place.Lays .root root current ⟨current, []⟩
  | table {path : List String} {key : String} {root current : Outline} :
      Passable Role.takesHeaders path root → root (path ++ [key]) = none →
      Place.Lays (.table path key) root current
        ⟨graft .named current (path ++ [key]) root, path ++ [key]⟩
  | lastTable {path : List String} {key : String} {root current : Outline} :
      Passable Role.takesHeaders path root →
      (root (path ++ [key]) = none ∨ root (path ++ [key]) = some .elements) →
      Place.Lays (.lastTable path key) root current
        ⟨graft .named (elementOf current) (path ++ [key]) root, path ++ [key]⟩

/-- The state says what the layout says. -/
structure State.Lays (s : State) (l : Layout) : Prop where
  root : s.root.Tidy
  current : s.current.Tidy
  role : s.current.outline [] = some .headed
  place : s.place.Lays s.root.outline s.current.outline l

theorem State.start_lays : State.start.Lays Layout.start where
  root := Table.empty_tidy
  current := Table.empty_tidy
  role := rfl
  place := by
    have h : Place.Lays .root Table.empty.outline Table.empty.outline
      ⟨Table.empty.outline, []⟩ := .root
    rwa [Table.outline_empty] at h

/-! ## Changes of headers -/

namespace Table

variable {t : Table}

theorem find?_of_elements (h : t.outline [k] = some .elements) :
    ∃ ts, t.find? k = some (.tables ts) := by
  rw [outline_cons] at h
  cases hfind : t.find? k with
  | none => simp [hfind] at h
  | some n =>
    rw [hfind, Option.bind_some] at h
    match n with
    | .value v => cases v <;> cases h
    | .table u => exact absurd h (outline_nil_ne_elements u)
    | .tables ts => exact ⟨ts, rfl⟩

theorem find?_of_named (h : t.outline [k] = some .named) :
    ∃ entries, t.find? k = some (.table (.mk true false entries)) := by
  rw [outline_cons] at h
  cases hfind : t.find? k with
  | none => simp [hfind] at h
  | some n =>
    rw [hfind, Option.bind_some] at h
    match n with
    | .value v => cases v <;> cases h
    | .tables ts =>
      rw [outline_tables_nil] at h
      cases h
    | .table (.mk implicit dotted entries) =>
      cases implicit <;> cases dotted <;> cases h
      exact ⟨entries, rfl⟩

/-- Puts a table before the others of an array, or begins the array. -/
def addLast (key : String) (u t : Table) : Option (Table × Unit) :=
  match t.find? key with
  | none => some (t.append key (.tables [u]), ())
  | some (.tables ts) => some (t.replace key (.tables (u :: ts)), ())
  | some _ => none

theorem outline_tables_last (u : Table) (ts : List Table) :
    (Node.tables (u :: ts)).outline = elementOf u.outline := by
  funext q
  cases q with
  | nil => exact outline_tables_nil _
  | cons j q => exact outline_tables_cons j q

/-- An array of tables says what its last one says. -/
theorem addLast_outline {u : Table} (ht : t.Tidy) (hu : u.Tidy)
    (hrole : t.outline [k] = none ∨ t.outline [k] = some .elements) :
    ∃ t', addLast k u t = some (t', ()) ∧ t'.Tidy ∧ t'.outline [] = t.outline [] ∧
      ∀ j q, t'.outline (j :: q) =
        if j = k then elementOf u.outline q else t.outline (j :: q) := by
  rcases hrole with hnone | helements
  · have hfind := find?_eq_none_iff.2 hnone
    refine ⟨t.append k (.tables [u]), by rw [addLast, hfind],
      append_tidy ht hfind (tidy_tables_cons.2 ⟨hu, trivial⟩), append_outline_nil, fun j q => ?_⟩
    rw [append_outline_cons hfind, outline_tables_last]
  · obtain ⟨ts, hfind⟩ := find?_of_elements helements
    have hts := tidy_of_find? ht hfind
    refine ⟨t.replace k (.tables (u :: ts)), by rw [addLast, hfind],
      replace_tidy ht (tidy_tables_cons.2 ⟨hu, hts.2⟩), replace_outline_nil, fun j q => ?_⟩
    rw [replace_outline_cons (by simp [hfind]), outline_tables_last]

/-- Takes the table of a header out, which was at most named. -/
def takeOut (key : String) (t : Table) : Option (Table × Table) :=
  match t.find? key with
  | none => some (t, .empty)
  | some (.table u) =>
    if u.isImplicit && !u.isDotted then some (t.erase key, .mk false false u.entries) else none
  | some _ => none

/-- The table of a header holds what was named in it. -/
theorem takeOut_outline (ht : t.Tidy)
    (hrole : t.outline [k] = none ∨ t.outline [k] = some .named) :
    ∃ t' u, takeOut k t = some (t', u) ∧ t'.Tidy ∧ u.Tidy ∧ t'.outline [] = t.outline [] ∧
      t'.outline [k] = none ∧ (∀ j q, j ≠ k → t'.outline (j :: q) = t.outline (j :: q)) ∧
      u.outline [] = some .headed ∧ ∀ j q, u.outline (j :: q) = t.outline (k :: j :: q) := by
  rcases hrole with hnone | hnamed
  · have hfind := find?_eq_none_iff.2 hnone
    refine ⟨t, .empty, by rw [takeOut, hfind], ht, empty_tidy, rfl, hnone, fun _ _ _ => rfl, rfl,
      fun j q => ?_⟩
    exact (outline_eq_none hnone (j :: q)).symm
  · obtain ⟨entries, hfind⟩ := find?_of_named hnamed
    have hentries := tidy_of_find? ht hfind
    refine ⟨t.erase k, .mk false false entries, by rw [takeOut, hfind]; rfl, erase_tidy ht,
      hentries, erase_outline_nil, ?_, fun j q hj => ?_, rfl, fun j q => ?_⟩
    · rw [erase_outline_cons, if_pos rfl]
    · rw [erase_outline_cons, if_neg hj]
    · rw [outline_cons t, hfind]
      rfl

/-- Leaves the table as it is, if it takes one more table of an array. -/
def checkLast (key : String) (t : Table) : Option (Table × Unit) :=
  match t.find? key with
  | none | some (.tables _) => some (t, ())
  | some _ => none

theorem checkLast_eq (hrole : t.outline [k] = none ∨ t.outline [k] = some .elements) :
    checkLast k t = some (t, ()) := by
  rcases hrole with hnone | helements
  · rw [checkLast, find?_eq_none_iff.2 hnone]
  · obtain ⟨ts, hfind⟩ := find?_of_elements helements
    rw [checkLast, hfind]

end Table

/-! ## Closing the current table -/

namespace State

variable {s : State}

theorem close_of_table {key : String} (h : s.place = .table path key) :
    s.close = (s.root.updateAt false
      (fun parent => some (parent.append key (.table s.current), ())) path).map Prod.fst := by
  rw [close, h]

theorem close_of_lastTable {key : String} (h : s.place = .lastTable path key) :
    s.close = (s.root.updateAt false (Table.addLast key s.current) path).map Prod.fst := by
  rw [close, h]
  rfl

/-- The table that the current one completes says what the layout says. -/
theorem close_lays (hs : s.Lays l) : ∃ r, s.close = some r ∧ r.Tidy ∧ r.outline = l.outline := by
  have hlays := hs.place
  generalize hplace : s.place = place at hlays
  cases hlays with
  | root => exact ⟨s.current, by rw [close, hplace], hs.current, rfl⟩
  | @table path key _ _ hpass hnone =>
    obtain ⟨p, hp⟩ := Table.updateAt_outline false path s.root hs.root hpass
    have hfind : p.find? key = none := by
      rw [Table.find?_eq_none_iff, hp.entries]
      exact hnone
    obtain ⟨r, hr, htidy, houtline⟩ := hp.change
      (fun parent => some (parent.append key (.table s.current), ())) _ () rfl
      (Table.append_tidy hp.tidy hfind hs.current) Table.append_outline_nil
    refine ⟨r, by rw [close_of_table hplace, hr]; rfl, htidy, ?_⟩
    rw [houtline, Outline.graft_concat]
    refine Outline.setBelow_inner fun j q => ?_
    rw [Table.append_outline_cons hfind, hp.entries]
    rfl
  | @lastTable path key _ _ hpass hrole =>
    obtain ⟨p, hp⟩ := Table.updateAt_outline false path s.root hs.root hpass
    rw [← hp.entries] at hrole
    obtain ⟨p', hp', htidy', hnil, hcons⟩ := Table.addLast_outline hp.tidy hs.current hrole
    obtain ⟨r, hr, htidy, houtline⟩ := hp.change _ p' () hp' htidy' hnil
    refine ⟨r, by rw [close_of_lastTable hplace, hr]; rfl, htidy, ?_⟩
    rw [houtline, Outline.graft_concat]
    refine Outline.setBelow_inner fun j q => ?_
    rw [hcons, hp.entries]

/-! ## Headers -/

theorem openTable_eq (s : State) (path : List String) (k : String) :
    s.openTable (path ++ [k]) = s.close.bind fun r =>
      (r.updateAt false (Table.takeOut k) path).map fun p => ⟨p.1, p.2, .table path k⟩ := by
  unfold openTable
  rw [Table.splitKey_append]
  cases s.close with
  | none => rfl
  | some r =>
    show (r.updateAt false (Table.takeOut k) path).bind _ =
      (r.updateAt false (Table.takeOut k) path).map _
    cases r.updateAt false (Table.takeOut k) path <;> rfl

theorem openLastTable_eq (s : State) (path : List String) (k : String) :
    s.openLastTable (path ++ [k]) = s.close.bind fun r =>
      (r.updateAt false (Table.checkLast k) path).map fun p => ⟨p.1, .empty, .lastTable path k⟩ := by
  unfold openLastTable
  rw [Table.splitKey_append]
  cases s.close with
  | none => rfl
  | some r =>
    show (r.updateAt false (Table.checkLast k) path).bind _ =
      (r.updateAt false (Table.checkLast k) path).map _
    cases r.updateAt false (Table.checkLast k) path <;> rfl

/-- The header of a table begins the table that the layout gets. -/
theorem openTable_lays (hs : s.Lays l) (hfits : (Line.table (path ++ [k])).Fits l) :
    ∃ s', s.openTable (path ++ [k]) = some s' ∧ s'.Lays ((Line.table (path ++ [k])).lay l) := by
  obtain ⟨hpass, hrole⟩ := hfits
  rw [List.dropLast_concat] at hpass
  obtain ⟨r, hclose, hr, houtline⟩ := close_lays hs
  rw [← houtline] at hpass hrole
  obtain ⟨p, hp⟩ := Table.updateAt_outline false path r hr hpass
  rw [← hp.entries] at hrole
  obtain ⟨p', u, hpu, hp', hu, hnil, hnone, hothers, hself, hinside⟩ :=
    Table.takeOut_outline hp.tidy hrole
  obtain ⟨r', hr', htidy, hroot⟩ := hp.change _ p' u hpu hp' hnil
  refine ⟨⟨r', u, .table path k⟩, by rw [openTable_eq, hclose, Option.bind_some, hr']; rfl,
    htidy, hu, hself, ?_⟩
  have hpass' : Passable Role.takesHeaders path r'.outline := by
    rw [hroot]
    exact Outline.passable_setBelow rfl hpass
  have hnone' : r'.outline (path ++ [k]) = none := by
    rw [hroot, Outline.setBelow_append_apply, hnone]
  have hgraft : graft .named u.outline (path ++ [k]) r'.outline =
      graft .named u.outline (path ++ [k]) l.outline := by
    rw [hroot, ← houtline]
    refine Outline.graft_setBelow fun j q hj => ?_
    rw [hothers j q hj, hp.entries]
  have hcurrent : u.outline =
      fun | [] => some .headed | j :: q => l.outline ((path ++ [k]) ++ j :: q) := by
    rw [← houtline]
    funext q
    cases q with
    | nil => exact hself
    | cons j q => simp [hinside, hp.entries]
  have hlays : Place.Lays (.table path k) r'.outline u.outline _ := .table hpass' hnone'
  rw [hgraft] at hlays
  rw [hcurrent] at hlays ⊢
  exact hlays

/-- The header of an element begins one more table of its array. -/
theorem openLastTable_lays (hs : s.Lays l) (hfits : (Line.element (path ++ [k])).Fits l) :
    ∃ s', s.openLastTable (path ++ [k]) = some s' ∧
      s'.Lays ((Line.element (path ++ [k])).lay l) := by
  obtain ⟨hpass, hrole⟩ := hfits
  rw [List.dropLast_concat] at hpass
  obtain ⟨r, hclose, hr, houtline⟩ := close_lays hs
  rw [← houtline] at hpass hrole
  obtain ⟨p, hp⟩ := Table.updateAt_outline false path r hr hpass
  rw [← hp.entries] at hrole
  obtain ⟨r', hr', htidy, hroot⟩ := hp.change _ p () (Table.checkLast_eq hrole) hp.tidy rfl
  refine ⟨⟨r', .empty, .lastTable path k⟩,
    by rw [openLastTable_eq, hclose, Option.bind_some, hr']; rfl, htidy, Table.empty_tidy, rfl, ?_⟩
  have hpass' : Passable Role.takesHeaders path r'.outline := by
    rw [hroot]
    exact Outline.passable_setBelow rfl hpass
  have hrole' : r'.outline (path ++ [k]) = none ∨ r'.outline (path ++ [k]) = some .elements := by
    rw [hroot, Outline.setBelow_append_apply]
    exact hrole
  have hgraft : graft .named (elementOf Table.empty.outline) (path ++ [k]) r'.outline =
      graft .named (elementOf Table.empty.outline) (path ++ [k]) l.outline := by
    rw [hroot, ← houtline]
    exact Outline.graft_setBelow fun j q _ => hp.entries j q
  have hnew : elementOf Table.empty.outline = Outline.single .elements := by
    funext q
    cases q <;> rfl
  have hlays : Place.Lays (.lastTable path k) r'.outline Table.empty.outline _ :=
    .lastTable hpass' hrole'
  rw [hgraft, hnew] at hlays
  exact hlays

/-! ## Values -/

variable {key : List String}

/-- What the layout says below its place is what the current table says. -/
theorem after_place (hs : s.Lays l) (j : String) (q : List String) :
    l.outline.after l.place (j :: q) = s.current.outline (j :: q) := by
  have hlays := hs.place
  generalize s.place = place at hlays
  cases hlays with
  | root => rfl
  | table | lastTable => exact Outline.graft_append_apply _ _ _

theorem after_place_nil (hs : s.Lays l) : l.outline.after l.place [] ≠ some .named := by
  intro hnamed
  have hlays := hs.place
  generalize s.place = place at hlays
  cases hlays with
  | root => cases hs.role.symm.trans hnamed
  | table =>
    have hself := (Outline.graft_append_apply _ [] _).symm.trans hnamed
    cases hs.role.symm.trans hself
  | lastTable => cases (Outline.graft_append_apply _ [] _).symm.trans hnamed

theorem admits_current (hs : s.Lays l) (hkey : key ≠ [])
    (hadmits : Outline.Admits (l.outline.after l.place) key) :
    Outline.Admits s.current.outline key := by
  obtain ⟨hpass, hnone⟩ := hadmits
  obtain ⟨j, q, rfl⟩ := List.exists_cons_of_ne_nil hkey
  exact ⟨(Outline.passable_congr (after_place hs)).1 hpass, (after_place hs j q).symm.trans hnone⟩

/-- A value that fits the layout is put into the current table. -/
theorem insert_lays {item : Item} {v : Value} (hs : s.Lays l) (hkey : key ≠ [])
    (hadmits : Outline.Admits (l.outline.after l.place) key)
    (hplace : l.outline.after l.place key.dropLast ≠ some .named) (hv : v.Tidy)
    (houtline : v.outline = item.outline) :
    ∃ s', s.insert key v = some s' ∧ s'.Lays ((Line.pair key item).lay l) := by
  have hcontainer : s.current.outline key.dropLast ≠ some .named := by
    cases hdrop : key.dropLast with
    | nil =>
      rw [hs.role]
      nofun
    | cons j q => rwa [hdrop, after_place hs] at hplace
  obtain ⟨t, ht, htidy, hgraft⟩ := Table.insertKey_outline hs.current hs.role hkey
    (admits_current hs hkey hadmits) hcontainer hv
  rw [houtline] at hgraft
  obtain ⟨j, key, rfl⟩ := List.exists_cons_of_ne_nil hkey
  have hrole : t.outline [] = some .headed := by
    rw [hgraft, Outline.graft_cons_nil, hs.role]
    rfl
  refine ⟨{ s with current := t }, by rw [insert, ht]; rfl, hs.root, htidy, hrole, ?_⟩
  have hlays := hs.place
  show s.place.Lays s.root.outline t.outline _
  generalize s.place = place at hlays
  cases hlays with
  | root =>
    rw [hgraft]
    exact .root
  | table hpass hnone =>
    have hnew : Place.Lays _ s.root.outline t.outline _ := .table hpass hnone
    rw [Line.lay, Outline.graft_graft_append, ← hgraft]
    exact hnew
  | lastTable hpass hthere =>
    have hnew : Place.Lays _ s.root.outline t.outline _ := .lastTable hpass hthere
    have helement : graft .dotted item.outline (j :: key) (elementOf s.current.outline) =
        elementOf t.outline := by
      rw [hgraft]
      funext q
      cases q <;> rfl
    rw [Line.lay, Outline.graft_graft_append, helement]
    exact hnew

/-- No value is put into a table that a header only names. -/
theorem insert_named {v : Value} (hs : s.Lays l) (hkey : key ≠ [])
    (hadmits : Outline.Admits (l.outline.after l.place) key)
    (hnamed : l.outline.after l.place key.dropLast = some .named) : s.insert key v = none := by
  obtain ⟨hpass, -⟩ := admits_current hs hkey hadmits
  have hpath : key.dropLast ≠ [] := fun h => after_place_nil hs (by rwa [h] at hnamed)
  have hcurrent : s.current.outline key.dropLast = some .named := by
    obtain ⟨j, q, hdrop⟩ := List.exists_cons_of_ne_nil hpath
    rwa [hdrop, after_place hs, ← hdrop] at hnamed
  have hrefused := Table.insertKey_named (k := key.getLast hkey) (v := v) hs.current hpass hpath
    hcurrent
  rw [List.dropLast_concat_getLast hkey] at hrefused
  rw [insert, hrefused]
  rfl

end State

end ClusterScaling.Toml
