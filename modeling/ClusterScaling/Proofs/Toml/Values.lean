import ClusterScaling.Proofs.Toml.Tables

/-!
# Values of tables

The value of a table says what the table says, except that the ways in which its tables came about
no longer matter (`Node.outline_toValue`).
-/

namespace ClusterScaling.Toml

variable {k : String} {q : List String}

theorem entryValues_eq_map (entries : List (String × Node)) :
    entryValues entries = entries.map fun e => (e.1, e.2.toValue) := by
  induction entries with
  | nil => rfl
  | cons e entries ih =>
    obtain ⟨k, n⟩ := e
    rw [entryValues, ih]
    rfl

theorem map_fst_entryValues (entries : List (String × Node)) :
    (entryValues entries).map Prod.fst = entries.map Prod.fst := by
  rw [entryValues_eq_map, List.map_map]
  rfl

/-! ## Keys -/

theorem Value.tidyEntries_iff {entries : List (String × Value)} :
    Value.TidyEntries entries ↔ ∀ e ∈ entries, e.2.Tidy := by
  induction entries with
  | nil => simp [Value.TidyEntries]
  | cons e entries ih =>
    obtain ⟨k, v⟩ := e
    simp [Value.TidyEntries, ih]

mutual

theorem Node.toValue_tidy : (n : Node) → n.Tidy → n.toValue.Tidy
  | .value _, h => h
  | .table (.mk _ _ entries), h => by
    refine ⟨?_, entryValues_tidy entries h.2⟩
    rw [map_fst_entryValues]
    exact h.1
  | .tables _, _ => trivial

theorem entryValues_tidy : (entries : List (String × Node)) → TidyEntries entries →
    Value.TidyEntries (entryValues entries)
  | [], _ => trivial
  | (_, n) :: entries, h => ⟨n.toValue_tidy h.1, entryValues_tidy entries h.2⟩

end

theorem Table.value_tidy {t : Table} (h : t.Tidy) : (Value.table (entryValues t.entries)).Tidy := by
  obtain ⟨implicit, dotted, entries⟩ := t
  exact Node.toValue_tidy (.table (.mk implicit dotted entries)) h

/-! ## Outlines -/

theorem Value.outline_table_cons (entries : List (String × Value)) (k : String) (q : List String) :
    (Value.table entries).outline (k :: q) = (entries.lookup k).bind fun v => v.outline q := by
  induction entries with
  | nil => rfl
  | cons e entries ih =>
    obtain ⟨j, v⟩ := e
    change (if j = k then v.outline else Value.entriesOutline entries k) q = _
    rw [List.lookup_cons]
    by_cases hj : j = k
    · subst hj
      simp
    · have hk : (k == j) = false := by simpa using Ne.symm hj
      rw [if_neg hj, hk]
      exact ih

mutual

/-- All tables in a value are inline. -/
theorem Value.sealed_outline : (v : Value) → (q : List String) →
    (v.outline q).map Role.sealed = v.outline q
  | .table _, [] => rfl
  | .table entries, k :: q => Value.sealed_entriesOutline entries k q
  | .string _, q | .integer _, q | .float _, q | .boolean _, q | .moment, q | .array _, q => by
    cases q <;> rfl

theorem Value.sealed_entriesOutline : (entries : List (String × Value)) → (k : String) →
    (q : List String) →
    (Value.entriesOutline entries k q).map Role.sealed = Value.entriesOutline entries k q
  | [], _, _ => rfl
  | (j, v) :: entries, k, q => by
    rw [Value.entriesOutline]
    split
    · exact v.sealed_outline q
    · exact Value.sealed_entriesOutline entries k q

end

mutual

/-- Where no array of tables is on the way, the value of an entry says what the entry says. -/
theorem Node.outline_toValue : (n : Node) → (q : List String) →
    (∀ p, p <+: q → n.outline p ≠ some .elements) →
    n.toValue.outline q = (n.outline q).map Role.sealed
  | .value v, q, _ => (v.sealed_outline q).symm
  | .table (.mk implicit dotted _), [], _ => by cases implicit <;> cases dotted <;> rfl
  | .table (.mk _ _ entries), k :: q, h =>
    outline_entryValues entries k q fun p hp => h (k :: p) ((List.prefix_cons_inj k).2 hp)
  | .tables ts, _, h => absurd (Table.outline_tables_nil ts) (h [] List.nil_prefix)

theorem outline_entryValues : (entries : List (String × Node)) → (k : String) →
    (q : List String) → (∀ p, p <+: q → entriesOutline entries k p ≠ some .elements) →
    Value.entriesOutline (entryValues entries) k q = (entriesOutline entries k q).map Role.sealed
  | [], _, _, _ => rfl
  | (j, n) :: entries, k, q, h => by
    rw [entryValues, Value.entriesOutline, entriesOutline]
    rw [entriesOutline] at h
    split at h
    · rw [if_pos ‹_›, if_pos ‹_›]
      exact n.outline_toValue q h
    · rw [if_neg ‹_›, if_neg ‹_›]
      exact outline_entryValues entries k q h

end

theorem Table.outline_value {t : Table} (h : ∀ p, p <+: q → t.outline (k :: p) ≠ some .elements) :
    (Value.table (entryValues t.entries)).outline (k :: q) =
      (t.outline (k :: q)).map Role.sealed := by
  obtain ⟨implicit, dotted, entries⟩ := t
  exact outline_entryValues entries k q h

theorem Value.eq_of_outline {v x : Value} (h : v.outline [] = some (.value x)) : v = x := by
  cases v <;> cases h <;> rfl

theorem Value.exists_of_inline {v : Value} (h : v.outline [] = some .inline) :
    ∃ entries, v = .table entries := by
  cases v <;> cases h
  exact ⟨_, rfl⟩

end ClusterScaling.Toml
