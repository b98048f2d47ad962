import ClusterScaling.Proofs.Toml.Texts
import ClusterScaling.Proofs.Toml.Values
import ClusterScaling.Proofs.Toml.Words

/-!
# Reading values

Whatever spells a value is read as a value with the outline that the document gives it, as long as
keys and inline tables keep to the limits of the reader (`Item.read`).
-/

namespace ClusterScaling.Toml

variable {cs rest w w' v v' ks : List Char} {key : List String} {depth : Nat} {item : Item}
  {es : Entries} {t : Table}

/-! ## Limits -/

mutual

/-- How many inline tables stand within one another. -/
def Item.nesting : Item → Nat
  | .table es => es.nesting + 1
  | _ => 0

def Entries.nesting : Entries → Nat
  | .nil => 0
  | .cons _ item rest => max item.nesting rest.nesting

end

mutual

/-- The number of parts of the longest key in the value. -/
def Item.longestKey : Item → Nat
  | .table es => es.longestKey
  | _ => 0

def Entries.longestKey : Entries → Nat
  | .nil => 0
  | .cons key item rest => max key.length (max item.longestKey rest.longestKey)

end

/-! ## Tables without headers -/

/-- No headers have been at work: there are no arrays of tables, and all tables are defined. -/
def Outline.Plain (o : Outline) : Prop := ∀ q, o q ≠ some .named ∧ o q ≠ some .elements

theorem Outline.plain_graft {inner o : Outline} {path : List String} (hinner : inner.Plain)
    (ho : o.Plain) : (graft .dotted inner path o).Plain := by
  induction path generalizing o with
  | nil => exact hinner
  | cons k path ih =>
    intro q
    cases q with
    | nil =>
      rw [graft_cons_nil]
      have hself := ho []
      cases hnil : o [] with
      | none => exact ⟨nofun, nofun⟩
      | some r =>
        rw [hnil] at hself
        exact hself
    | cons j q =>
      rw [graft_cons_cons]
      split
      · have hbelow : (o.below k).Plain := fun q => ho (k :: q)
        exact ih hbelow q
      · exact ho (j :: q)

theorem Outline.plain_sealed (o : Outline) : o.sealed.Plain := by
  intro q
  rw [sealed]
  cases o q with
  | none => exact ⟨nofun, nofun⟩
  | some r => cases r <;> exact ⟨nofun, nofun⟩

theorem Item.plain_outline (item : Item) : item.outline.Plain := by
  cases item with
  | table es => exact Outline.plain_sealed _
  | text | flag | integer =>
    intro q
    cases q <;> exact ⟨nofun, nofun⟩

/-- The table is that of the entries of an inline table. -/
structure Table.Inline (t : Table) : Prop where
  tidy : t.Tidy
  role : t.outline [] = some .headed
  plain : t.outline.Plain

theorem Table.empty_inline : Table.empty.Inline where
  tidy := Table.empty_tidy
  role := rfl
  plain q := by cases q <;> exact ⟨nofun, nofun⟩

theorem Table.Inline.insertKey (ht : t.Inline) (hkey : key ≠ []) (hadmits : t.outline.Admits key)
    {x : Value} (hx : x.Tidy) (houtline : x.outline = item.outline) :
    ∃ t', t.insertKey key x = some t' ∧ t'.Inline ∧
      t'.outline = Outline.graft .dotted item.outline key t.outline := by
  obtain ⟨t', ht', htidy, hgraft⟩ :=
    Table.insertKey_outline ht.tidy ht.role hkey hadmits (ht.plain _).1 hx
  rw [houtline] at hgraft
  refine ⟨t', ht', ⟨htidy, ?_, ?_⟩, hgraft⟩
  · obtain ⟨k, path, rfl⟩ := List.exists_cons_of_ne_nil hkey
    rw [hgraft, Outline.graft_cons_nil, ht.role]
    rfl
  · rw [hgraft]
    exact Outline.plain_graft item.plain_outline ht.plain

/-- The value of the table is inline. -/
theorem Table.Inline.outline_value (ht : t.Inline) :
    (Value.table (entryValues t.entries)).outline = t.outline.sealed := by
  funext q
  cases q with
  | nil =>
    rw [Outline.sealed, ht.role]
    rfl
  | cons k q => exact Table.outline_value fun p _ => (ht.plain (k :: p)).2

/-! ## Keys with values -/

/-- After a value comes white space, a comment, the end of the line, or what goes on in the inline
table around it. -/
def EndsValue (rest : List Char) : Prop :=
  ∀ c ∈ rest.head?, c ∈ [' ', '\t', '\n', '\r', '#', ',', '\x7d']

theorem EndsValue.blanks (hrest : EndsValue rest) (hw : Blank w) : EndsValue (w ++ rest) := by
  cases w with
  | nil => exact hrest
  | cons c w =>
    rintro _ ⟨⟩
    rcases hw c List.mem_cons_self with rfl | rfl <;> simp

theorem EndsValue.unquoted (hrest : EndsValue rest) : Unquoted rest :=
  ⟨fun h => absurd (hrest _ h) (by decide), fun h => absurd (hrest _ h) (by decide)⟩

theorem EndsValue.word (hrest : EndsValue rest) : EndsWord rest := by
  intro c hc
  have hchars : [' ', '\t', '\n', '\r', '#', ',', '\x7d'].all (fun c => !isWordChar c) = true := rfl
  simpa using List.all_eq_true.1 hchars c (hrest c hc)

/-- An integer begins with a digit or a sign. -/
theorem SpelledInteger.head {n : Int} (h : SpelledInteger n cs) :
    ∃ c r, cs = c :: r ∧ c ∉ ['"', '\'', '[', '\x7b', ' ', '\t'] := by
  cases h with
  | unsigned hrun =>
    obtain ⟨d, ds, cs, -, rfl, hd⟩ := hrun.head
    refine ⟨d, cs, rfl, fun hmem => ?_⟩
    have hchars : ['"', '\'', '[', '\x7b', ' ', '\t'].all (fun c => !isDigitOf 10 c) = true := rfl
    have hdigit := List.all_eq_true.1 hchars d hmem
    rw [hd] at hdigit
    cases hdigit
  | positive | negative | based => exact ⟨_, _, rfl, by decide⟩

/-- A value begins with no blank. -/
theorem Item.SpelledBy.head (h : item.SpelledBy cs) :
    ∃ c r, cs = c :: r ∧ isBlank c = false := by
  cases h with
  | text h => cases h <;> exact ⟨_, _, rfl, rfl⟩
  | @flag b => cases b <;> exact ⟨_, _, rfl, rfl⟩
  | empty | table => exact ⟨_, _, rfl, rfl⟩
  | integer h =>
    obtain ⟨c, r, rfl, hc⟩ := h.head
    refine ⟨c, r, rfl, Bool.eq_false_iff.2 fun hblank => hc ?_⟩
    rcases isBlank_iff.1 hblank with rfl | rfl <;> simp

/-- A key is read, and the value that follows it comes next. -/
theorem keyValue_eq {reader : Reader Value} (hkey : SpelledKey key ks)
    (hlimit : key.length ≤ keyLimit) (hw : Blank w) (hv : Blank v) (hv' : Blank v')
    (hitem : item.SpelledBy cs) :
    keyValue reader (w ++ (ks ++ v ++ '=' :: v' ++ cs) ++ rest) =
      (reader (cs ++ rest)).map fun p => ((key, p.1), p.2) := by
  have hshape : w ++ (ks ++ v ++ '=' :: v' ++ cs) ++ rest =
      w ++ (ks ++ (v ++ '=' :: (v' ++ (cs ++ rest)))) := by simp
  have hparts : key? (w ++ (ks ++ (v ++ '=' :: (v' ++ (cs ++ rest))))) =
      some (key, '=' :: (v' ++ (cs ++ rest))) :=
    keyParts?_spelled hkey hlimit hw hv ⟨_, _, rfl, .inl rfl⟩
  have hskip : skipBlanks (v' ++ (cs ++ rest)) = cs ++ rest := by
    obtain ⟨c, r, rfl, hc⟩ := hitem.head
    rw [skipBlanks_append hv']
    exact skipBlanks_cons hc
  rw [hshape, keyValue, hparts]
  show (reader (skipBlanks (v' ++ (cs ++ rest)))).bind _ = _
  rw [hskip]
  cases reader (cs ++ rest) <;> rfl

theorem keyValue_spelled {reader : Reader Value} {x : Value} (hkey : SpelledKey key ks)
    (hlimit : key.length ≤ keyLimit) (hw : Blank w) (hv : Blank v) (hv' : Blank v')
    (hitem : item.SpelledBy cs) (hread : reader (cs ++ rest) = some (x, rest)) :
    keyValue reader (w ++ (ks ++ v ++ '=' :: v' ++ cs) ++ rest) = some ((key, x), rest) := by
  rw [keyValue_eq hkey hlimit hw hv hv' hitem, hread]
  rfl

/-! ## Values -/

theorem value_of_quote {c : Char} (hc : c = '"' ∨ c = '\'') :
    value depth (c :: cs) = (text? (c :: cs)).map fun p => (.string p.1, p.2) := by
  rcases hc with rfl | rfl <;> cases depth <;> rfl

theorem value_of_word {c : Char} (hc : c ∉ ['"', '\'', '[', '\x7b', ' ', '\t']) :
    value depth (c :: cs) = word? (c :: cs) := by
  simp only [List.mem_cons, List.not_mem_nil, or_false, not_or] at hc
  obtain ⟨hquote, hapostrophe, hbracket, hbrace, -⟩ := hc
  cases depth <;> simp [value, hquote, hapostrophe, hbracket, hbrace]

theorem value_of_brace (h : ∀ r, skipBlanks cs ≠ '\x7d' :: r) :
    value (depth + 1) ('\x7b' :: cs) = (inlineEntries (value depth) .empty cs).map fun p =>
      (.table (entryValues p.1.entries), p.2) := by
  rw [value]
  split
  · exact absurd ‹_› (h _)
  · rfl

/-- Entries begin with a key. -/
theorem Entries.SpelledBy.head (h : es.SpelledBy cs) (r : List Char) :
    skipBlanks (cs ++ rest) ≠ '\x7d' :: r := by
  have hkeyed : ∀ {w ks tail : List Char} {key : List String}, Blank w → SpelledKey key ks →
      skipBlanks (w ++ (ks ++ tail)) ≠ '\x7d' :: r := by
    intro w ks tail key hw hkey hbrace
    obtain ⟨c, ds, rfl, hc⟩ := hkey.head
    rw [skipBlanks_append hw, List.cons_append, skipBlanks_cons (isBlank_of_keyHead hc)] at hbrace
    exact ne_of_keyHead hc '\x7d' (by decide) (List.cons.inj hbrace).1
  cases h with
  | last hw hkey | next hw hkey =>
    simp only [List.append_assoc]
    exact hkeyed hw hkey

section
variable {reader : Reader Value} {x : Value} {t' : Table}

theorem inlineEntries_close (hkeyed : keyValue reader cs = some ((key, x), w' ++ '\x7d' :: rest))
    (hinsert : t.insertKey key x = some t') (hw' : Blank w') :
    inlineEntries reader t cs = some (t', rest) := by
  rw [inlineEntries, hkeyed]
  simp only [hinsert, skipBlanks_append hw']
  rfl

theorem inlineEntries_comma (hkeyed : keyValue reader cs = some ((key, x), w' ++ ',' :: rest))
    (hinsert : t.insertKey key x = some t') (hw' : Blank w') (hlength : rest.length < cs.length) :
    inlineEntries reader t cs = inlineEntries reader t' rest := by
  rw [inlineEntries, hkeyed]
  simp only [hinsert, skipBlanks_append hw']
  exact if_pos hlength

end

theorem value_text {s : List Char} (h : SpelledText s cs) (hrest : Unquoted rest) :
    value depth (cs ++ rest) = some (.string (String.ofList s), rest) := by
  have hquote : ∃ c r, cs ++ rest = c :: r ∧ (c = '"' ∨ c = '\'') := by
    cases h <;> exact ⟨_, _, rfl, by simp⟩
  obtain ⟨c, r, hcs, hc⟩ := hquote
  rw [hcs, value_of_quote hc, ← hcs, text?_spelled h hrest]
  rfl

theorem value_flag (b : Bool) (hrest : EndsWord rest) :
    value depth ((if b then "true" else "false").toList ++ rest) = some (.boolean b, rest) := by
  rw [← word?_flag b hrest]
  cases b <;> exact value_of_word (by decide)

theorem value_integer {n : Int} (h : SpelledInteger n cs) (hlow : -0x8000000000000000 ≤ n)
    (hhigh : n < 0x8000000000000000) (hrest : EndsWord rest) :
    value depth (cs ++ rest) = some (.integer n, rest) := by
  rw [← word?_integer h hlow hhigh hrest]
  obtain ⟨c, r, rfl, hc⟩ := h.head
  exact value_of_word hc

theorem value_empty (hw : Blank w) :
    value (depth + 1) ('\x7b' :: w ++ ['\x7d'] ++ rest) = some (.table [], rest) := by
  have hshape : '\x7b' :: w ++ ['\x7d'] ++ rest = '\x7b' :: (w ++ '\x7d' :: rest) := by simp
  have hskip : skipBlanks (w ++ '\x7d' :: rest) = '\x7d' :: rest := by
    rw [skipBlanks_append hw]
    rfl
  rw [hshape, value, hskip]
  rfl

mutual

/-- **Reading a value**: what spells it is read, and what is read says what the value says. -/
theorem Item.read : (item : Item) → {cs rest : List Char} → {depth : Nat} → item.SpelledBy cs →
    item.Valid → item.longestKey ≤ keyLimit → item.nesting ≤ depth → EndsValue rest →
    ∃ x, value depth (cs ++ rest) = some (x, rest) ∧ x.Tidy ∧ x.outline = item.outline
  | .text _, _, _, _, h, _, _, _, hrest => by
    cases h with
    | text h => exact ⟨_, value_text h hrest.unquoted, trivial, rfl⟩
  | .flag b, _, _, _, h, _, _, _, hrest => by
    cases h with
    | flag => exact ⟨_, value_flag b hrest.word, trivial, rfl⟩
  | .integer _, _, _, _, h, _, _, _, hrest => by
    cases h with
    | integer h hlow hhigh => exact ⟨_, value_integer h hlow hhigh hrest.word, trivial, rfl⟩
  | .table es, _, rest, depth, h, hvalid, hkeys, hnesting, hrest => by
    obtain ⟨depth, rfl⟩ : ∃ d, depth = d + 1 := ⟨depth - 1, by rw [Item.nesting] at hnesting; omega⟩
    cases h with
    | empty hw =>
      refine ⟨_, value_empty hw, ⟨List.nodup_nil, trivial⟩, ?_⟩
      funext q
      cases q <;> rfl
    | @table _ cs h =>
      rw [Item.Valid, ← Table.outline_empty] at hvalid
      obtain ⟨t, hread, ht, houtline⟩ := es.read h hvalid hkeys (Nat.le_of_succ_le_succ hnesting)
        Table.empty_inline rest
      refine ⟨.table (entryValues t.entries), ?_, Table.value_tidy ht.tidy, ?_⟩
      · rw [List.cons_append, value_of_brace h.head, hread]
        rfl
      · rw [ht.outline_value, houtline, Table.outline_empty]
        rfl

/-- Entries are put into the table one after the other. -/
theorem Entries.read : (es : Entries) → {cs : List Char} → {depth : Nat} → {t : Table} →
    es.SpelledBy cs → es.Fits t.outline → es.longestKey ≤ keyLimit → es.nesting ≤ depth →
    t.Inline → (rest : List Char) →
    ∃ t', inlineEntries (value depth) t (cs ++ rest) = some (t', rest) ∧ t'.Inline ∧
      t'.outline = es.outline t.outline
  | .nil, _, _, _, h, _, _, _, _, _ => by cases h
  | .cons key item others, _, depth, t, h, hfits, hkeys, hnesting, ht, rest => by
    obtain ⟨hvalid, hadmits, hothers⟩ := hfits
    have hlimit : key.length ≤ keyLimit := le_trans (le_max_left _ _) hkeys
    have hitemKeys : item.longestKey ≤ keyLimit :=
      le_trans (le_trans (le_max_left _ _) (le_max_right _ _)) hkeys
    have hothersKeys : others.longestKey ≤ keyLimit :=
      le_trans (le_trans (le_max_right _ _) (le_max_right _ _)) hkeys
    have hitemNesting : item.nesting ≤ depth := le_trans (le_max_left _ _) hnesting
    have hothersNesting : others.nesting ≤ depth := le_trans (le_max_right _ _) hnesting
    cases h with
    | @last _ _ w ks v v' cs w' hw hkey hv hv' hitem hw' =>
      have hend : EndsValue ('\x7d' :: rest) := by rintro _ ⟨⟩; simp
      obtain ⟨x, hread, hx, houtline⟩ :=
        item.read hitem hvalid hitemKeys hitemNesting (hend.blanks hw')
      obtain ⟨t', hinsert, ht', hgraft⟩ := ht.insertKey hkey.ne_nil hadmits hx houtline
      have hkeyed := keyValue_spelled hkey hlimit hw hv hv' hitem hread
      refine ⟨t', ?_, ht', hgraft⟩
      have hshape : w ++ (ks ++ v ++ '=' :: v' ++ cs) ++ w' ++ ['\x7d'] ++ rest =
          w ++ (ks ++ v ++ '=' :: v' ++ cs) ++ (w' ++ '\x7d' :: rest) := by simp
      rw [hshape, inlineEntries_close hkeyed hinsert hw']
    | @next _ _ _ w ks v v' cs w' ds hw hkey hv hv' hitem hw' hds =>
      have hend : EndsValue (',' :: (ds ++ rest)) := by rintro _ ⟨⟩; simp
      obtain ⟨x, hread, hx, houtline⟩ :=
        item.read hitem hvalid hitemKeys hitemNesting (hend.blanks hw')
      obtain ⟨t', hinsert, ht', hgraft⟩ := ht.insertKey hkey.ne_nil hadmits hx houtline
      have hkeyed := keyValue_spelled hkey hlimit hw hv hv' hitem hread
      rw [← hgraft] at hothers
      obtain ⟨t'', hread'', ht'', houtline''⟩ :=
        others.read hds hothers hothersKeys hothersNesting ht' rest
      refine ⟨t'', ?_, ht'', by rw [houtline'', hgraft]; rfl⟩
      have hshape : w ++ (ks ++ v ++ '=' :: v' ++ cs) ++ w' ++ ',' :: ds ++ rest =
          w ++ (ks ++ v ++ '=' :: v' ++ cs) ++ (w' ++ ',' :: (ds ++ rest)) := by simp
      rw [hshape, inlineEntries_comma hkeyed hinsert hw' (by simp; omega), hread'']

end

end ClusterScaling.Toml
