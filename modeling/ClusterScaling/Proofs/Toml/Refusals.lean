import ClusterScaling.Proofs.Toml.Reading

/-!
# Documents that are not read

Of the valid documents the reader takes just those that keep to its limits: it stops at the first
line that does not, so no other document is read (`read?_refused`).
-/

namespace ClusterScaling.Toml

variable {cs rest w v v' ks tail r comment : List Char} {key : List String} {depth : Nat}
  {item : Item} {t : Table} {l : Layout} {line : Line}

/-! ## Values -/

/-- No value is read with a key that is too long. -/
theorem keyValue_long {reader : Reader Value} (hkey : SpelledKey key ks)
    (hlimit : ¬ key.length ≤ keyLimit) (hw : Blank w) :
    keyValue reader (w ++ (ks ++ v ++ '=' :: v' ++ cs) ++ rest) = none := by
  have hshape : w ++ (ks ++ v ++ '=' :: v' ++ cs) ++ rest =
      w ++ (ks ++ (v ++ '=' :: (v' ++ (cs ++ rest)))) := by simp
  have hparts : key? (w ++ (ks ++ (v ++ '=' :: (v' ++ (cs ++ rest))))) = none :=
    keyParts?_long hkey (Nat.lt_of_not_le hlimit) hw
  rw [hshape, keyValue, hparts]
  rfl

theorem keyValue_unread {reader : Reader Value} (hkey : SpelledKey key ks)
    (hlimit : key.length ≤ keyLimit) (hw : Blank w) (hv : Blank v) (hv' : Blank v')
    (hitem : item.SpelledBy cs) (hread : reader (cs ++ rest) = none) :
    keyValue reader (w ++ (ks ++ v ++ '=' :: v' ++ cs) ++ rest) = none := by
  rw [keyValue_eq hkey hlimit hw hv hv' hitem, hread]
  rfl

theorem inlineEntries_unread {reader : Reader Value} (h : keyValue reader cs = none) :
    inlineEntries reader t cs = none := by
  rw [inlineEntries, h]

mutual

/-- A value that does not keep to the limits is not read. -/
theorem Item.unread : (item : Item) → {cs rest : List Char} → {depth : Nat} → item.SpelledBy cs →
    item.Valid → ¬ (item.longestKey ≤ keyLimit ∧ item.nesting ≤ depth) → EndsValue rest →
    value depth (cs ++ rest) = none
  | .text _, _, _, _, _, _, h, _ | .flag _, _, _, _, _, _, h, _ | .integer _, _, _, _, _, _, h, _ =>
    absurd ⟨Nat.zero_le _, Nat.zero_le _⟩ h
  | .table es, _, rest, 0, hspelled, _, _, _ => by
    cases hspelled with
    | empty | table => rfl
  | .table es, _, rest, depth + 1, hspelled, hvalid, h, _ => by
    cases hspelled with
    | empty => exact absurd ⟨Nat.zero_le _, Nat.succ_le_succ (Nat.zero_le _)⟩ h
    | @table _ cs hspelled =>
      rw [Item.Valid, ← Table.outline_empty] at hvalid
      have hunread := es.unread hspelled hvalid
        (fun h' => h ⟨h'.1, Nat.succ_le_succ h'.2⟩) Table.empty_inline rest
      rw [List.cons_append, value_of_brace hspelled.head, hunread]
      rfl

theorem Entries.unread : (es : Entries) → {cs : List Char} → {depth : Nat} → {t : Table} →
    es.SpelledBy cs → es.Fits t.outline → ¬ (es.longestKey ≤ keyLimit ∧ es.nesting ≤ depth) →
    t.Inline → (rest : List Char) → inlineEntries (value depth) t (cs ++ rest) = none
  | .nil, _, _, _, hspelled, _, _, _, _ => by cases hspelled
  | .cons key item others, _, depth, t, hspelled, hfits, h, ht, rest => by
    obtain ⟨hvalid, hadmits, hothers⟩ := hfits
    have hend : ∀ {w' tail : List Char} {c : Char}, Blank w' → c = ',' ∨ c = '\x7d' →
        EndsValue (w' ++ c :: tail) := by
      intro w' tail c hw' hc
      refine EndsValue.blanks ?_ hw'
      rintro _ ⟨⟩
      rcases hc with rfl | rfl <;> simp
    -- the first entry is not read, or those after it are not
    have hkeyed : ∀ {w ks v v' cs tail}, Blank w → SpelledKey key ks → Blank v → Blank v' →
        item.SpelledBy cs → EndsValue tail →
        ¬ (key.length ≤ keyLimit ∧ item.longestKey ≤ keyLimit ∧ item.nesting ≤ depth) →
        inlineEntries (value depth) t (w ++ (ks ++ v ++ '=' :: v' ++ cs) ++ tail) = none := by
      intro w ks v v' cs tail hw hkey hv hv' hitem htail hfirst
      refine inlineEntries_unread ?_
      by_cases hlimit : key.length ≤ keyLimit
      · exact keyValue_unread hkey hlimit hw hv hv' hitem
          (item.unread hitem hvalid (fun h' => hfirst ⟨hlimit, h'⟩) htail)
      · exact keyValue_long hkey hlimit hw
    rw [Entries.longestKey, Entries.nesting, max_le_iff, max_le_iff, max_le_iff] at h
    cases hspelled with
    | @last _ _ w ks v v' cs w' hw hkey hv hv' hitem hw' =>
      have hshape : w ++ (ks ++ v ++ '=' :: v' ++ cs) ++ w' ++ ['\x7d'] ++ rest =
          w ++ (ks ++ v ++ '=' :: v' ++ cs) ++ (w' ++ '\x7d' :: rest) := by simp
      rw [hshape]
      refine hkeyed hw hkey hv hv' hitem (hend hw' (.inr rfl)) fun h' => h ?_
      exact ⟨⟨h'.1, h'.2.1, Nat.zero_le _⟩, h'.2.2, Nat.zero_le _⟩
    | @next _ _ _ w ks v v' cs w' ds hw hkey hv hv' hitem hw' hds =>
      have hshape : w ++ (ks ++ v ++ '=' :: v' ++ cs) ++ w' ++ ',' :: ds ++ rest =
          w ++ (ks ++ v ++ '=' :: v' ++ cs) ++ (w' ++ ',' :: (ds ++ rest)) := by simp
      rw [hshape]
      by_cases hfirst : key.length ≤ keyLimit ∧ item.longestKey ≤ keyLimit ∧ item.nesting ≤ depth
      · obtain ⟨x, hread, hx, houtline⟩ :=
          item.read hitem hvalid hfirst.2.1 hfirst.2.2 (hend hw' (.inl rfl))
        obtain ⟨t', hinsert, ht', hgraft⟩ := ht.insertKey hkey.ne_nil hadmits hx houtline
        have hentry := keyValue_spelled hkey hfirst.1 hw hv hv' hitem hread
        rw [← hgraft] at hothers
        have hunread := others.unread hds hothers
          (fun h' => h ⟨⟨hfirst.1, hfirst.2.1, h'.1⟩, hfirst.2.2, h'.2⟩) ht' rest
        rw [inlineEntries_comma hentry hinsert hw' (by simp; omega), hunread]
      · exact hkeyed hw hkey hv hv' hitem (hend hw' (.inl rfl)) hfirst

end

/-! ## Lines -/

namespace State

variable {s : State}

/-- A line that the reader does not take stops it. -/
theorem line_refused (hs : s.Lays l) (h : SpelledContent line cs) (hfits : line.Fits l)
    (hreadable : ¬ line.Readable l) (hw : Blank w) (hcomment : Comment comment)
    (htail : EndsLine tail r) : s.line (cs ++ (w ++ (comment ++ tail))) = none := by
  cases h with
  | blank => exact absurd trivial hreadable
  | @table key v ks v' hv hkey hv' =>
    have hparts : key? (v ++ (ks ++ (v' ++ ']' :: (w ++ (comment ++ tail))))) = none :=
      keyParts?_long hkey (Nat.lt_of_not_le hreadable) hv
    have hshape : '[' :: v ++ ks ++ v' ++ [']'] ++ (w ++ (comment ++ tail)) =
        '[' :: (v ++ (ks ++ (v' ++ ']' :: (w ++ (comment ++ tail))))) := by simp
    rw [hshape, line_table s (head_of_blank_key hv hkey), hparts]
    rfl
  | @element key v ks v' hv hkey hv' =>
    have hparts : key? (v ++ (ks ++ (v' ++ ']' :: ']' :: (w ++ (comment ++ tail))))) = none :=
      keyParts?_long hkey (Nat.lt_of_not_le hreadable) hv
    have hshape : '[' :: '[' :: v ++ ks ++ v' ++ [']', ']'] ++ (w ++ (comment ++ tail)) =
        '[' :: '[' :: (v ++ (ks ++ (v' ++ ']' :: ']' :: (w ++ (comment ++ tail))))) := by simp
    rw [hshape, line_element, hparts]
    rfl
  | @pair key item ks v v' cs hkey hv hv' hitem =>
    obtain ⟨hvalid, hadmits⟩ := hfits
    have hblank : Blank [] := fun _ h => absurd h List.not_mem_nil
    have hend := (htail.endsValue hcomment).blanks hw
    rw [line_pair s (head_of_pair hkey)]
    by_cases hlimit : key.length ≤ keyLimit
    · by_cases hlimits : item.longestKey ≤ keyLimit ∧ item.nesting ≤ depthLimit
      · -- the value is read, and the table that it would go into is only named
        obtain ⟨x, hread, -⟩ := item.read hitem hvalid hlimits.1 hlimits.2 hend
        have hpair := keyValue_spelled hkey hlimit hblank hv hv' hitem hread
        rw [List.nil_append] at hpair
        have hnamed : l.outline.after l.place key.dropLast = some .named := by
          by_contra hplace
          exact hreadable ⟨hlimit, hlimits.1, hlimits.2, hplace⟩
        rw [hpair, Option.bind_some, insert_named hs hkey.ne_nil hadmits hnamed]
        rfl
      · have hpair := keyValue_unread hkey hlimit hblank hv hv' hitem
          (item.unread hitem hvalid hlimits hend)
        rw [List.nil_append] at hpair
        rw [hpair]
        rfl
    · have hpair : keyValue (value depthLimit)
          ([] ++ (ks ++ v ++ '=' :: v' ++ cs) ++ (w ++ (comment ++ tail))) = none :=
        keyValue_long hkey hlimit hblank
      rw [List.nil_append] at hpair
      rw [hpair]
      rfl

theorem lines_unread (hcs : skipBlanks cs ≠ []) (h : lineEnd? (skipBlanks cs) = none)
    (hline : s.line (skipBlanks cs) = none) : s.lines cs = none := by
  rw [lines]
  split
  · exact absurd ‹_› hcs
  · simp only [h, hline]

theorem lines_refusedLine (hs : s.Lays l) (h : SpelledLine line cs) (hfits : line.Fits l)
    (hreadable : ¬ line.Readable l) (htail : EndsLine tail r) : s.lines (cs ++ tail) = none := by
  obtain ⟨hw, hcontent, hw', hcomment⟩ := h
  rename_i w content w' comment
  have hne : content ≠ [] := by
    intro hnil
    obtain rfl := eq_blank_of_content hcontent hnil
    exact hreadable trivial
  have hline := line_refused hs hcontent hfits hreadable hw' hcomment htail
  obtain ⟨c, ds, rfl, hblank, hfeed, hreturn⟩ := head_of_content hcontent hne
  have hskip := skipBlanks_content hw hblank ds w' comment tail
  refine lines_unread (by rw [hskip]; nofun) ?_ (by rw [hskip]; exact hline)
  rw [hskip]
  exact lineEnd?_eq_none hfeed hreturn

theorem lines_refused {ls : List Line} (hs : s.Lays l) (h : SpelledDocument ls cs)
    (hfits : l.Fits ls) (hreadable : ¬ l.Readable ls) : s.lines cs = none := by
  induction h generalizing s l with
  | @last line cs hline =>
    have hrefused := lines_refusedLine hs hline hfits.1 (fun h => hreadable ⟨h, trivial⟩) .last
    rwa [List.append_nil] at hrefused
  | @next line ls cs e ds hline he _ ih =>
    rw [List.append_assoc]
    by_cases hfirst : line.Readable l
    · obtain ⟨s', hs', hlines⟩ := lines_spelledLine hs hline hfits.1 hfirst (.next he)
      rw [hlines]
      exact ih hs' hfits.2 fun h => hreadable ⟨hfirst, h⟩
    · exact lines_refusedLine hs hline hfits.1 hfirst (.next he)

end State

/-- **Refusals**: a valid document that does not keep to what the reader takes is not read. -/
theorem read?_refused {ls : List Line} (h : SpelledDocument ls cs) (hvalid : ValidDocument ls)
    (hreadable : ¬ Layout.start.Readable ls) : read? cs = none := by
  rw [read?_of_unmarked h.unmarked, State.lines_refused State.start_lays h hvalid hreadable]
  rfl

end ClusterScaling.Toml
