import ClusterScaling.Proofs.Toml.Items
import ClusterScaling.Proofs.Toml.Places

/-!
# Reading documents

Each line of a valid document does to the state what it does to the layout, whatever its spelling is
(`State.lines_spelledLine`), so a document is read as a root table with its outline (`read?_spelled`).
The reader does not take every valid document, which is what `Layout.Readable` asks for beyond
validity.
-/

namespace ClusterScaling.Toml

variable {cs rest w tail r comment : List Char} {key : List String} {l : Layout} {line : Line}

/-! ## What the reader takes -/

/-- The line keeps to what the reader takes: keys and inline tables keep to its limits, and no dotted
key puts a value into a table that a header only names on the way to another one. -/
def Line.Readable : Line → Layout → Prop
  | blank, _ => True
  | table key, _ | element key, _ => key.length ≤ keyLimit
  | pair key item, l => key.length ≤ keyLimit ∧ item.longestKey ≤ keyLimit ∧
    item.nesting ≤ depthLimit ∧ l.outline.after l.place key.dropLast ≠ some .named

/-- The lines keep to what the reader takes, after those before them. -/
def Layout.Readable : Layout → List Line → Prop
  | _, [] => True
  | l, line :: ls => line.Readable l ∧ Layout.Readable (line.lay l) ls

/-! ## Ends of lines -/

/-- A line ends at the end of the document or at a line end, after which `r` is left. -/
inductive EndsLine : List Char → List Char → Prop
  | last : EndsLine [] []
  | next {e r : List Char} : LineEnd e → EndsLine (e ++ r) r

theorem EndsLine.head (h : EndsLine tail r) : ∀ c ∈ tail.head?, c = '\n' ∨ c = '\r' := by
  rintro c hc
  cases h with
  | last => cases hc
  | next he => cases he <;> cases hc <;> simp

theorem EndsLine.lineEnd? (h : EndsLine tail r) : lineEnd? tail = some r := by
  cases h with
  | last => rfl
  | next he => cases he <;> rfl

theorem EndsLine.length_le (h : EndsLine tail r) : r.length ≤ tail.length := by
  cases h <;> simp

theorem EndsLine.length_lt (h : EndsLine tail r) (hne : tail ≠ []) : r.length < tail.length := by
  cases h with
  | last => exact absurd rfl hne
  | next he =>
    cases he with
    | feed => simp
    | returnFeed => simp only [List.length_append, List.length_cons]; omega

theorem skipBlanks_eq_self (h : ∀ c ∈ cs.head?, isBlank c = false) : skipBlanks cs = cs := by
  cases cs with
  | nil => rfl
  | cons c cs => exact skipBlanks_cons (h c rfl)

theorem isCommentChar_of_printable {c : Char} (h : Printable c) : isCommentChar c = true := by
  rcases h with rfl | ⟨h, -⟩
  · rfl
  · simp [isCommentChar, h]

/-- What is left of a line before its end begins with no blank. -/
theorem Comment.head_append (hcomment : Comment comment) (htail : EndsLine tail r) :
    ∀ c ∈ (comment ++ tail).head?, c = '#' ∨ c = '\n' ∨ c = '\r' := by
  intro c hc
  cases hcomment with
  | none => exact .inr (htail.head c hc)
  | hash => exact .inl (Option.some.inj hc).symm

theorem skipBlanks_comment (hcomment : Comment comment) (htail : EndsLine tail r) :
    skipBlanks (comment ++ tail) = comment ++ tail := by
  refine skipBlanks_eq_self fun c hc => ?_
  rcases hcomment.head_append htail c hc with rfl | rfl | rfl <;> rfl

theorem skipComment_append (hcomment : Comment comment) (htail : EndsLine tail r) :
    skipComment (comment ++ tail) = tail := by
  have hend : ∀ c ∈ tail.head?, isCommentChar c = false := by
    intro c hc
    rcases htail.head c hc with rfl | rfl <;> rfl
  cases hcomment with
  | none =>
    rw [List.nil_append]
    unfold skipComment
    split
    · rcases htail.head '#' rfl with h | h <;> cases h
    · rfl
  | hash hcs => exact dropWhile_append (fun c hc => isCommentChar_of_printable (hcs c hc)) hend

theorem restOfLine?_spelled (hw : Blank w) (hcomment : Comment comment) (htail : EndsLine tail r) :
    restOfLine? (w ++ (comment ++ tail)) = some r := by
  rw [restOfLine?, skipBlanks_append hw, skipBlanks_comment hcomment htail,
    skipComment_append hcomment htail, htail.lineEnd?]

theorem EndsLine.endsValue (hcomment : Comment comment) (htail : EndsLine tail r) :
    EndsValue (comment ++ tail) := by
  intro c hc
  rcases hcomment.head_append htail c hc with rfl | rfl | rfl <;> simp

/-! ## Lines -/

namespace State

variable {s : State}

theorem line_comment (cs : List Char) :
    s.line ('#' :: cs) = (restOfLine? ('#' :: cs)).map fun r => (s, r) := rfl

theorem line_table (s : State) (hcs : cs.head? ≠ some '[') :
    s.line ('[' :: cs) = (key? cs).bind fun p => match p.2 with
      | ']' :: r => (s.openTable p.1).bind fun s => (restOfLine? r).map fun r => (s, r)
      | _ => none := by
  unfold line
  split
  · next h => cases h
  · next h =>
    obtain ⟨-, rfl⟩ := List.cons.inj h
    exact absurd rfl hcs
  · next h =>
    obtain ⟨-, rfl⟩ := List.cons.inj h
    rfl
  · next h => exact absurd rfl (h cs)

theorem line_element (s : State) (cs : List Char) :
    s.line ('[' :: '[' :: cs) = (key? cs).bind fun p => match p.2 with
      | ']' :: ']' :: r => (s.openLastTable p.1).bind fun s => (restOfLine? r).map fun r => (s, r)
      | _ => none := rfl

theorem line_pair (s : State) (hcs : ∃ c r, cs = c :: r ∧ c ≠ '#' ∧ c ≠ '[') :
    s.line cs = (keyValue (value depthLimit) cs).bind fun p =>
      (s.insert p.1.1 p.1.2).bind fun s => (restOfLine? p.2).map fun r => (s, r) := by
  obtain ⟨c, r, rfl, hhash, hbracket⟩ := hcs
  unfold line
  split
  · next h => exact absurd (List.cons.inj h).1 hhash
  · next h => exact absurd (List.cons.inj h).1 hbracket
  · next h => exact absurd (List.cons.inj h).1 hbracket
  · rfl

theorem head_of_blank_key {ks : List Char} (hw : Blank w) (hkey : SpelledKey key ks) :
    (w ++ (ks ++ rest)).head? ≠ some '[' := by
  intro h
  cases w with
  | nil =>
    obtain ⟨c, r, rfl, hc⟩ := hkey.head
    exact ne_of_keyHead hc '[' (by decide) (Option.some.inj h)
  | cons c w =>
    obtain rfl := Option.some.inj h
    rcases hw _ List.mem_cons_self with h | h <;> cases h

theorem head_of_pair {ks v v' : List Char} (hkey : SpelledKey key ks) :
    ∃ c r, ks ++ v ++ '=' :: v' ++ cs ++ rest = c :: r ∧ c ≠ '#' ∧ c ≠ '[' := by
  obtain ⟨c, ds, rfl, hc⟩ := hkey.head
  exact ⟨c, _, by simp only [List.cons_append]; rfl, ne_of_keyHead hc '#' (by decide),
    ne_of_keyHead hc '[' (by decide)⟩

/-- A line with content does to the state what it does to the layout. -/
theorem line_spelled {s : State} (hs : s.Lays l) (h : SpelledContent line cs) (hne : cs ≠ [])
    (hfits : line.Fits l) (hreadable : line.Readable l) (hw : Blank w) (hcomment : Comment comment)
    (htail : EndsLine tail r) :
    ∃ s', s.line (cs ++ (w ++ (comment ++ tail))) = some (s', r) ∧ s'.Lays (line.lay l) := by
  have hrest := restOfLine?_spelled hw hcomment htail
  cases h with
  | blank => exact absurd rfl hne
  | @table key v ks v' hv hkey hv' =>
    obtain ⟨path, k, rfl⟩ : ∃ path k, key = path ++ [k] :=
      ⟨_, _, (List.dropLast_concat_getLast hkey.ne_nil).symm⟩
    obtain ⟨s', hopen, hs'⟩ := openTable_lays hs hfits
    have hparts : key? (v ++ (ks ++ (v' ++ ']' :: (w ++ (comment ++ tail))))) =
        some (path ++ [k], ']' :: (w ++ (comment ++ tail))) :=
      keyParts?_spelled hkey hreadable hv hv' ⟨_, _, rfl, .inr rfl⟩
    refine ⟨s', ?_, hs'⟩
    have hshape : '[' :: v ++ ks ++ v' ++ [']'] ++ (w ++ (comment ++ tail)) =
        '[' :: (v ++ (ks ++ (v' ++ ']' :: (w ++ (comment ++ tail))))) := by simp
    rw [hshape, line_table s (head_of_blank_key hv hkey), hparts]
    show (s.openTable _).bind _ = _
    rw [hopen, Option.bind_some, hrest]
    rfl
  | @element key v ks v' hv hkey hv' =>
    obtain ⟨path, k, rfl⟩ : ∃ path k, key = path ++ [k] :=
      ⟨_, _, (List.dropLast_concat_getLast hkey.ne_nil).symm⟩
    obtain ⟨s', hopen, hs'⟩ := openLastTable_lays hs hfits
    have hparts : key? (v ++ (ks ++ (v' ++ ']' :: ']' :: (w ++ (comment ++ tail))))) =
        some (path ++ [k], ']' :: ']' :: (w ++ (comment ++ tail))) :=
      keyParts?_spelled hkey hreadable hv hv' ⟨_, _, rfl, .inr rfl⟩
    refine ⟨s', ?_, hs'⟩
    have hshape : '[' :: '[' :: v ++ ks ++ v' ++ [']', ']'] ++ (w ++ (comment ++ tail)) =
        '[' :: '[' :: (v ++ (ks ++ (v' ++ ']' :: ']' :: (w ++ (comment ++ tail))))) := by simp
    rw [hshape, line_element, hparts]
    show (s.openLastTable _).bind _ = _
    rw [hopen, Option.bind_some, hrest]
    rfl
  | @pair key item ks v v' cs hkey hv hv' hitem =>
    obtain ⟨hvalid, hadmits⟩ := hfits
    obtain ⟨hlimit, hkeys, hnesting, hplace⟩ := hreadable
    obtain ⟨x, hread, hx, houtline⟩ :=
      item.read hitem hvalid hkeys hnesting ((htail.endsValue hcomment).blanks hw)
    obtain ⟨s', hinsert, hs'⟩ := insert_lays hs hkey.ne_nil hadmits hplace hx houtline
    have hblank : Blank [] := fun _ h => absurd h List.not_mem_nil
    have hpair := keyValue_spelled hkey hlimit hblank hv hv' hitem hread
    rw [List.nil_append] at hpair
    refine ⟨s', ?_, hs'⟩
    rw [line_pair s (head_of_pair hkey), hpair, Option.bind_some, hinsert, Option.bind_some, hrest]
    rfl

/-! ## Documents -/

theorem lines_blank (h : skipBlanks cs = []) : s.lines cs = some s := by
  rw [lines, h]

theorem lines_lineEnd (hcs : skipBlanks cs ≠ []) (h : lineEnd? (skipBlanks cs) = some r)
    (hlength : r.length < cs.length) : s.lines cs = s.lines r := by
  rw [lines]
  split
  · exact absurd ‹_› hcs
  · simp only [h]
    exact if_pos hlength

theorem lines_line {s' : State} (hcs : skipBlanks cs ≠ []) (h : lineEnd? (skipBlanks cs) = none)
    (hline : s.line (skipBlanks cs) = some (s', r)) (hlength : r.length < cs.length) :
    s.lines cs = s'.lines r := by
  rw [lines]
  split
  · exact absurd ‹_› hcs
  · simp only [h, hline]
    exact if_pos hlength

theorem lineEnd?_eq_none {c : Char} (hfeed : c ≠ '\n') (hreturn : c ≠ '\r') :
    lineEnd? (c :: cs) = none := by
  unfold lineEnd?
  split
  · next h => cases h
  · next h => exact absurd (List.cons.inj h).1 hfeed
  · next h => exact absurd (List.cons.inj h).1 hreturn
  · rfl

/-- A line without content leaves the state as it is. -/
theorem lines_blankLine (hw : Blank w) (hcomment : Comment comment) (htail : EndsLine tail r) :
    s.lines (w ++ (comment ++ tail)) = s.lines r := by
  have hskip : skipBlanks (w ++ (comment ++ tail)) = comment ++ tail := by
    rw [skipBlanks_append hw, skipBlanks_comment hcomment htail]
  cases hcomment with
  | none =>
    rw [List.nil_append] at hskip ⊢
    cases htail with
    | last => rw [lines_blank hskip, lines_blank rfl]
    | @next e r he =>
      have hne : e ++ r ≠ [] := by cases he <;> nofun
      have hlength := (EndsLine.next he).length_lt hne
      exact lines_lineEnd (by rwa [hskip]) (by rw [hskip]; exact (EndsLine.next he).lineEnd?)
        (by simp only [List.length_append] at hlength ⊢; omega)
  | @hash ds hds =>
    have hrest := restOfLine?_spelled (w := []) (fun _ h => absurd h List.not_mem_nil)
      (.hash hds) htail
    have hlength := htail.length_le
    refine lines_line (by rw [hskip]; nofun) (by rw [hskip]; exact lineEnd?_eq_none nofun nofun) ?_
      (by simp; omega)
    rw [hskip, List.cons_append, line_comment]
    rw [List.nil_append, List.cons_append] at hrest
    rw [hrest]
    rfl

theorem eq_blank_of_content (h : SpelledContent line cs) (hcs : cs = []) : line = .blank := by
  cases h with
  | blank => rfl
  | table | element => cases hcs
  | pair => simp at hcs

/-- The content of a line begins with no blank and no line end. -/
theorem head_of_content (h : SpelledContent line cs) (hne : cs ≠ []) :
    ∃ c ds, cs = c :: ds ∧ isBlank c = false ∧ c ≠ '\n' ∧ c ≠ '\r' := by
  cases h with
  | blank => exact absurd rfl hne
  | table | element => exact ⟨_, _, rfl, rfl, nofun, nofun⟩
  | pair hkey =>
    obtain ⟨c, ds, rfl, hc⟩ := hkey.head
    exact ⟨c, _, by simp only [List.cons_append]; rfl, isBlank_of_keyHead hc,
      ne_of_keyHead hc '\n' (by decide), ne_of_keyHead hc '\r' (by decide)⟩

theorem skipBlanks_content {c : Char} (hw : Blank w) (hc : isBlank c = false)
    (cs w' comment tail : List Char) :
    skipBlanks (w ++ c :: cs ++ (w' ++ comment) ++ tail) =
      c :: cs ++ (w' ++ (comment ++ tail)) := by
  have hshape : w ++ c :: cs ++ (w' ++ comment) ++ tail =
      w ++ (c :: cs ++ (w' ++ (comment ++ tail))) := by simp
  rw [hshape, skipBlanks_append hw]
  exact skipBlanks_cons hc

/-- **A line of a document** does to the state what it does to the layout, however it is spelled. -/
theorem lines_spelledLine (hs : s.Lays l) (h : SpelledLine line cs) (hfits : line.Fits l)
    (hreadable : line.Readable l) (htail : EndsLine tail r) :
    ∃ s' : State, s'.Lays (line.lay l) ∧ s.lines (cs ++ tail) = s'.lines r := by
  obtain ⟨hw, hcontent, hw', hcomment⟩ := h
  rename_i w content w' comment
  by_cases hne : content = []
  · obtain rfl := eq_blank_of_content hcontent hne
    subst hne
    have hshape : w ++ [] ++ (w' ++ comment) ++ tail = w ++ w' ++ (comment ++ tail) := by simp
    have hblank : Blank (w ++ w') := fun c hc => (List.mem_append.1 hc).elim (hw c) (hw' c)
    refine ⟨s, hs, ?_⟩
    rw [hshape, lines_blankLine hblank hcomment htail]
  · obtain ⟨s', hline, hs'⟩ := line_spelled hs hcontent hne hfits hreadable hw' hcomment htail
    obtain ⟨c, ds, rfl, hblank, hfeed, hreturn⟩ := head_of_content hcontent hne
    have hskip := skipBlanks_content hw hblank ds w' comment tail
    have hlength := htail.length_le
    refine ⟨s', hs', ?_⟩
    refine lines_line (by rw [hskip]; nofun) ?_ (by rw [hskip]; exact hline) (by simp; omega)
    rw [hskip]
    exact lineEnd?_eq_none hfeed hreturn

/-- A whole document is laid out line by line. -/
theorem lines_spelled {ls : List Line} (hs : s.Lays l) (h : SpelledDocument ls cs)
    (hfits : l.Fits ls) (hreadable : l.Readable ls) :
    ∃ s', s.lines cs = some s' ∧ s'.Lays (l.extend ls) := by
  induction h generalizing s l with
  | last hline =>
    obtain ⟨s', hs', hlines⟩ := lines_spelledLine hs hline hfits.1 hreadable.1 .last
    rw [List.append_nil] at hlines
    exact ⟨s', by rw [hlines, lines_blank rfl], hs'⟩
  | next hline he _ ih =>
    obtain ⟨s', hs', hlines⟩ := lines_spelledLine hs hline hfits.1 hreadable.1 (.next he)
    obtain ⟨s'', hrest, hs''⟩ := ih hs' hfits.2 hreadable.2
    exact ⟨s'', by rw [List.append_assoc, hlines, hrest], hs''⟩

end State

/-! ## Whole texts -/

/-- The text begins with no byte order mark. -/
def Unmarked (cs : List Char) : Prop := cs.head? ≠ some '\ufeff'

theorem Unmarked.append (h : Unmarked cs) (hrest : Unmarked rest) : Unmarked (cs ++ rest) := by
  cases cs with
  | nil => exact hrest
  | cons c cs => exact h

theorem Blank.unmarked (hw : Blank w) : Unmarked w := by
  cases w with
  | nil => nofun
  | cons c w => rcases hw c List.mem_cons_self with rfl | rfl <;> nofun

theorem SpelledContent.unmarked (h : SpelledContent line cs) : Unmarked cs := by
  cases h with
  | blank | table | element => nofun
  | pair hkey =>
    obtain ⟨c, ds, rfl, hc⟩ := hkey.head
    exact fun h => ne_of_keyHead hc '\ufeff' (by decide) (Option.some.inj h)

theorem SpelledLine.unmarked (h : SpelledLine line cs) : Unmarked cs := by
  obtain ⟨hw, hcontent, hw', hcomment⟩ := h
  refine (hw.unmarked.append hcontent.unmarked).append (hw'.unmarked.append ?_)
  cases hcomment <;> nofun

theorem SpelledDocument.unmarked {ls : List Line} (h : SpelledDocument ls cs) : Unmarked cs := by
  induction h with
  | last hline => exact hline.unmarked
  | next hline he _ ih =>
    refine (hline.unmarked.append ?_).append ih
    cases he <;> nofun

theorem read?_of_unmarked (h : Unmarked cs) :
    read? cs = (State.start.lines cs).bind fun s =>
      s.close.map fun root => entryValues root.entries := by
  unfold read?
  split
  · exact absurd rfl h
  · show (State.start.lines cs).bind _ = (State.start.lines cs).bind _
    cases State.start.lines cs with
    | none => rfl
    | some s =>
      show s.close.bind _ = s.close.map _
      cases s.close <;> rfl

/-- **Reading a document** gives a root table that says what the document says. -/
theorem read?_spelled {ls : List Line} (h : SpelledDocument ls cs) (hvalid : ValidDocument ls)
    (hreadable : Layout.start.Readable ls) :
    ∃ root : Table, read? cs = some (entryValues root.entries) ∧ root.Tidy ∧
      root.outline = outline ls := by
  obtain ⟨s, hlines, hs⟩ := State.lines_spelled State.start_lays h hvalid hreadable
  obtain ⟨root, hclose, htidy, houtline⟩ := State.close_lays hs
  refine ⟨root, ?_, htidy, houtline⟩
  rw [read?_of_unmarked h.unmarked, hlines, Option.bind_some, hclose]
  rfl

end ClusterScaling.Toml
