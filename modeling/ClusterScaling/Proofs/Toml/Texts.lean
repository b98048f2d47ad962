import Mathlib.Tactic.Ring
import ClusterScaling.Proofs.Toml.Spelling
import ClusterScaling.Toml.Lexeme

/-!
# Spelled texts and keys are read

A text or a key is read off the front of what spells it, whatever follows it that cannot belong to
it (`text?_spelled`, `key?_spelled`). The readers of texts go from character to character in some
state, so each kind of spelling has one lemma that says what its characters do.
-/

namespace ClusterScaling.Toml

open Text (hexValue?)

variable {c d e : Char} {cs ds es s r rest w w' : List Char}

/-! ## White space -/

theorem isBlank_iff : isBlank c = true ↔ c = ' ' ∨ c = '\t' := by simp [isBlank]

theorem skipBlanks_append (hw : Blank w) : skipBlanks (w ++ cs) = skipBlanks cs := by
  refine List.dropWhile_append_of_pos fun c hc => ?_
  exact isBlank_iff.2 (hw c hc)

theorem skipBlanks_cons (hc : isBlank c = false) : skipBlanks (c :: cs) = c :: cs := by
  rw [skipBlanks, List.dropWhile_cons_of_neg (by simp [hc])]

@[simp] theorem skipBlanks_nil : skipBlanks [] = [] := rfl

/-! ## Characters -/

theorem printable_of_isTextChar (h : isTextChar c = true) : Printable c := by
  simpa [isTextChar, Printable] using h

theorem isTextChar_of_printable (h : Printable c) : isTextChar c = true := by
  rcases h with rfl | ⟨hlow, hne⟩
  · rfl
  · simp [isTextChar, hlow, hne]

theorem ne_newline_of_printable (h : Printable c) : c ≠ '\n' ∧ c ≠ '\r' := by
  constructor <;> rintro rfl <;> rcases h with h | ⟨h, -⟩ <;> revert h <;> decide

theorem scalar?_toNat (c : Char) : scalar? c.toNat = some c := by
  have hvalid : c.toNat.isValidChar := c.valid
  rw [scalar?, if_pos hvalid, Char.ofNat_toNat]

/-- A digit moves the number before it up by one place. -/
theorem placeValue_cons {base x v : Nat} (h : hexValue? d = some x) :
    v * base ^ (d :: ds).length + placeValue base (d :: ds) =
      (base * v + x) * base ^ ds.length + placeValue base ds := by
  rw [placeValue, h, Option.getD_some, Nat.pow_eq, List.length_cons, Nat.pow_succ]
  ring

theorem hexValue?_of_isDigitOf {base : Nat} (h : isDigitOf base d = true) :
    ∃ x, hexValue? d = some x ∧ x < base := by
  rw [isDigitOf, Option.any_eq_true] at h
  simpa using h

/-! ## Escapes -/

theorem prepend_some (front : List Char) (p : List Char × List Char) :
    prepend front (some p) = some (front ++ p.1, p.2) := rfl

/-- A reader of the digits of a code point, those to come and the value so far, which goes on with
`plain` after the last of them. -/
def ReadsDigits (plain : List Char → Option (List Char × List Char))
    (digits : Nat → Nat → List Char → Option (List Char × List Char)) : Prop :=
  ∀ left value c r, digits left value (c :: r) =
    match hexValue? c with
    | none => none
    | some d =>
      if 1 < left then digits (left - 1) (16 * value + d) r
      else match scalar? (16 * value + d) with
        | some x => prepend [x] (plain r)
        | none => none

section
variable {plain : List Char → Option (List Char × List Char)}
  {digits : Nat → Nat → List Char → Option (List Char × List Char)}

theorem ReadsDigits.spelled (h : ReadsDigits plain digits) (hne : ds ≠ [])
    (hds : ∀ d ∈ ds, isDigitOf 16 d = true) {v : Nat}
    (hv : v * 16 ^ ds.length + placeValue 16 ds = c.toNat) :
    digits ds.length v (ds ++ r) = prepend [c] (plain r) := by
  induction ds generalizing v with
  | nil => exact absurd rfl hne
  | cons d ds ih =>
    obtain ⟨hd, hds⟩ := List.forall_mem_cons.1 hds
    obtain ⟨x, hx, -⟩ := hexValue?_of_isDigitOf hd
    rw [placeValue_cons hx] at hv
    rw [List.cons_append, h, hx]
    cases ds with
    | nil =>
      have hvalue : 16 * v + x = c.toNat := by simpa [placeValue] using hv
      simp [hvalue, scalar?_toNat]
    | cons d' ds =>
      simp only [List.length_cons, Nat.lt_add_left_iff_pos, Nat.zero_lt_succ, if_true]
      exact ih (by simp) hds hv

/-- A reader of what follows a backslash, which goes on with `plain` after it. -/
structure ReadsEscapes (plain : List Char → Option (List Char × List Char))
    (escape : List Char → Option (List Char × List Char)) : Prop where
  letters : ∀ e c r, (e, c) ∈ escapeLetters → escape (e :: r) = prepend [c] (plain r)
  digits : ∃ digits, ReadsDigits plain digits ∧ (∀ r, escape ('u' :: r) = digits 4 0 r) ∧
    ∀ r, escape ('U' :: r) = digits 8 0 r

/-- An escape is read. -/
theorem ReadsEscapes.spelled {escape : List Char → Option (List Char × List Char)}
    (h : ReadsEscapes plain escape) (hes : SpelledEscape c es) :
    escape (es ++ r) = prepend [c] (plain r) := by
  obtain ⟨digits, hdigits, hshort, hlong⟩ := h.digits
  cases hes with
  | letter he => exact h.letters _ _ r he
  | short hlength hds hvalue =>
    rw [List.cons_append, hshort, ← hlength]
    exact hdigits.spelled (List.ne_nil_of_length_pos (by omega)) hds (by simpa using hvalue)
  | long hlength hds hvalue =>
    rw [List.cons_append, hlong, ← hlength]
    exact hdigits.spelled (List.ne_nil_of_length_pos (by omega)) hds (by simpa using hvalue)

end

theorem basicText_readsEscapes : ReadsEscapes (basicText .plain) (basicText .escape) where
  letters e c r h := by
    simp only [escapeLetters, List.mem_cons, Prod.mk.injEq, List.not_mem_nil, or_false] at h
    rcases h with ⟨rfl, rfl⟩ | ⟨rfl, rfl⟩ | ⟨rfl, rfl⟩ | ⟨rfl, rfl⟩ | ⟨rfl, rfl⟩ | ⟨rfl, rfl⟩ |
      ⟨rfl, rfl⟩ <;> rfl
  digits := ⟨fun left value => basicText (.digits left value),
    fun left value c r => basicText.eq_def (.digits left value) (c :: r), fun _ => rfl, fun _ => rfl⟩

/-! ## Texts of one line -/

/-- A text between quotes is read. -/
theorem basicText_spelled (h : SpelledBasic s cs) (rest : List Char) :
    basicText .plain (cs ++ '"' :: rest) = some (s, rest) := by
  induction h with
  | nil => rfl
  | plain hc hquote hslash _ ih =>
    rw [List.cons_append, basicText, if_neg hquote, if_neg hslash,
      if_pos (isTextChar_of_printable hc), ih, prepend_some]
    rfl
  | escape hes _ ih =>
    rw [List.append_assoc, List.cons_append, basicText, if_neg (by decide), if_pos rfl,
      basicText_readsEscapes.spelled hes, ih, prepend_some]
    rfl

/-- A text between apostrophes is read. -/
theorem literalText_spelled (h : Literal cs) (rest : List Char) :
    literalText (cs ++ '\'' :: rest) = some (cs, rest) := by
  induction cs with
  | nil => rfl
  | cons c cs ih =>
    obtain ⟨⟨hc, hne⟩, hcs⟩ := List.forall_mem_cons.1 h
    rw [List.cons_append, literalText, if_neg hne, if_pos (isTextChar_of_printable hc), ih hcs,
      prepend_some]
    rfl

/-! ## Texts of several lines -/

section
variable {escapes trimming : Bool} {n : Nat}

/-! What the reader does with one character, the digits of a code point aside. The lemmas on what it
does with a spelling rest on these equations. -/

theorem linesText_plain_cons : linesText d escapes (.plain n trimming) (c :: r) =
    if trimming && (isBlank c || c == '\n') then linesText d escapes (.plain 0 true) r
    else if c = d then
      if n = 4 then some ([d, d], r) else linesText d escapes (.plain (n + 1) false) r
    else if 3 ≤ n then some (List.replicate (n - 3) d, c :: r)
    else prepend (List.replicate n d) <|
      if escapes && c == '\\' then linesText d escapes .escape r
      else if c = '\r' then
        match r with
        | '\n' :: r =>
          if trimming then linesText d escapes (.plain 0 true) r
          else prepend ['\n'] (linesText d escapes (.plain 0 false) r)
        | _ => none
      else if c == '\n' || isTextChar c then
        prepend [c] (linesText d escapes (.plain 0 false) r)
      else none :=
  linesText.eq_def d escapes (.plain n trimming) (c :: r)

theorem linesText_escape_cons : linesText d escapes .escape (c :: r) =
    if c = 'u' then linesText d escapes (.digits 4 0) r
    else if c = 'U' then linesText d escapes (.digits 8 0) r
    else if c = '\n' then linesText d escapes (.plain 0 true) r
    else if c = '\r' then
      match r with
      | '\n' :: r => linesText d escapes (.plain 0 true) r
      | _ => none
    else if isBlank c then linesText d escapes .escapedBlanks r
    else match escaped? c with
      | some x => prepend [x] (linesText d escapes (.plain 0 false) r)
      | none => none :=
  linesText.eq_def d escapes .escape (c :: r)

theorem linesText_escapedBlanks_cons : linesText d escapes .escapedBlanks (c :: r) =
    if isBlank c then linesText d escapes .escapedBlanks r
    else if c = '\n' then linesText d escapes (.plain 0 true) r
    else if c = '\r' then
      match r with
      | '\n' :: r => linesText d escapes (.plain 0 true) r
      | _ => none
    else none :=
  linesText.eq_def d escapes .escapedBlanks (c :: r)

theorem linesText_readsEscapes :
    ReadsEscapes (linesText d escapes (.plain 0 false)) (linesText d escapes .escape) where
  letters e c r h := by
    rw [linesText_escape_cons]
    simp only [escapeLetters, List.mem_cons, Prod.mk.injEq, List.not_mem_nil, or_false] at h
    rcases h with ⟨rfl, rfl⟩ | ⟨rfl, rfl⟩ | ⟨rfl, rfl⟩ | ⟨rfl, rfl⟩ | ⟨rfl, rfl⟩ | ⟨rfl, rfl⟩ |
      ⟨rfl, rfl⟩ <;> rfl
  digits := ⟨fun left value => linesText d escapes (.digits left value),
    fun left value c r => linesText.eq_def d escapes (.digits left value) (c :: r),
    fun _ => linesText_escape_cons, fun _ => linesText_escape_cons⟩

/-- The characters that delimit texts. -/
def Delimits (d : Char) : Prop := d = '"' ∨ d = '\''

theorem linesText_delimiter (hd : Delimits d) :
    linesText d escapes (.plain n trimming) (d :: r) =
      if n = 4 then some ([d, d], r) else linesText d escapes (.plain (n + 1) false) r := by
  have hblank : (isBlank d || d == '\n') = false := by rcases hd with rfl | rfl <;> rfl
  rw [linesText_plain_cons]
  simp [hblank]

/-- A text has ended after three delimiters, unless another one follows. -/
theorem linesText_ended (hn : 3 ≤ n) (hrest : rest.head? ≠ some d) :
    linesText d escapes (.plain n false) rest = some (List.replicate (n - 3) d, rest) := by
  cases rest with
  | nil => exact if_pos hn
  | cons c r =>
    have hne : c ≠ d := by simpa using hrest
    rw [linesText_plain_cons]
    simp [hn, hne]

/-- A text is closed by three delimiters, before which it may end with two more. -/
theorem linesText_close (hd : Delimits d) (hn : n ≤ 2) (hrest : rest.head? ≠ some d) :
    linesText d escapes (.plain n trimming) (d :: d :: d :: rest) =
      some (List.replicate n d, rest) := by
  rw [linesText_delimiter hd, if_neg (by omega), linesText_delimiter hd, if_neg (by omega),
    linesText_delimiter hd]
  by_cases htwo : n = 2
  · subst htwo
    rfl
  · rw [if_neg (by omega), linesText_ended (by omega) hrest]
    simp

theorem linesText_plain (hn : n ≤ 2) (hc : Printable c) (hne : c ≠ d)
    (hslash : escapes = true → c ≠ '\\') (htrim : trimming = true → c ≠ ' ' ∧ c ≠ '\t') :
    linesText d escapes (.plain n trimming) (c :: r) =
      prepend (List.replicate n d) (prepend [c] (linesText d escapes (.plain 0 false) r)) := by
  obtain ⟨hfeed, hreturn⟩ := ne_newline_of_printable hc
  have hskip : (trimming && (isBlank c || c == '\n')) = false := by
    cases trimming with
    | false => rfl
    | true => simpa [isBlank, hfeed] using htrim rfl
  have hescape : (escapes && c == '\\') = false := by
    cases escapes with
    | false => rfl
    | true => simpa using hslash rfl
  rw [linesText_plain_cons]
  simp only [hskip, hne, hreturn, hescape, isTextChar_of_printable hc, Bool.or_true, if_true,
    Bool.false_eq_true, if_false, if_neg (show ¬ 3 ≤ n by omega)]

theorem linesText_lineEnd (hd : Delimits d) (hn : n ≤ 2) (he : LineEnd es) :
    linesText d escapes (.plain n false) (es ++ r) =
      prepend (List.replicate n d) (prepend ['\n'] (linesText d escapes (.plain 0 false) r)) := by
  have hfeed : '\n' ≠ d := by rcases hd with rfl | rfl <;> decide
  have hreturn : '\r' ≠ d := by rcases hd with rfl | rfl <;> decide
  cases he with
  | feed =>
    rw [List.singleton_append, linesText_plain_cons]
    simp [hfeed, show ¬ 3 ≤ n by omega]
  | returnFeed =>
    rw [List.cons_append, List.singleton_append, linesText_plain_cons]
    simp [hreturn, show ¬ 3 ≤ n by omega]

theorem linesText_trimmed (hd : Delimits d) (hw : w = [' '] ∨ w = ['\t'] ∨ LineEnd w) :
    linesText d escapes (.plain 0 true) (w ++ r) = linesText d escapes (.plain 0 true) r := by
  have hreturn : '\r' ≠ d := by rcases hd with rfl | rfl <;> decide
  rcases hw with rfl | rfl | (_ | _)
  · rw [List.singleton_append, linesText_plain_cons]
    simp [isBlank]
  · rw [List.singleton_append, linesText_plain_cons]
    simp [isBlank]
  · rw [List.singleton_append, linesText_plain_cons]
    simp
  · rw [List.cons_append, List.singleton_append, linesText_plain_cons]
    simp [hreturn, isBlank, prepend]

theorem linesText_backslash (hd : Delimits d) (hn : n ≤ 2) :
    linesText d true (.plain n trimming) ('\\' :: r) =
      prepend (List.replicate n d) (linesText d true .escape r) := by
  have hne : '\\' ≠ d := by rcases hd with rfl | rfl <;> decide
  rw [linesText_plain_cons]
  simp [hne, isBlank, show ¬ 3 ≤ n by omega]

theorem linesText_escapedBlanks (hw : Blank w) (he : LineEnd es) :
    linesText d escapes .escapedBlanks (w ++ (es ++ r)) =
      linesText d escapes (.plain 0 true) r := by
  induction w with
  | nil =>
    rw [List.nil_append]
    cases he <;> rw [List.cons_append, linesText_escapedBlanks_cons] <;> simp [isBlank]
  | cons c w ih =>
    obtain ⟨hc, hw⟩ := List.forall_mem_cons.1 hw
    rw [List.cons_append, linesText_escapedBlanks_cons]
    simpa [isBlank_iff.2 hc] using ih hw

theorem linesText_escapedEnd (hw : Blank w) (he : LineEnd es) :
    linesText d escapes .escape (w ++ (es ++ r)) = linesText d escapes (.plain 0 true) r := by
  cases w with
  | nil =>
    rw [List.nil_append]
    cases he <;> rw [List.cons_append, linesText_escape_cons] <;> simp
  | cons c w =>
    obtain ⟨hc, hw⟩ := List.forall_mem_cons.1 hw
    rw [List.cons_append, linesText_escape_cons]
    have hblanks : linesText d escapes .escapedBlanks (w ++ (es ++ r)) = _ :=
      linesText_escapedBlanks hw he
    rcases hc with rfl | rfl <;> simpa [isBlank] using hblanks

/-- The rest of a text over several lines is read, after the delimiters before it. -/
theorem linesText_spelled (hd : Delimits d) (h : SpelledLines d escapes n trimming s cs)
    (hn : n ≤ 2) (hrest : rest.head? ≠ some d) (htrim : trimming = true → n = 0) :
    linesText d escapes (.plain n trimming) (cs ++ d :: d :: d :: rest) =
      some (List.replicate n d ++ s, rest) := by
  induction h with
  | nil => rw [List.nil_append, linesText_close hd hn hrest, List.append_nil]
  | @delimiter n _ s _ hlt _ ih =>
    rw [List.cons_append, linesText_delimiter hd, if_neg (by omega), ih (by omega) nofun,
      List.replicate_succ', List.append_assoc, List.singleton_append]
  | plain hc hne hslash hblank _ ih =>
    rw [List.cons_append, linesText_plain hn hc hne hslash hblank, ih (by omega) nofun]
    rfl
  | lineEnd he _ ih =>
    rw [List.append_assoc, linesText_lineEnd hd hn he, ih (by omega) nofun]
    rfl
  | trimmed hw _ ih =>
    obtain rfl := htrim rfl
    rw [List.append_assoc, linesText_trimmed hd hw, ih (by omega) fun _ => rfl]
  | escape hescapes hes _ ih =>
    subst hescapes
    rw [List.cons_append, List.cons_append, List.append_assoc, linesText_backslash hd hn,
      linesText_readsEscapes.spelled hes, ih (by omega) nofun]
    rfl
  | escapedEnd hescapes hw he _ ih =>
    subst hescapes
    rw [List.append_assoc, List.append_assoc, List.cons_append,
      linesText_backslash hd hn, linesText_escapedEnd hw he, ih (by omega) fun _ => rfl]
    rfl

theorem skipLineEnd_append (he : LineEnd es) : skipLineEnd (es ++ r) = r := by
  cases he <;> rfl

theorem skipLineEnd_eq (h : ∀ es ds, LineEnd es → cs ≠ es ++ ds) : skipLineEnd cs = cs := by
  unfold skipLineEnd
  split
  · exact absurd rfl (h ['\n'] _ .feed)
  · exact absurd rfl (h ['\r', '\n'] _ .returnFeed)
  · rfl

/-- A text over several lines is read. -/
theorem linesText_block (hd : Delimits d) (h : SpelledBlock d escapes s cs)
    (hrest : rest.head? ≠ some d) :
    linesText d escapes (.plain 0 false) (skipLineEnd (cs ++ d :: d :: d :: rest)) =
      some (s, rest) := by
  cases h with
  | below he h =>
    rw [List.append_assoc, skipLineEnd_append he]
    exact linesText_spelled hd h (by omega) hrest nofun
  | beside h hbeside =>
    rw [skipLineEnd_eq fun es ds he heq => ?_]
    · exact linesText_spelled hd h (by omega) hrest nofun
    · -- a line end at the front would be one of the text, or a delimiter
      cases cs with
      | nil => rcases hd with rfl | rfl <;> cases he <;> cases heq
      | cons c cs =>
        cases he with
        | feed =>
          obtain ⟨rfl, -⟩ := List.cons.inj heq
          exact hbeside ['\n'] cs .feed rfl
        | returnFeed =>
          obtain ⟨rfl, htail⟩ := List.cons.inj heq
          cases cs with
          | nil => rcases hd with rfl | rfl <;> cases htail
          | cons c' cs =>
            obtain ⟨rfl, -⟩ := List.cons.inj htail
            exact hbeside ['\r', '\n'] cs .returnFeed rfl

end

/-! ## Text values -/

/-- No quote of either kind follows. -/
def Unquoted (rest : List Char) : Prop := rest.head? ≠ some '"' ∧ rest.head? ≠ some '\''

theorem SpelledBasic.head (h : SpelledBasic s cs) : cs.head? ≠ some '"' := by
  cases h with
  | nil => nofun
  | plain _ hne => simpa using hne
  | escape => simp

theorem Literal.head (h : Literal cs) : cs.head? ≠ some '\'' := by
  cases cs with
  | nil => nofun
  | cons c cs => simpa using (h c List.mem_cons_self).2

/-- A text that begins with a quote is read as one of a line, unless two more quotes follow. -/
theorem text?_of_quote (h : ∀ cs', r ≠ '"' :: '"' :: cs') :
    text? ('"' :: r) = (basicText .plain r).map fun p => (String.ofList p.1, p.2) := by
  unfold text?
  split
  · rename_i heq
    obtain ⟨-, hr⟩ := List.cons.inj heq
    exact absurd hr (h _)
  · rename_i heq
    cases heq
  · rename_i heq
    rw [(List.cons.inj heq).2]
  · rename_i heq
    cases heq
  · rename_i hquote _
    exact absurd rfl (hquote r)

theorem text?_of_apostrophe (h : ∀ cs', r ≠ '\'' :: '\'' :: cs') :
    text? ('\'' :: r) = (literalText r).map fun p => (String.ofList p.1, p.2) := by
  unfold text?
  split
  · rename_i heq
    cases heq
  · rename_i heq
    obtain ⟨-, hr⟩ := List.cons.inj heq
    exact absurd hr (h _)
  · rename_i heq
    cases heq
  · rename_i heq
    rw [(List.cons.inj heq).2]
  · rename_i hquote
    exact absurd rfl (hquote r)

theorem append_ne_delimiters (hcs : cs.head? ≠ some d) (hrest : rest.head? ≠ some d)
    (cs' : List Char) :
    cs ++ d :: rest ≠ d :: d :: cs' := by
  cases cs with
  | nil =>
    cases rest with
    | nil => simp
    | cons c rest =>
      have hne : c ≠ d := by simpa using hrest
      simp [hne]
  | cons c cs =>
    have hne : c ≠ d := by simpa using hcs
    simp [hne]

/-- **A text value is read** off the front of what spells it. -/
theorem text?_spelled (h : SpelledText s cs) (hrest : Unquoted rest) :
    text? (cs ++ rest) = some (String.ofList s, rest) := by
  cases h with
  | @basic cs h =>
    have hshape : '"' :: cs ++ ['"'] ++ rest = '"' :: (cs ++ '"' :: rest) := by simp
    rw [hshape, text?_of_quote (append_ne_delimiters h.head hrest.1), basicText_spelled h]
    rfl
  | literal h =>
    have hshape : '\'' :: s ++ ['\''] ++ rest = '\'' :: (s ++ '\'' :: rest) := by simp
    rw [hshape, text?_of_apostrophe (append_ne_delimiters h.head hrest.2), literalText_spelled h]
    rfl
  | @basicLines cs h =>
    have hshape : '"' :: '"' :: '"' :: cs ++ ['"', '"', '"'] ++ rest =
        '"' :: '"' :: '"' :: (cs ++ '"' :: '"' :: '"' :: rest) := by simp
    rw [hshape]
    exact congrArg (Option.map _) (linesText_block (.inl rfl) h hrest.1)
  | @literalLines cs h =>
    have hshape : '\'' :: '\'' :: '\'' :: cs ++ ['\'', '\'', '\''] ++ rest =
        '\'' :: '\'' :: '\'' :: (cs ++ '\'' :: '\'' :: '\'' :: rest) := by simp
    rw [hshape]
    exact congrArg (Option.map _) (linesText_block (.inr rfl) h hrest.2)

/-! ## Keys -/

theorem isKeyChar_iff : isKeyChar c = true ↔ c.isAlphanum = true ∨ c = '_' ∨ c = '-' := by
  simp [isKeyChar, or_assoc]

/-- Nothing that can belong to a part of a key follows. -/
def EndsPart (rest : List Char) : Prop := ∀ c ∈ rest.head?, isKeyChar c = false

theorem takeWhile_append {p : Char → Bool} (hcs : ∀ c ∈ cs, p c = true)
    (hrest : ∀ c ∈ rest.head?, p c = false) : (cs ++ rest).takeWhile p = cs := by
  rw [List.takeWhile_append_of_pos hcs]
  cases rest with
  | nil => simp
  | cons c rest => simp [hrest c rfl]

theorem dropWhile_append {p : Char → Bool} (hcs : ∀ c ∈ cs, p c = true)
    (hrest : ∀ c ∈ rest.head?, p c = false) : (cs ++ rest).dropWhile p = rest := by
  rw [List.dropWhile_append_of_pos hcs]
  cases rest with
  | nil => simp
  | cons c rest => simp [hrest c rfl]

theorem keyPart?_bare (hne : cs ≠ []) (hcs : ∀ c ∈ cs, isKeyChar c = true) (hrest : EndsPart rest) :
    keyPart? (cs ++ rest) = some (String.ofList cs, rest) := by
  have htake := takeWhile_append hcs hrest
  have hdrop := dropWhile_append hcs hrest
  obtain ⟨c, ds, rfl⟩ := List.exists_cons_of_ne_nil hne
  have hc := hcs c List.mem_cons_self
  unfold keyPart?
  split
  · rename_i heq
    obtain ⟨rfl, -⟩ := List.cons.inj heq
    exact absurd hc (by decide)
  · rename_i heq
    obtain ⟨rfl, -⟩ := List.cons.inj heq
    exact absurd hc (by decide)
  · rw [htake, hdrop]
    rfl

theorem SpelledPart.read {p : String} (h : SpelledPart p cs) (hrest : EndsPart rest) :
    keyPart? (cs ++ rest) = some (p, rest) := by
  cases h with
  | bare hne hcs => exact keyPart?_bare hne (fun c hc => isKeyChar_iff.2 (hcs c hc)) hrest
  | @basic s cs h =>
    have hshape : '"' :: cs ++ ['"'] ++ rest = '"' :: (cs ++ '"' :: rest) := by simp
    rw [hshape, keyPart?, basicText_spelled h]
    rfl
  | @literal cs h =>
    have hshape : '\'' :: cs ++ ['\''] ++ rest = '\'' :: (cs ++ '\'' :: rest) := by simp
    rw [hshape, keyPart?, literalText_spelled h]
    rfl

/-- A part of a key begins with a character of its own. -/
theorem SpelledPart.head {p : String} (h : SpelledPart p cs) :
    ∃ c ds, cs = c :: ds ∧ (isKeyChar c = true ∨ c = '"' ∨ c = '\'') := by
  cases h with
  | bare hne hcs =>
    obtain ⟨c, ds, rfl⟩ := List.exists_cons_of_ne_nil hne
    exact ⟨c, ds, rfl, .inl (isKeyChar_iff.2 (hcs c List.mem_cons_self))⟩
  | basic => exact ⟨'"', _, rfl, .inr (.inl rfl)⟩
  | literal => exact ⟨'\'', _, rfl, .inr (.inr rfl)⟩

theorem SpelledKey.head {k : List String} (h : SpelledKey k cs) :
    ∃ c ds, cs = c :: ds ∧ (isKeyChar c = true ∨ c = '"' ∨ c = '\'') := by
  cases h with
  | one h => exact h.head
  | dotted h =>
    obtain ⟨c, ds, rfl, hc⟩ := h.head
    exact ⟨c, _, by simp only [List.cons_append]; rfl, hc⟩

theorem ne_of_keyHead (h : isKeyChar c = true ∨ c = '"' ∨ c = '\'') (d : Char)
    (hd : isKeyChar d = false ∧ d ≠ '"' ∧ d ≠ '\'') : c ≠ d := by
  rintro rfl
  rcases h with h | h | h
  · rw [hd.1] at h
    cases h
  · exact hd.2.1 h
  · exact hd.2.2 h

theorem isBlank_of_keyHead (h : isKeyChar c = true ∨ c = '"' ∨ c = '\'') : isBlank c = false := by
  refine Bool.eq_false_iff.2 fun hblank => ?_
  rcases isBlank_iff.1 hblank with hc | hc
  · exact ne_of_keyHead h ' ' (by decide) hc
  · exact ne_of_keyHead h '\t' (by decide) hc

theorem SpelledKey.ne_nil {k : List String} (h : SpelledKey k cs) : k ≠ [] := by
  cases h <;> simp

/-- After a key comes a character that closes it, after blanks. -/
def EndsKey (rest : List Char) : Prop := ∃ c r, rest = c :: r ∧ (c = '=' ∨ c = ']')

theorem endsPart_blank (hw : Blank w) (hrest : EndsPart rest) : EndsPart (w ++ rest) := by
  cases w with
  | nil => exact hrest
  | cons c w =>
    rintro _ ⟨⟩
    rcases hw c List.mem_cons_self with rfl | rfl <;> rfl

/-- After a dot come the parts left. -/
theorem keyParts?_dotted {p : String} {limit : Nat} {v : List Char} (hp : SpelledPart p cs)
    (hw : Blank w) (hv : Blank v) :
    keyParts? (limit + 1) (w ++ (cs ++ (v ++ '.' :: rest))) =
      (keyParts? limit rest).map fun r => (p :: r.1, r.2) := by
  have hpart := hp.read (endsPart_blank hv (show EndsPart ('.' :: rest) by rintro _ ⟨⟩; rfl))
  obtain ⟨c, ds, rfl, hc⟩ := hp.head
  rw [keyParts?, skipBlanks_append hw, List.cons_append, skipBlanks_cons (isBlank_of_keyHead hc),
    ← List.cons_append, hpart]
  simp only [Option.bind_eq_bind, Option.bind_some, skipBlanks_append hv,
    skipBlanks_cons (show isBlank '.' = false from rfl)]
  cases keyParts? limit rest <;> rfl

/-- **A key is read** off the front of what spells it, with blanks around it. -/
theorem keyParts?_spelled {k : List String} (h : SpelledKey k cs) {limit : Nat}
    (hlimit : k.length ≤ limit) (hw : Blank w) (hw' : Blank w') (hrest : EndsKey rest) :
    keyParts? limit (w ++ (cs ++ (w' ++ rest))) = some (k, rest) := by
  obtain ⟨e, r, rfl, he⟩ := hrest
  have hblank : isBlank e = false := by rcases he with rfl | rfl <;> rfl
  have hend : EndsPart (e :: r) := by
    rintro _ ⟨⟩
    rcases he with rfl | rfl <;> rfl
  induction h generalizing limit w with
  | @one p cs hp =>
    obtain ⟨n, rfl⟩ : ∃ n, limit = n + 1 := ⟨limit - 1, by simp at hlimit; omega⟩
    obtain ⟨c, ds, rfl, hc⟩ := hp.head
    have hpart := hp.read (endsPart_blank hw' hend)
    rw [keyParts?, skipBlanks_append hw, List.cons_append, skipBlanks_cons (isBlank_of_keyHead hc),
      ← List.cons_append, hpart]
    simp only [Option.bind_eq_bind, Option.bind_some, skipBlanks_append hw', skipBlanks_cons hblank]
    rcases he with rfl | rfl <;> rfl
  | @dotted p ps cs v v' ds hp hv hv' _ ih =>
    obtain ⟨n, rfl⟩ : ∃ n, limit = n + 1 := ⟨limit - 1, by simp at hlimit; omega⟩
    have hshape : cs ++ v ++ '.' :: v' ++ ds ++ (w' ++ e :: r) =
        cs ++ (v ++ '.' :: (v' ++ (ds ++ (w' ++ e :: r)))) := by simp
    rw [hshape, keyParts?_dotted hp hw hv, ih (by simpa using hlimit) hv']
    rfl

/-- A key of too many parts is not read. -/
theorem keyParts?_long {k : List String} (h : SpelledKey k cs) {limit : Nat}
    (hlimit : limit < k.length) (hw : Blank w) : keyParts? limit (w ++ (cs ++ rest)) = none := by
  induction h generalizing limit w with
  | one =>
    obtain rfl : limit = 0 := by simpa using hlimit
    rfl
  | @dotted p ps cs v v' ds hp hv hv' _ ih =>
    cases limit with
    | zero => rfl
    | succ limit =>
      have hshape : cs ++ v ++ '.' :: v' ++ ds ++ rest =
          cs ++ (v ++ '.' :: (v' ++ (ds ++ rest))) := by simp
      rw [hshape, keyParts?_dotted hp hw hv, ih (by simpa using hlimit) hv']
      rfl

end ClusterScaling.Toml
