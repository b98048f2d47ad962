import ClusterScaling.Json.Value
import ClusterScaling.Proofs.Json.Reading

/-!
# Written values are read back

`Value.tree` is what a reader sees of a written value. Both ways of writing a value spell it
(`Value.spelled_compact`, `Value.spelled_pretty`), so it is read back from either text. The numbers
of a value have to be such as JSON can spell (`Value.Regular`).
-/

namespace ClusterScaling.Json

/-! ## What is seen of a value -/

/-- The unit that stands for a written character: control characters without an escape of their own
are written as units. -/
def Glyph.written (c : Char) : Glyph :=
  if c.toNat < 0x20 ∧ c ∉ ['\x08', '\t', '\n', '\x0c', '\r'] then .unit c.toNat else .char c

/-- A written text. -/
def Literal.written (s : String) : Literal := ⟨s.toList.map Glyph.written, none⟩

namespace Value

mutual

/-- A written value. -/
def tree : Value → Tree
  | null => .null
  | bool b => .bool b
  | number n => .number n
  | string s => .string (.written s)
  | array items => .array (treeItems items)
  | object members => .object (treeMembers members)

/-- The items of a written array. -/
def treeItems : List Value → Items
  | [] => .done
  | v :: vs => .cons v.tree (treeItems vs)

/-- The members of a written object. -/
def treeMembers : List (String × Value) → Members
  | [] => .done
  | (k, v) :: ms => .cons (.written k) v.tree (treeMembers ms)

end

mutual

/-- All numbers of the value are written as JSON asks for. -/
def Regular : Value → Prop
  | null | bool _ | string _ => True
  | number n => n.SpelledBy n.chars
  | array items => RegularItems items
  | object members => RegularMembers members

/-- All numbers of the items are written as JSON asks for. -/
def RegularItems : List Value → Prop
  | [] => True
  | v :: vs => v.Regular ∧ RegularItems vs

/-- All numbers of the members are written as JSON asks for. -/
def RegularMembers : List (String × Value) → Prop
  | [] => True
  | (_, v) :: ms => v.Regular ∧ RegularMembers ms

end

end Value

/-! ## Texts -/

theorem hexValue?_digitChar : ∀ d < 16, Text.hexValue? (Nat.digitChar d) = some d := by decide

theorem written_of_ne {c : Char} (h : 0x20 ≤ c.toNat ∨ c ∈ ['\x08', '\t', '\n', '\x0c', '\r']) :
    Glyph.written c = .char c := by
  unfold Glyph.written
  rw [if_neg]
  rintro ⟨hlt, hmem⟩
  rcases h with h | h
  · omega
  · exact hmem h

/-- A control character without an escape of its own is written by its number. -/
theorem spelled_control {c : Char} (h : c.toNat < 0x20) :
    Glyph.SpelledBy (.unit c.toNat)
      ['\\', 'u', '0', '0', Nat.digitChar (c.toNat / 16), Nat.digitChar (c.toNat % 16)] := by
  have hunit := Glyph.SpelledBy.unit (a := '0') (b := '0') (w := 0) (x := 0) rfl rfl
    (hexValue?_digitChar (c.toNat / 16) (by omega))
    (hexValue?_digitChar (c.toNat % 16) (by omega))
  have hvalue : 16 * (16 * (16 * 0 + 0) + c.toNat / 16) + c.toNat % 16 = c.toNat := by omega
  rwa [hvalue] at hunit

theorem spelled_escape (c : Char) : (Glyph.written c).SpelledBy (Value.escape c) := by
  unfold Value.escape
  split
  · exact .escaped rfl
  · exact .escaped rfl
  · exact .escaped rfl
  · exact .escaped rfl
  · exact .escaped rfl
  · exact .escaped rfl
  · exact .escaped rfl
  · rename_i hquote hslash hb ht hn hf hr
    split
    · rename_i hlt
      have hwritten : Glyph.written c = .unit c.toNat := by
        unfold Glyph.written
        rw [if_pos]
        refine ⟨hlt, ?_⟩
        simp only [List.mem_cons, List.not_mem_nil, or_false]
        rintro (rfl | rfl | rfl | rfl | rfl)
        · exact hb rfl
        · exact ht rfl
        · exact hn rfl
        · exact hf rfl
        · exact hr rfl
      rw [hwritten]
      exact spelled_control hlt
    · rename_i hge
      rw [written_of_ne (.inl (by omega))]
      exact .plain hquote hslash (by omega)

theorem spelled_glyphs (cs : List Char) :
    SpelledGlyphs (cs.map Glyph.written) (cs.flatMap Value.escape) := by
  induction cs with
  | nil => exact .nil
  | cons c cs ih => exact .cons (spelled_escape c) ih

theorem spelled_literal (s : String) : (Literal.written s).SpelledBy (Value.literal s) :=
  .quoted (spelled_glyphs s.toList)

theorem decode_char (cut : Option Fault) (c : Char) (gs : List Glyph) :
    Literal.decode cut (.char c :: gs) = (Literal.decode cut gs).map (c :: ·) := by
  rw [Literal.decode]

theorem decode_unit {n : Nat} (h : n < 0xd800) (cut : Option Fault) (gs : List Glyph) :
    Literal.decode cut (.unit n :: gs) = (Literal.decode cut gs).map (Char.ofNat n :: ·) := by
  have hlow : Literal.isLowSurrogate n = false := by
    simp [Literal.isLowSurrogate]
    omega
  have hhigh : Literal.isHighSurrogate n = false := by
    simp [Literal.isHighSurrogate]
    omega
  rw [Literal.decode.eq_def]
  simp [hlow, hhigh]

theorem decode_written (cs : List Char) :
    Literal.decode none (cs.map Glyph.written) = .ok cs := by
  induction cs with
  | nil => rfl
  | cons c cs ih =>
    rw [List.map_cons, Glyph.written]
    split
    · rw [decode_unit (by omega), ih, Char.ofNat_toNat]
      rfl
    · rw [decode_char, ih]
      rfl

/-- A text is read as it was written. -/
@[simp] theorem text_written (s : String) : (Literal.written s).text = .ok s := by
  simp [Literal.text, Literal.written, decode_written, Except.map]

/-! ## Integers -/

theorem wholeDigits_digits (n : Nat) : WholeDigits (Decimal.digits n) := by
  fun_induction Decimal.digits n with
  | case1 n h =>
    by_cases hn : n = 0
    · subst hn
      exact .zero
    · refine .other (Decimal.isDigit_digitChar h) (fun hzero => hn ?_) (by simp)
      rw [← Decimal.digitValue_digitChar h, hzero]
      rfl
  | case2 n h ih =>
    cases hd : Decimal.digits (n / 10) with
    | nil => exact absurd hd (Decimal.digits_ne_nil _)
    | cons c cs =>
      rw [hd] at ih
      cases ih with
      | zero =>
        -- no digit but that of zero begins with a zero
        have hzero : n / 10 = 0 := by
          rw [← Decimal.ofDigits_digits (n / 10), hd]
          rfl
        omega
      | other hc hzero hcs =>
        refine .other hc hzero fun d hd => ?_
        rcases List.mem_append.1 hd with hd | hd
        · exact hcs d hd
        · rw [List.mem_singleton.1 hd]
          exact Decimal.isDigit_digitChar (Nat.mod_lt _ (by decide))

theorem spelled_ofInt (n : Int) : (Numeral.ofInt n).SpelledBy (Numeral.ofInt n).chars := by
  have h : (Numeral.ofInt n).SpelledBy
      (signChars (decide (n < 0)) ++ Decimal.digits n.natAbs ++ [] ++ []) :=
    .mk (wholeDigits_digits _) .none .none
  simpa [Numeral.chars, Numeral.ofInt, signChars] using h

/-! ## All values -/

theorem blank_newline (level : Nat) : Blank (Value.newline level) := by
  intro c hc
  simp only [Value.newline, List.mem_cons, List.mem_replicate] at hc
  rcases hc with rfl | ⟨-, rfl⟩ <;> simp

theorem blank_nil : Blank [] := nofun

namespace Value

mutual

theorem spelled_compact : (v : Value) → v.Regular → v.tree.SpelledBy v.compactChars
  | .null, _ => .null
  | .bool true, _ => .bool
  | .bool false, _ => .bool
  | .number _, h => .number h
  | .string s, _ => .string (spelled_literal s)
  | .array items, h => .array (spelled_compactItems items h true)
  | .object members, h => .object (spelled_compactMembers members h true)

theorem spelled_compactItems : (items : List Value) → RegularItems items → (first : Bool) →
    (treeItems items).SpelledBy first (compactItems first items)
  | [], _, _ => .done blank_nil
  | v :: vs, h, first => by
    have hspelled : (Items.cons v.tree (treeItems vs)).SpelledBy first _ :=
      .cons blank_nil blank_nil (spelled_compact v h.1) (spelled_compactItems vs h.2 false)
    simpa [compactItems, treeItems, comma] using hspelled

theorem spelled_compactMembers : (members : List (String × Value)) → RegularMembers members →
    (first : Bool) → (treeMembers members).SpelledBy first (compactMembers first members)
  | [], _, _ => .done blank_nil
  | (k, v) :: ms, h, first => by
    have hspelled :
        (Members.cons (.written k) v.tree (treeMembers ms)).SpelledBy first _ :=
      .cons blank_nil blank_nil (spelled_literal k) blank_nil blank_nil (spelled_compact v h.1)
        (spelled_compactMembers ms h.2 false)
    simpa [compactMembers, treeMembers, comma] using hspelled

end

mutual

theorem spelled_pretty : (v : Value) → v.Regular → (level : Nat) →
    v.tree.SpelledBy (v.prettyChars level)
  | .null, _, _ => .null
  | .bool true, _, _ => .bool
  | .bool false, _, _ => .bool
  | .number _, h, _ => .number h
  | .string s, _, _ => .string (spelled_literal s)
  | .array [], _, _ => .array (.done blank_nil)
  | .array (v :: vs), h, level => .array (spelled_prettyItems (v :: vs) h level true)
  | .object [], _, _ => .object (.done blank_nil)
  | .object (m :: ms), h, level => .object (spelled_prettyMembers (m :: ms) h level true)

theorem spelled_prettyItems : (items : List Value) → RegularItems items → (level : Nat) →
    (first : Bool) → (treeItems items).SpelledBy first (prettyItems level first items)
  | [], _, level, _ => .done (blank_newline level)
  | v :: vs, h, level, first => by
    have hspelled : (Items.cons v.tree (treeItems vs)).SpelledBy first _ :=
      .cons blank_nil (blank_newline (level + 1)) (spelled_pretty v h.1 (level + 1))
        (spelled_prettyItems vs h.2 level false)
    simpa [prettyItems, treeItems, comma] using hspelled

theorem spelled_prettyMembers : (members : List (String × Value)) → RegularMembers members →
    (level : Nat) → (first : Bool) →
    (treeMembers members).SpelledBy first (prettyMembers level first members)
  | [], _, level, _ => .done (blank_newline level)
  | (k, v) :: ms, h, level, first => by
    have hblank : Blank [' '] := by simp [Blank]
    have hspelled :
        (Members.cons (.written k) v.tree (treeMembers ms)).SpelledBy first _ :=
      .cons blank_nil (blank_newline (level + 1)) (spelled_literal k) blank_nil hblank
        (spelled_pretty v h.1 (level + 1)) (spelled_prettyMembers ms h.2 level false)
    simpa [prettyMembers, treeMembers, comma] using hspelled

end

variable {v : Value}

theorem spelledDocument_compact (h : v.Regular) : SpelledDocument v.tree v.compact.toList := by
  have hspelled := SpelledDocument.mk blank_nil (v.spelled_compact h) blank_nil
  rw [compact, String.toList_ofList]
  simpa using hspelled

/-- **The compact text of a value** is read as the value. -/
theorem read_compact (h : v.Regular) :
    Document.read (Text.piecesOfChars v.compact.toList) = ⟨v.tree, false⟩ :=
  Document.read_spelled (spelledDocument_compact h)

/-- **The pretty text of a value** is read as the value. -/
theorem read_pretty (h : v.Regular) :
    Document.read (Text.piecesOfChars v.pretty.toList) = ⟨v.tree, false⟩ := by
  have hspelled := SpelledDocument.mk blank_nil (v.spelled_pretty h 0) blank_nil
  rw [pretty, String.toList_ofList]
  exact Document.read_spelled (by simpa using hspelled)

/-- The pretty text of a value on lines of its own is read as the value. -/
theorem read_prettyLines (h : v.Regular) :
    Document.read (Text.piecesOfChars (v.pretty ++ "\n").toList) = ⟨v.tree, false⟩ := by
  have hblank : Blank ['\n'] := by simp [Blank]
  have hspelled := SpelledDocument.mk blank_nil (v.spelled_pretty h 0) hblank
  rw [String.toList_append, pretty, String.toList_ofList]
  exact Document.read_spelled hspelled

end Value

end ClusterScaling.Json
