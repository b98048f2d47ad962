import ClusterScaling.Proofs.Json.Spelling

/-!
# Reading spelled values

The reader gives each value back from any text that spells it (`Document.read_spelled`). A number
is complete only at the character after it, so `Reader.Holds` says of a reader that it goes on as
one that has read a whole value would, whatever may come next.
-/

namespace ClusterScaling.Json

open Reader

/-! ## Reading character by character -/

namespace Reader

/-- The reader after some characters. -/
def take (r : Reader) (cs : List Char) : Reader := cs.foldl (fun r c => r.step (.char c)) r

variable {r : Reader} {stack : List Frame} {t : Tree} {c : Char} {cs ds w : List Char}

@[simp] theorem take_nil : r.take [] = r := rfl

@[simp] theorem take_cons : r.take (c :: cs) = (r.step (.char c)).take cs := rfl

@[simp] theorem take_append : r.take (cs ++ ds) = (r.take cs).take ds := List.foldl_append

theorem foldl_piecesOfChars : (Text.piecesOfChars cs).foldl step r = r.take cs := by
  simp [Text.piecesOfChars, List.foldl_map, take]

/-! ## Modes -/

theorem step_text {l : OpenLiteral} : step ⟨.text l, stack⟩ (.char c) =
    match l.step (.char c) with
    | .inl l => ⟨.text l, stack⟩
    | .inr l => if l.cut.isNone then deliver (.string l) stack else stop (.string l) stack := rfl

theorem step_key {before : List (Literal × Tree)} {l : OpenLiteral} :
    step ⟨.key before l, stack⟩ (.char c) =
      match l.step (.char c) with
      | .inl l => ⟨.key before l, stack⟩
      | .inr key =>
        if key.cut.isNone then ⟨.colon before key, stack⟩
        else stop (.fault .endInObject) (.member before key :: stack) := rfl

theorem step_number {o : OpenNumeral} : step ⟨.number o, stack⟩ (.char c) =
    match o.step? c with
    | some o => ⟨.number o, stack⟩
    | none =>
      match o.close (some c) with
      | .cutNumber atEnd => stop (.cutNumber atEnd) stack
      | t => (deliver t stack).stepAfter (.char c) := rfl

/-! ## White space -/

theorem isSpace_of_mem (h : c ∈ [' ', '\n', '\t', '\r']) : isSpace (.char c) = true := by
  simp only [List.mem_cons, List.not_mem_nil, or_false] at h
  rcases h with rfl | rfl | rfl | rfl <;> rfl

theorem take_blank (h : ∀ c, isSpace (.char c) = true → r.step (.char c) = r) (hw : Blank w) :
    r.take w = r := by
  induction w with
  | nil => rfl
  | cons c w ih =>
    obtain ⟨hc, hw⟩ := List.forall_mem_cons.1 hw
    rw [take_cons, h c (isSpace_of_mem hc), ih hw]

theorem take_value_blank (hw : Blank w) : take ⟨.value, stack⟩ w = ⟨.value, stack⟩ :=
  take_blank (fun _ hc => if_pos hc) hw

theorem take_firstItem_blank (hw : Blank w) : take ⟨.firstItem, stack⟩ w = ⟨.firstItem, stack⟩ :=
  take_blank (fun _ hc => if_pos hc) hw

theorem take_firstKey_blank (hw : Blank w) : take ⟨.firstKey, stack⟩ w = ⟨.firstKey, stack⟩ :=
  take_blank (fun _ hc => if_pos hc) hw

theorem take_nextKey_blank {before : List (Literal × Tree)} (hw : Blank w) :
    take ⟨.nextKey before, stack⟩ w = ⟨.nextKey before, stack⟩ :=
  take_blank (fun _ hc => if_pos hc) hw

theorem take_colon_blank {before : List (Literal × Tree)} {key : Literal} (hw : Blank w) :
    take ⟨.colon before key, stack⟩ w = ⟨.colon before key, stack⟩ :=
  take_blank (fun _ hc => if_pos hc) hw

theorem take_afterItem_blank {before : List Tree} (hw : Blank w) :
    take ⟨.afterItem before, stack⟩ w = ⟨.afterItem before, stack⟩ :=
  take_blank (fun _ hc => if_pos hc) hw

theorem take_afterMember_blank {before : List (Literal × Tree)} (hw : Blank w) :
    take ⟨.afterMember before, stack⟩ w = ⟨.afterMember before, stack⟩ :=
  take_blank (fun _ hc => if_pos hc) hw

theorem take_finished_blank (hw : Blank w) : take ⟨.finished t, stack⟩ w = ⟨.finished t, stack⟩ :=
  take_blank (fun _ hc => if_pos hc) hw

end Reader

/-! ## Texts -/

section
variable {g : Glyph} {gs : List Glyph} {cs : List Char} {stack : List Frame} {c : Char}

/-- In the mode `m` the reader goes on with a literal as the literal goes on. -/
def TakesLiteral (m : OpenLiteral → Mode) : Prop :=
  ∀ {l l' : OpenLiteral} {c : Char} {stack : List Frame}, l.step (.char c) = .inl l' →
    step ⟨m l, stack⟩ (.char c) = ⟨m l', stack⟩

theorem takesLiteral_text : TakesLiteral .text := fun h => by rw [step_text, h]

theorem takesLiteral_key (before : List (Literal × Tree)) : TakesLiteral (.key before) :=
  fun h => by rw [step_key, h]

theorem utf8Size_of_hexValue? {v : Nat} (h : Text.hexValue? c = some v) : c.utf8Size = 1 := by
  have hle : c.val ≤ 0x7f := by
    rw [UInt32.le_iff_toNat_le]
    unfold Text.hexValue? at h
    split at h
    · rename_i hd
      simp only [Char.isDigit, Bool.and_eq_true, decide_eq_true_eq, ge_iff_le,
        UInt32.le_iff_toNat_le] at hd
      exact Nat.le_trans hd.2 (by decide)
    · split at h
      · rename_i hd
        simp only [Bool.and_eq_true, decide_eq_true_eq, Char.le_def,
          UInt32.le_iff_toNat_le] at hd
        exact Nat.le_trans hd.2 (by decide)
      · split at h
        · rename_i hd
          simp only [Bool.and_eq_true, decide_eq_true_eq, Char.le_def,
            UInt32.le_iff_toNat_le] at hd
          exact Nat.le_trans hd.2 (by decide)
        · cases h
  simp [Char.utf8Size, hle]

theorem step_unit {n u v : Nat} (hn : n < 3) (h : Text.hexValue? c = some v) :
    OpenLiteral.step ⟨gs, .unit n (some u)⟩ (.char c) =
      .inl ⟨gs, .unit (n + 1) (some (16 * u + v))⟩ := by
  have hsize : n + 1 < 4 := by omega
  simp [OpenLiteral.step, Text.Piece.size, utf8Size_of_hexValue? h, h, hsize]

theorem step_lastUnit {u v : Nat} (h : Text.hexValue? c = some v) :
    OpenLiteral.step ⟨gs, .unit 3 (some u)⟩ (.char c) =
      .inl ⟨.unit (16 * u + v) :: gs, .outside⟩ := by
  simp [OpenLiteral.step, Text.Piece.size, utf8Size_of_hexValue? h, h]

theorem take_glyph {m : OpenLiteral → Mode} (hm : TakesLiteral m) (h : g.SpelledBy cs) :
    take ⟨m ⟨gs, .outside⟩, stack⟩ cs = ⟨m ⟨g :: gs, .outside⟩, stack⟩ := by
  have hbackslash : OpenLiteral.step ⟨gs, .outside⟩ (.char '\\') = .inl ⟨gs, .opened⟩ := rfl
  cases h with
  | @plain c hquote hslash hcontrol =>
    have hstep : OpenLiteral.step ⟨gs, .outside⟩ (.char c) = .inl ⟨.char c :: gs, .outside⟩ := by
      have hprintable : ¬ c.toNat < 0x20 := by omega
      unfold OpenLiteral.step
      split <;> simp_all
    rw [take_cons, hm hstep, take_nil]
  | @escaped e c he =>
    have hne : e ≠ 'u' := by
      rintro rfl
      cases he
    have hstep : OpenLiteral.step ⟨gs, .opened⟩ (.char e) = .inl ⟨.char c :: gs, .outside⟩ := by
      unfold OpenLiteral.step
      split <;> simp_all
    rw [take_cons, hm hbackslash, take_cons, hm hstep, take_nil]
  | @unit a b c d w x y z ha hb hc hd =>
    have hu : OpenLiteral.step ⟨gs, .opened⟩ (.char 'u') = .inl ⟨gs, .unit 0 (some 0)⟩ := rfl
    have hfirst : OpenLiteral.step ⟨gs, .unit 0 (some 0)⟩ (.char a) =
        .inl ⟨gs, .unit 1 (some w)⟩ := by
      simpa only [Nat.mul_zero, Nat.zero_add] using step_unit (u := 0) (by omega) ha
    rw [take_cons, hm hbackslash, take_cons, hm hu, take_cons, hm hfirst, take_cons,
      hm (step_unit (by omega) hb), take_cons, hm (step_unit (by omega) hc), take_cons,
      hm (step_lastUnit hd), take_nil]

theorem take_glyphs {m : OpenLiteral → Mode} (hm : TakesLiteral m) (before : List Glyph)
    (h : SpelledGlyphs gs cs) :
    take ⟨m ⟨before, .outside⟩, stack⟩ cs = ⟨m ⟨gs.reverse ++ before, .outside⟩, stack⟩ := by
  induction h generalizing before with
  | nil => rfl
  | cons hg _ ih =>
    rw [take_append, take_glyph hm hg, ih]
    simp

end

/-! ## Values that are read -/

/-- A character that may stand after a value. -/
def Ends (c : Char) : Prop := c ∈ [' ', '\n', '\t', '\r', ',', ']', '\x7d']

namespace Reader

/-- The reader goes on as one that has read the value `t`. -/
structure Holds (r : Reader) (t : Tree) (stack : List Frame) : Prop where
  step_eq : ∀ c, Ends c → r.step (.char c) = (deliver t stack).step (.char c)
  finish_eq : r.finish = (deliver t stack).finish

theorem holds_deliver (t : Tree) (stack : List Frame) : Holds (deliver t stack) t stack :=
  ⟨fun _ _ => rfl, rfl⟩

/-- A value begins with a character that is no white space and closes nothing. -/
theorem step_value {stack : List Frame} {c : Char} (hs : isSpace (.char c) = false)
    (hb : c ≠ ']') : step ⟨.value, stack⟩ (.char c) = openValue stack (.char c) := by
  have hspace : ¬ isSpace (.char c) = true := by simp [hs]
  have hclose : ¬ Text.Piece.char c = .char ']' := by simpa using hb
  rcases stack with _ | ⟨_ | _ | _, stack⟩
  · exact if_neg hspace
  · exact (if_neg hspace).trans (if_neg hclose)
  · exact if_neg hspace
  · exact if_neg hspace

theorem step_firstItem {stack : List Frame} {c : Char} (hs : isSpace (.char c) = false)
    (hb : c ≠ ']') :
    step ⟨.firstItem, stack⟩ (.char c) = step ⟨.value, .item [] :: stack⟩ (.char c) := by
  have hspace : ¬ isSpace (.char c) = true := by simp [hs]
  have hclose : ¬ Text.Piece.char c = .char ']' := by simpa using hb
  rw [step_value hs hb]
  exact (if_neg hspace).trans (if_neg hclose)

end Reader

/-! ## Numbers -/

namespace OpenNumeral

/-- The number read so far is the numeral `n`, and it may end here. -/
structure Complete (o : OpenNumeral) (n : Numeral) : Prop where
  part : o.part = .zero ∨ o.part = .whole ∨ o.part = .fraction ∨ o.part = .exponent
  eq : n = ⟨o.negative, o.whole.reverse, o.fraction.reverse,
    if o.part = .exponent then
      some (if o.negativeExponent then -(Decimal.ofDigits o.exponent.reverse : Int)
        else Decimal.ofDigits o.exponent.reverse)
    else none⟩

/-- The number after more digits of the part that was read last. -/
def push (o : OpenNumeral) (cs : List Char) : OpenNumeral :=
  match o.part with
  | .whole => { o with whole := cs.reverse ++ o.whole }
  | .fraction => { o with fraction := cs.reverse ++ o.fraction }
  | .exponent => { o with exponent := cs.reverse ++ o.exponent }
  | _ => o

variable {o : OpenNumeral} {n : Numeral} {c : Char}

theorem Complete.close_end (h : o.Complete n) : o.close none = .number n := by
  obtain ⟨hp | hp | hp | hp, rfl⟩ := h <;> simp [close, hp]

theorem Complete.close_eq (h : o.Complete n) (hc : c.isDigit = false) :
    o.close (some c) = .number n := by
  obtain ⟨hp | hp | hp | hp, rfl⟩ := h <;> simp [close, hp, hc]

theorem Complete.step?_eq_none (h : o.Complete n) (hc : c.isDigit = false) (hpoint : c ≠ '.')
    (he : c ≠ 'e') (hE : c ≠ 'E') : o.step? c = none := by
  obtain ⟨hp | hp | hp | hp, -⟩ := h <;> simp [step?, hp, hc, hpoint, he, hE]

end OpenNumeral

section
variable {o : OpenNumeral} {n : Numeral} {stack : List Frame} {c : Char} {cs : List Char}

theorem step_digit {o' : OpenNumeral} (h : o.step? c = some o') :
    step ⟨.number o, stack⟩ (.char c) = ⟨.number o', stack⟩ := by
  rw [step_number, h]

/-- A number is complete when a character comes that may stand after it. -/
theorem holds_number (h : o.Complete n) : Holds ⟨.number o, stack⟩ (.number n) stack := by
  refine ⟨fun c hc => ?_, ?_⟩
  · have hdigit : c.isDigit = false ∧ c ≠ '.' ∧ c ≠ 'e' ∧ c ≠ 'E' := by
      simp only [Ends, List.mem_cons, List.not_mem_nil, or_false] at hc
      rcases hc with rfl | rfl | rfl | rfl | rfl | rfl | rfl <;> decide
    obtain ⟨hdigit, hpoint, he, hE⟩ := hdigit
    have hafter : (deliver (.number n) stack).step (.char c) =
        (deliver (.number n) stack).stepAfter (.char c) := by
      rcases stack with _ | ⟨_ | _ | _, stack⟩ <;> rfl
    rw [hafter]
    rw [step_number, h.step?_eq_none hdigit hpoint he hE, h.close_eq hdigit]
  · have hafter : (deliver (.number n) stack).finish =
        (deliver (.number n) stack).finishAfter := by
      rcases stack with _ | ⟨_ | _ | _, stack⟩ <;> rfl
    rw [hafter]
    simp only [finish, h.close_end]

theorem take_digits (hp : o.part = .whole ∨ o.part = .fraction ∨ o.part = .exponent)
    (hcs : ∀ c ∈ cs, c.isDigit = true) :
    take ⟨.number o, stack⟩ cs = ⟨.number (o.push cs), stack⟩ := by
  induction cs generalizing o with
  | nil =>
    obtain ⟨part, negative, whole, fraction, minus, exponent⟩ := o
    rcases hp with rfl | rfl | rfl <;> rfl
  | cons c cs ih =>
    obtain ⟨hc, hcs⟩ := List.forall_mem_cons.1 hcs
    have hstep : o.step? c = some (o.push [c]) := by
      rcases hp with hp | hp | hp <;> simp [OpenNumeral.step?, OpenNumeral.push, hp, hc]
    have hpart : (o.push [c]).part = o.part := by
      rcases hp with hp | hp | hp <;> simp [OpenNumeral.push, hp]
    have hpush : (o.push [c]).push cs = o.push (c :: cs) := by
      rcases hp with hp | hp | hp <;> simp [OpenNumeral.push, hp]
    rw [take_cons, step_digit hstep, ih (by rwa [hpart]) hcs, hpush]

theorem openValue_number (hc : (c == '-' || c.isDigit) = true) :
    openValue stack (.char c) = ⟨.number (.start c), stack⟩ := by
  unfold openValue
  split <;> rename_i heq <;> cases heq
  case h_7.refl => rw [if_pos hc]
  all_goals cases hc

theorem isDigit_ne {d : Char} (hc : c.isDigit = true) (hd : d.isDigit = false) : c ≠ d := by
  rintro rfl
  rw [hc] at hd
  cases hd

theorem isSpace_of_isDigit (hc : c.isDigit = true) : isSpace (.char c) = false := by
  simp [isSpace, isDigit_ne hc (d := ' ') rfl, isDigit_ne hc (d := '\n') rfl,
    isDigit_ne hc (d := '\t') rfl, isDigit_ne hc (d := '\r') rfl]

/-- What a number begins with is read as its sign and its first digit. -/
theorem step_firstDigit (negative : Bool) (hc : c.isDigit = true) :
    take ⟨.value, stack⟩ (signChars negative ++ [c]) =
      ⟨.number ⟨if c == '0' then .zero else .whole, negative, [c], [], false, []⟩, stack⟩ := by
  have hminus : (c == '-') = false := by simpa using isDigit_ne hc rfl
  cases negative with
  | false =>
    change take ⟨.value, stack⟩ [c] = _
    rw [take_cons, step_value (isSpace_of_isDigit hc) (isDigit_ne hc rfl),
      openValue_number (by simp [hc]), take_nil]
    simp [OpenNumeral.start, hminus]
  | true =>
    change take ⟨.value, stack⟩ ['-', c] = _
    have hsign : step ⟨.value, stack⟩ (.char '-') =
        ⟨.number ⟨.sign, true, [], [], false, []⟩, stack⟩ := by
      rw [step_value rfl (by decide), openValue_number rfl]
      rfl
    have hfirst : OpenNumeral.step? ⟨.sign, true, [], [], false, []⟩ c =
        some ⟨if c == '0' then .zero else .whole, true, [c], [], false, []⟩ := by
      simp [OpenNumeral.step?, hc]
    rw [take_cons, hsign, take_cons, step_digit hfirst, take_nil]

/-- The digits before the point, with the sign. -/
theorem take_whole {negative : Bool} {whole : List Char} (h : WholeDigits whole) :
    ∃ part, (part = .zero ∨ part = .whole) ∧
      take ⟨.value, stack⟩ (signChars negative ++ whole) =
        ⟨.number ⟨part, negative, whole.reverse, [], false, []⟩, stack⟩ := by
  cases h with
  | zero => exact ⟨.zero, .inl rfl, step_firstDigit negative (by decide)⟩
  | @other c cs hc hzero hcs =>
    refine ⟨.whole, .inr rfl, ?_⟩
    have hsplit : signChars negative ++ c :: cs = (signChars negative ++ [c]) ++ cs := by simp
    rw [hsplit, take_append, step_firstDigit negative hc]
    simp only [beq_iff_eq, hzero, if_false]
    rw [take_digits (.inl rfl) hcs]
    simp [OpenNumeral.push]

theorem take_fraction {part : NumeralPart} {negative : Bool} {whole fraction fs : List Char}
    (h : SpelledFraction fraction fs) (hp : part = .zero ∨ part = .whole) :
    ∃ part', (part' = .zero ∨ part' = .whole ∨ part' = .fraction) ∧
      take ⟨.number ⟨part, negative, whole, [], false, []⟩, stack⟩ fs =
        ⟨.number ⟨part', negative, whole, fraction.reverse, false, []⟩, stack⟩ := by
  cases h with
  | none => exact ⟨part, by rcases hp with rfl | rfl <;> simp, rfl⟩
  | point hdigits =>
    obtain ⟨hne, hdigits⟩ := hdigits
    cases hcs : fraction with
    | nil => exact absurd hcs hne
    | cons c cs =>
      rw [hcs] at hdigits
      obtain ⟨hc, hdigits⟩ := List.forall_mem_cons.1 hdigits
      refine ⟨.fraction, by simp, ?_⟩
      have hpoint : OpenNumeral.step? ⟨part, negative, whole, [], false, []⟩ '.' =
          some ⟨.point, negative, whole, [], false, []⟩ := by
        rcases hp with rfl | rfl <;> rfl
      have hfirst : OpenNumeral.step? ⟨.point, negative, whole, [], false, []⟩ c =
          some ⟨.fraction, negative, whole, [c], false, []⟩ := by
        simp [OpenNumeral.step?, hc]
      rw [take_cons, step_digit hpoint, take_cons, step_digit hfirst,
        take_digits (.inr (.inl rfl)) hdigits]
      simp [OpenNumeral.push]

/-- The digits of an exponent come after its mark or after its sign. -/
theorem take_exponentDigits {before : NumeralPart} {negative minus : Bool}
    {whole fraction : List Char} (hcs : Digits cs)
    (hbefore : before = .exponentMark ∨ before = .exponentSign) :
    take ⟨.number ⟨before, negative, whole, fraction, minus, []⟩, stack⟩ cs =
      ⟨.number ⟨.exponent, negative, whole, fraction, minus, cs.reverse⟩, stack⟩ := by
  obtain ⟨hne, hcs⟩ := hcs
  cases cs with
  | nil => exact absurd rfl hne
  | cons c cs =>
    obtain ⟨hc, hcs⟩ := List.forall_mem_cons.1 hcs
    have hfirst : OpenNumeral.step? ⟨before, negative, whole, fraction, minus, []⟩ c =
        some ⟨.exponent, negative, whole, fraction, minus, [c]⟩ := by
      rcases hbefore with rfl | rfl <;> simp [OpenNumeral.step?, hc]
    rw [take_cons, step_digit hfirst, take_digits (.inr (.inr rfl)) hcs]
    simp [OpenNumeral.push]

theorem take_exponent {part : NumeralPart} {negative : Bool} {whole fraction es : List Char}
    {exponent : Option Int} (h : SpelledExponent exponent es)
    (hp : part = .zero ∨ part = .whole ∨ part = .fraction) :
    ∃ o, take ⟨.number ⟨part, negative, whole, fraction, false, []⟩, stack⟩ es =
        ⟨.number o, stack⟩ ∧
      o.Complete ⟨negative, whole.reverse, fraction.reverse, exponent⟩ := by
  have hmark : ∀ {mark : Char}, mark = 'e' ∨ mark = 'E' →
      OpenNumeral.step? ⟨part, negative, whole, fraction, false, []⟩ mark =
        some ⟨.exponentMark, negative, whole, fraction, false, []⟩ := by
    rintro mark (rfl | rfl) <;> rcases hp with rfl | rfl | rfl <;> rfl
  cases h with
  | none =>
    refine ⟨_, rfl, ?_, ?_⟩
    · rcases hp with rfl | rfl | rfl <;> simp
    · rcases hp with rfl | rfl | rfl <;> simp
  | @unsigned _ cs he hcs =>
    refine ⟨⟨.exponent, negative, whole, fraction, false, cs.reverse⟩, ?_, by simp, by simp⟩
    rw [take_cons, step_digit (hmark he), take_exponentDigits hcs (.inl rfl)]
  | @positive _ cs he hcs =>
    have hsign : OpenNumeral.step? ⟨.exponentMark, negative, whole, fraction, false, []⟩ '+' =
        some ⟨.exponentSign, negative, whole, fraction, false, []⟩ := rfl
    refine ⟨⟨.exponent, negative, whole, fraction, false, cs.reverse⟩, ?_, by simp, by simp⟩
    rw [take_cons, step_digit (hmark he), take_cons, step_digit hsign,
      take_exponentDigits hcs (.inr rfl)]
  | @negative _ cs he hcs =>
    have hsign : OpenNumeral.step? ⟨.exponentMark, negative, whole, fraction, false, []⟩ '-' =
        some ⟨.exponentSign, negative, whole, fraction, true, []⟩ := rfl
    refine ⟨⟨.exponent, negative, whole, fraction, true, cs.reverse⟩, ?_, by simp, by simp⟩
    rw [take_cons, step_digit (hmark he), take_cons, step_digit hsign,
      take_exponentDigits hcs (.inr rfl)]

theorem holds_numeral (h : n.SpelledBy cs) (stack : List Frame) :
    Holds (take ⟨.value, stack⟩ cs) (.number n) stack := by
  obtain ⟨hwhole, hfraction, hexponent⟩ := h
  obtain ⟨part, hpart, hw⟩ := take_whole hwhole
  obtain ⟨part', hpart', hf⟩ := take_fraction hfraction hpart
  obtain ⟨o, he, hcomplete⟩ := take_exponent hexponent hpart'
  rw [take_append, take_append, hw, hf, he]
  simpa using holds_number hcomplete

end

/-! ## Text literals and words -/

section
variable {l : Literal} {cs : List Char} {stack : List Frame} {before : List (Literal × Tree)}

/-- A literal is closed by the quote after its units. -/
theorem step_quote (gs : List Glyph) :
    OpenLiteral.step ⟨gs.reverse ++ [], .outside⟩ (.char '"') = .inr ⟨gs, none⟩ := by
  simp [OpenLiteral.step, OpenLiteral.close]

theorem take_text (h : l.SpelledBy cs) :
    take ⟨.value, stack⟩ cs = deliver (.string l) stack := by
  obtain @⟨gs, cs, hgs⟩ := h
  have hopen : step ⟨.value, stack⟩ (.char '"') = ⟨.text .empty, stack⟩ := by
    rw [step_value rfl (by decide)]
    rfl
  have hclose : step ⟨.text ⟨gs.reverse ++ [], .outside⟩, stack⟩ (.char '"') =
      deliver (.string ⟨gs, none⟩) stack := by
    rw [step_text, step_quote]
    rfl
  rw [List.cons_append, take_cons, hopen, take_append, OpenLiteral.empty,
    take_glyphs takesLiteral_text [] hgs, take_cons, hclose, take_nil]

/-- The rest of a key, of which the opening quote is read. -/
theorem take_openKey {gs : List Glyph} (hgs : SpelledGlyphs gs cs) :
    take ⟨.key before .empty, stack⟩ (cs ++ ['"']) = ⟨.colon before ⟨gs, none⟩, stack⟩ := by
  have hclose : step ⟨.key before ⟨gs.reverse ++ [], .outside⟩, stack⟩ (.char '"') =
      ⟨.colon before ⟨gs, none⟩, stack⟩ := by
    rw [step_key, step_quote]
    rfl
  rw [take_append, OpenLiteral.empty, take_glyphs (takesLiteral_key before) [] hgs, take_cons,
    hclose, take_nil]

theorem take_nextKey (h : l.SpelledBy cs) :
    take ⟨.nextKey before, stack⟩ cs = ⟨.colon before l, stack⟩ := by
  obtain @⟨gs, cs, hgs⟩ := h
  have hopen : step ⟨.nextKey before, stack⟩ (.char '"') = ⟨.key before .empty, stack⟩ := rfl
  rw [List.cons_append, take_cons, hopen, take_openKey hgs]

theorem take_firstKey (h : l.SpelledBy cs) :
    take ⟨.firstKey, stack⟩ cs = ⟨.colon [] l, stack⟩ := by
  obtain @⟨gs, cs, hgs⟩ := h
  have hopen : step ⟨.firstKey, stack⟩ (.char '"') = ⟨.key [] .empty, stack⟩ := rfl
  rw [List.cons_append, take_cons, hopen, take_openKey hgs]

theorem take_null : take ⟨.value, stack⟩ "null".toList = deliver .null stack := by
  change take (step ⟨.value, stack⟩ (.char 'n')) ['u', 'l', 'l'] = _
  rw [step_value rfl (by decide)]
  rfl

theorem take_bool (b : Bool) :
    take ⟨.value, stack⟩ (if b then "true" else "false").toList = deliver (.bool b) stack := by
  cases b with
  | true =>
    change take (step ⟨.value, stack⟩ (.char 't')) ['r', 'u', 'e'] = _
    rw [step_value rfl (by decide)]
    rfl
  | false =>
    change take (step ⟨.value, stack⟩ (.char 'f')) ['a', 'l', 's', 'e'] = _
    rw [step_value rfl (by decide)]
    rfl

end

/-! ## All values -/

/-- A character with which a value begins. -/
structure Opens (c : Char) : Prop where
  isSpace_eq : isSpace (.char c) = false
  ne_close : c ≠ ']'

section
variable {t : Tree} {items : Items} {members : Members} {cs w : List Char} {r : Reader}
  {stack : List Frame}

theorem WholeDigits.head (h : WholeDigits cs) : ∃ c ds, cs = c :: ds ∧ c.isDigit = true := by
  cases h with
  | zero => exact ⟨_, _, rfl, rfl⟩
  | other hc => exact ⟨_, _, rfl, hc⟩

theorem Tree.SpelledBy.opens (h : t.SpelledBy cs) : ∃ c ds, cs = c :: ds ∧ Opens c := by
  cases h with
  | null => exact ⟨'n', _, rfl, rfl, by decide⟩
  | @bool b =>
    cases b with
    | true => exact ⟨'t', _, rfl, rfl, by decide⟩
    | false => exact ⟨'f', _, rfl, rfl, by decide⟩
  | number hn =>
    obtain @⟨negative, _, _, _, _, _, hwhole, -, -⟩ := hn
    cases negative with
    | true => exact ⟨'-', _, rfl, rfl, by decide⟩
    | false =>
      obtain ⟨c, ds, rfl, hc⟩ := hwhole.head
      exact ⟨c, _, rfl, isSpace_of_isDigit hc, isDigit_ne hc rfl⟩
  | string hl =>
    obtain ⟨-⟩ := hl
    exact ⟨'"', _, rfl, rfl, by decide⟩
  | array => exact ⟨'[', _, rfl, rfl, by decide⟩
  | object => exact ⟨'\x7b', _, rfl, rfl, by decide⟩

theorem ends_of_mem {c : Char} (h : c ∈ [' ', '\n', '\t', '\r']) : Ends c :=
  List.mem_append_left [',', ']', '\x7d'] h

theorem ends_of_blank {c : Char} {ds : List Char} (hw : Blank w) (hc : Ends c) :
    ∃ d es, w ++ c :: ds = d :: es ∧ Ends d := by
  cases w with
  | nil => exact ⟨c, ds, rfl, hc⟩
  | cons d w => exact ⟨d, _, rfl, ends_of_mem (hw d List.mem_cons_self)⟩

theorem Items.SpelledBy.ends (h : items.SpelledBy false cs) : ∃ c ds, cs = c :: ds ∧ Ends c := by
  cases h with
  | done hw => exact ends_of_blank hw (by simp [Ends])
  | cons hw =>
    simp only [comma, List.append_assoc]
    exact ends_of_blank hw (by simp [Ends])

theorem Members.SpelledBy.ends (h : members.SpelledBy false cs) :
    ∃ c ds, cs = c :: ds ∧ Ends c := by
  cases h with
  | done hw => exact ends_of_blank hw (by simp [Ends])
  | cons hw =>
    simp only [comma, List.append_assoc]
    exact ends_of_blank hw (by simp [Ends])

theorem Reader.Holds.take_eq (h : Holds r t stack) (hcs : ∃ c ds, cs = c :: ds ∧ Ends c) :
    r.take cs = (deliver t stack).take cs := by
  obtain ⟨c, ds, rfl, hc⟩ := hcs
  rw [take_cons, h.step_eq c hc, take_cons]

/-- The first item is read as any other value. -/
theorem take_firstItem (h : t.SpelledBy cs) :
    take ⟨.firstItem, stack⟩ cs = take ⟨.value, .item [] :: stack⟩ cs := by
  obtain ⟨c, ds, rfl, hc⟩ := h.opens
  rw [take_cons, step_firstItem hc.isSpace_eq hc.ne_close, take_cons]

theorem step_comma_item {before : List Tree} :
    step ⟨.afterItem before, stack⟩ (.char ',') = ⟨.value, .item before :: stack⟩ := rfl

theorem step_closeItems {before : List Tree} :
    step ⟨.afterItem before, stack⟩ (.char ']') =
      deliver (.array (Items.after .done before)) stack := rfl

theorem step_comma_member {before : List (Literal × Tree)} :
    step ⟨.afterMember before, stack⟩ (.char ',') = ⟨.nextKey before, stack⟩ := rfl

theorem step_closeMembers {before : List (Literal × Tree)} :
    step ⟨.afterMember before, stack⟩ (.char '\x7d') =
      deliver (.object (Members.after .done before)) stack := rfl

theorem step_colon {before : List (Literal × Tree)} {key : Literal} :
    step ⟨.colon before key, stack⟩ (.char ':') = ⟨.value, .member before key :: stack⟩ := rfl

end

mutual

/-- **A value is read from any text that spells it.** -/
theorem Tree.SpelledBy.holds : (t : Tree) → {cs : List Char} → t.SpelledBy cs →
    (stack : List Frame) → Holds (take ⟨.value, stack⟩ cs) t stack
  | .null, _, .null, stack => by
    rw [take_null]
    exact holds_deliver _ _
  | .bool _, _, .bool, stack => by
    rw [take_bool]
    exact holds_deliver _ _
  | .number _, _, .number hn, stack => holds_numeral hn stack
  | .string _, _, .string hl, stack => by
    rw [take_text hl]
    exact holds_deliver _ _
  | .array items, _, .array hitems, stack => by
    have hopen : step ⟨.value, stack⟩ (.char '[') = ⟨.firstItem, stack⟩ :=
      step_value rfl (by decide)
    rw [take_cons, hopen, Items.take_first items hitems stack]
    exact holds_deliver _ _
  | .object members, _, .object hmembers, stack => by
    have hopen : step ⟨.value, stack⟩ (.char '\x7b') = ⟨.firstKey, stack⟩ :=
      step_value rfl (by decide)
    rw [take_cons, hopen, Members.take_first members hmembers stack]
    exact holds_deliver _ _

/-- The items of an array, from the first one on. -/
theorem Items.take_first : (items : Items) → {cs : List Char} → items.SpelledBy true cs →
    (stack : List Frame) → take ⟨.firstItem, stack⟩ cs = deliver (.array items) stack
  | .done, _, .done hw, stack => by
    rw [take_append, take_firstItem_blank hw]
    rfl
  | .cons t rest, _, .cons hw hw' ht hrest, stack => by
    simp only [comma, if_true, List.append_nil, take_append]
    rw [take_firstItem_blank hw, take_firstItem_blank hw', take_firstItem ht,
      (Tree.SpelledBy.holds t ht _).take_eq hrest.ends]
    exact Items.take_after rest hrest [t] stack

/-- The items of an array after some others. -/
theorem Items.take_after : (items : Items) → {cs : List Char} → items.SpelledBy false cs →
    (before : List Tree) → (stack : List Frame) →
    take ⟨.afterItem before, stack⟩ cs = deliver (.array (items.after before)) stack
  | .done, _, .done hw, before, stack => by
    rw [take_append, take_afterItem_blank hw, take_cons, step_closeItems, take_nil]
  | .cons t rest, _, .cons hw hw' ht hrest, before, stack => by
    simp only [comma, Bool.false_eq_true, if_false, take_append, take_cons, take_nil]
    rw [take_afterItem_blank hw, step_comma_item, take_value_blank hw',
      (Tree.SpelledBy.holds t ht _).take_eq hrest.ends]
    exact Items.take_after rest hrest (t :: before) stack

/-- The members of an object, from the first one on. -/
theorem Members.take_first : (members : Members) → {cs : List Char} →
    members.SpelledBy true cs → (stack : List Frame) →
    take ⟨.firstKey, stack⟩ cs = deliver (.object members) stack
  | .done, _, .done hw, stack => by
    rw [take_append, take_firstKey_blank hw]
    rfl
  | .cons k t rest, _, .cons hw hw' hk hv hv' ht hrest, stack => by
    simp only [comma, if_true, List.append_nil, take_append, take_cons]
    rw [take_firstKey_blank hw, take_firstKey_blank hw', take_firstKey hk, take_colon_blank hv,
      step_colon, take_value_blank hv', (Tree.SpelledBy.holds t ht _).take_eq hrest.ends]
    exact Members.take_after rest hrest [(k, t)] stack

/-- The members of an object after some others. -/
theorem Members.take_after : (members : Members) → {cs : List Char} →
    members.SpelledBy false cs → (before : List (Literal × Tree)) → (stack : List Frame) →
    take ⟨.afterMember before, stack⟩ cs = deliver (.object (members.after before)) stack
  | .done, _, .done hw, before, stack => by
    rw [take_append, take_afterMember_blank hw, take_cons, step_closeMembers, take_nil]
  | .cons k t rest, _, .cons hw hw' hk hv hv' ht hrest, before, stack => by
    simp only [comma, Bool.false_eq_true, if_false, take_append, take_cons, take_nil]
    rw [take_afterMember_blank hw, step_comma_member, take_nextKey_blank hw', take_nextKey hk,
      take_colon_blank hv, step_colon, take_value_blank hv',
      (Tree.SpelledBy.holds t ht _).take_eq hrest.ends]
    exact Members.take_after rest hrest ((k, t) :: before) stack

end

/-- **A document is read back from any text that spells it.** -/
theorem Document.read_spelled {t : Tree} {cs : List Char} (h : SpelledDocument t cs) :
    Document.read (Text.piecesOfChars cs) = ⟨t, false⟩ := by
  obtain @⟨w, cs, w', hw, ht, hw'⟩ := h
  have hread : Holds (take .start (w ++ cs)) t [] := by
    rw [take_append, Reader.start, take_value_blank hw]
    exact Tree.SpelledBy.holds t ht []
  rw [Document.read, foldl_piecesOfChars, take_append]
  cases w' with
  | nil => exact hread.finish_eq
  | cons c w' =>
    rw [hread.take_eq ⟨c, w', rfl, ends_of_mem (hw' c List.mem_cons_self)⟩]
    change Reader.finish (take ⟨.finished t, []⟩ (c :: w')) = _
    rw [take_finished_blank hw']
    rfl

end ClusterScaling.Json
