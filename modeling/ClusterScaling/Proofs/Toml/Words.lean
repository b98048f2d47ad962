import Mathlib.Data.List.TakeWhile
import ClusterScaling.Proofs.Toml.Texts

/-!
# Spelled truth values and integers are read

A word goes as far as its characters do, so what it is has to be found out from the whole of it. An
integer has no colon, and a hyphen only at its front, so it is no date or time; and it has no point
and no exponent, so it is no other number (`word?_integer`).
-/

namespace ClusterScaling.Toml

open Text (hexValue?)

variable {c d : Char} {cs ds w rest : List Char} {base : Nat} {n : Int}

/-! ## Digits -/

theorem ofDigits_eq (base : Nat) (ds : List Char) : ofDigits base ds = placeValue base ds := by
  have hfold : ∀ v, ds.foldl (fun n c => base * n + (hexValue? c).getD 0) v =
      v * base ^ ds.length + placeValue base ds := by
    induction ds with
    | nil => simp [placeValue]
    | cons d ds ih =>
      intro v
      rw [List.foldl_cons, ih, placeValue, Nat.pow_eq, List.length_cons, Nat.pow_succ]
      ring
  rw [ofDigits, hfold]
  simp

theorem isAlphanum_of_hexValue? {x : Nat} (h : hexValue? c = some x) : c.isAlphanum = true := by
  unfold hexValue? at h
  show ((c.isUpper || c.isLower) || c.isDigit) = true
  split at h
  · next hdigit => rw [hdigit, Bool.or_true]
  · split at h
    · next hletter =>
      rw [Bool.and_eq_true, decide_eq_true_eq, decide_eq_true_eq] at hletter
      have hz : c ≤ 'z' := Char.le_trans hletter.2 (by decide)
      have hlower : c.isLower = true :=
        Bool.and_eq_true_iff.2 ⟨decide_eq_true hletter.1, decide_eq_true hz⟩
      rw [hlower, Bool.or_true, Bool.true_or]
    · split at h
      · next hletter =>
        rw [Bool.and_eq_true, decide_eq_true_eq, decide_eq_true_eq] at hletter
        have hz : c ≤ 'Z' := Char.le_trans hletter.2 (by decide)
        have hupper : c.isUpper = true := decide_eq_true ⟨hletter.1, hz⟩
        rw [hupper, Bool.true_or, Bool.true_or]
      · cases h

theorem isDigit_of_isDigitOf_ten (h : isDigitOf 10 c = true) : c.isDigit = true := by
  obtain ⟨x, hx, hlt⟩ := hexValue?_of_isDigitOf h
  unfold hexValue? at hx
  split at hx
  · assumption
  · split at hx
    · simp at hx
      omega
    · split at hx
      · simp at hx
        omega
      · cases hx

/-- The characters of digits that underscores may separate. -/
theorem SpelledRun.forall_mem (h : SpelledRun base ds cs) :
    ∀ c ∈ cs, isDigitOf base c = true ∨ c = '_' := by
  induction h with
  | one hd =>
    intro c hc
    obtain rfl := List.mem_singleton.1 hc
    exact .inl hd
  | next hd _ ih => exact List.forall_mem_cons.2 ⟨.inl hd, ih⟩
  | apart hd _ ih => exact List.forall_mem_cons.2 ⟨.inl hd, List.forall_mem_cons.2 ⟨.inr rfl, ih⟩⟩

theorem SpelledRun.head (h : SpelledRun base ds cs) :
    ∃ d ds' cs', ds = d :: ds' ∧ cs = d :: cs' ∧ isDigitOf base d = true := by
  cases h with
  | one hd | next hd | apart hd => exact ⟨_, _, _, rfl, rfl, hd⟩

theorem digitRun?_spelled {isDigit : Char → Bool}
    (hdigit : ∀ c, isDigitOf base c = true → isDigit c = true) (h : SpelledRun base ds cs) :
    digitRun? isDigit cs = some ds := by
  induction h with
  | one hd => simp [digitRun?, hdigit _ hd]
  | @next d ds cs hd hrun ih =>
    obtain ⟨d', ds', cs', rfl, rfl, hd'⟩ := hrun.head
    have hne : d' ≠ '_' := by
      rintro rfl
      cases hd'
    rw [digitRun?.eq_def]
    split
    · contradiction
    · rename_i heq
      simp at heq
    · rename_i heq
      exact absurd (List.cons.inj (List.cons.inj heq).2).1 hne
    · rename_i heq
      obtain ⟨rfl, rfl⟩ := List.cons.inj heq
      rw [if_pos (hdigit _ hd), ih]
      rfl
  | apart hd _ ih => simp [digitRun?, hdigit _ hd, ih]

theorem wholeDigits?_spelled (h : SpelledRun 10 ds cs) (hzero : ds = ['0'] ∨ ds.head? ≠ some '0') :
    wholeDigits? cs = some ds := by
  rw [wholeDigits?, digitRun?_spelled (fun c => isDigit_of_isDigitOf_ten) h]
  rcases hzero with rfl | hzero
  · rfl
  · split
    · exact Eq.symm ‹_›
    · rename_i heq
      obtain rfl := Option.some.inj heq
      exact absurd rfl hzero
    · rfl

/-! ## What a word is not -/

theorem isDate_of_not_mem (h : '-' ∉ w.tail) : isDate w = false := by
  unfold isDate
  split
  · simp at h
  · rfl

theorem time?_of_not_mem (h : ':' ∉ w) : time? w = none := by
  unfold time?
  split
  · simp at h
  · rfl

/-- A word without a colon, and without a hyphen behind its front, is no date or time. -/
theorem isMoment_of_not_mem (hhyphen : '-' ∉ w.tail) (hcolon : ':' ∉ w) : isMoment w = false := by
  have htake : '-' ∉ (w.take 10).tail := fun h => by
    cases w with
    | nil => cases h
    | cons c w => exact hhyphen (List.mem_of_mem_take h)
  simp [isMoment, isDate_of_not_mem hhyphen, isDate_of_not_mem htake, time?_of_not_mem hcolon]

/-- A number without a point or an exponent is read as an integer only. -/
theorem float?_of_plain (hpoint : '.' ∉ (splitSign w).2) (he : 'e' ∉ (splitSign w).2)
    (hE : 'E' ∉ (splitSign w).2) (hinf : (splitSign w).2 ≠ ['i', 'n', 'f'])
    (hnan : (splitSign w).2 ≠ ['n', 'a', 'n']) : float? w = none := by
  have hmantissa : (splitSign w).2.takeWhile (fun c => !(c == 'e' || c == 'E')) = (splitSign w).2 :=
    List.takeWhile_eq_self_iff.2 fun c hc => by
      simp only [Bool.not_eq_true', Bool.or_eq_false_iff, beq_eq_false_iff_ne]
      exact ⟨fun h => he (h ▸ hc), fun h => hE (h ▸ hc)⟩
  have hwhole : (splitSign w).2.takeWhile (fun c => c != '.') = (splitSign w).2 :=
    List.takeWhile_eq_self_iff.2 fun c hc => bne_iff_ne.2 fun h => hpoint (h ▸ hc)
  rw [float?]
  simp only [hinf, hnan, hmantissa, hwhole, if_false, if_true]

theorem digitRun?_marked {mark : Char} (hmark : mark.isDigit = false) (hunderscore : mark ≠ '_')
    (cs : List Char) : digitRun? Char.isDigit ('0' :: mark :: cs) = none := by
  have hrest : digitRun? Char.isDigit (mark :: cs) = none := by
    rw [digitRun?.eq_def]
    split <;> simp_all
  rw [digitRun?.eq_def]
  split <;> simp_all

/-- A number to a base is read as an integer only. -/
theorem float?_of_marked {mark : Char} {base : Nat} (hmark : (mark, base) ∈ baseMarks)
    (cs : List Char) : float? ('0' :: mark :: cs) = none := by
  have hmarks : mark = 'x' ∨ mark = 'o' ∨ mark = 'b' := by
    simp only [baseMarks, List.mem_cons, Prod.mk.injEq, List.not_mem_nil, or_false] at hmark
    rcases hmark with ⟨rfl, -⟩ | ⟨rfl, -⟩ | ⟨rfl, -⟩ <;> simp
  have hsign : splitSign ('0' :: mark :: cs) = (false, '0' :: mark :: cs) := rfl
  have hkept : mark.isDigit = false ∧ mark ≠ '_' ∧ mark ≠ '.' ∧ mark ≠ 'e' ∧ mark ≠ 'E' := by
    rcases hmarks with rfl | rfl | rfl <;> decide
  obtain ⟨hdigit, hunderscore, hpoint, he, hE⟩ := hkept
  have hnone : ∀ cs, wholeDigits? ('0' :: mark :: cs) = none := fun cs => by
    rw [wholeDigits?, digitRun?_marked hdigit hunderscore]
  rw [float?, hsign]
  simp [he, hE, hpoint, hnone]

/-! ## Words -/

/-- Nothing that can belong to a word follows. -/
def EndsWord (rest : List Char) : Prop := ∀ c ∈ rest.head?, isWordChar c = false

/-- A word is what its characters spell together, unless it is a date. -/
theorem word?_eq {v : Value} (hw : ∀ c ∈ w, isWordChar c = true) (hrest : EndsWord rest)
    (hdate : isDate w = false)
    (hv : (if w = "true".toList then some (.boolean true)
      else if w = "false".toList then some (.boolean false)
      else if isMoment w then some .moment
      else match float? w with
        | some v => some v
        | none => integer? w) = some v) : word? (w ++ rest) = some (v, rest) := by
  rw [word?, takeWhile_append hw hrest, dropWhile_append hw hrest]
  simp only [hdate]
  exact congrArg (Option.map fun v => (v, rest)) hv

theorem word?_flag (b : Bool) (hrest : EndsWord rest) :
    word? ((if b then "true" else "false").toList ++ rest) = some (.boolean b, rest) := by
  cases b <;> exact word?_eq (List.all_eq_true.1 (by decide)) hrest rfl rfl

/-- The characters of a spelled integer, of which a sign stands at the front only. -/
theorem SpelledRun.isWordChar (h : SpelledRun base ds cs) : ∀ c ∈ cs, isWordChar c = true := by
  intro c hc
  rcases h.forall_mem c hc with hd | rfl
  · obtain ⟨x, hx, -⟩ := hexValue?_of_isDigitOf hd
    simp [Toml.isWordChar, isAlphanum_of_hexValue? hx]
  · rfl

theorem SpelledRun.not_mem (h : SpelledRun base ds cs) (hdigit : isDigitOf base c = false)
    (hunderscore : c ≠ '_') : c ∉ cs := fun hc => by
  rcases h.forall_mem c hc with hd | rfl
  · rw [hdigit] at hd
    cases hd
  · exact hunderscore rfl

theorem isDigitOf_of_not_hex (h : hexValue? c = none) : isDigitOf base c = false := by
  rw [isDigitOf, h]
  rfl

/-- A word that is no truth value, no date and no time, and no number with a point or an exponent
is read as an integer. -/
theorem word?_of_integer {v : Value} (hw : ∀ c ∈ w, isWordChar c = true) (hrest : EndsWord rest)
    (hhyphen : '-' ∉ w.tail) (hcolon : ':' ∉ w) (htrue : w.head? ≠ some 't')
    (hfalse : w.head? ≠ some 'f') (hfloat : float? w = none) (hv : integer? w = some v) :
    word? (w ++ rest) = some (v, rest) := by
  refine word?_eq hw hrest (isDate_of_not_mem hhyphen) ?_
  rw [if_neg (by rintro rfl; exact htrue rfl), if_neg (by rintro rfl; exact hfalse rfl),
    if_neg (by simp [isMoment_of_not_mem hhyphen hcolon]), hfloat]
  exact hv

theorem integer64?_eq (hlow : -0x8000000000000000 ≤ n) (hhigh : n < 0x8000000000000000) :
    integer64? n = some (.integer n) := if_pos ⟨hlow, hhigh⟩

/-- The characters of a sign. -/
def SpelledSign (negative : Bool) (sign : List Char) : Prop :=
  if negative then sign = ['-'] else sign = [] ∨ sign = ['+']

theorem splitSign_spelled {negative : Bool} {sign : List Char} (hsign : SpelledSign negative sign)
    (hrun : SpelledRun 10 ds cs) : splitSign (sign ++ cs) = (negative, cs) := by
  obtain ⟨d, ds, cs, rfl, rfl, hd⟩ := hrun.head
  cases negative with
  | true =>
    obtain rfl := hsign
    rfl
  | false =>
    rcases hsign with rfl | rfl
    · have hminus : d ≠ '-' := by
        rintro rfl
        cases hd
      have hplus : d ≠ '+' := by
        rintro rfl
        cases hd
      rw [List.nil_append, splitSign.eq_def]
      split <;> simp_all
    · rfl

theorem integer?_decimal {negative : Bool} {sign : List Char} (hsign : SpelledSign negative sign)
    (hrun : SpelledRun 10 ds cs) (hzero : ds = ['0'] ∨ ds.head? ≠ some '0')
    (hn : n = if negative then -(placeValue 10 ds : Int) else placeValue 10 ds)
    (hlow : -0x8000000000000000 ≤ n) (hhigh : n < 0x8000000000000000) :
    integer? (sign ++ cs) = some (.integer n) := by
  have hdecimal : (wholeDigits? (splitSign (sign ++ cs)).2).bind (fun ds =>
      integer64? (if (splitSign (sign ++ cs)).1 then -(ofDigits 10 ds : Int)
        else (ofDigits 10 ds : Int))) = some (.integer n) := by
    rw [splitSign_spelled hsign hrun, wholeDigits?_spelled hrun hzero, Option.bind_some,
      ofDigits_eq, ← hn, integer64?_eq hlow hhigh]
  -- the mark of a base is no digit, so there is none
  have hmark : ∀ mark r, sign ++ cs = '0' :: mark :: r → mark ∈ cs := by
    intro mark r heq
    cases negative with
    | true =>
      obtain rfl := hsign
      cases heq
    | false =>
      rcases hsign with rfl | rfl
      · rw [List.nil_append] at heq
        simp [heq]
      · cases heq
  unfold integer?
  split
  · exact absurd (hmark _ _ ‹_›) (hrun.not_mem rfl (by decide))
  · exact absurd (hmark _ _ ‹_›) (hrun.not_mem rfl (by decide))
  · exact absurd (hmark _ _ ‹_›) (hrun.not_mem rfl (by decide))
  · exact hdecimal

theorem word?_decimal (negative : Bool) {sign : List Char} (hsign : SpelledSign negative sign)
    (hrun : SpelledRun 10 ds cs) (hzero : ds = ['0'] ∨ ds.head? ≠ some '0')
    (hn : n = if negative then -(placeValue 10 ds : Int) else placeValue 10 ds)
    (hlow : -0x8000000000000000 ≤ n) (hhigh : n < 0x8000000000000000) (hrest : EndsWord rest) :
    word? (sign ++ cs ++ rest) = some (.integer n, rest) := by
  have hsplit := splitSign_spelled hsign hrun
  have hinteger := integer?_decimal hsign hrun hzero hn hlow hhigh
  have hfloat : float? (sign ++ cs) = none := by
    refine float?_of_plain ?_ ?_ ?_ ?_ ?_ <;> rw [hsplit]
    · exact hrun.not_mem rfl (by decide)
    · exact hrun.not_mem rfl (by decide)
    · exact hrun.not_mem rfl (by decide)
    · rintro rfl
      exact hrun.not_mem (c := 'i') rfl (by decide) List.mem_cons_self
    · rintro rfl
      exact hrun.not_mem (c := 'n') rfl (by decide) List.mem_cons_self
  have hchars : (∀ c ∈ sign, isWordChar c = true) ∧ ':' ∉ sign ∧ sign.length ≤ 1 ∧
      't' ∉ sign ∧ 'f' ∉ sign := by
    cases negative with
    | true =>
      obtain rfl := hsign
      exact ⟨List.all_eq_true.1 rfl, by decide⟩
    | false => rcases hsign with rfl | rfl <;> exact ⟨List.all_eq_true.1 rfl, by decide⟩
  obtain ⟨hword, hcolon, hlength, ht, hf⟩ := hchars
  have htail : (sign ++ cs).tail ⊆ cs := by
    match sign, hlength with
    | [], _ => exact fun _ => List.mem_of_mem_tail
    | [_], _ => exact List.Subset.refl cs
  have hhead : ∀ c, c ∉ sign → c ∉ cs → (sign ++ cs).head? ≠ some c := fun c hsign hcs h =>
    (List.mem_append.1 (List.mem_of_head? h)).elim hsign hcs
  refine word?_of_integer ?_ hrest ?_ ?_ ?_ ?_ hfloat hinteger
  · exact fun c hc => (List.mem_append.1 hc).elim (hword c) (hrun.isWordChar c)
  · exact fun h => hrun.not_mem (c := '-') rfl (by decide) (htail h)
  · exact fun h => (List.mem_append.1 h).elim hcolon (hrun.not_mem (c := ':') rfl (by decide))
  · exact hhead 't' ht (hrun.not_mem rfl (by decide))
  · exact hhead 'f' hf (hrun.not_mem rfl (by decide))

theorem word?_based {mark : Char} (hmark : (mark, base) ∈ baseMarks) (hrun : SpelledRun base ds cs)
    (hhigh : (placeValue base ds : Int) < 0x8000000000000000) (hrest : EndsWord rest) :
    word? ('0' :: mark :: cs ++ rest) = some (.integer (placeValue base ds), rest) := by
  have hdigits : digitRun? (fun c => (hexValue? c).any fun x => decide (x < base)) cs = some ds :=
    digitRun?_spelled (fun _ h => h) hrun
  have hinteger : integer? ('0' :: mark :: cs) = some (.integer (placeValue base ds)) := by
    have hvalue : ((digitRun? (fun c => (hexValue? c).any fun x => decide (x < base)) cs).bind
        fun ds => integer64? (ofDigits base ds)) = some (.integer (placeValue base ds)) := by
      rw [hdigits, Option.bind_some, ofDigits_eq, integer64?_eq (by omega) hhigh]
    simp only [baseMarks, List.mem_cons, Prod.mk.injEq, List.not_mem_nil, or_false] at hmark
    rcases hmark with ⟨rfl, rfl⟩ | ⟨rfl, rfl⟩ | ⟨rfl, rfl⟩ <;> exact hvalue
  have hchars : isWordChar mark = true ∧ mark ≠ '-' ∧ mark ≠ ':' := by
    simp only [baseMarks, List.mem_cons, Prod.mk.injEq, List.not_mem_nil, or_false] at hmark
    rcases hmark with ⟨rfl, -⟩ | ⟨rfl, -⟩ | ⟨rfl, -⟩ <;> decide
  obtain ⟨hword, hhyphen, hcolon⟩ := hchars
  refine word?_of_integer ?_ hrest ?_ ?_ (by simp) (by simp) (float?_of_marked hmark cs) hinteger
  · exact List.forall_mem_cons.2 ⟨rfl, List.forall_mem_cons.2 ⟨hword, hrun.isWordChar⟩⟩
  · simpa [hhyphen.symm] using hrun.not_mem (isDigitOf_of_not_hex (c := '-') rfl) (by decide)
  · simpa [hcolon.symm] using hrun.not_mem (isDigitOf_of_not_hex (c := ':') rfl) (by decide)

/-- **An integer is read** off the front of what spells it. -/
theorem word?_integer (h : SpelledInteger n cs) (hlow : -0x8000000000000000 ≤ n)
    (hhigh : n < 0x8000000000000000) (hrest : EndsWord rest) :
    word? (cs ++ rest) = some (.integer n, rest) := by
  cases h with
  | unsigned hrun hzero =>
    exact word?_decimal false (.inl rfl) hrun hzero rfl hlow hhigh hrest
  | positive hrun hzero =>
    exact word?_decimal false (.inr rfl) hrun hzero rfl hlow hhigh hrest
  | negative hrun hzero =>
    exact word?_decimal true rfl hrun hzero rfl hlow hhigh hrest
  | based hmark hrun => exact word?_based hmark hrun hhigh hrest

end ClusterScaling.Toml
