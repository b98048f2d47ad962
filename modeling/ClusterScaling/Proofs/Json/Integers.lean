import ClusterScaling.Json.Decode

/-!
# Numbers read as integers

The reader makes an integer of a number as long as its digits fit 64 bits, and a floating number of
any other. `Numeral.integer?` is the integer as written, of any size, and `toOption_decodeNumber`
shows that it makes no difference for the integer types.
-/

namespace ClusterScaling.Json

/-- The integer that is written without fraction and exponent. There is no negative zero. -/
def Numeral.integer? (n : Numeral) : Option Int :=
  let m := Decimal.ofDigits n.whole
  if n.fraction ≠ [] ∨ n.exponent ≠ none then none
  else if n.negative then if m = 0 then none else some (-(m : Int))
  else some m

variable {α : Type} {cs : List Char} {n : Nat} {k : Int} {a : α}

/-- One more digit. -/
def appendDigit (n : Nat) (c : Char) : Nat := 10 * n + Decimal.digitValue c

theorem le_foldl_appendDigit (cs : List Char) (n : Nat) : n ≤ cs.foldl appendDigit n := by
  induction cs generalizing n with
  | nil => exact Nat.le_refl n
  | cons c cs ih =>
    have hstep : n ≤ appendDigit n c := by
      unfold appendDigit
      omega
    exact Nat.le_trans hstep (ih (appendDigit n c))

/-- All digits are taken just if the whole number fits. -/
theorem leading_snd_eq_nil_iff (hn : n ≤ Numeral.wordLimit) :
    (Numeral.leading n cs).2 = [] ↔ cs.foldl appendDigit n ≤ Numeral.wordLimit := by
  induction cs generalizing n with
  | nil => exact iff_of_true rfl hn
  | cons c cs ih =>
    by_cases hle : appendDigit n c ≤ Numeral.wordLimit
    · have hstep : Numeral.leading n (c :: cs) = Numeral.leading (appendDigit n c) cs := if_pos hle
      rw [hstep]
      exact ih hle
    · have hstep : Numeral.leading n (c :: cs) = (n, c :: cs) := if_neg hle
      have hlt := le_foldl_appendDigit cs (appendDigit n c)
      rw [hstep]
      exact iff_of_false nofun fun h => hle (Nat.le_trans hlt h)

theorem leading_fst_eq (h : (Numeral.leading n cs).2 = []) :
    (Numeral.leading n cs).1 = cs.foldl appendDigit n := by
  induction cs generalizing n with
  | nil => rfl
  | cons c cs ih =>
    by_cases hle : appendDigit n c ≤ Numeral.wordLimit
    · have hstep : Numeral.leading n (c :: cs) = Numeral.leading (appendDigit n c) cs := if_pos hle
      rw [hstep] at h ⊢
      exact ih h
    · have hstep : Numeral.leading n (c :: cs) = (n, c :: cs) := if_neg hle
      rw [hstep] at h
      cases h

theorem integer?_eq_some_iff {n : Numeral} : n.integer? = some k ↔
    n.fraction = [] ∧ n.exponent = none ∧ (n.negative = true → Decimal.ofDigits n.whole ≠ 0) ∧
      k = if n.negative then -(Decimal.ofDigits n.whole : Int) else Decimal.ofDigits n.whole := by
  unfold Numeral.integer?
  cases n.negative <;> simp [eq_comm, and_assoc]

/-- An integer is written as itself. -/
theorem integer?_ofInt (k : Int) : (Numeral.ofInt k).integer? = some k := by
  refine integer?_eq_some_iff.2 ⟨rfl, rfl, ?_, ?_⟩
  · simp only [Numeral.ofInt, decide_eq_true_eq, Decimal.ofDigits_digits]
    omega
  · simp only [Numeral.ofInt, decide_eq_true_eq, Decimal.ofDigits_digits]
    split
    · omega
    · omega

theorem value?_eq_integer_iff {n : Numeral} : n.value? = some (.integer k) ↔
    n.fraction = [] ∧ n.exponent = none ∧ (Numeral.leading 0 n.whole).2 = [] ∧
      (n.negative = true → 0 < (Numeral.leading 0 n.whole).1 ∧
        (Numeral.leading 0 n.whole).1 ≤ 0x8000000000000000) ∧
      k = if n.negative then -((Numeral.leading 0 n.whole).1 : Int)
        else (Numeral.leading 0 n.whole).1 := by
  unfold Numeral.value?
  generalize Numeral.leading 0 n.whole = w
  dsimp only
  split
  · rename_i h
    simp only [Bool.and_eq_true, List.isEmpty_iff, Option.isNone_iff_eq_none, Bool.or_eq_true,
      Bool.not_eq_true', decide_eq_true_eq] at h
    obtain ⟨⟨⟨hfraction, hexponent⟩, hall⟩, hnegative⟩ := h
    simp only [hfraction, hexponent, hall, Option.some.injEq, Number.integer.injEq, true_and]
    constructor
    · rintro rfl
      exact ⟨fun h => by simpa [h] using hnegative, rfl⟩
    · rintro ⟨-, rfl⟩
      rfl
  · rename_i h
    refine iff_of_false (fun hvalue => ?_) ?_
    · obtain ⟨x, -, hx⟩ := Option.map_eq_some_iff.1 hvalue
      cases hx
    · rintro ⟨hfraction, hexponent, hall, hrange, -⟩
      apply h
      cases hn : n.negative with
      | false => simp [hfraction, hexponent, hall]
      | true => simpa [hfraction, hexponent, hall] using hrange hn

/-- The integers that a number of 64 bits can be. -/
def InWord (k : Int) : Prop := -0x8000000000000000 ≤ k ∧ k ≤ 0xffffffffffffffff

theorem inWord_of_ofInt? {w : Width α} (h : w.ofInt? k = some a) : InWord k := by
  unfold InWord
  cases w with
  | _ =>
    simp only [Width.ofInt?] at h
    split at h
    · omega
    · cases h

/-- The value of a number is an integer just for the integers of 64 bits. -/
theorem value?_eq_integer_iff_inWord (n : Numeral) :
    n.value? = some (.integer k) ↔ n.integer? = some k ∧ InWord k := by
  have hfits : (Numeral.leading 0 n.whole).2 = [] ↔
      Decimal.ofDigits n.whole ≤ 0xffffffffffffffff := leading_snd_eq_nil_iff (Nat.zero_le _)
  rw [value?_eq_integer_iff, integer?_eq_some_iff]
  constructor
  · rintro ⟨hfraction, hexponent, hall, hrange, hk⟩
    have hle := hfits.1 hall
    have hfirst : (Numeral.leading 0 n.whole).1 = Decimal.ofDigits n.whole := leading_fst_eq hall
    rw [hfirst] at hrange hk
    refine ⟨⟨hfraction, hexponent, fun hn => ?_, hk⟩, ?_⟩
    · have := hrange hn
      omega
    · unfold InWord
      split at hk
      · rename_i hn
        have := hrange hn
        omega
      · omega
  · rintro ⟨⟨hfraction, hexponent, hzero, hk⟩, hlow, hhigh⟩
    have hall : (Numeral.leading 0 n.whole).2 = [] := by
      apply hfits.2
      split at hk
      · omega
      · omega
    have hfirst : (Numeral.leading 0 n.whole).1 = Decimal.ofDigits n.whole := leading_fst_eq hall
    rw [hfirst]
    refine ⟨hfraction, hexponent, hall, fun hn => ?_, hk⟩
    have hpos := hzero hn
    rw [if_pos hn] at hk
    omega

/-- An integer is read just where the number is written as one that is in range. -/
theorem toOption_decodeNumber (w : Width α) (n : Numeral) :
    ((Tree.number n).decodeInteger w).toOption = n.integer?.bind w.ofInt? := by
  have hinteger : ∀ k, n.value? = some (.integer k) ↔ n.integer? = some k ∧ InWord k :=
    fun k => value?_eq_integer_iff_inWord n
  have hnone : (∀ k, n.value? ≠ some (.integer k)) → n.integer?.bind w.ofInt? = none := by
    intro h
    rw [Option.bind_eq_none_iff]
    intro k hk
    cases hw : w.ofInt? k with
    | none => rfl
    | some a => exact absurd ((hinteger k).2 ⟨hk, inWord_of_ofInt? hw⟩) (h k)
  simp only [Tree.decodeInteger, Numeral.evaluate]
  cases hv : n.value? with
  | none => exact (hnone (by simp [hv])).symm
  | some v =>
    cases v with
    | floating x => exact (hnone (by simp [hv])).symm
    | integer k =>
      rw [((hinteger k).1 hv).1, Option.bind_some]
      cases hk : w.ofInt? k <;> simp [hk] <;> rfl

end ClusterScaling.Json
