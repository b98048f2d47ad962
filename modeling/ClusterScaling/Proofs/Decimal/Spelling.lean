import Mathlib.Data.List.Induction
import ClusterScaling.Decimal.Numeral

/-!
# Spellings of natural numbers

How a number is spelled in decimal, with leading zeros and a plus sign allowed, as relations between
numbers and texts. `readBounded?` reads just these texts, up to its limit
(`readBounded?_eq_some_iff`).
-/

namespace ClusterScaling.Decimal

/-- The characters are decimal digits that denote the number. -/
inductive SpelledDigits : Nat → List Char → Prop
  | one {d : Nat} : d < 10 → SpelledDigits d [digitChar d]
  | next {n d : Nat} {cs : List Char} : SpelledDigits n cs → d < 10 →
      SpelledDigits (10 * n + d) (cs ++ [digitChar d])

/-- The characters spell the number, with or without a plus sign. -/
inductive SpelledCount : Nat → List Char → Prop
  | unsigned {n : Nat} {cs : List Char} : SpelledDigits n cs → SpelledCount n cs
  | signed {n : Nat} {cs : List Char} : SpelledDigits n cs → SpelledCount n ('+' :: cs)

variable {m n limit : Nat} {c : Char} {cs : List Char}

/-! ## Digits -/

theorem toNat_bounds_of_isDigit (h : c.isDigit = true) :
    '0'.toNat ≤ c.toNat ∧ c.toNat ≤ '9'.toNat := by
  simpa [Char.isDigit, UInt32.le_iff_toNat_le] using h

theorem digitValue_lt (h : c.isDigit = true) : digitValue c < 10 := by
  have hbounds := toNat_bounds_of_isDigit h
  have h0 : '0'.toNat = 48 := rfl
  have h9 : '9'.toNat = 57 := rfl
  rw [digitValue]
  omega

theorem digitChar_digitValue (h : c.isDigit = true) : digitChar (digitValue c) = c := by
  have hbounds := toNat_bounds_of_isDigit h
  rw [digitChar, digitValue, Nat.add_sub_cancel' hbounds.1, Char.ofNat_toNat]

theorem SpelledDigits.ofDigits_eq (h : SpelledDigits n cs) : ofDigits cs = n := by
  induction h with
  | one hd => simp [ofDigits, digitValue_digitChar hd]
  | next _ hd ih => rw [ofDigits_append_singleton, ih, digitValue_digitChar hd]

theorem SpelledDigits.isDigit (h : SpelledDigits n cs) : ∀ c ∈ cs, c.isDigit = true := by
  induction h with
  | one hd => exact List.forall_mem_singleton.2 (isDigit_digitChar hd)
  | next _ hd ih =>
    exact List.forall_mem_append.2 ⟨ih, List.forall_mem_singleton.2 (isDigit_digitChar hd)⟩

theorem SpelledDigits.ne_nil (h : SpelledDigits n cs) : cs ≠ [] := by
  cases h <;> simp

theorem spelledDigits_ofDigits (hne : cs ≠ []) (h : ∀ c ∈ cs, c.isDigit = true) :
    SpelledDigits (ofDigits cs) cs := by
  induction cs using List.reverseRecOn with
  | nil => exact absurd rfl hne
  | append_singleton cs c ih =>
    obtain ⟨hcs, hc⟩ := List.forall_mem_append.1 h
    have hc : c.isDigit = true := hc c List.mem_cons_self
    rw [ofDigits_append_singleton]
    by_cases hnil : cs = []
    · subst hnil
      have hone := SpelledDigits.one (digitValue_lt hc)
      rw [digitChar_digitValue hc] at hone
      simpa [ofDigits] using hone
    · have hnext := (ih hnil hcs).next (digitValue_lt hc)
      rwa [digitChar_digitValue hc] at hnext

/-! ## Numbers -/

theorem SpelledCount.mem (h : SpelledCount n cs) : ∀ c ∈ cs, c.isDigit = true ∨ c = '+' := by
  cases h with
  | unsigned h => exact fun c hc => .inl (h.isDigit c hc)
  | signed h => exact List.forall_mem_cons.2 ⟨.inr rfl, fun c hc => .inl (h.isDigit c hc)⟩

theorem SpelledCount.ne_nil (h : SpelledCount n cs) : cs ≠ [] := by
  cases h with
  | unsigned h => exact h.ne_nil
  | signed => exact List.cons_ne_nil _ _

theorem readDigits_eq_some_iff :
    (if (cs.isEmpty || cs.any fun c => !c.isDigit) = true then none
      else if ofDigits cs ≤ limit then some (ofDigits cs) else none) = some n ↔
      SpelledDigits n cs ∧ n ≤ limit := by
  constructor
  · intro h
    split at h
    · cases h
    · next hdigits =>
      simp only [Bool.or_eq_true, List.isEmpty_iff, List.any_eq_true, not_or, not_exists, not_and,
        Bool.not_eq_true', Bool.not_eq_false] at hdigits
      split at h
      · next hlimit =>
        obtain rfl := Option.some.inj h
        exact ⟨spelledDigits_ofDigits hdigits.1 hdigits.2, hlimit⟩
      · cases h
  · rintro ⟨hspelled, hlimit⟩
    have hdigits : ¬ (cs.isEmpty || cs.any fun c => !c.isDigit) = true := by
      simpa [hspelled.ne_nil] using hspelled.isDigit
    rw [if_neg hdigits, hspelled.ofDigits_eq, if_pos hlimit]

/-- The texts that are read are the spelled numbers up to the limit. -/
theorem readBounded?_eq_some_iff :
    readBounded? limit cs = some n ↔ SpelledCount n cs ∧ n ≤ limit := by
  unfold readBounded?
  split
  · next r =>
    rw [readDigits_eq_some_iff]
    refine and_congr_left' ⟨.signed, fun h => ?_⟩
    cases h with
    | unsigned h => cases h.isDigit '+' List.mem_cons_self
    | signed h => exact h
  · next hplus =>
    rw [readDigits_eq_some_iff]
    refine and_congr_left' ⟨.unsigned, fun h => ?_⟩
    cases h with
    | unsigned h => exact h
    | signed => exact absurd rfl (hplus _)

theorem SpelledCount.unique (hm : SpelledCount m cs) (hn : SpelledCount n cs) : m = n := by
  have hreadm := readBounded?_eq_some_iff.2 ⟨hm, Nat.le_max_left m n⟩
  have hreadn := readBounded?_eq_some_iff.2 ⟨hn, Nat.le_max_right m n⟩
  exact Option.some.inj (hreadm.symm.trans hreadn)

end ClusterScaling.Decimal
