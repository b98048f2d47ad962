import Mathlib.Data.List.DropRight
import ClusterScaling.Text.Basic

/-!
# Trimmed texts

What is left of a text without the white space around it, and without the characters of one kind at
its end.
-/

namespace ClusterScaling.Text

variable {c : Char} {before cs after : List Char}

/-- White space. -/
def Blank (cs : List Char) : Prop := ∀ c ∈ cs, isBlank c = true

theorem trim_eq_rdropWhile (cs : List Char) :
    trim cs = (cs.dropWhile isBlank).rdropWhile isBlank := rfl

/-- A text is the trimmed one with white space around it. -/
theorem exists_trim (cs : List Char) :
    ∃ before after, Blank before ∧ Blank after ∧ before ++ trim cs ++ after = cs := by
  refine ⟨cs.takeWhile isBlank, (cs.dropWhile isBlank).rtakeWhile isBlank,
    fun c hc => List.mem_takeWhile_imp hc, fun c hc => List.mem_rtakeWhile_imp hc, ?_⟩
  rw [trim_eq_rdropWhile, List.append_assoc, List.rdropWhile_append_rtakeWhile,
    List.takeWhile_append_dropWhile]

/-- White space around a text without any is trimmed. -/
theorem trim_append (hbefore : Blank before) (hne : cs ≠ []) (hcs : ∀ c ∈ cs, isBlank c = false)
    (hafter : Blank after) : trim (before ++ cs ++ after) = cs := by
  have hleft : (before ++ cs ++ after).dropWhile isBlank = cs ++ after := by
    rw [List.append_assoc, List.dropWhile_append_of_pos hbefore]
    cases cs with
    | nil => exact absurd rfl hne
    | cons c cs => simp [hcs c List.mem_cons_self]
  have hright : (cs ++ after).reverse.dropWhile isBlank = cs.reverse := by
    rw [List.reverse_append,
      List.dropWhile_append_of_pos fun c hc => hafter c (List.mem_reverse.1 hc)]
    refine List.dropWhile_eq_self_iff.2 fun h => ?_
    simpa using hcs _ (List.mem_reverse.1 (List.getElem_mem h))
  rw [trim, hleft, hright, List.reverse_reverse]

theorem trimEnd_append (h : ∀ x ∈ after, x = c) : trimEnd c (cs ++ after) = trimEnd c cs := by
  have hafter : ∀ x ∈ after.reverse, (x == c) = true := fun x hx =>
    beq_iff_eq.2 (h x (List.mem_reverse.1 hx))
  rw [trimEnd, List.reverse_append, List.dropWhile_append_of_pos hafter]
  rfl

/-- What is left begins the text. -/
theorem exists_trimEnd (c : Char) (cs : List Char) : ∃ after, trimEnd c cs ++ after = cs :=
  List.rdropWhile_prefix _ _

/-- What is left does not end in `c`. -/
theorem not_suffix_trimEnd (c : Char) (cs : List Char) : ¬ [c] <:+ trimEnd c cs := by
  rintro ⟨left, hleft⟩
  have hdrop : trimEnd c (left ++ [c]) = left ++ [c] := by
    rw [hleft]
    exact List.rdropWhile_idempotent _ _
  rw [trimEnd_append fun x hx => List.mem_singleton.1 hx] at hdrop
  obtain ⟨after, hafter⟩ := exists_trimEnd c left
  have hlength := congrArg List.length hafter
  rw [hdrop, List.length_append, List.length_append, List.length_singleton] at hlength
  omega

end ClusterScaling.Text
