import ClusterScaling.Duration
import ClusterScaling.Proofs.Decimal.Spelling
import ClusterScaling.Proofs.Text.Trimming

/-!
# Spellings of durations

A duration is spelled as a number with a suffix right behind it, and white space around both. Just
such texts are read as durations, each under its own suffix (`Duration.parse?_spelled`). Only for a
number of minutes there may be no answer at all (`Duration.parse?_eq_error_iff`).
-/

namespace ClusterScaling.Duration

open Decimal (SpelledCount)
open Text (Blank)

/-- What stands behind the number of a duration. -/
inductive Suffix where
  | milliseconds
  | seconds
  | minutes
  /-- Nothing, which stands for seconds. -/
  | none
deriving DecidableEq

namespace Suffix

/-- The suffix as it is written. -/
def text : Suffix → String
  | milliseconds => "ms"
  | seconds => "s"
  | minutes => "m"
  | none => ""

/-- The milliseconds of one unit. -/
def millis : Suffix → Nat
  | milliseconds => 1
  | seconds | none => 1000
  | minutes => 60000

/-- The duration that a number is read as. -/
def read : Suffix → Nat → Except Overflow Duration
  | milliseconds, n => .ok ⟨n⟩
  | seconds, n | none, n => .ok (ofSeconds n)
  | minutes, n => ofMinutes n

end Suffix

/-- The characters spell a duration of `n` units. -/
inductive Spelled (u : Suffix) (n : Nat) : List Char → Prop
  | mk {before cs after : List Char} : Blank before → SpelledCount n cs → n < 0x10000000000000000 →
      Blank after → Spelled u n (before ++ (cs ++ u.text.toList) ++ after)

variable {s unit : String} {n : Nat} {u : Suffix} {c : Char} {cs pre : List Char}

/-! ## Suffixes -/

theorem beforeUnit?_eq_some_iff : beforeUnit? unit cs = some pre ↔ pre ++ unit.toList = cs := by
  unfold beforeUnit?
  split
  · next h =>
    obtain ⟨pre', rfl⟩ := List.isSuffixOf_iff_suffix.1 h
    rw [List.length_append, Nat.add_sub_cancel, List.take_left', Option.some.injEq,
      List.append_cancel_right_eq, eq_comm]
    rfl
  · next h =>
    refine ⟨nofun, ?_⟩
    rintro rfl
    exact absurd (List.isSuffixOf_iff_suffix.2 (List.suffix_append _ _)) h

/-- Only minutes can overflow. -/
theorem mapM_ok {α β : Type} (f : α → β) (o : Option α) :
    o.mapM (fun a => (.ok (f a) : Except Overflow β)) = .ok (o.map f) := by
  cases o <;> rfl

/-- A text is read under one of the suffixes that it ends with. -/
theorem exists_suffix (s : String) : ∃ (u : Suffix) (cs : List Char),
    cs ++ u.text.toList = Text.trim s.toList ∧ parse? s = (count? cs).mapM u.read := by
  simp only [parse?]
  split
  · next cs h => exact ⟨.milliseconds, cs, beforeUnit?_eq_some_iff.1 h, (mapM_ok _ _).symm⟩
  · split
    · next cs h => exact ⟨.seconds, cs, beforeUnit?_eq_some_iff.1 h, (mapM_ok _ _).symm⟩
    · split
      · next cs h => exact ⟨.minutes, cs, beforeUnit?_eq_some_iff.1 h, rfl⟩
      · exact ⟨.none, Text.trim s.toList, List.append_nil _, (mapM_ok _ _).symm⟩

/-- A text that ends with another character than the suffix does not end with the suffix. -/
theorem beforeUnit?_eq_none {a : Char} (ending : List Char) (hunit : unit.toList = ending ++ [a])
    (h : ¬ [a] <:+ cs) : beforeUnit? unit cs = none := by
  refine Option.eq_none_iff_forall_ne_some.2 fun pre hpre => h ⟨pre ++ ending, ?_⟩
  rw [List.append_assoc, ← hunit]
  exact beforeUnit?_eq_some_iff.1 hpre

/-- Before its suffix a duration has none of the letters of suffixes, so that no other suffix is
found in its text. -/
theorem parse?_of_trim (hcs : ∀ c ∈ cs, c ≠ 'm' ∧ c ≠ 's')
    (h : Text.trim s.toList = cs ++ u.text.toList) : parse? s = (count? cs).mapM u.read := by
  have hself : beforeUnit? u.text (cs ++ u.text.toList) = some cs := beforeUnit?_eq_some_iff.2 rfl
  cases u with
  | milliseconds =>
    simp only [Suffix.text] at h hself
    simp only [parse?, h, hself]
    exact (mapM_ok _ _).symm
  | seconds =>
    have hms : beforeUnit? "ms" (cs ++ "s".toList) = none := by
      refine Option.eq_none_iff_forall_ne_some.2 fun pre hpre => ?_
      have hm : (pre ++ ['m']) ++ ['s'] = cs ++ ['s'] := by
        simpa using beforeUnit?_eq_some_iff.1 hpre
      obtain rfl := List.append_cancel_right hm
      exact (hcs 'm' (by simp)).1 rfl
    simp only [Suffix.text] at h hself
    simp only [parse?, h, hms, hself]
    exact (mapM_ok _ _).symm
  | minutes =>
    have hs : ¬ ['s'] <:+ cs ++ "m".toList := by
      rintro ⟨pre, hpre⟩
      exact absurd (List.append_inj_right' hpre rfl) (by decide)
    have hms : beforeUnit? "ms" _ = none := beforeUnit?_eq_none ['m'] rfl hs
    have hsec : beforeUnit? "s" _ = none := beforeUnit?_eq_none [] rfl hs
    simp only [Suffix.text] at h hself
    simp only [parse?, h, hms, hsec, hself]
    rfl
  | none =>
    have hends : ∀ a, a = 'm' ∨ a = 's' → ¬ [a] <:+ cs := by
      rintro a ha ⟨pre, rfl⟩
      have hlast := hcs a (by simp)
      exact ha.elim hlast.1 hlast.2
    have hms : beforeUnit? "ms" _ = none := beforeUnit?_eq_none ['m'] rfl (hends 's' (.inr rfl))
    have hsec : beforeUnit? "s" _ = none := beforeUnit?_eq_none [] rfl (hends 's' (.inr rfl))
    have hmin : beforeUnit? "m" _ = none := beforeUnit?_eq_none [] rfl (hends 'm' (.inl rfl))
    rw [Suffix.text, String.toList_empty, List.append_nil] at h
    simp only [parse?, h, hms, hsec, hmin]
    exact (mapM_ok _ _).symm

/-! ## Spelled durations -/

theorem count?_eq_some_iff : count? cs = some n ↔ SpelledCount n cs ∧ n < 0x10000000000000000 := by
  rw [count?, Decimal.readBounded?_eq_some_iff]
  exact and_congr_right' (Nat.le_sub_one_iff_lt (by decide))

theorem isBlank_of_isDigit (h : c.isDigit = true) : Text.isBlank c = false := by
  have hbounds := Decimal.toNat_bounds_of_isDigit h
  have h0 : '0'.toNat = 48 := rfl
  have h9 : '9'.toNat = 57 := rfl
  simp only [Text.isBlank, Bool.or_eq_false_iff, Bool.and_eq_false_iff, decide_eq_false_iff_not,
    beq_eq_false_iff_ne]
  omega

/-- The characters of a number are neither letters of suffixes nor white space. -/
theorem plain_of_spelledCount (h : SpelledCount n cs) :
    ∀ c ∈ cs, (c ≠ 'm' ∧ c ≠ 's') ∧ Text.isBlank c = false := by
  intro c hc
  rcases h.mem c hc with hdigit | rfl
  · refine ⟨⟨?_, ?_⟩, isBlank_of_isDigit hdigit⟩ <;> rintro rfl <;> cases hdigit
  · decide

theorem Suffix.not_blank (u : Suffix) : ∀ c ∈ u.text.toList, Text.isBlank c = false := by
  have hall : (u.text.toList.all fun c => !Text.isBlank c) = true := by cases u <;> decide
  exact fun c hc => by simpa using List.all_eq_true.1 hall c hc

/-- A number with a suffix right behind it is read under that suffix, with white space around both
or without. -/
theorem parse?_around {before after : List Char} (hbefore : Blank before)
    (hcount : SpelledCount n cs) (hafter : Blank after)
    (hs : s.toList = before ++ (cs ++ u.text.toList) ++ after) :
    parse? s = (count? cs).mapM u.read := by
  have hplain := plain_of_spelledCount hcount
  have hcore := Text.trim_append hbefore (List.append_ne_nil_of_left_ne_nil hcount.ne_nil _)
    (List.forall_mem_append.2 ⟨fun c hc => (hplain c hc).2, u.not_blank⟩) hafter
  rw [← hs] at hcore
  exact parse?_of_trim (fun c hc => (hplain c hc).1) hcore

/-- A spelled duration is read under its own suffix. -/
theorem Spelled.parse?_eq (h : Spelled u n s.toList) : parse? s = (u.read n).map some := by
  generalize hs : s.toList = text at h
  obtain ⟨hbefore, hcount, hn, hafter⟩ := h
  rw [parse?_around hbefore hcount hafter hs, count?_eq_some_iff.2 ⟨hcount, hn⟩]
  rfl

/-- A text that is not refused is a spelled duration. -/
theorem exists_spelled (h : parse? s ≠ .ok none) : ∃ u n, Spelled u n s.toList := by
  obtain ⟨u, cs, htrim, hread⟩ := exists_suffix s
  obtain ⟨before, after, hbefore, hafter, hs⟩ := Text.exists_trim s.toList
  cases hn : count? cs with
  | none =>
    rw [hread, hn] at h
    exact absurd rfl h
  | some n =>
    obtain ⟨hcount, hlt⟩ := count?_eq_some_iff.1 hn
    refine ⟨u, n, ?_⟩
    rw [← hs, ← htrim]
    exact .mk hbefore hcount hlt hafter

/-- A number is read as what it says with its suffix, unless the seconds of minutes overflow. -/
theorem Suffix.read_eq_ok_iff {d : Duration} : u.read n = .ok d ↔
    (u = .minutes → 60 * n < 0x10000000000000000) ∧ d = ⟨u.millis * n⟩ := by
  cases u with
  | milliseconds => simp [Suffix.read, Suffix.millis, eq_comm]
  | seconds | none => simp [Suffix.read, Suffix.millis, ofSeconds, eq_comm]
  | minutes =>
    rw [Suffix.read, ofMinutes]
    split
    · next hfits =>
      have hfits : 60 * n < 0x10000000000000000 := hfits
      simp [hfits, Suffix.millis, ofSeconds, ← Nat.mul_assoc, eq_comm]
    · next hover =>
      exact ⟨nofun, fun h => absurd (h.1 rfl) hover⟩

theorem Suffix.read_eq_error_iff {o : Overflow} :
    u.read n = .error o ↔ u = .minutes ∧ 0x10000000000000000 ≤ 60 * n := by
  cases u with
  | milliseconds | seconds | none => exact ⟨nofun, nofun⟩
  | minutes =>
    rw [Suffix.read, ofMinutes]
    split
    · next hfits => exact ⟨nofun, fun h => absurd hfits (Nat.not_lt.2 h.2)⟩
    · next hover => exact iff_of_true rfl ⟨rfl, Nat.le_of_not_lt hover⟩

/-- What a spelled duration is read as, and when it overflows. -/
theorem Spelled.parse?_eq_ok_iff {d : Duration} (h : Spelled u n s.toList) :
    parse? s = .ok (some d) ↔ u.read n = .ok d := by
  rw [h.parse?_eq]
  cases u.read n <;> simp [Except.map]

theorem Spelled.parse?_ne_none (h : Spelled u n s.toList) : parse? s ≠ .ok none := by
  rw [h.parse?_eq]
  cases u.read n <;> simp [Except.map]

theorem Spelled.parse?_eq_error_iff {o : Overflow} (h : Spelled u n s.toList) :
    parse? s = .error o ↔ u.read n = .error o := by
  rw [h.parse?_eq]
  cases u.read n <;> simp [Except.map]

/-- Just numbers of minutes overflow, those whose seconds have more than 64 bits. -/
theorem parse?_eq_error_iff {o : Overflow} :
    parse? s = .error o ↔ ∃ n, Spelled .minutes n s.toList ∧ 0x10000000000000000 ≤ 60 * n := by
  constructor
  · intro h
    obtain ⟨u, n, hspelled⟩ := exists_spelled (s := s) (by rw [h]; nofun)
    obtain ⟨rfl, hover⟩ := Suffix.read_eq_error_iff.1 (hspelled.parse?_eq_error_iff.1 h)
    exact ⟨n, hspelled, hover⟩
  · rintro ⟨n, hspelled, hover⟩
    exact hspelled.parse?_eq_error_iff.2 (Suffix.read_eq_error_iff.2 ⟨rfl, hover⟩)

/-- **Durations are read by their grammar**: a text is read as a duration exactly if it is a spelled
duration, which is then what its number and its suffix say, as long as a number of minutes has no
more than 64 bits of seconds. Exactly the texts that are no spelled durations are refused. -/
theorem parse?_spelled (s : String) :
    (∀ d, parse? s = .ok (some d) ↔ ∃ u n, Spelled u n s.toList ∧
      (u = .minutes → 60 * n < 0x10000000000000000) ∧ d = ⟨u.millis * n⟩) ∧
    (parse? s = .ok none ↔ ¬ ∃ u n, Spelled u n s.toList) := by
  refine ⟨fun d => ⟨fun h => ?_, ?_⟩, fun h => ?_, fun h => ?_⟩
  · obtain ⟨u, n, hspelled⟩ := exists_spelled (s := s) (by rw [h]; nofun)
    exact ⟨u, n, hspelled, Suffix.read_eq_ok_iff.1 (hspelled.parse?_eq_ok_iff.1 h)⟩
  · rintro ⟨u, n, hspelled, hd⟩
    exact hspelled.parse?_eq_ok_iff.2 (Suffix.read_eq_ok_iff.2 hd)
  · rintro ⟨u, n, hspelled⟩
    exact hspelled.parse?_ne_none h
  · by_contra hread
    exact h (exists_spelled hread)

end ClusterScaling.Duration
