import ClusterScaling.Proofs.Duration.Spelling
import ClusterScaling.Proofs.Settings.Durations

/-!
# Numbers of minutes

A number of minutes is read as its seconds. A number of more than 64 bits is no duration, but one
that only has seconds of more than 64 bits is not refused: it overflows (`minutes_overflow`). What is
read is exact, and so are the durations of accepted settings (`minutes_exact`).
-/

namespace ClusterScaling.Duration

open Decimal (SpelledCount)
open Settings (DurationKey)
open Text (Blank)

/-- The characters write a number of units, however large. -/
inductive Written (u : Suffix) (n : Nat) : List Char → Prop
  | mk {before cs after : List Char} : Blank before → SpelledCount n cs → Blank after →
      Written u n (before ++ (cs ++ u.text.toList) ++ after)

/-- The span of so many minutes, if its seconds have 64 bits. -/
def ofMinutes? (n : Nat) : Option Duration :=
  if 60 * n < wordSize then some (ofSeconds (60 * n)) else none

/-- What becomes of a text of `n` minutes. -/
structure ReadsMinutes (s : String) (n : Nat) : Prop where
  exact_iff : parse? s = .ok (some (ofSeconds (60 * n))) ↔ 60 * n < wordSize
  refused_iff : parse? s = .ok none ↔ wordSize ≤ n
  overflow_iff : parse? s = .error .minutes ↔ n < wordSize ∧ wordSize ≤ 60 * n
  /-- It is what was meant, unless the number has 64 bits and its seconds have more. -/
  meant_iff : parse? s = .ok (ofMinutes? n) ↔ 60 * n < wordSize ∨ wordSize ≤ n

variable {s : String} {n : Nat} {u : Suffix} {cs : List Char} {settings : Settings}

/-! ## Written numbers -/

theorem count?_of_spelledCount (h : SpelledCount n cs) :
    count? cs = if n < wordSize then some n else none := by
  split
  · next hn => exact count?_eq_some_iff.2 ⟨h, hn⟩
  · next hn =>
    refine Option.eq_none_iff_forall_ne_some.2 fun m hm => ?_
    obtain ⟨hcount, hlt⟩ := count?_eq_some_iff.1 hm
    rw [hcount.unique h] at hlt
    exact hn hlt

/-- A number is read under its suffix if it has 64 bits. -/
theorem Written.parse?_of_lt (h : Written u n s.toList) (hn : n < wordSize) :
    parse? s = (u.read n).map some := by
  generalize hs : s.toList = text at h
  obtain ⟨hbefore, hcount, hafter⟩ := h
  rw [parse?_around hbefore hcount hafter hs, count?_of_spelledCount hcount, if_pos hn]
  rfl

/-- A number of more bits is no duration. -/
theorem Written.parse?_of_ge (h : Written u n s.toList) (hn : wordSize ≤ n) :
    parse? s = .ok none := by
  generalize hs : s.toList = text at h
  obtain ⟨hbefore, hcount, hafter⟩ := h
  rw [parse?_around hbefore hcount hafter hs, count?_of_spelledCount hcount,
    if_neg (Nat.not_lt.2 hn)]
  rfl

/-- What is read is what is written. -/
theorem Written.eq_of_parse? {d : Duration} (h : Written u n s.toList)
    (hread : parse? s = .ok (some d)) : d = ⟨u.millis * n⟩ := by
  by_cases hn : n < wordSize
  · rw [h.parse?_of_lt hn] at hread
    cases hvalue : u.read n with
    | error o =>
      rw [hvalue] at hread
      cases hread
    | ok e =>
      rw [hvalue] at hread
      cases hread
      exact (Suffix.read_eq_ok_iff.1 hvalue).2
  · rw [h.parse?_of_ge (Nat.le_of_not_lt hn)] at hread
    cases hread

/-! ## Minutes -/

theorem Written.readsMinutes (h : Written .minutes n s.toList) : ReadsMinutes s n := by
  -- the number and its seconds fit, or only the number does, or neither
  by_cases hn : n < wordSize
  · have hread : parse? s = (ofMinutes n).map some := h.parse?_of_lt hn
    by_cases hfits : 60 * n < wordSize
    · rw [ofMinutes, if_pos hfits] at hread
      refine ⟨iff_of_true hread hfits, iff_of_false ?_ (Nat.not_le.2 hn), iff_of_false ?_ (by omega),
        iff_of_true ?_ (.inl hfits)⟩
      · simp [hread, Except.map]
      · simp [hread, Except.map]
      · rw [hread, ofMinutes?, if_pos hfits]
        rfl
    · rw [ofMinutes, if_neg hfits] at hread
      refine ⟨iff_of_false ?_ hfits, iff_of_false ?_ (Nat.not_le.2 hn), iff_of_true hread (by omega),
        iff_of_false ?_ (by omega)⟩ <;>
      simp [hread, Except.map]
  · have hge : wordSize ≤ n := Nat.le_of_not_lt hn
    have hread := h.parse?_of_ge hge
    refine ⟨iff_of_false ?_ (by omega), iff_of_true hread hge, iff_of_false ?_ (by omega),
      iff_of_true ?_ (.inr hge)⟩
    · simp [hread]
    · simp [hread]
    · rw [hread, ofMinutes?, if_neg (by omega)]

/-- **Minutes are exact or overflow**: a text of `n` minutes is read as just their seconds if these
have 64 bits, is no duration if `n` has more, and overflows between the two. More minutes are never
read as a shorter span, and a duration of accepted settings is as long as it is written. -/
theorem minutes_exact (n : Nat) :
    (∀ s, Written .minutes n s.toList → ReadsMinutes s n) ∧
    (∀ m ≤ n, ∀ (s t : String) (d e : Duration),
      Written .minutes m s.toList → Written .minutes n t.toList →
        parse? s = .ok (some d) → parse? t = .ok (some e) → d.millis ≤ e.millis) ∧
    ∀ settings : Settings, settings.validate = .ok () →
      ∀ (k : DurationKey) (u : Suffix), Written u n (k.text settings).toList →
        k.duration settings = .ok ⟨u.millis * n⟩ := by
  refine ⟨fun s => Written.readsMinutes, fun m hmn s t d e hs ht hd he => ?_,
    fun settings hvalid k u hk => ?_⟩
  · rw [hs.eq_of_parse? hd, ht.eq_of_parse? he]
    exact Nat.mul_le_mul_left _ hmn
  · obtain ⟨d, hd, hread, -⟩ := (Settings.ownDurations_of_validate hvalid).read k
    rw [hd, hk.eq_of_parse? hread]

/-- Settings with a bound of `307445734561825861` minutes. -/
def overlong : Settings := { watch := { timeout := "307445734561825861m" } }

/-- Such minutes are not refused, neither where they are read nor where settings are validated, and
one minute less is read exactly. -/
theorem minutes_overflow :
    Written .minutes 307445734561825861 overlong.watch.timeout.toList ∧
      ofMinutes? 307445734561825861 = none ∧
      parse? overlong.watch.timeout = .error .minutes ∧
      parse? "307445734561825860m" = .ok (some (ofSeconds 18446744073709551600)) ∧
      overlong.validate = .error (.overflow .minutes) ∧
      ¬ ∀ s n, Written .minutes n s.toList → parse? s = .ok (ofMinutes? n) := by
  have hcount : SpelledCount 307445734561825861 "307445734561825861".toList :=
    (count?_eq_some_iff.1 (by decide)).1
  have hwritten : Written .minutes 307445734561825861
      ([] ++ ("307445734561825861".toList ++ "m".toList) ++ []) := .mk nofun hcount nofun
  have hread : parse? overlong.watch.timeout = .error .minutes := rfl
  refine ⟨hwritten, by decide, hread, rfl, rfl, fun h => ?_⟩
  rw [h _ _ hwritten] at hread
  cases hread

end ClusterScaling.Duration
