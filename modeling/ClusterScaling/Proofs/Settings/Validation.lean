import ClusterScaling.Settings.Basic

/-!
# Accepted settings

Settings are accepted exactly if their endpoint is an HTTP URL and all their durations are positive.
Otherwise the endpoint or the first other duration is named, unless that duration overflows, which
ends the validation instead.
-/

namespace ClusterScaling

namespace Settings

variable {s : Settings} {key value text : String} {before after : List (String × String)}

/-- The text denotes a positive duration. -/
def DenotesPositive (text : String) : Prop :=
  ∃ d, Duration.parse? text = .ok (some d) ∧ 0 < d.millis

/-- The text denotes no duration, or no time at all. -/
def DenotesNone (text : String) : Prop :=
  Duration.parse? text = .ok none ∨ Duration.parse? text = .ok (some ⟨0⟩)

theorem isPositive_iff : isPositive text = true ↔ DenotesPositive text := by
  unfold isPositive DenotesPositive
  split
  · next d hd => simp [hd]
  · next hnone => simp [hnone]
  · next hover => simp [hover]

/-- A text that denotes no positive duration denotes none, or overflows. -/
theorem denotesNone_or_overflows (h : ¬ DenotesPositive text) :
    DenotesNone text ∨ ∃ o, Duration.parse? text = .error o := by
  cases hread : Duration.parse? text with
  | error o => exact .inr ⟨o, rfl⟩
  | ok d? =>
    refine .inl ?_
    cases d? with
    | none => exact .inl hread
    | some d =>
      have hzero : d.millis = 0 := Nat.eq_zero_of_not_pos fun hpos => h ⟨d, hread, hpos⟩
      exact .inr (hread.trans (by rw [← hzero]))

theorem DenotesNone.not_positive (h : DenotesNone text) : ¬ DenotesPositive text := by
  rintro ⟨d, hd, hpos⟩
  rcases h with hnone | hzero
  · cases hnone.symm.trans hd
  · cases hzero.symm.trans hd
    exact Nat.lt_irrefl 0 hpos

theorem DenotesNone.refusal_eq (h : DenotesNone text) (key : String) :
    refusal key text = .cause (.notPositive key text) := by
  rcases h with h | h <;> rw [refusal, h]

theorem refusal_of_overflow {o : Overflow} (h : Duration.parse? text = .error o) (key : String) :
    refusal key text = .overflow o := by
  rw [refusal, h]

/-! ## The outcomes -/

theorem validate_endpoint (h : ¬ "http://".toList <+: s.cluster.endpoint.toList) :
    s.validate = .error (.cause (.endpointNotHttp s.cluster.endpoint)) := by
  have hprefix : "http://".toList.isPrefixOf s.cluster.endpoint.toList = false :=
    Bool.eq_false_iff.2 fun hp => h (List.isPrefixOf_iff_prefix.1 hp)
  rw [validate, hprefix]
  rfl

/-- The first duration that is not positive decides. -/
theorem validate_first (h : "http://".toList <+: s.cluster.endpoint.toList)
    (hsplit : s.durations = before ++ (key, value) :: after)
    (hbefore : ∀ d ∈ before, DenotesPositive d.2) (hvalue : ¬ DenotesPositive value) :
    s.validate = .error (refusal key value) := by
  have hself : isPositive value = false :=
    Bool.eq_false_iff.2 fun hp => hvalue (isPositive_iff.1 hp)
  have hfind : s.durations.find? (fun d => !isPositive d.2) = some (key, value) :=
    List.find?_eq_some_iff_append.2 ⟨by simp [hself], before, after, hsplit,
      fun d hd => by simpa using isPositive_iff.2 (hbefore d hd)⟩
  rw [validate, if_neg (by simpa using h), hfind]

/-- It is named if it denotes none. -/
theorem validate_duration (h : "http://".toList <+: s.cluster.endpoint.toList)
    (hsplit : s.durations = before ++ (key, value) :: after)
    (hbefore : ∀ d ∈ before, DenotesPositive d.2) (hvalue : DenotesNone value) :
    s.validate = .error (.cause (.notPositive key value)) := by
  rw [validate_first h hsplit hbefore hvalue.not_positive, hvalue.refusal_eq]

theorem validate_ok (h : "http://".toList <+: s.cluster.endpoint.toList)
    (hdurations : ∀ d ∈ s.durations, DenotesPositive d.2) : s.validate = .ok () := by
  have hfind : s.durations.find? (fun d => !isPositive d.2) = none :=
    List.find?_eq_none.2 fun d hd => by simpa using isPositive_iff.2 (hdurations d hd)
  rw [validate, if_neg (by simpa using h), hfind]

/-- Settings have no HTTP endpoint, or a first duration that is not positive, or are as they
should be. -/
theorem validate_cases (s : Settings) :
    ¬ "http://".toList <+: s.cluster.endpoint.toList ∨
    "http://".toList <+: s.cluster.endpoint.toList ∧
      ((∃ before key value after, s.durations = before ++ (key, value) :: after ∧
        (∀ d ∈ before, DenotesPositive d.2) ∧ ¬ DenotesPositive value) ∨
      ∀ d ∈ s.durations, DenotesPositive d.2) := by
  by_cases h : "http://".toList <+: s.cluster.endpoint.toList
  · refine .inr ⟨h, ?_⟩
    cases hfind : s.durations.find? fun d => !isPositive d.2 with
    | none =>
      refine .inr fun d hd => isPositive_iff.1 ?_
      simpa using List.find?_eq_none.1 hfind d hd
    | some e =>
      obtain ⟨hnot, before, after, hsplit, hbefore⟩ := List.find?_eq_some_iff_append.1 hfind
      refine .inl ⟨before, e.1, e.2, after, hsplit, fun d hd => isPositive_iff.1 ?_, fun hpos => ?_⟩
      · simpa using hbefore d hd
      · rw [isPositive_iff.2 hpos] at hnot
        cases hnot
  · exact .inl h

/-- What settings are refused for: the endpoint, or the first duration that is not positive, which
is named if it denotes none. -/
theorem error_of_validate {e : OrOverflow SettingsProblem} (h : s.validate = .error e) :
    ¬ "http://".toList <+: s.cluster.endpoint.toList ∧
      e = .cause (.endpointNotHttp s.cluster.endpoint) ∨
    "http://".toList <+: s.cluster.endpoint.toList ∧ ∃ before key value after,
      s.durations = before ++ (key, value) :: after ∧ (∀ d ∈ before, DenotesPositive d.2) ∧
        (DenotesNone value ∧ e = .cause (.notPositive key value) ∨
          ∃ o, Duration.parse? value = .error o ∧ e = .overflow o) := by
  rcases s.validate_cases with hendpoint | ⟨hendpoint, hfirst | hdurations⟩
  · rw [validate_endpoint hendpoint] at h
    exact .inl ⟨hendpoint, (Except.error.inj h).symm⟩
  · obtain ⟨before, key, value, after, hsplit, hbefore, hvalue⟩ := hfirst
    rw [validate_first hendpoint hsplit hbefore hvalue] at h
    obtain rfl := Except.error.inj h
    refine .inr ⟨hendpoint, before, key, value, after, hsplit, hbefore, ?_⟩
    rcases denotesNone_or_overflows hvalue with hnone | ⟨o, hover⟩
    · exact .inl ⟨hnone, hnone.refusal_eq key⟩
    · exact .inr ⟨o, hover, refusal_of_overflow hover key⟩
  · rw [validate_ok hendpoint hdurations] at h
    cases h

/-- Every duration of accepted settings is written as a positive span. -/
theorem parse?_of_validate (h : s.validate = .ok ()) (hmem : (key, text) ∈ s.durations) :
    DenotesPositive text := by
  rcases s.validate_cases with hendpoint | ⟨hendpoint, hfirst | hdurations⟩
  · rw [validate_endpoint hendpoint] at h
    cases h
  · obtain ⟨before, key, value, after, hsplit, hbefore, hvalue⟩ := hfirst
    rw [validate_first hendpoint hsplit hbefore hvalue] at h
    cases h
  · exact hdurations (key, text) hmem

/-- The bounds of all waits that the settings lead to, as they are read. -/
def waits (s : Settings) : List (Except Overflow WaitBounds) :=
  [s.ordinaryWait, s.scaleDownWait, s.failoverWait]

end Settings

end ClusterScaling
