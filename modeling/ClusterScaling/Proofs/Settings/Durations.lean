import ClusterScaling.Proofs.Settings.Validation
import ClusterScaling.Settings.File

/-!
# The durations of accepted settings

Validation goes through a list of keys, while each duration has a function of its own that reads it
and falls back to a default without a word. The two fit together: every duration of accepted
settings is the positive one that is written under its own key, and so are the bounds of every wait
(`Settings.validate_ownDurations`). All settings that commands get are so (`ownDurations_of_load`).
Settings with a duration that denotes nothing are refused, unless the seconds of another one overflow
before it is named (`overflow_hides_zero`).
-/

namespace ClusterScaling.Settings

/-- The settings that are durations. -/
inductive DurationKey where
  | requestTimeout
  | pollInterval
  | timeout
  | scaleDownTimeout
  | failoverTimeout
deriving DecidableEq, Repr

namespace DurationKey

/-- The key as problems name it. -/
def name : DurationKey → String
  | requestTimeout => "cluster.request_timeout"
  | pollInterval => "watch.poll_interval"
  | timeout => "watch.timeout"
  | scaleDownTimeout => "watch.scale_down_timeout"
  | failoverTimeout => "watch.failover_timeout"

/-- What is written under the key. -/
def text (k : DurationKey) (s : Settings) : String :=
  match k with
  | requestTimeout => s.cluster.requestTimeout
  | pollInterval => s.watch.pollInterval
  | timeout => s.watch.timeout
  | scaleDownTimeout => s.watch.scaleDownTimeout
  | failoverTimeout => s.watch.failoverTimeout

/-- The duration that is used for the key. -/
def duration (k : DurationKey) (s : Settings) : Except Overflow Duration :=
  match k with
  | requestTimeout => s.requestTimeout
  | pollInterval => s.pollInterval
  | timeout => s.watchTimeout
  | scaleDownTimeout => s.scaleDownTimeout
  | failoverTimeout => s.failoverTimeout

end DurationKey

/-- The bounds of a wait are what is written under the keys of the poll interval and of its own
timeout. -/
inductive BoundsOf (s : Settings) (k : DurationKey) : Except Overflow WaitBounds → Prop
  | mk {bounds : WaitBounds} : Duration.parse? s.watch.pollInterval = .ok (some bounds.poll) →
      Duration.parse? (k.text s) = .ok (some bounds.timeout) → BoundsOf s k (.ok bounds)

/-- Every duration in use is positive and written in the settings, under its own key. -/
structure OwnDurations (s : Settings) : Prop where
  read : ∀ k : DurationKey, ∃ d, k.duration s = .ok d ∧
    Duration.parse? (k.text s) = .ok (some d) ∧ 0 < d.millis
  ordinary : BoundsOf s .timeout s.ordinaryWait
  scaleDown : BoundsOf s .scaleDownTimeout s.scaleDownWait
  failover : BoundsOf s .failoverTimeout s.failoverWait

/-- A problem that the settings have. -/
inductive HasProblem (s : Settings) : SettingsProblem → Prop
  | endpoint : ¬ "http://".toList <+: s.cluster.endpoint.toList →
      HasProblem s (.endpointNotHttp s.cluster.endpoint)
  | duration (k : DurationKey) : DenotesNone (k.text s) →
      HasProblem s (.notPositive k.name (k.text s))

/-- A duration overflows before validation comes to anything that is wrong. -/
def OverflowsFirst (s : Settings) : Prop :=
  "http://".toList <+: s.cluster.endpoint.toList ∧ ∃ before key text after,
    s.durations = before ++ (key, text) :: after ∧ (∀ d ∈ before, DenotesPositive d.2) ∧
      Duration.parse? text = .error .minutes

variable {s : Settings} {p : SettingsProblem} {key text : String}

/-! ## Keys -/

/-- The keys are all that validation goes through, and it goes through all of them. -/
theorem mem_durations_iff :
    (key, text) ∈ s.durations ↔ ∃ k : DurationKey, k.name = key ∧ k.text s = text := by
  constructor
  · intro h
    simp only [durations, List.mem_cons, List.not_mem_nil, or_false, Prod.mk.injEq] at h
    rcases h with ⟨rfl, rfl⟩ | ⟨rfl, rfl⟩ | ⟨rfl, rfl⟩ | ⟨rfl, rfl⟩ | ⟨rfl, rfl⟩
    · exact ⟨.requestTimeout, rfl, rfl⟩
    · exact ⟨.pollInterval, rfl, rfl⟩
    · exact ⟨.timeout, rfl, rfl⟩
    · exact ⟨.scaleDownTimeout, rfl, rfl⟩
    · exact ⟨.failoverTimeout, rfl, rfl⟩
  · rintro ⟨k, rfl, rfl⟩
    cases k <;> simp [durations, DurationKey.name, DurationKey.text]

/-- Each key has its own text read, whatever the default that stands in for it. -/
theorem DurationKey.exists_fallback (k : DurationKey) (s : Settings) :
    ∃ fallback, k.duration s = durationOr fallback (k.text s) := by
  cases k <;> exact ⟨_, rfl⟩

/-! ## What is accepted and refused -/

theorem duration_of_validate (h : s.validate = .ok ()) (k : DurationKey) :
    ∃ d, k.duration s = .ok d ∧ Duration.parse? (k.text s) = .ok (some d) ∧ 0 < d.millis := by
  obtain ⟨d, hd, hpos⟩ := parse?_of_validate h (mem_durations_iff.2 ⟨k, rfl, rfl⟩)
  obtain ⟨fallback, hfallback⟩ := k.exists_fallback s
  have hduration : k.duration s = .ok d := by rw [hfallback, durationOr, hd]; rfl
  exact ⟨d, hduration, hd, hpos⟩

theorem ownDurations_of_validate (h : s.validate = .ok ()) : OwnDurations s := by
  obtain ⟨poll, hpoll, hpollText, -⟩ := duration_of_validate h .pollInterval
  obtain ⟨timeout, htimeout, htimeoutText, -⟩ := duration_of_validate h .timeout
  obtain ⟨scaleDown, hscaleDown, hscaleDownText, -⟩ := duration_of_validate h .scaleDownTimeout
  obtain ⟨failover, hfailover, hfailoverText, -⟩ := duration_of_validate h .failoverTimeout
  simp only [DurationKey.duration] at hpoll htimeout hscaleDown hfailover
  have hordinary : s.ordinaryWait = .ok ⟨poll, timeout⟩ := by
    rw [ordinaryWait, hpoll, htimeout]
    rfl
  refine ⟨duration_of_validate h, ?_, ?_, ?_⟩
  · rw [hordinary]
    exact .mk hpollText htimeoutText
  · rw [scaleDownWait, hpoll, hscaleDown]
    exact .mk hpollText hscaleDownText
  · rw [failoverWait, hordinary, hfailover]
    exact .mk hpollText hfailoverText

/-- Accepted settings make every wait poll at a positive interval. -/
theorem poll_pos_of_validate (h : s.validate = .ok ()) :
    ∀ w ∈ s.waits, ∃ bounds, w = .ok bounds ∧ 0 < bounds.poll.millis := by
  have hown := ownDurations_of_validate h
  obtain ⟨poll, -, hpoll, hpos⟩ := hown.read .pollInterval
  have hbounds : ∀ {k : DurationKey} {w : Except Overflow WaitBounds}, BoundsOf s k w →
      ∃ bounds, w = .ok bounds ∧ 0 < bounds.poll.millis := by
    rintro k _ ⟨hread, -⟩
    cases hread.symm.trans hpoll
    exact ⟨_, rfl, hpos⟩
  simp only [waits, List.forall_mem_cons, List.not_mem_nil, false_implies, implies_true, and_true]
  exact ⟨hbounds hown.ordinary, hbounds hown.scaleDown, hbounds hown.failover⟩

/-- Settings are refused for a problem that they have. -/
theorem hasProblem_of_validate (h : s.validate = .error (.cause p)) : HasProblem s p := by
  rcases error_of_validate h with ⟨hendpoint, hp⟩ | ⟨-, before, key, text, after, hsplit, -, hp⟩
  · cases hp
    exact .endpoint hendpoint
  · rcases hp with ⟨hnone, hp⟩ | ⟨o, -, hp⟩
    · cases hp
      obtain ⟨k, rfl, rfl⟩ := mem_durations_iff.1 (show (key, text) ∈ s.durations by simp [hsplit])
      exact .duration k hnone
    · cases hp

theorem validate_eq_overflow_iff {o : Overflow} :
    s.validate = .error (.overflow o) ↔ OverflowsFirst s := by
  cases o
  constructor
  · intro h
    rcases error_of_validate h with
      ⟨-, he⟩ | ⟨hendpoint, before, key, text, after, hsplit, hbefore, he⟩
    · cases he
    · rcases he with ⟨-, he⟩ | ⟨o, hover, -⟩
      · cases he
      · exact ⟨hendpoint, before, key, text, after, hsplit, hbefore, hover⟩
  · rintro ⟨hendpoint, before, key, text, after, hsplit, hbefore, hover⟩
    have htext : ¬ DenotesPositive text := by
      rintro ⟨d, hd, -⟩
      cases hd.symm.trans hover
    rw [validate_first hendpoint hsplit hbefore htext, refusal_of_overflow hover]

/-- A key that denotes nothing, or no time at all, has the settings refused, unless a duration
overflows before. -/
theorem exists_problem (k : DurationKey) (h : DenotesNone (k.text s)) (hfirst : ¬ OverflowsFirst s) :
    ∃ p, s.validate = .error (.cause p) ∧ HasProblem s p := by
  cases hvalidate : s.validate with
  | ok =>
    obtain ⟨d, -, hd⟩ := duration_of_validate hvalidate k
    exact absurd ⟨d, hd⟩ h.not_positive
  | error e =>
    cases e with
    | cause p => exact ⟨p, rfl, hasProblem_of_validate hvalidate⟩
    | overflow o => exact absurd (validate_eq_overflow_iff.1 hvalidate) hfirst

/-- **Accepted settings never fall back**: each duration of accepted settings is the positive one
that is written under its own key, and the bounds of all waits are made of these. Settings with a
key that denotes nothing, or no time at all, are refused for a problem that they have if and only if
no duration overflows first. -/
theorem validate_ownDurations (s : Settings) :
    (s.validate = .ok () → OwnDurations s) ∧
    ∀ k : DurationKey, DenotesNone (k.text s) →
      (¬ OverflowsFirst s → ∃ p, s.validate = .error (.cause p) ∧ HasProblem s p) ∧
      (OverflowsFirst s → s.validate = .error (.overflow .minutes)) :=
  ⟨ownDurations_of_validate, fun k hk => ⟨exists_problem k hk, validate_eq_overflow_iff.2⟩⟩

/-- Durations that are written in their own ways, and one of no time at all. -/
theorem validate_ownDurations_spelled :
    let accepted : Settings := { watch := { pollInterval := " 0500ms", failoverTimeout := "+7m" } }
    let refused : Settings := { watch := { failoverTimeout := "0m" } }
    accepted.validate = .ok () ∧ OwnDurations accepted ∧
      accepted.failoverWait = .ok ⟨⟨500⟩, .ofSeconds 420⟩ ∧
      ∃ p, refused.validate = .error (.cause p) ∧ HasProblem refused p := by
  have hnamed : validate { watch := { failoverTimeout := "0m" } } =
      .error (.cause (.notPositive "watch.failover_timeout" "0m")) := rfl
  have hfirst : ¬ OverflowsFirst { watch := { failoverTimeout := "0m" } } := by
    rw [← validate_eq_overflow_iff (o := .minutes), hnamed]
    nofun
  exact ⟨rfl, (validate_ownDurations _).1 rfl, rfl,
    ((validate_ownDurations _).2 .failoverTimeout (.inr rfl)).1 hfirst⟩

/-- Settings whose request timeout overflows, and whose poll interval is no time at all. -/
def overshadowed : Settings :=
  { cluster := { requestTimeout := "307445734561825861m" }, watch := { pollInterval := "0m" } }

/-- Such settings are not refused: validation ends in the overflow. -/
theorem overflow_hides_zero :
    DenotesNone (DurationKey.pollInterval.text overshadowed) ∧
      overshadowed.validate = .error (.overflow .minutes) ∧
      ¬ ∀ (s : Settings) (k : DurationKey), DenotesNone (k.text s) →
        ∃ p, s.validate = .error (.cause p) := by
  have hnone : DenotesNone (DurationKey.pollInterval.text overshadowed) := .inr rfl
  refine ⟨hnone, rfl, fun h => ?_⟩
  obtain ⟨p, hp⟩ := h overshadowed .pollInterval hnone
  cases hp

/-! ## Loaded settings -/

theorem validate_of_resolved {t : Settings}
    (h : (t.validate.mapError (·.map LoadError.resolved) >>= fun _ => .ok t) = .ok s) :
    s.validate = .ok () := by
  cases hvalidate : t.validate with
  | error e =>
    rw [hvalidate] at h
    cases h
  | ok =>
    rw [hvalidate] at h
    obtain rfl := Except.ok.inj h
    exact hvalidate

/-- What is loaded has been accepted, with or without a file and another endpoint. -/
theorem ownDurations_of_load {file : Option (Option String)} {endpoint : Option String}
    (h : load file endpoint = .ok s) : OwnDurations s := by
  refine ownDurations_of_validate ?_
  cases file with
  | none => exact validate_of_resolved h
  | some content =>
    cases hfile : ofFile content with
    | error e =>
      rw [load, hfile] at h
      cases h
    | ok t =>
      rw [load, hfile] at h
      exact validate_of_resolved h

end ClusterScaling.Settings
