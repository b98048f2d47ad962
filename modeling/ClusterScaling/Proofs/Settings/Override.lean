import ClusterScaling.Proofs.Settings.Durations
import ClusterScaling.Proofs.Toml.Variation
import ClusterScaling.Settings.File

/-!
# An endpoint in place of the file's

What is loaded with an endpoint of the command line is the same for files that differ in their
endpoints only, as long as both of these are HTTP URLs (`Settings.load_override`). A file is checked
before its endpoint is replaced, so that an endpoint which is not one refuses the file all the same
(`Settings.load_overridden_refused`).
-/

namespace ClusterScaling

open Json (Shape)

/-- The section with another endpoint. -/
def ClusterSettings.withEndpoint (s : ClusterSettings) (endpoint : String) : ClusterSettings :=
  { s with endpoint := endpoint }

namespace Settings

variable {a b e : String} {s t s' : Settings} {x y : Option Toml.Value}

/-! ## Files that differ in their endpoint -/

/-- A text or nothing. -/
def IsText (v : Option Toml.Value) : Prop := ∃ s : Option String, v = s.map .string

/-- The entries of a section. An absent section has none. -/
inductive SectionEntries : Option Toml.Value → List (String × Toml.Value) → Prop
  | absent : SectionEntries none []
  | table {entries : List (String × Toml.Value)} : SectionEntries (some (.table entries)) entries

/-- The section `cluster` is the same but for the endpoint and whether it is given. As an array it
gives the endpoint first. -/
inductive SameButEndpoint : Option Toml.Value → Option Toml.Value → Prop
  | same {x : Option Toml.Value} : SameButEndpoint x x
  | tables {x y : Option Toml.Value} {entries entries' : List (String × Toml.Value)} :
      SectionEntries x entries → SectionEntries y entries' →
      Toml.VaryAt "endpoint" (fun v w => IsText v ∧ IsText w) entries entries' →
      SameButEndpoint x y
  | arrays {items items' : List Toml.Value} : IsText items.head? → IsText items'.head? →
      items.tail = items'.tail → SameButEndpoint (some (.array items)) (some (.array items'))

/-- The files are documents that are the same but for the endpoint, or both no documents. -/
def DifferInEndpoint (a b : String) : Prop :=
  Option.Rel (Toml.VaryAt "cluster" SameButEndpoint) (Toml.read? a.toList) (Toml.read? b.toList)

/-! ## Reading them -/

theorem IsText.ofEntry {default : String} (h : IsText x) (e : String) :
    (Shape.text.ofEntry default x).map (fun _ => e) = .ok e := by
  obtain ⟨s, rfl⟩ := h
  cases s with
  | none => rfl
  | some s =>
    show (Shape.text.ofToml (.string s)).map _ = _
    rw [Shape.ofToml]
    rfl

/-- An absent section is as good as an empty one. -/
theorem SectionEntries.ofEntry {entries : List (String × Toml.Value)}
    (h : SectionEntries x entries) :
    ClusterSettings.shape.ofEntry {} x = ClusterSettings.shape.ofToml (.table entries) := by
  cases h with
  | absent =>
    rw [ClusterSettings.shape, Shape.ofToml]
    rfl
  | table => rfl

/-- The endpoint is all that such sections differ in. -/
theorem SameButEndpoint.ofEntry (h : SameButEndpoint x y) (e : String) :
    (ClusterSettings.shape.ofEntry {} x).map (·.withEndpoint e) =
      (ClusterSettings.shape.ofEntry {} y).map (·.withEndpoint e) := by
  cases h with
  | same => rfl
  | tables hx hy hvary =>
    rw [hx.ofEntry, hy.ofEntry]
    refine Shape.ofToml_varyAt (f := fun _ => e) (hvary.imp fun h => ?_) fun _ _ _ _ => rfl
    rw [h.1.ofEntry, h.2.ofEntry]
  | arrays hitems hitems' htail =>
    refine Shape.ofToml_varyHead (f := fun _ => e) ?_ htail fun _ _ _ _ => rfl
    rw [hitems.ofEntry, hitems'.ofEntry]

/-- The endpoint is all that such files differ in. -/
theorem read_withEndpoint (h : DifferInEndpoint a b) (e : String) :
    (read a).map (·.withEndpoint e) = (read b).map (·.withEndpoint e) := by
  have hmap : ∀ r : Except Json.Mismatch Settings,
      (r.mapError SettingsError.mismatch).map (·.withEndpoint e) =
        (r.map (·.withEndpoint e)).mapError SettingsError.mismatch := fun r => by cases r <;> rfl
  unfold DifferInEndpoint at h
  rw [read, read]
  generalize Toml.read? a.toList = da, Toml.read? b.toList = db at h
  cases h with
  | none => rfl
  | @some entries entries' hvary =>
    have hread : (shape.ofToml (.table entries)).map (·.withEndpoint e) =
        (shape.ofToml (.table entries')).map (·.withEndpoint e) :=
      Shape.ofToml_varyAt (hvary.imp fun h => h.ofEntry e) fun _ _ b hcluster =>
        congrArg (fun c : ClusterSettings => Settings.mk c b.1 b.2.1) hcluster
    exact (hmap _).trans ((congrArg _ hread).trans (hmap _).symm)

/-! ## Loading them -/

/-- The endpoint is an HTTP URL by its mark. -/
def IsHttp (endpoint : String) : Prop := "http://".toList <+: endpoint.toList

instance (endpoint : String) : Decidable (IsHttp endpoint) :=
  inferInstanceAs (Decidable ("http://".toList <+: endpoint.toList))

/-- No other endpoint than an HTTP URL is read from the file. -/
def GivesHttp (file : String) : Prop := ∀ s, read file = .ok s → IsHttp s.cluster.endpoint

theorem validate_eq_ok_iff : s.validate = .ok () ↔
    IsHttp s.cluster.endpoint ∧ ∀ d ∈ s.durations, DenotesPositive d.2 := by
  constructor
  · intro h
    refine ⟨?_, fun d hd => parse?_of_validate h hd⟩
    by_contra hhttp
    rw [validate_endpoint hhttp] at h
    cases h
  · rintro ⟨hhttp, hdurations⟩
    exact validate_ok hhttp hdurations

/-- With an HTTP URL as endpoint the durations decide. -/
theorem validate_congr (h : s.durations = t.durations) (hs : IsHttp s.cluster.endpoint)
    (ht : IsHttp t.cluster.endpoint) : s.validate = t.validate := by
  unfold IsHttp at hs ht
  rw [validate, validate, if_neg (by simpa using hs), if_neg (by simpa using ht), h]

/-- What is loaded of what was read from a file, with another endpoint. -/
def override (e : String) (r : Except SettingsError Settings) :
    Except (OrOverflow LoadError) Settings :=
  (r.mapError fun x => .cause (.file x)).bind fun s =>
    (s.validate.mapError (·.map fun p => LoadError.file (.invalid p))).bind fun _ =>
      ((s.withEndpoint e).validate.mapError (·.map .resolved)).map fun _ => s.withEndpoint e

theorem load_eq_override (file e : String) :
    load (some (some file)) (some e) = override e (read file) := by
  rw [load, ofFile, parse, override]
  cases read file with
  | error x => rfl
  | ok s =>
    show Except.bind (Except.mapError _ (Except.bind (Except.mapError _ s.validate) _)) _ =
      Except.bind (Except.mapError _ s.validate) _
    cases s.validate with
    | error p => cases p <;> rfl
    | ok =>
      show Except.bind (Except.mapError _ (s.withEndpoint e).validate) _ =
        Except.map _ (Except.mapError _ (s.withEndpoint e).validate)
      cases (s.withEndpoint e).validate <;> rfl

theorem override_eq_ok_iff : override e (.ok s) = .ok s' ↔
    s.validate = .ok () ∧ (s.withEndpoint e).validate = .ok () ∧ s.withEndpoint e = s' := by
  show Except.bind (Except.mapError _ s.validate) _ = _ ↔ _
  cases s.validate with
  | error p => exact ⟨nofun, nofun⟩
  | ok =>
    show Except.map _ (Except.mapError _ (s.withEndpoint e).validate) = _ ↔ _
    cases (s.withEndpoint e).validate with
    | error p => exact ⟨nofun, nofun⟩
    | ok => exact ⟨fun h => ⟨rfl, rfl, Except.ok.inj h⟩, fun h => congrArg Except.ok h.2.2⟩

theorem validate_ne_endpoint (h : IsHttp s.cluster.endpoint) :
    s.validate ≠ .error (.cause (.endpointNotHttp a)) := by
  intro hrefused
  cases hasProblem_of_validate hrefused with
  | endpoint hnot => exact hnot h

/-- The file is refused for its own endpoint exactly if that is no HTTP URL. -/
theorem override_eq_refused_iff :
    override e (.ok s) = .error (.cause (.file (.invalid (.endpointNotHttp a)))) ↔
      ¬ IsHttp s.cluster.endpoint ∧ s.cluster.endpoint = a := by
  show Except.bind (Except.mapError _ s.validate) _ = _ ↔ _
  by_cases hhttp : IsHttp s.cluster.endpoint
  · refine ⟨fun h => ?_, fun h => absurd hhttp h.1⟩
    cases hv : s.validate with
    | error x =>
      rw [hv] at h
      cases x with
      | cause p =>
        cases h
        exact absurd hv (validate_ne_endpoint hhttp)
      | overflow o => cases h
    | ok =>
      rw [hv] at h
      replace h : Except.map _ (Except.mapError _ (s.withEndpoint e).validate) = _ := h
      cases hw : (s.withEndpoint e).validate with
      | error x =>
        rw [hw] at h
        cases x <;> cases h
      | ok =>
        rw [hw] at h
        cases h
  · rw [validate_endpoint hhttp]
    refine ⟨fun h => ⟨hhttp, ?_⟩, fun h => by rw [h.2]; rfl⟩
    cases h
    rfl

/-- Settings of which only the endpoint differs are the same if the endpoint is. -/
theorem eq_of_withEndpoint (h : s.withEndpoint e = t.withEndpoint e)
    (hendpoint : s.cluster.endpoint = t.cluster.endpoint) : s = t :=
  calc s = (s.withEndpoint e).withEndpoint s.cluster.endpoint := rfl
    _ = (t.withEndpoint e).withEndpoint t.cluster.endpoint := by rw [h, hendpoint]
    _ = t := rfl

/-- The endpoints of two files make no difference if both are HTTP URLs, and otherwise only if they
are the same. -/
theorem override_ok_eq_iff (h : s.withEndpoint e = t.withEndpoint e) :
    override e (.ok s) = override e (.ok t) ↔
      (IsHttp s.cluster.endpoint ∧ IsHttp t.cluster.endpoint) ∨ s = t := by
  constructor
  · intro hload
    by_cases hs : IsHttp s.cluster.endpoint
    · refine .inl ⟨hs, ?_⟩
      by_contra ht
      have hrefused : override e (.ok t) = _ := override_eq_refused_iff.2 ⟨ht, rfl⟩
      exact (override_eq_refused_iff.1 (hload.trans hrefused)).1 hs
    · have hrefused : override e (.ok s) = _ := override_eq_refused_iff.2 ⟨hs, rfl⟩
      have hendpoint := (override_eq_refused_iff.1 (hload.symm.trans hrefused)).2
      exact .inr (eq_of_withEndpoint h hendpoint.symm)
  · rintro (⟨hs, ht⟩ | rfl)
    · have hdurations : s.durations = t.durations :=
        calc s.durations = (s.withEndpoint e).durations := rfl
          _ = (t.withEndpoint e).durations := by rw [h]
          _ = t.durations := rfl
      show Except.bind (Except.mapError _ s.validate) _ =
        Except.bind (Except.mapError _ t.validate) _
      rw [validate_congr hdurations hs ht, h]
    · rfl

theorem override_eq_iff {r r' : Except SettingsError Settings}
    (h : r.map (·.withEndpoint e) = r'.map (·.withEndpoint e)) : override e r = override e r' ↔
      ((∀ s, r = .ok s → IsHttp s.cluster.endpoint) ∧ ∀ t, r' = .ok t → IsHttp t.cluster.endpoint) ∨
        r = r' := by
  cases r with
  | error x =>
    cases r' with
    | error x' =>
      obtain rfl := Except.error.inj h
      exact iff_of_true rfl (.inr rfl)
    | ok t => cases h
  | ok s =>
    cases r' with
    | error x' => cases h
    | ok t => simpa using override_ok_eq_iff (Except.ok.inj h)

theorem load_eq_ok_iff : load (some (some a)) (some e) = .ok s' ↔
    IsHttp e ∧ ∃ s, read a = .ok s ∧ IsHttp s.cluster.endpoint ∧
      (∀ d ∈ s.durations, DenotesPositive d.2) ∧ s' = s.withEndpoint e := by
  rw [load_eq_override]
  cases read a with
  | error x => exact ⟨nofun, fun ⟨_, _, h, _⟩ => nomatch h⟩
  | ok s =>
    rw [override_eq_ok_iff, validate_eq_ok_iff, validate_eq_ok_iff]
    constructor
    · rintro ⟨⟨hhttp, hdurations⟩, ⟨he, -⟩, rfl⟩
      exact ⟨he, s, rfl, hhttp, hdurations, rfl⟩
    · rintro ⟨he, t, ht, hhttp, hdurations, rfl⟩
      obtain rfl := Except.ok.inj ht
      exact ⟨⟨hhttp, hdurations⟩, ⟨he, hdurations⟩, rfl⟩

/-- **An endpoint in place of the file's**: for files that differ in their endpoint only, the same
is loaded with another endpoint if both give HTTP URLs, and otherwise only if the same is read from
both. It is loaded exactly if the other endpoint and the one of the file are HTTP URLs and the
durations of the file are positive, and is then what the file says but for the endpoint. A file
whose own endpoint is no HTTP URL is refused for that. -/
theorem load_override (h : DifferInEndpoint a b) (e : String) :
    (load (some (some a)) (some e) = load (some (some b)) (some e) ↔
      (GivesHttp a ∧ GivesHttp b) ∨ read a = read b) ∧
    (∀ s', load (some (some a)) (some e) = .ok s' ↔ IsHttp e ∧ ∃ s, read a = .ok s ∧
      IsHttp s.cluster.endpoint ∧ (∀ d ∈ s.durations, DenotesPositive d.2) ∧
      s' = s.withEndpoint e) ∧
    ∀ s, read a = .ok s → ¬ IsHttp s.cluster.endpoint →
      load (some (some a)) (some e) =
        .error (.cause (.file (.invalid (.endpointNotHttp s.cluster.endpoint)))) := by
  refine ⟨?_, fun s' => load_eq_ok_iff, fun s hs hhttp => ?_⟩
  · rw [load_eq_override, load_eq_override]
    exact override_eq_iff (read_withEndpoint h e)
  · rw [load_eq_override, hs]
    exact override_eq_refused_iff.2 ⟨hhttp, rfl⟩

/-! ## Three files -/

/-- Two documents of a section that gives an endpoint at most, and of others. -/
theorem differ_of_sections {s t : Option String} {after : List (String × Toml.Value)}
    (hx : SectionEntries x (Toml.entry "endpoint" (s.map .string)))
    (hy : SectionEntries y (Toml.entry "endpoint" (t.map .string)))
    (hafter : ∀ e ∈ after, e.1 ≠ "cluster")
    (ha : Toml.read? a.toList = some (Toml.entry "cluster" x ++ after))
    (hb : Toml.read? b.toList = some (Toml.entry "cluster" y ++ after)) : DifferInEndpoint a b := by
  have hvary : Toml.VaryAt "endpoint" (fun v w => IsText v ∧ IsText w)
      ([] ++ (Toml.entry "endpoint" (s.map .string) ++ []))
      ([] ++ (Toml.entry "endpoint" (t.map .string) ++ [])) :=
    @Toml.VaryAt.mk _ _ [] [] _ _ nofun nofun ⟨⟨s, rfl⟩, ⟨t, rfl⟩⟩
  rw [List.nil_append, List.nil_append, List.append_nil, List.append_nil] at hvary
  rw [DifferInEndpoint, ha, hb]
  exact .some (@Toml.VaryAt.mk _ _ [] _ _ _ nofun hafter (.tables hx hy hvary))

/-- The entries with what `f` makes of their values, if it takes them all. -/
def entriesBy {α : Type} (f : Toml.Value → Option α) :
    List (String × Toml.Value) → Option (List (String × α))
  | [] => some []
  | (name, v) :: rest => (f v).bind fun a => (entriesBy f rest).map ((name, a) :: ·)

def textOf? : Toml.Value → Option String
  | .string s => some s
  | _ => none

/-- The texts of a table that holds nothing else. -/
def textsOf? : Toml.Value → Option (List (String × String))
  | .table entries => entriesBy textOf? entries
  | _ => none

/-- A table of texts. -/
def ofTexts (ts : List (String × String)) : Toml.Value := .table (ts.map fun t => (t.1, .string t.2))

/-- Entries are known from what is made of their values, if these are. -/
theorem eq_of_entriesBy {α : Type} {f : Toml.Value → Option α} {g : α → Toml.Value}
    (hf : ∀ v a, f v = some a → v = g a) {entries : List (String × Toml.Value)}
    {values : List (String × α)} (h : entriesBy f entries = some values) :
    entries = values.map fun e => (e.1, g e.2) := by
  induction entries generalizing values with
  | nil => cases h; rfl
  | cons e rest ih =>
    obtain ⟨a, ha, hrest⟩ := Option.bind_eq_some_iff.1 h
    obtain ⟨values', hvalues, rfl⟩ := Option.map_eq_some_iff.1 hrest
    rw [List.map_cons, ← ih hvalues, ← hf e.2 a ha]

theorem eq_of_textOf? (v : Toml.Value) (s : String) (h : textOf? v = some s) : v = .string s := by
  cases v with
  | string t => rw [Option.some.inj h]
  | _ => cases h

theorem eq_of_textsOf? (v : Toml.Value) (ts : List (String × String)) (h : textsOf? v = some ts) :
    v = ofTexts ts := by
  cases v with
  | table entries => exact congrArg _ (eq_of_entriesBy eq_of_textOf? h)
  | _ => cases h

/-- A document of sections that hold texts is known from these. -/
theorem read?_of_sections {cs : List Char} (sections : List (String × List (String × String)))
    (h : (Toml.read? cs).bind (entriesBy textsOf?) = some sections) :
    Toml.read? cs = some (sections.map fun s => (s.1, ofTexts s.2)) := by
  obtain ⟨entries, hread, hentries⟩ := Option.bind_eq_some_iff.1 h
  rw [hread, eq_of_entriesBy eq_of_textsOf? hentries]

def watchText : String := "[watch]\ntimeout = '9s'"

def localText : String := "[cluster]\nendpoint = 'http://h:1'\n\n[watch]\ntimeout = '9s'"

def secureText : String := "[cluster]\nendpoint = 'https://h'\n\n[watch]\ntimeout = '9s'"

def watchEntry : String × Toml.Value := ("watch", .table [("timeout", .string "9s")])

theorem ne_cluster_watchEntry : ∀ e ∈ [watchEntry], e.1 ≠ "cluster" :=
  List.forall_mem_singleton.2 (by decide)

theorem read?_localText : Toml.read? localText.toList =
    some [("cluster", .table [("endpoint", .string "http://h:1")]), watchEntry] :=
  read?_of_sections [("cluster", [("endpoint", "http://h:1")]), ("watch", [("timeout", "9s")])]
    (by decide +kernel)

theorem local_differs_watch : DifferInEndpoint localText watchText := by
  refine differ_of_sections (s := some "http://h:1") (t := none) .table .absent
    ne_cluster_watchEntry read?_localText ?_
  exact read?_of_sections [("watch", [("timeout", "9s")])] (by decide +kernel)

theorem secure_differs_local : DifferInEndpoint secureText localText := by
  refine differ_of_sections (s := some "https://h") (t := some "http://h:1") .table .table
    ne_cluster_watchEntry ?_ read?_localText
  exact read?_of_sections [("cluster", [("endpoint", "https://h")]), ("watch", [("timeout", "9s")])]
    (by decide +kernel)

theorem read_localText : read localText =
    .ok { cluster := { endpoint := "http://h:1" }, watch := { timeout := "9s" } } := by
  decide +kernel

theorem positive_localText : ∀ d ∈
    durations { cluster := { endpoint := "http://h:1" }, watch := { timeout := "9s" } },
    DenotesPositive d.2 := by
  have h : (durations { cluster := { endpoint := "http://h:1" }, watch := { timeout := "9s" } }).all
      (fun d => isPositive d.2) = true := by decide
  exact fun d hd => isPositive_iff.1 (List.all_eq_true.1 h d hd)

theorem load_override_given :
    DifferInEndpoint localText watchText ∧
      load (some (some localText)) (some "http://o") =
        load (some (some watchText)) (some "http://o") ∧
      load (some (some localText)) (some "http://o") =
        .ok { cluster := { endpoint := "http://o" }, watch := { timeout := "9s" } } := by
  obtain ⟨hsame, hloaded, -⟩ := load_override local_differs_watch "http://o"
  have hwatch : read watchText = .ok { watch := { timeout := "9s" } } := by decide +kernel
  refine ⟨local_differs_watch, hsame.2 (.inl ⟨fun s h => ?_, fun s h => ?_⟩),
    (hloaded _).2 ⟨by decide, _, read_localText, by decide, positive_localText, rfl⟩⟩
  · obtain rfl := Except.ok.inj (read_localText.symm.trans h)
    decide
  · obtain rfl := Except.ok.inj (hwatch.symm.trans h)
    decide

/-- Two files that differ in their endpoint only, and an HTTP URL in place of both endpoints: one is
refused and the other loaded. -/
theorem load_overridden_refused :
    DifferInEndpoint secureText localText ∧
      load (some (some secureText)) (some "http://o") =
        .error (.cause (.file (.invalid (.endpointNotHttp "https://h")))) ∧
      load (some (some localText)) (some "http://o") =
        .ok { cluster := { endpoint := "http://o" }, watch := { timeout := "9s" } } := by
  refine ⟨secure_differs_local, by decide +kernel, ?_⟩
  rw [load_eq_override, read_localText]
  exact override_eq_ok_iff.2 ⟨validate_ok (by decide) positive_localText,
    validate_ok (by decide) positive_localText, rfl⟩

end Settings

end ClusterScaling
