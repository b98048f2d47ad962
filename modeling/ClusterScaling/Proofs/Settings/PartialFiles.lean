import ClusterScaling.Proofs.Settings.Validation
import ClusterScaling.Proofs.Toml.Decoding
import ClusterScaling.Proofs.Toml.Refusals
import ClusterScaling.Settings.File

/-!
# Files with some of the settings

A file sets what it sets and leaves the rest to the defaults. Whatever some settings are, and however
a valid document writes just these, with whatever else and in whatever order, it is read as the
defaults with these settings in their places, and the first of them that is not valid is named, as
long as no duration before it overflows (`Settings.parse_partial`).
-/

namespace ClusterScaling

open Json (Fields Shape)

namespace Settings

/-- Some of the settings. -/
structure Partial where
  endpoint : Option String := none
  requestTimeout : Option String := none
  pollInterval : Option String := none
  timeout : Option String := none
  scaleDownTimeout : Option String := none
  failoverTimeout : Option String := none
  resumeReconciliation : Option Bool := none

namespace Partial

/-- The defaults with these settings in their places. -/
def withDefaults (p : Partial) : Settings :=
  let default : Settings := {}
  { cluster :=
      { endpoint := p.endpoint.getD default.cluster.endpoint
        requestTimeout := p.requestTimeout.getD default.cluster.requestTimeout }
    watch :=
      { pollInterval := p.pollInterval.getD default.watch.pollInterval
        timeout := p.timeout.getD default.watch.timeout
        scaleDownTimeout := p.scaleDownTimeout.getD default.watch.scaleDownTimeout
        failoverTimeout := p.failoverTimeout.getD default.watch.failoverTimeout }
    scale :=
      { resumeReconciliation :=
          p.resumeReconciliation.getD default.scale.resumeReconciliation } }

/-- The durations in the order in which they are checked. -/
def durations (p : Partial) : List (String × String) :=
  [("cluster.request_timeout", p.requestTimeout.getD "30s"),
   ("watch.poll_interval", p.pollInterval.getD "5s"),
   ("watch.timeout", p.timeout.getD "5m"),
   ("watch.scale_down_timeout", p.scaleDownTimeout.getD "25m"),
   ("watch.failover_timeout", p.failoverTimeout.getD "5m")]

theorem durations_withDefaults (p : Partial) : p.withDefaults.durations = p.durations := rfl

/-- Where each setting stands in a file, and what stands there. -/
def values (p : Partial) : List ((String × String) × Option Toml.Value) :=
  [(("cluster", "endpoint"), p.endpoint.map .string),
   (("cluster", "request_timeout"), p.requestTimeout.map .string),
   (("watch", "poll_interval"), p.pollInterval.map .string),
   (("watch", "timeout"), p.timeout.map .string),
   (("watch", "scale_down_timeout"), p.scaleDownTimeout.map .string),
   (("watch", "failover_timeout"), p.failoverTimeout.map .string),
   (("scale", "resume_reconciliation"), p.resumeReconciliation.map .boolean)]

end Partial

end Settings

/-- What stands there is a table. -/
def Toml.Role.isTable : Toml.Role → Bool
  | .value _ | .elements => false
  | .inline | .headed | .named | .dotted => true

namespace Settings

/-- The outline is that of a document that writes just these settings, under their sections. -/
structure Partial.WrittenIn (p : Partial) (o : Toml.Outline) : Prop where
  values : ∀ e ∈ p.values, o [e.1.1, e.1.2] = e.2.map .value
  sections : ∀ e ∈ p.values, ∀ r ∈ o [e.1.1], r.isTable = true

/-! ## Sections -/

/-- The entries of a section. -/
def sectionOf (entries : List (String × Toml.Value)) (name : String) : List (String × Toml.Value) :=
  match entries.lookup name with
  | some (.table es) => es
  | _ => []

section
variable {root : Toml.Table} {entries : List (String × Toml.Value)} {p : Partial}
  {name field : String} {x : Option Toml.Value}

/-- A section of a file is a table, if it is there. -/
theorem lookup_section (h : p.WrittenIn root.outline) (hmem : ((name, field), x) ∈ p.values) :
    (Toml.entryValues root.entries).lookup name = none ∧ root.outline [name] = none ∨
      ∃ es, (Toml.entryValues root.entries).lookup name = some (.table es) := by
  have hsection := h.sections _ hmem
  have hpath : ∀ q, q <+: [] → root.outline (name :: q) ≠ some .elements := by
    intro q hq helements
    obtain rfl := List.prefix_nil.1 hq
    cases hsection _ helements
  have houtline := Toml.Table.outline_value hpath
  rw [Toml.Value.outline_table_cons] at houtline
  cases hlookup : (Toml.entryValues root.entries).lookup name with
  | none =>
    rw [hlookup] at houtline
    exact .inl ⟨rfl, Option.map_eq_none_iff.1 houtline.symm⟩
  | some v =>
    rw [hlookup, Option.bind_some] at houtline
    cases hrole : root.outline [name] with
    | none =>
      rw [hrole] at houtline
      exact absurd houtline v.outline_nil_ne
    | some r =>
      have htable := hsection r hrole
      have hinline : v.outline [] = some .inline := by
        rw [houtline, hrole]
        cases r <;> first | rfl | cases htable
      obtain ⟨es, rfl⟩ := Toml.Value.exists_of_inline hinline
      exact .inr ⟨es, rfl⟩

/-- A section holds a setting if it is written there, and nothing of its name otherwise. -/
theorem lookup_setting (h : p.WrittenIn root.outline) (hmem : ((name, field), x) ∈ p.values) :
    (sectionOf (Toml.entryValues root.entries) name).lookup field = x := by
  have hvalue : root.outline [name, field] = x.map .value := h.values _ hmem
  rcases lookup_section h hmem with ⟨hlookup, hnone⟩ | ⟨es, hlookup⟩
  · rw [sectionOf, hlookup]
    rw [Toml.Table.outline_eq_none hnone] at hvalue
    exact (Option.map_eq_none_iff.1 hvalue.symm).symm
  · have hpath : ∀ q, q <+: [field] → root.outline (name :: q) ≠ some .elements := by
      intro q hq helements
      rcases List.prefix_cons_iff.1 hq with rfl | ⟨q', rfl, hq'⟩
      · cases h.sections _ hmem _ helements
      · obtain rfl := List.prefix_nil.1 hq'
        rw [hvalue] at helements
        cases x <;> cases helements
    have houtline := Toml.Table.outline_value hpath
    rw [Toml.Value.outline_table_cons, hlookup, Option.bind_some, Toml.Value.outline_table_cons,
      hvalue] at houtline
    rw [sectionOf, hlookup]
    show es.lookup field = x
    cases hfield : es.lookup field with
    | none =>
      rw [hfield] at houtline
      cases x with
      | none => rfl
      | some y => cases houtline
    | some v =>
      rw [hfield, Option.bind_some] at houtline
      cases x with
      | none => exact absurd houtline v.outline_nil_ne
      | some y => rw [Toml.Value.eq_of_outline houtline]

theorem sectionOf_tidy (h : (Toml.Value.table entries).Tidy) (name : String) :
    ((sectionOf entries name).map Prod.fst).Nodup := by
  unfold sectionOf
  split
  · next es hlookup =>
    obtain ⟨l₁, l₂, hsplit, -⟩ := List.lookup_eq_some_iff.1 hlookup
    exact (Toml.Value.tidyEntries_iff.1 h.2 (name, .table es) (by simp [hsplit])).1
  · exact List.nodup_nil

/-- A text that is written is read, and otherwise the default stands for it. -/
theorem read_text {o : Option String} (h : entries.lookup name = o.map .string) (default : String) :
    match entries.lookup name with
    | some v => Shape.text.ofToml v = .ok (o.getD default)
    | none => (Json.Presence.absentAs default).default? = some (o.getD default) := by
  rw [h]
  cases o with
  | none => rfl
  | some s =>
    show Shape.text.ofToml (.string s) = .ok s
    rw [Shape.ofToml]

theorem read_flag {o : Option Bool} (h : entries.lookup name = o.map .boolean) (default : Bool) :
    match entries.lookup name with
    | some v => Shape.flag.ofToml v = .ok (o.getD default)
    | none => (Json.Presence.absentAs default).default? = some (o.getD default) := by
  rw [h]
  cases o with
  | none => rfl
  | some b =>
    show Shape.flag.ofToml (.boolean b) = .ok b
    rw [Shape.ofToml]

/-- A section is read by its settings, and an absent one is as good as an empty one. -/
theorem read_section {α β : Type} {what : String} {fields : Fields β} {make : β → α} {parts : α → β}
    {make_parts : ∀ a, make (parts a) = a} {parts_make : ∀ b, parts (make b) = b} {b : β} {d : α}
    (hnames : fields.names.Nodup) (htidy : (Toml.Value.table entries).Tidy)
    (hlookup : entries.lookup name = none ∨ ∃ es, entries.lookup name = some (.table es))
    (hb : fields.ReadToml (sectionOf entries name) b) (hd : fields.ReadToml [] (parts d)) :
    match entries.lookup name with
    | some v => (Shape.record what fields make parts make_parts parts_make).ofToml v = .ok (make b)
    | none => (Json.Presence.absentAs d).default? = some (make b) := by
  have hkeys := sectionOf_tidy htidy name
  rcases hlookup with hnone | ⟨es, hes⟩
  · rw [sectionOf, hnone] at hb
    rw [hnone, hb.unique hd]
    exact congrArg some (make_parts d).symm
  · rw [sectionOf, hes] at hb hkeys
    rw [hes]
    exact Json.Shape.ofToml_record hnames hkeys hb

/-- The settings of a table are those that it writes, and the defaults. -/
theorem shape_ofToml_partial (hroot : root.Tidy) (h : p.WrittenIn root.outline) :
    Settings.shape.ofToml (.table (Toml.entryValues root.entries)) = .ok p.withDefaults := by
  have htidy := Toml.Table.value_tidy hroot
  have hsections : ∀ e ∈ p.values, (Toml.entryValues root.entries).lookup e.1.1 = none ∨
      ∃ es, (Toml.entryValues root.entries).lookup e.1.1 = some (.table es) :=
    fun e hmem => (lookup_section h hmem).imp_left And.left
  have hsettings : ∀ e ∈ p.values,
      (sectionOf (Toml.entryValues root.entries) e.1.1).lookup e.1.2 = e.2 :=
    fun e hmem => lookup_setting h hmem
  simp only [Partial.values, List.forall_mem_cons] at hsections hsettings
  obtain ⟨hcluster, -, hwatch, -, -, -, hscale, -⟩ := hsections
  obtain ⟨hendpoint, hrequest, hpoll, htimeout, hscaleDown, hfailover, hresume, -⟩ := hsettings
  let s := p.withDefaults
  refine Json.Shape.ofToml_record (b := (s.cluster, s.watch, s.scale, ())) (by decide) htidy.1
    ⟨?_, ?_, ?_, trivial⟩
  · exact read_section (b := (_, _, ())) (by decide) htidy hcluster
      ⟨read_text hendpoint _, read_text hrequest _, trivial⟩ ⟨rfl, rfl, trivial⟩
  · exact read_section (b := (_, _, _, _, ())) (by decide) htidy hwatch
      ⟨read_text hpoll _, read_text htimeout _, read_text hscaleDown _, read_text hfailover _,
        trivial⟩ ⟨rfl, rfl, rfl, rfl, trivial⟩
  · exact read_section (b := (_, ())) (by decide) htidy hscale ⟨read_flag hresume _, trivial⟩
      ⟨rfl, trivial⟩

end

/-! ## Files -/

section
variable {s : Settings} {text : String} {ls : List Toml.Line} {p : Partial}

theorem parse_of_read (h : read text = .ok s) :
    parse text = (s.validate.mapError (·.map SettingsError.invalid)).map fun _ => s := by
  rw [parse, h]
  show (s.validate.mapError (·.map SettingsError.invalid)).bind _ = _
  cases s.validate <;> rfl

theorem parse_of_refused (h : Toml.read? text.toList = none) :
    parse text = .error (.cause .malformed) := by
  rw [parse, read, h]
  rfl

/-- **Files with some of the settings**: a document that writes just these is read as the defaults
with these in their places, and the first setting that is not valid is named. Only a document beyond
the limits of the reader is refused as a whole. -/
theorem parse_partial (hspelled : Toml.SpelledDocument ls text.toList)
    (hvalid : Toml.ValidDocument ls) (hwritten : p.WrittenIn (Toml.outline ls)) :
    (Toml.Layout.start.Readable ls →
      (¬ "http://".toList <+: p.withDefaults.cluster.endpoint.toList →
        parse text = .error (.cause (.invalid (.endpointNotHttp p.withDefaults.cluster.endpoint)))) ∧
      ("http://".toList <+: p.withDefaults.cluster.endpoint.toList →
        (∀ before key value after, p.durations = before ++ (key, value) :: after →
          (∀ d ∈ before, DenotesPositive d.2) → DenotesNone value →
          parse text = .error (.cause (.invalid (.notPositive key value)))) ∧
        ((∀ d ∈ p.durations, DenotesPositive d.2) → parse text = .ok p.withDefaults))) ∧
    (¬ Toml.Layout.start.Readable ls → parse text = .error (.cause .malformed)) := by
  refine ⟨fun hreadable => ?_, fun hreadable =>
    parse_of_refused (Toml.read?_refused hspelled hvalid hreadable)⟩
  obtain ⟨root, hroot, htidy, houtline⟩ := Toml.read?_spelled hspelled hvalid hreadable
  rw [← houtline] at hwritten
  have hread : read text = .ok p.withDefaults := by
    rw [read, hroot]
    show (shape.ofToml _).mapError _ = _
    rw [shape_ofToml_partial htidy hwritten]
    rfl
  refine ⟨fun hendpoint => ?_, fun hendpoint =>
    ⟨fun before key value after hsplit hbefore hvalue => ?_, fun hdurations => ?_⟩⟩
  · rw [parse_of_read hread, validate_endpoint hendpoint]
    rfl
  · rw [parse_of_read hread,
      validate_duration hendpoint (p.durations_withDefaults.trans hsplit) hbefore hvalue]
    rfl
  · rw [← p.durations_withDefaults] at hdurations
    rw [parse_of_read hread, validate_ok hendpoint hdurations]
    rfl

end

/-! ## A file out of order -/

/-- Two sections out of order, with a comment and a key that is no setting. -/
def sampleText : String :=
  "[watch]\ntimeout = '90s' # long\nextra.depth = 7\n\n[cluster]\nrequest_timeout = '2s'"

def sampleLines : List Toml.Line :=
  [.table ["watch"], .pair ["timeout"] (.text "90s"), .pair ["extra", "depth"] (.integer 7), .blank,
    .table ["cluster"], .pair ["request_timeout"] (.text "2s")]

theorem spelledPart_bare {part : String} (hne : part.toList ≠ [])
    (h : part.toList.all Toml.isKeyChar = true) : Toml.SpelledPart part part.toList := by
  have hchars := fun c hc => Toml.isKeyChar_iff.1 (List.all_eq_true.1 h c hc)
  simpa using Toml.SpelledPart.bare hne hchars

theorem spelledKey_bare {part : String} (hne : part.toList ≠ [])
    (h : part.toList.all Toml.isKeyChar = true) : Toml.SpelledKey [part] part.toList :=
  .one (spelledPart_bare hne h)

theorem blank_nil : Toml.Blank [] := fun _ h => absurd h List.not_mem_nil

theorem blank_space : Toml.Blank [' '] := fun _ h => .inl (List.mem_singleton.1 h)

theorem spelledLine_plain {line : Toml.Line} {cs : List Char} (h : Toml.SpelledContent line cs) :
    Toml.SpelledLine line cs := by
  simpa using Toml.SpelledLine.mk blank_nil h blank_nil .none

theorem spelledText_literal {s : String}
    (h : s.toList.all (fun c => Toml.isTextChar c && c != '\'') = true) :
    (Toml.Item.text s).SpelledBy ('\'' :: s.toList ++ ['\'']) := by
  have hliteral : Toml.Literal s.toList := by
    intro c hc
    have hchar := List.all_eq_true.1 h c hc
    rw [Bool.and_eq_true, bne_iff_ne] at hchar
    exact ⟨Toml.printable_of_isTextChar hchar.1, hchar.2⟩
  simpa using Toml.Item.SpelledBy.text (.literal hliteral)

theorem comment_hash {cs : List Char} (h : cs.all Toml.isTextChar = true) :
    Toml.Comment ('#' :: cs) :=
  .hash fun c hc => Toml.printable_of_isTextChar (List.all_eq_true.1 h c hc)

theorem sample_spelled : Toml.SpelledDocument sampleLines sampleText.toList := by
  have hwatch : Toml.SpelledContent (.table ["watch"]) _ :=
    .table blank_nil (spelledKey_bare (by decide) (by decide)) blank_nil
  have htimeout : Toml.SpelledContent (.pair ["timeout"] (.text "90s")) _ :=
    .pair (spelledKey_bare (by decide) (by decide)) blank_space blank_space
      (spelledText_literal (by decide))
  have hcomment : Toml.Comment ('#' :: " long".toList) :=
    comment_hash (by decide)
  have hextra : Toml.SpelledContent (.pair ["extra", "depth"] (.integer 7)) _ :=
    .pair (.dotted (spelledPart_bare (by decide) (by decide)) blank_nil blank_nil
        (spelledKey_bare (by decide) (by decide))) blank_space blank_space
      (.integer (.unsigned (.one (d := '7') rfl) (by decide)) (by decide) (by decide))
  have hcluster : Toml.SpelledContent (.table ["cluster"]) _ :=
    .table blank_nil (spelledKey_bare (by decide) (by decide)) blank_nil
  have hrequest : Toml.SpelledContent (.pair ["request_timeout"] (.text "2s")) _ :=
    .pair (spelledKey_bare (by decide) (by decide)) blank_space blank_space
      (spelledText_literal (by decide))
  have h := Toml.SpelledDocument.next (spelledLine_plain hwatch) .feed <|
    .next (.mk blank_nil htimeout blank_space hcomment) .feed <|
    .next (spelledLine_plain hextra) .feed <| .next (spelledLine_plain .blank) .feed <|
    .next (spelledLine_plain hcluster) .feed <| .last (spelledLine_plain hrequest)
  exact h

theorem sample_valid : Toml.ValidDocument sampleLines :=
  ⟨⟨trivial, .inl rfl⟩, ⟨trivial, trivial, rfl⟩, ⟨trivial, ⟨nofun, trivial⟩, rfl⟩, trivial,
    ⟨trivial, .inl rfl⟩, ⟨trivial, trivial, rfl⟩, trivial⟩

theorem sample_readable : Toml.Layout.start.Readable sampleLines := by
  have hlimit : 1 ≤ Toml.keyLimit := by decide
  exact ⟨hlimit, ⟨by decide, by decide, by decide, nofun⟩, ⟨by decide, by decide, by decide, nofun⟩,
    trivial, hlimit, ⟨by decide, by decide, by decide, nofun⟩, trivial⟩

theorem sample_written :
    Partial.WrittenIn { timeout := some "90s", requestTimeout := some "2s" }
      (Toml.outline sampleLines) := by
  have hheaded : ∀ {name : String}, Toml.outline sampleLines [name] = some .headed →
      ∀ r ∈ Toml.outline sampleLines [name], r.isTable = true := by
    intro name h r hr
    obtain rfl := Option.some.inj (h.symm.trans hr)
    rfl
  have hscale : ∀ r ∈ Toml.outline sampleLines ["scale"], r.isTable = true := nofun
  constructor
  · simp only [Partial.values, List.forall_mem_cons]
    exact ⟨rfl, rfl, rfl, rfl, rfl, rfl, rfl, nofun⟩
  · simp only [Partial.values, List.forall_mem_cons]
    exact ⟨hheaded rfl, hheaded rfl, hheaded rfl, hheaded rfl, hheaded rfl, hheaded rfl, hscale,
      nofun⟩

theorem parse_partial_sample :
    Toml.SpelledDocument sampleLines sampleText.toList ∧ Toml.ValidDocument sampleLines ∧
      Partial.WrittenIn { timeout := some "90s", requestTimeout := some "2s" }
        (Toml.outline sampleLines) ∧
      Toml.Layout.start.Readable sampleLines ∧
      parse sampleText =
        .ok { cluster := { requestTimeout := "2s" }, watch := { timeout := "90s" } } := by
  have hdurations : ∀ d ∈ Partial.durations { timeout := some "90s", requestTimeout := some "2s" },
      DenotesPositive d.2 := by
    have h : (Partial.durations { timeout := some "90s", requestTimeout := some "2s" }).all
        (fun d => isPositive d.2) = true := by decide
    exact fun d hd => isPositive_iff.1 (List.all_eq_true.1 h d hd)
  have hparse := parse_partial sample_spelled sample_valid sample_written
  exact ⟨sample_spelled, sample_valid, sample_written, sample_readable,
    ((hparse.1 sample_readable).2 (by decide)).2 hdurations⟩

/-! ## Files beyond the limits -/

/-- A valid document without settings. -/
structure IsSilent (ls : List Toml.Line) (text : String) : Prop where
  spelled : Toml.SpelledDocument ls text.toList
  valid : Toml.ValidDocument ls
  written : Partial.WrittenIn {} (Toml.outline ls)

theorem isSilent_of_none {ls : List Toml.Line} {text : String}
    (hspelled : Toml.SpelledDocument ls text.toList) (hvalid : Toml.ValidDocument ls)
    (h : ∀ name ∈ ["cluster", "watch", "scale"], ∀ q, Toml.outline ls (name :: q) = none) :
    IsSilent ls text where
  spelled := hspelled
  valid := hvalid
  written := by
    have hsection : ∀ e ∈ Partial.values {}, ∀ q,
        Toml.outline ls (e.1.1 :: q) = none ∧ e.2 = none := by
      simp only [List.forall_mem_cons] at h
      obtain ⟨hcluster, hwatch, hscale, -⟩ := h
      simp [Partial.values, hcluster, hwatch, hscale]
    refine ⟨fun e he => ?_, fun e he r hr => ?_⟩
    · rw [(hsection e he _).1, (hsection e he []).2]
      rfl
    · rw [(hsection e he []).1] at hr
      cases hr

/-- A document of one value under a key that is no section. -/
theorem isSilent_pair {k : String} {path : List String} {item : Toml.Item} {cs : List Char}
    (hk : ∀ name ∈ ["cluster", "watch", "scale"], name ≠ k)
    (hspelled : Toml.SpelledContent (.pair (k :: path) item) cs) (hvalid : item.Valid) :
    IsSilent [.pair (k :: path) item] (String.ofList cs) := by
  refine isSilent_of_none ?_ ⟨⟨hvalid, ?_, rfl⟩, trivial⟩ fun name hname q => ?_
  · rw [String.toList_ofList]
    exact .last (spelledLine_plain hspelled)
  · exact Toml.Outline.passable_of_none fun _ _ => rfl
  · exact if_neg (hk name hname)

/-! ### A key of too many parts -/

def longKey : Nat → List Char
  | 0 => "a".toList
  | n + 1 => "a".toList ++ [] ++ '.' :: [] ++ longKey n

theorem longKey_spelled (n : Nat) : Toml.SpelledKey (List.replicate (n + 1) "a") (longKey n) := by
  induction n with
  | zero => exact spelledKey_bare (by decide) (by decide)
  | succ n ih => exact .dotted (spelledPart_bare (by decide) (by decide)) blank_nil blank_nil ih

theorem one_spelled : (Toml.Item.integer 1).SpelledBy ['1'] :=
  .integer (.unsigned (.one (d := '1') rfl) (by decide)) (by decide) (by decide)

def longKeyLines : List Toml.Line := [.pair (List.replicate 80 "a") (.integer 1)]

def longKeyText : String := String.ofList (longKey 79 ++ [] ++ '=' :: [] ++ ['1'])

theorem longKey_isSilent : IsSilent longKeyLines longKeyText :=
  isSilent_pair (by decide) (.pair (longKey_spelled 79) blank_nil blank_nil one_spelled) trivial

theorem longKey_not_readable : ¬ Toml.Layout.start.Readable longKeyLines := by
  rintro ⟨⟨h, -⟩, -⟩
  rw [List.length_replicate] at h
  exact absurd h (by decide)

/-! ### Inline tables too deep in one another -/

def deepItem : Nat → Toml.Item
  | 0 => .integer 1
  | n + 1 => .table (.cons ["a"] (deepItem n) .nil)

def deepText : Nat → List Char
  | 0 => ['1']
  | n + 1 => '\x7b' :: ([] ++ ("a".toList ++ [] ++ '=' :: [] ++ deepText n) ++ [] ++ ['\x7d'])

theorem deepItem_spelled (n : Nat) : (deepItem n).SpelledBy (deepText n) := by
  induction n with
  | zero => exact one_spelled
  | succ n ih =>
    exact .table (.last blank_nil (spelledKey_bare (by decide) (by decide)) blank_nil blank_nil ih
      blank_nil)

theorem deepItem_valid (n : Nat) : (deepItem n).Valid := by
  induction n with
  | zero => trivial
  | succ n ih => exact ⟨ih, ⟨trivial, rfl⟩, trivial⟩

theorem deepItem_nesting (n : Nat) : (deepItem n).nesting = n := by
  induction n with
  | zero => rfl
  | succ n ih =>
    show max (deepItem n).nesting 0 + 1 = n + 1
    rw [ih, Nat.max_zero]

def deepLines : List Toml.Line := [.pair ["a"] (deepItem 80)]

def deepFile : String := String.ofList ("a".toList ++ [] ++ '=' :: [] ++ deepText 80)

theorem deep_isSilent : IsSilent deepLines deepFile :=
  isSilent_pair (by decide)
    (.pair (spelledKey_bare (by decide) (by decide)) blank_nil blank_nil (deepItem_spelled 80))
    (deepItem_valid 80)

theorem deep_not_readable : ¬ Toml.Layout.start.Readable deepLines := by
  rintro ⟨⟨-, -, h, -⟩, -⟩
  rw [deepItem_nesting] at h
  exact absurd h (by decide)

/-! ### A value in a table that is only named -/

def namedText : String := "[a.b.c]\nx=1\n[a]\nb.y=1"

def namedLines : List Toml.Line :=
  [.table ["a", "b", "c"], .pair ["x"] (.integer 1), .table ["a"], .pair ["b", "y"] (.integer 1)]

theorem named_spelled : Toml.SpelledDocument namedLines namedText.toList := by
  have habc : Toml.SpelledContent (.table ["a", "b", "c"]) _ :=
    .table blank_nil (.dotted (spelledPart_bare (by decide) (by decide)) blank_nil blank_nil
      (.dotted (spelledPart_bare (by decide) (by decide)) blank_nil blank_nil
        (spelledKey_bare (by decide) (by decide)))) blank_nil
  have hx : Toml.SpelledContent (.pair ["x"] (.integer 1)) _ :=
    .pair (spelledKey_bare (by decide) (by decide)) blank_nil blank_nil one_spelled
  have ha : Toml.SpelledContent (.table ["a"]) _ :=
    .table blank_nil (spelledKey_bare (by decide) (by decide)) blank_nil
  have hy : Toml.SpelledContent (.pair ["b", "y"] (.integer 1)) _ :=
    .pair (.dotted (spelledPart_bare (by decide) (by decide)) blank_nil blank_nil
      (spelledKey_bare (by decide) (by decide))) blank_nil blank_nil one_spelled
  have h := Toml.SpelledDocument.next (spelledLine_plain habc) .feed <|
    .next (spelledLine_plain hx) .feed <| .next (spelledLine_plain ha) .feed <|
    .last (spelledLine_plain hy)
  exact h

theorem named_isSilent : IsSilent namedLines namedText := by
  refine isSilent_of_none named_spelled ?_ ?_
  · refine ⟨⟨⟨nofun, nofun, trivial⟩, .inl rfl⟩, ⟨trivial, trivial, rfl⟩, ⟨trivial, .inr rfl⟩,
      ⟨trivial, ⟨?_, trivial⟩, rfl⟩, trivial⟩
    rintro r ⟨⟩
    rfl
  · simp only [List.forall_mem_cons]
    exact ⟨fun _ => rfl, fun _ => rfl, fun _ => rfl, nofun⟩

theorem named_not_readable : ¬ Toml.Layout.start.Readable namedLines := by
  rintro ⟨-, -, -, ⟨-, -, -, h⟩, -⟩
  exact h rfl

theorem IsSilent.refused {ls : List Toml.Line} {text : String} (h : IsSilent ls text)
    (hreadable : ¬ Toml.Layout.start.Readable ls) : parse text = .error (.cause .malformed) :=
  parse_of_refused (Toml.read?_refused h.spelled h.valid hreadable)

/-- Valid files without settings that are refused, one for each limit of the reader, although the
defaults are valid settings. -/
theorem silent_files_refused :
    Settings.validate {} = .ok () ∧
    (IsSilent longKeyLines longKeyText ∧ parse longKeyText = .error (.cause .malformed)) ∧
    (IsSilent deepLines deepFile ∧ parse deepFile = .error (.cause .malformed)) ∧
    (IsSilent namedLines namedText ∧ parse namedText = .error (.cause .malformed)) :=
  ⟨by decide, ⟨longKey_isSilent, longKey_isSilent.refused longKey_not_readable⟩,
    ⟨deep_isSilent, deep_isSilent.refused deep_not_readable⟩,
    ⟨named_isSilent, named_isSilent.refused named_not_readable⟩⟩

end Settings

end ClusterScaling
