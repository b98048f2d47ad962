import ClusterScaling.Proofs.Endpoint.Parts
import ClusterScaling.Proofs.Text.Trimming

/-!
# Base paths

Slashes and a query at the end of an endpoint do not change it, and no base path ends with a slash,
so that there is one slash between it and the path of a request (`Endpoint.parse_normalised`).
-/

namespace ClusterScaling

variable {cs authority rest more p : List Char}

namespace Uri

/-! ## Paths -/

theorem path?_eq_self (h : ∀ c ∈ rest, isPathChar c = true) : path? rest = some rest := by
  unfold path?
  rw [List.dropWhile_eq_nil_iff.2 h, List.takeWhile_eq_self_iff.2 h]

theorem path?_query (h : ∀ c ∈ rest, isPathChar c = true)
    (hquery : ∀ c ∈ more, isQueryChar c = true) : path? (rest ++ '?' :: more) = some rest := by
  have hmark : isPathChar '?' = false := by decide
  unfold path?
  rw [List.takeWhile_append_of_pos h, List.dropWhile_append_of_pos h]
  simp [hmark, List.dropWhile_eq_nil_iff.2 hquery]

theorem path?_eq_takeWhile (h : path? rest = some p) : p = rest.takeWhile isPathChar := by
  simp only [path?] at h
  split at h
  · exact (Option.some.inj h).symm
  · exact (Option.some.inj h).symm
  · split at h
    · exact (Option.some.inj h).symm
    · exact (Option.some.inj h).symm
    · cases h
  · cases h

/-- Without a query and a fragment there is a path only. -/
theorem forall_isPathChar (h : path? rest = some p) (hquery : '?' ∉ rest) (hfragment : '#' ∉ rest) :
    ∀ c ∈ rest, isPathChar c = true := by
  have hsub := (rest.dropWhile_sublist isPathChar).subset
  simp only [path?] at h
  split at h
  · next hnil => exact List.dropWhile_eq_nil_iff.1 hnil
  · next hmark => exact absurd (hsub (hmark ▸ List.mem_cons_self)) hfragment
  · next hmark => exact absurd (hsub (hmark ▸ List.mem_cons_self)) hquery
  · cases h

/-- A path is empty or begins with a slash. -/
theorem path_head (hended : ∀ c ∈ rest.head?, endsAuthority c = true) (h : path? rest = some p) :
    ∀ c ∈ p.head?, c = '/' := by
  obtain rfl := path?_eq_takeWhile h
  intro c hc
  cases rest with
  | nil => cases hc
  | cons c' rest =>
    have hends := hended c' rfl
    simp only [endsAuthority, Bool.or_eq_true, beq_iff_eq] at hends
    rcases hends with (rfl | rfl) | rfl
    · exact (Option.some.inj hc).symm
    · cases hc
    · cases hc

/-- What may stand behind an authority may follow an HTTP URL. -/
theorem Http.append (h : Http cs authority rest) (hmore : ∀ c ∈ more.head?, endsAuthority c = true)
    (hfits : (String.ofList (cs ++ more)).utf8ByteSize ≤ lengthLimit) :
    Http (cs ++ more) authority (rest ++ more) where
  marked := by
    obtain ⟨mark, hmark, rfl⟩ := h.marked
    exact ⟨mark, hmark, by simp⟩
  inside := h.inside
  ended := by
    cases rest with
    | nil => exact hmore
    | cons c rest => exact h.ended
  accepted := h.accepted
  ne_nil := h.ne_nil
  fits := hfits

end Uri

namespace Endpoint

variable {s t : String} {e : Endpoint}

/-- So many slashes. -/
def slashes (k : Nat) : String := String.ofList (List.replicate k '/')

/-- An endpoint does not change by what its base path loses. -/
theorem parse_append (h : parse s = .ok e) (hquery : '?' ∉ s.toList) (hfragment : '#' ∉ s.toList)
    (hmore : ∀ c ∈ t.toList.head?, Uri.endsAuthority c = true)
    (hfits : (s ++ t).utf8ByteSize ≤ Uri.lengthLimit)
    (hpath : ∀ path, (∀ c ∈ path, Uri.isPathChar c = true) →
      ∃ longer, Uri.path? (path ++ t.toList) = some longer ∧
        Text.trimEnd '/' longer = Text.trimEnd '/' path) :
    parse (s ++ t) = .ok e := by
  obtain ⟨authority, rest, path, hhttp, hread, rfl⟩ := parse_eq_ok_iff.1 h
  obtain ⟨mark, -, hs⟩ := hhttp.marked
  have hsub : ∀ c ∈ rest, c ∈ s.toList := fun c hc => hs ▸ by simp [hc]
  have hchars := Uri.forall_isPathChar hread (fun h => hquery (hsub _ h))
    (fun h => hfragment (hsub _ h))
  rw [Uri.path?_eq_self hchars] at hread
  obtain rfl := Option.some.inj hread
  obtain ⟨longer, hlonger, htrim⟩ := hpath rest hchars
  have hlist : (s ++ t).toList = s.toList ++ t.toList := String.toList_append
  refine parse_eq_ok_iff.2 ⟨authority, rest ++ t.toList, longer, ?_, hlonger, ?_⟩
  · rw [hlist]
    refine hhttp.append hmore ?_
    rwa [← hlist, String.ofList_toList]
  · rw [ofUri, ofUri, htrim]
    rfl

theorem parse_slashes (h : parse s = .ok e) (hquery : '?' ∉ s.toList) (hfragment : '#' ∉ s.toList)
    (k : Nat) (hfits : (s ++ slashes k).utf8ByteSize ≤ Uri.lengthLimit) :
    parse (s ++ slashes k) = .ok e := by
  have hslashes : ∀ c ∈ (slashes k).toList, c = '/' := fun c hc => by
    rw [slashes, String.toList_ofList] at hc
    exact List.eq_of_mem_replicate hc
  refine parse_append h hquery hfragment (fun c hc => ?_) hfits fun path hpath => ?_
  · rw [hslashes c (List.mem_of_mem_head? hc)]
    rfl
  · refine ⟨_, Uri.path?_eq_self (List.forall_mem_append.2 ⟨hpath, fun c hc => ?_⟩),
      Text.trimEnd_append hslashes⟩
    rw [hslashes c hc]
    rfl

theorem parse_query (h : parse s = .ok e) (hquery : '?' ∉ s.toList) (hfragment : '#' ∉ s.toList)
    (q : String) (hq : ∀ c ∈ q.toList, Uri.isQueryChar c = true)
    (hfits : (s ++ ("?" ++ q)).utf8ByteSize ≤ Uri.lengthLimit) :
    parse (s ++ ("?" ++ q)) = .ok e := by
  have hlist : ("?" ++ q).toList = '?' :: q.toList := by simp
  refine parse_append h hquery hfragment (fun c hc => ?_) hfits fun path hpath => ⟨path, ?_, rfl⟩
  · rw [hlist] at hc
    obtain rfl := Option.some.inj hc
    rfl
  · rw [hlist]
    exact Uri.path?_query hpath hq

theorem basePath_head (h : parse s = .ok e) :
    e.basePath = "" ∨ ['/'] <+: e.basePath.toList := by
  obtain ⟨authority, rest, path, hhttp, hread, rfl⟩ := parse_eq_ok_iff.1 h
  have hhead := Uri.path_head hhttp.ended hread
  obtain ⟨after, hafter⟩ := Text.exists_trimEnd '/' path
  unfold ofUri
  cases htrim : Text.trimEnd '/' path with
  | nil => exact .inl rfl
  | cons c kept =>
    rw [htrim] at hafter
    obtain rfl := hhead c (hafter ▸ rfl)
    exact .inr ⟨kept, (String.toList_ofList).symm⟩

theorem basePath_last (h : parse s = .ok e) : ¬ ['/'] <:+ e.basePath.toList := by
  obtain ⟨authority, rest, path, -, -, rfl⟩ := parse_eq_ok_iff.1 h
  rw [ofUri, String.toList_ofList]
  exact Text.not_suffix_trimEnd '/' path

/-- **Base paths are normalised**: slashes and a query behind an endpoint without query and fragment
do not change it, its base path is empty or begins with a slash, and does not end with one, so that
one slash joins it to a path. -/
theorem parse_normalised (h : parse s = .ok e) :
    ('?' ∉ s.toList → '#' ∉ s.toList →
      (∀ k, (s ++ slashes k).utf8ByteSize ≤ Uri.lengthLimit → parse (s ++ slashes k) = .ok e) ∧
      ∀ q : String, (∀ c ∈ q.toList, Uri.isQueryChar c = true) →
        (s ++ ("?" ++ q)).utf8ByteSize ≤ Uri.lengthLimit → parse (s ++ ("?" ++ q)) = .ok e) ∧
    (e.basePath = "" ∨ ['/'] <+: e.basePath.toList) ∧ ¬ ['/'] <:+ e.basePath.toList ∧
    ∀ below : String, ¬ ['/'] <+: below.toList →
      e.target ("/" ++ below) = e.basePath ++ "/" ++ below ∧
      e.url ("/" ++ below) = "http://" ++ e.address ++ e.target ("/" ++ below) := by
  refine ⟨fun hquery hfragment =>
      ⟨parse_slashes h hquery hfragment, parse_query h hquery hfragment⟩,
    basePath_head h, basePath_last h, fun below _ => ⟨?_, rfl⟩⟩
  rw [target, String.append_assoc]

theorem parse_normalised_bracketed :
    parse "http://u:p@[::1]:81/a//" = .ok ⟨"[::1]:81", "/a"⟩ ∧
      parse ("http://u:p@[::1]:81/a//" ++ slashes 2) = .ok ⟨"[::1]:81", "/a"⟩ ∧
      parse ("http://u:p@[::1]:81/a//" ++ ("?" ++ "/?b=`/")) = .ok ⟨"[::1]:81", "/a"⟩ ∧
      (Endpoint.mk "[::1]:81" "/a").target ("/" ++ "cluster") = "/a" ++ "/" ++ "cluster" := by
  have h : parse "http://u:p@[::1]:81/a//" = .ok ⟨"[::1]:81", "/a"⟩ := by decide +kernel
  obtain ⟨hmore, -, -, hjoint⟩ := parse_normalised h
  obtain ⟨hslashes, hquery⟩ := hmore (by decide) (by decide)
  have hchars := List.all_eq_true.1 (by decide : "/?b=`/".toList.all Uri.isQueryChar = true)
  exact ⟨h, hslashes 2 (by decide +kernel), hquery "/?b=`/" hchars (by decide +kernel),
    (hjoint "cluster" (by decide)).1⟩

end Endpoint

end ClusterScaling
