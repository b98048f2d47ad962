import Mathlib.Data.List.TakeWhile
import ClusterScaling.Endpoint.Basic

/-!
# The parts of an HTTP URL

An HTTP URL is its mark, an authority, and the rest from the first slash, question mark or number
sign on. An endpoint is read from just such texts (`Endpoint.parse_eq_ok_iff`).
-/

namespace ClusterScaling

variable {cs authority rest mark : List Char}

namespace Uri

/-- The text is an HTTP URL with the authority, and `rest` behind it. -/
structure Http (cs authority rest : List Char) : Prop where
  marked : ∃ mark, mark.map Char.toLower = "http://".toList ∧ mark ++ (authority ++ rest) = cs
  inside : ∀ c ∈ authority, endsAuthority c = false
  ended : ∀ c ∈ rest.head?, endsAuthority c = true
  accepted : isAuthority authority = true
  ne_nil : authority ≠ []
  fits : (String.ofList cs).utf8ByteSize ≤ lengthLimit

theorem splitAuthority_append (hinside : ∀ c ∈ authority, endsAuthority c = false)
    (hended : ∀ c ∈ rest.head?, endsAuthority c = true) :
    splitAuthority (authority ++ rest) = (authority, rest) := by
  have hpos : ∀ c ∈ authority, (!endsAuthority c) = true := fun c hc => by simp [hinside c hc]
  have htake : rest.takeWhile (fun c => !endsAuthority c) = [] := by
    cases rest with
    | nil => rfl
    | cons c rest => simp [hended c rfl]
  have hdrop : rest.dropWhile (fun c => !endsAuthority c) = rest := by
    cases rest with
    | nil => rfl
    | cons c rest => simp [hended c rfl]
  rw [splitAuthority, List.takeWhile_append_of_pos hpos, List.dropWhile_append_of_pos hpos, htake,
    hdrop, List.append_nil]

theorem afterStart?_append {start : String} (h : mark.map Char.toLower = start.toList) :
    afterStart? start (mark ++ cs) = some cs := by
  have hlength : start.toList.length = mark.length := by rw [← h, List.length_map]
  rw [afterStart?]
  simp [hlength, h]

theorem exists_of_afterStart? {start : String} {r : List Char} (h : afterStart? start cs = some r) :
    ∃ mark, mark.map Char.toLower = start.toList ∧ mark ++ r = cs := by
  simp only [afterStart?] at h
  split at h
  · next hmark =>
    obtain rfl := Option.some.inj h
    exact ⟨_, hmark, List.take_append_drop _ _⟩
  · cases h

/-- Only the mark makes the scheme HTTP. -/
theorem exists_of_splitScheme? {r : List Char} (h : splitScheme? cs = some (some .http, r)) :
    ∃ mark, mark.map Char.toLower = "http://".toList ∧ mark ++ r = cs := by
  unfold splitScheme? at h
  split at h
  · next hstart =>
    obtain rfl := (Prod.mk.inj (Option.some.inj h)).2
    exact exists_of_afterStart? hstart
  · split at h
    · cases h
    · dsimp only at h
      split at h
      · split at h <;> cases h
      · cases h

theorem splitAuthority_eq {r : List Char} (h : splitAuthority r = (authority, rest)) :
    authority ++ rest = r ∧ (∀ c ∈ authority, endsAuthority c = false) ∧
      ∀ c ∈ rest.head?, endsAuthority c = true := by
  obtain ⟨rfl, rfl⟩ := Prod.mk.inj h
  refine ⟨List.takeWhile_append_dropWhile, fun c hc => ?_, fun c hc => ?_⟩
  · simpa using List.mem_takeWhile_imp hc
  · have hhead := List.head?_dropWhile_not (fun c => !endsAuthority c) r
    rw [hc] at hhead
    simpa using hhead

/-! ## Reading -/

theorem Http.ofChars?_eq (h : Http cs authority rest) :
    ofChars? cs = (path? rest).map fun p => ⟨some .http, authority, p⟩ := by
  obtain ⟨mark, hmark, hcs⟩ := h.marked
  have hscheme : splitScheme? cs = some (some .http, authority ++ rest) := by
    rw [← hcs, splitScheme?, afterStart?_append hmark]
  have hempty : authority.isEmpty = false := by simpa using h.ne_nil
  unfold ofChars?
  rw [if_neg (Nat.not_lt.2 h.fits)]
  split
  · cases hscheme
  · cases hscheme
  · -- what begins with a slash has no mark
    obtain ⟨c, mark, rfl⟩ := List.exists_cons_of_ne_nil (l := mark) (by rintro rfl; cases hmark)
    obtain ⟨rfl, -⟩ := List.cons.inj hcs
    cases (List.cons.inj hmark).1
  · rw [hscheme]
    simp only [splitAuthority_append h.inside h.ended, h.accepted, hempty]
    rfl

/-- Only an HTTP URL is read with the scheme. -/
theorem exists_http {u : Uri} (h : ofChars? cs = some u) (hscheme : u.scheme = some .http) :
    ∃ rest, Http cs u.authority rest ∧ path? rest = some u.path := by
  revert h
  fun_cases ofChars? cs with
  | case3 =>
    rintro ⟨⟩
    cases hscheme
  | case4 =>
    intro h
    obtain ⟨p, -, rfl⟩ := Option.map_eq_some_iff.1 h
    cases hscheme
  | case7 =>
    rintro ⟨⟩
    cases hscheme
  | case10 _ _ _ _ scheme r hstart authority rest hsplit haccepted _ hempty =>
    intro h
    obtain ⟨p, hp, rfl⟩ := Option.map_eq_some_iff.1 h
    obtain rfl := hscheme
    obtain ⟨mark, hmark, hcs⟩ := exists_of_splitScheme? hstart
    obtain ⟨hjoin, hinside, hended⟩ := splitAuthority_eq hsplit
    refine ⟨rest, ⟨⟨mark, hmark, hjoin.symm ▸ hcs⟩, hinside, hended, ?_, ?_, Nat.not_lt.1 ‹_›⟩, hp⟩
    · simpa using haccepted
    · simpa using hempty
  | _ => nofun

end Uri

namespace Endpoint

variable {s : String} {e : Endpoint}

/-- An endpoint is read from the HTTP URLs with a path that can be read. -/
theorem parse_eq_ok_iff : parse s = .ok e ↔ ∃ authority rest path,
    Uri.Http s.toList authority rest ∧ Uri.path? rest = some path ∧
      ofUri ⟨some .http, authority, path⟩ = e := by
  constructor
  · intro h
    unfold parse at h
    split at h
    · cases h
    · next u hu =>
      split at h
      · next hscheme =>
        obtain ⟨rest, hhttp, hpath⟩ := Uri.exists_http hu hscheme
        refine ⟨u.authority, rest, u.path, hhttp, hpath, ?_⟩
        rw [← hscheme]
        exact Except.ok.inj h
      · cases h
  · rintro ⟨authority, rest, path, hhttp, hpath, rfl⟩
    rw [parse, hhttp.ofChars?_eq, hpath]
    rfl

end Endpoint

end ClusterScaling
