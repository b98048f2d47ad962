import ClusterScaling.Proofs.Decimal.Spelling
import ClusterScaling.Proofs.Endpoint.Parts

/-!
# The server that an endpoint names

An authority is a host, with a user before it and a port behind it. What is read from an endpoint is
the host, and as the port the number after the last colon, or 80 if no number of a port stands there
(`Endpoint.parse_address`). So an unusable port, and what stands between an address in brackets and
the port, are left out of account, and a host may be empty (`Endpoint.parse_misdirected`).
-/

namespace ClusterScaling

open Decimal (SpelledCount)

variable {c mark : Char} {cs xs ys left right host tail : List Char}

/-! ## Last and first characters of a kind -/

/-- A text with a `c` splits at the last one. -/
theorem exists_last (h : c ∈ cs) : ∃ xs ys, cs = xs ++ c :: ys ∧ c ∉ ys := by
  obtain ⟨ys, xs, hsplit, hys⟩ := List.eq_append_cons_of_mem (List.mem_reverse.2 h)
  refine ⟨xs.reverse, ys.reverse, ?_, fun hc => hys (List.mem_reverse.1 hc)⟩
  rw [← List.reverse_reverse cs, hsplit]
  simp

namespace Uri

theorem afterLast_append (h : c ∉ ys) : afterLast c (xs ++ c :: ys) = ys := by
  have hys : ∀ x ∈ ys.reverse, (x != c) = true := fun x hx =>
    bne_iff_ne.2 fun hxc => h (hxc ▸ List.mem_reverse.1 hx)
  rw [afterLast, List.reverse_append, List.reverse_cons, List.append_assoc,
    List.takeWhile_append_of_pos hys]
  simp

theorem afterLast_eq_self (h : c ∉ cs) : afterLast c cs = cs := by
  have hcs : ∀ x ∈ cs.reverse, (x != c) = true := fun x hx =>
    bne_iff_ne.2 fun hxc => h (hxc ▸ List.mem_reverse.1 hx)
  rw [afterLast, List.takeWhile_eq_self_iff.2 hcs, List.reverse_reverse]

theorem throughFirst_append (h : c ∉ xs) : throughFirst c (xs ++ c :: ys) = xs ++ [c] := by
  have hxs : ∀ x ∈ xs, (x != c) = true := fun x hx => bne_iff_ne.2 fun hxc => h (hxc ▸ hx)
  rw [throughFirst, List.takeWhile_append_of_pos hxs, List.dropWhile_append_of_pos hxs]
  simp

/-! ## Brackets -/

namespace Scan

variable {s s' : Scan}

/-- A bracket is opened once, and closed once it is open. No other character does either. -/
theorem step_brackets (h : s.step c = some s') :
    (c = '[' ∧ s.opened = false ∧ s'.opened = true ∧ s'.closed = s.closed) ∨
      (c = ']' ∧ s.opened = true ∧ s'.opened = true) ∨
      (c ≠ '[' ∧ c ≠ ']' ∧ s'.opened = s.opened ∧ s'.closed = s.closed) := by
  simp only [step] at h
  split at h
  · next hc =>
    subst hc
    split at h
    · cases h
    · obtain rfl := Option.some.inj h
      exact .inr (.inr ⟨by decide, by decide, rfl, rfl⟩)
  split at h
  · next hc =>
    subst hc
    split at h
    · cases h
    · next hopened =>
      obtain rfl := Option.some.inj h
      simp only [Bool.or_eq_true, not_or, Bool.not_eq_true] at hopened
      exact .inl ⟨rfl, hopened.2, rfl, rfl⟩
  split at h
  · next hc =>
    subst hc
    split at h
    · cases h
    · next hopened =>
      obtain rfl := Option.some.inj h
      simp only [Bool.or_eq_true, not_or, Bool.not_eq_true, Bool.not_eq_false'] at hopened
      exact .inr (.inl ⟨rfl, hopened.1, hopened.1⟩)
  · next hopen hclose =>
    -- what is left touches neither bracket
    refine .inr (.inr ⟨hopen, hclose, ?_⟩)
    split_ifs at h <;> cases h <;> exact ⟨rfl, rfl⟩

theorem run_append : s.run (xs ++ ys) = (s.run xs).bind fun s => s.run ys := by
  induction xs generalizing s with
  | nil => rfl
  | cons c xs ih => simp only [List.cons_append, run, ih, Option.bind_assoc]

/-- Only what is open gets closed. -/
theorem run_closed (h : s.run cs = some s') (hs : s.closed = true → s.opened = true) :
    s'.closed = true → s'.opened = true := by
  induction cs generalizing s with
  | nil =>
    obtain rfl := Option.some.inj h
    exact hs
  | cons c cs ih =>
    obtain ⟨t, hstep, hrun⟩ := Option.bind_eq_some_iff.1 h
    refine ih hrun fun ht => ?_
    rcases step_brackets hstep with ⟨-, -, hopened, -⟩ | ⟨-, -, hopened⟩ | ⟨-, -, hopened, hclosed⟩
    · exact hopened
    · exact hopened
    · exact hopened.trans (hs (hclosed.symm.trans ht))

/-- What is open stays so, as long as no bracket closes it. -/
theorem run_unclosed (h : s.run cs = some s') (hopened : s.opened = true) (hclose : ']' ∉ cs) :
    s'.opened = true ∧ s'.closed = s.closed := by
  induction cs generalizing s with
  | nil =>
    obtain rfl := Option.some.inj h
    exact ⟨hopened, rfl⟩
  | cons c cs ih =>
    obtain ⟨t, hstep, hrun⟩ := Option.bind_eq_some_iff.1 h
    obtain ⟨hc, hcs⟩ := List.ne_and_not_mem_of_not_mem_cons hclose
    rcases step_brackets hstep with ⟨-, hfresh, -⟩ | ⟨rfl, -⟩ | ⟨-, -, ht, hclosed⟩
    · rw [hopened] at hfresh
      cases hfresh
    · exact absurd rfl hc
    · obtain ⟨hs', hclosed'⟩ := ih hrun (ht.trans hopened) hcs
      exact ⟨hs', hclosed'.trans hclosed⟩

end Scan

/-- In an authority every bracket that opens is closed. -/
theorem mem_of_isAuthority (h : isAuthority (left ++ '[' :: right) = true) : ']' ∈ right := by
  obtain ⟨s', hrun, haccepts⟩ := (Option.any_eq_true _ _).1 h
  obtain ⟨s, hleft, hrun⟩ := Option.bind_eq_some_iff.1 (Scan.run_append ▸ hrun)
  obtain ⟨t, hstep, hright⟩ := Option.bind_eq_some_iff.1 hrun
  by_contra hclose
  have hs : s.closed = true → s.opened = true := Scan.run_closed hleft nofun
  rcases Scan.step_brackets hstep with ⟨-, hfresh, hopened, hclosed⟩ | ⟨hc, -⟩ | ⟨hc, -⟩
  · obtain ⟨hopened', hclosed'⟩ := Scan.run_unclosed hright hopened hclose
    have hs' : s.closed = false := by simpa [hfresh] using hs
    simp [Scan.accepts, hopened', hclosed', hclosed, hs'] at haccepts
  · cases hc
  · exact absurd rfl hc

end Uri

/-! ## Hosts and ports -/

/-- No number stands after the last colon if another mark does. -/
theorem Endpoint.port_of_marked (hdigit : mark.isDigit = false) (hplus : mark ≠ '+')
    (hmark : mark ≠ ':') (hcolon : ':' ∉ right) :
    Endpoint.port (left ++ mark :: right) = Endpoint.defaultPort := by
  rw [Endpoint.port]
  split
  · next hcontains =>
    have hleft : ':' ∈ left := by simpa [hcolon, hmark.symm] using hcontains
    obtain ⟨xs, ys, rfl, hys⟩ := exists_last hleft
    have hlast : ':' ∉ ys ++ mark :: right := by simp [hys, hcolon, hmark.symm]
    rw [List.append_assoc, List.cons_append, Uri.afterLast_append hlast]
    cases hread : Decimal.readBounded? Endpoint.portLimit (ys ++ mark :: right) with
    | none => rfl
    | some n =>
      rcases (Decimal.readBounded?_eq_some_iff.1 hread).1.mem mark (by simp) with h | h
      · rw [hdigit] at h
        cases h
      · exact absurd h hplus
  · rfl

/-- Where a host ends: an address in brackets at the first that closes, a name at the first
colon. -/
inductive HostEnds : List Char → List Char → Prop
  | bracketed {inner tail : List Char} : ']' ∉ inner → HostEnds ('[' :: inner ++ [']']) tail
  | named {host tail : List Char} : ':' ∉ host → host.head? ≠ some '[' →
      (∀ c ∈ tail.head?, c = ':') → HostEnds host tail

theorem HostEnds.host_eq {u : Uri} (h : HostEnds host tail)
    (hu : Uri.afterLast '@' u.authority = host ++ tail) : u.host = host := by
  rw [Uri.host, hu]
  cases h with
  | @bracketed inner _ hinner =>
    have hclose : ']' ∉ '[' :: inner := fun h => hinner (by simpa using h)
    have hthrough : Uri.throughFirst ']' (('[' :: inner) ++ ']' :: tail) = '[' :: inner ++ [']'] :=
      Uri.throughFirst_append hclose
    simpa using hthrough
  | named hcolon hopen hend =>
    split
    · next r hr =>
      cases host with
      | nil =>
        subst hr
        cases hend _ rfl
      | cons c host => exact absurd (congrArg List.head? hr) hopen
    · have hhost : ∀ c ∈ host, (c != ':') = true := fun c hc =>
        bne_iff_ne.2 fun hmark => hcolon (hmark ▸ hc)
      rw [List.takeWhile_append_of_pos hhost]
      cases tail with
      | nil => rw [List.takeWhile_nil, List.append_nil]
      | cons c tail => simp [hend c rfl]

/-- What can stand in an authority after the last `@` has a host. -/
theorem exists_hostEnds (h : Uri.isAuthority (left ++ cs) = true) :
    ∃ host tail, cs = host ++ tail ∧ HostEnds host tail := by
  by_cases hopen : cs.head? = some '['
  · obtain ⟨r, rfl⟩ := List.head?_eq_some_iff.1 hopen
    obtain ⟨inner, tail, rfl, hinner⟩ := List.eq_append_cons_of_mem (Uri.mem_of_isAuthority h)
    exact ⟨'[' :: inner ++ [']'], tail, by simp, .bracketed hinner⟩
  · refine ⟨cs.takeWhile (· != ':'), cs.dropWhile (· != ':'),
      List.takeWhile_append_dropWhile.symm, .named ?_ ?_ ?_⟩
    · exact fun hc => by simpa using List.mem_takeWhile_imp hc
    · intro hhead
      rw [List.head?_takeWhile] at hhead
      exact hopen (Option.filter_eq_some_iff.1 hhead).1
    · intro c hc
      have hhead := List.head?_dropWhile_not (· != ':') cs
      rw [hc] at hhead
      simpa using hhead

theorem HostEnds.port_default {user : List Char} (h : HostEnds host tail) (htail : ':' ∉ tail)
    (huser : user = [] ∨ ∃ name, user = name ++ ['@']) :
    Endpoint.port (user ++ (host ++ tail)) = Endpoint.defaultPort := by
  cases h with
  | @bracketed inner _ hinner =>
    have hchars : user ++ ('[' :: inner ++ [']'] ++ tail) =
        (user ++ '[' :: inner) ++ ']' :: tail := by simp
    rw [hchars]
    exact Endpoint.port_of_marked rfl (by decide) (by decide) htail
  | named hcolon _ hend =>
    cases tail with
    | cons c tail => exact absurd (hend c rfl ▸ List.mem_cons_self) htail
    | nil =>
      rw [List.append_nil]
      rcases huser with rfl | ⟨name, rfl⟩
      · rw [Endpoint.port, List.nil_append, if_neg (by simpa using hcolon)]
      · rw [List.append_assoc]
        exact Endpoint.port_of_marked rfl (by decide) (by decide) hcolon

/-! ## Authorities -/

/-- A host, with a user and an `@` or nothing before it, and what follows it. -/
@[ext]
structure Authority where
  user : List Char
  host : List Char
  tail : List Char
  user_last : user = [] ∨ ∃ name, user = name ++ ['@']
  not_mem : '@' ∉ host ++ tail
  ends : HostEnds host tail

namespace Authority

variable {a b : Authority} {u : Uri} {n : Nat}

def chars (a : Authority) : List Char := a.user ++ (a.host ++ a.tail)

/-- What the authority ends with is a colon and the number of a port. -/
def EndsInPort (a : Authority) (n : Nat) : Prop :=
  ∃ before p, a.tail = before ++ ':' :: p ∧ SpelledCount n p ∧ n ≤ Endpoint.portLimit

/-- The host with the port. -/
def address (a : Authority) (n : Nat) : String := String.ofList (a.host ++ ':' :: Decimal.digits n)

/-- The authority is written in the text: from its mark up to the first slash, question mark or
number sign. -/
def WrittenIn (a : Authority) (cs : List Char) : Prop :=
  ∃ mark rest, mark.map Char.toLower = "http://".toList ∧ mark ++ (a.chars ++ rest) = cs ∧
    (∀ c ∈ a.chars, Uri.endsAuthority c = false) ∧ ∀ c ∈ rest.head?, Uri.endsAuthority c = true

theorem afterLast_chars (a : Authority) : Uri.afterLast '@' a.chars = a.host ++ a.tail := by
  unfold chars
  rcases a.user_last with huser | ⟨name, huser⟩
  · rw [huser, List.nil_append, Uri.afterLast_eq_self a.not_mem]
  · rw [huser, List.append_assoc]
    exact Uri.afterLast_append a.not_mem

theorem host_eq (h : u.authority = a.chars) : u.host = a.host :=
  a.ends.host_eq (h ▸ a.afterLast_chars)

/-- An authority is known by its characters. -/
theorem eq_of_chars_eq (h : a.chars = b.chars) : a = b := by
  have hhost : a.host = b.host :=
    (host_eq (u := ⟨none, a.chars, []⟩) rfl).symm.trans (host_eq h)
  have hlast : a.host ++ a.tail = b.host ++ b.tail := by
    rw [← afterLast_chars, h, afterLast_chars]
  have htail : a.tail = b.tail := List.append_cancel_left (hhost ▸ hlast)
  have huser : a.user = b.user := by
    unfold chars at h
    rw [hlast] at h
    exact List.append_cancel_right h
  exact Authority.ext huser hhost htail

theorem exists_chars_eq (h : Uri.isAuthority cs = true) : ∃ a : Authority, a.chars = cs := by
  by_cases hmark : '@' ∈ cs
  · obtain ⟨name, last, rfl, hlast⟩ := exists_last hmark
    have hsplit : name ++ '@' :: last = name ++ ['@'] ++ last := by simp
    rw [hsplit] at h ⊢
    obtain ⟨host, tail, rfl, hends⟩ := exists_hostEnds h
    exact ⟨⟨name ++ ['@'], host, tail, .inr ⟨name, rfl⟩, hlast, hends⟩, rfl⟩
  · rw [← List.nil_append cs] at h
    obtain ⟨host, tail, rfl, hends⟩ := exists_hostEnds h
    exact ⟨⟨[], host, tail, .inl rfl, hmark, hends⟩, rfl⟩

/-- Only one authority is written in a text. -/
theorem WrittenIn.unique (ha : a.WrittenIn cs) (hb : b.WrittenIn cs) : a = b := by
  obtain ⟨mark, rest, hmark, hcs, hinside, hended⟩ := ha
  obtain ⟨mark', rest', hmark', hcs', hinside', hended'⟩ := hb
  have hlength : mark.length = mark'.length := by
    rw [← List.length_map Char.toLower, hmark, ← hmark', List.length_map]
  have hrest := (List.append_inj (hcs.trans hcs'.symm) hlength).2
  have hsplit := congrArg Uri.splitAuthority hrest
  rw [Uri.splitAuthority_append hinside hended,
    Uri.splitAuthority_append hinside' hended'] at hsplit
  exact eq_of_chars_eq (Prod.mk.inj hsplit).1

theorem port_written (h : a.EndsInPort n) : Endpoint.port a.chars = n := by
  obtain ⟨before, p, htail, hspelled, hlimit⟩ := h
  have hchars : a.chars = (a.user ++ (a.host ++ before)) ++ ':' :: p := by
    simp [chars, htail]
  have hcolon : ':' ∉ p := fun h => by
    rcases hspelled.mem _ h with h | h <;> cases h
  rw [Endpoint.port, hchars, if_pos (by simp), Uri.afterLast_append hcolon,
    Decimal.readBounded?_eq_some_iff.2 ⟨hspelled, hlimit⟩, Option.getD_some]

theorem port_default (h : ∀ n, ¬ a.EndsInPort n) :
    Endpoint.port a.chars = Endpoint.defaultPort := by
  by_cases htail : ':' ∈ a.tail
  · obtain ⟨before, p, htail, hcolon⟩ := exists_last htail
    have hchars : a.chars = (a.user ++ (a.host ++ before)) ++ ':' :: p := by
      simp [chars, htail]
    rw [Endpoint.port, hchars, if_pos (by simp), Uri.afterLast_append hcolon]
    cases hread : Decimal.readBounded? Endpoint.portLimit p with
    | none => rfl
    | some n => exact absurd ⟨before, p, htail, Decimal.readBounded?_eq_some_iff.1 hread⟩ (h n)
  · exact a.ends.port_default htail a.user_last

end Authority

/-! ## Endpoints -/

namespace Endpoint

/-- **The address of an endpoint**: an endpoint that is read has one authority, which is not empty,
and its address is the host there, with the port that the authority ends in, or 80 if it ends in
none. Every other text is refused as an invalid endpoint. -/
theorem parse_address (s : String) :
    (∀ e, parse s = .ok e → ∃ a : Authority, a.WrittenIn s.toList ∧
      (∀ b : Authority, b.WrittenIn s.toList → b = a) ∧ a.chars ≠ [] ∧
      (∀ n, a.EndsInPort n → e.address = a.address n) ∧
      ((∀ n, ¬ a.EndsInPort n) → e.address = a.address 80)) ∧
    ∀ err, parse s = .error err → ∃ reason, err = .invalidEndpoint s reason := by
  refine ⟨fun e h => ?_, fun err h => ?_⟩
  · obtain ⟨authority, rest, path, hhttp, -, rfl⟩ := parse_eq_ok_iff.1 h
    obtain ⟨a, rfl⟩ := Authority.exists_chars_eq hhttp.accepted
    obtain ⟨mark, hmark, hs⟩ := hhttp.marked
    have hwritten : a.WrittenIn s.toList :=
      ⟨mark, rest, hmark, hs, hhttp.inside, hhttp.ended⟩
    have haddress : (ofUri ⟨some .http, a.chars, path⟩).address = a.address (port a.chars) := by
      rw [ofUri, Authority.host_eq rfl]
      rfl
    refine ⟨a, hwritten, fun b hb => hb.unique hwritten, hhttp.ne_nil, fun n hn => ?_,
      fun hnone => ?_⟩
    · rw [haddress, Authority.port_written hn]
    · rw [haddress, Authority.port_default hnone]
      rfl
  · unfold parse at h
    split at h
    · exact ⟨_, (Except.error.inj h).symm⟩
    · split at h
      · cases h
      · exact ⟨_, (Except.error.inj h).symm⟩

/-- The first text names a port that no server has, the second no host: both are read. -/
theorem parse_misdirected :
    (∃ a : Authority, a.WrittenIn "http://h:99999/p".toList ∧ a.tail = ":99999".toList ∧
      (∀ n, SpelledCount n "99999".toList → portLimit < n) ∧
      parse "http://h:99999/p" = .ok ⟨a.address 80, "/p"⟩) ∧
    ∃ a : Authority, a.WrittenIn "http://:8080".toList ∧ a.host = [] ∧
      parse "http://:8080" = .ok ⟨a.address 8080, ""⟩ := by
  have hdigits : ∀ n, SpelledCount n "99999".toList → portLimit < n := fun n hn => by
    by_contra hlimit
    have hread := Decimal.readBounded?_eq_some_iff.2 ⟨hn, Nat.not_lt.1 hlimit⟩
    have hnone : Decimal.readBounded? portLimit "99999".toList = none := by decide +kernel
    rw [hnone] at hread
    cases hread
  constructor
  · have hends : HostEnds "h".toList ":99999".toList := .named (by decide) (by decide) (by simp)
    have hinside : ∀ c ∈ "h:99999".toList, Uri.endsAuthority c = false := by
      simp [Uri.endsAuthority]
    have hread : parse "http://h:99999/p" =
        .ok ⟨String.ofList ("h".toList ++ ':' :: Decimal.digits 80), "/p"⟩ := by decide +kernel
    exact ⟨⟨[], _, _, .inl rfl, by decide, hends⟩,
      ⟨"http://".toList, "/p".toList, by decide, rfl, hinside, by simp [Uri.endsAuthority]⟩, rfl,
      hdigits, hread⟩
  · have hends : HostEnds [] ":8080".toList := .named (by decide) (by decide) (by simp)
    have hinside : ∀ c ∈ ":8080".toList, Uri.endsAuthority c = false := by
      simp [Uri.endsAuthority]
    have hread : parse "http://:8080" =
        .ok ⟨String.ofList ([] ++ ':' :: Decimal.digits 8080), ""⟩ := by decide +kernel
    exact ⟨⟨[], _, _, .inl rfl, by decide, hends⟩,
      ⟨"http://".toList, [], by decide, rfl, hinside, nofun⟩, rfl, hread⟩

end Endpoint

end ClusterScaling
