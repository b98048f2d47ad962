import ClusterScaling.Proofs.Json.Integers
import ClusterScaling.Proofs.Json.RoundTrip
import Mathlib.Data.List.Forall2

/-!
# Shapes as schemas

`Shape.interpret` is what a shape means as a schema: which value stands in a tree, or that none
does. Of an object it only asks which values stand under each name (`Members.under`), so neither the
order of members nor members of no field have a part in it (`Shape.interpret_eq_of_alike`).
-/

namespace ClusterScaling.Json

variable {α β : Type}

/-! ## Reading by name -/

def Items.toList : Items → List Tree
  | .cons t rest => t :: rest.toList
  | _ => []

/-- The members of an object whose keys denote texts. -/
def Members.entries : Members → List (String × Tree)
  | .cons k v rest =>
    match k.text with
    | .ok name => (name, v) :: rest.entries
    | .error _ => rest.entries
  | _ => []

/-- The values that stand under a name, in their order. -/
def valuesOf (es : List (String × Tree)) (name : String) : List Tree :=
  es.filterMap fun e => if e.1 = name then some e.2 else none

/-- The values of the members under a name. -/
def Members.under (ms : Members) : String → List Tree := valuesOf ms.entries

namespace Tree

/-- The integer that a tree denotes. -/
def integer? : Tree → Option Int
  | number n => n.integer?
  | _ => none

def text? : Tree → Option String
  | string l => l.text.toOption
  | _ => none

def flag? : Tree → Option Bool
  | bool b => some b
  | _ => none

/-- The items of a tree that is an array. -/
def items? : Tree → Option (List Tree)
  | array items => some items.toList
  | _ => none

/-- The values under each name in a tree that is an object. -/
def members? : Tree → Option (String → List Tree)
  | object ms => some ms.under
  | _ => none

end Tree

/-- What stands for an absent field. -/
def Presence.default? : Presence α → Option α
  | .required => none
  | .absentAs d => some d
  | .hiddenAs d _ _ => some d

/-- The value of a field, given the values under its name: two of them are too many. -/
def pick (absent : Option α) (f : Tree → Option α) : List Tree → Option α
  | [] => absent
  | [t] => f t
  | _ => none

mutual

/-- The value of the shape that the tree denotes. -/
def Shape.interpret : {α : Type} → Shape α → Tree → Option α
  | _, .integer w, t => t.integer?.bind w.ofInt?
  | _, .text, t => t.text?
  | _, .flag, t => t.flag?
  | _, .list item, t => t.items?.bind fun ts => ts.mapM fun t => item.interpret t
  | _, .nullable _, .null => some none
  | _, .nullable s, t => (s.interpret t).map some
  | _, .record _ fields make _ _ _, t =>
    t.members?.bind fun under => (fields.interpret under).map make
  | _, .union _ tag _ cases make _ _ _, t =>
    t.members?.bind fun under =>
      (pick none Tree.text? (under tag)).bind fun chosen =>
        (cases.interpret chosen under).map make

/-- The values of the fields, given the values under each name. -/
def Fields.interpret : {β : Type} → Fields β → (String → List Tree) → Option β
  | _, .nil, _ => some ()
  | _, .cons name shape presence rest, under =>
    (pick presence.default? (fun t => shape.interpret t) (under name)).bind fun a =>
      (rest.interpret under).map (a, ·)

def Cases.interpret : {β : Type} → Cases β → String → (String → List Tree) → Option β
  | _, .nil, _, _ => some ()
  | _, .cons name fields rest, chosen, under =>
    if chosen = name then (fields.interpret under).map .inl
    else (rest.interpret chosen under).map .inr

end

/-! ## Order and unknown members -/

/-- There are as many values on both sides, and where there is one it stands in the relation. -/
def Counterparts (R : Tree → Tree → Prop) (ts us : List Tree) : Prop :=
  ts.length = us.length ∧ ∀ t u, ts = [t] → us = [u] → R t u

mutual

/-- The trees differ at most in the order of members and in members of no field. -/
def Shape.Alike : {α : Type} → Shape α → Tree → Tree → Prop
  | _, .integer _, t, u => t = u
  | _, .text, t, u => t = u
  | _, .flag, t, u => t = u
  | _, .list item, t, u => t = u ∨ ∃ ts us, t.items? = some ts ∧ u.items? = some us ∧
    List.Forall₂ (fun t u => item.Alike t u) ts us
  | _, .nullable s, t, u => t = u ∨ t ≠ .null ∧ u ≠ .null ∧ s.Alike t u
  | _, .record _ fields _ _ _ _, t, u => t = u ∨ ∃ f g, t.members? = some f ∧
    u.members? = some g ∧ fields.Alike f g
  | _, .union _ tag _ cases _ _ _ _, t, u => t = u ∨ ∃ f g, t.members? = some f ∧
    u.members? = some g ∧ Counterparts Eq (f tag) (g tag) ∧ cases.Alike f g

def Fields.Alike : {β : Type} → Fields β → (String → List Tree) → (String → List Tree) → Prop
  | _, .nil, _, _ => True
  | _, .cons name shape _ rest, f, g =>
    Counterparts (fun t u => shape.Alike t u) (f name) (g name) ∧ rest.Alike f g

def Cases.Alike : {β : Type} → Cases β → (String → List Tree) → (String → List Tree) → Prop
  | _, .nil, _, _ => True
  | _, .cons _ fields rest, f, g => fields.Alike f g ∧ rest.Alike f g

end

theorem mapM_congr {f g : Tree → Option α} {ts us : List Tree}
    (h : List.Forall₂ (fun t u => f t = g u) ts us) : ts.mapM f = us.mapM g := by
  induction h with
  | nil => rfl
  | cons ht _ ih => rw [List.mapM_cons, List.mapM_cons, ht, ih]

theorem pick_congr {absent : Option α} {f g : Tree → Option α} {ts us : List Tree}
    (h : Counterparts (fun t u => f t = g u) ts us) : pick absent f ts = pick absent g us := by
  obtain ⟨hlength, hvalue⟩ := h
  match ts, us with
  | [], [] => rfl
  | [t], [u] => exact hvalue t u rfl rfl
  | _ :: _ :: _, _ :: _ :: _ => rfl
  | [], _ :: _ | _ :: _, [] | [_], _ :: _ :: _ | _ :: _ :: _, [_] => simp at hlength

theorem Counterparts.mono {R S : Tree → Tree → Prop} {ts us : List Tree} (h : Counterparts R ts us)
    (hR : ∀ t u, R t u → S t u) : Counterparts S ts us :=
  ⟨h.1, fun t u ht hu => hR t u (h.2 t u ht hu)⟩

theorem Counterparts.of_perm {R : Tree → Tree → Prop} {ts us : List Tree} (h : ts.Perm us)
    (hR : ∀ t ∈ ts, R t t) : Counterparts R ts us := by
  refine ⟨h.length_eq, ?_⟩
  rintro t u rfl rfl
  obtain rfl : t = u := by simpa using h
  exact hR t (List.mem_singleton_self t)

mutual

/-- **Neither the order of members nor members of no field matter.** -/
theorem Shape.interpret_eq_of_alike : {α : Type} → (s : Shape α) → {t u : Tree} → s.Alike t u →
    s.interpret t = s.interpret u
  | _, .integer _, _, _, h | _, .text, _, _, h | _, .flag, _, _, h => by
    cases h
    rfl
  | _, .list item, t, u, h => by
    obtain rfl | ⟨ts, us, ht, hu, hitems⟩ := h
    · rfl
    · rw [Shape.interpret, Shape.interpret, ht, hu, Option.bind_some, Option.bind_some]
      exact mapM_congr (hitems.imp fun t u htu => item.interpret_eq_of_alike htu)
  | _, .nullable s, t, u, h => by
    obtain rfl | ⟨ht, hu, hvalue⟩ := h
    · rfl
    · rw [Shape.interpret, Shape.interpret, s.interpret_eq_of_alike hvalue]
      · exact fun _ _ _ _ => hu
      · exact fun _ _ _ _ => ht
  | _, .record _ fields _ _ _ _, t, u, h => by
    obtain rfl | ⟨f, g, ht, hu, hfields⟩ := h
    · rfl
    · rw [Shape.interpret, Shape.interpret, ht, hu, Option.bind_some, Option.bind_some,
        fields.interpret_eq_of_alike hfields]
  | _, .union _ tag _ cases _ _ _ _, t, u, h => by
    obtain rfl | ⟨f, g, ht, hu, htag, hcases⟩ := h
    · rfl
    · have hchosen : pick none Tree.text? (f tag) = pick none Tree.text? (g tag) :=
        pick_congr (htag.mono fun t u htu => congrArg Tree.text? htu)
      rw [Shape.interpret, Shape.interpret, ht, hu, Option.bind_some, Option.bind_some, hchosen]
      congr 1
      funext chosen
      rw [cases.interpret_eq_of_alike chosen hcases]

theorem Fields.interpret_eq_of_alike : {β : Type} → (fs : Fields β) →
    {f g : String → List Tree} → fs.Alike f g → fs.interpret f = fs.interpret g
  | _, .nil, _, _, _ => rfl
  | _, .cons name shape presence rest, f, g, h => by
    obtain ⟨hvalue, hrest⟩ := h
    have hpick : pick presence.default? (fun t => shape.interpret t) (f name) =
        pick presence.default? (fun t => shape.interpret t) (g name) :=
      pick_congr (hvalue.mono fun t u htu => shape.interpret_eq_of_alike htu)
    rw [Fields.interpret, Fields.interpret, hpick, rest.interpret_eq_of_alike hrest]

theorem Cases.interpret_eq_of_alike : {β : Type} → (cs : Cases β) → (chosen : String) →
    {f g : String → List Tree} → cs.Alike f g → cs.interpret chosen f = cs.interpret chosen g
  | _, .nil, _, _, _, _ => rfl
  | _, .cons name fields rest, chosen, f, g, h => by
    obtain ⟨hfields, hrest⟩ := h
    rw [Cases.interpret, Cases.interpret, fields.interpret_eq_of_alike hfields,
      rest.interpret_eq_of_alike chosen hrest]

end

theorem Shape.alike_refl (s : Shape α) (t : Tree) : s.Alike t t := by
  cases s with
  | integer | text | flag => rfl
  | _ => exact .inl rfl

theorem Fields.alike_of_perm : {β : Type} → (fs : Fields β) → {f g : String → List Tree} →
    (∀ name ∈ fs.names, (f name).Perm (g name)) → fs.Alike f g
  | _, .nil, _, _, _ => trivial
  | _, .cons _ shape _ rest, _, _, h => by
    obtain ⟨hname, hrest⟩ := List.forall_mem_cons.1 h
    exact ⟨.of_perm hname fun t _ => shape.alike_refl t, rest.alike_of_perm hrest⟩

theorem valuesOf_filter {es : List (String × Tree)} {names : List String} {name : String}
    (h : name ∈ names) : valuesOf (es.filter fun e => e.1 ∈ names) name = valuesOf es name := by
  rw [valuesOf, valuesOf, List.filterMap_filter]
  congr 1
  funext e
  by_cases he : e.1 = name
  · simp [he, h]
  · simp [he]

/-- Objects with the same members of fields, in whatever order, are alike. -/
theorem Shape.record_alike_of_perm {name : String} {fields : Fields β} {make : β → α}
    {parts : α → β} {make_parts : ∀ a, make (parts a) = a} {parts_make : ∀ b, parts (make b) = b}
    {ms ns : Members} (h : (ms.entries.filter fun e => e.1 ∈ fields.names).Perm
      (ns.entries.filter fun e => e.1 ∈ fields.names)) :
    (Shape.record name fields make parts make_parts parts_make).Alike (.object ms) (.object ns) := by
  refine .inr ⟨ms.under, ns.under, rfl, rfl, fields.alike_of_perm fun n hn => ?_⟩
  have hperm : (valuesOf (ms.entries.filter fun e => e.1 ∈ fields.names) n).Perm
      (valuesOf (ns.entries.filter fun e => e.1 ∈ fields.names) n) := h.filterMap _
  rwa [valuesOf_filter hn, valuesOf_filter hn] at hperm

end ClusterScaling.Json
