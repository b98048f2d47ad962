import ClusterScaling.Proofs.Toml.Spelling
import ClusterScaling.Toml.Value

/-!
# Outlines of TOML documents

What a document says, as a function of the path to a place: which value stands there, or what
kind of table. A document is built up line by line (`Line.lay`), and each line has to fit what the
lines before it have laid out (`Line.Fits`): nothing is defined twice, no header or dotted key leads
through a value or an inline table, and dotted keys do not extend a table that a header defines.
-/

namespace ClusterScaling.Toml

/-! ## Outlines -/

/-- What stands at a path. -/
inductive Role where
  | value (v : Value)
  /-- An inline table, or a table within one. -/
  | inline
  /-- The root, or a table that a header defines. -/
  | headed
  /-- A table that is only named on the way to that of a header. -/
  | named
  /-- A table that dotted keys define. -/
  | dotted
  /-- An array of tables. -/
  | elements

namespace Role

/-- Whether a header may lead through the place. -/
def takesHeaders : Role → Bool
  | value _ | inline => false
  | headed | named | dotted | elements => true

/-- Whether a dotted key may lead through the place. -/
def takesDotted : Role → Bool
  | named | dotted => true
  | value _ | inline | headed | elements => false

/-- What stands there if the table around it is inline. -/
def sealed : Role → Role
  | value v => value v
  | _ => inline

end Role

/-- What stands at each path, if anything. -/
abbrev Outline := List String → Option Role

namespace Outline

/-- The place alone. -/
def single (r : Role) : Outline
  | [] => some r
  | _ :: _ => none

/-- What stands below the first part of paths. -/
def below (o : Outline) (k : String) : Outline := fun q => o (k :: q)

/-- What stands below a path. -/
def after (o : Outline) (path : List String) : Outline := fun q => o (path ++ q)

/-- The outline with `inner` at a path, and with tables of the role `via` where there are none on
the way. -/
def graft (via : Role) (inner : Outline) : List String → Outline → Outline
  | [], _ => inner
  | k :: ks, o => fun
    | [] => (o []).or (some via)
    | j :: q => if j = k then graft via inner ks (o.below k) q else o (j :: q)

/-- All that stands on a path is passed. -/
def Passable (passes : Role → Bool) : List String → Outline → Prop
  | [], _ => True
  | k :: ks, o => (∀ r ∈ o [k], passes r = true) ∧ Passable passes ks (o.below k)

/-- The outline takes a value under a key. -/
def Admits (o : Outline) (key : List String) : Prop :=
  Passable Role.takesDotted key.dropLast o ∧ o key = none

/-- The outline, where it is that of an inline table. -/
def sealed (o : Outline) : Outline := fun q => (o q).map Role.sealed

end Outline

/-! ## Documents -/

mutual

/-- What a value says. -/
def Item.outline : Item → Outline
  | .text s => .single (.value (.string s))
  | .flag b => .single (.value (.boolean b))
  | .integer n => .single (.value (.integer n))
  | .table es => (es.outline (.single .headed)).sealed

/-- The outline of a table with more entries. -/
def Entries.outline : Entries → Outline → Outline
  | .nil, o => o
  | .cons key item rest, o => rest.outline (Outline.graft .dotted item.outline key o)

end

mutual

/-- The entries of each inline table fit one another. -/
def Item.Valid : Item → Prop
  | .table es => es.Fits (.single .headed)
  | _ => True

/-- Each entry fits the outline and those before it. -/
def Entries.Fits : Entries → Outline → Prop
  | .nil, _ => True
  | .cons key item rest, o =>
    item.Valid ∧ o.Admits key ∧ rest.Fits (Outline.graft .dotted item.outline key o)

end

/-- What some lines say, and the path to the table of the last header. -/
structure Layout where
  outline : Outline
  place : List String

/-- The document without lines. -/
def Layout.start : Layout := ⟨.single .headed, []⟩

namespace Line

/-- The layout with one more line. -/
def lay : Line → Layout → Layout
  | blank, l => l
  | table key, l =>
    ⟨.graft .named (fun | [] => some .headed | k :: q => l.outline (key ++ k :: q)) key l.outline,
      key⟩
  | element key, l => ⟨.graft .named (.single .elements) key l.outline, key⟩
  | pair key item, l => ⟨.graft .dotted item.outline (l.place ++ key) l.outline, l.place⟩

/-- The line fits those before it. -/
def Fits : Line → Layout → Prop
  | blank, _ => True
  | table key, l => Outline.Passable Role.takesHeaders key.dropLast l.outline ∧
    (l.outline key = none ∨ l.outline key = some .named)
  | element key, l => Outline.Passable Role.takesHeaders key.dropLast l.outline ∧
    (l.outline key = none ∨ l.outline key = some .elements)
  | pair key item, l => item.Valid ∧ Outline.Admits (l.outline.after l.place) key

end Line

/-- The layout with more lines. -/
def Layout.extend (l : Layout) (ls : List Line) : Layout := ls.foldl (fun l line => line.lay l) l

/-- The lines fit one another and those before them. -/
def Layout.Fits : Layout → List Line → Prop
  | _, [] => True
  | l, line :: ls => line.Fits l ∧ Layout.Fits (line.lay l) ls

/-- What a document says. -/
def outline (ls : List Line) : Outline := (Layout.start.extend ls).outline

/-- The lines make a valid document. -/
def ValidDocument (ls : List Line) : Prop := Layout.start.Fits ls

/-! ## Grafting -/

namespace Outline

variable {via : Role} {inner o o' g : Outline} {path q : List String} {k : String}

/-- The outline with `g` below a path, and with tables of the role `via` where there are none on the
way or at the path. -/
def setBelow (via : Role) (g : Outline) : List String → Outline → Outline
  | [], o => fun
    | [] => (o []).or (some via)
    | j :: q => g (j :: q)
  | k :: ks, o => fun
    | [] => (o []).or (some via)
    | j :: q => if j = k then setBelow via g ks (o.below k) q else o (j :: q)

@[simp] theorem graft_nil : graft via inner [] o = inner := rfl

@[simp] theorem graft_cons_nil : graft via inner (k :: path) o [] = (o []).or (some via) := rfl

@[simp] theorem graft_cons_cons (j : String) : graft via inner (k :: path) o (j :: q) =
    if j = k then graft via inner path (o.below k) q else o (j :: q) := rfl

@[simp] theorem setBelow_self : setBelow via g path o [] = (o []).or (some via) := by
  cases path <;> rfl

@[simp] theorem setBelow_nil_cons (j : String) : setBelow via g [] o (j :: q) = g (j :: q) := rfl

@[simp] theorem setBelow_cons_cons (j : String) : setBelow via g (k :: path) o (j :: q) =
    if j = k then setBelow via g path (o.below k) q else o (j :: q) := rfl

@[simp] theorem below_graft :
    below (graft via inner (k :: path) o) k = graft via inner path (o.below k) := by
  funext q
  simp [below]

@[simp] theorem below_setBelow :
    below (setBelow via g (k :: path) o) k = setBelow via g path (o.below k) := by
  funext q
  simp [below]

@[simp] theorem graft_append_apply (path q : List String) (o : Outline) :
    graft via inner path o (path ++ q) = inner q := by
  induction path generalizing o with
  | nil => rfl
  | cons k path ih => simp [ih]

theorem setBelow_append_apply (path : List String) (o : Outline) (k : String) (q : List String) :
    setBelow via g path o (path ++ k :: q) = g (k :: q) := by
  induction path generalizing o with
  | nil => rfl
  | cons j path ih => simp [ih]

theorem setBelow_congr (h : ∀ j q, o (j :: q) = o' (j :: q)) (j : String) (q : List String) :
    setBelow via g path o (j :: q) = setBelow via g path o' (j :: q) := by
  cases path with
  | nil => rfl
  | cons k path =>
    have hbelow : o.below k = o'.below k := by
      funext q
      exact h k q
    rw [setBelow_cons_cons, setBelow_cons_cons, hbelow, h]

/-- A graft at the end of a graft is one graft. -/
theorem graft_graft_append {via' : Role} {outer : Outline} (path path' : List String) (o : Outline) :
    graft via inner (path ++ path') (graft via' outer path o) =
      graft via' (graft via inner path' outer) path o := by
  induction path generalizing o with
  | nil => rfl
  | cons k path ih =>
    funext q
    cases q with
    | nil => cases ho : o [] <;> simp [ho]
    | cons j q =>
      by_cases hj : j = k
      · rw [List.cons_append, graft_cons_cons, if_pos hj, below_graft, ih, graft_cons_cons, if_pos hj]
      · simp [hj]

/-- A graft changes what stands below the path to its last table. -/
theorem graft_concat (path : List String) (k : String) (o : Outline) :
    graft via inner (path ++ [k]) o =
      setBelow via (fun
        | [] => none
        | j :: q => if j = k then inner q else o (path ++ j :: q)) path o := by
  induction path generalizing o with
  | nil =>
    funext q
    cases q <;> rfl
  | cons k' path ih =>
    funext q
    cases q with
    | nil => rfl
    | cons j q =>
      rw [List.cons_append, graft_cons_cons, setBelow_cons_cons, ih]
      rfl

/-- A graft replaces what was changed at its place. -/
theorem graft_setBelow (hg : ∀ j q, j ≠ k → g (j :: q) = o (path ++ j :: q)) :
    graft via inner (path ++ [k]) (setBelow via g path o) = graft via inner (path ++ [k]) o := by
  induction path generalizing o with
  | nil =>
    funext q
    cases q with
    | nil => cases ho : o [] <;> simp [ho]
    | cons j q =>
      by_cases hj : j = k
      · simp [hj]
      · simpa [hj] using hg j q hj
  | cons k' path ih =>
    funext q
    cases q with
    | nil => cases ho : o [] <;> simp [ho]
    | cons j q =>
      rw [List.cons_append, graft_cons_cons, graft_cons_cons, below_setBelow, ih hg,
        setBelow_cons_cons]
      split <;> rfl

theorem passable_congr {passes : Role → Bool} (h : ∀ j q, o (j :: q) = o' (j :: q)) :
    Passable passes path o ↔ Passable passes path o' := by
  cases path with
  | nil => rfl
  | cons k ks =>
    have hbelow : o.below k = o'.below k := by
      funext q
      exact h k q
    rw [Passable, Passable, hbelow, h]

theorem passable_of_none {passes : Role → Bool} (h : ∀ j q, o (j :: q) = none) :
    Passable passes path o := by
  induction path generalizing o with
  | nil => trivial
  | cons k path ih =>
    refine ⟨?_, ih fun j q => h k (j :: q)⟩
    rw [h]
    nofun

theorem setBelow_inner {g' : Outline} (h : ∀ j q, g (j :: q) = g' (j :: q)) :
    setBelow via g path o = setBelow via g' path o := by
  induction path generalizing o with
  | nil =>
    funext q
    cases q with
    | nil => rfl
    | cons j q => exact h j q
  | cons k path ih =>
    funext q
    cases q with
    | nil => rfl
    | cons j q => rw [setBelow_cons_cons, setBelow_cons_cons, ih]

theorem passes_of_passable {passes : Role → Bool} (h : Passable passes path o) (hne : path ≠ []) :
    ∀ r ∈ o path, passes r = true := by
  induction path generalizing o with
  | nil => exact absurd rfl hne
  | cons k path ih =>
    cases path with
    | nil => exact h.1
    | cons j path => exact ih h.2 (by simp)

theorem passable_setBelow {passes : Role → Bool} (hvia : passes via = true)
    (h : Passable passes path o) : Passable passes path (setBelow via g path o) := by
  induction path generalizing o with
  | nil => trivial
  | cons k path ih =>
    obtain ⟨hk, hrest⟩ := h
    refine ⟨fun r hr => ?_, below_setBelow ▸ ih hrest⟩
    rw [setBelow_cons_cons, if_pos rfl, setBelow_self] at hr
    cases ho : o [k] with
    | none =>
      have hbelow : o.below k [] = none := ho
      rw [hbelow] at hr
      obtain rfl := Option.some.inj hr
      exact hvia
    | some r' =>
      have hbelow : o.below k [] = some r' := ho
      rw [hbelow] at hr
      obtain rfl := Option.some.inj hr
      exact hk r' ho

end Outline

end ClusterScaling.Toml
