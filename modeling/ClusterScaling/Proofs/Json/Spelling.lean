import ClusterScaling.Json.Reader

/-!
# Spellings of JSON values

The grammar of JSON texts, as a relation between a value and the texts that spell it.
`Tree.SpelledBy` allows any white space between the tokens, any escapes in texts and any members
of objects, however often. It says nothing of how a text is read.
-/

namespace ClusterScaling.Json

/-- White space between tokens. -/
def Blank (cs : List Char) : Prop := ∀ c ∈ cs, c ∈ [' ', '\n', '\t', '\r']

/-! ## Texts -/

/-- The characters spell one unit of a text literal. -/
inductive Glyph.SpelledBy : Glyph → List Char → Prop
  | plain {c : Char} : c ≠ '"' → c ≠ '\\' → 0x20 ≤ c.toNat → SpelledBy (.char c) [c]
  | escaped {e c : Char} : Reader.escaped? e = some c → SpelledBy (.char c) ['\\', e]
  | unit {a b c d : Char} {w x y z : Nat} : Text.hexValue? a = some w → Text.hexValue? b = some x →
      Text.hexValue? c = some y → Text.hexValue? d = some z →
      SpelledBy (.unit (16 * (16 * (16 * w + x) + y) + z)) ['\\', 'u', a, b, c, d]

/-- The characters spell the units of a text literal one after the other. -/
inductive SpelledGlyphs : List Glyph → List Char → Prop
  | nil : SpelledGlyphs [] []
  | cons {g : Glyph} {gs : List Glyph} {cs ds : List Char} : g.SpelledBy cs → SpelledGlyphs gs ds →
      SpelledGlyphs (g :: gs) (cs ++ ds)

/-- The characters spell a text literal, with its quotes. -/
inductive Literal.SpelledBy : Literal → List Char → Prop
  | quoted {gs : List Glyph} {cs : List Char} : SpelledGlyphs gs cs →
      SpelledBy ⟨gs, none⟩ ('"' :: cs ++ ['"'])

/-! ## Numbers -/

/-- Some digits, at least one. -/
def Digits (cs : List Char) : Prop := cs ≠ [] ∧ ∀ c ∈ cs, c.isDigit = true

/-- The digits before the point: a zero, or digits that do not begin with one. -/
inductive WholeDigits : List Char → Prop
  | zero : WholeDigits ['0']
  | other {c : Char} {cs : List Char} : c.isDigit = true → c ≠ '0' →
      (∀ d ∈ cs, d.isDigit = true) → WholeDigits (c :: cs)

/-- The characters spell the digits after the point, with the point. -/
inductive SpelledFraction : List Char → List Char → Prop
  | none : SpelledFraction [] []
  | point {cs : List Char} : Digits cs → SpelledFraction cs ('.' :: cs)

/-- The characters spell the exponent of a number, with its mark. -/
inductive SpelledExponent : Option Int → List Char → Prop
  | none : SpelledExponent none []
  | unsigned {mark : Char} {cs : List Char} : mark = 'e' ∨ mark = 'E' → Digits cs →
      SpelledExponent (some (Decimal.ofDigits cs)) (mark :: cs)
  | positive {mark : Char} {cs : List Char} : mark = 'e' ∨ mark = 'E' → Digits cs →
      SpelledExponent (some (Decimal.ofDigits cs)) (mark :: '+' :: cs)
  | negative {mark : Char} {cs : List Char} : mark = 'e' ∨ mark = 'E' → Digits cs →
      SpelledExponent (some (-(Decimal.ofDigits cs : Int))) (mark :: '-' :: cs)

/-- The sign before a number. -/
def signChars (negative : Bool) : List Char := if negative then ['-'] else []

/-- The characters spell a number. -/
inductive Numeral.SpelledBy : Numeral → List Char → Prop
  | mk {negative : Bool} {whole fraction fs es : List Char} {exponent : Option Int} :
      WholeDigits whole → SpelledFraction fraction fs → SpelledExponent exponent es →
      SpelledBy ⟨negative, whole, fraction, exponent⟩ (signChars negative ++ whole ++ fs ++ es)

/-! ## Values -/

/-- What stands before an item or a member. -/
def comma (first : Bool) : List Char := if first then [] else [',']

mutual

/-- The characters spell a value (module doc). -/
inductive Tree.SpelledBy : Tree → List Char → Prop
  | null : Tree.SpelledBy .null "null".toList
  | bool {b : Bool} : Tree.SpelledBy (.bool b) (if b then "true" else "false").toList
  | number {n : Numeral} {cs : List Char} : n.SpelledBy cs → Tree.SpelledBy (.number n) cs
  | string {l : Literal} {cs : List Char} : l.SpelledBy cs → Tree.SpelledBy (.string l) cs
  | array {items : Items} {cs : List Char} : Items.SpelledBy true items cs →
      Tree.SpelledBy (.array items) ('[' :: cs)
  | object {members : Members} {cs : List Char} : Members.SpelledBy true members cs →
      Tree.SpelledBy (.object members) ('\x7b' :: cs)

/-- The characters spell items, the first ones of their array or not, with its closing bracket. -/
inductive Items.SpelledBy : Bool → Items → List Char → Prop
  | done {first : Bool} {w : List Char} : Blank w → Items.SpelledBy first .done (w ++ [']'])
  | cons {first : Bool} {t : Tree} {rest : Items} {w w' cs ds : List Char} :
      Blank w → Blank w' → Tree.SpelledBy t cs → Items.SpelledBy false rest ds →
      Items.SpelledBy first (.cons t rest) (w ++ comma first ++ w' ++ cs ++ ds)

/-- The characters spell members, the first ones of their object or not, with its closing brace. -/
inductive Members.SpelledBy : Bool → Members → List Char → Prop
  | done {first : Bool} {w : List Char} : Blank w →
      Members.SpelledBy first .done (w ++ ['\x7d'])
  | cons {first : Bool} {k : Literal} {t : Tree} {rest : Members}
      {w w' ks v v' cs ds : List Char} :
      Blank w → Blank w' → k.SpelledBy ks → Blank v → Blank v' → Tree.SpelledBy t cs →
      Members.SpelledBy false rest ds →
      Members.SpelledBy first (.cons k t rest)
        (w ++ comma first ++ w' ++ ks ++ v ++ ':' :: v' ++ cs ++ ds)

end

/-- The characters spell a document with one value. -/
inductive SpelledDocument : Tree → List Char → Prop
  | mk {t : Tree} {w cs w' : List Char} : Blank w → t.SpelledBy cs → Blank w' →
      SpelledDocument t (w ++ cs ++ w')

end ClusterScaling.Json
