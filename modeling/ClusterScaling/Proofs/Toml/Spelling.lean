import ClusterScaling.Text.Basic

/-!
# Spellings of TOML documents

The grammar of TOML 1.0, as relations between what a document says and the texts that spell it:
comments, blank lines, keys of all forms, headers of tables and of elements of arrays of tables, and
as values texts of all forms, truth values, integers of 64 bits and inline tables. It says nothing
of how a text is read, nor which documents make sense.
-/

namespace ClusterScaling.Toml

open Text (hexValue?)

/-! ## Parts of lines -/

/-- White space within a line. -/
def Blank (cs : List Char) : Prop := ∀ c ∈ cs, c = ' ' ∨ c = '\t'

/-- The character is a tab or no control character. -/
def Printable (c : Char) : Prop := c = '\t' ∨ 0x20 ≤ c.toNat ∧ c ≠ '\x7f'

/-- A comment, or nothing. -/
inductive Comment : List Char → Prop
  | none : Comment []
  | hash {cs : List Char} : (∀ c ∈ cs, Printable c) → Comment ('#' :: cs)

inductive LineEnd : List Char → Prop
  | feed : LineEnd ['\n']
  | returnFeed : LineEnd ['\r', '\n']

/-! ## Texts -/

/-- The number that digits denote to a base, where each counts by its place. -/
def placeValue (base : Nat) : List Char → Nat
  | [] => 0
  | d :: ds => (hexValue? d).getD 0 * Nat.pow base ds.length + placeValue base ds

/-- Whether the character is a digit to the base. -/
def isDigitOf (base : Nat) (d : Char) : Bool := (hexValue? d).any (· < base)

/-- The letters of escapes, with what they stand for. -/
def escapeLetters : List (Char × Char) :=
  [('b', '\x08'), ('t', '\t'), ('n', '\n'), ('f', '\x0c'), ('r', '\r'), ('"', '"'), ('\\', '\\')]

/-- The characters after a backslash spell the character. -/
inductive SpelledEscape : Char → List Char → Prop
  | letter {e c : Char} : (e, c) ∈ escapeLetters → SpelledEscape c [e]
  | short {c : Char} {ds : List Char} : ds.length = 4 → (∀ d ∈ ds, isDigitOf 16 d = true) →
      placeValue 16 ds = c.toNat → SpelledEscape c ('u' :: ds)
  | long {c : Char} {ds : List Char} : ds.length = 8 → (∀ d ∈ ds, isDigitOf 16 d = true) →
      placeValue 16 ds = c.toNat → SpelledEscape c ('U' :: ds)

/-- The characters between quotes spell the text. -/
inductive SpelledBasic : List Char → List Char → Prop
  | nil : SpelledBasic [] []
  | plain {c : Char} {s cs : List Char} : Printable c → c ≠ '"' → c ≠ '\\' → SpelledBasic s cs →
      SpelledBasic (c :: s) (c :: cs)
  | escape {c : Char} {s es cs : List Char} : SpelledEscape c es → SpelledBasic s cs →
      SpelledBasic (c :: s) ('\\' :: es ++ cs)

/-- The characters may stand between apostrophes. -/
def Literal (cs : List Char) : Prop := ∀ c ∈ cs, Printable c ∧ c ≠ '\''

/-- The characters spell the rest of a text over several lines, after so many delimiters in a row,
and after an escaped line end if `trimming`: that leaves out all white space up to the next other
character. -/
inductive SpelledLines (delimiter : Char) (escapes : Bool) :
    Nat → Bool → List Char → List Char → Prop
  | nil {n : Nat} {trimming : Bool} : SpelledLines delimiter escapes n trimming [] []
  | delimiter {n : Nat} {trimming : Bool} {s cs : List Char} : n < 2 →
      SpelledLines delimiter escapes (n + 1) false s cs →
      SpelledLines delimiter escapes n trimming (delimiter :: s) (delimiter :: cs)
  | plain {n : Nat} {trimming : Bool} {c : Char} {s cs : List Char} : Printable c → c ≠ delimiter →
      (escapes = true → c ≠ '\\') → (trimming = true → c ≠ ' ' ∧ c ≠ '\t') →
      SpelledLines delimiter escapes 0 false s cs →
      SpelledLines delimiter escapes n trimming (c :: s) (c :: cs)
  | lineEnd {n : Nat} {e s cs : List Char} : LineEnd e → SpelledLines delimiter escapes 0 false s cs →
      SpelledLines delimiter escapes n false ('\n' :: s) (e ++ cs)
  | trimmed {n : Nat} {w s cs : List Char} : w = [' '] ∨ w = ['\t'] ∨ LineEnd w →
      SpelledLines delimiter escapes 0 true s cs → SpelledLines delimiter escapes n true s (w ++ cs)
  | escape {n : Nat} {trimming : Bool} {c : Char} {s es cs : List Char} : escapes = true →
      SpelledEscape c es → SpelledLines delimiter escapes 0 false s cs →
      SpelledLines delimiter escapes n trimming (c :: s) ('\\' :: es ++ cs)
  | escapedEnd {n : Nat} {trimming : Bool} {w e s cs : List Char} : escapes = true → Blank w →
      LineEnd e → SpelledLines delimiter escapes 0 true s cs →
      SpelledLines delimiter escapes n trimming s ('\\' :: w ++ e ++ cs)

/-- The characters spell the text between the delimiters of several lines. A line end right after
the opening does not count. -/
inductive SpelledBlock (delimiter : Char) (escapes : Bool) : List Char → List Char → Prop
  | below {s e cs : List Char} : LineEnd e → SpelledLines delimiter escapes 0 false s cs →
      SpelledBlock delimiter escapes s (e ++ cs)
  | beside {s cs : List Char} : SpelledLines delimiter escapes 0 false s cs →
      (∀ e ds, LineEnd e → cs ≠ e ++ ds) → SpelledBlock delimiter escapes s cs

/-- The characters spell a text value. -/
inductive SpelledText : List Char → List Char → Prop
  | basic {s cs : List Char} : SpelledBasic s cs → SpelledText s ('"' :: cs ++ ['"'])
  | literal {cs : List Char} : Literal cs → SpelledText cs ('\'' :: cs ++ ['\''])
  | basicLines {s cs : List Char} : SpelledBlock '"' true s cs →
      SpelledText s ('"' :: '"' :: '"' :: cs ++ ['"', '"', '"'])
  | literalLines {s cs : List Char} : SpelledBlock '\'' false s cs →
      SpelledText s ('\'' :: '\'' :: '\'' :: cs ++ ['\'', '\'', '\''])

/-! ## Keys -/

/-- The characters spell one part of a key. -/
inductive SpelledPart : String → List Char → Prop
  | bare {cs : List Char} : cs ≠ [] → (∀ c ∈ cs, c.isAlphanum = true ∨ c = '_' ∨ c = '-') →
      SpelledPart (String.ofList cs) cs
  | basic {s cs : List Char} : SpelledBasic s cs → SpelledPart (String.ofList s) ('"' :: cs ++ ['"'])
  | literal {cs : List Char} : Literal cs → SpelledPart (String.ofList cs) ('\'' :: cs ++ ['\''])

/-- The characters spell a key. -/
inductive SpelledKey : List String → List Char → Prop
  | one {p : String} {cs : List Char} : SpelledPart p cs → SpelledKey [p] cs
  | dotted {p : String} {ps : List String} {cs w w' ds : List Char} : SpelledPart p cs → Blank w →
      Blank w' → SpelledKey ps ds → SpelledKey (p :: ps) (cs ++ w ++ '.' :: w' ++ ds)

/-! ## Values -/

/-- The characters spell digits, which single underscores may separate. -/
inductive SpelledRun (base : Nat) : List Char → List Char → Prop
  | one {d : Char} : isDigitOf base d = true → SpelledRun base [d] [d]
  | next {d : Char} {ds cs : List Char} : isDigitOf base d = true → SpelledRun base ds cs →
      SpelledRun base (d :: ds) (d :: cs)
  | apart {d : Char} {ds cs : List Char} : isDigitOf base d = true → SpelledRun base ds cs →
      SpelledRun base (d :: ds) (d :: '_' :: cs)

/-- The marks of the bases other than ten. -/
def baseMarks : List (Char × Nat) := [('x', 16), ('o', 8), ('b', 2)]

/-- The characters spell an integer. -/
inductive SpelledInteger : Int → List Char → Prop
  | unsigned {ds cs : List Char} : SpelledRun 10 ds cs → (ds = ['0'] ∨ ds.head? ≠ some '0') →
      SpelledInteger (placeValue 10 ds) cs
  | positive {ds cs : List Char} : SpelledRun 10 ds cs → (ds = ['0'] ∨ ds.head? ≠ some '0') →
      SpelledInteger (placeValue 10 ds) ('+' :: cs)
  | negative {ds cs : List Char} : SpelledRun 10 ds cs → (ds = ['0'] ∨ ds.head? ≠ some '0') →
      SpelledInteger (-(placeValue 10 ds : Int)) ('-' :: cs)
  | based {mark : Char} {base : Nat} {ds cs : List Char} : (mark, base) ∈ baseMarks →
      SpelledRun base ds cs → SpelledInteger (placeValue base ds) ('0' :: mark :: cs)

mutual

/-- A value that is written in a document. -/
inductive Item where
  | text (s : String)
  | flag (b : Bool)
  | integer (n : Int)
  | table (entries : Entries)

/-- The entries of an inline table. -/
inductive Entries where
  | nil
  | cons (key : List String) (item : Item) (rest : Entries)

end

mutual

/-- The characters spell a value. -/
inductive Item.SpelledBy : Item → List Char → Prop
  | text {s cs : List Char} : SpelledText s cs → Item.SpelledBy (.text (String.ofList s)) cs
  | flag {b : Bool} : Item.SpelledBy (.flag b) (if b then "true" else "false").toList
  | integer {n : Int} {cs : List Char} : SpelledInteger n cs → -0x8000000000000000 ≤ n →
      n < 0x8000000000000000 → Item.SpelledBy (.integer n) cs
  | empty {w : List Char} : Blank w → Item.SpelledBy (.table .nil) ('\x7b' :: w ++ ['\x7d'])
  | table {es : Entries} {cs : List Char} : Entries.SpelledBy es cs →
      Item.SpelledBy (.table es) ('\x7b' :: cs)

/-- The characters spell entries, at least one, with the closing brace of their table. -/
inductive Entries.SpelledBy : Entries → List Char → Prop
  | last {key : List String} {item : Item} {w ks v v' cs w' : List Char} : Blank w →
      SpelledKey key ks → Blank v → Blank v' → Item.SpelledBy item cs → Blank w' →
      Entries.SpelledBy (.cons key item .nil)
        (w ++ (ks ++ v ++ '=' :: v' ++ cs) ++ w' ++ ['\x7d'])
  | next {key : List String} {item : Item} {rest : Entries} {w ks v v' cs w' ds : List Char} :
      Blank w → SpelledKey key ks → Blank v → Blank v' → Item.SpelledBy item cs → Blank w' →
      Entries.SpelledBy rest ds →
      Entries.SpelledBy (.cons key item rest)
        (w ++ (ks ++ v ++ '=' :: v' ++ cs) ++ w' ++ ',' :: ds)

end

/-! ## Documents -/

/-- A line of a document. -/
inductive Line where
  | blank
  /-- The header of a table. -/
  | table (key : List String)
  /-- The header of one more table of an array. -/
  | element (key : List String)
  | pair (key : List String) (item : Item)

/-- The characters spell what a line says. -/
inductive SpelledContent : Line → List Char → Prop
  | blank : SpelledContent .blank []
  | table {key : List String} {w ks w' : List Char} : Blank w → SpelledKey key ks → Blank w' →
      SpelledContent (.table key) ('[' :: w ++ ks ++ w' ++ [']'])
  | element {key : List String} {w ks w' : List Char} : Blank w → SpelledKey key ks → Blank w' →
      SpelledContent (.element key) ('[' :: '[' :: w ++ ks ++ w' ++ [']', ']'])
  | pair {key : List String} {item : Item} {ks v v' cs : List Char} : SpelledKey key ks → Blank v →
      Blank v' → Item.SpelledBy item cs →
      SpelledContent (.pair key item) (ks ++ v ++ '=' :: v' ++ cs)

/-- The characters spell a line. -/
inductive SpelledLine : Line → List Char → Prop
  | mk {l : Line} {w cs w' comment : List Char} : Blank w → SpelledContent l cs → Blank w' →
      Comment comment → SpelledLine l (w ++ cs ++ (w' ++ comment))

/-- The characters spell a document. -/
inductive SpelledDocument : List Line → List Char → Prop
  | last {l : Line} {cs : List Char} : SpelledLine l cs → SpelledDocument [l] cs
  | next {l : Line} {ls : List Line} {cs e ds : List Char} : SpelledLine l cs → LineEnd e →
      SpelledDocument ls ds → SpelledDocument (l :: ls) (cs ++ e ++ ds)

end ClusterScaling.Toml
