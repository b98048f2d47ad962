import ClusterScaling.Json.Tree
import ClusterScaling.Text.Basic

/-!
# Reading JSON texts

A pushdown automaton that takes a text piece by piece. `Mode` says what may come next and `Frame`
what to do with a value once it is complete. Reading a whole text is a fold (`Document.read`), so
no nesting is too deep for it. At its first fault the reader stops, with the fault at its place in
the tree.
-/

namespace ClusterScaling.Json

open Text (Piece)

/-- Where a value stands that is being read. -/
inductive Frame where
  /-- In an array, after these items, the last one first. -/
  | item (before : List Tree)
  /-- In an object under `key`, after these members, the last one first. -/
  | member (before : List (Literal × Tree)) (key : Literal)
  /-- In an object, in the place of its first key. -/
  | oddKey

/-- How far the escape is read that a literal is in. -/
inductive Escape where
  | outside
  | opened
  /-- In the four digits of a UTF-16 unit: the bytes seen, and their value while all are digits. -/
  | unit (size : Nat) (value : Option Nat)
deriving DecidableEq

/-- A literal that is being read; the last glyph comes first. -/
structure OpenLiteral where
  glyphs : List Glyph
  escape : Escape

/-- The part of a number that was read last. -/
inductive NumeralPart where
  | sign
  | zero
  | whole
  | point
  | fraction
  | exponentMark
  | exponentSign
  | exponent
deriving DecidableEq

/-- A number that is being read; the last digit of each part comes first. -/
structure OpenNumeral where
  part : NumeralPart
  negative : Bool
  whole : List Char
  fraction : List Char
  negativeExponent : Bool
  exponent : List Char

/-- What may come next. -/
inductive Mode where
  | value
  | firstItem
  | firstKey
  | nextKey (before : List (Literal × Tree))
  | colon (before : List (Literal × Tree)) (key : Literal)
  | afterItem (before : List Tree)
  | afterMember (before : List (Literal × Tree))
  | key (before : List (Literal × Tree)) (literal : OpenLiteral)
  | text (literal : OpenLiteral)
  /-- The rest of a word such as `true`, which stands for a value. -/
  | word (rest : List Char) (value : Tree)
  | number (n : OpenNumeral)
  | finished (root : Tree)
  | stopped (document : Document)

/-- A reader: what may come next, and the open containers from the innermost outwards. -/
structure Reader where
  mode : Mode
  stack : List Frame

/-! ## Closing containers -/

/-- The items `before`, followed by `last`. -/
def Items.after (last : Items) (before : List Tree) : Items :=
  before.foldl (fun rest t => .cons t rest) last

/-- The members `before`, followed by `last`. -/
def Members.after (last : Members) (before : List (Literal × Tree)) : Members :=
  before.foldl (fun rest m => .cons m.1 m.2 rest) last

namespace Frame

/-- The container that breaks off in the value `t`. -/
def breakOff (t : Tree) : Frame → Tree
  | item before => .array (Items.after (.cons t (.cut .endInList)) before)
  | member before key => .object (Members.after (.cons key t (.cut .endInObject)) before)
  | oddKey => .object (.oddKey t)

end Frame

namespace Reader

/-- The reader of a text of which nothing is read. -/
def start : Reader := ⟨.value, []⟩

/-- Stops in the value `t`, in which the text is at fault. -/
def stop (t : Tree) (stack : List Frame) : Reader :=
  ⟨.stopped ⟨stack.foldl Frame.breakOff t, false⟩, []⟩

/-- Goes on after the complete value `t`. -/
def deliver (t : Tree) : List Frame → Reader
  | [] => ⟨.finished t, []⟩
  | .item before :: stack => ⟨.afterItem (t :: before), stack⟩
  | .member before key :: stack => ⟨.afterMember ((key, t) :: before), stack⟩
  | .oddKey :: stack => stop (.object (.oddKey t)) stack

/-! ## Literals -/

/-- The character that an escape of one letter stands for. -/
def escaped? : Char → Option Char
  | '"' => some '"'
  | '\\' => some '\\'
  | '/' => some '/'
  | 'b' => some '\x08'
  | 'f' => some '\x0c'
  | 'n' => some '\n'
  | 'r' => some '\r'
  | 't' => some '\t'
  | _ => none

end Reader

namespace OpenLiteral

/-- A literal of which only the opening quote is read. -/
def empty : OpenLiteral := ⟨[], .outside⟩

/-- The literal read so far, with the fault that it breaks off with. -/
def close (l : OpenLiteral) (cut : Option Fault) : Literal := ⟨l.glyphs.reverse, cut⟩

/-- Takes a piece: the literal goes on, or it ends at its quote or in a fault. -/
def step (l : OpenLiteral) (p : Piece) : OpenLiteral ⊕ Literal :=
  match l.escape, p with
  | .outside, .char '"' => .inr (l.close none)
  | .outside, .char '\\' => .inl ⟨l.glyphs, .opened⟩
  | .outside, .char c =>
    if c.toNat < 0x20 then .inr (l.close (some .controlCharacter))
    else .inl ⟨.char c :: l.glyphs, .outside⟩
  | .outside, .broken _ => .inl ⟨.stray :: l.glyphs, .outside⟩
  | .opened, .char 'u' => .inl ⟨l.glyphs, .unit 0 (some 0)⟩
  | .opened, .char c =>
    match Reader.escaped? c with
    | some c => .inl ⟨.char c :: l.glyphs, .outside⟩
    | none => .inr (l.close (some .badEscape))
  | .opened, .broken _ => .inr (l.close (some .badEscape))
  | .unit size value, p =>
    -- Four bytes are taken before they are looked at.
    let size := size + p.size
    let value := match p, value with
      | .char c, some v => (Text.hexValue? c).map (16 * v + ·)
      | _, _ => none
    if size < 4 then .inl ⟨l.glyphs, .unit size value⟩
    else match value with
      | some v => .inl ⟨.unit v :: l.glyphs, .outside⟩
      | none => .inr (l.close (some .badHexEscape))

end OpenLiteral

/-! ## Numbers -/

namespace OpenNumeral

/-- A number of which the first character is read. -/
def start (c : Char) : OpenNumeral :=
  if c == '-' then ⟨.sign, true, [], [], false, []⟩
  else ⟨if c == '0' then .zero else .whole, false, [c], [], false, []⟩

/-- Takes a character that continues the number. -/
def step? (n : OpenNumeral) (c : Char) : Option OpenNumeral :=
  let digit := c.isDigit
  let toPoint := if c == '.' then some { n with part := .point } else none
  let toExponent :=
    if c == 'e' || c == 'E' then some { n with part := .exponentMark } else none
  match n.part with
  | .sign =>
    if digit then some { n with part := if c == '0' then .zero else .whole, whole := [c] }
    else none
  | .zero => toPoint <|> toExponent
  | .whole =>
    if digit then some { n with whole := c :: n.whole } else toPoint <|> toExponent
  | .point => if digit then some { n with part := .fraction, fraction := [c] } else none
  | .fraction => if digit then some { n with fraction := c :: n.fraction } else toExponent
  | .exponentMark =>
    if digit then some { n with part := .exponent, exponent := [c] }
    else if c == '+' then some { n with part := .exponentSign }
    else if c == '-' then some { n with part := .exponentSign, negativeExponent := true }
    else none
  | .exponentSign => if digit then some { n with part := .exponent, exponent := [c] } else none
  | .exponent => if digit then some { n with exponent := c :: n.exponent } else none

/-- The number as it is if `c` comes after it, or the end of the text for no `c`. -/
def close (n : OpenNumeral) (c : Option Char) : Tree :=
  let complete : Tree :=
    let e : Int := Decimal.ofDigits n.exponent.reverse
    .number ⟨n.negative, n.whole.reverse, n.fraction.reverse,
      if n.part = .exponent then some (if n.negativeExponent then -e else e) else none⟩
  match n.part with
  | .sign | .point | .exponentMark | .exponentSign => .cutNumber c.isNone
  | .zero => if c.any Char.isDigit then .cutNumber false else complete
  | .whole | .fraction | .exponent => complete

end OpenNumeral

/-! ## The reader -/

/-- Whether the piece is white space between tokens. -/
def isSpace : Piece → Bool
  | .char c => c == ' ' || c == '\n' || c == '\t' || c == '\r'
  | .broken _ => false

namespace Reader

/-- Begins a value at the piece `p`. -/
def openValue (stack : List Frame) (p : Piece) : Reader :=
  match p with
  | .char '[' => ⟨.firstItem, stack⟩
  | .char '\x7b' => ⟨.firstKey, stack⟩
  | .char '"' => ⟨.text .empty, stack⟩
  | .char 't' => ⟨.word ['r', 'u', 'e'] (.bool true), stack⟩
  | .char 'f' => ⟨.word ['a', 'l', 's', 'e'] (.bool false), stack⟩
  | .char 'n' => ⟨.word ['u', 'l', 'l'] .null, stack⟩
  | .char c =>
    if c == '-' || c.isDigit then ⟨.number (.start c), stack⟩
    else stop (.fault .expectedValue) stack
  | .broken _ => stop (.fault .expectedValue) stack

/-- Takes a piece where a value is complete. -/
def stepAfter (r : Reader) (p : Piece) : Reader :=
  if isSpace p then r else
  match r.mode with
  | .finished t => ⟨.stopped ⟨t, true⟩, []⟩
  | .afterItem before =>
    if p = .char ',' then ⟨.value, .item before :: r.stack⟩
    else if p = .char ']' then deliver (.array (Items.after .done before)) r.stack
    else stop (.array (Items.after (.cut .expectedItemEnd) before)) r.stack
  | .afterMember before =>
    if p = .char ',' then ⟨.nextKey before, r.stack⟩
    else if p = .char '\x7d' then deliver (.object (Members.after .done before)) r.stack
    else stop (.object (Members.after (.cut .expectedMemberEnd) before)) r.stack
  | _ => r

/-- Takes a piece. -/
def step (r : Reader) (p : Piece) : Reader :=
  match r.mode with
  | .value =>
    if isSpace p then r
    else match r.stack with
      | .item _ :: _ =>
        if p = .char ']' then stop (.fault .trailingComma) r.stack else openValue r.stack p
      | _ => openValue r.stack p
  | .firstItem =>
    if isSpace p then r
    else if p = .char ']' then deliver (.array .done) r.stack
    else openValue (.item [] :: r.stack) p
  | .firstKey =>
    if isSpace p then r
    else if p = .char '"' then ⟨.key [] .empty, r.stack⟩
    else if p = .char '\x7d' then deliver (.object .done) r.stack
    else openValue (.oddKey :: r.stack) p
  | .nextKey before =>
    if isSpace p then r
    else if p = .char '"' then ⟨.key before .empty, r.stack⟩
    else
      let f := if p = .char '\x7d' then Fault.trailingComma else .keyNotText
      stop (.object (Members.after (.noKey f) before)) r.stack
  | .colon before key =>
    if isSpace p then r
    else if p = .char ':' then ⟨.value, .member before key :: r.stack⟩
    else stop (.fault .expectedColon) (.member before key :: r.stack)
  | .key before literal =>
    match literal.step p with
    | .inl literal => ⟨.key before literal, r.stack⟩
    | .inr key =>
      if key.cut.isNone then ⟨.colon before key, r.stack⟩
      else stop (.fault .endInObject) (.member before key :: r.stack)
  | .text literal =>
    match literal.step p with
    | .inl literal => ⟨.text literal, r.stack⟩
    | .inr l => if l.cut.isNone then deliver (.string l) r.stack else stop (.string l) r.stack
  | .word rest t =>
    match rest, p with
    | c :: rest, .char d =>
      if c = d then
        if rest.isEmpty then deliver t r.stack else ⟨.word rest t, r.stack⟩
      else stop (.fault .expectedWord) r.stack
    | _, _ => stop (.fault .expectedWord) r.stack
  | .number n =>
    let next := match p with
      | .char c => n.step? c
      | .broken _ => none
    match next with
    | some n => ⟨.number n, r.stack⟩
    | none =>
      let c := match p with
        | .char c => c
        | .broken _ => '\ufffd'
      match n.close (some c) with
      | .cutNumber atEnd => stop (.cutNumber atEnd) r.stack
      | t => (deliver t r.stack).stepAfter p
  | _ => r.stepAfter p

/-- The document of a reader that stands after a complete value at the end of the text. -/
def finishAfter (r : Reader) : Document :=
  let root (t : Tree) : Document := ⟨r.stack.foldl Frame.breakOff t, false⟩
  match r.mode with
  | .finished t => ⟨t, false⟩
  | .stopped d => d
  | .afterItem before => root (.array (Items.after (.cut .endInList) before))
  | .afterMember before => root (.object (Members.after (.cut .endInObject) before))
  | _ => root (.fault .endInValue)

/-- The document of a reader at the end of the text. -/
def finish (r : Reader) : Document :=
  let root (t : Tree) : Document := ⟨r.stack.foldl Frame.breakOff t, false⟩
  match r.mode with
  | .value | .word _ _ => root (.fault .endInValue)
  | .firstItem => root (.array (.cut .endInList))
  | .firstKey => root (.object (.cut .endInObject))
  | .nextKey before => root (.object (Members.after (.noKey .endInValue) before))
  | .colon before key => root (Frame.breakOff (.fault .endInObject) (.member before key))
  | .key before l =>
    root (Frame.breakOff (.fault .endInObject) (.member before (l.close (some .endInText))))
  | .text l => root (.string (l.close (some .endInText)))
  | .number n =>
    match n.close none with
    | .cutNumber atEnd => root (.cutNumber atEnd)
    | t => (deliver t r.stack).finishAfter
  | _ => r.finishAfter

end Reader

/-- Reads a text. -/
def Document.read (ps : List Piece) : Document :=
  (ps.foldl Reader.step .start).finish

end ClusterScaling.Json
