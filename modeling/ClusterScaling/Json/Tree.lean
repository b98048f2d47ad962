import ClusterScaling.Json.Numeral
import ClusterScaling.Text.Utf8

/-!
# JSON documents as read

A `Tree` is what a reader has seen of a document, in document order and up to its first fault. It
keeps what the two ways of using a value need: a value that is read has its texts decoded and its
numbers evaluated, while a value that is passed over only has its form checked. `Literal.text`
and `Tree.seen` are of the first kind, `Tree.pass` of the second; `Tree.buffer` checks a whole
value as reading it would.
-/

namespace ClusterScaling.Json

/-- Why a text is no JSON document. -/
inductive Fault where
  | endInValue
  | endInList
  | endInObject
  | endInText
  | expectedColon
  | expectedItemEnd
  | expectedMemberEnd
  | expectedWord
  | expectedValue
  | badEscape
  | badHexEscape
  | badNumber
  | numberOutOfRange
  | badCodePoint
  | controlCharacter
  | keyNotText
  | loneSurrogate
  | openSurrogatePair
  | trailingComma
  | trailingText
  | tooDeep
deriving DecidableEq, Repr

namespace Fault

/-- Whether the text ended too early, as against holding something wrong. -/
def isTruncation : Fault → Bool
  | endInValue | endInList | endInObject | endInText => true
  | _ => false

/-- What is wrong with the text. -/
def message : Fault → String
  | endInValue => "EOF while parsing a value"
  | endInList => "EOF while parsing a list"
  | endInObject => "EOF while parsing an object"
  | endInText => "EOF while parsing a string"
  | expectedColon => "expected `:`"
  | expectedItemEnd => "expected `,` or `]`"
  | expectedMemberEnd => "expected `,` or `\x7d`"
  | expectedWord => "expected ident"
  | expectedValue => "expected value"
  | badEscape | badHexEscape => "invalid escape"
  | badNumber => "invalid number"
  | numberOutOfRange => "number out of range"
  | badCodePoint => "invalid unicode code point"
  | controlCharacter => "control character (\\u0000-\\u001F) found while parsing a string"
  | keyNotText => "key must be a string"
  | loneSurrogate => "lone leading surrogate in hex escape"
  | openSurrogatePair => "unexpected end of hex escape"
  | trailingComma => "trailing comma"
  | trailingText => "trailing characters"
  | tooDeep => "recursion limit exceeded"

end Fault

/-! ## Text literals -/

/-- One unit of a text literal. -/
inductive Glyph where
  | char (c : Char)
  /-- A UTF-16 unit written as an escape. -/
  | unit (n : Nat)
  /-- Bytes outside UTF-8. -/
  | stray
deriving DecidableEq, Repr

/-- A text literal, up to its end or to the fault that it breaks off with. -/
structure Literal where
  glyphs : List Glyph
  cut : Option Fault
deriving DecidableEq, Repr

namespace Literal

/-- Whether the unit is the first of a surrogate pair. -/
def isHighSurrogate (n : Nat) : Bool := 0xd800 ≤ n && n < 0xdc00

/-- Whether the unit is the second of a surrogate pair. -/
def isLowSurrogate (n : Nat) : Bool := 0xdc00 ≤ n && n < 0xe000

/-- The fault of a literal in which nothing follows the first unit of a surrogate pair. -/
def afterHighSurrogate : Option Fault → Fault
  | some .endInText => .endInText
  | some .badHexEscape => .badHexEscape
  | _ => .openSurrogatePair

/-- The characters of a literal, given the fault that it breaks off with. -/
def decode (cut : Option Fault) : List Glyph → Except Fault (List Char)
  | [] => match cut with
    | none => .ok []
    | some f => .error f
  | .char c :: gs => (decode cut gs).map (c :: ·)
  | .stray :: gs => (decode cut gs).bind fun _ => .error .badCodePoint
  | .unit n :: gs =>
    if isLowSurrogate n then .error .loneSurrogate
    else if isHighSurrogate n then
      match gs with
      | [] => .error (afterHighSurrogate cut)
      | .unit m :: gs =>
        if isLowSurrogate m then
          (decode cut gs).map (Char.ofNat (0x10000 + (n - 0xd800) * 0x400 + (m - 0xdc00)) :: ·)
        else .error .loneSurrogate
      | _ :: _ => .error .openSurrogatePair
    else (decode cut gs).map (Char.ofNat n :: ·)

/-- The text that the literal denotes. -/
def text (l : Literal) : Except Fault String :=
  (decode l.cut l.glyphs).map String.ofList

/-- Passes over the literal, whose surrogates and bytes are not looked at. -/
def pass (l : Literal) : Except Fault Unit :=
  match l.cut with
  | none => .ok ()
  | some f => .error f

end Literal

/-! ## Trees -/

mutual

/-- A value as read. -/
inductive Tree where
  | null
  | bool (b : Bool)
  | number (n : Numeral)
  /-- A number that breaks off, at the end of the text or before it. -/
  | cutNumber (atEnd : Bool)
  | string (l : Literal)
  | array (items : Items)
  | object (members : Members)
  /-- A fault where the value should be. -/
  | fault (f : Fault)

/-- The items of an array as read. -/
inductive Items where
  | done
  | cut (f : Fault)
  | cons (item : Tree) (rest : Items)

/-- The members of an object as read. -/
inductive Members where
  | done
  | cut (f : Fault)
  /-- A comma without a key after it. -/
  | noKey (f : Fault)
  /-- A first key that is no text. -/
  | oddKey (key : Tree)
  | cons (key : Literal) (value : Tree) (rest : Members)

end

/-- A document as read: its value, and whether more text follows it. -/
structure Document where
  root : Tree
  trailing : Bool

/-- The kind of a value, as messages name it. -/
inductive Seen where
  | bool (b : Bool)
  | integer (n : Int)
  | floating (x : Decimal.Binary64)
  | text (s : String)
  | null
  | sequence
  | map
deriving DecidableEq, Repr

/-- Evaluates a number that is read. -/
def Numeral.evaluate (n : Numeral) : Except Fault Number :=
  match n.value? with
  | some v => .ok v
  | none => .error .numberOutOfRange

/-- The fault of a number that breaks off, where it is read. -/
def cutNumberFault (atEnd : Bool) : Fault := if atEnd then .endInValue else .badNumber

namespace Tree

/-- The kind of the value; of an array or object only its opening is looked at. -/
def seen : Tree → Except Fault Seen
  | null => .ok .null
  | bool b => .ok (.bool b)
  | number n => n.evaluate.map fun
    | .integer k => .integer k
    | .floating x => .floating x
  | cutNumber atEnd => .error (cutNumberFault atEnd)
  | string l => l.text.map .text
  | array _ => .ok .sequence
  | object _ => .ok .map
  | fault f => .error f

end Tree

/-! ## Passing over and buffering -/

mutual

/-- Passes over a value: its form is checked, at any depth. -/
def Tree.pass : Tree → Except Fault Unit
  | .null | .bool _ | .number _ => .ok ()
  | .cutNumber _ => .error .badNumber
  | .string l => l.pass
  | .array items => items.pass
  | .object members => members.pass
  -- A bracket after a comma is no value.
  | .fault f => .error (if f = .trailingComma then .expectedValue else f)

/-- Passes over the items of an array. -/
def Items.pass : Items → Except Fault Unit
  | .done => .ok ()
  | .cut f => .error f
  | .cons t rest => t.pass.bind fun _ => rest.pass

/-- Passes over the members of an object. -/
def Members.pass : Members → Except Fault Unit
  | .done => .ok ()
  | .cut f => .error f
  | .noKey f => .error (if f = .endInValue then .endInObject else .keyNotText)
  | .oddKey _ => .error .keyNotText
  | .cons k v rest => k.pass.bind fun _ => v.pass.bind fun _ => rest.pass

end

/-- The number of containers that a buffered value may stand in, itself included. -/
def depthLimit : Nat := 127

mutual

/-- Checks a value that stands in `depth` containers as reading all of it would. -/
def Tree.buffer (depth : Nat) : Tree → Except Fault Unit
  | .null | .bool _ => .ok ()
  | .number n => n.evaluate.map fun _ => ()
  | .cutNumber atEnd => .error (cutNumberFault atEnd)
  | .string l => l.text.map fun _ => ()
  | .array items => if depth < depthLimit then items.buffer (depth + 1) else .error .tooDeep
  | .object members => if depth < depthLimit then members.buffer (depth + 1) else .error .tooDeep
  | .fault f => .error f

/-- Checks the items of an array as reading all of them would. -/
def Items.buffer (depth : Nat) : Items → Except Fault Unit
  | .done => .ok ()
  | .cut f => .error f
  | .cons t rest => (t.buffer depth).bind fun _ => rest.buffer depth

/-- Checks the members of an object as reading all of them would. -/
def Members.buffer (depth : Nat) : Members → Except Fault Unit
  | .done => .ok ()
  | .cut f | .noKey f => .error f
  | .oddKey _ => .error .keyNotText
  | .cons k v rest => k.text.bind fun _ => (v.buffer depth).bind fun _ => rest.buffer depth

end

namespace Items

/-- The number of items. -/
def length : Items → Nat
  | done | cut _ => 0
  | cons _ rest => rest.length + 1

/-- Reads every item with `f`. -/
def collect {ε α : Type} (ofFault : Fault → ε) (f : Tree → Except ε α) : Items → Except ε (List α)
  | done => .ok []
  | cut g => .error (ofFault g)
  | cons t rest => (f t).bind fun a => (rest.collect ofFault f).map (a :: ·)

end Items

namespace Members

/-- Reads the members in order, each with its key, into a state. -/
def collect {ε σ : Type} (ofFault : Fault → ε) (f : σ → String → Tree → Except ε σ) (s : σ) :
    Members → Except ε σ
  | done => .ok s
  | cut g | noKey g => .error (ofFault g)
  | oddKey _ => .error (ofFault .keyNotText)
  | cons k v rest =>
    match k.text with
    | .error g => .error (ofFault g)
    | .ok name => (f s name v).bind fun s => rest.collect ofFault f s

end Members

end ClusterScaling.Json
