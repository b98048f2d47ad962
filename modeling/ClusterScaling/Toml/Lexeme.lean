import ClusterScaling.Decimal.Numeral
import ClusterScaling.Text.Basic
import ClusterScaling.Toml.Value

/-!
# Words of TOML documents

Texts, keys, numbers, and dates and times. A reader of this file takes what it reads off the front
of a text and gives the rest.
-/

namespace ClusterScaling.Toml

open Decimal (Binary64 Magnitude)
open Text (hexValue?)

/-! ## White space and comments -/

/-- Whether the character is white space within a line. -/
def isBlank (c : Char) : Bool := c == ' ' || c == '\t'

/-- The text after the blanks at its front. -/
def skipBlanks (cs : List Char) : List Char := cs.dropWhile isBlank

/-- Whether the character may stand in a comment. -/
def isCommentChar (c : Char) : Bool := c == '\t' || 0x20 ≤ c.toNat

/-- The text after the comment at its front, if there is one. -/
def skipComment : List Char → List Char
  | '#' :: r => r.dropWhile isCommentChar
  | cs => cs

/-- Reads the end of a line. -/
def lineEnd? : List Char → Option (List Char)
  | [] => some []
  | '\n' :: r => some r
  | '\r' :: '\n' :: r => some r
  | _ => none

/-- Reads the rest of a line, which holds at most a comment. -/
def restOfLine? (cs : List Char) : Option (List Char) := lineEnd? (skipComment (skipBlanks cs))

/-! ## Texts -/

/-- Whether the character may stand in a text without an escape, the delimiters aside. -/
def isTextChar (c : Char) : Bool := c == '\t' || (0x20 ≤ c.toNat && c != '\x7f')

/-- The character that an escape of one letter stands for. -/
def escaped? : Char → Option Char
  | 'b' => some '\x08'
  | 't' => some '\t'
  | 'n' => some '\n'
  | 'f' => some '\x0c'
  | 'r' => some '\r'
  | '"' => some '"'
  | '\\' => some '\\'
  | _ => none

/-- The character of a code point, which must not be a surrogate. -/
def scalar? (n : Nat) : Option Char := if n.isValidChar then some (Char.ofNat n) else none

/-- What was read of a text and the rest, with characters put in front. -/
def prepend (front : List Char) (r : Option (List Char × List Char)) :
    Option (List Char × List Char) :=
  r.map fun p => (front ++ p.1, p.2)

/-- How far a text between quotes is read. -/
inductive TextState where
  | plain
  | escape
  /-- In the digits of a code point: those to come, and the value so far. -/
  | digits (left value : Nat)
deriving DecidableEq

/-- Reads a text between quotes, from after its first one. -/
def basicText : TextState → List Char → Option (List Char × List Char)
  | _, [] => none
  | .plain, c :: r =>
    if c = '"' then some ([], r)
    else if c = '\\' then basicText .escape r
    else if isTextChar c then prepend [c] (basicText .plain r)
    else none
  | .escape, c :: r =>
    if c = 'u' then basicText (.digits 4 0) r
    else if c = 'U' then basicText (.digits 8 0) r
    else match escaped? c with
      | some x => prepend [x] (basicText .plain r)
      | none => none
  | .digits left value, c :: r =>
    match hexValue? c with
    | none => none
    | some d =>
      if 1 < left then basicText (.digits (left - 1) (16 * value + d)) r
      else match scalar? (16 * value + d) with
        | some x => prepend [x] (basicText .plain r)
        | none => none

/-- Reads a text between apostrophes, from after its first one. -/
def literalText : List Char → Option (List Char × List Char)
  | [] => none
  | c :: r =>
    if c = '\'' then some ([], r)
    else if isTextChar c then prepend [c] (literalText r)
    else none

/-- How far a text over several lines is read. -/
inductive LinesState where
  /-- After so many delimiters in a row; `trimming` after an escaped line end. -/
  | plain (delimiters : Nat) (trimming : Bool)
  | escape
  /-- After an escape and blanks, before the end of the line. -/
  | escapedBlanks
  | digits (left value : Nat)
deriving DecidableEq

/-- Reads a text over several lines, from after its opening. It ends at three delimiters, before
which it may hold two more. Where there are escapes, one before a line end leaves out all white
space that follows. -/
def linesText (delimiter : Char) (escapes : Bool) :
    LinesState → List Char → Option (List Char × List Char)
  | .plain n _, [] => if 3 ≤ n then some (List.replicate (n - 3) delimiter, []) else none
  | _, [] => none
  | .plain n trimming, c :: r =>
    if trimming && (isBlank c || c == '\n') then linesText delimiter escapes (.plain 0 true) r
    else if c = delimiter then
      if n = 4 then some ([delimiter, delimiter], r)
      else linesText delimiter escapes (.plain (n + 1) false) r
    else if 3 ≤ n then some (List.replicate (n - 3) delimiter, c :: r)
    else prepend (List.replicate n delimiter) <|
      if escapes && c == '\\' then linesText delimiter escapes .escape r
      else if c = '\r' then
        match r with
        | '\n' :: r =>
          if trimming then linesText delimiter escapes (.plain 0 true) r
          else prepend ['\n'] (linesText delimiter escapes (.plain 0 false) r)
        | _ => none
      else if c == '\n' || isTextChar c then
        prepend [c] (linesText delimiter escapes (.plain 0 false) r)
      else none
  | .escape, c :: r =>
    if c = 'u' then linesText delimiter escapes (.digits 4 0) r
    else if c = 'U' then linesText delimiter escapes (.digits 8 0) r
    else if c = '\n' then linesText delimiter escapes (.plain 0 true) r
    else if c = '\r' then
      match r with
      | '\n' :: r => linesText delimiter escapes (.plain 0 true) r
      | _ => none
    else if isBlank c then linesText delimiter escapes .escapedBlanks r
    else match escaped? c with
      | some x => prepend [x] (linesText delimiter escapes (.plain 0 false) r)
      | none => none
  | .escapedBlanks, c :: r =>
    if isBlank c then linesText delimiter escapes .escapedBlanks r
    else if c = '\n' then linesText delimiter escapes (.plain 0 true) r
    else if c = '\r' then
      match r with
      | '\n' :: r => linesText delimiter escapes (.plain 0 true) r
      | _ => none
    else none
  | .digits left value, c :: r =>
    match hexValue? c with
    | none => none
    | some d =>
      if 1 < left then linesText delimiter escapes (.digits (left - 1) (16 * value + d)) r
      else match scalar? (16 * value + d) with
        | some x => prepend [x] (linesText delimiter escapes (.plain 0 false) r)
        | none => none

/-- The text after the line end at its front, if there is one. -/
def skipLineEnd : List Char → List Char
  | '\n' :: r => r
  | '\r' :: '\n' :: r => r
  | cs => cs

/-- Reads a text value. -/
def text? (cs : List Char) : Option (String × List Char) :=
  let r := match cs with
    | '"' :: '"' :: '"' :: r => linesText '"' true (.plain 0 false) (skipLineEnd r)
    | '\'' :: '\'' :: '\'' :: r => linesText '\'' false (.plain 0 false) (skipLineEnd r)
    | '"' :: r => basicText .plain r
    | '\'' :: r => literalText r
    | _ => none
  r.map fun p => (String.ofList p.1, p.2)

/-! ## Keys -/

/-- Whether the character may stand in a key without quotes. -/
def isKeyChar (c : Char) : Bool := c.isAlphanum || c == '_' || c == '-'

/-- Reads one part of a key. -/
def keyPart? (cs : List Char) : Option (String × List Char) :=
  let r := match cs with
    | '"' :: r => basicText .plain r
    | '\'' :: r => literalText r
    | cs => if (cs.takeWhile isKeyChar).isEmpty then none
      else some (cs.takeWhile isKeyChar, cs.dropWhile isKeyChar)
  r.map fun p => (String.ofList p.1, p.2)

/-- The number of parts that a key may have. -/
def keyLimit : Nat := 79

/-- Reads at most `limit` parts of a key, with dots between them and blanks around them. -/
def keyParts? : Nat → List Char → Option (List String × List Char)
  | 0, _ => none
  | limit + 1, cs => do
    let (part, r) ← keyPart? (skipBlanks cs)
    match skipBlanks r with
    | '.' :: r =>
      let (parts, r) ← keyParts? limit r
      some (part :: parts, r)
    | r => some ([part], r)

/-- Reads a key. -/
def key? (cs : List Char) : Option (List String × List Char) := keyParts? keyLimit cs

/-! ## Numbers -/

/-- The digits of a run in which single underscores may separate them. -/
def digitRun? (isDigit : Char → Bool) : List Char → Option (List Char)
  | [] => none
  | [c] => if isDigit c then some [c] else none
  | c :: '_' :: r => if isDigit c then (digitRun? isDigit r).map (c :: ·) else none
  | c :: r => if isDigit c then (digitRun? isDigit r).map (c :: ·) else none

/-- The digits of a whole number, which has no leading zero. -/
def wholeDigits? (cs : List Char) : Option (List Char) :=
  match digitRun? Char.isDigit cs with
  | some ['0'] => some ['0']
  | some ('0' :: _) => none
  | r => r

/-- Splits off a sign: whether it is negative, and the rest. -/
def splitSign : List Char → Bool × List Char
  | '-' :: r => (true, r)
  | '+' :: r => (false, r)
  | cs => (false, cs)

/-- The integer, if it fits 64 bits. -/
def integer64? (n : Int) : Option Value :=
  if -0x8000000000000000 ≤ n ∧ n < 0x8000000000000000 then some (.integer n) else none

/-- The number that digits denote to a base. -/
def ofDigits (base : Nat) (cs : List Char) : Nat :=
  cs.foldl (fun n c => base * n + (hexValue? c).getD 0) 0

/-- Reads an integer. -/
def integer? (cs : List Char) : Option Value :=
  let based (base : Nat) (r : List Char) : Option Value :=
    (digitRun? (fun c => (hexValue? c).any (· < base)) r).bind fun ds =>
      integer64? (ofDigits base ds)
  match cs with
  | '0' :: 'x' :: r => based 16 r
  | '0' :: 'o' :: r => based 8 r
  | '0' :: 'b' :: r => based 2 r
  | cs =>
    let (negative, body) := splitSign cs
    (wholeDigits? body).bind fun ds =>
      let n : Int := ofDigits 10 ds
      integer64? (if negative then -n else n)

/-- The number `m · 10 ^ e`, rounded. -/
def magnitude (m : Nat) (e : Int) : Magnitude :=
  -- Beyond these bounds the number overflows or vanishes, however its digits are.
  let top := e + (Decimal.digits m).length
  if m = 0 || top < -400 then .finite 0 Magnitude.leastExponent
  else if 400 < top then .infinite
  else match e with
    | .ofNat k => Magnitude.ofRatio (m * Nat.pow 10 k) 1
    | .negSucc k => Magnitude.ofRatio m (Nat.pow 10 (k + 1))

/-- Reads the exponent of a number. -/
def exponent? (cs : List Char) : Option Int :=
  let (negative, body) := splitSign cs
  (digitRun? Char.isDigit body).map fun ds =>
    let n : Int := ofDigits 10 ds
    if negative then -n else n

/-- Reads a number with a fraction, an exponent or both; it must not be too large. -/
def float? (cs : List Char) : Option Value :=
  let (negative, body) := splitSign cs
  if body = ['i', 'n', 'f'] then some (.float (.signed negative .infinite))
  else if body = ['n', 'a', 'n'] then some (.float .nan)
  else
    let isMark (c : Char) : Bool := c == 'e' || c == 'E'
    let mantissa := body.takeWhile fun c => !isMark c
    let e := match body.drop mantissa.length with
      | [] => some 0
      | _ :: r => exponent? r
    let whole := mantissa.takeWhile (· != '.')
    let fraction := match mantissa.drop whole.length with
      | [] => some []
      | _ :: r => digitRun? Char.isDigit r
    if whole.length = body.length then none
    else match wholeDigits? whole, fraction, e with
      | some w, some f, some e =>
        let m := magnitude (ofDigits 10 (w ++ f)) (e - f.length)
        if m = .infinite && !negative then none else some (.float (.signed negative m))
      | _, _, _ => none

/-! ## Dates and times -/

/-- Reads digits only, as a number. -/
def field? (cs : List Char) : Option Nat :=
  if cs.all Char.isDigit then some (Decimal.ofDigits cs) else none

/-- The number of days of a month. -/
def monthLength (year month : Nat) : Nat :=
  if month = 2 then
    if year % 4 = 0 ∧ (year % 100 ≠ 0 ∨ year % 400 = 0) then 29 else 28
  else if month = 4 ∨ month = 6 ∨ month = 9 ∨ month = 11 then 30 else 31

/-- Whether the text is a date. -/
def isDate : List Char → Bool
  | [y₁, y₂, y₃, y₄, '-', m₁, m₂, '-', d₁, d₂] =>
    match field? [y₁, y₂, y₃, y₄], field? [m₁, m₂], field? [d₁, d₂] with
    | some y, some m, some d => 1 ≤ m && m ≤ 12 && 1 ≤ d && d ≤ monthLength y m
    | _, _, _ => false
  | _ => false

/-- Reads a time of day. -/
def time? : List Char → Option (List Char)
  | h₁ :: h₂ :: ':' :: m₁ :: m₂ :: ':' :: s₁ :: s₂ :: r =>
    match field? [h₁, h₂], field? [m₁, m₂], field? [s₁, s₂] with
    | some h, some m, some s =>
      if h ≤ 23 && m ≤ 59 && s ≤ 60 then
        match r with
        | '.' :: r =>
          if (r.takeWhile Char.isDigit).isEmpty then none else some (r.dropWhile Char.isDigit)
        | r => some r
      else none
    | _, _, _ => none
  | _ => none

/-- Whether the text is a distance from universal time. -/
def isOffset : List Char → Bool
  | ['Z'] | ['z'] => true
  | [sign, h₁, h₂, ':', m₁, m₂] =>
    match field? [h₁, h₂], field? [m₁, m₂] with
    | some h, some m => (sign == '+' || sign == '-') && h ≤ 23 && m ≤ 59
    | _, _ => false
  | _ => false

/-- Whether the text is a time of day, which may be followed by an offset. -/
def isZonedTime (cs : List Char) : Bool := (time? cs).any fun r => r.isEmpty || isOffset r

/-- Whether the text is a date, a time, or a date and a time. -/
def isMoment (cs : List Char) : Bool :=
  isDate cs || time? cs == some [] ||
    (isDate (cs.take 10) &&
      match cs.drop 10 with
      | c :: r => (c == 'T' || c == 't' || c == ' ') && isZonedTime r
      | [] => false)

/-! ## Values of one word -/

/-- Whether the character may stand in a number, a date, or a name of a value. -/
def isWordChar (c : Char) : Bool :=
  c.isAlphanum || c == '_' || c == '-' || c == '+' || c == '.' || c == ':'

/-- Reads a value of one word: a truth value, a number, a date or a time. A date and a time may
stand apart. -/
def word? (cs : List Char) : Option (Value × List Char) :=
  let w := cs.takeWhile isWordChar
  let r := cs.dropWhile isWordChar
  let (w, r) :=
    match isDate w, r with
    | true, ' ' :: r' =>
      let time := r'.takeWhile isWordChar
      if time.isEmpty then (w, r) else (w ++ ' ' :: time, r'.dropWhile isWordChar)
    | _, _ => (w, r)
  let v :=
    if w = "true".toList then some (.boolean true)
    else if w = "false".toList then some (.boolean false)
    else if isMoment w then some .moment
    else match float? w with
      | some v => some v
      | none => integer? w
  v.map fun v => (v, r)

end ClusterScaling.Toml
