import ClusterScaling.Json.Numeral
import ClusterScaling.Text.Basic

/-!
# Writing JSON

`Value` is a JSON value to be written. `Value.compact` writes it without white space, and
`Value.pretty` over several lines, with two blanks for each level.
-/

namespace ClusterScaling.Json

/-- A JSON value. The members of an object keep their order. -/
inductive Value where
  | null
  | bool (b : Bool)
  | number (n : Numeral)
  | string (s : String)
  | array (items : List Value)
  | object (members : List (String × Value))

namespace Value

/-- The number `n`. -/
def integer (n : Int) : Value := number (Numeral.ofInt n)

/-- A character inside a text literal. Only the quote, the backslash and the characters below
U+0020 are escaped. -/
def escape (c : Char) : List Char :=
  match c with
  | '"' => ['\\', '"']
  | '\\' => ['\\', '\\']
  | '\x08' => ['\\', 'b']
  | '\t' => ['\\', 't']
  | '\n' => ['\\', 'n']
  | '\x0c' => ['\\', 'f']
  | '\r' => ['\\', 'r']
  | c =>
    if c.toNat < 0x20 then
      ['\\', 'u', '0', '0', Nat.digitChar (c.toNat / 16), Nat.digitChar (c.toNat % 16)]
    else [c]

/-- A text as a literal. -/
def literal (s : String) : List Char := '"' :: s.toList.flatMap escape ++ ['"']

mutual

/-- The value without white space. -/
def compactChars : Value → List Char
  | null => "null".toList
  | bool true => "true".toList
  | bool false => "false".toList
  | number n => n.chars
  | string s => literal s
  | array items => '[' :: compactItems true items
  | object members => '\x7b' :: compactMembers true members

/-- The items of an array and its closing bracket. -/
def compactItems (first : Bool) : List Value → List Char
  | [] => [']']
  | v :: vs => (if first then [] else [',']) ++ compactChars v ++ compactItems false vs

/-- The members of an object and its closing brace. -/
def compactMembers (first : Bool) : List (String × Value) → List Char
  | [] => ['\x7d']
  | (k, v) :: ms =>
    (if first then [] else [',']) ++ literal k ++ ':' :: compactChars v ++ compactMembers false ms

end

/-- A new line at the given level. -/
def newline (level : Nat) : List Char := '\n' :: List.replicate (2 * level) ' '

mutual

/-- The value over several lines, its first line standing at `level`. -/
def prettyChars (level : Nat) : Value → List Char
  | array (v :: vs) => '[' :: prettyItems level true (v :: vs)
  | object (m :: ms) => '\x7b' :: prettyMembers level true (m :: ms)
  | array [] => ['[', ']']
  | object [] => ['\x7b', '\x7d']
  | null => "null".toList
  | bool true => "true".toList
  | bool false => "false".toList
  | number n => n.chars
  | string s => literal s

/-- The items of an array on lines of their own, and its closing bracket. -/
def prettyItems (level : Nat) (first : Bool) : List Value → List Char
  | [] => newline level ++ [']']
  | v :: vs =>
    (if first then [] else [',']) ++ newline (level + 1) ++ prettyChars (level + 1) v ++
      prettyItems level false vs

/-- The members of an object on lines of their own, and its closing brace. -/
def prettyMembers (level : Nat) (first : Bool) : List (String × Value) → List Char
  | [] => newline level ++ ['\x7d']
  | (k, v) :: ms =>
    (if first then [] else [',']) ++ newline (level + 1) ++ literal k ++ ':' :: ' ' ::
      prettyChars (level + 1) v ++ prettyMembers level false ms

end

/-- The text of the value without white space. -/
def compact (v : Value) : String := String.ofList v.compactChars

/-- The text of the value over several lines. -/
def pretty (v : Value) : String := String.ofList (v.prettyChars 0)

end Value

end ClusterScaling.Json
