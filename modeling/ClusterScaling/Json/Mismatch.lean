import ClusterScaling.Decimal.Shortest
import ClusterScaling.Json.Tree
import ClusterScaling.Text.Basic

/-!
# Values of the wrong kind

`Mismatch` says how a well-formed value fails to have the form that is asked for, and
`Mismatch.message` words it. `DecodeError` joins it with the faults of a text that is no JSON.
-/

namespace ClusterScaling.Json

/-- What is asked for at a place of a document. -/
inductive Expected where
  | integer32
  | integer64
  | natural32
  | text
  | flag
  | sequence
  | record (name : String)
  | unionName
  | union (name : String)
  | unit
deriving DecidableEq, Repr

/-- How many elements are asked for. -/
inductive Arity where
  /-- The fields of `what`. -/
  | fieldsOf (what : String) (count : Nat)
  | sequence (count : Nat)
deriving DecidableEq, Repr

/-- How a well-formed value fails to have the form that is asked for. -/
inductive Mismatch where
  | kind (seen : Seen) (expected : Expected)
  | range (n : Int) (expected : Expected)
  | missingField (name : String)
  | duplicateField (name : String)
  | length (given : Nat) (expected : Arity)
  | unknownName (name : String) (known : List String)
deriving DecidableEq, Repr

/-- Why a text does not decode. -/
inductive DecodeError where
  | fault (f : Fault)
  | mismatch (m : Mismatch)
deriving DecidableEq, Repr

/-- Lays out the size of a number that stands in a message. -/
abbrev FloatLayout := Decimal.Scientific → List Char

/-- The value as messages name it. -/
def Seen.message (layout : FloatLayout) : Seen → String
  | bool true => "boolean `true`"
  | bool false => "boolean `false`"
  | integer n => s!"integer `{Decimal.integerText n}`"
  | floating x => s!"floating point `{x.text layout}`"
  | text s => s!"string {Text.quote s}"
  | null => "null"
  | sequence => "sequence"
  | map => "map"

/-- What is asked for, as messages name it. -/
def Expected.message : Expected → String
  | integer32 => "i32"
  | integer64 => "i64"
  | natural32 => "u32"
  | text => "a string"
  | flag => "a boolean"
  | sequence => "a sequence"
  | record name => s!"struct {name}"
  | unionName => "variant identifier"
  | union name => s!"internally tagged enum {name}"
  | unit => "unit"

/-- A number of elements. -/
def elements (count : Nat) : String :=
  Decimal.text count ++ if count = 1 then " element" else " elements"

/-- The number of elements asked for, as messages name it. -/
def Arity.message : Arity → String
  | fieldsOf what count => s!"{what} with {elements count}"
  | sequence count => s!"{elements count} in sequence"

namespace Mismatch

/-- The mismatch in words. -/
def message (layout : FloatLayout) : Mismatch → String
  | kind seen expected => s!"invalid type: {seen.message layout}, expected {expected.message}"
  | range n expected =>
    s!"invalid value: {(Seen.integer n).message layout}, expected {expected.message}"
  | missingField name => s!"missing field `{name}`"
  | duplicateField name => s!"duplicate field `{name}`"
  | length given expected => s!"invalid length {Decimal.text given}, expected {expected.message}"
  | unknownName name known =>
    let names := ", ".intercalate (known.map fun k => s!"`{k}`")
    s!"unknown variant `{name}`, expected one of {names}"

end Mismatch

namespace DecodeError

/-- The error in words. -/
def message : DecodeError → String
  | fault f => f.message
  | mismatch m => m.message Decimal.Scientific.mixed

end DecodeError

end ClusterScaling.Json
