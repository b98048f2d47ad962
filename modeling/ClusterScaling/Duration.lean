import ClusterScaling.Decimal.Numeral
import ClusterScaling.Text.Basic

/-!
# Durations

Spans of time in whole milliseconds. `Duration.parse?` reads them as settings write them: a number
of milliseconds (`500ms`), of seconds (`5s` or `5`) or of minutes (`5m`). Minutes are counted in
seconds, and a number of them whose seconds overflow ends everything that reads it.
-/

namespace ClusterScaling

/-- An overflow on the way to a duration. -/
inductive Overflow where
  /-- A number of minutes has more seconds than fit a word. -/
  | minutes
deriving DecidableEq, Repr

/-- The overflow in words. -/
def Overflow.message : Overflow → String
  | minutes => "attempt to multiply with overflow"

/-- Why there is no result where durations are read on the way: a cause of its own, or an
overflow. -/
inductive OrOverflow (ε : Type) where
  | cause (e : ε)
  | overflow (o : Overflow)
deriving DecidableEq, Repr

/-- The same with another cause. -/
def OrOverflow.map {ε ε' : Type} (f : ε → ε') : OrOverflow ε → OrOverflow ε'
  | cause e => .cause (f e)
  | overflow o => .overflow o

/-- A span of time. -/
structure Duration where
  millis : Nat
deriving DecidableEq, Repr

namespace Duration

/-- The span of `n` seconds. -/
def ofSeconds (n : Nat) : Duration := ⟨1000 * n⟩

/-- The whole seconds of the span. -/
def seconds (d : Duration) : Nat := d.millis / 1000

/-- The nanoseconds that go beyond the whole seconds. -/
def nanos (d : Duration) : Nat := d.millis % 1000 * 1000000

/-- The places of thousandths behind the point, without zeros at their end. -/
def places (thousandths : Nat) : List Char :=
  let ds := Decimal.digits thousandths
  Text.trimEnd '0' (List.replicate (3 - ds.length) '0' ++ ds)

/-- The span in words: seconds with up to three places, or milliseconds below a second. -/
def text (d : Duration) : String :=
  if d.millis = 0 then "0ns"
  else if d.millis < 1000 then Decimal.text d.millis ++ "ms"
  else if d.millis % 1000 = 0 then Decimal.text d.seconds ++ "s"
  else String.ofList (Decimal.digits d.seconds ++ '.' :: places (d.millis % 1000) ++ ['s'])

/-- The numbers of a duration fit this many bits. -/
def wordSize : Nat := 0x10000000000000000

/-- Reads a number of units. -/
def count? (cs : List Char) : Option Nat := Decimal.readBounded? (wordSize - 1) cs

/-- The text before the unit `unit` at its end. -/
def beforeUnit? (unit : String) (cs : List Char) : Option (List Char) :=
  if unit.toList.isSuffixOf cs then some (cs.take (cs.length - unit.toList.length)) else none

/-- The span of `n` minutes. Its seconds have to fit a word. -/
def ofMinutes (n : Nat) : Except Overflow Duration :=
  if 60 * n < wordSize then .ok (ofSeconds (60 * n)) else .error .minutes

/-- Reads a duration, if the text is one. -/
def parse? (s : String) : Except Overflow (Option Duration) :=
  let cs := Text.trim s.toList
  match beforeUnit? "ms" cs with
  | some n => .ok ((count? n).map fun n => ⟨n⟩)
  | none =>
    match beforeUnit? "s" cs with
    | some n => .ok ((count? n).map ofSeconds)
    | none =>
      match beforeUnit? "m" cs with
      | some n => (count? n).mapM ofMinutes
      | none => .ok ((count? cs).map ofSeconds)

end Duration

end ClusterScaling
