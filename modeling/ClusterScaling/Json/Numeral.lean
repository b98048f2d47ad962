import ClusterScaling.Decimal.Binary64
import ClusterScaling.Decimal.Numeral

/-!
# Numbers of JSON texts

A `Numeral` is a number as written. `Numeral.value?` is the number meant: an integer where one
without fraction and exponent fits 64 bits, and otherwise a binary64 number. A number beyond the
range of that format has no value.
-/

namespace ClusterScaling.Json

open Decimal (Binary64 Magnitude)

/-- A number as written: a sign, digits before and after the point, and an exponent. -/
structure Numeral where
  negative : Bool
  /-- The digits before the point. -/
  whole : List Char
  /-- The digits after the point; none if there is no point. -/
  fraction : List Char
  exponent : Option Int
deriving DecidableEq, Repr

/-- The number that a numeral denotes. -/
inductive Number where
  | integer (n : Int)
  | floating (x : Binary64)
deriving DecidableEq, Repr

namespace Numeral

/-- The numeral of an integer. -/
def ofInt (n : Int) : Numeral :=
  ⟨decide (n < 0), Decimal.digits n.natAbs, [], none⟩

/-- The text of a numeral. -/
def chars (n : Numeral) : List Char :=
  let sign := if n.negative then ['-'] else []
  let fraction := if n.fraction.isEmpty then [] else '.' :: n.fraction
  let exponent := match n.exponent with
    | none => []
    | some e => 'e' :: Decimal.integer e
  sign ++ n.whole ++ fraction ++ exponent

/-- The greatest number of 64 bits. -/
def wordLimit : Nat := 0xffffffffffffffff

/-- The leading digits as a number, as far as it stays within 64 bits after `n`, and the digits
left over. -/
def leading (n : Nat) : List Char → Nat × List Char
  | [] => (n, [])
  | c :: cs =>
    let m := 10 * n + Decimal.digitValue c
    if m ≤ wordLimit then leading m cs else (n, c :: cs)

/-- The number `m · 10 ^ e`, with one rounding for `m` and one for the power; `none` beyond the
range of the format. A power below the range is taken in steps of `10 ^ 308`. -/
def scaled? (m : Nat) (e : Int) : Option Magnitude :=
  let x := Magnitude.ofRatio m 1
  match e with
  | .ofNat k =>
    if x.isZero then some x
    else if 308 < k then none
    else match x.mul (Magnitude.tenPower k) with
      | .infinite => none
      | y => some y
  | .negSucc k =>
    let k := k + 1
    let rec lower (x : Magnitude) (k : Nat) : Magnitude :=
      if k ≤ 308 then x.div (Magnitude.tenPower k)
      else if x.isZero then x
      else lower (x.div (Magnitude.tenPower 308)) (k - 308)
    termination_by k
    some (lower x k)

/-- The number that the numeral denotes, or `none` if it is out of range. The significand is made
of the leading digits that fit 64 bits; the digits before the point that do not fit count as
powers of ten. -/
def value? (n : Numeral) : Option Number :=
  let whole := leading 0 n.whole
  if n.fraction.isEmpty && n.exponent.isNone && whole.2.isEmpty
      && (!n.negative || (0 < whole.1 && whole.1 ≤ 0x8000000000000000)) then
    some (.integer (if n.negative then -(whole.1 : Int) else whole.1))
  else
    let all := leading whole.1 n.fraction
    let power : Int := whole.2.length - (n.fraction.length - all.2.length : Nat)
      + n.exponent.getD 0
    (scaled? all.1 power).map fun m => .floating (.signed n.negative m)

end Numeral

end ClusterScaling.Json
