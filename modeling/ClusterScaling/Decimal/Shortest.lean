import ClusterScaling.Decimal.Binary64
import ClusterScaling.Decimal.Numeral

/-!
# The shortest decimal of a binary number

`Scientific.shortest` gives the fewest digits that round to a binary64 number, and of those the
nearest to it. Two layouts write such digits: `Scientific.mixed`, with an exponent for very large
and very small numbers, and `Scientific.positional`, without.
-/

namespace ClusterScaling.Decimal

/-- The number `0.d₁d₂… · 10 ^ point`, for digits `d₁d₂…`. -/
structure Scientific where
  digits : List Char
  /-- The number of digits before the decimal point. -/
  point : Int
deriving DecidableEq, Repr

namespace Scientific

/-- The numerator and the denominator of `10 ^ p`. -/
def tenPower (p : Int) : Nat × Nat :=
  match p with
  | .ofNat k => (Nat.pow 10 k, 1)
  | .negSucc k => (1, Nat.pow 10 (k + 1))

/-- The number of decimal digits before the point of `num / den`; negative or zero for the zeros
that follow the point of a number below `1/10`. -/
def pointOf (num den : Nat) : Int :=
  let guess : Int := (Decimal.digits num).length - (Decimal.digits den).length
  let p := tenPower guess
  if den * p.1 ≤ num * p.2 then guess + 1 else guess

/-- Tries the decimals with `n` digits for the number `mantissa · 2 ^ exponent`, which has `point`
digits before its point. -/
def withDigits? (mantissa : Nat) (exponent point : Int) (n : Nat) : Option Scientific :=
  -- In units of a quarter of the last bit the number is `4 · mantissa`, and the reals that round
  -- to it reach half a bit up and half a bit down, or a quarter down at a power of two.
  let unit := Magnitude.scale 1 (exponent - 2)
  let value := 4 * mantissa
  let atPower := mantissa = Magnitude.leastFull && Magnitude.leastExponent < exponent
  let low := if atPower then value - 1 else value - 2
  let high := value + 2
  let closed := mantissa % 2 = 0
  let grid := tenPower (point - n)
  let ofUnits (c : Nat) : Nat := c * unit.1 * grid.2
  let ofGrid (d : Nat) : Nat := d * grid.1 * unit.2
  let below := ofUnits value / (grid.1 * unit.2)
  let inside (d : Nat) : Bool :=
    if closed then ofUnits low ≤ ofGrid d && ofGrid d ≤ ofUnits high
    else ofUnits low < ofGrid d && ofGrid d < ofUnits high
  let distBelow := ofUnits value - ofGrid below
  let distAbove := ofGrid (below + 1) - ofUnits value
  let hit : Option Nat :=
    match inside below, inside (below + 1) with
    | true, true =>
      if distBelow < distAbove then some below
      else if distAbove < distBelow then some (below + 1)
      else some (if below % 2 = 0 then below else below + 1)
    | true, false => some below
    | false, true => some (below + 1)
    | false, false => none
  hit.map fun d =>
    let ds := Decimal.digits d
    ⟨(ds.reverse.dropWhile (· == '0')).reverse, point - n + ds.length⟩

/-- The fewest digits that round to `mantissa · 2 ^ exponent`; `0` for zero. -/
def shortest (mantissa : Nat) (exponent : Int) : Scientific :=
  if mantissa = 0 then ⟨['0'], 1⟩ else
  let v := Magnitude.scale mantissa exponent
  let point := pointOf v.1 v.2
  ((List.range 17).findSome? fun i => withDigits? mantissa exponent point (i + 1)).getD ⟨['0'], 1⟩

/-- The digits with a decimal point at its place, and at least one digit on both sides of it. -/
def positional (s : Scientific) : List Char :=
  match s.point with
  | .ofNat 0 => ['0', '.'] ++ s.digits
  | .ofNat p =>
    let whole := s.digits.take p ++ List.replicate (p - s.digits.length) '0'
    let rest := s.digits.drop p
    whole ++ '.' :: (if rest.isEmpty then ['0'] else rest)
  | .negSucc k => ['0', '.'] ++ List.replicate (k + 1) '0' ++ s.digits

/-- One digit before the point, and an exponent with its sign. -/
def exponential (s : Scientific) : List Char :=
  let mantissa := match s.digits with
    | [] => ['0']
    | [d] => [d]
    | d :: ds => d :: '.' :: ds
  let e := s.point - 1
  mantissa ++ 'e' :: (if e < 0 then '-' else '+') :: Decimal.digits e.natAbs

/-- Positional from `10 ^ -5` to below `10 ^ 16`, otherwise with an exponent. -/
def mixed (s : Scientific) : List Char :=
  if -4 ≤ s.point && s.point ≤ 16 then s.positional else s.exponential

end Scientific

namespace Binary64

/-- The text of a number whose finite size is laid out by `layout`. -/
def text (layout : Scientific → List Char) : Binary64 → String
  | nan => "NaN"
  | signed negative magnitude =>
    let body := match magnitude with
      | .infinite => "inf".toList
      | .finite m e => layout (Scientific.shortest m e)
    String.ofList (if negative then '-' :: body else body)

end Binary64

end ClusterScaling.Decimal
