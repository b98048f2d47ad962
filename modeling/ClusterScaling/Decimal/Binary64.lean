/-!
# Binary floating point

Numbers in the binary64 format, and rounding of quotients of naturals to it: to the nearest number,
and of two equally near ones to the one with the even mantissa.
-/

namespace ClusterScaling.Decimal

/-- The size of a binary64 number. -/
inductive Magnitude where
  /-- The number `mantissa · 2 ^ exponent`, with a mantissa below `2 ^ 53` and an exponent from
  `-1074` to `971`. -/
  | finite (mantissa : Nat) (exponent : Int)
  | infinite
deriving DecidableEq, Repr

/-- A binary64 number. -/
inductive Binary64 where
  | signed (negative : Bool) (magnitude : Magnitude)
  | nan
deriving DecidableEq, Repr

namespace Magnitude

/-- The least exponent of the format. -/
def leastExponent : Int := -1074

/-- The least mantissa of 53 bits. -/
def leastFull : Nat := 0x10000000000000

/-- The greatest exponent of the format. -/
def greatestExponent : Int := 971

/-- The numerator and the denominator of `n · 2 ^ e`. -/
def scale (n : Nat) (e : Int) : Nat × Nat :=
  match e with
  | .ofNat k => (n <<< k, 1)
  | .negSucc k => (n, 1 <<< (k + 1))

/-- The nearest natural to `num / den`; of two equally near ones the even one. -/
def roundDiv (num den : Nat) : Nat :=
  let q := num / den
  let r := num % den
  if 2 * r < den then q
  else if den < 2 * r then q + 1
  else if q % 2 = 0 then q else q + 1

/-- The exponent at which `num / den` has a mantissa of 53 bits, or the least one. -/
def exponentOf (num den : Nat) : Int :=
  let guess : Int := (Nat.log2 num : Int) - Nat.log2 den - 52
  -- The guess is right or one too large.
  let fits (e : Int) : Bool :=
    match e with
    | .ofNat k => (den <<< k) * leastFull ≤ num
    | .negSucc k => den * leastFull ≤ num <<< (k + 1)
  max leastExponent (if fits guess then guess else guess - 1)

/-- The binary64 number nearest to `num / den`. -/
def ofRatio (num den : Nat) : Magnitude :=
  if num = 0 then finite 0 leastExponent else
  let e := exponentOf num den
  let m := match e with
    | .ofNat k => roundDiv num (den <<< k)
    | .negSucc k => roundDiv (num <<< (k + 1)) den
  let r := if m = 2 * leastFull then (leastFull, e + 1) else (m, e)
  if greatestExponent < r.2 then infinite else finite r.1 r.2

/-- Whether the number is zero. -/
def isZero : Magnitude → Bool
  | finite m _ => m == 0
  | infinite => false

/-- The number nearest to `10 ^ k`. -/
def tenPower (k : Nat) : Magnitude := ofRatio (Nat.pow 10 k) 1

/-- The product of two numbers, rounded. -/
def mul : Magnitude → Magnitude → Magnitude
  | finite m e, finite n f =>
    let p := scale (m * n) (e + f)
    ofRatio p.1 p.2
  | _, _ => infinite

/-- The quotient by a number that is not zero, rounded. -/
def div : Magnitude → Magnitude → Magnitude
  | finite m e, finite n f =>
    let p := scale 1 (e - f)
    ofRatio (m * p.1) (n * p.2)
  | finite _ _, infinite => finite 0 leastExponent
  | infinite, _ => infinite

end Magnitude

end ClusterScaling.Decimal
