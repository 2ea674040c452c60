/-! Binary64 numbers as data: their parts, exact rounding of fractions, and exact comparison. -/
namespace NovelGraph

/-- A binary64 number, kept as its bits, so that two of them are equal exactly when they print
alike (all not-a-numbers that are ever built have the same bits). -/
structure Double where
  bits : UInt64
deriving DecidableEq, Repr, Inhabited

namespace Double

def ofFloat (x : Float) : Double := ⟨x.toBits⟩
def toFloat (x : Double) : Float := Float.ofBits x.bits

def zero : Double := ⟨0⟩
def infinity (negative : Bool) : Double := ⟨if negative then 0xfff0000000000000 else 0x7ff0000000000000⟩
def nan : Double := ⟨0x7ff8000000000000⟩

def isNegative (x : Double) : Bool := decide (Nat.pow 2 63 ≤ x.bits.toNat)
def biasedExponent (x : Double) : Nat := x.bits.toNat / Nat.pow 2 52 % Nat.pow 2 11
def fraction (x : Double) : Nat := x.bits.toNat % Nat.pow 2 52

def isFinite (x : Double) : Bool := x.biasedExponent != 2047
def isNan (x : Double) : Bool := x.biasedExponent == 2047 && x.fraction != 0
def isInfinite (x : Double) : Bool := x.biasedExponent == 2047 && x.fraction == 0

/-- A finite number is `± significand * 2 ^ exponent`. -/
def significand (x : Double) : Nat :=
  if x.biasedExponent = 0 then x.fraction else x.fraction + Nat.pow 2 52

def exponent (x : Double) : Int := (max x.biasedExponent 1 : Nat) - 1075

/-- The quotient rounded to the nearest natural number, a half to the even neighbour. -/
def roundDiv (num den : Nat) : Nat :=
  let q := num / den
  let r := 2 * (num % den)
  if r < den then q else if den < r then q + 1 else q + q % 2

/-- The largest `l` with `2 ^ l ≤ num / den`, for positive arguments. -/
def floorLog2 (num den : Nat) : Int :=
  let l : Int := (num.log2 : Int) - den.log2
  if num * Nat.pow 2 (-l).toNat < den * Nat.pow 2 l.toNat then l - 1 else l

/-- The number nearest to `num / den`, a half to the even neighbour; infinite from half a step
above the largest finite number on. -/
def ofRatio (negative : Bool) (num den : Nat) : Double :=
  let sign : Nat := if negative then Nat.pow 2 63 else 0
  if num = 0 then ⟨sign.toUInt64⟩ else
    let q : Int := max (floorLog2 num den - 52) (-1074)
    let m := roundDiv (num * Nat.pow 2 (-q).toNat) (den * Nat.pow 2 q.toNat)
    let bits := (q + 1074).toNat * Nat.pow 2 52 + m
    if 0x7ff0000000000000 ≤ bits then infinity negative else ⟨(sign + bits).toUInt64⟩

/-- The number nearest to `± digits * 10 ^ scale`. -/
def ofDecimal (negative : Bool) (digits : Nat) (scale : Int) : Double :=
  let size : Int := (Nat.toDigits 10 digits).length + scale
  if digits = 0 then ofRatio negative 0 1
  else if 310 < size then infinity negative
  else if size < -330 then ofRatio negative 0 1
  else ofRatio negative (digits * Nat.pow 10 scale.toNat) (Nat.pow 10 (-scale).toNat)

/-- The number nearest to an integer, unless that is infinite. -/
def ofInt? (n : Int) : Option Double :=
  let x := ofRatio (decide (n < 0)) n.natAbs 1
  if x.isFinite then some x else none

/-- The integer that a finite number without a fractional part is. -/
def toInt? (x : Double) : Option Int :=
  let m := x.significand
  let shift := Nat.pow 2 (-x.exponent).toNat
  if x.isFinite && m * Nat.pow 2 x.exponent.toNat % shift == 0 then
    let n : Int := (m * Nat.pow 2 x.exponent.toNat / shift : Nat)
    some (if x.isNegative then -n else n)
  else none

/-- A finite number without what comes after its point. -/
def truncate? (x : Double) : Option Int :=
  if x.isFinite then
    let shift := Nat.pow 2 (-x.exponent).toNat
    let n : Int := (x.significand * Nat.pow 2 x.exponent.toNat / shift : Nat)
    some (if x.isNegative then -n else n)
  else none

def add (x y : Double) : Double := ofFloat (x.toFloat + y.toFloat)
def sub (x y : Double) : Double := ofFloat (x.toFloat - y.toFloat)
def mul (x y : Double) : Double := ofFloat (x.toFloat * y.toFloat)
def div (x y : Double) : Double := ofFloat (x.toFloat / y.toFloat)
def neg (x : Double) : Double := ofFloat (-x.toFloat)
def sqrt (x : Double) : Double := ofFloat x.toFloat.sqrt

/-- A number of at most 26 binary digits, of a size at which its square has a binary64 form. -/
def isShort (x : Double) : Bool :=
  x.significand == 0 || (decide (512 ≤ x.biasedExponent) && decide (x.biasedExponent ≤ 1534) &&
    x.significand % Nat.pow 2 27 == 0)

/-- The power with exponent two. Short numbers have their exact squares; elsewhere the power
function of the platform decides the last digit. -/
def square (x : Double) : Double :=
  if x.isShort then x.mul x else ofFloat (x.toFloat.pow 2)

/-- The largest natural number whose square is at most `n`, by `fuel` halvings of an interval. -/
def floorSqrt (n : Nat) : Nat → Nat → Nat → Nat
  | 0, lo, _ => lo
  | fuel + 1, lo, hi =>
    if hi ≤ lo + 1 then lo else
      let mid := (lo + hi) / 2
      if mid * mid ≤ n then floorSqrt n fuel mid hi else floorSqrt n fuel lo mid

/-- The root of a finite number that is the square of a shorter one. -/
def exactSqrt? (x : Double) : Option Double :=
  let odd := x.exponent % 2 != 0
  let m := if odd then 2 * x.significand else x.significand
  let half := (if odd then x.exponent - 1 else x.exponent) / 2
  let r := floorSqrt m 60 0 (Nat.pow 2 28)
  if x.isFinite && !x.isNegative && r * r == m then
    some (ofRatio false (r * Nat.pow 2 half.toNat) (Nat.pow 2 (-half).toNat))
  else none

/-- The power with exponent one half. Squares have their exact roots; elsewhere the power function
of the platform decides the last digit. -/
def halfPower (x : Double) : Double :=
  match x.exactSqrt? with
  | some r => r
  | none => ofFloat (x.toFloat.pow 0.5)

end Double

/-- A number as it compares: exactly `m * 2 ^ e`, an infinity, or no number at all. -/
inductive Magnitude where
  | finite (m e : Int)
  | infinite (negative : Bool)
  | nan

namespace Magnitude

def ofInt (n : Int) : Magnitude := .finite n 0

def ofDouble (x : Double) : Magnitude :=
  if x.isFinite then
    .finite (if x.isNegative then -(x.significand : Int) else x.significand) x.exponent
  else if x.isNan then .nan else .infinite x.isNegative

/-- `a * 2 ^ d < b * 2 ^ e`, exactly. -/
def finiteLt (a d b e : Int) : Bool :=
  decide (a * Int.pow 2 (d - min d e).toNat < b * Int.pow 2 (e - min d e).toNat)

/-- The order of the extended reals; a not-a-number is below nothing and above nothing. -/
def lt : Magnitude → Magnitude → Bool
  | .finite a d, .finite b e => finiteLt a d b e
  | .finite _ _, .infinite negative => !negative
  | .infinite negative, .finite _ _ => negative
  | .infinite a, .infinite b => a && !b
  | _, _ => false

end Magnitude

end NovelGraph
