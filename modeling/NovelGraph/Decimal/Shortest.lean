import NovelGraph.Decimal.Double

/-! The fewest decimal digits that read back as a given binary64 number. -/
namespace NovelGraph.Decimal

/-- The reals that round to a number, as fractions over one denominator. -/
structure Interval where
  low : Nat
  high : Nat
  den : Nat
  closed : Bool

/-- The rounding interval of a positive finite number `m * 2 ^ q`; it reaches only half as far down
when `m` is the least significand of its binade. -/
def Interval.around (x : Double) : Interval :=
  let m := x.significand
  let down := if x.fraction = 0 ∧ 1 < x.biasedExponent then 1 else 2
  let scale := Nat.pow 2 (x.exponent - 2).toNat
  { low := (4 * m - down) * scale
    high := (4 * m + 2) * scale
    den := Nat.pow 2 (2 - x.exponent).toNat
    closed := m % 2 == 0 }

def Interval.contains (i : Interval) (num den : Nat) : Bool :=
  if i.closed then
    decide (i.low * den ≤ num * i.den) && decide (num * i.den ≤ i.high * den)
  else
    decide (i.low * den < num * i.den) && decide (num * i.den < i.high * den)

/-- The `p` with `10 ^ (p - 1) ≤ num / den < 10 ^ p`, for positive arguments. -/
def pointPosition (num den : Nat) : Int :=
  if den ≤ num then (Nat.toDigits 10 (num / den)).length
  else 1 - (Nat.toDigits 10 ((den + num - 1) / num - 1)).length

/-- Digits `d` and a position `p`, for the number `0.d * 10 ^ p`. -/
structure Digits where
  digits : List Char
  point : Int

/-- Of the two neighbours of `num / den` on the grid of `k` digits, those in the interval; the
nearer one if both are, and the even one at equal distance. -/
def onGrid? (i : Interval) (num den : Nat) (p : Int) (k : Nat) : Option Nat :=
  let e := p - k
  let up := Nat.pow 10 e.toNat
  let down := Nat.pow 10 (-e).toNat
  let a := num * down / (den * up)
  let inside (c : Nat) := decide (0 < c) && i.contains (c * up) down
  match inside a, inside (a + 1) with
  | true, true =>
    let twice := 2 * (num * down)
    let middle := (2 * a + 1) * (den * up)
    if twice < middle then some a
    else if middle < twice then some (a + 1)
    else some (a + a % 2)
  | true, false => some a
  | false, true => some (a + 1)
  | false, false => none

def ofGrid (p : Int) (k c : Nat) : Digits :=
  let ds := Nat.toDigits 10 c
  { digits := (ds.reverse.dropWhile (· == '0')).reverse
    point := p + ds.length - k }

/-- The shortest digits of a positive finite number: the first grid of 1, 2, …, 17 digits that has
a point in the rounding interval. -/
def shortest (x : Double) : Digits :=
  let m := x.significand
  let num := m * Nat.pow 2 x.exponent.toNat
  let den := Nat.pow 2 (-x.exponent).toNat
  let p := pointPosition num den
  let i := Interval.around x
  match (List.range 17).findSome? fun k => (onGrid? i num den p (k + 1)).map (k + 1, ·) with
  | some (k, c) => ofGrid p k c
  | none => ofGrid p 17 (num * Nat.pow 10 (17 - p).toNat / (den * Nat.pow 10 (p - 17).toNat))

/-- How a decimal is laid out. -/
structure Layout where
  /-- Point positions that are written without an exponent. -/
  positional : Int → Bool
  /-- The least number of digits of an exponent. -/
  exponentWidth : Nat
  infinity : String
  nan : String

def padLeft (width : Nat) (cs : List Char) : List Char :=
  List.replicate (width - cs.length) '0' ++ cs

def Layout.positionalText (d : Digits) : List Char :=
  if d.point ≤ 0 then '0' :: '.' :: (List.replicate (-d.point).toNat '0' ++ d.digits)
  else
    let n := d.point.toNat
    let whole := d.digits.take n
    let rest := d.digits.drop n
    whole ++ List.replicate (n - whole.length) '0' ++ '.' :: (if rest.isEmpty then ['0'] else rest)

def Layout.exponentText (l : Layout) (d : Digits) : List Char :=
  let e := d.point - 1
  let mark := if e < 0 then '-' else '+'
  let head := match d.digits with
    | [] => ['0']
    | [c] => [c]
    | c :: rest => c :: '.' :: rest
  head ++ 'e' :: mark :: padLeft l.exponentWidth (Nat.toDigits 10 e.natAbs)

def Layout.write (l : Layout) (x : Double) : String :=
  if x.isNan then l.nan
  else
    let body :=
      if x.isInfinite then l.infinity.toList
      else if x.significand = 0 then ['0', '.', '0']
      else
        let d := shortest x
        if l.positional d.point then Layout.positionalText d else l.exponentText d
    String.ofList (if x.isNegative then '-' :: body else body)

end NovelGraph.Decimal
