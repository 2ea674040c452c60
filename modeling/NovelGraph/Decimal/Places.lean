import NovelGraph.Decimal.Shortest

/-! Binary64 numbers rounded to a number of digits, and the layout of the digits. -/
namespace NovelGraph.Decimal

/-- More digits than any binary64 number has. -/
def enoughDigits : Nat := 1100

def zeroDigits : Digits := ⟨['0'], 1⟩

/-- A finite number with `n` significant digits, without zeros at their end. A half goes to the even
neighbour. -/
def toSignificant (x : Double) (n : Nat) : Digits :=
  if x.significand = 0 then zeroDigits
  else
    let num := x.significand * Nat.pow 2 x.exponent.toNat
    let den := Nat.pow 2 (-x.exponent).toNat
    let k := min n enoughDigits
    let p := pointPosition num den
    ofGrid p k (Double.roundDiv (num * Nat.pow 10 (k - p).toNat) (den * Nat.pow 10 (p - k).toNat))

/-- A finite number with `n` digits behind its point, without zeros at their end. A number that is
rounded away has no digits. -/
def toPlaces (x : Double) (n : Nat) : Digits :=
  if x.significand = 0 then zeroDigits
  else
    let k := min n enoughDigits
    let num := x.significand * Nat.pow 2 x.exponent.toNat * Nat.pow 10 k
    let c := Double.roundDiv num (Nat.pow 2 (-x.exponent).toNat)
    if c = 0 then ⟨[], -n⟩ else ofGrid 0 k c

/-- What becomes of digits: where they end, and whether an exponent follows. -/
structure Placement where
  /-- Digits are written up to here, as zeros if there are none left. -/
  last : Int
  scientific : Bool := false
  /-- A whole number is written with a zero behind its point. -/
  pointZero : Bool := false
  /-- A point is kept even if nothing follows it. -/
  barePoint : Bool := false
  exponentMark : Char := 'e'

def zeros (n : Int) : List Char := List.replicate n.toNat '0'

def Placement.write (p : Placement) (d : Digits) : List Char :=
  let point := if p.scientific then 1 else d.point
  let last := max p.last (if p.pointZero && !p.scientific then point + 1 else point)
  let size : Int := d.digits.length
  let body :=
    if point ≤ 0 then '0' :: '.' :: (zeros (-point) ++ d.digits ++ zeros (last - size))
    else if point ≤ size then
      d.digits.take point.toNat ++ '.' :: (d.digits.drop point.toNat ++ zeros (last - size))
    else d.digits ++ zeros (point - size) ++ '.' :: zeros (last - point)
  let body := if body.getLast? == some '.' && !p.barePoint then body.dropLast else body
  if p.scientific then
    let e := d.point - 1
    body ++ p.exponentMark :: (if e < 0 then '-' else '+') :: padLeft 2 (Nat.toDigits 10 e.natAbs)
  else body

end NovelGraph.Decimal
