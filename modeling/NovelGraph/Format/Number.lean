import NovelGraph.Decimal.Places
import NovelGraph.Format
import NovelGraph.Number

/-! Numbers laid out in a gap of a text. -/
namespace NovelGraph.Format

/-- The parts of a number: its sign, the mark of its base, the digits before its point, and the
rest. -/
structure Figure where
  negative : Bool
  lead : List Char := []
  digits : List Char
  rest : List Char := []

/-- Puts a separator between groups of digits, from the right, and zeros before them up to a width.
Everything is written from right to left. -/
def groupReversed (separator : Char) (size : Nat) : Nat → List Char → Nat → List Char
  | 0, digits, _ => digits
  | fuel + 1, digits, width =>
    let n := min size (max (max digits.length width) 1)
    let group := digits.take n ++ List.replicate (n - digits.length) '0'
    if digits.length ≤ n && width ≤ n then group
    else group ++ separator :: groupReversed separator size fuel (digits.drop n) (width - n - 1)

/-- Digits with separators and with zeros before them up to a width. -/
def grouped (separator : Option Char) (size width : Nat) (digits : List Char) : List Char :=
  match separator with
  | none => Decimal.padLeft width digits
  | some c => (groupReversed c size (digits.length + width) digits.reverse width).reverse

def signOf (f : Format) (negative : Bool) : List Char :=
  if negative then ['-']
  else match f.sign with
    | some '+' => ['+']
    | some ' ' => [' ']
    | _ => []

/-- Groups have four digits in the bases that are powers of two. -/
def groupSize (f : Format) : Nat :=
  match f.mode with
  | some c => if c ∈ ['b', 'o', 'x', 'X'] then 4 else 3
  | none => 3

/-- Lays out a number. Zeros that fill it up are digits, and are grouped as such. -/
def figure (f : Format) (n : Figure) : Except Fault (List Char) := do
  let sign := f.signOf n.negative
  let others := sign.length + n.lead.length + n.rest.length
  let zeros := if f.fill = '0' && f.align = .inner then f.width.getD 0 - others else 0
  if widthLimit ≤ zeros then .error .tooLong
  let digits := if n.digits.isEmpty then [] else grouped f.separator f.groupSize zeros n.digits
  let (before, inside, behind) ← f.padding (others + digits.length)
  pure (before ++ sign ++ n.lead ++ inside ++ digits ++ n.rest ++ behind)

/-- The character with a number. -/
def character (f : Format) (n : Int) : Except Fault (List Char) := do
  if f.sign.isSome then refuse .characterSign
  if f.alternate then refuse .characterAlternate
  if n < 0 || 0x10ffff < n then .error .tooLarge
  f.figure { negative := false, digits := [], rest := [Char.ofNat n.toNat] }

/-- Lays out an integer in base two, eight, ten or sixteen, or as a character. -/
def integer (f : Format) (n : Int) : Except Fault (List Char) := do
  if f.precision.isSome then refuse .integerPrecision
  if f.unsignedZero then refuse .integerZero
  let inBase (base : Nat) (lead : List Char) : Figure :=
    { negative := decide (n < 0), lead := if f.alternate then lead else []
      digits := Nat.toDigits base n.natAbs }
  match f.mode with
  | some 'c' => f.character n
  | some 'b' => f.figure (inBase 2 ['0', 'b'])
  | some 'o' => f.figure (inBase 8 ['0', 'o'])
  | some 'x' => f.figure (inBase 16 ['0', 'x'])
  | some 'X' =>
    let n := inBase 16 ['0', 'X']
    f.figure { n with digits := n.digits.map Char.toUpper }
  | _ => f.figure (inBase 10 [])

/-- The digits of a finite number in a presentation, and how they are written. Without a letter and
a precision the fewest digits that read back are taken. -/
def placed (f : Format) (x : Double) : Decimal.Digits × Decimal.Placement :=
  let size := f.precision.getD 6
  let general (pointZero : Bool) : Decimal.Digits × Decimal.Placement :=
    let n := max size 1
    let d := Decimal.toSignificant x n
    let most : Int := if pointZero then n - 1 else n
    (d, { last := if f.alternate then n else d.digits.length
          scientific := d.point ≤ -4 || most < d.point, pointZero })
  let exact : Decimal.Digits × Decimal.Placement :=
    let d := if x.significand = 0 then Decimal.zeroDigits else Decimal.shortest x
    (d, { last := d.digits.length, scientific := d.point ≤ -4 || 16 < d.point, pointZero := true })
  let (d, p) : Decimal.Digits × Decimal.Placement := match f.mode.map Char.toLower with
    | some 'e' => (Decimal.toSignificant x (size + 1), { last := size + 1, scientific := true })
    | some 'f' | some '%' =>
      let d := Decimal.toPlaces x size
      (d, { last := d.point + size })
    | some _ => general false
    | none => if f.precision.isSome then general true else exact
  (d, { p with
    barePoint := f.alternate
    exponentMark := if f.mode.any Char.isUpper then 'E' else 'e' })

/-- Lays out a binary64 number. -/
def double (f : Format) (x : Double) : Except Fault (List Char) := do
  if f.precision.any (Nat.pow 2 31 ≤ ·) then refuse .precisionTooBig
  let x := if f.mode = some '%' then x.mul (Double.ofRatio false 100 1) else x
  let word (w : String) : List Char :=
    if f.mode.any Char.isUpper then w.toList.map Char.toUpper else w.toList
  let (negative, body) :=
    if x.isNan then (false, word "nan")
    else if x.isInfinite then (x.isNegative, word "inf")
    else
      let (d, p) := f.placed x
      (x.isNegative && !(f.unsignedZero && d.digits.all (· == '0')), p.write d)
  let body := if f.mode = some '%' then body ++ ['%'] else body
  f.figure { negative, digits := body.takeWhile Char.isDigit, rest := body.dropWhile Char.isDigit }

/-- The letters for presentations of binary64 numbers. -/
def doubleModes : List Char := ['e', 'E', 'f', 'F', 'g', 'G', '%']

end NovelGraph.Format

namespace NovelGraph.Value

/-- A value laid out as its kind allows. Without a layout it stands as it is displayed. -/
def format (v : Value) (spec : List Char) : Except Fault (List Char) :=
  if spec.isEmpty then .ok v.display.toList
  else match v with
    | .text s => do
      let f ← Format.read spec v.kindName .left (some 's')
      let mode := f.mode.getD 's'
      if mode = 's' then f.text s.toList else Format.refuse (.unknownMode mode v.kindName)
    | .float x => do
      let f ← Format.read spec v.kindName .right none
      match f.mode with
      | some m =>
        if m ∈ Format.doubleModes || m = 'n' then f.double x
        else Format.refuse (.unknownMode m v.kindName)
      | none => f.double x
    | v =>
      match v.number? with
      | some n => do
        let f ← Format.read spec v.kindName .right (some 'd')
        let mode := f.mode.getD 'd'
        if mode ∈ Format.doubleModes then f.double (← n.toDouble)
        else match n with
          | .int n =>
            if mode ∈ ['b', 'c', 'd', 'o', 'x', 'X', 'n'] then f.integer n
            else Format.refuse (.unknownMode mode v.kindName)
          | .double x => f.double x
      | none => .error (.wrongKind s!"unsupported format string passed to {v.kindName}.__format__")

end NovelGraph.Value
