import NovelGraph.Fault

/-! Arithmetic with coordinates, which are integers or binary64 numbers. -/
namespace NovelGraph.Value.Number

def toDouble : Number → Except Fault Double
  | .int n =>
    match Double.ofInt? n with
    | some x => .ok x
    | none => .error .tooLarge
  | .double x => .ok x

/-- Integers stay exact; an operation with a binary64 number is one of binary64. -/
def combine (onInt : Int → Int → Int) (onDouble : Double → Double → Double) :
    Number → Number → Except Fault Number
  | .int a, .int b => .ok (.int (onInt a b))
  | a, b => do
    let x ← a.toDouble
    let y ← b.toDouble
    pure (.double (onDouble x y))

def add : Number → Number → Except Fault Number := combine (· + ·) Double.add
def sub : Number → Number → Except Fault Number := combine (· - ·) Double.sub
def mul : Number → Number → Except Fault Number := combine (· * ·) Double.mul

def toValue : Number → Value
  | .int n => .int n
  | .double x => .float x

def lt (a b : Number) : Bool := a.magnitude.lt b.magnitude

/-- The larger number, the first if neither is. -/
def max (a b : Number) : Number := if a.lt b then b else a

/-- The smaller number, the first if neither is. -/
def min (a b : Number) : Number := if b.lt a then b else a

def abs : Number → Number
  | .int n => .int n.natAbs
  | .double x => .double ⟨(x.bits.toNat % Nat.pow 2 63).toUInt64⟩

/-- The square; a finite number may not have an infinite one. -/
def square : Number → Except Fault Number
  | .int n => .ok (.int (n * n))
  | .double x =>
    let y := x.square
    if y.isInfinite && x.isFinite then .error .tooLarge else .ok (.double y)

def sqrt (a : Number) : Except Fault Double := do pure (← a.toDouble).sqrt

end NovelGraph.Value.Number
