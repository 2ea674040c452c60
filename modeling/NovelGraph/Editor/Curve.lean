import NovelGraph.Number

/-! The curves of wires and the arrows at their ends. -/
namespace NovelGraph

open Value (Number)

structure Point where
  x : Number
  y : Number

namespace Point

def toValue (p : Point) : Value := .list [p.x.toValue, p.y.toValue]

def add (p q : Point) : Except Fault Point := do pure ⟨← p.x.add q.x, ← p.y.add q.y⟩

def ofDoubles (x y : Double) : Point := ⟨.double x, .double y⟩

end Point

/-- A cubic curve with its two control points. -/
structure Curve where
  start : Point
  first : Point
  second : Point
  stop : Point

namespace Curve

def ofRatio (num den : Nat) : Double := Double.ofRatio false num den

/-- How far the control points reach out sideways: 40 to 150, more for longer curves. -/
def reach (dx dy : Number) : Except Fault Number := do
  let wide ← dx.abs.mul (.double (ofRatio 65 100))
  let distance ← (← (← dx.square).add (← dy.square)).sqrt
  let factor := ((Number.double (distance.div (ofRatio 200 1))).max (.double (ofRatio 1 2))).min
    (.double (ofRatio 3 2))
  pure ((Number.int 40).max ((← wide.mul factor).min (.int 150)))

/-- The curve of a wire from one place to another. -/
def between (p q : Point) : Except Fault Curve := do
  let dx ← q.x.sub p.x
  let dy ← q.y.sub p.y
  let across ← reach dx dy
  let down ← dy.abs.mul (.double (ofRatio 3 10))
  pure
    { start := p
      first := ⟨← p.x.add across, ← p.y.add down⟩
      second := ⟨← q.x.sub across, ← q.y.sub down⟩
      stop := q }

def toValue (c : Curve) : Value :=
  .list [c.start.toValue, c.first.toValue, c.second.toValue, c.stop.toValue]

end Curve

/-- An arrow: its tip, and its direction of length one. -/
structure Arrow where
  tip : Point
  dx : Double
  dy : Double

namespace Arrow

/-- The direction from one point to another, unless they are as good as the same. -/
def direction? (p q : Point) : Except Fault (Option (Double × Double)) := do
  let dx ← q.x.sub p.x
  let dy ← q.y.sub p.y
  let length ← (← (← dx.mul dx).add (← dy.mul dy)).sqrt
  if (Number.double (Curve.ofRatio 1 1000)).lt (.double length) then
    pure (some ((← dx.toDouble).div length, (← dy.toDouble).div length))
  else pure none

/-- The arrow in which a curve ends, eight units before its end. -/
def ofCurve (c : Curve) : Except Fault Arrow := do
  let (dx, dy) ← match ← direction? c.second c.stop with
    | some d => pure d
    | none => do pure ((← direction? c.start c.stop).getD (Curve.ofRatio 1 1, .zero))
  let back (d : Double) := Number.double (d.mul (Curve.ofRatio 8 1))
  pure { tip := ⟨← c.stop.x.sub (back dx), ← c.stop.y.sub (back dy)⟩, dx, dy }

/-- The corners of the drawn arrow. -/
def triangle (a : Arrow) (highlighted : Bool) : Except Fault (List Point) := do
  let size := Curve.ofRatio (if highlighted then 14 else 12) 1
  let width := Curve.ofRatio (if highlighted then 8 else 7) 1
  let baseX := (← a.tip.x.toDouble).sub (a.dx.mul size)
  let baseY := (← a.tip.y.toDouble).sub (a.dy.mul size)
  let sideX := (a.dy.neg.mul width).div (Curve.ofRatio 2 1)
  let sideY := (a.dx.mul width).div (Curve.ofRatio 2 1)
  pure [a.tip, .ofDoubles (baseX.add sideX) (baseY.add sideY),
    .ofDoubles (baseX.sub sideX) (baseY.sub sideY)]

end Arrow
end NovelGraph
