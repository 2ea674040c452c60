import NovelGraph.Number

/-! The grid behind the canvas. -/
namespace NovelGraph.Grid

open Value (Number)

structure Rect where
  x : Number
  y : Number
  width : Number
  height : Number

/-- A line between two points. -/
structure Line where
  x₁ : Int
  y₁ : Int
  x₂ : Int
  y₂ : Int

def fine : Int := 20

def coarse : Int := 100

/-- The part of a number before its point. -/
def whole : Number → Except Fault Int
  | .int n => .ok n
  | .double x =>
    match x.truncate? with
    | some n => .ok n
    | none => .error (if x.isNan then .invalid "cannot convert float NaN to integer" else .tooLarge)

/-- The multiples of a step below a bound, from the one nearest to a start on the side that the
step comes from. -/
def ticks (step start : Int) (bound : Number) : Except Fault (List Int) := do
  let first := start - start.fmod step
  if (Number.int first).lt bound then
    let last ← whole bound
    let count := ((last - first + 1) / step).toNat + 1
    let all := (List.range (count + 1)).map fun k : Nat => first + step * k
    pure (all.filter fun t => (Number.int t).lt bound)
  else pure []

/-- The lines of a grid across a rectangle. A side matters only if a line ends there. -/
def lines (r : Rect) (step : Int) : Except Fault (List Line) := do
  let right ← r.x.add r.width
  let bottom ← r.y.add r.height
  let x₁ ← whole r.x
  if step = 0 then throw .zeroStep
  let down ← (← ticks step x₁ right).mapM fun x => do
    pure (⟨x, ← whole r.y, x, ← whole bottom⟩ : Line)
  let y₁ ← whole r.y
  let across ← (← ticks step y₁ bottom).mapM fun y => do
    pure (⟨x₁, y, ← whole right, y⟩ : Line)
  pure (down ++ across)

/-- The lines of the background: two grids, and the axes where they can be seen. -/
def background (r : Rect) : Except Fault (List Line) := do
  let grids := (← lines r fine) ++ (← lines r coarse)
  let right ← r.x.add r.width
  let bottom ← r.y.add r.height
  let seen (low high : Number) : Bool := !(Number.int 0).lt low && !high.lt (.int 0)
  let vertical ←
    if seen r.x right then do pure [⟨0, ← whole r.y, 0, ← whole bottom⟩] else pure []
  let horizontal ←
    if seen r.y bottom then do pure [⟨← whole r.x, 0, ← whole right, 0⟩] else pure []
  pure (grids ++ vertical ++ horizontal)

end NovelGraph.Grid
