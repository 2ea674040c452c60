import NovelGraph.Number
import NovelGraph.Story

/-! Distances between blocks on the drawing. -/
namespace NovelGraph

namespace Value

def difference (a b : Value) : Except Fault Number :=
  match a.number?, b.number? with
  | some m, some n => m.sub n
  | _, _ => .error (.noDifference a b)

end Value

namespace Block

/-- The Euclidean distance from one block to another. -/
def distance (a b : Block) : Except Fault Double := do
  let dx ← b.x.difference a.x
  let dy ← b.y.difference a.y
  let sum ← (← dx.mul dx).add (← dy.mul dy)
  pure (← sum.toDouble).halfPower

end Block
end NovelGraph
