/-! Sets of code points, written as lists of closed intervals. -/
namespace NovelGraph.Text

/-- Membership of a character in a union of closed intervals of code points. -/
def within (ranges : List (Nat × Nat)) (c : Char) : Bool :=
  ranges.any fun r => decide (r.1 ≤ c.toNat) && decide (c.toNat ≤ r.2)

end NovelGraph.Text
