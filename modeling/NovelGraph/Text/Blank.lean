import NovelGraph.Text.Ranges

/-! White space, and texts without it at their ends. -/
namespace NovelGraph.Text

def blankRanges : List (Nat × Nat) :=
  [(0x09, 0x0d), (0x1c, 0x20), (0x85, 0x85), (0xa0, 0xa0), (0x1680, 0x1680), (0x2000, 0x200a),
   (0x2028, 0x2029), (0x202f, 0x202f), (0x205f, 0x205f), (0x3000, 0x3000)]

def isBlank (c : Char) : Bool := within blankRanges c

/-- The characters without those at either end that satisfy `drop`. -/
def trimList (drop : Char → Bool) (cs : List Char) : List Char :=
  ((cs.dropWhile drop).reverse.dropWhile drop).reverse

/-- The text without white space at its ends. -/
def strip (s : String) : String := String.ofList (trimList isBlank s.toList)

/-- Only white space, or nothing. -/
def isBlankLine (s : String) : Bool := s.toList.all isBlank

end NovelGraph.Text
