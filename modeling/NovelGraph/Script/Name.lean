import NovelGraph.Text.Blank
import NovelGraph.Text.Digit
import NovelGraph.Text.Word

/-! Names of variables, made from the names of characters and pictures. -/
namespace NovelGraph.Script

def startsWithDigit : List Char → Bool
  | c :: _ => Text.isDigit c
  | [] => false

/-- Every run of underscores as a single one. -/
def collapse : List Char → List Char
  | '_' :: '_' :: rest => collapse ('_' :: rest)
  | c :: rest => c :: collapse rest
  | [] => []

def charPrefixed (cs : List Char) : List Char :=
  if startsWithDigit cs then ['c', 'h', 'a', 'r', '_'] ++ cs else cs

/-- A name of word characters that neither begins with a digit nor has an underscore too many. -/
def normalizeList (cs : List Char) : List Char :=
  let marked := cs.map fun c => if Text.isWord c then c else '_'
  let trimmed := Text.trimList (· == '_') (collapse (charPrefixed marked))
  if trimmed.isEmpty then ['v', 'a', 'r'] else charPrefixed trimmed

def normalize (name : String) : String := String.ofList (normalizeList name.toList)

end NovelGraph.Script
