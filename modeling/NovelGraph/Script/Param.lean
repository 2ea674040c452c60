import NovelGraph.Text.Blank
import NovelGraph.Value.Display

/-! Parameters of blocks as they enter a script. -/
namespace NovelGraph.Script

abbrev Params := List (String × Value)

/-- One level of indentation. -/
def indentation : String := "    "

/-- A parameter as trimmed text. A null counts as absent; an absent one has its default. -/
def paramOr (ps : Params) (key default : String) : String :=
  match Value.lookup ps key with
  | none => Text.strip default
  | some .null => default
  | some v => Text.strip v.display

def param (ps : Params) (key : String) : String := paramOr ps key ""

/-- The same for a default that is itself any value. -/
def paramOrValue (ps : Params) (key : String) (default : Value) : Value :=
  match (Value.lookup ps key).getD default with
  | .null => default
  | v => .text (Text.strip v.display)

/-- The label of a start block, under either of the two names it may have. -/
def startLabel (ps : Params) : String :=
  let label := param ps "label"
  if label.isEmpty then param ps "Имя метки (label):" else label

end NovelGraph.Script
