import NovelGraph.Disk
import NovelGraph.Text.Blank

/-! Labels in the scripts of a game. -/
namespace NovelGraph

namespace Script

/-- The label that a line of a script defines. -/
def definedLabel? (line : String) : Option String :=
  let line := Text.strip line
  if Text.startsWith line "#" then none
  else if Text.startsWith line "label " then
    let rest := Text.strip (String.ofList (line.toList.drop 6))
    if Text.contains rest ":" then
      let name := Text.strip (String.ofList (rest.toList.takeWhile (· != ':')))
      if name.isEmpty then none else some name
    else none
  else none

def opensLabel (line : String) : Bool :=
  let line := Text.strip line
  Text.startsWith line "label " && Text.endsWith line ":"

end Script

namespace Tree

def isGame (t : Tree) (directory : Path) : Bool := t.isDirectory (directory.join "game")

/-- The labels that the scripts in a directory define, each once. A script that cannot be read
counts as far as it can. -/
def labels (t : Tree) (directory : Path) : List String :=
  ((t.namesEnding directory ".rpy").flatMap fun name =>
    (t.readLines (directory.join name)).1.filterMap Script.definedLabel?).eraseDups

/-- What stands in a script before its first label; nothing if the script cannot be read. -/
def definitionsOf (t : Tree) (script : Path) : String :=
  let (lines, all) := t.readLines script
  if all || lines.any Script.opensLabel then
    Text.concat (lines.takeWhile (!Script.opensLabel ·))
  else ""

end Tree
end NovelGraph
