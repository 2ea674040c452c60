import NovelGraph.Disk
import NovelGraph.Json.Writer
import NovelGraph.Story.Document

/-! Projects in their directories. -/
namespace NovelGraph

namespace Json

/-- Reads the value of a text within a limit, the text being part of the error. -/
def parseWithin (limit : Option Nat) (s : String) : Except Fault Value :=
  match readWithin limit s with
  | .ok v => .ok v
  | .error e => .error (.unreadable s e)

def parse (s : String) : Except Fault Value := parseWithin none s

end Json

namespace Project

def fileName : String := "project.json"

/-- The project in a directory. -/
def load (t : Tree) (directory : Path) : Except Fault Project := do
  let file := directory.join fileName
  if !t.exists? file then .error (.projectMissing file.text)
  else ofValue (← Json.parse (← t.readText file))

/-- Puts the project into a directory, which is made if need be. -/
def save (p : Project) (directory : Path) : DiskM Unit := do
  Disk.makeDirectory directory
  Disk.writeText (directory.join fileName) (Json.write p.toValue)

end Project
end NovelGraph
