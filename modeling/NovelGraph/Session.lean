import NovelGraph.Export
import NovelGraph.Story.File

/-! The project that is open, and where. -/
namespace NovelGraph

structure Session where
  project : Option Project := none
  directory : Option Path := none
deriving Inhabited

namespace Session

/-- New projects start with one empty scene. -/
def template : Value :=
  .object [("name", .text "New RenPy Project"), ("variables", .object []),
    ("scenes", .list [.object [("id", .text "scene_1"), ("name", .text "Main Scene"),
      ("label", .text "start"), ("blocks", .list []), ("ports", .list []),
      ("connections", .list [])]])]

/-- The project that a template gives under a new name. -/
def ofTemplate (template : String) (name : Value) : Except Fault Project := do
  match ← Json.parse template with
  | .object ms => Project.ofValue (.object (Value.assign ms "name" name))
  | .list _ => .error (.wrongKind "list indices must be integers or slices, not str")
  | v => .error (.wrongKind s!"'{v.kindName}' object does not support item assignment")

/-- Makes a project in a directory; without a template it is empty. -/
def create (template : Option String) (name : Value) (directory : Path) : DiskM Session := do
  Disk.makeDirectory directory
  let project ← match template with
    | some s => Disk.ask fun _ => ofTemplate s name
    | none => pure { name }
  project.save directory
  pure { project := some project, directory := some directory }

def openIn (t : Tree) (directory : Path) : Except Fault Session := do
  pure { project := some (← Project.load t directory), directory := some directory }

def save (s : Session) : DiskM Unit :=
  match s.project, s.directory with
  | some p, some d => p.save d
  | _, _ => pure ()

def script (s : Session) : Except Fault String :=
  match s.project with
  | some p => p.script
  | none => .ok ""

def exportTo (s : Session) (directory : Path) : DiskM Unit :=
  match s.project with
  | some p => p.exportTo directory
  | none => throw (.invalid "Нет открытого проекта")

def projectName (s : Session) : Value :=
  match s.project with
  | some p => p.name
  | none => .text "No project"

end Session
end NovelGraph
