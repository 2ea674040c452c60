import NovelGraph.Host

/-! The Ren'Py development kit and how a game is started with it. -/
namespace NovelGraph

structure Kit where
  root : Path
deriving Repr

namespace Kit

def program (k : Kit) : Path := k.root.join "renpy.py"

def interpreter (k : Kit) : Path := k.root.join "lib/py3-windows-x86_64/python.exe"

def isValid (k : Kit) (t : Tree) : Bool := t.isFile k.program && t.isFile k.interpreter

/-- The kit that the settings name, or the usual place. -/
def usual : HostM Kit := do
  match ← Host.kitPath with
  | some p => pure ⟨p⟩
  | none => pure ⟨Path.ofText "C:\\RenPy\\renpy-8.3.7"⟩

def usual? : HostM (Option Kit) := do
  let k ← usual
  pure (if k.isValid (← get).disk then some k else none)

def command (k : Kit) (project : Path) : List String :=
  [k.interpreter.text, k.program.text, project.resolve.text]

/-- Starts a game. The files of a tree are no programs, so that a valid kit is refused too. -/
def run (k : Kit) (t : Tree) : Except Fault Unit :=
  if k.isValid t then
    let refusal : Fault := .file .denied k.interpreter.text
    .error (.notRunnable s!"Не удалось запустить Ren'Py: {refusal.message}")
  else .error (.notRunnable s!"Некорректный путь к Ren'Py SDK: {k.root.text}")

end Kit
end NovelGraph
