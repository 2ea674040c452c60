import NovelGraph.Text.Lines

/-! File names with slashes. -/
namespace NovelGraph

/-- A path: what it starts with (nothing, one slash or two) and the names after that. -/
structure Path where
  root : String
  parts : List String
deriving DecidableEq, Repr, Inhabited

namespace Path

/-- Reads a path. Repeated slashes and single points drop out; exactly two leading slashes stay. -/
def ofText (s : String) : Path :=
  let root :=
    if Text.startsWith s "//" && !Text.startsWith s "///" then "//"
    else if Text.startsWith s "/" then "/" else ""
  ⟨root, (Text.split '/' s).filter fun part => part != "" && part != "."⟩

def text (p : Path) : String :=
  if p.root.isEmpty && p.parts.isEmpty then "." else p.root ++ "/".intercalate p.parts

/-- The path that a text names seen from here; one that starts with a slash stands for itself. -/
def join (p : Path) (s : String) : Path :=
  let q := ofText s
  if q.root.isEmpty then { p with parts := p.parts ++ q.parts } else q

def parent (p : Path) : Path := { p with parts := p.parts.dropLast }

def name (p : Path) : String := p.parts.getLast?.getD ""

/-- A name up to its last point, and the rest from there; points at either end do not count. -/
def splitSuffix (name : String) : String × String :=
  let cs := name.toList
  let back := cs.reverse.takeWhile (· != '.')
  let head := cs.take (cs.length - back.length - 1)
  if back.length = cs.length || back.isEmpty || head.isEmpty then (name, "")
  else (String.ofList head, "." ++ String.ofList back.reverse)

def stem (p : Path) : String := (splitSuffix p.name).1

def withSuffix (p : Path) (suffix : String) : Path :=
  { p with parts := p.parts.dropLast ++ [p.stem ++ suffix] }

/-- Drops each `..` together with the name before it. -/
def resolve (p : Path) : Path :=
  { root := "/"
    parts := p.parts.foldl (fun done part => if part = ".." then done.dropLast else done ++ [part]) [] }

end Path
end NovelGraph
