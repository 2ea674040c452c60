import NovelGraph.Story.Document
import NovelGraph.Text.Lines

/-! New labels for scenes whose labels are taken. -/
namespace NovelGraph

namespace Relabel

/-- A name as part of a label. -/
def plainName (v : Value) : Except Fault String :=
  match v with
  | .text s => .ok (Text.replaceChar '-' ['_'] (Text.replaceChar ' ' ['_'] s))
  | v => .error (.noPart v.kindName "replace")

/-- The first of `base_n`, `base_(n+1)`, … that is free; no more names are tried than `fuel`. -/
def numbered (taken : List String) (base : String) : Nat → Nat → String
  | 0, n => s!"{base}_{n}"
  | fuel + 1, n =>
    if s!"{base}_{n}" ∈ taken then numbered taken base fuel (n + 1) else s!"{base}_{n}"

/-- A free label: the name itself, or the name with the least free number. -/
def free (taken : List String) (base : String) : String :=
  if base ∈ taken then numbered taken base taken.length 1 else base

/-- The label that a scene keeps or gets, and the labels taken then. A scene gives way to any label
that is taken. -/
def scene (projectName : Value) (hasStart : Bool) (taken : List String) (s : Scene) :
    Except Fault (Scene × List String) := do
  let conflict ←
    if s.label.equals (.text "start") then pure hasStart
    else do
      s.label.requireKey
      pure (match s.label with
        | .text l => decide (l ∈ taken)
        | _ => false)
  if conflict then
    let base := (← plainName projectName) ++ "_" ++ (← plainName s.name)
    let label := free taken base
    pure ({ s with label := .text label }, taken ++ [label])
  else pure (s, taken)

def scenes (projectName : Value) (hasStart : Bool) :
    List String → List Scene → Except Fault (List Scene)
  | _, [] => .ok []
  | taken, s :: rest => do
    let (s, taken) ← scene projectName hasStart taken s
    pure (s :: (← scenes projectName hasStart taken rest))

end Relabel

/-- The project with labels that are free in a game with the given labels. -/
def Project.relabel (p : Project) (taken : List String) : Except Fault Project := do
  pure { p with scenes := ← Relabel.scenes p.name (decide ("start" ∈ taken)) taken p.scenes }

end NovelGraph
