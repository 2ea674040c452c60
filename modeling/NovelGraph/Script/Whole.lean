import NovelGraph.Script.Definitions
import NovelGraph.Script.SceneText

/-! The script of a whole project. -/
namespace NovelGraph.Project

open Script

/-- The names in character blocks, in order, each once. -/
def characterBlockNames (p : Project) : Except Fault (List String) := do
  let all ← p.paramsOf .character
  pure ((all.map (param · "name")).filter (!·.isEmpty)).eraseDups

/-- Characters that nothing defines: they are defined by their names. -/
def undefinedCharacters (p : Project) (names fromBlocks : List String) :
    Except Fault (List String) :=
  names.filterM fun name => do
    pure (!(← p.namesCharacter name) && !fromBlocks.contains name)

/-- The variable of every character. -/
def cast (undefinedNames projectNames blockNames : List String) : Cast :=
  (undefinedNames ++ projectNames ++ blockNames).eraseDups.map fun n => (n, normalize n)

/-- The definitions of characters that only occur in the flow of the story. -/
def detectedSection (names : List String) : List String :=
  if names.isEmpty then []
  else
    ["# Characters (auto-detected)\n"] ++
      names.map (fun n => characterLine "" (normalize n) (some n)) ++ ["\n"]

/-- The label of a start or label block. -/
def labelOf? (b : Block) : Except Fault (Option String) := do
  match b.kind with
  | .start => pure (nonEmpty? (← b.startLabel))
  | .label => pure (nonEmpty? (param (← b.paramList) "label"))
  | _ => pure none

/-- Every label that the script may define. -/
def labels (p : Project) : Except Fault (List String) := do
  pure ((← p.blocks.mapM labelOf?).filterMap id)

/-- The first label of a start block. -/
def firstStart? (p : Project) : Except Fault (Option String) :=
  (p.blocksOf .start).foldlM
    (fun found b => do
      match found with
      | some _ => pure found
      | none => pure (nonEmpty? (← b.startLabel)))
    none

/-- The text of a project: definitions, the entry of the game, and the scenes in order. -/
def script (p : Project) : Except Fault String := do
  let definitions ← p.definitions
  let names ← p.characterNames
  let blockNames ← p.characterBlockNames
  let undefinedNames ← p.undefinedCharacters names blockNames
  let projectNames := (← p.characters.members "keys").map (·.1)
  let narrator :=
    if names.isEmpty && !p.characters.isTruthy && blockNames.isEmpty then
      ["define narrator = Character('Narrator')\n\n"]
    else []
  let labels ← p.labels
  let first ← p.firstStart?
  let entry := match first with
    | some label => "    jump " ++ label ++ "\n"
    | none => "    return\n"
  let scenes ← p.scenes.mapM (·.script (some (cast undefinedNames projectNames blockNames)) labels)
  pure (Text.concat
    (["# Generated by RenPy Node Editor\n",
      "# This file is auto-generated. Do not edit manually.\n\n", definitions] ++
      detectedSection undefinedNames ++ narrator ++
      ["\n# Игра начинается здесь:\n", "label start:\n", entry] ++ scenes))

end NovelGraph.Project
