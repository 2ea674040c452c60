import NovelGraph.Order
import NovelGraph.Script.Definitions

/-! What a project offers to choose from in the fields of the form. -/
namespace NovelGraph.Project

open Script

/-- A label that can be offered: one that is not empty, and can be told from others. -/
def offer? (label : Value) : Except Fault (Option Value) := do
  if label.isTruthy then
    label.requireKey
    pure (some label)
  else pure none

/-- The labels that jumps can be made to: those of scenes and of starts, sorted. -/
def offeredLabels (p : Project) : Except Fault (List Value) := do
  let ofScenes ← p.scenes.filterMapM fun s => offer? s.label
  let ofStarts ← (p.blocksOf .start).filterMapM fun b => do
    offer? ((Value.lookup (← b.paramList) "label").getD (.text ""))
  Order.sortValues ((ofScenes ++ ofStarts).foldl
    (fun seen v => if v.memberOf seen then seen else seen ++ [v]) [])

/-- The pictures of image blocks, and then those of the project that are not among them. -/
def offeredImages (p : Project) : Except Fault (List (String × Value)) := do
  let ofBlocks := (← p.imageBlocks).map fun m => (m.1, Value.text m.2)
  let ofProject ← if p.images.isTruthy then p.images.members "items" else pure []
  pure (ofBlocks ++ ofProject.filter fun m => !ofBlocks.any (·.1 == m.1))

def imageNames (p : Project) : Except Fault (List String) := do
  pure (Order.sortTexts ((← p.offeredImages).map (·.1)))

/-- The characters of the project and of character blocks, sorted. -/
def offeredCharacters (p : Project) : Except Fault (List String) := do
  let ofProject ← p.characters.members "keys"
  let ofBlocks := (← p.paramsOf .character).map (param · "name")
  pure (Order.sortTexts (ofProject.map (·.1) ++ ofBlocks.filter (!·.isEmpty)).eraseDups)

/-- The parameter in which a kind of block keeps its audio file. -/
def audioKey? : BlockKind → Option String
  | .sound | .queueSound => some "sound_file"
  | .music | .queueMusic => some "music_file"
  | .voice => some "voice_file"
  | _ => none

/-- The audio files that blocks play, sorted. -/
def offeredAudio (p : Project) : Except Fault (List String) := do
  let files ← p.blocks.filterMapM fun b => do
    match audioKey? b.kind with
    | none => pure none
    | some key => do pure (some (param (← b.paramList) key))
  pure (Order.sortTexts (files.filter (!·.isEmpty)).eraseDups)

end NovelGraph.Project
