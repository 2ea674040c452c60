import NovelGraph.Script.Numbering

/-! The text of a scene, block by block. -/
namespace NovelGraph

/-- A block and what it writes into the script. -/
structure Chunk where
  block : Block
  text : String

namespace Flow

open Script

/-- What a block writes where its rank puts it. Start blocks are not indented; control blocks bring
their suites, unless one of their inputs is missing from `seen`. -/
def rankedChunk (f : Flow) (seen : List Value) (b : Block) : Except Fault (Chunk × List Value) := do
  match b.kind with
  | .start => pure (⟨b, ← b.render "" f.around⟩, seen)
  | .ifElse | .whileLoop | .forLoop =>
    let (text, seen) ← f.chain seen indentation true b.id
    pure (⟨b, text⟩, seen)
  | _ => pure (⟨b, ← b.render indentation f.around⟩, seen)

/-- The chunks of the ranked blocks in the given order, and the ids seen after them. -/
def rankedChunks (f : Flow) : List Value → List Value → Except Fault (List Chunk × List Value)
  | [], seen => .ok ([], seen)
  | id :: rest, seen =>
    if id.memberOf seen then rankedChunks f rest seen
    else match f.scene.findBlock id with
      | none => rankedChunks f rest seen
      | some b =>
        if b.kind.isDefinition then rankedChunks f rest seen
        else do
          let (chunk, seen) ← f.rankedChunk seen b
          let seen := if id.memberOf seen then seen else seen ++ [id]
          let (chunks, seen) ← rankedChunks f rest seen
          pure (chunk :: chunks, seen)

/-- The chunk of a block that no wire led to. -/
def looseChunk (f : Flow) (b : Block) : Except Fault Chunk := do
  pure ⟨b, ← b.render (if b.kind = .start then "" else indentation) f.around⟩

/-- All chunks of a scene with entries: ranked blocks first, the rest in the order of the scene. -/
def entryChunks (f : Flow) (entries : List Block) : Except Fault (List Chunk) := do
  let ranks ← f.ranks entries
  let order := (Order.sortByKey (·.2) Rank.lt ranks).map (·.1)
  let (ranked, seen) ← f.rankedChunks order []
  let loose ← (f.scene.blocks.filter fun b => !b.id.memberOf seen && !b.kind.isDefinition).mapM
    f.looseChunk
  pure (ranked ++ loose)

/-- The chunks of a scene without entries, from top to bottom. -/
def placedChunks (f : Flow) : Except Fault (List Chunk) := do
  let blocks ← Scene.sortBlocks f.scene.blocks
  (blocks.filter (!·.kind.isDefinition)).mapM fun b => do
    pure ⟨b, ← b.render indentation f.around⟩

end Flow

namespace Scene

def flow (s : Scene) (around : Script.Surroundings) : Except Fault Flow := do
  let links ← s.links
  pure { scene := s, links, inputs := links.reverse, around }

/-- Whether one of the blocks carries a label; blocks behind the first that does are not read. -/
def anyLabelled : List Block → Except Fault Bool
  | [] => .ok false
  | b :: rest => do
    if (← b.startLabel).isEmpty then anyLabelled rest else pure true

/-- The chunks of a scene with blocks, in the order in which they are written. -/
def chunks (s : Scene) (around : Script.Surroundings) : Except Fault (List Chunk) := do
  let f ← s.flow around
  let entries ← s.entryBlocks f.links
  discard (anyLabelled entries)
  if entries.isEmpty then f.placedChunks else f.entryChunks entries

/-- The text of a scene. An unknown set of labels counts as the empty one. -/
def script (s : Scene) (cast : Option Script.Cast) (labels : List String) : Except Fault String := do
  if s.blocks.isEmpty then pure "pass\n\n"
  else
    let chunks ← s.chunks { cast, labels := some labels }
    pure (Text.concat (chunks.map (·.text)) ++ "\n")

/-- The labels that a scene opens, in the order in which they are written. -/
def writtenLabels (chunks : List Chunk) : Except Fault (List String) := do
  let labels ← (chunks.filter (·.block.kind == .start)).mapM (·.block.startLabel)
  pure (labels.filter (!·.isEmpty))

end Scene
end NovelGraph
