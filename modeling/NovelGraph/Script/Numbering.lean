import NovelGraph.Graph.Entry
import NovelGraph.Script.Chain

/-! Numbers for the blocks of a scene, by which they are put in order. -/
namespace NovelGraph

/-- The place of a block in the order of a scene: blocks on one level are told apart by the number
of their branch. -/
structure Rank where
  level : Nat
  branch : Nat
deriving DecidableEq, Repr

def Rank.lt (a b : Rank) : Bool :=
  decide (a.level < b.level) || (a.level == b.level && decide (a.branch < b.branch))

/-- The ranks given so far, in the order in which they were given. -/
abbrev Ranks := Dict Rank

namespace Flow

def isReady (f : Flow) (ranks : Ranks) (id : Value) : Bool :=
  f.inputs.allSeen (ranks.map (·.1)) id

/-- Numbers one branch of a fork, a level a block, up to the next block where branches meet. At a
fork the branches go on side by side. -/
def rankBranch (f : Flow) : Nat → Ranks → Value → Rank → Except Fault Ranks
  | 0, ranks, _, _ => .ok ranks
  | fuel + 1, ranks, id, rank =>
    if !id.isTruthy || ranks.contains id || !f.isReady ranks id then .ok ranks
    else match f.scene.findBlock id with
      | none => .ok ranks
      | some _ =>
        let ranks := ranks.set id rank
        match f.links.next id with
        | [] => .ok ranks
        | [(next, _)] =>
          if 1 < (f.inputs.sources next).length then .ok ranks
          else rankBranch f fuel ranks next { rank with level := rank.level + 1 }
        | fork => do
          let next ← f.scene.sortByPlace fork
          next.zipIdx.foldlM
            (fun ranks t => rankBranch f fuel ranks t.1 ⟨rank.level + 1, t.2⟩)
            ranks

/-- Numbers a block and what follows it: a single successor has the same rank, the branches of a
fork begin on the next level. -/
def rankFrom (f : Flow) : Nat → Ranks → Value → Rank → Except Fault Ranks
  | 0, ranks, _, _ => .ok ranks
  | fuel + 1, ranks, id, rank =>
    if ranks.contains id then .ok ranks
    else match f.scene.findBlock id with
      | none => .ok ranks
      | some _ =>
        if !f.isReady ranks id then .ok ranks
        else
          let ranks := ranks.set id rank
          match f.links.next id with
          | [] => .ok ranks
          | [(next, _)] => rankFrom f fuel ranks next rank
          | fork => do
            let next ← f.scene.sortByPlace fork
            next.zipIdx.foldlM
              (fun ranks t => rankBranch f fuel ranks t.1 ⟨rank.level + 1, t.2⟩)
              ranks

/-- The level after the highest level among the inputs of a block. -/
def levelAfterInputs (f : Flow) (ranks : Ranks) (id : Value) : Nat :=
  (f.inputs.sources id).foldl
    (fun level source =>
      match ranks.get? source with
      | some r => max level r.level
      | none => level)
    0 + 1

/-- Whether a later pass may number a block. -/
def mayRank (f : Flow) (ranks : Ranks) (b : Block) : Bool :=
  !ranks.contains b.id && !b.kind.isDefinition && b.kind != .start && f.isReady ranks b.id

/-- One pass over all blocks that were not reached yet; also tells whether there was one. -/
def rankPass (f : Flow) (blocks : List Block) (ranks : Ranks) : Except Fault (Ranks × Bool) :=
  blocks.foldlM
    (fun (ranks, progress) b =>
      if f.mayRank ranks b then do
        let ranks ← f.rankFrom f.depth ranks b.id ⟨f.levelAfterInputs ranks b.id, 0⟩
        pure (ranks, true)
      else pure (ranks, progress))
    (ranks, false)

/-- Passes until one of them reaches no new block. -/
def rankPasses (f : Flow) : Nat → Ranks → Except Fault Ranks
  | 0, ranks => .ok ranks
  | n + 1, ranks => do
    let (ranks, progress) ← f.rankPass (← Scene.sortBlocks f.scene.blocks) ranks
    if progress then rankPasses f n ranks else pure ranks

/-- The ranks of a scene: first along the wires from its entries, then for blocks where branches
meet. As for chains, the stack is taken to be as deep as the longest path. -/
def ranks (f : Flow) (entries : List Block) : Except Fault Ranks := do
  let first ← entries.foldlM (fun ranks b => f.rankFrom f.depth ranks b.id ⟨0, 0⟩) []
  f.rankPasses (3 * f.scene.blocks.length) first

end Flow
end NovelGraph
