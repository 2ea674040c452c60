import NovelGraph.Graph.Distance
import NovelGraph.Order
import NovelGraph.Value.Dict

/-! The block graph of a scene: who follows whom, near ones first. -/
namespace NovelGraph

/-- For each block with successors, their ids and distances. -/
abbrev Links := Dict (List (Value × Double))

/-- For each block with predecessors, their ids, each once. -/
abbrev Inputs := Dict (List Value)

namespace Links

def next (l : Links) (id : Value) : List (Value × Double) := (l.get? id).getD []

def nextIds (l : Links) (id : Value) : List Value := (l.next id).map (·.1)

/-- All ids that something leads to, with repetitions. -/
def targets (l : Links) : List Value := l.flatMap fun e => e.2.map (·.1)

/-- The same graph, read backwards. -/
def reverse (l : Links) : Inputs :=
  l.foldl
    (fun inputs e =>
      e.2.foldl
        (fun inputs t =>
          inputs.update t.1 [] fun sources => if e.1.memberOf sources then sources else sources ++ [e.1])
        inputs)
    []

def sortByDistance (targets : List (Value × Double)) : List (Value × Double) :=
  Order.sortByKey (·.2) (fun a b => (Magnitude.ofDouble a).lt (.ofDouble b)) targets

end Links

namespace Inputs

def sources (i : Inputs) (id : Value) : List Value := (i.get? id).getD []

/-- Whether everything that leads to a block is in `seen`. -/
def allSeen (i : Inputs) (seen : List Value) (id : Value) : Bool :=
  (i.sources id).all (·.memberOf seen)

end Inputs

namespace Scene

/-- The blocks by id; of two blocks with one id the later counts. -/
def blockTable (s : Scene) : Dict Block := Dict.ofItems (·.id) s.blocks

/-- The block that each port belongs to; of two ports with one id the later counts. -/
def portOwners (s : Scene) : Dict Value := s.ports.foldl (fun d p => d.set p.id p.nodeId) []

/-- The blocks at the two ends of a wire. A wire counts if both ends name ports, and these name
blocks by ids that are present. -/
def wireEnds? (owners : Dict Value) (blocks : Dict Block) (c : Connection) :
    Except Fault (Option ((Value × Block) × (Value × Block))) := do
  c.fromPort.requireKey
  c.toPort.requireKey
  match owners.get? c.fromPort, owners.get? c.toPort with
  | some a, some b =>
    if a.isTruthy && b.isTruthy then
      a.requireKey
      b.requireKey
      match blocks.get? a, blocks.get? b with
      | some p, some q => pure (some ((a, p), (b, q)))
      | _, _ => pure none
    else pure none
  | _, _ => pure none

/-- One more wire in the graph. -/
def addWire (owners : Dict Value) (blocks : Dict Block) (l : Links) (c : Connection) :
    Except Fault Links := do
  match ← wireEnds? owners blocks c with
  | none => pure l
  | some ((a, p), (b, q)) =>
    let d ← p.distance q
    pure (l.update a [] (· ++ [(b, d)]))

/-- The graph of a scene, the successors of each block by distance. -/
def links (s : Scene) : Except Fault Links := do
  s.ports.forM (·.id.requireKey)
  s.blocks.forM (·.id.requireKey)
  let l ← s.connections.foldlM (addWire s.portOwners s.blockTable) []
  pure (l.map fun e => (e.1, Links.sortByDistance e.2))

/-- The place of the first block with an id; unknown ids lie at the origin. -/
def positionOf (s : Scene) (id : Value) : Value × Value :=
  match s.findBlock id with
  | some b => b.position
  | none => (.int 0, .int 0)

/-- Successors from top to bottom, and from left to right. -/
def sortByPlace (s : Scene) (targets : List (Value × Double)) : Except Fault (List Value) := do
  let sorted ← Order.sortOn (fun t => s.positionOf t.1) Order.pairLess targets
  pure (sorted.map (·.1))

/-- Blocks from top to bottom, and from left to right. -/
def sortBlocks (blocks : List Block) : Except Fault (List Block) :=
  Order.sortOn Block.position Order.pairLess blocks

end Scene
end NovelGraph
