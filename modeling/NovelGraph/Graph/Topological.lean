import NovelGraph.Graph.Links

/-! Topological order of a scene, by place where the wires leave a choice. -/
namespace NovelGraph.Scene

/-- What is still to be listed: blocks whose inputs are all listed, and the open inputs of each. -/
structure Pending where
  ready : List Value
  open_ : Dict Int

/-- The place of the last block with an id. -/
def lastPositionOf (blocks : Dict Block) (id : Value) : Value × Value :=
  match blocks.get? id with
  | some b => b.position
  | none => (.int 0, .int 0)

def sortIds (blocks : Dict Block) (ids : List Value) : Except Fault (List Value) :=
  Order.sortOn (lastPositionOf blocks) Order.pairLess ids

/-- One wire into a block is done with. -/
def settle (blocks : Dict Block) (p : Pending) (id : Value) : Except Fault Pending := do
  match p.open_.get? id with
  | none => pure p
  | some n =>
    let open_ := p.open_.set id (n - 1)
    if n - 1 = 0 then pure { ready := ← sortIds blocks (p.ready ++ [id]), open_ }
    else pure { p with open_ }

/-- Lists ready blocks, the first of them first, until none is left. -/
def drain (blocks : Dict Block) (l : Links) : Nat → Pending → Except Fault (List Value)
  | 0, _ => .ok []
  | fuel + 1, p =>
    match p.ready with
    | [] => .ok []
    | id :: ready => do
      let next ← Order.sortOn (fun t => lastPositionOf blocks t.1) Order.pairLess (l.next id)
      let p ← (next.map (·.1)).foldlM (settle blocks) { p with ready }
      pure (id :: (← drain blocks l fuel p))

/-- The blocks other than pictures and characters in an order in which every block follows its
inputs; blocks on a cycle or behind one are left out. -/
def topological (s : Scene) (l : Links) (inputs : Inputs) : Except Fault (List Value) := do
  let blocks := s.blockTable
  let ids := (s.blocks.filter fun b => !b.kind.isResource).map (·.id)
  let open_ : Dict Int := ids.foldl (fun d id => d.set id (inputs.sources id).length) []
  let ready ← sortIds blocks (ids.filter fun id => (inputs.sources id).isEmpty)
  drain blocks l (2 * ids.length + 1) { ready, open_ }

end NovelGraph.Scene
