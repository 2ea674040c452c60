import NovelGraph.Fault
import NovelGraph.Story

/-! Removal of blocks, with the state in which a refused removal leaves the scene. -/
namespace NovelGraph.Scene

/-- The first wire end that cannot be looked up among the removed ports. -/
def unfitEnd? (removed : List Value) : List Connection → Option Value
  | [] => none
  | c :: rest =>
    if !c.fromPort.isKey then some c.fromPort
    else if !c.fromPort.memberOf removed && !c.toPort.isKey then some c.toPort
    else unfitEnd? removed rest

/-- Removes a block. Port ids that are lists or objects stop the removal half way: after the blocks,
or after the ports. -/
def tryRemoveBlock (s : Scene) (id : Value) : Scene × Option Fault :=
  let owned := s.portsOf id
  let done := s.removeBlock id
  match owned.find? (!·.id.isKey) with
  | some p => ({ s with blocks := done.blocks }, some (.notAKey p.id))
  | none =>
    match unfitEnd? (owned.map (·.id)) s.connections with
    | some v => ({ done with connections := s.connections }, some (.notAKey v))
    | none => (done, none)

end NovelGraph.Scene
