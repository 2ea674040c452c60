import NovelGraph.Graph.Links

/-! Where a scene begins. -/
namespace NovelGraph.Scene

/-- The blocks that a scene begins with: the start blocks if there are any; else those without
inputs; else those behind pictures and characters. Definitions of pictures and characters never
begin a scene. -/
def entryBlocks (s : Scene) (l : Links) : Except Fault (List Block) :=
  let starts := s.blocks.filter (·.kind == .start)
  if !starts.isEmpty then sortBlocks starts
  else
    let ordinary := s.blocks.filter fun b => !b.kind.isResource
    if l.isEmpty then sortBlocks ordinary
    else
      let free := ordinary.filter fun b => !b.id.memberOf l.targets
      if !free.isEmpty then sortBlocks free
      else
        let resources := s.blocks.filter (·.kind.isResource)
        let behind := resources.flatMap fun b => l.nextIds b.id
        sortBlocks (ordinary.filter fun b => b.id.memberOf behind)

end NovelGraph.Scene
