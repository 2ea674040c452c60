import NovelGraph.Story

/-! Tags tell apart the projects, scenes and blocks that are being edited, whatever their ids are.
Whoever shows one of them puts its newest state in the place of the one with the same tag. -/
namespace NovelGraph

namespace Scene

/-- Gives a scene and its blocks the next free tags. -/
def retag (next : Nat) (s : Scene) : Scene × Nat :=
  ({ s with
      tag := next
      blocks := s.blocks.mapIdx fun k b => { b with tag := next + 1 + k } },
    next + 1 + s.blocks.length)

def putBlock (s : Scene) (b : Block) : Scene :=
  { s with blocks := s.blocks.map fun c => if c.tag = b.tag then b else c }

def tagged? (s : Scene) (tag : Nat) : Option Block := s.blocks.find? (·.tag = tag)

end Scene

namespace Project

def retagScenes : Nat → List Scene → List Scene × Nat
  | next, [] => ([], next)
  | next, s :: rest =>
    let (s, next) := s.retag next
    let (others, next) := retagScenes next rest
    (s :: others, next)

/-- Gives a project and all that is in it the next free tags. -/
def retag (next : Nat) (p : Project) : Project × Nat :=
  let (scenes, after) := retagScenes (next + 1) p.scenes
  ({ p with scenes, tag := next }, after)

def putBlock (p : Project) (b : Block) : Project :=
  { p with scenes := p.scenes.map (·.putBlock b) }

def putScene (p : Project) (s : Scene) : Project :=
  { p with scenes := p.scenes.map fun t => if t.tag = s.tag then s else t }

end Project
end NovelGraph
