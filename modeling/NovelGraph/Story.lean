import NovelGraph.Story.Kind
import NovelGraph.Value.Dict

/-! Stories as graphs: projects of scenes, scenes of blocks that are wired through ports. -/
namespace NovelGraph

/-- A place on a block where wires end. -/
structure Port where
  id : Value
  nodeId : Value
  name : Value
  direction : Direction
  metadata : Value := .object []
deriving DecidableEq, Repr, Inhabited

/-- A wire from one port to another. -/
structure Connection where
  id : Value
  fromPort : Value
  toPort : Value
  metadata : Value := .object []
deriving DecidableEq, Repr, Inhabited

/-- One step of a story. The tag tells blocks apart while they are being edited; it is not part of
the project. -/
structure Block where
  id : Value
  kind : BlockKind
  params : Value := .object []
  x : Value := .float .zero
  y : Value := .float .zero
  portIds : List Value := []
  tag : Nat := 0
deriving DecidableEq, Repr, Inhabited

/-- A graph of blocks. The tag is used as that of a block is. -/
structure Scene where
  id : Value
  name : Value
  label : Value
  blocks : List Block := []
  ports : List Port := []
  connections : List Connection := []
  tag : Nat := 0
deriving DecidableEq, Repr, Inhabited

/-- A whole story, with what is defined for all of its scenes. The tag is used as that of a block
is. -/
structure Project where
  name : Value
  scenes : List Scene := []
  globals : Value := .object []
  characters : Value := .object []
  images : Value := .object []
  styles : Value := .object []
  tag : Nat := 0
deriving DecidableEq, Repr, Inhabited

namespace Block

def position (b : Block) : Value × Value := (b.y, b.x)

/-- Lists a port with the block, once. -/
def addPortId (b : Block) (portId : Value) : Block :=
  if portId.memberOf b.portIds then b else { b with portIds := b.portIds ++ [portId] }

end Block

/-- Changes the first item that satisfies a test. -/
def updateFirst {α : Type} (test : α → Bool) (f : α → α) : List α → List α
  | [] => []
  | a :: rest => if test a then f a :: rest else a :: updateFirst test f rest

namespace Scene

def findBlock (s : Scene) (id : Value) : Option Block := s.blocks.find? (·.id.equals id)

def findPort (s : Scene) (id : Value) : Option Port := s.ports.find? (·.id.equals id)

def addBlock (s : Scene) (b : Block) : Scene := { s with blocks := s.blocks ++ [b] }

/-- Adds a port and lists it with the first block that it names. -/
def addPort (s : Scene) (p : Port) : Scene :=
  { s with
    ports := s.ports ++ [p]
    blocks := updateFirst (·.id.equals p.nodeId) (·.addPortId p.id) s.blocks }

def addConnection (s : Scene) (c : Connection) : Scene :=
  { s with connections := s.connections ++ [c] }

def removeConnection (s : Scene) (id : Value) : Scene :=
  { s with connections := s.connections.filter fun c => !c.id.equals id }

/-- The ports of a block. -/
def portsOf (s : Scene) (blockId : Value) : List Port := s.ports.filter (·.nodeId.equals blockId)

/-- Removes the blocks with an id, their ports, and the wires that end there. -/
def removeBlock (s : Scene) (id : Value) : Scene :=
  let removed := (s.portsOf id).map (·.id)
  { s with
    blocks := s.blocks.filter fun b => !b.id.equals id
    ports := s.ports.filter fun p => !p.nodeId.equals id
    connections := s.connections.filter fun c =>
      !c.fromPort.memberOf removed && !c.toPort.memberOf removed }

end Scene

namespace Project

def findScene (p : Project) (id : Value) : Option Scene := p.scenes.find? (·.id.equals id)

def addScene (p : Project) (s : Scene) : Project := { p with scenes := p.scenes ++ [s] }

def removeScene (p : Project) (id : Value) : Project :=
  { p with scenes := p.scenes.filter fun s => !s.id.equals id }

end Project

/-- Exchanges the first item that satisfies a test with the one before it, if there is one. -/
def swapUp {α : Type} (test : α → Bool) : List α → Option (List α)
  | [] => none
  | a :: rest => if test a then none else go a rest
where
  go (before : α) : List α → Option (List α)
    | [] => none
    | a :: rest => if test a then some (a :: before :: rest) else (go a rest).map (before :: ·)

/-- Exchanges the first item that satisfies a test with the one after it, if there is one. -/
def swapDown {α : Type} (test : α → Bool) : List α → Option (List α)
  | [] => none
  | a :: rest =>
    if test a then
      match rest with
      | [] => none
      | b :: others => some (b :: a :: others)
    else (swapDown test rest).map (a :: ·)

namespace Project

/-- The project with a scene one place earlier, unless it is the first or missing. -/
def moveSceneUp? (p : Project) (id : Value) : Option Project :=
  (swapUp (fun s : Scene => s.id.equals id) p.scenes).map ({ p with scenes := · })

/-- The project with a scene one place later, unless it is the last or missing. -/
def moveSceneDown? (p : Project) (id : Value) : Option Project :=
  (swapDown (fun s : Scene => s.id.equals id) p.scenes).map ({ p with scenes := · })

end Project
end NovelGraph
