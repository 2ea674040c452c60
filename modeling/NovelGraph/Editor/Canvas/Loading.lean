import NovelGraph.Editor.Canvas

/-! Showing a scene: a box for each block, a port for each socket, and the wires between them. -/
namespace NovelGraph.Canvas

/-- The plug of a box for a port, by its name and side. -/
def plugFor? (b : Box) (p : Port) : Option Plug :=
  let isOutput := p.direction == .output
  (b.sockets.find? fun s => p.name.equals (.text s.name) && s.isOutput == isOutput).map fun s =>
    .on b.number s.name s.isOutput

/-- Enters a port of a block into the table of plugs. Ids and names that are lists or objects cannot
be entered. -/
def enterPort (b : Box) (table : Dict Plug) (p : Port) : Option (Dict Plug) :=
  if !p.name.isKey then none
  else
    match plugFor? b p with
    | none => some table
    | some plug => if p.id.isKey then some (table.set p.id plug) else none

/-- Enters the ports of a box's block: first those that the block lists, then the others that are not
yet in the table. -/
def enterBox (s : Scene) (table : Dict Plug) (b : Box) : Option (Dict Plug) :=
  match s.findBlock b.block.id with
  | none => some table
  | some block => do
    let own := s.ports.filter (·.nodeId.equals block.id)
    let table ← (own.filter (·.id.memberOf block.portIds)).foldlM (enterPort b) table
    own.foldlM (fun table p =>
      if !p.id.isKey then none
      else if table.contains p.id then some table
      else enterPort b table p) table

/-- The plugs of all ports, by the ids of the ports. -/
def plugTable? (c : Canvas) (s : Scene) : Option (Dict Plug) :=
  c.boxes.reverse.foldlM (enterBox s) []

/-- Draws the wires of a scene whose ends are known. A wire end that is a list or an object stops the
drawing. -/
def drawWires (table : Dict Plug) : List Connection → Canvas → Canvas
  | [], c => c
  | k :: rest, c =>
    if !k.fromPort.isKey || !k.toPort.isKey then c
    else
      match table.get? k.fromPort, table.get? k.toPort with
      | some p, some q =>
        match c.addWire k.id p (some q) with
        | .ok (d, w) => drawWires table rest ((d.attach p w.number).attach q w.number)
        | .error _ => drawWires table rest c
      | _, _ => drawWires table rest c

/-- Blocks whose text cannot be made get no box. -/
def drawBoxes (blocks : List Block) (c : Canvas) : Canvas :=
  blocks.foldl (fun c b => (c.addBox b).toOption.getD c) c

/-- The sockets of all boxes, the last box first. -/
def allSockets (c : Canvas) (s : Scene) : List (Value × String × Direction) :=
  c.boxes.reverse.flatMap fun b =>
    match s.findBlock b.block.id with
    | none => []
    | some block => b.sockets.map fun k => (block.id, k.name, .ofSide k.isOutput)

/-- Makes the ports that the scene lacks. -/
def completePorts (c : Canvas) (s : Scene) : Canvas :=
  let (t, next) := s.completePorts c.desk.names (c.allSockets s) c.desk.nextId
  { c.putScene t with scene := some t, desk := { c.desk with nextId := next } }

/-- The canvas with nothing on it. -/
def cleared (c : Canvas) : Canvas :=
  { desk := c.desk, textHeight := c.textHeight, nextItem := c.nextItem, order := c.order }

/-- Shows a scene. If the project has a scene with its id, that is the one that is shown. -/
def load (project : Option Project) (scene : Option Scene) (c : Canvas) : Canvas :=
  if c.loading then c
  else
    match scene with
    | none => { c.cleared with project }
    | some s =>
      let s := (project.bind (·.findScene s.id)).getD s
      let c := completePorts (drawBoxes s.blocks { c.cleared with project, scene := some s }) s
      match c.scene with
      | none => c
      | some t =>
        match c.plugTable? t with
        | none => c
        | some table => drawWires table t.connections c

end NovelGraph.Canvas
