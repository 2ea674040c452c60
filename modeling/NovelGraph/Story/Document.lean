import NovelGraph.Fault
import NovelGraph.Story

/-! Projects as free-form data, the form in which they are kept in files. -/
namespace NovelGraph

namespace Value

/-- A member that may be absent. -/
def fieldOr (v : Value) (key : String) (default : Value) : Except Fault Value := do
  let ms ← v.members "get"
  pure ((lookup ms key).getD default)

/-- Reads the name of one of finitely many choices. -/
def choice {α : Type} (ofName? : String → Option α) (v : Value) : Except Fault α :=
  match v with
  | .text s =>
    match ofName? s with
    | some a => .ok a
    | none => .error (.missing v)
  | v => if v.isKey then .error (.missing v) else .error (.notAKey v)

end Value

namespace Block

def toValue (b : Block) : Value :=
  .object [("id", b.id), ("type", .text b.kind.name), ("params", b.params), ("x", b.x),
    ("y", b.y), ("port_ids", .list b.portIds)]

def ofValue (v : Value) : Except Fault Block := do
  let id ← v.field "id"
  let kind ← Value.choice BlockKind.ofName? (← v.field "type")
  let params ← v.fieldOr "params" (.object [])
  let x ← v.fieldOr "x" (.float .zero)
  let y ← v.fieldOr "y" (.float .zero)
  let portIds ← (← v.fieldOr "port_ids" (.list [])).iterate
  pure { id, kind, params, x, y, portIds }

end Block

namespace Port

def toValue (p : Port) : Value :=
  .object [("id", p.id), ("node_id", p.nodeId), ("name", p.name),
    ("direction", .text p.direction.name), ("metadata", p.metadata)]

def ofValue (v : Value) : Except Fault Port := do
  let id ← v.field "id"
  let nodeId ← v.field "node_id"
  let name ← v.fieldOr "name" (.text "")
  let direction ← Value.choice Direction.ofName? (← v.field "direction")
  let metadata ← v.fieldOr "metadata" (.object [])
  pure { id, nodeId, name, direction, metadata }

end Port

namespace Connection

def toValue (c : Connection) : Value :=
  .object [("id", c.id), ("from_port_id", c.fromPort), ("to_port_id", c.toPort),
    ("metadata", c.metadata)]

def ofValue (v : Value) : Except Fault Connection := do
  let id ← v.field "id"
  let fromPort ← v.field "from_port_id"
  let toPort ← v.field "to_port_id"
  let metadata ← v.fieldOr "metadata" (.object [])
  pure { id, fromPort, toPort, metadata }

end Connection

namespace Scene

def toValue (s : Scene) : Value :=
  .object [("id", s.id), ("name", s.name), ("label", s.label),
    ("blocks", .list (s.blocks.map Block.toValue)),
    ("ports", .list (s.ports.map Port.toValue)),
    ("connections", .list (s.connections.map Connection.toValue))]

/-- Changes the last item that satisfies a test. -/
def updateLast {α : Type} (test : α → Bool) (f : α → α) (items : List α) : List α :=
  (updateFirst test f items.reverse).reverse

/-- Lists every port with the last block that it names. -/
def attachPorts (blocks : List Block) (ports : List Port) : List Block :=
  ports.foldl (fun bs p => updateLast (p.nodeId.same ·.id) (·.addPortId p.id) bs) blocks

def ofValue (v : Value) : Except Fault Scene := do
  let blocks ← (← (← v.fieldOr "blocks" (.list [])).iterate).mapM Block.ofValue
  let ports ← (← (← v.fieldOr "ports" (.list [])).iterate).mapM Port.ofValue
  let connections ← (← (← v.fieldOr "connections" (.list [])).iterate).mapM Connection.ofValue
  blocks.forM (·.id.requireKey)
  ports.forM (·.nodeId.requireKey)
  let id ← v.field "id"
  let name ← v.fieldOr "name" (.text "")
  let label ← v.fieldOr "label" (.text "")
  pure { id, name, label, blocks := attachPorts blocks ports, ports, connections }

end Scene

namespace Project

def toValue (p : Project) : Value :=
  .object [("name", p.name), ("variables", p.globals),
    ("scenes", .list (p.scenes.map Scene.toValue))]

def ofValue (v : Value) : Except Fault Project := do
  let scenes ← (← (← v.fieldOr "scenes" (.list [])).iterate).mapM Scene.ofValue
  let name ← v.fieldOr "name" (.text "Unnamed")
  let globals ← v.fieldOr "variables" (.object [])
  pure { name, scenes, globals }

/-- Equality of projects by content. -/
def same (p q : Project) : Bool :=
  p.toValue.same q.toValue && p.characters.same q.characters && p.images.same q.images &&
    p.styles.same q.styles

end Project
end NovelGraph
