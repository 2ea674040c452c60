import NovelGraph.Story

/-! Ports for the sockets of blocks: each socket has one port, made when it is first needed. -/
namespace NovelGraph.Scene

/-- The port of a block with a name on one of its sides. -/
def portFor? (s : Scene) (blockId : Value) (name : String) (side : Direction) : Option Port :=
  s.ports.find? fun p => p.nodeId.equals blockId && p.name.equals (.text name) && p.direction == side

/-- The id of the port for a socket. If there is none, the next of a supply of names becomes the id
of a new one. -/
def ensurePort (names : Nat → String) (blockId : Value) (name : String) (side : Direction)
    (s : Scene) (next : Nat) : Value × Scene × Nat :=
  match s.portFor? blockId name side with
  | some p => (p.id, s, next)
  | none =>
    let id := Value.text (names next)
    (id, s.addPort { id, nodeId := blockId, name := .text name, direction := side }, next + 1)

/-- Sees to it that every one of a list of sockets has a port. -/
def completePorts (names : Nat → String) :
    List (Value × String × Direction) → Scene → Nat → Scene × Nat
  | [], s, next => (s, next)
  | (blockId, name, side) :: rest, s, next =>
    let (_, s, next) := s.ensurePort names blockId name side next
    completePorts names rest s next

end NovelGraph.Scene
