import NovelGraph.Editor.Desk
import NovelGraph.Editor.Node
import NovelGraph.Editor.Wire
import NovelGraph.Story.Sockets
import NovelGraph.Story.Tag

/-! The canvas: a scene drawn as boxes with plugs, and wires between them. -/
namespace NovelGraph

/-- A plug sits on a box, or is loose. -/
inductive Plug where
  | on (box : Nat) (name : String) (isOutput : Bool)
  | loose (number : Nat) (name : String) (isOutput : Bool)
deriving DecidableEq

def Plug.isOutput : Plug → Bool
  | .on _ _ o => o
  | .loose _ _ o => o

/-- A block as it is drawn. -/
structure Box where
  number : Nat
  block : Block
  x : Value
  y : Value
  content : Option Value := none
  selected : Bool := false

/-- Something that lies on the canvas. -/
inductive Item where
  | box (number : Nat)
  | title (box : Nat)
  | plug (p : Plug)
  | wire (number : Nat)
deriving DecidableEq

/-- What becomes of an event. -/
inductive Outcome where
  | accepted
  | ignored
  | proposalAccepted
  | untouched

/-- Boxes and wires are in the order in which they were added. A wire that is being drawn is among
them; `draft` has its number and where it starts, which may be on a box that is gone. -/
structure Canvas where
  desk : Desk
  textHeight : Value.Number := .int 20
  project : Option Project := none
  scene : Option Scene := none
  boxes : List Box := []
  gone : List Box := []
  wires : List (Wire Plug) := []
  attachments : List (Plug × Nat) := []
  order : List Item := []
  draft : Option (Nat × Plug) := none
  nextItem : Nat := 0
  loading : Bool := false

/-- Work on the canvas; what was done before a failure stays done. -/
abbrev CanvasM := EStateM Fault Canvas

namespace Box

def sockets (b : Box) : List Socket := b.block.kind.sockets

def plugs (b : Box) : List Plug := b.sockets.map fun s => .on b.number s.name s.isOutput

def coordinate (v : Value) : Except Fault Value.Number :=
  match v.number? with
  | some n => .ok n
  | none => .error (.wrongKind s!"unsupported coordinate of type '{v.kindName}'")

def place (b : Box) : Except Fault Point := do pure ⟨← coordinate b.x, ← coordinate b.y⟩

end Box

def Direction.ofSide (isOutput : Bool) : Direction := if isOutput then .output else .input

namespace Canvas

def box? (c : Canvas) (number : Nat) : Option Box :=
  (c.boxes ++ c.gone).find? (·.number == number)

def wire? (c : Canvas) (number : Nat) : Option (Wire Plug) := c.wires.find? (·.number == number)

/-- The box on which a plug sits. -/
def boxOf? (c : Canvas) : Plug → Option Box
  | .on n _ _ => c.box? n
  | .loose .. => none

def origin : Point := ⟨.double .zero, .double .zero⟩

/-- Where a plug is. -/
def place (c : Canvas) (p : Plug) : Except Fault Point :=
  match p with
  | .loose .. => .ok origin
  | .on n name isOutput =>
    match c.box? n with
    | none => .ok origin
    | some b =>
      match b.sockets.find? fun s => s.name == name && s.isOutput == isOutput with
      | none => b.place
      | some s => do s.offset.add (← b.place)

/-- The scene that changes go to: the one of the project with the id of the scene that is shown, or
else that scene itself. -/
def model? (c : Canvas) : Option Scene :=
  c.scene.map fun s => (c.project.bind (·.findScene s.id)).getD s

def putBlock (c : Canvas) (b : Block) : Canvas :=
  let refresh (x : Box) : Box := if x.block.tag = b.tag then { x with block := b } else x
  { c with
    project := c.project.map (·.putBlock b)
    scene := c.scene.map (·.putBlock b)
    boxes := c.boxes.map refresh
    gone := c.gone.map refresh }

/-- Shows a new state of a scene wherever the scene is. -/
def putScene (c : Canvas) (s : Scene) : Canvas :=
  let refresh (x : Box) : Box := { x with block := (s.tagged? x.block.tag).getD x.block }
  { c with
    project := c.project.map (·.putScene s)
    scene := c.scene.map fun t => if t.tag = s.tag then s else t
    boxes := c.boxes.map refresh
    gone := c.gone.map refresh }

def attached (c : Canvas) (p : Plug) : List Nat :=
  (c.attachments.filter (·.1 = p)).map (·.2)

def attach (c : Canvas) (p : Plug) (wire : Nat) : Canvas :=
  if (p, wire) ∈ c.attachments then c else { c with attachments := c.attachments ++ [(p, wire)] }

def detach (c : Canvas) (p : Plug) (wire : Nat) : Canvas :=
  { c with attachments := c.attachments.filter (· ≠ (p, wire)) }

def setWire (c : Canvas) (w : Wire Plug) : Canvas :=
  { c with wires := c.wires.map fun v => if v.number = w.number then w else v }

def removeWire (c : Canvas) (number : Nat) : Canvas :=
  { c with wires := c.wires.filter (·.number ≠ number) }

/-- Pulls a wire out of its plugs and takes it away. -/
def dropWire (c : Canvas) (w : Wire Plug) : Canvas :=
  let c := match w.source with
    | some p => c.detach p w.number
    | none => c
  let c := match w.target with
    | some p => c.detach p w.number
    | none => c
  c.removeWire w.number

def setBox (c : Canvas) (b : Box) : Canvas :=
  { c with boxes := c.boxes.map fun x => if x.number = b.number then b else x }

def removeBox (c : Canvas) (number : Nat) : Canvas :=
  { c with
    boxes := c.boxes.filter (·.number ≠ number)
    gone := c.boxes.filter (·.number = number) ++ c.gone }

/-- Draws a box for a block, unless its text cannot be made. -/
def addBox (c : Canvas) (block : Block) : Except Fault Canvas := do
  let content ← Node.content block c.textHeight
  let box : Box := { number := c.nextItem, block, x := block.x, y := block.y, content }
  pure { c with boxes := c.boxes ++ [box], nextItem := c.nextItem + 1 }

/-- Draws a wire that ends at a plug, or is still loose. -/
def addWire (c : Canvas) (id : Value) (source : Plug) (target : Option Plug) :
    Except Fault (Canvas × Wire Plug) := do
  let wire : Wire Plug := { number := c.nextItem, id, source := some source, target }
  let wire ← wire.drawn c.place
  pure ({ c with wires := c.wires ++ [wire], nextItem := c.nextItem + 1 }, wire)

/-- The boxes and wires that are selected, in the order in which they were selected. -/
def selection (c : Canvas) : List Item :=
  c.order.filter fun i => match i with
    | .box n => c.boxes.any fun b => b.number == n && b.selected
    | .wire n => c.wires.any fun w => w.number == n && w.selected
    | _ => false

def clearSelection (c : Canvas) : Canvas :=
  { c with
    boxes := c.boxes.map ({ · with selected := false })
    wires := c.wires.map ({ · with selected := false }) }

def selectBox (c : Canvas) (number : Nat) (on : Bool) : Canvas :=
  { c with boxes := c.boxes.map fun b => if b.number = number then { b with selected := on } else b }

def selectWire (c : Canvas) (number : Nat) (on : Bool) : Canvas :=
  { c with wires := c.wires.map fun w => if w.number = number then w.select on else w }

/-- Selects some boxes and wires, and nothing else. -/
def select (c : Canvas) (items : List Item) : Canvas :=
  { c with
    order := items
    boxes := c.boxes.map fun b => { b with selected := decide (.box b.number ∈ items) }
    wires := c.wires.map fun w => w.select (decide (.wire w.number ∈ items)) }

def atDesk {α : Type} (work : StateM Desk α) : CanvasM α := fun c =>
  let (a, desk) := work c.desk
  .ok a { c with desk }

def ofExcept {α : Type} : Except Fault α → CanvasM α
  | .ok a => pure a
  | .error e => throw e

def send (s : Signal) : CanvasM Unit := atDesk (Desk.send s)

/-- Shows what has become of a wire, also if it could not be drawn to the end. -/
def showWire (drawing : Wire Plug × Option Fault) : CanvasM Unit := do
  modify (·.setWire drawing.1)
  drawing.2.forM throw

/-- The port of a block for a plug, which is made if it is missing. A plug without a block, or a
canvas without a scene, gives an id that belongs to no port. -/
def portId (block : Option Value) (name : String) (isOutput : Bool) : CanvasM Value := do
  let c ← get
  match c.model?, block with
  | some s, some blockId =>
    let side := Direction.ofSide isOutput
    let (id, t, next) := s.ensurePort c.desk.names blockId name side c.desk.nextId
    if next ≠ c.desk.nextId then
      set { c.putScene t with scene := some t, desk := { c.desk with nextId := next } }
    pure id
  | _, _ => atDesk Desk.freshId

/-- A new plug that sits on no box. -/
def loosePlug (name : String) (isOutput : Bool) : CanvasM Plug :=
  modifyGet fun c => (.loose c.nextItem name isOutput, { c with nextItem := c.nextItem + 1 })

/-- The box to which an item belongs. -/
def parentBox? (c : Canvas) : Item → Option Box
  | .box n | .title n => c.box? n
  | .plug p => c.boxOf? p
  | .wire _ => none

end Canvas
end NovelGraph
