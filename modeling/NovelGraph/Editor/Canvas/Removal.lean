import NovelGraph.Editor.Canvas
import NovelGraph.Story.Edit

/-! Removing blocks and wires from the canvas and from the scene. -/
namespace NovelGraph.Canvas

/-- Removes a wire with its connection. A wire that stands for no connection stays. -/
def deleteWire (number : Nat) : CanvasM Unit := do
  let c ← get
  match c.model?, c.wire? number with
  | some s, some w =>
    if w.id.isTruthy then
      let t := s.removeConnection w.id
      set { c.putScene t with scene := some t }
      send .projectModified
      modify (·.dropWire w)
  | _, _ => pure ()

/-- Removes a wire that hangs on a box, together with its connection. -/
def cutWire (c : Canvas) (number : Nat) : Canvas :=
  match c.wire? number with
  | none => c
  | some w =>
    let c := match c.model? with
      | some s => if w.id.isTruthy then c.putScene (s.removeConnection w.id) else c
      | none => c
    c.dropWire w

def deleteBox (number : Nat) : CanvasM Unit := do
  let c ← get
  match c.box? number with
  | none => pure ()
  | some b =>
    set (b.plugs.foldl (fun c p => (c.attached p).foldl cutWire c) c)
    let c ← get
    match c.model? with
    | none => pure ()
    | some s =>
      let (t, e) := s.tryRemoveBlock b.block.id
      set (c.putScene t)
      match e with
      | some e => throw e
      | none =>
        send .projectModified
        modify (·.removeBox number)

def selectedBoxes (c : Canvas) : List Box :=
  c.selection.filterMap fun i => match i with
    | .box n => c.box? n
    | _ => none

def selectedWires (c : Canvas) : List Nat :=
  c.selection.filterMap fun i => match i with
    | .wire n => some n
    | _ => none

def removalQuestion (boxes : List Box) : String :=
  match boxes with
  | [b] => s!"Вы уверены, что хотите удалить блок '{b.block.kind.name}'?"
  | _ => s!"Вы уверены, что хотите удалить {boxes.length} блоков?"

/-- Removes blocks, if that is confirmed. -/
def deleteBoxes (boxes : List Box) : CanvasM Unit := do
  if boxes.isEmpty || (← get).scene.isNone then pure ()
  else if ← atDesk (Desk.confirm (.text "Удаление блоков") (.text (removalQuestion boxes)) false) then
    boxes.forM fun b => deleteBox b.number

def deleteSelectedBoxes : CanvasM Unit := do deleteBoxes (← get).selectedBoxes

/-- Removes the selected wires, and then the selected blocks. -/
def deleteSelection : CanvasM Unit := do
  let c ← get
  if c.scene.isSome then
    c.selectedWires.forM deleteWire
    deleteBoxes c.selectedBoxes

end NovelGraph.Canvas
