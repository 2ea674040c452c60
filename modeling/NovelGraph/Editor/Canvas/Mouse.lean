import NovelGraph.Editor.Canvas.Removal

/-! The canvas under the mouse: blocks are dropped and moved, wires are drawn, items are selected. -/
namespace NovelGraph.Canvas

/-- Blocks are dragged from the palette as data of this type. -/
def dragFormat : String := "application/x-renpy-node-type"

def dragOver (format : String) : Outcome :=
  if format == dragFormat then .proposalAccepted else .ignored

/-- A new block of the kind that is dropped. -/
def dropBlock (format data : String) (x y : Value) : CanvasM Outcome := do
  let c ← get
  match c.scene, BlockKind.ofName? data with
  | some s, some kind =>
    if format ≠ dragFormat || data.isEmpty then pure .ignored
    else
      let id ← atDesk Desk.freshId
      let tag ← atDesk Desk.freshTag
      let block : Block := { id, kind, x, y, tag }
      modify (·.putScene (s.addBlock block))
      set (← ofExcept ((← get).addBox block))
      send .projectModified
      pure .proposalAccepted
  | _, _ => pure .ignored

def passOn : CanvasM Outcome := do
  atDesk (Desk.note .passedOn)
  pure .untouched

/-- Presses the left button on what lies at a point. An output starts a wire, or if that cannot be
drawn takes over the one that is being drawn; otherwise the first wire is selected, beside what is
selected already if the control key is held. -/
def press (items : List Item) (at_ : Point) (left control : Bool) : CanvasM Outcome := do
  let plug := items.findSome? fun i => match i with
    | .plug p => some p
    | _ => none
  let wire := items.findSome? fun i => match i with
    | .wire n => some n
    | _ => none
  match left, plug.filter (·.isOutput), wire with
  | true, some p, _ =>
    let c ← get
    match c.addWire .null p none with
    | .error f =>
      modify fun c => { c with draft := c.draft.map fun (n, _) => (n, p) }
      throw f
    | .ok (c, w) =>
      set { c with draft := some (w.number, p) }
      showWire (w.endAt c.place at_)
      pure .accepted
  | true, none, some n =>
    let c ← get
    if !(c.wires.any fun w => w.number == n && w.selected) then
      let c := if control then c else c.clearSelection
      set (c.selectWire n true)
    pure .accepted
  | _, _, _ => passOn

/-- Moves the loose end of the wire that is being drawn. -/
def move (at_ : Point) : CanvasM Outcome := do
  let c ← get
  match c.draft.bind fun d => c.wire? d.1 with
  | some w =>
    showWire (w.endAt c.place at_)
    pure .accepted
  | none => passOn

/-- The block and the name of a plug. -/
def plugName (c : Canvas) : Plug → Option Value × String
  | .on n name _ => ((c.box? n).map (·.block.id), name)
  | .loose _ name _ => (none, name)

/-- Plugs the wire that is being drawn into an input. -/
def plugDraft (number : Nat) (source target : Plug) : CanvasM Unit := do
  let c ← get
  match c.wire? number with
  | none => pure ()
  | some w =>
    showWire (w.plugInto c.place target)
    modify fun c => (c.attach source number).attach target number

/-- Adds the connection for the wire that is being drawn; false if it cannot be made. -/
def connectDraft (number : Nat) (source target : Plug) : CanvasM Bool := do
  let c ← get
  let (sourceBlock, sourceName) := c.plugName source
  let (targetBlock, targetName) := c.plugName target
  if sourceBlock.isNone || targetBlock.isNone then return false
  let fromPort ← portId sourceBlock sourceName source.isOutput
  let toPort ← portId targetBlock targetName target.isOutput
  if !fromPort.isTruthy || !toPort.isTruthy then return false
  let id ← atDesk Desk.freshId
  let c ← get
  match c.model? with
  | none => return false
  | some s =>
    let t := s.addConnection { id, fromPort, toPort }
    let named (w : Wire Plug) : Wire Plug := if w.number = number then { w with id } else w
    set { c.putScene t with scene := some t, wires := c.wires.map named }
    send .projectModified
    return true

/-- Ends the drawing of a wire: on an input it is plugged in, and in a project it becomes a
connection. -/
def release (items : List Item) : CanvasM Outcome := do
  let c ← get
  match c.draft with
  | none => passOn
  | some (number, source) =>
    let input := match items.head? with
      | some (.plug p) => if p.isOutput then none else some p
      | _ => none
    match input with
    | none => modify (·.removeWire number)
    | some target =>
      let connected ←
        if c.scene.isSome && c.project.isSome then connectDraft number source target else pure true
      if connected then plugDraft number source target else modify (·.removeWire number)
    modify ({ · with draft := none })
    pure .accepted

/-- Tells which block is selected. -/
def announceSelection : CanvasM Unit := do
  let c ← get
  if !c.loading then
    let block := match c.scene, c.selection with
      | some s, .box n :: _ =>
        (c.box? n).bind fun b => if (s.findBlock b.block.id).isSome then some b.block else none
      | _, _ => none
    send (.selectionChanged block)

/-- What a menu on an item can do. -/
inductive MenuAction where
  | deleteBlocks
  | deleteWire (number : Nat)

/-- Opens the menu for what lies at a point. -/
def openMenu (items : List Item) : CanvasM (Option MenuAction) := do
  let c ← get
  match items.head? with
  | none => pure none
  | some (.wire n) =>
    atDesk (Desk.note (.menu "🗑️ Удалить связь"))
    pure (some (.deleteWire n))
  | some item =>
    match c.parentBox? item with
    | none => pure none
    | some b =>
      if !b.selected then set (c.clearSelection.selectBox b.number true)
      atDesk (Desk.note (.menu "🗑️ Удалить блок"))
      pure (some .deleteBlocks)

/-- All that is selected, in the order in which it was added. -/
def chosen (c : Canvas) : List Item :=
  (c.boxes.filter (·.selected)).map (.box ·.number) ++
    (c.wires.filter (·.selected)).map (.wire ·.number)

def MenuAction.perform : MenuAction → CanvasM Unit
  | .deleteBlocks => do
    modify fun c => { c with order := c.chosen }
    deleteSelectedBoxes
  | .deleteWire n => Canvas.deleteWire n

/-- Draws some wires anew, up to the first that cannot be drawn; tells whether there is one. -/
def redrawWires : List Nat → Canvas → Canvas × Bool
  | [], c => (c, false)
  | n :: rest, c =>
    match c.wire? n with
    | none => redrawWires rest c
    | some w =>
      match w.redraw c.place with
      | (w, none) => redrawWires rest (c.setWire w)
      | (w, some _) => (c.setWire w, true)

/-- Draws the wires of a box anew, plug by plug. -/
def redrawBox (b : Box) (c : Canvas) : Canvas × Bool :=
  b.plugs.foldl (fun (c, failed) p =>
    let (c, stopped) := redrawWires (c.attached p) c
    (c, failed || stopped)) (c, false)

/-- Moves a box, and its block with it. The block stays behind if a wire cannot follow. -/
def moveBox (number : Nat) (x y : Value) : CanvasM Unit := do
  let c ← get
  match c.box? number with
  | none => pure ()
  | some b =>
    let b := { b with x, y }
    let c := c.setBox b
    set c
    if !c.loading then
      let (c, failed) := redrawBox b c
      set c
      if !failed then
        set (c.putBlock { b.block with x, y })
        send .projectModified

/-- Shows the text of a box anew. A text that is shown already stays while a scene is loading; one
that cannot be made shorter is shown in full. -/
def refreshBox (number : Nat) : CanvasM Unit := do
  let c ← get
  match c.box? number with
  | none => pure ()
  | some b =>
    if c.loading && b.content.isSome then pure ()
    else
      set (c.setBox { b with content := none })
      let text ← ofExcept (Node.preview b.block)
      set (c.setBox { b with content := Node.shown? text })
      let content ← ofExcept (Node.fitted text c.textHeight)
      set (c.setBox { b with content })

end NovelGraph.Canvas
