import NovelGraph.Editor

/-! Looking at the canvas: zooming, panning and the keys. -/
namespace NovelGraph.View

open Value (Number)

/-- Shows a scene and stays at the same place. -/
def showScene (project : Option Project) (scene : Option Scene) : EditorM Unit := do
  Editor.onCanvas (modify (·.load project scene))
  Editor.atDesk (Desk.note (.event "center" []))

def centre : EditorM Unit := Editor.atDesk (Desk.note (.event "center" [.int 0, .int 0]))

def passOn : EditorM Outcome := do
  Editor.atDesk (Desk.note .passedOn)
  pure .untouched

/-- The zoom for one unit of the wheel. -/
def zoomStep : Double := Double.ofRatio false 10015 10000

/-- Zooms by so many units of the wheel, if the control key is held. -/
def wheel (angle : Number) (control : Bool) : EditorM Outcome := do
  if !control then passOn
  else
    let by_ ← Editor.ofExcept angle.toDouble
    if by_.significand = 0 then pure .untouched
    else
      let factor := Double.ofFloat (zoomStep.toFloat.pow by_.toFloat)
      if factor.isInfinite && by_.isFinite then throw .tooLarge
      Editor.atDesk (Desk.note (.event "scale" [.float factor, .float factor]))
      pure .untouched

/-- Starts panning with the middle button. -/
def press (middle : Bool) (at_ : Point) : EditorM Outcome := do
  if middle then
    modify fun e => { e with view := { e.view with panning := some at_ } }
    Editor.atDesk (Desk.note (.event "cursor" [.text "ClosedHandCursor"]))
    pure .accepted
  else passOn

/-- Scrolls against the movement of the mouse. -/
def move (at_ : Point) : EditorM Outcome := do
  let v := (← get).view
  match v.panning with
  | none => passOn
  | some start =>
    let x ← Editor.ofExcept do v.scroll.x.sub (← at_.x.sub start.x)
    let y ← Editor.ofExcept do v.scroll.y.sub (← at_.y.sub start.y)
    modify fun e => { e with view := { panning := some at_, scroll := ⟨x, y⟩ } }
    pure .accepted

def release (middle : Bool) : EditorM Outcome := do
  if middle && (← get).view.panning.isSome then
    modify fun e => { e with view := { e.view with panning := none } }
    Editor.atDesk (Desk.note (.event "cursor" [.text "ArrowCursor"]))
    pure .accepted
  else passOn

/-- The delete key and the backspace key remove what is selected. -/
def key (deletes : Bool) : EditorM Outcome := do
  if deletes then
    Editor.onCanvas Canvas.deleteSelection
    pure .accepted
  else passOn

end NovelGraph.View
