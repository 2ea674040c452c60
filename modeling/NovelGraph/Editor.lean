import NovelGraph.Editor.Canvas.Loading
import NovelGraph.Editor.Canvas.Mouse
import NovelGraph.Editor.Widget
import NovelGraph.Session
import NovelGraph.Wording

/-! The editor: the open project, and the panels that show parts of it. -/
namespace NovelGraph

/-- A row of the list of scenes. -/
structure Outline.Row where
  text : String
  sceneId : Value
  selected : Bool := false

/-- The list of scenes. -/
structure Outline where
  project : Option Project := none
  current : Option Scene := none
  rows : List Outline.Row := []
  currentRow : Option Nat := none
  updating : Bool := false

/-- When the text of a field is taken over into the block. -/
inductive Form.Trigger where
  | onChange
  | onFinish
  | onSave

/-- A field of the form. Suggestions can be looked at more closely in some of them. -/
structure Form.Field where
  key : String
  widget : Widget
  trigger : Form.Trigger := .onSave
  hint : Value := .null
  explains : Bool := false

/-- What the newest button of the form does. A file goes into a field, as long as that is still the
one which the button was made for. -/
inductive Form.Button where
  | chooseFile (key : Option String) (title filters : String)
  | chooseBackground (key : Option String) (title filters : String)
  | removeChoice

/-- The button after another field has taken a key. -/
def Form.Button.retire (key : String) : Form.Button → Form.Button
  | .chooseFile k title filters => .chooseFile (k.filter (· != key)) title filters
  | .chooseBackground k title filters => .chooseBackground (k.filter (· != key)) title filters
  | .removeChoice => .removeChoice

/-- The choices of a menu: the data, whether they are the block's own, and how they are listed. -/
structure Form.Choices where
  data : Value
  shared : Bool := false
  rows : List String := []
  currentRow : Option Nat := none

/-- The form for the parameters of a block. Of a list of choices that the form showed before, the
chosen row is kept for the button that still belongs to it. -/
structure Form where
  block : Option Block := none
  fields : List Form.Field := []
  choices : Option Form.Choices := none
  formerRow : Option Nat := none
  made : List Widget := []
  button : Option Form.Button := none

/-- How the canvas is looked at. -/
structure View where
  panning : Option Point := none
  scroll : Point := ⟨.int 0, .int 0⟩

/-- Where a window is, and how large. -/
structure Geometry where
  x : Int := 10
  y : Int := 20
  width : Int := 1400
  height : Int := 800
  maximized : Bool := false

/-- The main window. What comes from the settings is kept as it is found there. -/
structure Window where
  geometry : Geometry := {}
  title : Value := .text ""
  modified : Bool := false
  canSave : Bool := false
  size : Value × Value := (.null, .null)
  place : Option (Value × Value) := none
  maximize : Value := .bool false
  mainSizes : Value := .null
  rightSizes : Value := .null
  codeShown : Bool := false

structure Editor where
  host : Host
  desk : Desk
  session : Session := {}
  canvas : Canvas
  outline : Outline := {}
  form : Form := {}
  view : View := {}
  preview : String := ""
  window : Window := {}

/-- Work in the editor; what was done before a failure stays done. -/
abbrev EditorM := EStateM Fault Editor

namespace Outline

def putBlock (o : Outline) (b : Block) : Outline :=
  { o with project := o.project.map (·.putBlock b), current := o.current.map (·.putBlock b) }

def putScene (o : Outline) (s : Scene) : Outline :=
  { o with
    project := o.project.map (·.putScene s)
    current := o.current.map fun t => if t.tag = s.tag then s else t }

end Outline

namespace Form

def putBlock (f : Form) (b : Block) : Form :=
  { f with block := f.block.map fun c => if c.tag = b.tag then b else c }

def putScene (f : Form) (s : Scene) : Form :=
  { f with block := f.block.map fun c => (s.tagged? c.tag).getD c }

end Form

namespace Editor

def atDesk {α : Type} (work : StateM Desk α) : EditorM α := fun e =>
  let (a, desk) := work e.desk
  .ok a { e with desk }

def atHost {α : Type} (work : HostM α) : EditorM α := fun e =>
  match work e.host with
  | .ok a host => .ok a { e with host }
  | .error f host => .error f { e with host }

def onDisk {α : Type} (work : DiskM α) : EditorM α := atHost (Host.onDisk work)

def ofExcept {α : Type} : Except Fault α → EditorM α
  | .ok a => pure a
  | .error f => throw f

def send (s : Signal) : EditorM Unit := atDesk (Desk.send s)

/-- A text in the language of the editor. -/
def phrase (key default : String) : EditorM Value := atHost (Wording.phrase key default)

/-- Shows a new state of a block wherever the block is shown. -/
def putBlock (b : Block) : EditorM Unit :=
  modify fun e =>
    { e with
      session := { e.session with project := e.session.project.map (·.putBlock b) }
      canvas := e.canvas.putBlock b
      outline := e.outline.putBlock b
      form := e.form.putBlock b }

/-- Gives a block new parameters. The choices on the form are no longer the block's own then. -/
def assignParams (b : Block) (params : Value) : EditorM Unit := do
  putBlock { b with params }
  modify fun e =>
    if e.form.block.any (·.tag = b.tag) then
      { e with form := { e.form with choices := e.form.choices.map ({ · with shared := false }) } }
    else e

/-- Shows a new state of a scene wherever the scene is shown. -/
def putScene (e : Editor) (s : Scene) : Editor :=
  { e with
    session := { e.session with project := e.session.project.map (·.putScene s) }
    canvas := e.canvas.putScene s
    outline := e.outline.putScene s
    form := e.form.putScene s }

/-- Shows a new state of a project, and of all that is in it, wherever they are shown. -/
def putProject (p : Project) : EditorM Unit :=
  modify fun e =>
    let refresh (q : Project) : Project := if q.tag = p.tag then p else q
    p.scenes.foldl putScene
      { e with
        session := { e.session with project := e.session.project.map refresh }
        canvas := { e.canvas with project := e.canvas.project.map refresh }
        outline := { e.outline with project := e.outline.project.map refresh } }

/-- Work on the canvas, after which the other panels show what has become of the scene. -/
def onCanvas {α : Type} (work : CanvasM α) : EditorM α := fun e =>
  let after (c : Canvas) : Editor :=
    let scenes := ((c.project.map (·.scenes)).getD []) ++ c.scene.toList
    let e := scenes.foldl putScene { e with canvas := c, desk := c.desk }
    { e with form := c.boxes.foldl (fun f b => f.putBlock b.block) e.form }
  match work { e.canvas with desk := e.desk } with
  | .ok a c => .ok a (after c)
  | .error f c => .error f (after c)

/-- Gives a project and what is in it tags of their own. -/
def adopt (p : Project) : EditorM Project :=
  atDesk (modifyGet fun d =>
    let (p, next) := p.retag d.nextTag
    (p, { d with nextTag := next }))

/-- Makes a session the current one. -/
def enter (s : Session) : EditorM Unit := do
  let project ← s.project.mapM adopt
  modify ({ · with session := { s with project } })

def adoptScene (s : Scene) : EditorM Scene :=
  atDesk (modifyGet fun d =>
    let (s, next) := s.retag d.nextTag
    (s, { d with nextTag := next }))

def adoptBlock (b : Block) : EditorM Block := do
  pure { b with tag := ← atDesk Desk.freshTag }

end Editor
end NovelGraph
