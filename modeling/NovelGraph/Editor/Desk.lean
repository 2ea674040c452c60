import NovelGraph.Decimal.Double
import NovelGraph.Story

/-! What passes between the editor and whoever sits in front of it. -/
namespace NovelGraph

/-- What the parts of the editor tell each other. -/
inductive Signal where
  | projectModified
  | selectionChanged (block : Option Block)
  | propertiesSaved (block : Block)
  | sceneSelected (scene : Option Scene)
  | scenesModified
  | languageChanged (language : Value)

/-- The name of a signal, and the id of what it is about. -/
def Signal.details : Signal → List Value
  | .projectModified => [.text "project_modified"]
  | .selectionChanged b => [.text "node_selection_changed", (b.map (·.id)).getD .null]
  | .propertiesSaved b => [.text "properties_saved", b.id]
  | .sceneSelected s => [.text "scene_selected", (s.map (·.id)).getD .null]
  | .scenesModified => [.text "scenes_modified"]
  | .languageChanged v => [.text "language_changed", v]

/-- Something that can be seen of the editor's work: a signal, or a named event with its details. -/
inductive Notice where
  | signal (s : Signal)
  | event (name : String) (details : List Value)

namespace Notice

def question (title text : Value) (default : Bool) : Notice :=
  .event "question" [title, text, .text (if default then "Yes" else "No")]

def input (title label preset : Value) : Notice := .event "input" [title, label, preset]

def directory (title start : Value) : Notice := .event "directory" [title, start]

def file (title filters : Value) : Notice := .event "file" [title, filters]

def warning (title text : Value) : Notice := .event "warning" [title, text]

def information (title text : Value) : Notice := .event "information" [title, text]

def critical (title text : Value) : Notice := .event "critical" [title, text]

def menu (action : String) : Notice := .event "menu" [.text action]

/-- A notice as a line of a log. -/
def toValue : Notice → Value
  | .signal s => .list (.text "signal" :: s.details)
  | .event name details => .list (.text name :: details)

/-- An event that was left to the usual treatment. -/
def passedOn : Notice := .event "default" []

end Notice

/-- The answers that are waiting for dialogs, what was noticed so far, and a supply of fresh ids and
tags. -/
structure Desk where
  names : Nat → String
  nextId : Nat := 1
  nextTag : Nat := 1
  answers : List Value := []
  log : List Notice := []

namespace Desk

def note (n : Notice) : StateM Desk Unit := modify fun d => { d with log := d.log ++ [n] }

def send (s : Signal) : StateM Desk Unit := note (.signal s)

def freshId : StateM Desk Value :=
  modifyGet fun d => (.text (d.names d.nextId), { d with nextId := d.nextId + 1 })

def freshTag : StateM Desk Nat := modifyGet fun d => (d.nextTag, { d with nextTag := d.nextTag + 1 })

def answer : StateM Desk Value :=
  modifyGet fun d => match d.answers with
    | [] => (.null, d)
    | v :: rest => (v, { d with answers := rest })

def confirm (title text : Value) (default : Bool) : StateM Desk Bool := do
  note (.question title text default)
  pure (← answer).isTruthy

/-- A line of text, unless the dialog is cancelled. -/
def askText (title label preset : Value) : StateM Desk (Option String) := do
  note (.input title label preset)
  match ← answer with
  | .text s => pure (some s)
  | _ => pure none

/-- The name of a file or directory; it is empty if none is chosen. -/
def choice : StateM Desk String := do
  match ← answer with
  | .text s => pure s
  | _ => pure ""

def askDirectory (title start : Value) : StateM Desk String := do
  note (.directory title start)
  choice

def askFile (title filters : Value) : StateM Desk String := do
  note (.file title filters)
  choice

end Desk
end NovelGraph
