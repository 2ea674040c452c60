import NovelGraph.Value

/-! What panels and dialogs are made of. -/
namespace NovelGraph

inductive Widget where
  | label (text : Value) (tip : Value)
  | line (text : String) (tip : Value)
  | area (text : String) (tip : Value)
  | button (text : Value) (tip : Value)
  | check (text : String) (checked : Value) (tip : Value)
  /-- A field to write in, with suggestions and what is shown about each of them. -/
  | combo (items : List (Value × Value)) (current : String) (tip : Value)
  | list (items : List String)

namespace Widget

/-- The text in a field. -/
def text : Widget → String
  | .line s _ | .area s _ | .combo _ s _ => s
  | _ => ""

def setText (s : String) : Widget → Widget
  | .line _ tip => .line s tip
  | .area _ tip => .area s tip
  | .combo items _ tip => .combo items s tip
  | w => w

def setTip (tip : Value) : Widget → Widget
  | .label s _ => .label s tip
  | .line s _ => .line s tip
  | .area s _ => .area s tip
  | .button s _ => .button s tip
  | .check s c _ => .check s c tip
  | .combo items s _ => .combo items s tip
  | .list items => .list items

def tip : Widget → Value
  | .label _ t | .line _ t | .area _ t | .button _ t | .check _ _ t | .combo _ _ t => t
  | .list _ => .null

end Widget
end NovelGraph
