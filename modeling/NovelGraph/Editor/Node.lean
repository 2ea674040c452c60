import NovelGraph.Editor.Curve
import NovelGraph.Story
import NovelGraph.Settings

/-! Blocks as boxes on the canvas: their colours, their plugs and the text in them. -/
namespace NovelGraph

namespace BlockKind

/-- The main, light and dark colour of a box. -/
def colours : BlockKind → String × String × String
  | .say => ("#4A90E2", "#6BA3F0", "#2E5C8A")
  | .narration | .voice | .center | .screenText => ("#5B9BD5", "#7DB3E8", "#3A6B9A")
  | .scene | .image => ("#70AD47", "#8FC966", "#4F7A2F")
  | .showImage => ("#92D050", "#A8E066", "#6B9A38")
  | .hideImage => ("#A9D18E", "#C0E8A8", "#7A9A6A")
  | .start => ("#FFD700", "#FFE44D", "#CCAA00")
  | .ifElse | .elseIf | .otherwise | .whileLoop | .forLoop => ("#FF6B6B", "#FF8E8E", "#CC4545")
  | .menu => ("#FFA07A", "#FFB896", "#CC7A5F")
  | .jump => ("#FF8C00", "#FFA533", "#CC6F00")
  | .call => ("#FF6347", "#FF8266", "#CC4E38")
  | .label => ("#FF7F50", "#FF9A70", "#CC653F")
  | .pause => ("#9B59B6", "#B573D1", "#6B3F7A")
  | .transition | .withEffect => ("#8E44AD", "#A866C7", "#5E2D73")
  | .sound | .stopSound | .queueSound => ("#7D3C98", "#9A5CB3", "#5A2A6B")
  | .music | .stopMusic | .queueMusic => ("#6C3483", "#8A4FA3", "#4A2356")
  | .setVar | .defaultVar | .define | .code => ("#F39C12", "#F5B041", "#C27D0E")
  | .character | .style => ("#1ABC9C", "#48C9B0", "#16A085")
  | .returnFrom => ("#95A5A6", "#B0C4C5", "#6B7A7A")
  | .extendLine | .interject => ("#34495E", "#5D6D7E", "#1B2631")

end BlockKind

/-- A plug of a box: its name, its side, and its place seen from the corner of the box. -/
structure Socket where
  name : String
  isOutput : Bool
  offset : Point

namespace Socket

def width : Int := 200

def height : Int := 90

def input : Socket := ⟨"in", false, .int (-6), .double (Curve.ofRatio 45 1)⟩

def output (name : String) (down : Double) : Socket :=
  ⟨name, true, .int (width + 6), .double down⟩

end Socket

namespace BlockKind

/-- A start has no input; a condition has one output for each outcome. -/
def inputs : BlockKind → List Socket
  | .start => []
  | _ => [Socket.input]

def outputs : BlockKind → List Socket
  | .ifElse => [.output "True" (Curve.ofRatio 30 1), .output "False" (Curve.ofRatio 60 1)]
  | .whileLoop | .forLoop => [.output "loop" (Curve.ofRatio 45 1)]
  | _ => [.output "out" (Curve.ofRatio 45 1)]

def sockets (k : BlockKind) : List Socket := k.inputs ++ k.outputs

end BlockKind

namespace Value

/-- The first characters of a text, or items of a list. -/
def head (n : Nat) : Value → Except Fault Value
  | .text s => .ok (.text (String.ofList (s.toList.take n)))
  | .list vs => .ok (.list (vs.take n))
  | .object _ => .error (.wrongKind "unhashable type: 'slice'")
  | v => .error (.notIndexable v)

/-- The number of characters, items or members. -/
def size : Value → Except Fault Nat
  | .text s => .ok s.length
  | .list vs => .ok vs.length
  | .object ms => .ok ms.length
  | v => .error (.wrongKind s!"object of type '{v.kindName}' has no len()")

end Value

namespace Node

/-- A parameter, empty if it is missing. -/
def param (ps : Members) (key : String) : Value := (Value.lookup ps key).getD (.text "")

/-- A parameter between two texts, or a text for its absence. -/
def phrase (before after empty : String) (v : Value) : Value :=
  .text (if v.isTruthy then before ++ v.display ++ after else empty)

/-- The start of a parameter between two texts, or a text for its absence. -/
def cut (n : Nat) (before after empty : String) (v : Value) : Except Fault Value := do
  if v.isTruthy then pure (.text (before ++ (← v.head n).display ++ after))
  else pure (.text empty)

/-- The start of a parameter as it is, or a text for its absence. -/
def bare (n : Nat) (empty : String) (v : Value) : Except Fault Value :=
  if v.isTruthy then v.head n else .ok (.text empty)

/-- A name and its value. -/
def equation (before : String) (name value : Value) : Value :=
  if name.isTruthy && value.isTruthy then
    .text (before ++ name.display ++ " = " ++ value.display)
  else if before.isEmpty then (if name.isTruthy then name else .text "")
  else phrase before "" "" name

def sayText (who text : Value) : Except Fault Value := do
  if who.isTruthy then
    if text.isTruthy then pure (.text (who.display ++ ": " ++ (← text.head 25).display))
    else pure who
  else bare 35 "" text

def loopText (name iterable : Value) : Except Fault Value := do
  if name.isTruthy && iterable.isTruthy then
    pure (.text ("for " ++ name.display ++ " in " ++ (← iterable.head 20).display))
  else pure (phrase "for " "..." "for ..." name)

def menuText (question choices : Value) : Except Fault Value := do
  let count := match choices with
    | .list vs => vs.length
    | _ => 0
  if question.isTruthy then
    if 25 < (← question.size) then
      pure (.text s!"{(← question.head 25).display}... ({count})")
    else pure (.text s!"{question.display} ({count})")
  else pure (.text s!"Menu ({count} choices)")

/-- The text that sums up a block of a kind. -/
def previewOf (k : BlockKind) (ps : Members) : Except Fault Value :=
  let p := param ps
  match k with
  | .say => sayText (p "who") (p "text")
  | .narration => bare 35 "" (p "text")
  | .voice => .ok (phrase "voice: " "" "" (p "voice_file"))
  | .center => cut 30 "centered: " "" "" (p "text")
  | .screenText => cut 30 "text: " "" "" (p "text")
  | .jump => .ok (phrase "→ " "" "" (p "target"))
  | .call => .ok (phrase "call " "" "" (p "label"))
  | .label => .ok (phrase "label: " "" "" (p "label"))
  | .ifElse => bare 35 "if ..." (p "condition")
  | .whileLoop => cut 30 "while " "" "while ..." (p "condition")
  | .forLoop => loopText (p "variable") (p "iterable")
  | .menu => menuText (p "question") ((Value.lookup ps "choices").getD (.list []))
  | .scene => .ok (phrase "scene " "" "" (p "background"))
  | .showImage => .ok (phrase "show " "" "" (p "character"))
  | .hideImage => .ok (phrase "hide " "" "" (p "character"))
  | .image => .ok (phrase "image " "" "" (p "name"))
  | .setVar => .ok (equation "" (p "variable") (p "value"))
  | .defaultVar => .ok (equation "default " (p "variable") (p "value"))
  | .define => .ok (equation "define " (p "name") (p "value"))
  | .code => cut 30 "python: " "..." "python: ..." (p "code")
  | .character => .ok (phrase "character " "" "" (p "name"))
  | .pause => .ok (phrase "pause " "s" "" (p "duration"))
  | .transition | .withEffect => .ok (phrase "with " "" "" (p "transition"))
  | .sound => .ok (phrase "sound: " "" "" (p "sound_file"))
  | .music => .ok (phrase "music: " "" "" (p "music_file"))
  | .stopMusic => .ok (phrase "stop music fadeout " "" "stop music" (p "fadeout"))
  | .stopSound => .ok (phrase "stop sound fadeout " "" "stop sound" (p "fadeout"))
  | .queueMusic => .ok (phrase "queue music: " "" "" (p "music_file"))
  | .queueSound => .ok (phrase "queue sound: " "" "" (p "sound_file"))
  | .returnFrom => .ok (.text "return")
  | .style => .ok (phrase "style " "" "" (p "name"))
  | .elseIf => cut 30 "elif " "" "elif ..." (p "condition")
  | .otherwise => .ok (.text "else")
  | .extendLine => cut 30 "extend: " "" "extend" (p "text")
  | .interject => cut 30 "interject: " "" "interject" (p "text")
  | .start => .ok (.text "")

/-- The text that sums up a block. Starts, returns and else-branches have no parameters to look
at. -/
def preview (b : Block) : Except Fault Value :=
  match b.kind with
  | .start | .returnFrom | .otherwise => previewOf b.kind []
  | k => do previewOf k (← b.params.members "get")

/-- A text is shown unless it is empty. -/
def shown? (text : Value) : Option Value := if text.isTruthy then some text else none

/-- The text shown in a box: a shorter one if it would stand higher than the box has room for. -/
def fitted (text : Value) (textHeight : Value.Number) : Except Fault (Option Value) := do
  if text.isTruthy && (Value.Number.int 50).lt textHeight then
    if 40 < (← text.size) then
      match ← text.head 37 with
      | .text s => pure (some (.text (s ++ "...")))
      | v => .error (.wrongKind s!"can only concatenate {v.kindName} to {v.kindName}")
    else pure (some text)
  else pure (shown? text)

/-- The text shown in the box of a block. -/
def content (b : Block) (textHeight : Value.Number) : Except Fault (Option Value) := do
  fitted (← preview b) textHeight

end Node
end NovelGraph
