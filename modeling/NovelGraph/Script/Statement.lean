import NovelGraph.Decimal.Reading
import NovelGraph.Fault
import NovelGraph.Script.Name
import NovelGraph.Script.Param
import NovelGraph.Story
import NovelGraph.Text.LowerCase
import NovelGraph.Text.Lines

/-! The statement that a single block writes. -/
namespace NovelGraph
namespace Script

/-- A text with its double quotes escaped. -/
def escapeQuotes (s : String) : String := Text.replaceChar '"' ['\\', '"'] s

def escapeApostrophes (s : String) : String := Text.replaceChar '\'' ['\\', '\''] s

/-- A text as a string of the script. -/
def spoken (s : String) : String := "\"" ++ escapeQuotes s ++ "\""

/-- A text between double quotes, as it is. -/
def inQuotes (s : String) : String := "\"" ++ s ++ "\""

/-- A word with its argument, left out together with it. -/
def clause (word argument : String) : String :=
  if argument.isEmpty then "" else " " ++ word ++ " " ++ argument

/-- A value as an expression: numbers, quoted texts, lists and tables as they are, all else in
quotes. -/
def expression (value : String) : String :=
  if value.isEmpty then "\"\""
  else if Decimal.isNumber value then value
  else if (Text.startsWith value "\"" && Text.endsWith value "\"") || Text.startsWith value "[" ||
      Text.startsWith value "\x7b" then value
  else inQuotes value

/-- The variables of the characters, by name. -/
abbrev Cast := List (String × String)

/-- How a speaker is written: with a cast, by variable; without one, by name. -/
def speaker (cast : Option Cast) (who : String) : String :=
  match cast with
  | none => who
  | some names =>
    match names.find? (·.1 == who) with
    | some entry => entry.2
    | none => normalize who

def say (cast : Option Cast) (indent : String) (ps : Params) : String :=
  let who := param ps "who"
  let text := param ps "text"
  if text.isEmpty then ""
  else if who.isEmpty then indent ++ spoken text ++ "\n"
  else
    let mood := param ps "expression"
    indent ++ speaker cast who ++ (if mood.isEmpty then "" else " " ++ mood) ++ " " ++ spoken text ++
      clause "at" (param ps "at") ++ clause "with" (param ps "with_transition") ++ "\n"

def narration (indent : String) (ps : Params) : String :=
  let text := param ps "text"
  if text.isEmpty then ""
  else indent ++ spoken text ++ clause "with" (param ps "with_transition") ++ "\n"

/-- One answer of a menu. -/
structure Choice where
  text : String
  jump : String
  condition : String

def Choice.ofValue : Value → Choice
  | .object ps => ⟨param ps "text", param ps "jump", param ps "condition"⟩
  | .null => ⟨"", "", ""⟩
  | v => ⟨Text.strip v.display, "", ""⟩

/-- The answers of a menu: a list, or a text that is JSON or else holds answers between commas. -/
def choices (ps : Params) : Except Fault (List Choice) :=
  match Value.lookup ps "choices" with
  | some (.text s) =>
    match Json.read s with
    | .ok v => do pure ((← v.iterate).map Choice.ofValue)
    | .error _ =>
      .ok ((((Text.split ',' s).map Text.strip).filter (!·.isEmpty)).map fun t => ⟨t, "", ""⟩)
  | some (.list items) => .ok (items.map Choice.ofValue)
  | _ => .ok []

def Choice.render (indent : String) (c : Choice) : String :=
  if c.text.isEmpty then ""
  else
    let one := indent ++ indentation
    let two := one ++ indentation
    let action := if c.jump.isEmpty then two ++ "pass\n" else two ++ "jump " ++ c.jump ++ "\n"
    if c.condition.isEmpty then one ++ spoken c.text ++ ":\n" ++ action
    else one ++ "if " ++ c.condition ++ ":\n" ++ two ++ spoken c.text ++ ":\n" ++ action

def menu (indent : String) (ps : Params) : Except Fault String := do
  let question := param ps "question"
  let heading := if question.isEmpty then "" else indent ++ spoken question ++ "\n"
  pure (heading ++ indent ++ "menu:\n" ++ Text.concat ((← choices ps).map (·.render indent)))

/-- A statement with a label as its target, which has to be among the known ones if these are
given. -/
def transfer (word target : String) (labels : Option (List String)) (indent : String) : String :=
  let known := match labels with
    | none => true
    | some ls => ls.contains target
  if target.isEmpty || !known then "" else indent ++ word ++ " " ++ target ++ "\n"

def sceneChange (indent : String) (ps : Params) : String :=
  let background := param ps "background"
  indent ++ "scene " ++ (if background.isEmpty then "black" else background) ++
    clause "onlayer" (param ps "layer") ++ clause "with" (param ps "transition") ++ "\n"

def showImage (indent : String) (ps : Params) : String :=
  let image := param ps "character"
  let mood := param ps "expression"
  if image.isEmpty then ""
  else
    indent ++ "show " ++ image ++ (if mood.isEmpty then "" else " " ++ mood) ++
      clause "at" (param ps "at") ++ clause "behind" (param ps "behind") ++
      clause "zorder" (param ps "zorder") ++ clause "onlayer" (param ps "layer") ++
      clause "with" (param ps "transition") ++ "\n"

def hideImage (indent : String) (ps : Params) : String :=
  let image := param ps "character"
  if image.isEmpty then ""
  else
    indent ++ "hide " ++ image ++ clause "onlayer" (param ps "layer") ++
      clause "with" (param ps "transition") ++ "\n"

def imageDefinition (indent : String) (ps : Params) : String :=
  let name := param ps "name"
  let path := param ps "path"
  if name.isEmpty || path.isEmpty then ""
  else indent ++ "image " ++ normalize name ++ " = " ++ inQuotes path ++ "\n"

def pause (indent : String) (ps : Params) : String :=
  let duration := paramOr ps "duration" "1.0"
  indent ++ "$ renpy.pause(" ++ (if Decimal.isNumber duration then duration else "1.0") ++ ")\n"

def transition (indent : String) (ps : Params) : String :=
  let effect := paramOr ps "transition" "dissolve"
  indent ++ "with " ++ (if effect.isEmpty then "dissolve" else effect) ++ "\n"

/-- Whether a loop mark says yes. -/
def isYes (mark : String) : Bool := ["true", "1", "yes"].contains (Text.lower mark)

def playSound (indent : String) (ps : Params) : String :=
  let file := param ps "sound_file"
  if file.isEmpty then ""
  else
    indent ++ "play sound " ++ inQuotes file ++ clause "fadein" (param ps "fadein") ++
      clause "fadeout" (param ps "fadeout") ++ (if isYes (param ps "loop") then " loop" else "") ++ "\n"

def playMusic (indent : String) (ps : Params) : String :=
  let file := param ps "music_file"
  if file.isEmpty then ""
  else
    indent ++ "play music " ++ inQuotes file ++ clause "fadein" (param ps "fadein") ++
      clause "fadeout" (param ps "fadeout") ++
      (if isYes (paramOr ps "loop" "True") then " loop" else " noloop") ++ "\n"

def stop (channel indent : String) (ps : Params) : String :=
  indent ++ "stop " ++ channel ++ clause "fadeout" (param ps "fadeout") ++ "\n"

def queueMusic (indent : String) (ps : Params) : String :=
  let file := param ps "music_file"
  if file.isEmpty then ""
  else
    indent ++ "queue music " ++ inQuotes file ++ clause "fadein" (param ps "fadein") ++
      (if isYes (param ps "loop") then " loop" else "") ++ "\n"

def queueSound (indent : String) (ps : Params) : String :=
  let file := param ps "sound_file"
  if file.isEmpty then ""
  else indent ++ "queue sound " ++ inQuotes file ++ clause "fadein" (param ps "fadein") ++ "\n"

/-- A name that receives a value: `$ name = value` and its like. -/
def assignment (word key indent : String) (ps : Params) : String :=
  let name := param ps key
  if name.isEmpty then ""
  else indent ++ word ++ " " ++ name ++ " = " ++ expression (param ps "value") ++ "\n"

/-- A line of a suite; blank lines lose their indentation. -/
def suiteLine (indent line : String) : String :=
  if Text.isBlankLine line then "\n" else indent ++ line ++ "\n"

/-- The lines of a text, one level deeper. -/
def suite (indent text : String) : String :=
  Text.concat ((Text.lines text).map (suiteLine (indent ++ indentation)))

def codeBlock (indent : String) (ps : Params) : String :=
  let code := param ps "code"
  if code.isEmpty then "" else indent ++ "python:\n" ++ suite indent code

/-- The definition of a character by variable and displayed name. -/
def characterLine (indent name : String) (displayed : Option String) : String :=
  indent ++ "define " ++ name ++ " = Character(" ++
    (match displayed with
      | some shown => "'" ++ escapeApostrophes shown ++ "'"
      | none => "None") ++ ")\n"

def nonEmpty? (s : String) : Option String := if s.isEmpty then none else some s

def characterDefinition (indent : String) (ps : Params) : String :=
  let name := param ps "name"
  if name.isEmpty then ""
  else characterLine indent (normalize name) (nonEmpty? (param ps "display_name"))

def voice (indent : String) (ps : Params) : String :=
  let file := param ps "voice_file"
  if file.isEmpty then "" else indent ++ "voice " ++ inQuotes file ++ "\n"

def centered (indent : String) (ps : Params) : String :=
  let text := param ps "text"
  if text.isEmpty then "" else indent ++ "centered " ++ spoken text ++ "\n"

def screenText (indent : String) (ps : Params) : String :=
  let text := param ps "text"
  if text.isEmpty then ""
  else
    indent ++ "text " ++ spoken text ++ clause "xpos" (param ps "xpos") ++
      clause "ypos" (param ps "ypos") ++ "\n"

/-- The statement of a kind of block that stands by itself; jumps and calls are not checked. -/
def plainStatement? (kind : BlockKind) :
    Option (String → Params → Except Fault String) :=
  let pure_ (f : String → Params → String) : Option (String → Params → Except Fault String) :=
    some fun indent ps => .ok (f indent ps)
  match kind with
  | .say => pure_ (say none)
  | .narration => pure_ narration
  | .menu => some menu
  | .jump => pure_ fun indent ps => transfer "jump" (param ps "target") none indent
  | .call => pure_ fun indent ps => transfer "call" (param ps "label") none indent
  | .returnFrom => pure_ fun indent _ => indent ++ "return\n"
  | .scene => pure_ sceneChange
  | .showImage => pure_ showImage
  | .hideImage => pure_ hideImage
  | .image => pure_ imageDefinition
  | .pause => pure_ pause
  | .transition => pure_ transition
  | .withEffect => pure_ transition
  | .sound => pure_ playSound
  | .music => pure_ playMusic
  | .stopMusic => pure_ (stop "music")
  | .stopSound => pure_ (stop "sound")
  | .queueMusic => pure_ queueMusic
  | .queueSound => pure_ queueSound
  | .setVar => pure_ (assignment "$" "variable")
  | .defaultVar => pure_ (assignment "default" "variable")
  | .define => pure_ (assignment "define" "name")
  | .code => pure_ codeBlock
  | .character => pure_ characterDefinition
  | .voice => pure_ voice
  | .center => pure_ centered
  | .screenText => pure_ screenText
  | _ => none

def labelLine (indent label : String) : String := indent ++ "label " ++ label ++ ":\n"

/-- What a block may refer to: the cast, and the labels of the whole story. -/
structure Surroundings where
  cast : Option Cast := none
  labels : Option (List String) := none

end Script

open Script

namespace Block

/-- The parameters of a block, which have to be an object. -/
def paramList (b : Block) : Except Fault Params := b.params.members "get"

/-- The label that a start block opens, empty if it has none. -/
def startLabel (b : Block) : Except Fault String := do pure (Script.startLabel (← b.paramList))

/-- The opening line of a start block. -/
def startLine (b : Block) (indent : String) : Except Fault String := do
  let label ← b.startLabel
  pure (if label.isEmpty then "" else labelLine indent label)

/-- The statement of a block that stands by itself, if its kind has one. -/
def statement? (b : Block) (indent : String) : Except Fault (Option String) :=
  match b.kind, plainStatement? b.kind with
  | .returnFrom, _ => .ok (some (indent ++ "return\n"))
  | _, none => .ok none
  | _, some f => do pure (some (← f indent (← b.paramList)))

/-- The statement that a block writes in its surroundings. Control blocks write nothing here, and
jumps only to labels that exist. -/
def render (b : Block) (indent : String) (around : Surroundings) : Except Fault String :=
  match b.kind with
  | .start => b.startLine indent
  | .ifElse | .whileLoop | .forLoop => .ok ""
  | .jump => do
    pure (transfer "jump" (param (← b.paramList) "target") around.labels indent)
  | .call => do
    pure (transfer "call" (param (← b.paramList) "label") around.labels indent)
  | .say => do pure (say around.cast indent (← b.paramList))
  | .label => do
    let label := param (← b.paramList) "label"
    pure (if label.isEmpty then "" else labelLine "" label)
  | _ => do pure ((← b.statement? indent).getD "")

end Block
end NovelGraph
