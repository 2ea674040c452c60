/-! The kinds of blocks that a story is drawn from. -/
namespace NovelGraph

/-- What a block stands for in the script. -/
inductive BlockKind where
  | start
  | label
  | returnFrom
  | say
  | narration
  | scene
  | showImage
  | hideImage
  | image
  | menu
  | ifElse
  | elseIf
  | otherwise
  | whileLoop
  | forLoop
  | jump
  | call
  | pause
  | transition
  | withEffect
  | sound
  | music
  | stopMusic
  | stopSound
  | queueMusic
  | queueSound
  | setVar
  | defaultVar
  | define
  | code
  | character
  | style
  | voice
  | extendLine
  | interject
  | center
  | screenText
deriving DecidableEq, Repr, Inhabited

namespace BlockKind

def all : List BlockKind :=
  [.start, .label, .returnFrom, .say, .narration, .scene, .showImage, .hideImage, .image, .menu,
    .ifElse, .elseIf, .otherwise, .whileLoop, .forLoop, .jump, .call, .pause, .transition,
    .withEffect, .sound, .music, .stopMusic, .stopSound, .queueMusic, .queueSound, .setVar,
    .defaultVar, .define, .code, .character, .style, .voice, .extendLine, .interject, .center,
    .screenText]

/-- The name of a kind in project files. -/
def name : BlockKind → String
  | .start => "START"
  | .label => "LABEL"
  | .returnFrom => "RETURN"
  | .say => "SAY"
  | .narration => "NARRATION"
  | .scene => "SCENE"
  | .showImage => "SHOW"
  | .hideImage => "HIDE"
  | .image => "IMAGE"
  | .menu => "MENU"
  | .ifElse => "IF"
  | .elseIf => "ELIF"
  | .otherwise => "ELSE"
  | .whileLoop => "WHILE"
  | .forLoop => "FOR"
  | .jump => "JUMP"
  | .call => "CALL"
  | .pause => "PAUSE"
  | .transition => "TRANSITION"
  | .withEffect => "WITH"
  | .sound => "SOUND"
  | .music => "MUSIC"
  | .stopMusic => "STOP_MUSIC"
  | .stopSound => "STOP_SOUND"
  | .queueMusic => "QUEUE_MUSIC"
  | .queueSound => "QUEUE_SOUND"
  | .setVar => "SET_VAR"
  | .defaultVar => "DEFAULT"
  | .define => "DEFINE"
  | .code => "PYTHON"
  | .character => "CHARACTER"
  | .style => "STYLE"
  | .voice => "VOICE"
  | .extendLine => "EXTEND"
  | .interject => "INTERJECT"
  | .center => "CENTER"
  | .screenText => "TEXT"

def ofName? (s : String) : Option BlockKind := all.find? (·.name == s)

@[simp] theorem ofName?_name (k : BlockKind) : ofName? k.name = some k := by cases k <;> decide

/-- Blocks that are written among the definitions and not where they stand in a scene. -/
def isDefinition : BlockKind → Bool
  | .image | .character | .define | .defaultVar => true
  | _ => false

/-- Blocks whose successors are written inside them. -/
def isControl : BlockKind → Bool
  | .ifElse | .whileLoop | .forLoop => true
  | _ => false

/-- Blocks that name a picture or a character and never open a scene. -/
def isResource : BlockKind → Bool
  | .image | .character => true
  | _ => false

end BlockKind

/-- Which way a wire runs through a port. -/
inductive Direction where
  | input
  | output
deriving DecidableEq, Repr, Inhabited

namespace Direction

def name : Direction → String
  | .input => "INPUT"
  | .output => "OUTPUT"

def ofName? (s : String) : Option Direction :=
  if s = "INPUT" then some .input else if s = "OUTPUT" then some .output else none

@[simp] theorem ofName?_name (d : Direction) : ofName? d.name = some d := by cases d <;> decide

end Direction
end NovelGraph
