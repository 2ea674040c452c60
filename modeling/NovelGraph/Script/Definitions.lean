import NovelGraph.Order
import NovelGraph.Script.Statement

/-! The definitions at the head of a script: pictures, characters, constants and variables. -/
namespace NovelGraph

open Script

/-- Texts under names, in the order in which the names first came up. -/
abbrev NamedTexts := List (String × String)

namespace NamedTexts

def contains (d : NamedTexts) (name : String) : Bool := d.any (·.1 == name)

/-- Puts a text under a name, in the place of the one that was there. -/
def set : NamedTexts → String → String → NamedTexts
  | [], name, text => [(name, text)]
  | e :: rest, name, text =>
    if e.1 == name then (e.1, text) :: rest else e :: set rest name text

/-- Puts a text under a name that has none yet. -/
def setNew (d : NamedTexts) (name text : String) : NamedTexts :=
  if d.contains name then d else d ++ [(name, text)]

def sorted (d : NamedTexts) : NamedTexts := Order.sortByKey (·.1) (fun a b => decide (a < b)) d

end NamedTexts

namespace Project

/-- All blocks, scene after scene. -/
def blocks (p : Project) : List Block := p.scenes.flatMap (·.blocks)

def blocksOf (p : Project) (kind : BlockKind) : List Block := p.blocks.filter (·.kind == kind)

/-- The parameters of the blocks of one kind. -/
def paramsOf (p : Project) (kind : BlockKind) : Except Fault (List Params) :=
  (p.blocksOf kind).mapM (·.paramList)

/-- The pictures that image blocks define, by variable; the last definition counts. -/
def imageBlocks (p : Project) : Except Fault NamedTexts := do
  let images ← p.paramsOf .image
  pure (images.foldl
    (fun d ps =>
      let name := param ps "name"
      let path := param ps "path"
      if name.isEmpty || path.isEmpty then d else d.set (normalize name) path)
    [])

/-- The path in the first image block with a name, scene by scene; a scene where it is empty does
not end the search. -/
def pathOfImage? (p : Project) (name : String) : Except Fault (Option String) :=
  p.scenes.foldlM
    (fun found s =>
      match found with
      | some _ => pure found
      | none => do
        let path ← s.blocks.foldlM
          (fun (found : Option String) b =>
            match found with
            | some _ => pure found
            | none =>
              if b.kind = .image then do
                let ps ← b.paramList
                pure (if param ps "name" = name then some (param ps "path") else none)
              else pure none)
          none
        pure (path.bind nonEmpty?))
    none

/-- The backgrounds of scene changes for which an image block has a path. -/
def backgroundImages (p : Project) : Except Fault NamedTexts :=
  (p.blocksOf .scene).foldlM
    (fun d b => do
      let background := param (← b.paramList) "background"
      if background.isEmpty || background = "black" || background = "white" || d.contains background
      then pure d
      else match ← p.pathOfImage? background with
        | some path => pure (d.set background path)
        | none => pure d)
    []

/-- Whether a name occurs among the characters of the project. -/
def namesCharacter (p : Project) (name : String) : Except Fault Bool :=
  match p.characters with
  | .object ms => .ok (ms.any (·.1 == name))
  | .list items => .ok ((Value.text name).memberOf items)
  | .text s => .ok (Text.contains s name)
  | v => .error (.wrongKind s!"argument of type '{v.kindName}' is not iterable")

def sortedMembers (ms : List (String × Value)) : List (String × Value) :=
  Order.sortByKey (·.1) (fun a b => decide (a < b)) ms

/-- All pictures: from image blocks, then from the project, then backgrounds. -/
def allImages (p : Project) : Except Fault NamedTexts := do
  let fromBlocks ← p.imageBlocks
  let fromProject ←
    if p.images.isTruthy then p.images.members "items" else pure []
  let both := (sortedMembers fromProject).foldl (fun d m => NamedTexts.setNew d m.1 m.2.display) fromBlocks
  let backgrounds ← p.backgroundImages
  pure (backgrounds.foldl (fun d m => NamedTexts.setNew d m.1 m.2) both)

def imageSection (p : Project) : Except Fault (List String) := do
  let images ← p.allImages
  if images.isEmpty then pure []
  else
    pure (["# Image Definitions\n"] ++
      images.sorted.map (fun m => "image " ++ m.1 ++ " = " ++ inQuotes m.2 ++ "\n") ++ ["\n"])

/-- The definition of a character of the project. -/
def characterEntry (name : String) (data : Value) : Except Fault String := do
  let shown := (Value.lookup (← data.members "get") "display_name").getD (.text "")
  match shown with
  | .text s => pure (characterLine "" (normalize name) (nonEmpty? s))
  | v =>
    if v.isTruthy then .error (.noPart v.kindName "replace")
    else pure (characterLine "" (normalize name) none)

def characterSection (p : Project) : Except Fault (List String) := do
  if p.characters.isTruthy then
    let ms ← p.characters.members "items"
    let entries ← (sortedMembers ms).mapM fun m => characterEntry m.1 m.2
    pure (["# Character Definitions\n"] ++ entries ++ ["\n"])
  else pure []

/-- Character blocks that the project does not define itself, each name once. The heading is only
written at the very top. -/
def characterBlockSection (p : Project) (before : List String) : Except Fault (List String) := do
  let (lines, done) ← (p.blocksOf .character).foldlM
    (fun ((lines, done) : List String × List String) b => do
      let ps ← b.paramList
      let name := param ps "name"
      if name.isEmpty then pure (lines, done)
      else if (← p.namesCharacter name) || done.contains name then pure (lines, done)
      else
        let heading :=
          if !p.characters.isTruthy && before.isEmpty && lines.isEmpty then
            ["# Character Definitions (from blocks)\n"]
          else []
        pure (lines ++ heading ++ [characterDefinition "" ps], done ++ [name]))
    ([], [])
  pure (if done.isEmpty then lines else lines ++ ["\n"])

/-- Whether one of the last five lines is a heading with a word. -/
def hasHeading (word : String) (lines : List String) : Bool :=
  (lines.drop (lines.length - 5)).any fun line =>
    Text.contains line "#" && Text.contains (Text.lower line) word

/-- Constants and default values, each name once, under headings that are not repeated at short
distance. Both kinds of blocks are told apart by their parameter `name`. -/
def variableSection (p : Project) (before : List String) : Except Fault (List String) := do
  let (lines, defined, defaulted) ←
    (p.blocks.filter fun b => b.kind == .define || b.kind == .defaultVar).foldlM
    (fun ((lines, defined, defaulted) : List String × List String × List String) b => do
      let ps ← b.paramList
      let name := param ps "name"
      let (word, key, heading, done) :=
        if b.kind = .define then ("define", "name", "# Define Statements\n", defined)
        else ("default", "variable", "# Default Statements\n", defaulted)
      if name.isEmpty || done.contains name then pure (lines, defined, defaulted)
      else
        let line := assignment word key "" ps
        let lines :=
          if line.isEmpty then lines
          else if hasHeading word lines then lines ++ [line]
          else lines ++ [heading, line]
        if b.kind = .define then pure (lines, defined ++ [name], defaulted)
        else pure (lines, defined, defaulted ++ [name]))
    (before, [], [])
  pure (if defined.isEmpty && defaulted.isEmpty then lines else lines ++ ["\n"])

/-- The lines of the definitions. -/
def definitionLines (p : Project) : Except Fault (List String) := do
  let images ← p.imageSection
  let characters ← p.characterSection
  let blocks ← p.characterBlockSection (images ++ characters)
  p.variableSection (images ++ characters ++ blocks)

def definitions (p : Project) : Except Fault String := do
  pure (Text.concat (← p.definitionLines))

/-- The names of all characters that occur, sorted: those of the project, speakers, pictures that
are shown or hidden, and character blocks. -/
def characterNames (p : Project) : Except Fault (List String) := do
  let ms ← p.characters.members "keys"
  let named ← p.blocks.foldlM
    (fun names b => do
      let key := match b.kind with
        | .say => some "who"
        | .showImage | .hideImage => some "character"
        | .character => some "name"
        | _ => none
      match key with
      | none => pure names
      | some key => pure (names ++ [param (← b.paramList) key]))
    (ms.map (·.1))
  let occurring := ms.map (·.1) ++ (named.drop ms.length).filter (!·.isEmpty)
  pure (Order.sortTexts occurring.eraseDups)

end Project
end NovelGraph
