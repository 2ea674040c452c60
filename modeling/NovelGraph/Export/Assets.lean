import NovelGraph.Disk.Path
import NovelGraph.Story.Document
import NovelGraph.Text.LowerCase

/-! The names under which an exported game finds its pictures and sounds. -/
namespace NovelGraph

namespace Asset

def marker : String := "/game/"

/-- What follows the marker of the game directory, which is found in any letter case. -/
def belowGame? (v : Value) : Option String :=
  let shown := (Text.replaceChar '\\' ['/'] v.display).toList
  (Text.find? marker.toList (Text.lower (String.ofList shown)).toList).map fun place =>
    String.ofList ((shown.drop (place + marker.length)).dropWhile (· == '/'))

/-- The name of an asset seen from the game directory; one from elsewhere goes to a folder. -/
def name (folder : String) (v : Value) : Except Fault String :=
  match belowGame? v with
  | some below => .ok below
  | none =>
    match v with
    | .text s => .ok (folder ++ "/" ++ (Path.ofText s).name)
    | v => .error (.notAPath v)

/-- The parameter that names the asset of a block, and the folder for such assets. -/
def slot? : BlockKind → Option (String × String)
  | .image => some ("path", "images")
  | .sound | .queueSound => some ("sound_file", "audio")
  | .music | .queueMusic => some ("music_file", "audio")
  | .voice => some ("voice_file", "audio")
  | _ => none

/-- All parameters of a block that may name assets. -/
def keys : BlockKind → List String
  | .image => ["path"]
  | .sound | .queueSound | .music | .queueMusic | .voice =>
    ["sound_file", "music_file", "voice_file"]
  | _ => []

end Asset

namespace Block

def locateAsset (b : Block) : Except Fault Block :=
  match Asset.slot? b.kind with
  | none => .ok b
  | some (key, folder) => do
    let ms ← b.params.members "get"
    match Value.lookup ms key with
    | none => pure b
    | some v =>
      if v.isTruthy then
        pure { b with params := .object (Value.assign ms key (.text (← Asset.name folder v))) }
      else pure b

/-- Shortens every parameter that still leads through the game directory. -/
def shortenAssets (b : Block) : Except Fault Block :=
  if (Asset.keys b.kind).isEmpty then .ok b
  else do
    let ms ← b.params.members "get"
    let ms := (Asset.keys b.kind).foldl (fun ms key =>
      match Value.lookup ms key with
      | none => ms
      | some v =>
        if v.isTruthy then
          match Asset.belowGame? v with
          | some below => Value.assign ms key (.text below)
          | none => ms
        else ms) ms
    pure { b with params := .object ms }

end Block

namespace Project

/-- Changes every block, scene after scene. -/
def mapBlocks (p : Project) (f : Block → Except Fault Block) : Except Fault Project := do
  let scenes ← p.scenes.mapM fun s => do pure { s with blocks := ← s.blocks.mapM f }
  pure { p with scenes }

def locateAssets (p : Project) : Except Fault Project := p.mapBlocks Block.locateAsset

def shortenAssets (p : Project) : Except Fault Project := p.mapBlocks Block.shortenAssets

end Project
end NovelGraph
