import NovelGraph.Story.File

/-! The settings file, which is made anew when it cannot be read, unless what stands in it is nested
too deep. -/
namespace NovelGraph

abbrev Members := List (String × Value)

namespace Settings

def fileName : String := "editor_config.json"

def default : Members :=
  [("window_width", .int 1400), ("window_height", .int 800), ("window_x", .null),
    ("window_y", .null), ("window_maximized", .bool false),
    ("splitter_sizes_main", .list [.int 0, .int 840, .int 560]),
    ("splitter_sizes_right", .list [.int 200, .int 300, .int 300]),
    ("preview_panel_visible", .bool false), ("language", .text "en"), ("show_grid", .bool true),
    ("grid_size", .int 20), ("show_tooltips", .bool true), ("auto_center_on_load", .bool true)]

/-- The file that is written before it takes the place of the settings. -/
def draft (file : Path) : Path := file.withSuffix ".tmp"

/-- Saving as steps on the file tree: the directory, the draft, the removal of the old file, and the
draft under its final name. -/
def saveSteps (file : Path) (settings : Value) : List (Tree → Except Fault Tree) :=
  [fun t => t.makeDirectory file.parent,
    fun t => t.writeText (draft file) (Json.write settings),
    fun t => if t.exists? file then t.unlink file else .ok t,
    fun t => t.rename (draft file) file]

/-- Takes steps up to the first that fails. -/
def runSteps : List (Tree → Except Fault Tree) → Tree → Tree × Option Fault
  | [], t => (t, none)
  | step :: rest, t =>
    match step t with
    | .ok t => runSteps rest t
    | .error e => (t, some e)

/-- Saves settings; gives the tree and what is printed. -/
def save (file : Path) (settings : Value) (t : Tree) : Tree × String :=
  match runSteps (saveSteps file settings) t with
  | (t, none) => (t, "")
  | (t, some e) => (t, s!"Error saving config file: {e.message}\n")

def read (limit : Option Nat) (file : Path) (t : Tree) : Except Fault Members := do
  match ← Json.parseWithin limit (← t.readText file) with
  | .object ms => pure ms
  | _ => .error (.invalid "Settings file is not a valid dictionary")

/-- Whether a fault says that the file is damaged: there is no such file, its bytes are no text, its
text denotes no value, or the value is not what it should be. -/
def isDamage : Fault → Bool
  | .file _ _ | .notUtf8 _ | .invalid _ => true
  | .unreadable _ e => !e.isTooDeep
  | _ => false

/-- Loads the settings; gives them, the tree and what is printed. Damaged settings are made anew;
after any other fault nothing has changed. -/
def load (limit : Option Nat) (file : Path) (t : Tree) : Except Fault (Members × Tree × String) :=
  if t.exists? file then
    match read limit file t with
    | .ok ms => .ok (ms, t, "")
    | .error e =>
      if isDamage e then
        let (t, printed) := save file (.object default) t
        .ok (default, t,
          s!"Warning: Config file is corrupted ({e.message}). Creating a new one.\n" ++ printed)
      else .error e
  else
    let (t, printed) := save file (.object default) t
    .ok (default, t, printed)

end Settings
end NovelGraph
