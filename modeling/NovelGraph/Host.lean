import NovelGraph.Settings

/-! What the program has around it, and its settings there. -/
namespace NovelGraph

/-- The files, where the program keeps its own, how deep lists and objects may be nested in its
settings and words, the words of its languages, and what it has printed. -/
structure Host where
  disk : Tree := {}
  limit : Option Nat := some 990
  settingsFile : Path
  wordDirectory : Path
  homeDirectory : Path
  words : Members := []
  language : Value := .text "en"
  printed : String := ""

/-- Work that can fail; what was done before a failure stays done. -/
abbrev HostM := EStateM Fault Host

namespace Host

def onDisk {α : Type} (work : DiskM α) : HostM α := fun h =>
  match work h.disk with
  | .ok a t => .ok a { h with disk := t }
  | .error e t => .error e { h with disk := t }

def ofExcept {α : Type} : Except Fault α → HostM α
  | .ok a => pure a
  | .error e => throw e

def settings : HostM Members := fun h =>
  match Settings.load h.limit h.settingsFile h.disk with
  | .ok (ms, t, printed) => .ok ms { h with disk := t, printed := h.printed ++ printed }
  | .error e => .error e h

def saveSettings (v : Value) : HostM Unit :=
  modify fun h =>
    let (t, printed) := Settings.save h.settingsFile v h.disk
    { h with disk := t, printed := h.printed ++ printed }

/-- One setting. -/
def setting (key : String) (default : Value) : HostM Value := do
  pure ((Value.lookup (← settings) key).getD default)

def splitterKey (name : String) : String := s!"splitter_sizes_{name}"

def splitterSizes (name : String) : HostM Value := setting (splitterKey name) .null

def saveSplitterSizes (name : String) (sizes : Value) : HostM Unit := do
  saveSettings (.object (Value.assign (← settings) (splitterKey name) sizes))

/-- Where the settings say that the development kit is. -/
def kitPath : HostM (Option Path) := do
  let v ← setting "renpy_sdk_path" .null
  if v.isTruthy then
    match v with
    | .text s => pure (some (Path.ofText s))
    | v => throw (.notAPath v)
  else pure none

end Host
end NovelGraph
