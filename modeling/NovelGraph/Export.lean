import NovelGraph.Export.Assets
import NovelGraph.Export.Labels
import NovelGraph.Export.Relabel
import NovelGraph.Script.Whole

/-! Scripts put into the directory of a game. -/
namespace NovelGraph

namespace Export

def gameDirectory (directory : Path) : Path := directory.join "game"

def options (name : Value) : String :=
  "## Имя проекта\n" ++
  "define config.name = _(\"" ++ name.display ++ "\")\n\n" ++
  "## Версия проекта\n" ++
  "define config.version = \"1.0\"\n\n" ++
  "## Разрешение экрана\n" ++
  "define config.screen_width = 1920\n" ++
  "define config.screen_height = 1080\n\n" ++
  "## Полноэкранный режим (по умолчанию выключен)\n" ++
  "define config.fullscreen = False\n\n" ++
  "## Автосохранения\n" ++
  "define config.has_quicksave = True\n" ++
  "define config.has_autosave = True\n" ++
  "define config.autosave_frequency = 10\n\n" ++
  "## Звук\n" ++
  "define config.has_sound = True\n" ++
  "define config.has_music = True\n" ++
  "define config.has_voice = True\n\n" ++
  "## Пропуск текста\n" ++
  "define config.skip_delay = 0\n"

def gui : String :=
  "## GUI настройки\n" ++
  "## Эти настройки управляют внешним видом интерфейса игры.\n\n" ++
  "## Цвета\n" ++
  "define gui.accent_color = '#4A90E2'\n" ++
  "define gui.idle_color = '#888888'\n" ++
  "define gui.hover_color = '#4A90E2'\n" ++
  "define gui.selected_color = '#FFFFFF'\n" ++
  "define gui.insensitive_color = '#8888887f'\n\n" ++
  "## Размеры шрифтов\n" ++
  "define gui.text_size = 28\n" ++
  "define gui.name_text_size = 36\n" ++
  "define gui.interface_text_size = 28\n" ++
  "define gui.button_text_size = 28\n" ++
  "define gui.label_text_size = 36\n\n" ++
  "## Интерфейс\n" ++
  "define gui.textbox_height = 185\n" ++
  "define gui.textbox_yalign = 1.0\n"

/-- Writes a file that is not there yet. -/
def supply (file : Path) (content : String) : DiskM Unit := do
  if !(← get).exists? file then Disk.writeText file content

end Export

namespace Project

/-- Writes the script of the project into the game in a directory. -/
def writeScript (p : Project) (directory : Path) : DiskM Path := do
  let game := Export.gameDirectory directory
  Disk.makeDirectory game
  let script ← Disk.ask fun _ => p.script
  Disk.writeText (game.join "script.rpy") script
  pure (game.join "script.rpy")

/-- The project as it is exported to a game that has the given labels. -/
def prepared (p : Project) (taken : List String) : Except Fault Project := do
  (← (← p.locateAssets).shortenAssets).relabel taken

/-- Writes the project into a game. A new game also gets its settings. -/
def exportTo (p : Project) (directory : Path) : DiskM Unit := do
  let isOld := (← get).isGame directory
  let game := Export.gameDirectory directory
  Disk.makeDirectory game
  let script ← Disk.ask fun t => do
    (← p.prepared (if isOld then t.labels game else [])).script
  Disk.writeText (game.join "script.rpy") script
  if !isOld then
    Export.supply (game.join "options.rpy") (Export.options p.name)
    Export.supply (game.join "gui.rpy") Export.gui

end Project
end NovelGraph
