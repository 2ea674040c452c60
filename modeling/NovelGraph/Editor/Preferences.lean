import NovelGraph.Editor

/-! The dialog for the settings. -/
namespace NovelGraph

/-- What the dialog shows, and the settings as they were when it was opened. -/
structure Preferences where
  title : Value
  cancel : Value
  accept : Value
  settings : Members
  showGrid : Value
  gridSize : Value
  showTooltips : Value
  centreOnLoad : Value
  language : String

namespace Preferences

def languages : List (String × String) := [("English", "en"), ("Русский", "ru")]

/-- The name of the language with a code; it is empty if there is none. -/
def languageName (code : Value) : String :=
  ((languages.find? fun l => code.equals (.text l.2)).map (·.1)).getD ""

def languageCode? (name : String) : Option Value := (languages.lookup name).map .text

def storedLanguage (settings : Members) : Value :=
  (Value.lookup settings "language").getD (.text Wording.defaultLanguage)

def openDialog : EditorM Preferences := do
  let title ← Editor.phrase "ui.settings.title" "Настройки редактора"
  let settings ← Editor.atHost Host.settings
  let display ← Editor.phrase "ui.settings.tab.display" "Отображение"
  Editor.atDesk (Desk.note (.event "tab" [display]))
  let language ← Editor.phrase "ui.settings.tab.language" "Язык"
  Editor.atDesk (Desk.note (.event "tab" [language]))
  let cancel ← Editor.phrase "ui.settings.cancel" "Отмена"
  let accept ← Editor.phrase "ui.settings.ok" "OK"
  let stored (key : String) (default : Value) : Value := (Value.lookup settings key).getD default
  pure
    { title, cancel, accept, settings
      showGrid := stored "show_grid" (.bool true)
      gridSize := stored "grid_size" (.int 20)
      showTooltips := stored "show_tooltips" (.bool true)
      centreOnLoad := stored "auto_center_on_load" (.bool false)
      language := languageName (storedLanguage settings) }

def widgets (p : Preferences) : List Widget :=
  [.check "Показывать сетку на рабочей области" p.showGrid .null,
    .check "Показывать подсказки при наведении" p.showTooltips .null,
    .check "Автоматически центрировать при загрузке проекта" p.centreOnLoad .null,
    .combo (languages.map fun l => (.text l.1, .null)) p.language .null,
    .button p.cancel .null, .button p.accept .null]

/-- The code of the chosen language, or the one that was stored. -/
def chosenLanguage (p : Preferences) : Value :=
  (languageCode? p.language).getD (storedLanguage p.settings)

/-- The settings with what the dialog shows. -/
def result (p : Preferences) : Members :=
  [("show_grid", p.showGrid), ("grid_size", p.gridSize), ("show_tooltips", p.showTooltips),
    ("auto_center_on_load", p.centreOnLoad), ("language", p.chosenLanguage)].foldl
    (fun ms m => Value.assign ms m.1 m.2) p.settings

/-- Saves the settings and tells if the language has changed. -/
def save (p : Preferences) : EditorM Unit := do
  let language := p.chosenLanguage
  Editor.atHost (Wording.setLanguage language)
  Editor.atHost Wording.reload
  if !language.equals (storedLanguage p.settings) then Editor.send (.languageChanged language)
  Editor.atHost (Host.saveSettings (.object p.result))
  Editor.atDesk do
    Desk.note (.information (.text "Настройки сохранены") (.text
      "Настройки успешно сохранены.\n\nНекоторые изменения могут потребовать перезапуска редактора."))
    Desk.note (.event "accept" [])

end Preferences
end NovelGraph
