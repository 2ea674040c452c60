import NovelGraph.Editor.Form
import NovelGraph.Editor.Outline
import NovelGraph.Editor.Palette
import NovelGraph.Editor.Preferences
import NovelGraph.Editor.Preview
import NovelGraph.Editor.View

/-! The main window: what its buttons do, and what it does when its panels tell it something. -/
namespace NovelGraph.Window

def change (f : Window → Window) : EditorM Unit := modify fun e => { e with window := f e.window }

def note (n : Notice) : EditorM Unit := Editor.atDesk (Desk.note n)

def warn (title text : String) : EditorM Unit := note (.warning (.text title) (.text text))

def inform (title text : String) : EditorM Unit := note (.information (.text title) (.text text))

/-- Sets whether there is something to save. -/
def setModified (on : Bool) : EditorM Unit :=
  modify fun e =>
    { e with window := { e.window with modified := on, canSave := on && e.session.project.isSome } }

def markSaved : EditorM Unit := setModified false

def markModified : EditorM Unit := do
  if (← get).session.project.isSome then setModified true

def updateTitle : EditorM Unit := do
  let name := (← get).session.projectName
  change ({ · with title := .text ("RenPy Node Editor - " ++ name.display) })

/-- Makes the preview wait a little for further changes. -/
def schedule : EditorM Unit := do
  note (.event "timer_stop" [])
  note (.event "timer" [.int 300])

/-- Shows a scene of a project in all panels. -/
def showScene (p : Project) (s : Scene) : EditorM Unit := do
  Outline.setProject (some p)
  Outline.setCurrent (some s)
  View.showScene (some p) (some s)
  Preview.refresh
  updateTitle

/-- A project with one empty scene, which is not saved anywhere yet. -/
def startProject (name : Value) : EditorM Unit := do
  let id ← Editor.atDesk Desk.freshId
  let scene : Scene := { id, name := .text "Main Scene", label := .text "start" }
  let p ← Editor.adopt { name, scenes := [scene] }
  modify ({ · with session := { project := some p } })
  markSaved
  p.scenes.head?.forM (showScene p)

def newProject : EditorM Unit := do
  match ← Editor.atDesk (Desk.askText (.text "Имя проекта") (.text "Имя проекта:") (.text "")) with
  | none | some "" => pure ()
  | some name => startProject (.text name)

/-- Opens the project in a directory. One without scenes is opened too, but not shown. -/
def openProject : EditorM Unit := do
  let chosen ← Editor.atDesk (Desk.askDirectory
    (.text "Выбери папку существующего проекта (где лежит project.json)") (.text ""))
  if !chosen.isEmpty then
    match Session.openIn (← get).host.disk (Path.ofText chosen) with
    | .error (.projectMissing _) | .error (.file .noEntry _) =>
      warn "Ошибка" "В выбранной папке нет project.json"
    | .error f => throw f
    | .ok session =>
      Editor.enter session
      match (← get).session.project with
      | some { scenes := [], .. } | none => warn "Ошибка" "В проекте нет сцен."
      | some p =>
        p.scenes.head?.forM (showScene p)
        markSaved

def noProject : EditorM Unit := warn "Нет проекта" "Сначала создай или открой проект."

/-- Asks where a project is to be saved and under which name, and saves it there. -/
def saveAs (p : Project) : EditorM Bool := do
  let base ← Editor.atDesk
    (Desk.askDirectory (.text "Выбери папку для сохранения проекта") (.text ""))
  if base.isEmpty then pure false
  else
    match ← Editor.atDesk (Desk.askText (.text "Имя проекта") (.text "Имя проекта:") p.name) with
    | none | some "" => pure false
    | some name =>
      let p := { p with name := .text name }
      Editor.putProject p
      let directory := (Path.ofText base).join name
      let free := !(← get).host.disk.exists? directory
      let go ←
        if free then pure true
        else Editor.atDesk (Desk.confirm (.text "Папка существует")
          (.text s!"Папка {directory.text} уже существует. Перезаписать?") false)
      if go then
        Editor.onDisk (p.save directory)
        modify fun e => { e with session := { e.session with directory := some directory } }
        updateTitle
      pure go

def saveProject : EditorM Unit := do
  let s := (← get).session
  match s.project with
  | none => noProject
  | some p =>
    let done ←
      if s.directory.isNone then saveAs p
      else do
        Editor.onDisk s.save
        pure true
    if done then
      match (← get).session.directory with
      | some d =>
        inform "Сохранено"
          s!"Проект сохранён в:\n{d.text}\n\nФайл: {(d.join Project.fileName).text}"
      | none => inform "Сохранено" "Проект сохранён."
      markSaved

/-- Where an export is offered: beside the project, or in the home directory. -/
def exportPlace (e : Editor) : Path :=
  let near := match e.session.directory with
    | some d => d.parent
    | none => e.host.homeDirectory
  near.join (e.session.projectName.display ++ "_renpy")

/-- Asks before an export into a directory that is in use. -/
def confirmExport (chosen : String) (directory : Path) : EditorM Bool := do
  let t := (← get).host.disk
  let ask (title text : String) (default : Bool) : EditorM Bool :=
    Editor.atDesk (Desk.confirm (.text title) (.text text) default)
  if t.isGame directory then
    let title := "Экспорт в существующий проект"
    let opening := s!"Выбран существующий проект Ren'Py:\n{chosen}\n\n"
    if t.exists? ((Export.gameDirectory directory).join "script.rpy") then
      ask title (opening ++
        "⚠️ ВНИМАНИЕ: Файл script.rpy будет полностью заменен!\n" ++
        "Текущее содержимое script.rpy будет потеряно.\n\n" ++
        "✅ Будет создан новый script.rpy со сгенерированным кодом.\n" ++
        "✅ Другие файлы (options.rpy, gui.rpy и т.д.) не будут изменены.\n\n" ++
        "Продолжить?") false
    else
      ask title (opening ++ "Сгенерированный код будет сохранен в game/script.rpy.\n\n" ++
        "Продолжить?") true
  else if t.isFile directory then throw (.file .notDirectory directory.text)
  else if (t.names directory).isEmpty then pure true
  else
    ask "Папка не пуста"
      s!"Папка '{chosen}' не пуста.\nБудет создан новый проект Ren'Py.\n\nПродолжить?" false

def exportMessage (isOld : Bool) (directory : Path) : String :=
  let script := (Export.gameDirectory directory).join "script.rpy"
  if isOld then
    s!"Код успешно экспортирован в проект Ren'Py:\n{directory.text}\n\n" ++
    s!"✅ Файл script.rpy заменен:\n{script.text}\n\n" ++
    "✅ Создан новый script.rpy со сгенерированным кодом"
  else
    s!"Проект Ren'Py успешно создан в:\n{directory.text}\n\nСтруктура:\n  {directory.text}/\n" ++
    "    game/\n      script.rpy\n      options.rpy\n      gui.rpy"

def exportProject : EditorM Unit := do
  let e ← get
  if e.session.project.isNone then noProject
  else
    let chosen ← Editor.atDesk (Desk.askDirectory
      (.text "Экспорт в проект Ren'Py - выберите папку проекта") (.text (exportPlace e).text))
    if !chosen.isEmpty then
      let directory := Path.ofText chosen
      let isOld := e.host.disk.isGame directory
      if ← confirmExport chosen directory then
        try
          Editor.onDisk (e.session.exportTo directory)
          inform "Экспорт завершен" (exportMessage isOld directory)
        catch f =>
          note (.critical (.text "Ошибка экспорта")
            (.text s!"Не удалось экспортировать проект:\n{f.message}"))

/-- The sizes of the three main panels when the code is shown or hidden. -/
def sharedSizes (shown : Bool) (sizes : List Int) : List Int :=
  let width := sizes.foldr (· + ·) 0
  let total := if 0 < width then width else 1200
  let quarters := [total / 4, total * 2 / 4, total / 4]
  match shown, sizes with
  | true, [_, _] => quarters
  | true, 0 :: _ :: _ :: _ => quarters
  | false, code :: boxes :: palette :: _ => [0, boxes + code / 2, palette + code / 2]
  | _, sizes => sizes

/-- Shows or hides the code. -/
def toggleCode (on : Bool) : EditorM Unit := do
  change ({ · with codeShown := on })
  match (← get).window.mainSizes with
  | .list vs =>
    let sizes := vs.filterMap fun v => match v with
      | .int n => some n
      | _ => none
    change ({ · with mainSizes := .list ((sharedSizes on sizes).map .int) })
  | v => discard (Editor.ofExcept v.size)

/-- Enters the character that a block defines among those of the project. -/
def enterCharacter (b : Block) : EditorM Unit := do
  let ps ← Editor.ofExcept (b.params.members "get")
  let name := Script.param ps "name"
  match (← get).session.project with
  | none => pure ()
  | some p =>
    if !name.isEmpty then
      let characters ← Editor.ofExcept (p.characters.members "get")
      let known := match Value.lookup characters name with
        | some (.object ms) => ms
        | _ => []
      let entered := Value.assign known "display_name" (.text (Script.param ps "display_name"))
      Editor.putProject { p with characters := .object (Value.assign characters name (.object entered)) }

/-- Shows the text of the newest box of a block anew, or of the one before if that has no text. -/
def refreshNewest : List Box → EditorM Unit
  | [] => pure ()
  | b :: rest =>
    try Editor.onCanvas (Canvas.refreshBox b.number)
    catch
      | .noPart _ _ | .notRunnable _ => refreshNewest rest
      | f => throw f

/-- What follows when the parameters of a block have been saved. -/
def propertiesSaved (b : Option Block) : EditorM Unit := do
  match b with
  | none => pure ()
  | some b =>
    if b.kind = .character then enterCharacter b
    markModified
    let c := (← get).canvas
    if !c.loading && c.scene.any (fun s => (s.findBlock b.id).isSome) then
      refreshNewest (c.boxes.reverse.filter fun x => x.block.id.equals b.id)

/-- Shows another scene of the open project. -/
def selectScene (s : Option Scene) : EditorM Unit := do
  let e ← get
  match e.session.project, s with
  | none, _ => pure ()
  | some _, none => throw (.noPart "NoneType" "id")
  | some p, some s =>
    match p.findScene s.id with
    | none => pure ()
    | some s =>
      if e.canvas.scene.any fun t => t.id.equals s.id then pure ()
      else showScene p s

def openPreferences : EditorM Unit := do
  discard Preferences.openDialog
  note (.event "exec" [.text "SettingsDialog"])

/-- Shows the window in another language. -/
def changeLanguage : EditorM Unit := do
  Editor.atHost Wording.reload
  let title ← Editor.phrase "ui.main_window.title" "RenPy Node Editor"
  change ({ · with title })

/-- What the window does when one of its panels tells something, one thing after the other. -/
def responses : Signal → List (EditorM Unit)
  | .projectModified | .scenesModified => [markModified, schedule]
  | .propertiesSaved b => [propertiesSaved (some b), markModified, schedule]
  | .selectionChanged b => [Form.setBlock b]
  | .sceneSelected s => [selectScene s]
  | .languageChanged _ => [changeLanguage]

/-- A thing that fails does not keep the window from doing the others. -/
def receive (s : Signal) : EditorM Unit :=
  (responses s).forM fun work => try work catch _ => pure ()

/-- Whether saved sizes are three that pass a test. -/
def areSizes (test : Value → Except Fault Bool) (v : Value) : Except Fault Bool := do
  if !v.isTruthy then pure false
  else if (← v.size) = 3 then (← v.iterate).allM test
  else pure false

def isPositive (v : Value) : Except Fault Bool := Value.lessThan (.int 0) v

def isNatural (v : Value) : Except Fault Bool := do
  pure ((← isPositive v) || v.equals (.int 0))

def stretch (factors : List Nat) : EditorM Unit :=
  factors.zipIdx.forM fun f => note (.event "stretch" [.int f.2, .int f.1])

/-- A share of a width, in tenths. -/
def share (width : Int) (tenths : Nat) : Int :=
  (((Double.ofInt? width).bind fun w =>
    (w.mul (Double.ofRatio false tenths 10)).truncate?)).getD 0

/-- Gives the panels the sizes in the settings, or the usual ones. -/
def loadSizes : EditorM Unit := do
  let main ← Editor.atHost (Host.splitterSizes "main")
  if ← Editor.ofExcept (areSizes isNatural main) then change ({ · with mainSizes := main })
  else
    stretch [0, 3, 2]
    let w := (← get).window.geometry.width
    let w := if 0 < w then w else 1400
    change ({ · with mainSizes := .list [.int 0, .int (share w 6), .int (share w 4)] })
  let right ← Editor.atHost (Host.splitterSizes "right")
  if ← Editor.ofExcept (areSizes isPositive right) then change ({ · with rightSizes := right })
  else stretch [1, 2, 2]

/-- Keeps the sizes of a group of panels in the settings, if there are three. -/
def keepSizes (name : String) (sizes : Value) : EditorM Unit := do
  if sizes.isTruthy then
    if (← Editor.ofExcept sizes.size) = 3 then Editor.atHost (Host.saveSplitterSizes name sizes)

def panelMoved (name : String) : EditorM Unit := do
  let w := (← get).window
  match name with
  | "main" => keepSizes name w.mainSizes
  | "right" => keepSizes name w.rightSizes
  | _ => pure ()

/-- Takes size and place from the settings; without a place the window is centred. -/
def loadGeometry : EditorM Unit := do
  let settings ← Editor.atHost Host.settings
  let stored (key : String) (default : Value) : Value := (Value.lookup settings key).getD default
  let place := match stored "window_x" .null, stored "window_y" .null with
    | .null, _ | _, .null => none
    | x, y => some (x, y)
  change fun w =>
    { w with
      maximize := stored "window_maximized" (.bool false)
      size := (stored "window_width" (.int 1400), stored "window_height" (.int 800))
      place }

/-- What is kept of the geometry. The size of a window that fills the screen is not. -/
def Geometry.settings (g : Geometry) : Members :=
  ("window_maximized", .bool g.maximized) ::
    if g.maximized then []
    else [("window_width", .int g.width), ("window_height", .int g.height),
      ("window_x", .int g.x), ("window_y", .int g.y)]

def close : EditorM Unit := do
  let settings ← Editor.atHost Host.settings
  let g := (← get).window.geometry
  let settings := (Geometry.settings g).foldl (fun ms m => Value.assign ms m.1 m.2) settings
  Editor.atHost (Host.saveSettings (.object settings))
  panelMoved "main"
  panelMoved "right"

/-- The first time that it is shown, the window fills the screen if it did so when it was closed. -/
def appear : EditorM Unit := do
  if (← get).window.maximize.isTruthy then
    change ({ · with maximize := .bool false })
    note (.event "singleShot" [.int 10])

/-- The buttons of the window, in the order in which they are made. -/
def buttons : EditorM (List Widget) := do
  let button (key text tip : String) : EditorM Widget := do
    let text ← Editor.phrase ("ui.main_window." ++ key) text
    pure (.button text (← Editor.phrase ("ui.main_window." ++ key ++ "_tooltip") tip))
  let own := [← button "new_project" "📁 Новый проект" "Создать новый проект визуальной новеллы",
    ← button "open_project" "📂 Открыть" "Открыть существующий проект",
    ← button "save_project" "💾 Сохранить" "Сохранить текущий проект",
    ← button "export_project" "📤 Экспорт в Ren'Py"
      "Экспортировать проект в готовый проект Ren'Py (папку)",
    ← button "center_view" "🎯 Центр" "Вернуться в центр рабочей области (0, 0)",
    ← button "settings" "⚙️ Настройки" "Открыть настройки редактора",
    ← button "code_preview" "📄 Код" "Показать/скрыть панель предпросмотра кода"]
  discard Preview.title
  let outline ← Outline.widgets
  discard (Editor.phrase "ui.main_window.blocks" "📦 Блоки")
  discard Palette.rows
  pure (own ++ outline.filter fun w => match w with
    | .button _ _ => true
    | _ => false)

/-- Opens the window with a new project; gives its buttons. -/
def start : EditorM (List Widget) := do
  let title ← Editor.phrase "ui.main_window.title" "RenPy Node Editor"
  change ({ · with title })
  loadGeometry
  let widgets ← buttons
  loadSizes
  startProject (.text "New Project")
  updateTitle
  loadSizes
  note (.event "singleShot" [.int 100])
  pure widgets

end NovelGraph.Window
