import NovelGraph.Editor
import NovelGraph.Format.Template
import NovelGraph.Text.LowerCase

/-! The list of scenes: adding, removing, moving and choosing them. -/
namespace NovelGraph.Outline

/-- What the panel is made of. -/
def widgets : EditorM (List Widget) := do
  let title ← Editor.phrase "ui.scene_manager.title" "🎬 Сцены"
  let button (key text tip : String) : EditorM Widget := do
    let text ← Editor.phrase ("ui.scene_manager." ++ key) text
    pure (.button text (← Editor.phrase ("ui.scene_manager." ++ key ++ "_tooltip") tip))
  pure [.label title .null,
    ← button "create" "➕ Создать" "Создать новую сцену в проекте",
    ← button "delete" "➖ Удалить" "Удалить выбранную сцену из проекта",
    ← button "move_up" "⬆️" "Переместить сцену вверх (раньше в порядке генерации)",
    ← button "move_down" "⬇️" "Переместить сцену вниз (позже в порядке генерации)",
    .list []]

def row (s : Scene) : Row :=
  { text := s.name.display ++ "\n  (" ++ s.label.display ++ ")", sceneId := s.id }

/-- The list filled anew, with the current scene marked. -/
def refreshed (o : Outline) : Outline :=
  let rows := match o.project with
    | none => []
    | some p => p.scenes.map fun s =>
      { row s with selected := o.current.any fun c => s.id.equals c.id }
  { o with rows, currentRow := none }

def change (f : Outline → Outline) : EditorM Unit := modify fun e => { e with outline := f e.outline }

def setProject (p : Option Project) : EditorM Unit := change fun o => { o with project := p }.refreshed

def setCurrent (s : Option Scene) : EditorM Unit := change fun o => { o with current := s }.refreshed

/-- The id in the row that is current. -/
def chosen? (o : Outline) : Option Value :=
  (o.currentRow.bind (o.rows[·]?)).map (·.sceneId)

def warn (key title text : String) : EditorM Unit := do
  let title ← Editor.phrase ("ui.scene_manager." ++ key) title
  let text ← Editor.phrase ("ui.scene_manager." ++ key ++ "_text") text
  Editor.atDesk (Desk.note (.warning title text))

/-- Asks for a name and a label, and adds a scene with them. -/
def addScene : EditorM Unit := do
  match (← get).outline.project with
  | none => warn "no_project" "Нет проекта" "Сначала создайте проект."
  | some p =>
    let title ← Editor.phrase "ui.scene_manager.new_scene" "Новая сцена"
    let ask ← Editor.phrase "ui.scene_manager.scene_name" "Имя сцены:"
    match ← Editor.atDesk (Desk.askText title ask (.text s!"Scene_{p.scenes.length + 1}")) with
    | none | some "" => pure ()
    | some name =>
      let ask ← Editor.phrase "ui.scene_manager.scene_label" "Метка (label) для Ren'Py:"
      let preset := Text.replaceChar ' ' ['_'] (Text.lower name)
      match ← Editor.atDesk (Desk.askText title ask (.text preset)) with
      | none | some "" => pure ()
      | some label =>
        let id ← Editor.atDesk Desk.freshId
        let s ← Editor.adoptScene { id, name := .text name, label := .text label }
        Editor.putProject (p.addScene s)
        change refreshed
        let s := ((p.addScene s).findScene id).getD s
        change fun o => { o with current := some s }
        Editor.send .scenesModified
        Editor.send (.sceneSelected (some s))

/-- Fills the list after a removal and chooses the first scene. -/
def chooseFirst (p : Project) : EditorM Unit :=
  match p.scenes with
  | [] => change fun o => { o with rows := [], currentRow := none, current := none }
  | s :: _ => do
    change fun o =>
      let rows := p.scenes.map row
      { o with
        rows := updateFirst (·.sceneId.equals s.id) ({ · with selected := true }) rows
        currentRow := rows.findIdx? (·.sceneId.equals s.id)
        current := some s }
    Editor.send (.sceneSelected (some s))

/-- Removes the chosen scene if that is confirmed, but never the last one. -/
def deleteScene : EditorM Unit := do
  let o := (← get).outline
  match o.project, o.chosen? with
  | none, _ => pure ()
  | some _, none => warn "no_selection" "Нет выбора" "Выберите сцену для удаления."
  | some p, some id =>
    match p.findScene id with
    | none => pure ()
    | some s =>
      let title ← Editor.phrase "ui.scene_manager.delete_scene" "Удаление сцены"
      let template ← Editor.phrase "ui.scene_manager.delete_scene_confirm"
        "Вы уверены, что хотите удалить сцену '\x7bname\x7d'?"
      let text ← match template with
        | .text t => Editor.ofExcept (Template.fill [("name", s.name)] t)
        | v => throw (.noPart v.kindName "format")
      if ← Editor.atDesk (Desk.confirm title (.text text) false) then
        if p.scenes.length ≤ 1 then
          warn "cannot_delete_last" "Ошибка" "Нельзя удалить последнюю сцену в проекте."
        else
          let p := p.removeScene id
          Editor.putProject p
          if (p.findScene id).isSome then
            warn "delete_error" "Ошибка" "Не удалось удалить сцену."
          else chooseFirst p

/-- Tells that a scene was chosen, unless it is the current one. -/
def choose (id : Value) : EditorM Unit := do
  let o := (← get).outline
  match o.project.bind (·.findScene id) with
  | none => pure ()
  | some s =>
    if o.current.any fun c => c.id.equals s.id then pure ()
    else Editor.send (.sceneSelected (some s))

def doubleClick : EditorM Unit := do
  match (← get).outline.chosen? with
  | some id => choose id
  | none => throw (.noPart "NoneType" "data")

def selectionChanged : EditorM Unit := do
  let o := (← get).outline
  if !o.updating then
    match o.chosen? with
    | some id => choose id
    | none => pure ()

/-- Moves the chosen scene by one place, and keeps it chosen. -/
def moveScene (move : Project → Value → Option Project) : EditorM Unit := do
  let o := (← get).outline
  match o.project, o.chosen? with
  | some p, some id =>
    match move p id with
    | none => pure ()
    | some p =>
      Editor.putProject p
      change fun o =>
        let o := o.refreshed
        { o with currentRow := o.rows.findIdx? (·.sceneId.equals id) }
  | _, _ => pure ()

def moveUp : EditorM Unit := moveScene Project.moveSceneUp?

def moveDown : EditorM Unit := moveScene Project.moveSceneDown?

end NovelGraph.Outline
