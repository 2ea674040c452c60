import NovelGraph.Editor
import NovelGraph.Editor.Form.Offers
import NovelGraph.Editor.Hint
import NovelGraph.Text.LowerCase

/-! The form for the parameters of a block. -/
namespace NovelGraph.Form

def change (f : Form → Form) : EditorM Unit := modify fun e => { e with form := f e.form }

def make (w : Widget) : EditorM Unit := change fun f => { f with made := f.made ++ [w] }

/-- Enters a field under its key. -/
def enter (field : Field) : EditorM Unit :=
  change fun f =>
    { f with
      fields :=
        if f.fields.any (·.key == field.key) then
          f.fields.map fun g => if g.key == field.key then field else g
        else f.fields ++ [field]
      button := f.button.map (·.retire field.key) }

def field? (f : Form) (key : String) : Option Field := f.fields.find? (·.key == key)

/-- A parameter of the block in the form. -/
def value (key : String) (default : Value) : EditorM Value := do
  match (← get).form.block with
  | none => pure default
  | some b => do pure ((Value.lookup (← Editor.ofExcept (b.params.members "get")) key).getD default)

/-- A label, and the hint for the parameter that it names. -/
def addLabel (key label : String) : EditorM Value := do
  let tip ← Editor.atHost (Hint.parameter key)
  make (.label (.text label) tip)
  pure tip

def addField (field : Field) : EditorM Unit := do
  make field.widget
  enter field

def addLine (key label default : String) : EditorM Unit := do
  let tip ← addLabel key label
  let v ← value key (.text default)
  addField { key, widget := .line v.display tip, trigger := .onFinish }

def addArea (key label : String) : EditorM Unit := do
  let tip ← addLabel key label
  let v ← value key (.text "")
  addField { key, widget := .area v.display tip }

/-- Whether a parameter says yes. -/
def saysYes : Value → Bool
  | .text s => ["true", "1", "yes", "on"].contains (Text.lower s)
  | v => v.isTruthy

def addCheck (key label : String) (default : Bool) : EditorM Unit := do
  let v ← value key (.bool default)
  let tip ← Editor.atHost (Hint.parameter key)
  addField { key, widget := .check label (.bool (saysYes v)) tip, trigger := .onChange }

/-- A field with suggestions, of which the first is empty. -/
def addCombo (key label default : String) (offers : EditorM (List (Value × Value)))
    (trigger : Trigger) (explains : Bool) : EditorM Unit := do
  let tip ← addLabel key label
  let items := (.text "", .null) :: (← offers)
  let v ← value key (.text default)
  let current := if v.isTruthy then v.display else ""
  addField { key, widget := .combo items current tip, trigger, hint := tip, explains }

def plain (names : List String) : List (Value × Value) := names.map fun s => (.text s, .null)

/-- Names under a heading, if there are any. -/
def headed (heading : String) (names : List String) : List String :=
  if names.isEmpty then [] else heading :: names

/-- Something that the open project offers. -/
def offered {α : Type} (ask : Project → Except Fault (List α)) : EditorM (List α) := do
  match (← get).session.project with
  | none => pure []
  | some p => Editor.ofExcept (ask p)

/-- What is shown about a suggestion for a parameter. -/
def explanation (key option : String) : HostM Value :=
  match key with
  | "with_transition" | "transition" => Hint.transition option
  | "at" => Hint.position option
  | "layer" => Hint.layer option
  | "background" => Hint.background option
  | _ => pure (.text option)

def addOptions (key label : String) (options : List String) (default : String) : EditorM Unit :=
  addCombo key label default
    (options.mapM fun o => do pure (.text o, ← Editor.atHost (explanation key o))) .onChange true

def addTransition (key label default : String) : EditorM Unit :=
  addOptions key label (Hint.transitions.map (·.1)) default

def addPosition : EditorM Unit :=
  addOptions "at" "Позиция (опционально):" (Hint.positions.map (·.1)) ""

def addLayer : EditorM Unit :=
  addOptions "layer" "Слой (опционально):" (Hint.layers.map (·.1)) ""

def addScreenTransition : EditorM Unit := addTransition "transition" "Переход (опционально):" ""

def addCharacter (key label : String) : EditorM Unit :=
  addCombo key label "" (do pure (plain (← offered Project.offeredCharacters))) .onChange false

def addPicture (key label : String) : EditorM Unit :=
  addCombo key label ""
    (do
      let characters ← offered Project.offeredCharacters
      let images ← offered Project.imageNames
      pure (plain (headed "--- Персонажи ---" characters ++ headed "--- Изображения ---" images)))
    .onChange false

/-- The labels of the project. This field is only taken over when the form is saved. -/
def addTarget (key label : String) : EditorM Unit :=
  addCombo key label ""
    (do pure ((← offered Project.offeredLabels).map fun v => (v, .null))) .onSave false

def addButton (button : Button) (tip : String) : EditorM Unit := do
  make (.button (.text "📁") (.text tip))
  change ({ · with button := some button })

def anyFile : String := "Все файлы (*.*)"

def audioFiles : String := "Аудио файлы (*.ogg *.mp3 *.wav *.opus);;" ++ anyFile

def imageFiles : String := "Изображения (*.png *.jpg *.jpeg *.webp *.gif);;" ++ anyFile

def addAudio (key label : String) : EditorM Unit := do
  addCombo key label "" (do pure (plain (← offered Project.offeredAudio))) .onChange false
  addButton (.chooseFile (some key) ("Выбрать аудио файл для " ++ label) audioFiles) "Выбрать файл"

def addFile (key label default kind : String) : EditorM Unit := do
  addLine key label default
  let filters := match kind with
    | "audio" => audioFiles
    | "image" => imageFiles
    | _ => anyFile
  addButton (.chooseFile (some key) ("Выбрать файл для " ++ label) filters) "Выбрать файл"

def addBackground (key label default : String) : EditorM Unit := do
  let offers : EditorM (List (Value × Value)) := do
    let images ← offered Project.imageNames
    let names := Hint.backgrounds.map (·.1) ++ headed "--- Определенные изображения ---" images
    names.mapM fun s => do
      if s.isEmpty || Text.startsWith s "---" then pure (.text s, .null)
      else pure (.text s, ← Editor.atHost (Hint.background s))
  addCombo key label default offers .onChange true
  addButton (.chooseBackground (some key) ("Выбрать изображение для " ++ label) imageFiles)
    "Выбрать файл изображения"

/-- How a choice of a menu is listed. -/
def choiceLine (text jump condition : Value) : String :=
  text.display ++ (if jump.isTruthy then " → " ++ jump.display else "") ++
    (if condition.isTruthy then " [if " ++ condition.display ++ "]" else "")

/-- The text, the target and the condition of a choice. -/
def choiceParts : Value → Value × Value × Value
  | .object ms =>
    let part (key : String) := (Value.lookup ms key).getD (.text "")
    (part "text", part "jump", part "condition")
  | v => (.text v.display, .text "", .text "")

def choiceRow (v : Value) : String :=
  let (text, jump, condition) := choiceParts v
  choiceLine text jump condition

/-- The choices of a menu block. They can also be written as a text that holds a list. -/
def readChoices (v : Option Value) : Choices :=
  match v with
  | some (.list vs) => { data := .list vs, shared := true }
  | some (.text s) => { data := ((Json.read s).toOption).getD (.list []) }
  | _ => { data := .list [] }

def addChoices : EditorM Unit := do
  make (.label (.text "Варианты меню:") (.text
    "Список вариантов выбора для меню. Каждый вариант может иметь текст, переход и условие."))
  let stored ← match (← get).form.block with
    | none => pure none
    | some b => do pure (Value.lookup (← Editor.ofExcept (b.params.members "get")) "choices")
  let choices := readChoices stored
  let rows := (← Editor.ofExcept choices.data.iterate).map choiceRow
  make (.list rows)
  enter { key := "_choices_list", widget := .list rows }
  enter { key := "_choices_data", widget := .list [] }
  change ({ · with choices := some { choices with rows } })
  make (.button (.text "➕ Добавить") .null)
  make (.button (.text "✏️ Изменить") .null)
  make (.button (.text "➖ Удалить") .null)
  change ({ · with button := some .removeChoice })

def fadeIn : EditorM Unit := addLine "fadein" "Fade in (сек, опционально):" ""

def fadeOut : EditorM Unit := addLine "fadeout" "Fade out (сек, опционально):" ""

def loop (default : Bool) : EditorM Unit := addCheck "loop" "Зациклить" default

def textLine : EditorM Unit := addLine "text" "Текст:" ""

/-- The fields for a kind of block. -/
def addFields : BlockKind → EditorM Unit
  | .say => do
    addCharacter "who" "Персонаж:"
    textLine
    addLine "expression" "Выражение (опционально):" ""
    addPosition
    addTransition "with_transition" "Переход (опционально):" ""
  | .narration => do
    textLine
    addTransition "with_transition" "Переход (опционально):" ""
  | .menu => do
    addLine "question" "Вопрос:" ""
    addChoices
  | .ifElse => addLine "condition" "Условие:" "variable == True"
  | .whileLoop => addLine "condition" "Условие:" "True"
  | .forLoop => do
    addLine "variable" "Переменная:" "i"
    addLine "iterable" "Итерируемый объект:" "[1, 2, 3]"
  | .jump => addTarget "target" "Переход на метку (акт):"
  | .call => addTarget "label" "Вызов метки (акт):"
  | .pause => addLine "duration" "Длительность (сек):" "1.0"
  | .transition | .withEffect => addTransition "transition" "Название перехода:" "dissolve"
  | .sound => do
    addAudio "sound_file" "Файл звука:"
    fadeIn
    fadeOut
    loop false
  | .music => do
    addAudio "music_file" "Файл музыки:"
    fadeIn
    fadeOut
    loop true
  | .stopMusic | .stopSound => fadeOut
  | .queueMusic => do
    addAudio "music_file" "Файл музыки:"
    fadeIn
    loop false
  | .queueSound => do
    addAudio "sound_file" "Файл звука:"
    fadeIn
  | .setVar => do
    addLine "variable" "Имя переменной:" ""
    addLine "value" "Значение:" ""
  | .defaultVar => do
    addLine "variable" "Имя переменной:" ""
    addLine "value" "Значение по умолчанию:" ""
  | .define => do
    addLine "name" "Имя константы:" ""
    addLine "value" "Значение:" ""
  | .code => addArea "code" "Python код:"
  | .character => do
    addLine "name" "Имя персонажа:" ""
    addLine "display_name" "Отображаемое имя:" ""
  | .image => do
    addLine "name" "Имя изображения:" ""
    addFile "path" "Путь к файлу:" "" "image"
  | .label => addLine "label" "Имя метки:" ""
  | .start => addLine "label" "Имя метки (label):" ""
  | .scene => do
    addBackground "background" "Фон:" "black"
    addLayer
    addScreenTransition
  | .showImage => do
    addPicture "character" "Персонаж/Изображение:"
    addLine "expression" "Выражение (опционально):" ""
    addPosition
    addLine "behind" "Behind (опционально):" ""
    addLine "zorder" "Z-order (опционально):" ""
    addLayer
    addScreenTransition
  | .hideImage => do
    addPicture "character" "Персонаж/Изображение:"
    addLayer
    addScreenTransition
  | .voice => addAudio "voice_file" "Файл голоса:"
  | .center => textLine
  | .screenText => do
    textLine
    addLine "xpos" "X позиция (опционально):" ""
    addLine "ypos" "Y позиция (опционально):" ""
  | .returnFrom | .elseIf | .otherwise | .style | .extendLine | .interject => pure ()

/-- Shows the form for a block. -/
def setBlock (b : Option Block) : EditorM Unit := do
  change fun f =>
    { f with
      block := b
      fields := []
      choices := none
      formerRow := (f.choices.map (·.currentRow)).getD f.formerRow }
  match b with
  | none => pure ()
  | some b => addFields b.kind

/-- Sets a parameter of the block in the form. -/
def assign (key : String) (v : Value) : EditorM Unit := do
  match (← get).form.block with
  | none => pure ()
  | some b =>
    match b.params with
    | .object ms =>
      Editor.putBlock { b with params := .object (Value.assign ms key v) }
      if key == "choices" then
        change fun f => { f with choices := f.choices.map ({ · with shared := false }) }
    | w => throw (.wrongKind s!"'{w.kindName}' object does not support item assignment")

def announce : EditorM Unit := do
  match (← get).form.block with
  | some b => Editor.send (.propertiesSaved b)
  | none => pure ()

/-- Takes over one parameter. -/
def saveParam (key : String) (v : Value) : EditorM Unit := do
  if (← get).form.block.isSome then
    assign key v
    announce

def fieldValue : Widget → Option Value
  | .line s _ | .area s _ => some (.text s)
  | .check _ on _ => some on
  | .combo _ s _ => some (.text (Text.strip s))
  | _ => none

/-- Takes over all fields. From then on the choices of the form are those of the block. -/
def save : EditorM Unit := do
  let f := (← get).form
  if f.block.isSome then
    f.fields.forM fun g =>
      match fieldValue g.widget with
      | some v => if Text.startsWith g.key "_" then pure () else assign g.key v
      | none => pure ()
    match f.choices with
    | some c =>
      assign "choices" c.data
      change ({ · with choices := some { c with shared := true } })
    | none => pure ()
    announce

def changeField (key : String) (f : Widget → Widget) : EditorM Unit :=
  change fun form =>
    { form with
      fields := form.fields.map fun g => if g.key == key then { g with widget := f g.widget } else g }

/-- Writes into a field. -/
def type (key text : String) : EditorM Unit := do
  changeField key (·.setText text)
  match (← get).form.field? key with
  | some { trigger := .onChange, .. } => saveParam key (.text (Text.strip text))
  | some { trigger := .onFinish, .. } => saveParam key (.text text)
  | _ => pure ()

def tick (key : String) (on : Bool) : EditorM Unit := do
  changeField key fun w => match w with
    | .check label _ tip => .check label (.bool on) tip
    | w => w
  saveParam key (.bool on)

/-- Looks at a suggestion: the field then shows what there is to say about it. -/
def hover (key : String) (index : Nat) : EditorM Unit := do
  match (← get).form.field? key with
  | some { widget := .combo items _ _, explains := true, hint, .. } =>
    let about := ((items[index]?).map (·.2)).getD .null
    changeField key (·.setTip (if about.isTruthy then .text about.display else hint))
  | _ => pure ()

def replaceChoices (data : Value) (rows : List String) (currentRow : Option Nat) : EditorM Unit := do
  match (← get).form.choices with
  | none => pure ()
  | some c =>
    if c.shared then assign "choices" data
    change ({ · with choices := some { data, shared := c.shared, rows, currentRow } })

def choiceOf (text jump condition : String) : Value :=
  .object [("text", .text text), ("jump", .text jump), ("condition", .text condition)]

def askChoice (title : String) (text jump condition : Value) (needsText : Bool) :
    EditorM (Option (String × String × String)) := do
  let ask (label : String) (preset : Value) : EditorM (Option String) :=
    Editor.atDesk (Desk.askText (.text title) (.text label) preset)
  match ← ask "Текст варианта:" text with
  | none => pure none
  | some t =>
    if needsText && t.isEmpty then pure none
    else
      match ← ask "Переход на метку (опционально):" jump with
      | none => pure none
      | some j =>
        match ← ask "Условие (опционально):" condition with
        | none => pure none
        | some c => pure (some (t, j, c))

/-- Adds a choice to a menu. -/
def addChoice : EditorM Unit := do
  let empty := Value.text ""
  match ← askChoice "Вариант меню" empty empty empty true with
  | none => pure ()
  | some (t, j, k) =>
    match (← get).form.choices with
    | none => pure ()
    | some c =>
      match c.data with
      | .list vs =>
        replaceChoices (.list (vs ++ [choiceOf t j k]))
          (c.rows ++ [choiceLine (.text t) (.text j) (.text k)]) c.currentRow
      | v => throw (.noPart v.kindName "append")

/-- The choice at an index. -/
def choiceAt (data : Value) (index : Nat) : Except Fault Value :=
  match data with
  | .list vs => .ok ((vs[index]?).getD .null)
  | .text s => .ok (.text (String.ofList ((s.toList.drop index).take 1)))
  | _ => .error (.missing (.int index))

def warnNoChoice (what : String) : EditorM Unit :=
  Editor.atDesk (Desk.note (.warning (.text "Нет выбора") (.text ("Выберите вариант для " ++ what))))

/-- Changes the chosen choice of a menu. -/
def editChoice : EditorM Unit := do
  match (← get).form.choices with
  | none => pure ()
  | some c =>
    match c.currentRow with
    | none => warnNoChoice "редактирования."
    | some index =>
      if index < (← Editor.ofExcept c.data.size) then
        let (text, jump, condition) := choiceParts (← Editor.ofExcept (choiceAt c.data index))
        match ← askChoice "Редактировать вариант" text jump condition false with
        | none => pure ()
        | some (t, j, k) =>
          match c.data with
          | .list vs =>
            replaceChoices (.list (vs.set index (choiceOf t j k)))
              (c.rows.set index (choiceLine (.text t) (.text j) (.text k))) c.currentRow
          | v => throw (.wrongKind s!"'{v.kindName}' object does not support item assignment")

def warnRemoval : EditorM Unit := warnNoChoice "удаления."

/-- Removes the chosen choice of a menu. -/
def removeChoice : EditorM Unit := do
  match (← get).form.choices with
  | none => pure ()
  | some c =>
    match c.currentRow with
    | none => warnRemoval
    | some index =>
      let rows := c.rows.eraseIdx index
      if index < (← Editor.ofExcept c.data.size) then
        match c.data with
        | .list vs => replaceChoices (.list (vs.eraseIdx index)) rows none
        | .object _ => throw (.missing (.int index))
        | v => throw (.noPart v.kindName "pop")
      else change ({ · with choices := some { c with rows, currentRow := none } })

/-- Presses the newest button of the form. What it puts into a field is shown there; whether the
field then hears of it is up to the desktop. -/
def pressButton : EditorM Unit := do
  match (← get).form.button with
  | none => pure ()
  | some .removeChoice =>
    let f := (← get).form
    if f.choices.isSome then removeChoice
    else if f.formerRow.isNone then warnRemoval
    else change ({ · with formerRow := none })
  | some (.chooseFile key title filters) =>
    let path ← Editor.atDesk (Desk.askFile (.text title) (.text filters))
    if !path.isEmpty then key.forM (changeField · (·.setText path))
  | some (.chooseBackground key title filters) =>
    let path ← Editor.atDesk (Desk.askFile (.text title) (.text filters))
    if !path.isEmpty then
      let name := (Path.ofText path).stem
      let shown := if Text.startsWith name "bg " then name else "bg " ++ name
      key.forM (changeField · (·.setText shown))

/-- Draws a box for a block that the scene does not have yet. -/
def showNewBlock (b : Block) : EditorM Unit :=
  Editor.onCanvas do
    let c ← get
    set (← Canvas.ofExcept (c.addBox b))

end NovelGraph.Form
