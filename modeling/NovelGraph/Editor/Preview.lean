import NovelGraph.Editor
import NovelGraph.Text.Blank

/-! The preview of the script. -/
namespace NovelGraph.Preview

def setText (s : String) : EditorM Unit := modify ({ · with preview := s })

def clear : EditorM Unit := setText ""

def append (line : String) : EditorM Unit :=
  modify fun e => { e with preview := e.preview ++ line ++ "\n" }

def title : EditorM Value := Editor.phrase "ui.preview_panel.title" "📄 Предпросмотр Ren'Py-кода"

/-- The first line in the place of a script that cannot be made. -/
def failure : String := "Ошибка генерации кода:"

def emptyNote : String := "# Код пуст. Добавьте блоки в сцену для генерации кода."

/-- Shows the script of the open project. -/
def refresh : EditorM Unit := do
  match (← get).session.project with
  | none => clear
  | some p =>
    match p.script with
    | .ok s => setText (if (Text.strip s).isEmpty then emptyNote else s)
    | .error f => setText (failure ++ "\n" ++ f.message)

end NovelGraph.Preview
