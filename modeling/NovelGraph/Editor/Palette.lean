import NovelGraph.Editor
import NovelGraph.Editor.Hint

/-! The palette: kinds of blocks under headings, to be dragged onto the canvas. -/
namespace NovelGraph.Palette

structure Row where
  text : String
  kind : Option BlockKind := none
  tip : Value := .null

def groups : List (String × String × List BlockKind) :=
  [("dialogs", "📝 Диалоги и текст", [.say, .narration, .voice, .center, .screenText]),
    ("visual", "🖼️ Визуальные элементы", [.scene, .showImage, .hideImage, .image]),
    ("logic", "🔀 Логика и управление",
      [.start, .ifElse, .whileLoop, .forLoop, .menu, .jump, .call, .label, .returnFrom]),
    ("effects", "🎬 Эффекты и переходы", [.pause, .transition, .withEffect]),
    ("audio", "🔊 Аудио", [.sound, .music, .stopSound, .stopMusic, .queueSound, .queueMusic]),
    ("variables", "💾 Переменные и данные", [.setVar, .defaultVar, .define, .code]),
    ("definitions", "👤 Определения", [.character, .style])]

/-- The groups by their headings. Of two that read the same, the later takes the place of the
earlier. -/
def headed : EditorM (Dict (List BlockKind)) :=
  groups.foldlM (fun d g => do
    let heading ← Editor.phrase ("ui.block_palette.category." ++ g.1) g.2.1
    Editor.ofExcept heading.requireKey
    pure (d.set heading g.2.2)) []

def row (k : BlockKind) : EditorM Row := do
  pure { text := "  • " ++ k.name, kind := some k, tip := ← Editor.atHost (Hint.block k) }

def rows : EditorM (List Row) := do
  let parts ← (← headed).mapM fun g => do
    pure ({ text := "━━━ " ++ g.1.display ++ " ━━━" } :: (← g.2.mapM row))
  pure parts.flatten

def title : EditorM Value := Editor.phrase "ui.block_palette.title" "Блоки"

/-- Starts to drag a row; a heading cannot be dragged. -/
def drag (r : Option Row) : EditorM Unit :=
  match r.bind (·.kind) with
  | none => pure ()
  | some k => Editor.atDesk do
    Desk.note (.event "mime" [.text Canvas.dragFormat, .text k.name])
    Desk.note (.event "drag" [.text "CopyAction"])

end NovelGraph.Palette
