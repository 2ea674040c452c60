/-! Style sheets of the windows and panels. -/
namespace NovelGraph.Theme

/-- What a style sheet says about the widgets that a selector picks. -/
structure Rule where
  selector : String
  declarations : List (String × String)

def Rule.render (margin : String) (r : Rule) : String :=
  margin ++ r.selector ++ " \x7b\n" ++
    r.declarations.foldr (fun d rest => margin ++ "    " ++ d.1 ++ ": " ++ d.2 ++ ";\n" ++ rest) "" ++
    margin ++ "\x7d\n"

/-- A style sheet: its rules with an empty line between them. -/
def render (rules : List Rule) : String :=
  "\n" ++ "        \n".intercalate (rules.map (Rule.render "        ")) ++ "    "

/-- A style sheet for a single field: its rules without empty lines, further to the right. -/
def renderDense (rules : List Rule) : String :=
  "\n" ++ String.join (rules.map (Rule.render "            ")) ++ "        "

def ground : String := "#1A1A1A"
def panelGround : String := "#252525"
def fieldGround : String := "#2A2A2A"
def hoverGround : String := "#2F2F2F"
def activeGround : String := "#333333"
def ink : String := "#E8E8E8"
def faintInk : String := "#B0B0B0"
def disabledInk : String := "#606060"
def brightInk : String := "#FFFFFF"
def accent : String := "#4A9EFF"
def accentHover : String := "#5BAEFF"
def accentPressed : String := "#3A8EEF"
def edge : String := "#3A3A3A"
def strongEdge : String := "#4A4A4A"
def focusEdge : String := "#4A9EFF"
def hoverEdge : String := "#5A5A5A"
def textFont : String := "'Segoe UI', 'Roboto', 'Arial', sans-serif"
def codeFont : String := "'Consolas', 'Courier New', monospace"
def smallSize : String := "10px"
def normalSize : String := "11px"
def mediumSize : String := "12px"
def mediumWeight : String := "500"
def gapTiny : String := "2px"
def gapSmall : String := "4px"
def gap : String := "8px"
def gapLarge : String := "12px"
def gapWide : String := "16px"
def roundSmall : String := "4px"
def round : String := "6px"

def window : List Rule :=
  [⟨"QMainWindow", [("background-color", ground), ("color", ink)]⟩,
    ⟨"QWidget", [("background-color", ground), ("color", ink), ("font-family", textFont),
      ("font-size", normalSize)]⟩,
    ⟨"QPushButton", [("background-color", fieldGround), ("border", "1px solid " ++ edge),
      ("border-radius", round), ("padding", gap ++ " " ++ gapWide), ("color", ink),
      ("font-weight", mediumWeight), ("font-size", normalSize), ("min-height", "28px")]⟩,
    ⟨"QPushButton:hover", [("background-color", hoverGround), ("border-color", hoverEdge)]⟩,
    ⟨"QPushButton:pressed", [("background-color", activeGround), ("border-color", strongEdge)]⟩,
    ⟨"QPushButton:disabled", [("background-color", fieldGround), ("border-color", edge),
      ("color", disabledInk)]⟩,
    ⟨"QPushButton#primaryButton", [("background-color", accent), ("border-color", accent),
      ("color", brightInk)]⟩,
    ⟨"QPushButton#primaryButton:hover", [("background-color", accentHover),
      ("border-color", accentHover)]⟩,
    ⟨"QPushButton#primaryButton:pressed", [("background-color", accentPressed),
      ("border-color", accentPressed)]⟩,
    ⟨"QLabel", [("color", ink), ("font-size", normalSize)]⟩,
    ⟨"QSplitter::handle", [("background-color", panelGround), ("border", "1px solid " ++ edge)]⟩,
    ⟨"QSplitter::handle:horizontal", [("width", "4px")]⟩,
    ⟨"QSplitter::handle:vertical", [("height", "4px")]⟩,
    ⟨"QSplitter::handle:hover", [("background-color", hoverGround)]⟩,
    ⟨"QToolBar", [("background-color", panelGround), ("border", "none"),
      ("border-bottom", "1px solid " ++ edge), ("spacing", gapSmall), ("padding", gapSmall)]⟩,
    ⟨"QToolBar QToolButton", [("background-color", "transparent"),
      ("border", "1px solid transparent"), ("border-radius", roundSmall), ("padding", gapSmall),
      ("margin", gapTiny)]⟩,
    ⟨"QToolBar QToolButton:hover", [("background-color", hoverGround), ("border-color", edge)]⟩]

def dialog : List Rule :=
  [⟨"QDialog", [("background-color", ground), ("color", ink)]⟩,
    ⟨"QLineEdit", [("background-color", fieldGround), ("border", "1px solid " ++ edge),
      ("border-radius", roundSmall), ("padding", gap), ("color", ink), ("font-size", normalSize),
      ("selection-background-color", accent), ("selection-color", brightInk)]⟩,
    ⟨"QLineEdit:focus", [("border-color", focusEdge), ("background-color", hoverGround)]⟩,
    ⟨"QTextEdit", [("background-color", fieldGround), ("border", "1px solid " ++ edge),
      ("border-radius", roundSmall), ("padding", gap), ("color", ink), ("font-size", normalSize),
      ("font-family", codeFont), ("selection-background-color", accent),
      ("selection-color", brightInk)]⟩,
    ⟨"QTextEdit:focus", [("border-color", focusEdge), ("background-color", hoverGround)]⟩,
    ⟨"QComboBox", [("background-color", fieldGround), ("border", "1px solid " ++ edge),
      ("border-radius", roundSmall), ("padding", gap), ("color", ink), ("font-size", normalSize),
      ("min-height", "28px")]⟩,
    ⟨"QComboBox:hover", [("border-color", hoverEdge)]⟩,
    ⟨"QComboBox:focus", [("border-color", focusEdge)]⟩,
    ⟨"QComboBox::drop-down", [("border", "none"), ("width", "24px")]⟩,
    ⟨"QComboBox::down-arrow", [("image", "none"), ("border-left", "4px solid transparent"),
      ("border-right", "4px solid transparent"), ("border-top", "5px solid " ++ ink),
      ("width", "0"), ("height", "0")]⟩,
    ⟨"QComboBox QAbstractItemView", [("background-color", fieldGround),
      ("border", "1px solid " ++ edge), ("border-radius", roundSmall),
      ("selection-background-color", accent), ("selection-color", brightInk), ("padding", gapTiny)]⟩,
    ⟨"QSpinBox, QDoubleSpinBox", [("background-color", fieldGround),
      ("border", "1px solid " ++ edge), ("border-radius", roundSmall), ("padding", gap),
      ("color", ink), ("font-size", normalSize), ("min-height", "28px")]⟩,
    ⟨"QSpinBox:focus, QDoubleSpinBox:focus", [("border-color", focusEdge)]⟩,
    ⟨"QCheckBox", [("color", ink), ("font-size", normalSize), ("spacing", gap)]⟩,
    ⟨"QCheckBox::indicator", [("width", "18px"), ("height", "18px"),
      ("border", "2px solid " ++ edge), ("border-radius", roundSmall),
      ("background-color", fieldGround)]⟩,
    ⟨"QCheckBox::indicator:hover", [("border-color", hoverEdge)]⟩,
    ⟨"QCheckBox::indicator:checked", [("background-color", accent), ("border-color", accent)]⟩,
    ⟨"QGroupBox", [("border", "1px solid " ++ edge), ("border-radius", round),
      ("margin-top", gapWide), ("padding-top", gapLarge), ("font-weight", mediumWeight),
      ("font-size", mediumSize), ("color", ink)]⟩,
    ⟨"QGroupBox::title", [("subcontrol-origin", "margin"), ("left", gapLarge),
      ("padding", "0 " ++ gap), ("color", ink)]⟩,
    ⟨"QTabWidget::pane", [("border", "1px solid " ++ edge), ("background-color", panelGround),
      ("border-radius", roundSmall)]⟩,
    ⟨"QTabBar::tab", [("background-color", fieldGround), ("color", faintInk),
      ("padding", gap ++ " " ++ gapWide), ("margin-right", gapTiny),
      ("border-top-left-radius", roundSmall), ("border-top-right-radius", roundSmall),
      ("border-bottom", "2px solid transparent")]⟩,
    ⟨"QTabBar::tab:selected", [("background-color", panelGround), ("color", ink),
      ("border-bottom", "2px solid " ++ accent)]⟩,
    ⟨"QTabBar::tab:hover", [("background-color", hoverGround), ("color", ink)]⟩]

def list : List Rule :=
  [⟨"QListWidget", [("background-color", fieldGround), ("border", "1px solid " ++ edge),
      ("border-radius", roundSmall), ("color", ink), ("font-size", normalSize),
      ("outline", "none")]⟩,
    ⟨"QListWidget::item", [("padding", gap), ("border-radius", roundSmall), ("margin", gapTiny)]⟩,
    ⟨"QListWidget::item:selected", [("background-color", accent), ("color", brightInk)]⟩,
    ⟨"QListWidget::item:hover", [("background-color", hoverGround)]⟩,
    ⟨"QListWidget::item:selected:hover", [("background-color", accentHover)]⟩,
    ⟨"QScrollBar:vertical", [("background-color", panelGround), ("width", "12px"),
      ("border", "none"), ("border-radius", "6px")]⟩,
    ⟨"QScrollBar::handle:vertical", [("background-color", hoverGround), ("border-radius", "6px"),
      ("min-height", "20px"), ("margin", "2px")]⟩,
    ⟨"QScrollBar::handle:vertical:hover", [("background-color", activeGround)]⟩,
    ⟨"QScrollBar::add-line:vertical, QScrollBar::sub-line:vertical", [("height", "0px")]⟩,
    ⟨"QScrollBar:horizontal", [("background-color", panelGround), ("height", "12px"),
      ("border", "none"), ("border-radius", "6px")]⟩,
    ⟨"QScrollBar::handle:horizontal", [("background-color", hoverGround), ("border-radius", "6px"),
      ("min-width", "20px"), ("margin", "2px")]⟩,
    ⟨"QScrollBar::handle:horizontal:hover", [("background-color", activeGround)]⟩,
    ⟨"QScrollBar::add-line:horizontal, QScrollBar::sub-line:horizontal", [("width", "0px")]⟩]

def panel : List Rule :=
  [⟨"QWidget", [("background-color", panelGround), ("color", ink)]⟩,
    ⟨"QLabel", [("color", ink), ("font-size", normalSize), ("padding", gapSmall)]⟩]

def code : List Rule :=
  [⟨"QTextEdit", [("background-color", fieldGround), ("border", "1px solid " ++ edge),
      ("border-radius", roundSmall), ("padding", gapLarge), ("color", ink),
      ("font-family", codeFont), ("font-size", smallSize), ("line-height", "1.5"),
      ("selection-background-color", accent), ("selection-color", brightInk)]⟩,
    ⟨"QTextEdit:focus", [("border-color", focusEdge)]⟩]

/-- The sheets by the names of what they are for. -/
def sheets : List (String × List Rule) :=
  [("main_window", window), ("dialog", dialog), ("list_widget", list), ("panel", panel),
    ("code_editor", code)]

/-- Fields with suggestions. -/
def combo : List Rule :=
  [⟨"QComboBox", [("background-color", fieldGround), ("border", "1px solid " ++ edge),
      ("border-radius", roundSmall), ("color", "#E0E0E0"), ("padding", gapSmall),
      ("min-height", "20px")]⟩,
    ⟨"QComboBox:hover", [("border-color", "#4A90E2")]⟩,
    ⟨"QComboBox::drop-down", [("border", "none"), ("width", "20px")]⟩,
    ⟨"QComboBox::down-arrow", [("image", "none"), ("border-left", "4px solid transparent"),
      ("border-right", "4px solid transparent"), ("border-top", "6px solid #E0E0E0"),
      ("width", "0"), ("height", "0")]⟩,
    ⟨"QComboBox QAbstractItemView", [("background-color", fieldGround),
      ("border", "1px solid " ++ edge), ("border-radius", roundSmall), ("color", "#E0E0E0"),
      ("selection-background-color", "#4A90E2"), ("selection-color", brightInk)]⟩]

end NovelGraph.Theme
