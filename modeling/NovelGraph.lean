import NovelGraph.Decimal.Double
import NovelGraph.Decimal.Places
import NovelGraph.Decimal.Reading
import NovelGraph.Decimal.Shortest
import NovelGraph.Disk
import NovelGraph.Disk.Path
import NovelGraph.Disk.Utf8
import NovelGraph.Editor
import NovelGraph.Editor.Canvas
import NovelGraph.Editor.Canvas.Grid
import NovelGraph.Editor.Canvas.Loading
import NovelGraph.Editor.Canvas.Mouse
import NovelGraph.Editor.Canvas.Removal
import NovelGraph.Editor.Curve
import NovelGraph.Editor.Desk
import NovelGraph.Editor.Form
import NovelGraph.Editor.Form.Offers
import NovelGraph.Editor.Hint
import NovelGraph.Editor.Node
import NovelGraph.Editor.Outline
import NovelGraph.Editor.Palette
import NovelGraph.Editor.Preferences
import NovelGraph.Editor.Preview
import NovelGraph.Editor.Theme
import NovelGraph.Editor.View
import NovelGraph.Editor.Widget
import NovelGraph.Editor.Window
import NovelGraph.Editor.Wire
import NovelGraph.Export
import NovelGraph.Export.Assets
import NovelGraph.Export.Labels
import NovelGraph.Export.Relabel
import NovelGraph.Fault
import NovelGraph.Format
import NovelGraph.Format.Number
import NovelGraph.Format.Template
import NovelGraph.Graph.Distance
import NovelGraph.Graph.Entry
import NovelGraph.Graph.Links
import NovelGraph.Graph.Topological
import NovelGraph.Host
import NovelGraph.Json.Reader
import NovelGraph.Json.Writer
import NovelGraph.Kit
import NovelGraph.Number
import NovelGraph.Order
import NovelGraph.Script.Chain
import NovelGraph.Script.Definitions
import NovelGraph.Script.Loose
import NovelGraph.Script.Name
import NovelGraph.Script.Numbering
import NovelGraph.Script.Param
import NovelGraph.Script.SceneText
import NovelGraph.Script.Statement
import NovelGraph.Script.Suite
import NovelGraph.Script.Whole
import NovelGraph.Session
import NovelGraph.Settings
import NovelGraph.Story
import NovelGraph.Story.Document
import NovelGraph.Story.Edit
import NovelGraph.Story.File
import NovelGraph.Story.Kind
import NovelGraph.Story.Sockets
import NovelGraph.Story.Tag
import NovelGraph.Text.Blank
import NovelGraph.Text.Digit
import NovelGraph.Text.Lines
import NovelGraph.Text.LowerCase
import NovelGraph.Text.Printable
import NovelGraph.Text.Quoted
import NovelGraph.Text.Ranges
import NovelGraph.Text.Word
import NovelGraph.Value
import NovelGraph.Value.Dict
import NovelGraph.Value.Display
import NovelGraph.Value.Part
import NovelGraph.Value.Same
import NovelGraph.Wording
import NovelGraph.Proofs.Outcome
import NovelGraph.Proofs.Sorting
import NovelGraph.Proofs.Chain
import NovelGraph.Proofs.Chunks
import NovelGraph.Proofs.LabelClosure
import NovelGraph.Proofs.Wires
import NovelGraph.Proofs.Branches
import NovelGraph.Proofs.Ranking
import NovelGraph.Proofs.EmissionOrder
import NovelGraph.Proofs.Stems
import NovelGraph.Proofs.Sections
import NovelGraph.Proofs.ControlHeaders
import NovelGraph.Proofs.LineCount
import NovelGraph.Proofs.Repetition
import NovelGraph.Proofs.OneLine
import NovelGraph.Proofs.Telling
import NovelGraph.Proofs.Preamble
import NovelGraph.Proofs.LabelLines
import NovelGraph.Proofs.Transport
import NovelGraph.Proofs.Renaming
import NovelGraph.Proofs.RenamedScript
import NovelGraph.Proofs.Measured
import NovelGraph.Proofs.Lines
import NovelGraph.Proofs.LinearScript
import NovelGraph.Proofs.DefinitionLines
import NovelGraph.Proofs.VariableLines
import NovelGraph.Proofs.Speakers
import NovelGraph.Proofs.Reloading
import NovelGraph.Proofs.Visibility
import NovelGraph.Proofs.VisibleScript
import NovelGraph.Proofs.VariableWords
import NovelGraph.Proofs.Credits
import NovelGraph.Proofs.SavedScript
import NovelGraph.Proofs.SceneIntegrity
import NovelGraph.Proofs.Work
import NovelGraph.Proofs.CanvasScene
import NovelGraph.Proofs.CanvasEditing
import NovelGraph.Proofs.EditingSession
import NovelGraph.Proofs.SceneOpening
import NovelGraph.Proofs.FileTree
import NovelGraph.Proofs.ExportedLabels
import NovelGraph.Proofs.EditorCopies
import NovelGraph.Proofs.SideWork
import NovelGraph.Proofs.PresentedProject
import NovelGraph.Proofs.OpenAndSave
import NovelGraph.Proofs.ShownProject
import NovelGraph.Proofs.CanvasChanges
import NovelGraph.Proofs.FormWork
import NovelGraph.Proofs.EditorChanges
import NovelGraph.Proofs.OutlineChanges
import NovelGraph.Proofs.FormChanges
import NovelGraph.Proofs.SignalReception
import NovelGraph.Proofs.UnsavedChanges
import NovelGraph.Proofs.NamedBlocks
import NovelGraph.Proofs.GridPlaces
import NovelGraph.Proofs.Listing
import NovelGraph.Proofs.TopologicalOrder
import NovelGraph.Proofs.Redrawing
import NovelGraph.Proofs.ChainClosure
import NovelGraph.Proofs.ScannedLabels
import NovelGraph.Proofs.OfferedLabels
import NovelGraph.Proofs.Margins
import NovelGraph.Proofs.MenuChoices
import NovelGraph.Proofs.Suites
import NovelGraph.Proofs.PlaceOrder
import NovelGraph.Proofs.MovedDrawing
import NovelGraph.Proofs.SortingByKey
import NovelGraph.Proofs.NumberSizes
import NovelGraph.Proofs.DoubledWires
import NovelGraph.Proofs.DoubledOrder
import NovelGraph.Proofs.NumberingDepth
import NovelGraph.Proofs.DoubledScript
import NovelGraph.Proofs.Rendering
import NovelGraph.Proofs.Literals
import NovelGraph.Proofs.FreeLabels
import NovelGraph.Proofs.AssetNames
import NovelGraph.Proofs.BlockRemoval
import NovelGraph.Proofs.JsonRoundTrip
import NovelGraph.Proofs.NumberingFixpoint
import NovelGraph.Proofs.SettingsFile
import NovelGraph.Proofs.BlockGraph
import NovelGraph.Proofs.NestedCalls
import NovelGraph.Proofs.SettledNames
