import PrototypeOrder.Text.Utf8
import PrototypeOrder.Text.Lines
import PrototypeOrder.Text.Blank
import PrototypeOrder.Text.Cell
import PrototypeOrder.Text.Printable
import PrototypeOrder.Text.Quoted
import PrototypeOrder.Text.Json
import PrototypeOrder.Source.Location
import PrototypeOrder.Source.Node
import PrototypeOrder.Source.Cursor
import PrototypeOrder.Source.Item
import PrototypeOrder.Source.File
import PrototypeOrder.Order.Mode
import PrototypeOrder.Order.Violation
import PrototypeOrder.Order.Event
import PrototypeOrder.Order.Matcher
import PrototypeOrder.Order.Verdict
import PrototypeOrder.Diagnostic.Basic
import PrototypeOrder.Diagnostic.Terminal
import PrototypeOrder.Report
import PrototypeOrder.FileSystem.Path
import PrototypeOrder.FileSystem.ReadError
import PrototypeOrder.FileSystem.Entry
import PrototypeOrder.FileSystem.Check
import PrototypeOrder.FileSystem.Discovery
import PrototypeOrder.FileSystem.Workspace
import PrototypeOrder.CommandLine
import PrototypeOrder.Tool.Format
import PrototypeOrder.Tool.CheckFiles
import PrototypeOrder.Tool.CheckWorkspace
import PrototypeOrder.Tool.Explain
import PrototypeOrder.C.Vocabulary
import PrototypeOrder.C.Token
import PrototypeOrder.C.Lexer
import PrototypeOrder.C.Input
import PrototypeOrder.C.Tree
import PrototypeOrder.C.Outline
import PrototypeOrder.Main
import PrototypeOrder.Proofs.Offence
import PrototypeOrder.Proofs.Scan
import PrototypeOrder.Proofs.Diagnosis
import PrototypeOrder.Proofs.Soundness
import PrototypeOrder.Proofs.Modes
import PrototypeOrder.Proofs.SourceUse
import PrototypeOrder.Proofs.Conservation
import PrototypeOrder.Proofs.Grounding
import PrototypeOrder.Proofs.FrontEnds
import PrototypeOrder.Proofs.PathNames
import PrototypeOrder.Proofs.RelativePaths
import PrototypeOrder.Proofs.DirectoryTree
import PrototypeOrder.Proofs.PathResolution
import PrototypeOrder.Proofs.DirectoryWalk
import PrototypeOrder.Proofs.Discovery
import PrototypeOrder.Proofs.Layout
import PrototypeOrder.Proofs.WorkspaceReports
import PrototypeOrder.Proofs.FindingBack
import PrototypeOrder.Proofs.ToolAnswers
import PrototypeOrder.Proofs.Decoding
import PrototypeOrder.Proofs.Rows
import PrototypeOrder.Proofs.ItemNodes
import PrototypeOrder.Proofs.DocumentOrder
import PrototypeOrder.Proofs.Wrapping
import PrototypeOrder.Proofs.Recording
import PrototypeOrder.Proofs.Addresses
import PrototypeOrder.Proofs.SharedNames
import PrototypeOrder.Proofs.Columns
import PrototypeOrder.Proofs.Exemption
import PrototypeOrder.Proofs.SyntaxGate
import PrototypeOrder.Proofs.Reordering
import PrototypeOrder.Proofs.RenamedRuns
import PrototypeOrder.Proofs.DiagnosticText
import PrototypeOrder.Proofs.Markup
import PrototypeOrder.Proofs.Styling
import PrototypeOrder.Proofs.WalkRounds
import PrototypeOrder.Proofs.PreorderWalk
