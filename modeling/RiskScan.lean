import RiskScan.AnalysisResult
import RiskScan.Analyzer
import RiskScan.Analyzer.Registry
import RiskScan.Branch
import RiskScan.Calendar
import RiskScan.Cli
import RiskScan.Cli.Analyze
import RiskScan.Cli.Arguments
import RiskScan.Cli.Command
import RiskScan.Cli.Outcome
import RiskScan.Cli.Settings
import RiskScan.CodeContext
import RiskScan.Confidence
import RiskScan.Config
import RiskScan.Config.Loading
import RiskScan.Config.Saving
import RiskScan.Console
import RiskScan.Console.Markup
import RiskScan.Console.Style
import RiskScan.Console.Table
import RiskScan.CriticalPath
import RiskScan.Decimal.Binary
import RiskScan.Decimal.Fixed
import RiskScan.Decimal.Notation
import RiskScan.Decimal.Reading
import RiskScan.Decimal.Shortest
import RiskScan.Engine
import RiskScan.Engine.SourceAnalysis
import RiskScan.Engine.Trunk
import RiskScan.Fault
import RiskScan.FileSystem
import RiskScan.FileSystem.Directories
import RiskScan.Main
import RiskScan.Path
import RiskScan.Pattern
import RiskScan.Proofs.Compound.Asking
import RiskScan.Proofs.Compound.Criticality
import RiskScan.Proofs.Compound.Detection
import RiskScan.Proofs.Compound.Evaluation
import RiskScan.Proofs.Compound.Graph
import RiskScan.Proofs.Compound.Marks
import RiskScan.Proofs.Compound.Memo
import RiskScan.Proofs.Compound.Order
import RiskScan.Proofs.Compound.Recurrence
import RiskScan.Proofs.Compound.Renaming
import RiskScan.Proofs.Compound.Settled
import RiskScan.Proofs.Engine.Attaching
import RiskScan.Proofs.Engine.Growth
import RiskScan.Proofs.Pattern.Assignments
import RiskScan.Proofs.Pattern.Cascades
import RiskScan.Proofs.Pattern.Counting
import RiskScan.Proofs.Pattern.Lines
import RiskScan.Proofs.Pattern.Runs
import RiskScan.Proofs.Pattern.Scanning
import RiskScan.Proofs.Pattern.Stops
import RiskScan.Proofs.Pattern.Surroundings
import RiskScan.Proofs.Pattern.Unawaited
import RiskScan.Proofs.Pattern.Words
import RiskScan.Proofs.Store.Arena
import RiskScan.Proofs.Store.ChildCycles
import RiskScan.Proofs.Store.Frame
import RiskScan.Proofs.Store.LeafPaths
import RiskScan.Proofs.Store.Ownership
import RiskScan.Proofs.Store.Parents
import RiskScan.Proofs.Store.PartialRegistration
import RiskScan.Proofs.Store.PathOrder
import RiskScan.Proofs.Store.Readings
import RiskScan.Proofs.Store.Registration
import RiskScan.Proofs.Store.Soundness
import RiskScan.Proofs.Store.StrictTrees
import RiskScan.Proofs.Store.Traversal
import RiskScan.Proofs.Store.Walk
import RiskScan.Report
import RiskScan.Scan
import RiskScan.Severity
import RiskScan.Signature
import RiskScan.Signature.BuiltIn
import RiskScan.Store
import RiskScan.Store.Compound
import RiskScan.Store.Dump
import RiskScan.Store.Growth
import RiskScan.Store.Operation
import RiskScan.Store.Outline
import RiskScan.Store.Render
import RiskScan.Template
import RiskScan.Text.CaseFold
import RiskScan.Text.Classes
import RiskScan.Text.Printable
import RiskScan.Text.Quoted
import RiskScan.Text.Similarity
import RiskScan.Text.Utf8
import RiskScan.Text.Width
import RiskScan.Text.Word
import RiskScan.Value
import RiskScan.Value.Number
import RiskScan.Value.Shown
import RiskScan.Yaml.Cursor
import RiskScan.Yaml.Document
import RiskScan.Yaml.Error
import RiskScan.Yaml.Node
import RiskScan.Yaml.Scalar
import RiskScan.Yaml.Tag
import RiskScan.Yaml.Token
import RiskScan.Yaml.Token.Lexer
import RiskScan.Yaml.Token.Names
import RiskScan.Yaml.Token.Scalars
import RiskScan.Yaml.Writer
import RiskScan.Proofs.Engine.Checks
import RiskScan.Proofs.Engine.Planting
import RiskScan.Proofs.Engine.Findings
import RiskScan.Proofs.Engine.Decomposition
import RiskScan.Proofs.Confidence.Order
import RiskScan.Proofs.Engine.ExitCode
import RiskScan.Proofs.Engine.Surroundings
import RiskScan.Proofs.Engine.Scripts
import RiskScan.Proofs.Engine.Shape
import RiskScan.Proofs.Engine.Sprigs
import RiskScan.Proofs.Store.Kinds
import RiskScan.Proofs.Engine.TreeShape
import RiskScan.Proofs.Engine.Contributions
import RiskScan.Proofs.Engine.SprigDumps
import RiskScan.Proofs.Config.Reading
import RiskScan.Proofs.Store.Failures
import RiskScan.Proofs.Config.Ranges
import RiskScan.Proofs.FileSystem.Following
import RiskScan.Proofs.FileSystem.Listing
import RiskScan.Proofs.Scan.Eligible
import RiskScan.Proofs.Scan.Roots
import RiskScan.Proofs.Config.RoundTrip
import RiskScan.Proofs.FileSystem.Writing
import RiskScan.Proofs.Text.Utf8
import RiskScan.Proofs.Yaml.Legible
import RiskScan.Proofs.Compound.Walks
import RiskScan.Proofs.Compound.Displays
import RiskScan.Proofs.Compound.Escalation
import RiskScan.Proofs.Console.Reading
import RiskScan.Proofs.Console.Escaping
import RiskScan.Proofs.Report.Lines
import RiskScan.Proofs.Report.Pages
import RiskScan.Proofs.Report.Templates
import RiskScan.Proofs.Report.Layout
import RiskScan.Proofs.Report.Faithful
import RiskScan.Proofs.Store.Outlines
import RiskScan.Proofs.FileSystem.Emptied
import RiskScan.Proofs.Scan.Sights
import RiskScan.Proofs.Scan.Contained
import RiskScan.Proofs.Engine.Overlaps
import RiskScan.Proofs.Confidence.Classes
import RiskScan.Proofs.Confidence.Saturation
import RiskScan.Proofs.Config.Omissions
import RiskScan.Proofs.Config.Refusals
import RiskScan.Proofs.Engine.Usable
import RiskScan.Proofs.Store.Confidences
import RiskScan.Proofs.Pattern.Tokens
import RiskScan.Proofs.CodeContext.SourceOrder
import RiskScan.Proofs.Scan.Considered
import RiskScan.Proofs.Cli.Announcing
import RiskScan.Proofs.FileSystem.Directories
import RiskScan.Proofs.Config.Saving
import RiskScan.Proofs.Cli.Initialising
