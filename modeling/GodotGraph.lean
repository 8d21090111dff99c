import GodotGraph.Analysis
import GodotGraph.CommandLine
import GodotGraph.Discovery
import GodotGraph.Exclusion
import GodotGraph.Main
import GodotGraph.Program
import GodotGraph.Progress
import GodotGraph.Report.Format
import GodotGraph.Scan
import GodotGraph.Settings.Decision
import GodotGraph.Settings.Json
import GodotGraph.Proofs.Curation
import GodotGraph.Proofs.Curation.Idempotence
import GodotGraph.Proofs.Pattern.Agreement
import GodotGraph.Proofs.Grammar.Identifier
import GodotGraph.Proofs.Grammar.Declaration
import GodotGraph.Proofs.Grammar.Header
import GodotGraph.Proofs.Scope.Region
import GodotGraph.Proofs.Script.Outline
import GodotGraph.Proofs.Extraction
import GodotGraph.Proofs.Script.ClassTree
import GodotGraph.Proofs.Key
import GodotGraph.Proofs.Script.Preamble
import GodotGraph.Proofs.Analysis.Declarations
import GodotGraph.Proofs.Analysis.Order
import GodotGraph.Proofs.Analysis.Schedule
import GodotGraph.Proofs.Grammar.Load
import GodotGraph.Proofs.Token.Cut
import GodotGraph.Proofs.Script.Comments.Preamble
import GodotGraph.Proofs.Script.Comments.Loads
import GodotGraph.Proofs.Script.Comments
import GodotGraph.Proofs.Pattern.Purity
import GodotGraph.Proofs.Path
import GodotGraph.Proofs.Key.References
import GodotGraph.Proofs.Script.HeaderAgreement
import GodotGraph.Proofs.Text.Squeeze
import GodotGraph.Proofs.Token.Join
import GodotGraph.Proofs.Pattern.Spacing
import GodotGraph.Proofs.Grammar.Spacing
import GodotGraph.Proofs.Record.History
import GodotGraph.Proofs.Analysis.Integrity
import GodotGraph.Proofs.Sibling
import GodotGraph.Proofs.Report
import GodotGraph.Proofs.Report.Errors
import GodotGraph.Proofs.Report.Colors
import GodotGraph.Proofs.Pattern.Offsets
import GodotGraph.Proofs.Pattern.Safety
import GodotGraph.Proofs.Pattern.AnyOrder
import GodotGraph.Proofs.Grammar.WholeNames
import GodotGraph.Proofs.Grammar.Resource
import GodotGraph.Proofs.Grammar.ResourceReading
import GodotGraph.Proofs.Scene
import GodotGraph.Proofs.Pattern.LeadingBlanks
import GodotGraph.Proofs.Pattern.SkipTo
import GodotGraph.Proofs.Pattern.Closing
import GodotGraph.Proofs.Grammar.Terminal
import GodotGraph.Proofs.Token.Spread
import GodotGraph.Proofs.Grammar.LoadCall
import GodotGraph.Proofs.Script.Loads
import GodotGraph.Proofs.Script.Parents
import GodotGraph.Proofs.Text.Pieces
import GodotGraph.Proofs.Scope.Place
import GodotGraph.Proofs.Scope.Indentation
import GodotGraph.Proofs.Scope.Braces
import GodotGraph.Proofs.Script.HeaderCounts
import GodotGraph.Proofs.Script.PreambleExtent
import GodotGraph.Proofs.Grammar.DottedName
import GodotGraph.Proofs.Grammar.TypeChain
import GodotGraph.Proofs.TypeUsage
import GodotGraph.Proofs.Key.Confinement
import GodotGraph.Proofs.Token.Windows
import GodotGraph.Proofs.Token.Lines
import GodotGraph.Proofs.Token.ReadBack
import GodotGraph.Proofs.Settings.Precedence
import GodotGraph.Proofs.Settings.Variables
import GodotGraph.Proofs.Discovery
import GodotGraph.Proofs.Key.NormalForm
import GodotGraph.Proofs.Scope.Nesting
import GodotGraph.Proofs.Scope.BlockComments
