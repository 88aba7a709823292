import SJava.Command
import SJava.Env
import SJava.Env.Frame
import SJava.Env.Symbol
import SJava.Fault
import SJava.Line.Call
import SJava.Line.Category
import SJava.Line.Clause
import SJava.Line.Condition
import SJava.Line.Header
import SJava.Literal
import SJava.Main
import SJava.Name
import SJava.Outcome
import SJava.Proofs.Acceptance
import SJava.Proofs.Arena
import SJava.Proofs.Arguments
import SJava.Proofs.Bounds
import SJava.Proofs.Checks
import SJava.Proofs.ClauseByClause
import SJava.Proofs.Conditions
import SJava.Proofs.Excerpts
import SJava.Proofs.FailedOperations
import SJava.Proofs.Findings
import SJava.Proofs.Frames
import SJava.Proofs.GlobalKnowledge
import SJava.Proofs.Grammar
import SJava.Proofs.Headers
import SJava.Proofs.Increments
import SJava.Proofs.InitialValues
import SJava.Proofs.Initialization
import SJava.Proofs.Joining
import SJava.Proofs.Layout
import SJava.Proofs.Leaving
import SJava.Proofs.Levels
import SJava.Proofs.LiteralTypes
import SJava.Proofs.LiteralUse
import SJava.Proofs.Marks
import SJava.Proofs.Modularity
import SJava.Proofs.Occurrence
import SJava.Proofs.Operations
import SJava.Proofs.Outcome
import SJava.Proofs.Overlaps
import SJava.Proofs.Paths
import SJava.Proofs.Phrases
import SJava.Proofs.Pieces
import SJava.Proofs.Printing
import SJava.Proofs.Program
import SJava.Proofs.Progress
import SJava.Proofs.Reading
import SJava.Proofs.Recording
import SJava.Proofs.Redeclaration
import SJava.Proofs.Segments
import SJava.Proofs.Slices
import SJava.Proofs.Structure
import SJava.Proofs.SymbolTables
import SJava.Proofs.Tracing
import SJava.Proofs.Weakening
import SJava.Report.Diagnostic
import SJava.Report.Style
import SJava.Rules.Block
import SJava.Rules.Method
import SJava.Rules.Statement
import SJava.Rules.Value
import SJava.Source.FileTree
import SJava.Source.Lookup
import SJava.Source.Path
import SJava.Text.Basic
import SJava.Text.Blank
import SJava.Text.Items
import SJava.Text.Lines
import SJava.Text.Quoted
import SJava.Text.Word
import SJava.Ty
import SJava.Verifier
