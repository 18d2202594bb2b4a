import TypeQuery.Answer
import TypeQuery.Checker
import TypeQuery.Checker.Locate
import TypeQuery.Config
import TypeQuery.Config.Comments
import TypeQuery.Config.Reader
import TypeQuery.Diagnostic
import TypeQuery.Facts
import TypeQuery.Failure
import TypeQuery.FileTree
import TypeQuery.Flags
import TypeQuery.Flags.Tables
import TypeQuery.Json
import TypeQuery.Json.Cursor
import TypeQuery.Json.Printer
import TypeQuery.Json.Reader
import TypeQuery.Log
import TypeQuery.Path
import TypeQuery.Pattern.Automaton
import TypeQuery.Pattern.Backtracking.Expr
import TypeQuery.Pattern.Backtracking.Machine
import TypeQuery.Pattern.Backtracking.Parser
import TypeQuery.Pattern.Backtracking.Program
import TypeQuery.Pattern.CharSet
import TypeQuery.Pattern.Footprint
import TypeQuery.Pattern.Look
import TypeQuery.Pattern.Matcher
import TypeQuery.Pattern.Regex
import TypeQuery.Pattern.Regex.Flags
import TypeQuery.Pattern.Regex.Parser
import TypeQuery.Program
import TypeQuery.Program.Build
import TypeQuery.Program.Step
import TypeQuery.Project
import TypeQuery.Query
import TypeQuery.Query.Location
import TypeQuery.Record
import TypeQuery.Report
import TypeQuery.Text.Blank
import TypeQuery.Text.Fold
import TypeQuery.Text.Letter
import TypeQuery.Text.LineMap
import TypeQuery.Text.Quoted
import TypeQuery.Text.Ranges
import TypeQuery.Text.Snippet
import TypeQuery.Text.Sorted
import TypeQuery.Text.Utf16
import TypeQuery.Text.Visible
import TypeQuery.Text.Word
import TypeQuery.Proofs.Text.LineMap
import TypeQuery.Proofs.Program.Build
import TypeQuery.Proofs.Program.Files
import TypeQuery.Proofs.Query.Answer
import TypeQuery.Proofs.Pattern.Automaton
import TypeQuery.Proofs.Pattern.Backtracking.Building
import TypeQuery.Proofs.Pattern.Backtracking.Reach
import TypeQuery.Proofs.Pattern.Spans
import TypeQuery.Proofs.Query.Selection
import TypeQuery.Proofs.Checker.Locate
import TypeQuery.Proofs.Program.Layout
import TypeQuery.Proofs.FileTree
import TypeQuery.Proofs.Project.Chain
import TypeQuery.Proofs.Config.Acceptance
import TypeQuery.Proofs.Program.Tree
import TypeQuery.Proofs.Query.Trimming
import TypeQuery.Proofs.Query.Places
import TypeQuery.Proofs.Project.Discovery
import TypeQuery.Proofs.Checker.Properties
import TypeQuery.Proofs.Checker.Region
import TypeQuery.Proofs.Json.Answering
import TypeQuery.Proofs.Json.Printing
import TypeQuery.Proofs.Program.Frame
import TypeQuery.Proofs.Query.Rendering
import TypeQuery.Proofs.Query.Stages
import TypeQuery.Proofs.Program.Placement
import TypeQuery.Proofs.Project.Inheritance
import TypeQuery.Proofs.Text.LineEnds
import TypeQuery.Proofs.Project.Spelling
import TypeQuery.Proofs.Diagnostic
import TypeQuery.Proofs.Text.Snippet
import TypeQuery.Proofs.Flags
import TypeQuery.Proofs.Config.Lines
import TypeQuery.Proofs.Query.Literal
import TypeQuery.Proofs.Query.Flags
import TypeQuery.Proofs.Text.Bytes
