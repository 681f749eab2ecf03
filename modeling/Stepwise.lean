import Stepwise.CommandLine.Arguments
import Stepwise.CommandLine.Command
import Stepwise.CommandLine.Execute
import Stepwise.Double.Format
import Stepwise.Double.Parts
import Stepwise.Double.Read
import Stepwise.Double.Shortest
import Stepwise.Engine.Basic
import Stepwise.Engine.Handlers
import Stepwise.Engine.Snapshot
import Stepwise.Engine.State
import Stepwise.Environment
import Stepwise.Expression.Evaluate
import Stepwise.Expression.Split
import Stepwise.Json.Basic
import Stepwise.Json.Printer
import Stepwise.Json.Reader
import Stepwise.Line.Basic
import Stepwise.Line.Shape
import Stepwise.Loop
import Stepwise.Main
import Stepwise.Operator
import Stepwise.OrderedMap
import Stepwise.Pane.Frame
import Stepwise.Pane.Highlight
import Stepwise.Pane.Lists
import Stepwise.Pane.Source
import Stepwise.Pane.Status
import Stepwise.Player.Basic
import Stepwise.Player.View
import Stepwise.Proofs.Bytewise.Calls
import Stepwise.Proofs.Bytewise.Highlighting
import Stepwise.Proofs.Bytewise.Scanners
import Stepwise.Proofs.Bytewise.Slices
import Stepwise.Proofs.Bytewise.Splitting
import Stepwise.Proofs.Double.Numbers
import Stepwise.Proofs.Engine.Coherence
import Stepwise.Proofs.Engine.Console
import Stepwise.Proofs.Engine.Constants
import Stepwise.Proofs.Engine.Effect
import Stepwise.Proofs.Engine.Failure
import Stepwise.Proofs.Engine.Following
import Stepwise.Proofs.Engine.Layout
import Stepwise.Proofs.Engine.Recognition
import Stepwise.Proofs.Engine.Restart
import Stepwise.Proofs.Engine.Schedule
import Stepwise.Proofs.Engine.Step
import Stepwise.Proofs.Engine.Terminal
import Stepwise.Proofs.Engine.Writes
import Stepwise.Proofs.Environment
import Stepwise.Proofs.Environment.Writes
import Stepwise.Proofs.Expression.Atoms
import Stepwise.Proofs.Expression.Evaluation
import Stepwise.Proofs.Expression.Grammar
import Stepwise.Proofs.Expression.Literal
import Stepwise.Proofs.Expression.Matching
import Stepwise.Proofs.Expression.Names
import Stepwise.Proofs.Expression.Nested
import Stepwise.Proofs.Expression.Parentheses
import Stepwise.Proofs.Expression.Pieces
import Stepwise.Proofs.Expression.Replacement
import Stepwise.Proofs.Expression.Sealed
import Stepwise.Proofs.Expression.Semantics
import Stepwise.Proofs.Expression.Shifts
import Stepwise.Proofs.Expression.Sides
import Stepwise.Proofs.Expression.TopLevel
import Stepwise.Proofs.Json.Sameness
import Stepwise.Proofs.Line.Calls
import Stepwise.Proofs.Line.Effect
import Stepwise.Proofs.Line.Headers
import Stepwise.Proofs.Line.Kinds
import Stepwise.Proofs.Line.Naming
import Stepwise.Proofs.Line.Printing
import Stepwise.Proofs.Line.Recognition
import Stepwise.Proofs.Line.Renumbering
import Stepwise.Proofs.Line.Trailing
import Stepwise.Proofs.Loop.Registry
import Stepwise.Proofs.Loop.Trackers
import Stepwise.Proofs.Operator
import Stepwise.Proofs.Pane.Highlighting
import Stepwise.Proofs.Pane.Visibility
import Stepwise.Proofs.Player.Playback
import Stepwise.Proofs.Sorting.Context
import Stepwise.Proofs.Sorting.Elementary
import Stepwise.Proofs.Sorting.Exchanging
import Stepwise.Proofs.Sorting.Insertion
import Stepwise.Proofs.Sorting.Inversions
import Stepwise.Proofs.Sorting.Merging
import Stepwise.Proofs.Sorting.Positions
import Stepwise.Proofs.Sorting.Recording
import Stepwise.Proofs.Sorting.Recursive
import Stepwise.Proofs.Sorting.Replay
import Stepwise.Proofs.Sorting.Trace
import Stepwise.Proofs.Sorting.Work
import Stepwise.Proofs.Text.Characters
import Stepwise.Proofs.Text.Items
import Stepwise.Proofs.Text.Scanning
import Stepwise.Proofs.Text.Statement
import Stepwise.Proofs.Text.Terminators
import Stepwise.Proofs.Text.Trimming
import Stepwise.Random
import Stepwise.Screen.Grid
import Stepwise.Screen.Style
import Stepwise.Settings
import Stepwise.Sorting.Algorithm
import Stepwise.Sorting.Elementary
import Stepwise.Sorting.Guide
import Stepwise.Sorting.Input
import Stepwise.Sorting.Moment
import Stepwise.Sorting.Recursive
import Stepwise.Sorting.Trace
import Stepwise.Text.Alphanumeric
import Stepwise.Text.Basic
import Stepwise.Text.Scan
import Stepwise.Text.Word
import Stepwise.Timeline
import Stepwise.Toml.Basic
import Stepwise.Toml.Document
import Stepwise.Toml.Lexical
import Stepwise.Value
