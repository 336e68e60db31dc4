import Scribe.About
import Scribe.CommandLine
import Scribe.CommandLine.Command
import Scribe.CommandLine.Console
import Scribe.CommandLine.Given
import Scribe.CommandLine.Invocation
import Scribe.CommandLine.LogFlags
import Scribe.CommandLine.Perform
import Scribe.CommandLine.Setting
import Scribe.CommandLine.Trace
import Scribe.CommandLine.Usage
import Scribe.Configuration
import Scribe.Decimal.Integer
import Scribe.Decimal.Layout
import Scribe.Decimal.Nearest
import Scribe.Decimal.Read
import Scribe.Decimal.Shortest
import Scribe.Diagnostic
import Scribe.Document.Basic
import Scribe.Document.Json
import Scribe.Document.ReadJson
import Scribe.Document.Timestamp
import Scribe.Document.Write
import Scribe.Document.Yaml
import Scribe.Failure
import Scribe.Files.Path
import Scribe.Files.Source
import Scribe.Files.System
import Scribe.Files.Tree
import Scribe.Formula.Basic
import Scribe.Formula.Check
import Scribe.Formula.Evaluate
import Scribe.Formula.Exponential
import Scribe.Formula.Fold
import Scribe.Formula.Operator
import Scribe.Formula.Parse
import Scribe.Formula.Power
import Scribe.Formula.Token
import Scribe.Interpreter
import Scribe.Journal.Clock
import Scribe.Journal.Field
import Scribe.Journal.Level
import Scribe.Journal.Logger
import Scribe.Journal.Plain
import Scribe.Journal.Pretty
import Scribe.Machine.Basic
import Scribe.Machine.Evaluate
import Scribe.Machine.Execute
import Scribe.Machine.Operators
import Scribe.Main
import Scribe.Program
import Scribe.Program.Cache
import Scribe.Prompt
import Scribe.Prompt.Completion
import Scribe.Prompt.Edit
import Scribe.Prompt.Fuzzy
import Scribe.Prompt.Hint
import Scribe.Prompt.History
import Scribe.Prompt.LineEditor
import Scribe.Prompt.Session
import Scribe.Prompt.Word
import Scribe.Scope
import Scribe.Terminal.Colour
import Scribe.Terminal.Control
import Scribe.Terminal.Measure
import Scribe.Terminal.Style
import Scribe.Text.Bytes
import Scribe.Text.Case
import Scribe.Text.Cell
import Scribe.Text.CharSet
import Scribe.Text.Cluster
import Scribe.Text.Letter
import Scribe.Text.Printable
import Scribe.Text.Quoted
import Scribe.Text.Rune
import Scribe.Text.Space
import Scribe.Token.Basic
import Scribe.Token.Dump
import Scribe.Token.Scan
import Scribe.Tree.Basic
import Scribe.Tree.Parse
import Scribe.Tree.PrefixForm
import Scribe.Value.Accept
import Scribe.Value.Basic
import Scribe.Value.Display
import Scribe.Value.Host
import Scribe.Value.Literal
import Scribe.Proofs.Parse.Advance
import Scribe.Proofs.Parse.Progress
import Scribe.Proofs.Parse.Grammar
import Scribe.Proofs.Parse.Sound
import Scribe.Proofs.Parse.Complete
import Scribe.Proofs.Parse.Exact
import Scribe.Proofs.Parse.Append
import Scribe.Proofs.Decimal.Nearest
import Scribe.Proofs.Machine.Agreement
import Scribe.Proofs.Decimal.Pattern
import Scribe.Proofs.Decimal.Shortest
import Scribe.Proofs.Decimal.Digits
import Scribe.Proofs.Decimal.Doubles
import Scribe.Proofs.Decimal.RoundTrip
import Scribe.Proofs.Text.Runes
import Scribe.Proofs.Token.Spelling
import Scribe.Proofs.Token.Trailing
import Scribe.Proofs.Value.Written
import Scribe.Proofs.Value.Literal
import Scribe.Proofs.Machine.Evaluation
import Scribe.Proofs.Machine.Reach
import Scribe.Proofs.Program.Callers
import Scribe.Proofs.Program.Fairness
import Scribe.Proofs.Lines.Basic
import Scribe.Proofs.Lines.Scan
import Scribe.Proofs.Lines.Parse
import Scribe.Proofs.Lines.Run
import Scribe.Proofs.Lines.Located
import Scribe.Proofs.Lines.Program
import Scribe.Proofs.Lines.Behind
import Scribe.Proofs.Machine.Frame
import Scribe.Proofs.Machine.Scoping
import Scribe.Proofs.Prompt.Offsets
import Scribe.Proofs.Token.Comment
import Scribe.Proofs.Value.Display
import Scribe.Proofs.Prompt.Script
import Scribe.Proofs.Token.Lexeme
import Scribe.Proofs.Token.Account
import Scribe.Proofs.Token.Rescan
import Scribe.Proofs.Parse.Shape
import Scribe.Proofs.Text.Quoted
import Scribe.Proofs.Tree.Phrase
import Scribe.Proofs.Tree.Rendering
import Scribe.Proofs.Tree.Faithful
import Scribe.Proofs.Configuration
import Scribe.Proofs.Prompt.Reload
import Scribe.Proofs.Machine.Elements
import Scribe.Proofs.Machine.Expression
import Scribe.Proofs.Parse.Walk
import Scribe.Proofs.Prompt.Entering
import Scribe.Proofs.Parse.Ending
import Scribe.Proofs.Parse.Steady
import Scribe.Proofs.Prompt.Selection
import Scribe.Proofs.Text.Cut
import Scribe.Proofs.Terminal.Measure
import Scribe.Proofs.Prompt.Bar
import Scribe.Proofs.Prompt.Completed
import Scribe.Proofs.Prompt.Cursor
import Scribe.Proofs.Journal.Derived
import Scribe.Proofs.Document.Reading
import Scribe.Proofs.Journal.Legible
import Scribe.Proofs.Journal.Json
import Scribe.Proofs.Machine.Faults
import Scribe.Proofs.Program.Reported
import Scribe.Proofs.CommandLine.Setting
import Scribe.Proofs.Prompt.Recent
import Scribe.Proofs.Parse.Limit
import Scribe.Proofs.Program.Height
import Scribe.Proofs.Prompt.Trying
import Scribe.Proofs.Journal.LevelName
import Scribe.Proofs.Files.Mentioned
import Scribe.Proofs.CommandLine.LogFlags
import Scribe.Proofs.Prompt.Edited
import Scribe.Proofs.Value.Equal
import Scribe.Proofs.Scope.Chain
import Scribe.Proofs.Token.Dump
import Scribe.Proofs.Value.Host
import Scribe.Proofs.Text.Backward
import Scribe.Proofs.Prompt.InString
import Scribe.Proofs.Text.Border
import Scribe.Proofs.Prompt.Word
