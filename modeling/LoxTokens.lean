import LoxTokens.Binary64.Basic
import LoxTokens.Binary64.Rounding
import LoxTokens.CommandLine.Arguments
import LoxTokens.CommandLine.Console
import LoxTokens.CommandLine.Help
import LoxTokens.CommandLine.Run
import LoxTokens.CommandLine.Workspace
import LoxTokens.Cursor
import LoxTokens.Decimal.Layout
import LoxTokens.Decimal.Numeral
import LoxTokens.Decimal.Shortest
import LoxTokens.Fault
import LoxTokens.Json.Basic
import LoxTokens.Json.Printer
import LoxTokens.Lexeme
import LoxTokens.Log.Event
import LoxTokens.Log.Filter
import LoxTokens.Log.Level
import LoxTokens.Log.Rule
import LoxTokens.Log.Value
import LoxTokens.Main
import LoxTokens.Pattern.Atom
import LoxTokens.Pattern.Class
import LoxTokens.Pattern.Depth
import LoxTokens.Pattern.Flags
import LoxTokens.Pattern.Outline
import LoxTokens.Proofs.CommandLine.Arrangements
import LoxTokens.Proofs.CommandLine.Choices
import LoxTokens.Proofs.CommandLine.Interference
import LoxTokens.Proofs.CommandLine.Outcome
import LoxTokens.Proofs.CommandLine.Rearranging
import LoxTokens.Proofs.CommandLine.Reports
import LoxTokens.Proofs.CommandLine.Settings
import LoxTokens.Proofs.Cursor.Moves
import LoxTokens.Proofs.Cursor.Runs
import LoxTokens.Proofs.Json.Grammar
import LoxTokens.Proofs.Json.Printing
import LoxTokens.Proofs.Json.Reader
import LoxTokens.Proofs.Json.Scalars
import LoxTokens.Proofs.Json.Values
import LoxTokens.Proofs.Lexicon.Beginnings
import LoxTokens.Proofs.Lexicon.Cut
import LoxTokens.Proofs.Lexicon.Foresight
import LoxTokens.Proofs.Lexicon.Languages
import LoxTokens.Proofs.Lexicon.Pieces
import LoxTokens.Proofs.Lexicon.Reader
import LoxTokens.Proofs.Lexicon.Runs
import LoxTokens.Proofs.Lexicon.Scanning
import LoxTokens.Proofs.Lexicon.Steps
import LoxTokens.Proofs.Log.Directives
import LoxTokens.Proofs.Log.Spellings
import LoxTokens.Proofs.Log.Thresholds
import LoxTokens.Proofs.Numbers.Display
import LoxTokens.Proofs.Numbers.Fewest
import LoxTokens.Proofs.Numbers.Grids
import LoxTokens.Proofs.Numbers.Intervals
import LoxTokens.Proofs.Numbers.Literals
import LoxTokens.Proofs.Numbers.Nearest
import LoxTokens.Proofs.Numbers.Rounding
import LoxTokens.Proofs.Numbers.Shortest
import LoxTokens.Proofs.Numbers.Writing
import LoxTokens.Proofs.Observers.Events
import LoxTokens.Proofs.Observers.Sinks
import LoxTokens.Proofs.Output.Data
import LoxTokens.Proofs.Output.Dump
import LoxTokens.Proofs.Positions.LineEnds
import LoxTokens.Proofs.Positions.Lines
import LoxTokens.Proofs.Positions.Order
import LoxTokens.Proofs.Splicing.Closing
import LoxTokens.Proofs.Splicing.Concatenation
import LoxTokens.Proofs.Splicing.Continuation
import LoxTokens.Proofs.Splicing.LineEndings
import LoxTokens.Proofs.Splicing.Masking
import LoxTokens.Proofs.Splicing.Neighbours
import LoxTokens.Proofs.Splicing.Respacing
import LoxTokens.Proofs.Splicing.Substring
import LoxTokens.Scan
import LoxTokens.Text.Alphanumeric
import LoxTokens.Text.Blank
import LoxTokens.Text.Measure
import LoxTokens.Text.Pieces
import LoxTokens.Text.Position
import LoxTokens.Text.Ranges
import LoxTokens.Text.Slice
import LoxTokens.Token.Basic
import LoxTokens.Token.Data
import LoxTokens.Token.Kind
