import Pseudocode.CommandLine
import Pseudocode.DataType
import Pseudocode.Directory
import Pseudocode.Error
import Pseudocode.Error.Grammatical
import Pseudocode.Error.Lexical
import Pseudocode.Error.Runtime
import Pseudocode.Evaluation
import Pseudocode.Execution
import Pseudocode.Grammar.Cursor
import Pseudocode.Grammar.Expression
import Pseudocode.Grammar.Program
import Pseudocode.Grammar.Statement
import Pseudocode.Journal
import Pseudocode.Loop
import Pseudocode.Main
import Pseudocode.Number.Binary
import Pseudocode.Number.Conversion
import Pseudocode.Number.Integer
import Pseudocode.Number.Shortest
import Pseudocode.Number.Text
import Pseudocode.Operator
import Pseudocode.Operator.Meaning
import Pseudocode.Output
import Pseudocode.Proofs.Run.Triple
import Pseudocode.Session
import Pseudocode.State
import Pseudocode.Symbol
import Pseudocode.Table
import Pseudocode.Text.Invisible
import Pseudocode.Text.Quoted
import Pseudocode.Token
import Pseudocode.Token.Lexer
import Pseudocode.Token.Literal
import Pseudocode.Tree
import Pseudocode.Value
import Pseudocode.Proofs.Run.Statement
import Pseudocode.Proofs.Typing.Expression
import Pseudocode.Proofs.Typing.Statement
import Pseudocode.Proofs.Typing.Program
import Pseudocode.Proofs.Grammar.Derivation
import Pseudocode.Proofs.Grammar.Soundness
import Pseudocode.Proofs.Typing.Session
import Pseudocode.Proofs.Grammar.Reading
import Pseudocode.Proofs.Grammar.ProgramReading
import Pseudocode.Proofs.Grammar.Nesting
import Pseudocode.Proofs.Grammar.Rows
import Pseudocode.Proofs.Grammar.Completeness
import Pseudocode.Proofs.Token.Lexeme
import Pseudocode.Proofs.Token.Literal
import Pseudocode.Proofs.Grammar.Acceptance
import Pseudocode.Proofs.Printing.Printer
import Pseudocode.Proofs.Printing.Lexing
import Pseudocode.Proofs.Printing.Expression
import Pseudocode.Proofs.Printing.Program
import Pseudocode.Proofs.Printing.RoundTrip
import Pseudocode.Proofs.Run.Permanence
import Pseudocode.Proofs.Token.Longest
import Pseudocode.Proofs.Token.Scan
import Pseudocode.Proofs.Token.Calls
import Pseudocode.Proofs.Token.Layout
import Pseudocode.Proofs.Grammar.Settles
import Pseudocode.Proofs.Grammar.Settling
import Pseudocode.Proofs.Grammar.Failure
import Pseudocode.Proofs.Grammar.LexicalErrors
import Pseudocode.Proofs.Grammar.Position
import Pseudocode.Proofs.Run.Composition
import Pseudocode.Proofs.Run.Footprint
import Pseudocode.Proofs.Run.Influence
import Pseudocode.Proofs.Run.Truncation
import Pseudocode.Proofs.Grammar.Correspondence
import Pseudocode.Proofs.Token.Lines
import Pseudocode.Proofs.Grammar.Resumption
import Pseudocode.Proofs.Session.Repetition
import Pseudocode.Proofs.Run.Ending
import Pseudocode.Proofs.Run.Progression
import Pseudocode.Proofs.Typing.Evaluation
import Pseudocode.Proofs.Number.Expression
import Pseudocode.Proofs.Run.Equivalence
import Pseudocode.Proofs.Run.Atomicity
import Pseudocode.Proofs.Table.History
import Pseudocode.Proofs.Run.Choice
import Pseudocode.Proofs.Run.Unrolling
import Pseudocode.Proofs.Grammar.BlankLines
import Pseudocode.Proofs.Token.Spacing
import Pseudocode.Proofs.Number.Overflow
import Pseudocode.Proofs.Number.Rounding
import Pseudocode.Proofs.Number.NegativePower
import Pseudocode.Proofs.Text.Order
import Pseudocode.Proofs.Operator.Comparison
import Pseudocode.Proofs.Table.Listing
import Pseudocode.Proofs.Run.Declaring
import Pseudocode.Proofs.Grammar.Calls
import Pseudocode.Proofs.Grammar.OnePass
