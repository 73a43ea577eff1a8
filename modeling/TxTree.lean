import TxTree.Command.Invocation
import TxTree.Command.Run
import TxTree.Command.Source
import TxTree.Diagnostic
import TxTree.Grammar.Blocks
import TxTree.Grammar.Declarations
import TxTree.Grammar.Expressions
import TxTree.Grammar.Rule
import TxTree.Grammar.State
import TxTree.Grammar.Types
import TxTree.Json.Basic
import TxTree.Json.Codec
import TxTree.Json.Reader
import TxTree.Main
import TxTree.Parse
import TxTree.Proofs.Assurance
import TxTree.Proofs.Balance
import TxTree.Proofs.Bodies
import TxTree.Proofs.Boundary
import TxTree.Proofs.Closing
import TxTree.Proofs.Completeness
import TxTree.Proofs.Conformity
import TxTree.Proofs.Constituents
import TxTree.Proofs.Cut
import TxTree.Proofs.Declarations
import TxTree.Proofs.Derivation
import TxTree.Proofs.Expressions
import TxTree.Proofs.File
import TxTree.Proofs.Findings
import TxTree.Proofs.Following
import TxTree.Proofs.Forms
import TxTree.Proofs.Gathering
import TxTree.Proofs.Impartiality
import TxTree.Proofs.Integrity
import TxTree.Proofs.Lossless
import TxTree.Proofs.Operands
import TxTree.Proofs.Phrases
import TxTree.Proofs.Plain
import TxTree.Proofs.Productions
import TxTree.Proofs.Programs
import TxTree.Proofs.Reading
import TxTree.Proofs.Relexing
import TxTree.Proofs.Renaming
import TxTree.Proofs.Schema
import TxTree.Proofs.Shapes
import TxTree.Proofs.Shift
import TxTree.Proofs.Spans
import TxTree.Proofs.Sparing
import TxTree.Proofs.Tiling
import TxTree.Proofs.Tokens
import TxTree.Proofs.Trivia
import TxTree.Proofs.Types
import TxTree.Proofs.Words
import TxTree.Span
import TxTree.Text.Alphabetic
import TxTree.Text.Blank
import TxTree.Text.Escape
import TxTree.Text.GraphemeExtend
import TxTree.Text.LineIndex
import TxTree.Text.Numeric
import TxTree.Text.Printable
import TxTree.Text.Ranges
import TxTree.Token.Basic
import TxTree.Token.Kind
import TxTree.Token.Scan
import TxTree.Tree.Basic
import TxTree.Tree.Builder
import TxTree.Tree.Dump
import TxTree.Tree.Kind
import TxTree.Tree.Traversal
import TxTree.Tree.View
import TxTree.Proofs.Lines
import TxTree.Proofs.Placement
import TxTree.Proofs.Arrangement
import TxTree.Proofs.Separators
import TxTree.Proofs.Arguments
import TxTree.Proofs.Passing
import TxTree.Proofs.Margins
import TxTree.Proofs.Sessions
import TxTree.Proofs.Height
import TxTree.Proofs.Aliases
import TxTree.Proofs.Wrapping
import TxTree.Proofs.Unterminated
import TxTree.Proofs.Search
import TxTree.Proofs.Linearity
import TxTree.Proofs.Legibility
import TxTree.Proofs.Writing
import TxTree.Proofs.Encoding
import TxTree.Proofs.Wording
import TxTree.Proofs.Views
import TxTree.Proofs.Progress
import TxTree.Proofs.Preorder
import TxTree.Token.Cursor
import TxTree.Proofs.Cursor
import TxTree.Grammar.Indexed
import TxTree.Proofs.Indexed
