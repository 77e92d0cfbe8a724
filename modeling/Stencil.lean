import Stencil.Code
import Stencil.CommandLine.Basic
import Stencil.CommandLine.Options
import Stencil.Compilation.Basic
import Stencil.Compilation.Events
import Stencil.Diagnostic
import Stencil.Dialect
import Stencil.Expr.Basic
import Stencil.Expr.Parse
import Stencil.Expr.Walk
import Stencil.Extension
import Stencil.FileTree
import Stencil.Json.Basic
import Stencil.Json.Decode
import Stencil.Json.Encode
import Stencil.Json.Reader
import Stencil.Keyword
import Stencil.Lexer.Basic
import Stencil.Lexer.Lexeme
import Stencil.Lexer.Opening
import Stencil.Literal
import Stencil.Log.Current
import Stencil.Log.Event
import Stencil.Log.Service
import Stencil.Main
import Stencil.Number.Binary64
import Stencil.Number.Scaled
import Stencil.Number.Shortest
import Stencil.Number.Word
import Stencil.Parse.Parsing
import Stencil.Parse.Reading
import Stencil.Proofs.Expr.FirstTokens
import Stencil.Proofs.Expr.Grammar
import Stencil.Proofs.Expr.Levels
import Stencil.Proofs.Expr.Passing
import Stencil.Proofs.Expr.Printing
import Stencil.Proofs.Expr.RoundTrip
import Stencil.Proofs.Lexer.Diagnostics
import Stencil.Proofs.Lexer.Moves
import Stencil.Proofs.Lexer.Openings
import Stencil.Proofs.Lexer.Quoted
import Stencil.Proofs.Lexer.Regions
import Stencil.Proofs.Lexer.Spelling
import Stencil.Proofs.Lexer.Termination
import Stencil.Proofs.Lexer.Tiling
import Stencil.Proofs.Literal.Writing
import Stencil.Proofs.Parse.Accounting
import Stencil.Proofs.Parse.Outcome
import Stencil.Proofs.Parse.Passing
import Stencil.Proofs.Parse.Stretch
import Stencil.Proofs.Parse.Taking
import Stencil.Proofs.Stmt.Passing
import Stencil.Proofs.Stmt.PlainText
import Stencil.Proofs.Stmt.TagText
import Stencil.Proofs.Template.PlainText
import Stencil.Proofs.Template.RoundTrip
import Stencil.Proofs.Text.Cutting
import Stencil.Proofs.Token.Items
import Stencil.Proofs.Token.Region
import Stencil.Settings.Basic
import Stencil.Settings.Toml
import Stencil.Source.LineIndex
import Stencil.Source.Position
import Stencil.Stmt.Basic
import Stencil.Stmt.Header
import Stencil.Stmt.Parse
import Stencil.Stmt.Walk
import Stencil.SyntaxError
import Stencil.Template.Parse
import Stencil.Text.Blank
import Stencil.Text.Cut
import Stencil.Text.Hidden
import Stencil.Text.Lower
import Stencil.Text.Quoted
import Stencil.Token.Basic
import Stencil.Token.Kind
import Stencil.Token.Stream
import Stencil.Token.Tally
import Stencil.Toml.Reader
import Stencil.Toml.Scalar
import Stencil.Proofs.Lexer.Diagnostics
import Stencil.Proofs.Expr.Soundness
import Stencil.Proofs.Parse.Windows
import Stencil.Proofs.Expr.Windows
import Stencil.Proofs.Stmt.Windows
import Stencil.Proofs.Template.Composition
import Stencil.Proofs.Stmt.Printing
import Stencil.Proofs.Lexer.Pieces
import Stencil.Proofs.Stmt.WrittenPieces
import Stencil.Proofs.Stmt.WrittenTags
import Stencil.Proofs.Template.WrittenTemplates
import Stencil.Proofs.Expr.Repeating
import Stencil.Proofs.Stmt.Repeating
import Stencil.Proofs.Stmt.Composed
import Stencil.Proofs.Stmt.Following
import Stencil.Proofs.Stmt.Progress
import Stencil.Proofs.Stmt.Nesting
import Stencil.Proofs.Template.Progress
import Stencil.Proofs.Template.Extensions
import Stencil.Proofs.Expr.WellFormed
import Stencil.Proofs.Stmt.Calls
import Stencil.Proofs.Stmt.Enclosing
import Stencil.Proofs.Stmt.Soundness
import Stencil.Proofs.Stmt.WellFormed
import Stencil.Proofs.Template.Nesting
import Stencil.Proofs.Template.WellFormed
import Stencil.Proofs.Parse.Blaming
import Stencil.Proofs.Expr.Blaming
import Stencil.Proofs.Stmt.Blaming
import Stencil.Proofs.Template.History
import Stencil.Proofs.Template.FirstError
import Stencil.Proofs.Stmt.CallPairs
import Stencil.Proofs.Template.CallPairs
import Stencil.Proofs.Parse.Echoing
import Stencil.Proofs.Expr.Endings
import Stencil.Proofs.Expr.Echoing
import Stencil.Proofs.Template.TrailingWords
import Stencil.Proofs.Expr.Stopping
import Stencil.Proofs.Stmt.TagStops
import Stencil.Proofs.Template.SingleTags
import Stencil.Proofs.Lexer.Trimming
import Stencil.Proofs.Template.Strings
import Stencil.Proofs.Template.DottedIndices
import Stencil.Proofs.Template.RawBlocks
import Stencil.Proofs.Stmt.Interface
import Stencil.Proofs.Stmt.Declining
import Stencil.Proofs.Template.Declining
import Stencil.Proofs.Lexer.FoundOpenings
import Stencil.Proofs.Lexer.InnerText
import Stencil.Proofs.Lexer.LineStatements
import Stencil.Proofs.Lexer.Occurrences
import Stencil.Proofs.Token.Commented
import Stencil.Proofs.Parse.Stepwise
import Stencil.Proofs.Expr.Stepwise
import Stencil.Proofs.Stmt.Stepwise
import Stencil.Proofs.Stmt.Mirroring
import Stencil.Proofs.Stmt.Commented
import Stencil.Proofs.Template.Commented
import Stencil.Proofs.Source.Lines
import Stencil.Proofs.Source.Rendering
import Stencil.Proofs.Template.ErrorSpans
import Stencil.Proofs.Stmt.WalkOrder
import Stencil.Proofs.Expr.Lines
import Stencil.Proofs.Stmt.Lines
import Stencil.Proofs.Template.Lines
import Stencil.Proofs.Stmt.Names
import Stencil.Proofs.Stmt.Macros
import Stencil.Proofs.Template.Macros
import Stencil.Proofs.Extension.Ownership
import Stencil.Proofs.Stmt.Addresses
import Stencil.Proofs.Template.Traversal
import Stencil.Proofs.Json.Records
import Stencil.Proofs.Json.Exprs
import Stencil.Proofs.Json.Stmts
import Stencil.Proofs.Json.RoundTrip
import Stencil.Proofs.Lexer.Classes
import Stencil.Proofs.Lexer.Munching
import Stencil.Proofs.Template.IntegerTags
