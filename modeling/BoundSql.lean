import BoundSql.Binary64
import BoundSql.Binary64.Decimal
import BoundSql.Binary64.Shortest
import BoundSql.Cli.Arguments
import BoundSql.Cli.Compile
import BoundSql.Cli.Event
import BoundSql.Cli.Grammar
import BoundSql.Cli.Report
import BoundSql.Cli.Run
import BoundSql.Diagnostic
import BoundSql.Expr.Clause
import BoundSql.Expr.Column
import BoundSql.Expr.Compile
import BoundSql.Expr.Predicate
import BoundSql.Expr.Projection
import BoundSql.Files.Basic
import BoundSql.Files.Path
import BoundSql.Files.Tree
import BoundSql.Json.Basic
import BoundSql.Json.Character
import BoundSql.Json.Number
import BoundSql.Json.Printer
import BoundSql.Json.Reader
import BoundSql.Literal
import BoundSql.Main
import BoundSql.Schema.Basic
import BoundSql.Schema.Reader
import BoundSql.Schema.Session
import BoundSql.Schema.Store
import BoundSql.Schema.Writer
import BoundSql.Statement.Basic
import BoundSql.Statement.Delete
import BoundSql.Statement.Insert
import BoundSql.Statement.Select
import BoundSql.Statement.Update
import BoundSql.Table.Definition
import BoundSql.Table.Handle
import BoundSql.Table.Query
import BoundSql.Table.Scope
import BoundSql.Table.Source
import BoundSql.Text.Blank
import BoundSql.Text.Doubled
import BoundSql.Text.Hexadecimal
import BoundSql.Text.Split
import BoundSql.Toml.Comments
import BoundSql.Toml.Document
import BoundSql.Toml.Editing
import BoundSql.Toml.Library
import BoundSql.Toml.Node
import BoundSql.Toml.Quoted
import BoundSql.Toml.Reader
import BoundSql.Toml.Scalar
import BoundSql.Toml.Writer
import BoundSql.Value
import BoundSql.Proofs.Expr.Site
import BoundSql.Proofs.Expr.Text
import BoundSql.Proofs.Statement.Text
import BoundSql.Proofs.Statement.Names
import BoundSql.Proofs.Statement.Placeholders
import BoundSql.Proofs.Statement.Alignment
import BoundSql.Proofs.Statement.Values
import BoundSql.Proofs.Sql.Condition
import BoundSql.Proofs.Sql.Layout
import BoundSql.Proofs.Sql.Delimited
import BoundSql.Proofs.Expr.Tokens
import BoundSql.Proofs.Expr.Grouping
import BoundSql.Proofs.Expr.Faults
import BoundSql.Proofs.Expr.Walk
import BoundSql.Proofs.Statement.Clause
import BoundSql.Proofs.Statement.Verdict
import BoundSql.Proofs.Statement.Tokens
import BoundSql.Proofs.Statement.Decoding
import BoundSql.Proofs.Statement.Recovery
import BoundSql.Proofs.Schema.Resolve
import BoundSql.Proofs.Statement.OneTable
import BoundSql.Proofs.Except
import BoundSql.Proofs.Cli.Outcome
import BoundSql.Proofs.Table.Chain
import BoundSql.Proofs.Table.Records
import BoundSql.Proofs.Table.Answer
import BoundSql.Proofs.Table.Invariant
import BoundSql.Proofs.Table.SameRows
import BoundSql.Proofs.Cli.Parts
import BoundSql.Proofs.Cli.Soundness
import BoundSql.Proofs.Expr.Chained
import BoundSql.Proofs.Statement.Count
import BoundSql.Proofs.Statement.Joins
import BoundSql.Proofs.Table.Narrowing
import BoundSql.Proofs.Cli.Flags
import BoundSql.Proofs.Table.Insertion
import BoundSql.Proofs.Cli.Noninterference
import BoundSql.Proofs.Toml.Lookahead
import BoundSql.Proofs.Toml.Strings
import BoundSql.Proofs.Toml.Values
import BoundSql.Proofs.Toml.Trivia
import BoundSql.Proofs.Toml.Lines
import BoundSql.Proofs.Toml.Printing
import BoundSql.Proofs.Toml.Comments
import BoundSql.Proofs.Toml.Library
import BoundSql.Proofs.Toml.Places
import BoundSql.Proofs.Schema.Written
import BoundSql.Proofs.Schema.Layout
import BoundSql.Proofs.Schema.Relining
import BoundSql.Proofs.Toml.Lawful
import BoundSql.Proofs.Toml.Explanation
import BoundSql.Proofs.Schema.RoundTrip
import BoundSql.Proofs.Files.Growth
import BoundSql.Proofs.Files.Closed
import BoundSql.Proofs.Schema.Storage
import BoundSql.Proofs.Schema.Session
import BoundSql.Proofs.Expr.Meaning
import BoundSql.Proofs.Table.Refinement
import BoundSql.Proofs.Table.Conjunction
import BoundSql.Proofs.Expr.Mapping
import BoundSql.Proofs.Schema.Verdict
import BoundSql.Proofs.Lookup
import BoundSql.Proofs.Statement.SelectList
import BoundSql.Proofs.Binary64.Ranks
import BoundSql.Proofs.Binary64.Shortest
import BoundSql.Proofs.Binary64.Rounding
import BoundSql.Proofs.Json.Numbers
import BoundSql.Proofs.Json.Scaling
import BoundSql.Proofs.Json.Reals
import BoundSql.Proofs.Json.Library
import BoundSql.Proofs.Json.Agreement
import BoundSql.Proofs.Json.Lossless
import BoundSql.Proofs.Statement.Inlining
import BoundSql.Proofs.Table.WrittenColumns
import BoundSql.Proofs.Signs
import BoundSql.Proofs.Binary64.Nearest
import BoundSql.Proofs.Cli.Literals
import BoundSql.Proofs.Json.Grammar
import BoundSql.Proofs.Json.Lexing
import BoundSql.Proofs.Json.Readers
import BoundSql.Proofs.Json.Reading
import BoundSql.Proofs.Json.Printing
import BoundSql.Proofs.Json.Lawful
import BoundSql.Proofs.Json.Records
import BoundSql.Proofs.Statement.Building
import BoundSql.Proofs.Expr.Appending
import BoundSql.Proofs.Toml.Preface
