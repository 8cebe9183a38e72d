import Tabular.Session
import Tabular.Settings.Environment
import Tabular.Settings.Json
import Tabular.Proofs.Action
import Tabular.Proofs.Binary64.Bits
import Tabular.Proofs.Binary64.Rounding
import Tabular.Proofs.Binary64.Text
import Tabular.Proofs.Value.Order
import Tabular.Proofs.Grammar.Expression
import Tabular.Proofs.Grammar.Nesting
import Tabular.Proofs.Grammar.Statement
import Tabular.Proofs.Tokens.Tokenizing
import Tabular.Proofs.Tokens.Placement
import Tabular.Proofs.Tokens.Written
import Tabular.Proofs.Reading.Recognition
import Tabular.Proofs.Reading.Expression
import Tabular.Proofs.Reading.Statement
import Tabular.Proofs.Reading.Scanning
import Tabular.Proofs.Rendering.Tokens
import Tabular.Proofs.Rendering.RoundTrip
import Tabular.Proofs.Rendering.Rows
import Tabular.Proofs.Rendering.Rereading
import Tabular.Proofs.Storage.Lookup
import Tabular.Proofs.Storage.Integrity
import Tabular.Proofs.Storage.Atomicity
import Tabular.Proofs.Storage.Effects
import Tabular.Proofs.Storage.Locality
import Tabular.Proofs.Query.Sorting
import Tabular.Proofs.Query.Meaning
import Tabular.Proofs.Query.Interpretation
import Tabular.Proofs.Session.Steps
import Tabular.Proofs.Session.Profiles
import Tabular.Proofs.Session.Backends
import Tabular.Proofs.Session.Independence
import Tabular.Proofs.Session.Accounts
import Tabular.Proofs.Session.RowRoundTrip
import Tabular.Proofs.Expr.Typing
import Tabular.Proofs.Query.Comparison
import Tabular.Proofs.Tokens.Separation
import Tabular.Proofs.Reading.Orderly
import Tabular.Proofs.Reading.SideBySide
import Tabular.Proofs.Reading.Uniform
import Tabular.Proofs.Reading.Layout
import Tabular.Proofs.Tokens.Faults
import Tabular.Proofs.Tokens.Iteration
import Tabular.Proofs.Tokens.Blanking
import Tabular.Proofs.Reading.Lookahead
import Tabular.Proofs.Reading.Reuse
import Tabular.Proofs.Expr.Recursion
import Tabular.Proofs.Reading.Depth
import Tabular.Proofs.Expr.Integers
import Tabular.Proofs.Storage.Insertion
import Tabular.Proofs.Storage.ColumnLists
import Tabular.Proofs.Query.SortLaws
import Tabular.Proofs.Query.Limits
import Tabular.Proofs.Query.Stars
import Tabular.Proofs.Expr.Columns
import Tabular.Proofs.Query.Conditions
import Tabular.Proofs.Query.Bounds
import Tabular.Proofs.Value.Transitivity
import Tabular.Proofs.Query.Unknown
import Tabular.Proofs.Query.Json
import Tabular.Proofs.Settings.Environment
import Tabular.Proofs.Storage.Names
import Tabular.Proofs.Query.RowOrder
import Tabular.Proofs.Query.Numerals
import Tabular.Proofs.Tokens.Progress
