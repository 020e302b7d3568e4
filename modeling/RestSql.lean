import RestSql.Http.Service
import RestSql.Main
import RestSql.Proofs.Sql.Lexeme
import RestSql.Proofs.Sql.Sketch
import RestSql.Proofs.Sql.Filling
import RestSql.Proofs.Statement.Split
import RestSql.Proofs.Statement.Binding
import RestSql.Proofs.Statement.Sketch
import RestSql.Proofs.Statement.Content
import RestSql.Proofs.Statement.Decoding
import RestSql.Proofs.Statement.Slots
import RestSql.Proofs.Statement.Writes
import RestSql.Proofs.Http.Journal
import RestSql.Proofs.Request.Operations
import RestSql.Proofs.Request.Guarded
import RestSql.Proofs.Double.Integers
import RestSql.Proofs.Request.Integers
import RestSql.Proofs.Request.Wire
import RestSql.Proofs.Request.Entries
import RestSql.Proofs.Request.Interference
import RestSql.Proofs.Http.Exchange
import RestSql.Proofs.Json.Order
import RestSql.Proofs.Json.Reading
import RestSql.Proofs.Text.Utf8
import RestSql.Proofs.Request.Objects
import RestSql.Proofs.Request.Members
import RestSql.Proofs.Statement.Reads
import RestSql.Proofs.Request.Window
import RestSql.Proofs.Cli.Preview
import RestSql.Proofs.Request.Qualified
import RestSql.Proofs.Settings.Schema
import RestSql.Proofs.Cli.Schema
import RestSql.Proofs.Request.Grammar
import RestSql.Proofs.Double.Rounding
import RestSql.Proofs.Double.Shortest
import RestSql.Proofs.Sql.Literal
import RestSql.Proofs.Json.Numbers
import RestSql.Proofs.Json.Equality
import RestSql.Proofs.Request.TypedFilters
import RestSql.Proofs.Double.Nearest
import RestSql.Proofs.Sql.Inference
import RestSql.Proofs.Request.Lists
import RestSql.Proofs.Settings.Environment
import RestSql.Proofs.Request.Pairs
import RestSql.Proofs.Settings.Window
import RestSql.Proofs.Json.Reordered
import RestSql.Proofs.Request.Columns
import RestSql.Proofs.Json.Finite
import RestSql.Proofs.Json.Numerals
import RestSql.Proofs.Json.Pretty
import RestSql.Proofs.Statement.Rereading
import RestSql.Proofs.Sql.Quoting
import RestSql.Proofs.Sql.Spelling
import RestSql.Proofs.Cli.Listing
import RestSql.Proofs.Statement.Names
