import RecordStore.Catalog.Catalog
import RecordStore.Catalog.Catalogs
import RecordStore.Catalog.Entry
import RecordStore.Catalog.Listing
import RecordStore.Data.Memo
import RecordStore.Data.Ordered
import RecordStore.Database
import RecordStore.Decimal.Reading
import RecordStore.Decimal.Shortest
import RecordStore.Engine.Basic
import RecordStore.Engine.Cell
import RecordStore.Engine.Connection
import RecordStore.Engine.Memory.Command
import RecordStore.Engine.Memory.Refusal
import RecordStore.Engine.Memory.Tables
import RecordStore.Engine.Memory.Token
import RecordStore.Engine.Transaction
import RecordStore.Error
import RecordStore.Json.Format
import RecordStore.Json.Instances
import RecordStore.Json.Number
import RecordStore.Json.Syntax
import RecordStore.Options
import RecordStore.Query.Condition
import RecordStore.Query.Draft
import RecordStore.Query.JoinPath
import RecordStore.Query.Layout
import RecordStore.Query.Node
import RecordStore.Query.Plan
import RecordStore.Query.Result
import RecordStore.Query.Selection
import RecordStore.Record.Template
import RecordStore.Row
import RecordStore.Schema.Definition
import RecordStore.Schema.Field
import RecordStore.Schema.FieldType
import RecordStore.Schema.Link
import RecordStore.Schema.Metadata
import RecordStore.Schema.Model
import RecordStore.Schema.Names
import RecordStore.Schema.Table
import RecordStore.Sql.Clause
import RecordStore.Sql.Comparison
import RecordStore.Sql.Fragment
import RecordStore.Sql.Select
import RecordStore.Sql.Statement
import RecordStore.Store.Outcome
import RecordStore.Store.Session
import RecordStore.Store.Transaction
import RecordStore.Text.Basic
import RecordStore.Text.Integer
import RecordStore.Text.Shown
import RecordStore.Text.Utf8
import RecordStore.Value
import RecordStore.Proofs.Query.Vocabulary
import RecordStore.Proofs.Query.Wording
import RecordStore.Proofs.Sql.Placeholders
import RecordStore.Proofs.Query.BindingOrder
import RecordStore.Proofs.Query.Columns
import RecordStore.Proofs.Sql.Tokens
import RecordStore.Proofs.Sql.Precedence
import RecordStore.Proofs.Sql.Meaning
import RecordStore.Proofs.Query.Meaning
import RecordStore.Proofs.Text.Integers
import RecordStore.Proofs.Data.Ordered
import RecordStore.Proofs.Schema.WellFormed
import RecordStore.Proofs.Schema.Rows
import RecordStore.Proofs.Schema.LinkRows
import RecordStore.Proofs.Schema.Assembly
import RecordStore.Proofs.Schema.Reopening
import RecordStore.Proofs.Catalog.Reopening
import RecordStore.Proofs.Store.Filling
import RecordStore.Proofs.Schema.Storage
import RecordStore.Proofs.Database.Reopening
import RecordStore.Proofs.Database.Transactions
import RecordStore.Proofs.Schema.Indexing
import RecordStore.Proofs.Query.Direction
import RecordStore.Proofs.Sql.Evaluation
import RecordStore.Proofs.Query.Shortcut
import RecordStore.Proofs.Query.Introductions
import RecordStore.Proofs.Query.QueryTables
import RecordStore.Proofs.Query.Issues
import RecordStore.Proofs.Query.KeyColumns
import RecordStore.Proofs.Schema.Columns
import RecordStore.Proofs.Store.Definitions
import RecordStore.Proofs.Store.DefiningSample
import RecordStore.Proofs.Schema.Migration
import RecordStore.Proofs.Database.Migration
import RecordStore.Proofs.Query.OuterJoins
import RecordStore.Proofs.Store.Cells
import RecordStore.Proofs.Store.Keeper
import RecordStore.Proofs.Store.KeeperSample
import RecordStore.Proofs.Catalog.Entries
import RecordStore.Proofs.Catalog.Coherence
import RecordStore.Proofs.Record.Rows
import RecordStore.Proofs.Record.RoundTrip
import RecordStore.Proofs.Query.Aliases
import RecordStore.Proofs.Query.Inlining
import RecordStore.Proofs.Query.Negation
import RecordStore.Proofs.Engine.Transactions
import RecordStore.Proofs.Engine.KeptStatements
import RecordStore.Proofs.Schema.Registration
import RecordStore.Proofs.Schema.BestLink
import RecordStore.Proofs.Query.ForeignKeys
import RecordStore.Proofs.Sql.Patterns
import RecordStore.Proofs.Query.Wildcards
import RecordStore.Proofs.Schema.NameLookups
import RecordStore.Proofs.Data.StableOrder
import RecordStore.Proofs.Catalog.Listings
import RecordStore.Proofs.Schema.SubAreas
import RecordStore.Proofs.Record.Placeholders
import RecordStore.Proofs.Record.Uses
import RecordStore.Proofs.Sql.QuotedTokens
