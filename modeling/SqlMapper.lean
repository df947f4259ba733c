import SqlMapper.Calendar.Date
import SqlMapper.Calendar.Rfc3339
import SqlMapper.Calendar.Text
import SqlMapper.Calendar.Time
import SqlMapper.Calendar.Timestamp
import SqlMapper.Catalog.Database
import SqlMapper.Catalog.Features
import SqlMapper.Catalog.Ordered
import SqlMapper.Condition.Basic
import SqlMapper.Condition.Sql
import SqlMapper.Exchange.Reply
import SqlMapper.Exchange.Statements
import SqlMapper.Exchange.Wire
import SqlMapper.Failure
import SqlMapper.Migration.Edit
import SqlMapper.Migration.Plan
import SqlMapper.Migration.Session
import SqlMapper.Number.Binary
import SqlMapper.Number.Decimal
import SqlMapper.Number.DecimalBinary
import SqlMapper.Number.FloatText
import SqlMapper.Number.Integer
import SqlMapper.Number.Numeral
import SqlMapper.Number.Power
import SqlMapper.Number.Rounding
import SqlMapper.Number.Shortest
import SqlMapper.Proofs.Catalog.Slot
import SqlMapper.Proofs.Catalog.Cache
import SqlMapper.Proofs.Condition.Compiled
import SqlMapper.Proofs.Condition.Grammar
import SqlMapper.Proofs.Condition.Leaves
import SqlMapper.Proofs.Condition.Precedence
import SqlMapper.Proofs.Condition.Truth
import SqlMapper.Proofs.Lexis.Operand
import SqlMapper.Proofs.Lexis.Piece
import SqlMapper.Proofs.Lexis.Token
import SqlMapper.Proofs.Result
import SqlMapper.Proofs.Schema.Lookup
import SqlMapper.Proofs.Schema.Shape
import SqlMapper.Proofs.Statement.Basic
import SqlMapper.Proofs.Statement.Guard
import SqlMapper.Proofs.Statement.Noninterference
import SqlMapper.Proofs.Statement.Placeholder
import SqlMapper.Proofs.Value.Equality
import SqlMapper.Record.Entity
import SqlMapper.Record.Repository
import SqlMapper.Scenario.Basic
import SqlMapper.Scenario.Items
import SqlMapper.Scenario.Readings
import SqlMapper.Scenario.Run
import SqlMapper.Scenario.Samples
import SqlMapper.Scenario.Shapes
import SqlMapper.Scenario.Texts
import SqlMapper.Schema.Column
import SqlMapper.Schema.Index
import SqlMapper.Schema.Mapping
import SqlMapper.Schema.Table
import SqlMapper.Sql.Dialect
import SqlMapper.Sql.Literal
import SqlMapper.Sql.Piece
import SqlMapper.Sql.Request
import SqlMapper.Sql.Reserved
import SqlMapper.Sql.TypeName
import SqlMapper.Statement.Insert
import SqlMapper.Statement.Query
import SqlMapper.Statement.Reference
import SqlMapper.Statement.Update
import SqlMapper.Storage.Cell
import SqlMapper.Storage.KeyedTable
import SqlMapper.Storage.Location
import SqlMapper.Storage.Numeric
import SqlMapper.Text.Blank
import SqlMapper.Text.Case
import SqlMapper.Text.Escape
import SqlMapper.Text.Hex
import SqlMapper.Text.Join
import SqlMapper.Text.Occurrence
import SqlMapper.Text.Quoted
import SqlMapper.Text.Truncate
import SqlMapper.Text.Unprintable
import SqlMapper.Text.Utf8
import SqlMapper.Value.Basic
import SqlMapper.Value.Coercion
import SqlMapper.Value.Equality
import SqlMapper.Value.Message
import SqlMapper.Value.Ty
import SqlMapper.Value.Uuid
import SqlMapper.Proofs.Migration.Commit
import SqlMapper.Proofs.Migration.Merge
import SqlMapper.Proofs.Migration.Plan
import SqlMapper.Proofs.Migration.Idempotence
import SqlMapper.Proofs.Migration.Completeness
import SqlMapper.Proofs.Migration.Matching
import SqlMapper.Proofs.Migration.Effect
import SqlMapper.Proofs.Migration.Field
import SqlMapper.Proofs.Migration.Soundness
import SqlMapper.Proofs.Migration.Change
import SqlMapper.Proofs.Migration.Remainder
import SqlMapper.Proofs.Catalog.Reached
import SqlMapper.Proofs.Migration.Resumption
import SqlMapper.Proofs.Number.Numeral
import SqlMapper.Proofs.Text.Utf8
import SqlMapper.Proofs.Text.Blank
import SqlMapper.Proofs.Calendar.Text
import SqlMapper.Proofs.Calendar.Rfc3339
import SqlMapper.Proofs.Number.Decimal
import SqlMapper.Proofs.Text.Hex
import SqlMapper.Proofs.Value.Uuid
import SqlMapper.Proofs.Storage.RoundTrip
import SqlMapper.Proofs.Schema.Mapping
import SqlMapper.Proofs.Record.Wrap
import SqlMapper.Proofs.Record.RoundTrip
import SqlMapper.Proofs.Exchange.Executor
import SqlMapper.Proofs.Record.Insertion
import SqlMapper.Proofs.Record.Batch
import SqlMapper.Proofs.Exchange.Forms
import SqlMapper.Proofs.Exchange.Surfaced
import SqlMapper.Proofs.Refusal.Statement
import SqlMapper.Proofs.Refusal.Migration
import SqlMapper.Proofs.Record.Fallback
import SqlMapper.Proofs.Refusal.Innocence
import SqlMapper.Proofs.Refusal.Unsent
import SqlMapper.Proofs.Store.Command
import SqlMapper.Proofs.Store.Engine
import SqlMapper.Proofs.Store.Compiled
import SqlMapper.Proofs.Record.Save
import SqlMapper.Proofs.Lexis.Window
import SqlMapper.Proofs.Statement.Window
import SqlMapper.Proofs.Statement.Paging
import SqlMapper.Proofs.Lexis.Vocabulary
import SqlMapper.Proofs.Statement.Wording
import SqlMapper.Proofs.Statement.Resolution
import SqlMapper.Proofs.Statement.Agreement
import SqlMapper.Proofs.Schema.Validity
import SqlMapper.Proofs.Migration.Origin
import SqlMapper.Proofs.Migration.Validity
import SqlMapper.Proofs.Catalog.Validity
import SqlMapper.Proofs.Catalog.Placement
import SqlMapper.Proofs.Statement.Address
import SqlMapper.Proofs.Migration.Lifecycle
import SqlMapper.Proofs.Condition.Conjunction
import SqlMapper.Proofs.Lexis.Identifier
import SqlMapper.Proofs.Lexis.Literal
import SqlMapper.Proofs.Value.Literal
import SqlMapper.Proofs.Condition.Null
import SqlMapper.Proofs.Record.Unmapped
import SqlMapper.Proofs.Schema.Key
import SqlMapper.Proofs.Value.RoundTrip
import SqlMapper.Proofs.Calendar.Day
import SqlMapper.Proofs.Calendar.Instant
import SqlMapper.Proofs.Number.Integer
import SqlMapper.Proofs.Value.Integer
import SqlMapper.Proofs.Value.IntegerForm
import SqlMapper.Proofs.Value.Instant
import SqlMapper.Proofs.Record.CalendarEnd
import SqlMapper.Proofs.Text.Order
import SqlMapper.Proofs.Number.Order
import SqlMapper.Proofs.Calendar.Order
import SqlMapper.Proofs.Storage.Order
import SqlMapper.Proofs.Schema.Building
import SqlMapper.Proofs.Statement.Renaming
import SqlMapper.Proofs.Text.Join
import SqlMapper.Proofs.Text.Truncate
import SqlMapper.Proofs.Schema.Difference
import SqlMapper.Proofs.Record.CellOrder
import SqlMapper.Proofs.Storage.KeyedTable
import SqlMapper.Proofs.Scenario.Run
