import SqlTemplate.Cache.Flight
import SqlTemplate.Cache.Key
import SqlTemplate.Cache.Lru
import SqlTemplate.Cache.Options
import SqlTemplate.Cache.Service
import SqlTemplate.Cache.Store
import SqlTemplate.Cache.Task
import SqlTemplate.Cause
import SqlTemplate.Digest.Blake3
import SqlTemplate.Error
import SqlTemplate.Json.Basic
import SqlTemplate.Json.Members
import SqlTemplate.Json.Part
import SqlTemplate.Json.Reader
import SqlTemplate.Json.Writer
import SqlTemplate.Number.Binary
import SqlTemplate.Number.Decimal
import SqlTemplate.Number.Integer
import SqlTemplate.Number.Octets
import SqlTemplate.Number.Shortest
import SqlTemplate.Proofs.Basic
import SqlTemplate.Proofs.Cache.Canonicity
import SqlTemplate.Proofs.Cache.Encoding
import SqlTemplate.Proofs.Cache.Flights
import SqlTemplate.Proofs.Cache.Invalidation
import SqlTemplate.Proofs.Cache.Results
import SqlTemplate.Proofs.Cache.Run
import SqlTemplate.Proofs.Cache.Sequential
import SqlTemplate.Proofs.Cache.SingleFlight
import SqlTemplate.Proofs.Cache.Stores
import SqlTemplate.Proofs.Cache.Transparency
import SqlTemplate.Proofs.Execution.Binding
import SqlTemplate.Proofs.Execution.Blocks
import SqlTemplate.Proofs.Execution.Invariant
import SqlTemplate.Proofs.Execution.Logic
import SqlTemplate.Proofs.Execution.Worlds
import SqlTemplate.Proofs.Number.Rounding
import SqlTemplate.Proofs.Number.Widening
import SqlTemplate.Proofs.Shape.Exchange
import SqlTemplate.Proofs.Shape.Failures
import SqlTemplate.Proofs.Shape.Knowledge
import SqlTemplate.Proofs.Shape.Operands
import SqlTemplate.Proofs.Shape.Points
import SqlTemplate.Proofs.Shape.Soundness
import SqlTemplate.Proofs.Shape.Stale
import SqlTemplate.Proofs.Shape.Typed
import SqlTemplate.Proofs.Statement.Columns
import SqlTemplate.Proofs.Statement.Noninterference
import SqlTemplate.Proofs.Statement.Pieces
import SqlTemplate.Proofs.Statement.Sessions
import SqlTemplate.Proofs.Template.Parts
import SqlTemplate.Proofs.Template.Reading
import SqlTemplate.Proofs.Template.Scope
import SqlTemplate.Shape.Basic
import SqlTemplate.Shape.Check
import SqlTemplate.Shape.Reflection
import SqlTemplate.Statement.Basic
import SqlTemplate.Statement.Config
import SqlTemplate.Statement.Conversion
import SqlTemplate.Statement.Function
import SqlTemplate.Statement.Marking
import SqlTemplate.Statement.Operation
import SqlTemplate.Statement.Placeholder
import SqlTemplate.Statement.Pool
import SqlTemplate.Statement.Rendering
import SqlTemplate.Statement.Rows
import SqlTemplate.Statement.Scan
import SqlTemplate.Statement.Settings
import SqlTemplate.Statement.Spacing
import SqlTemplate.Template.Block
import SqlTemplate.Template.Builtin
import SqlTemplate.Template.Describe
import SqlTemplate.Template.Eval
import SqlTemplate.Template.Fault
import SqlTemplate.Template.Pipeline
import SqlTemplate.Template.Segment
import SqlTemplate.Template.Token
import SqlTemplate.Template.Tree
import SqlTemplate.Text.Blank
import SqlTemplate.Text.CodeRange
import SqlTemplate.Text.FieldName
import SqlTemplate.Text.Hex
import SqlTemplate.Text.Keyed
import SqlTemplate.Text.Letter
import SqlTemplate.Text.Lowercase
import SqlTemplate.Text.Quoted
import SqlTemplate.Text.Utf8
import SqlTemplate.Text.Visible
import SqlTemplate.Time.Calendar
import SqlTemplate.Time.Instant
import SqlTemplate.Time.Rfc3339
import SqlTemplate.Transaction
import SqlTemplate.Value.Basic
import SqlTemplate.Value.Document
import SqlTemplate.Value.Order
import SqlTemplate.Value.Text
import SqlTemplate.Wire.ColumnType
import SqlTemplate.Wire.Decode
import SqlTemplate.Wire.Encode
import SqlTemplate.Wire.Server
import SqlTemplate.Proofs.Execution.Marker
import SqlTemplate.Proofs.Statement.Marked
import SqlTemplate.Proofs.Template.Faults
import SqlTemplate.Proofs.Template.Grammar
import SqlTemplate.Proofs.Template.Derivation
import SqlTemplate.Proofs.Template.WellFormed
import SqlTemplate.Proofs.Statement.Spacing
import SqlTemplate.Proofs.Statement.Layout
import SqlTemplate.Proofs.Statement.Literal
import SqlTemplate.Proofs.Statement.Calls
import SqlTemplate.Proofs.Statement.Histories
import SqlTemplate.Proofs.Number.Octets
import SqlTemplate.Proofs.Value.Document
import SqlTemplate.Proofs.Wire.RoundTrip
import SqlTemplate.Proofs.Template.Splitting
import SqlTemplate.Proofs.Template.Comments
import SqlTemplate.Proofs.Template.Resolution
import SqlTemplate.Proofs.Shape.Fields
import SqlTemplate.Proofs.Shape.Resolution
import SqlTemplate.Proofs.Execution.Congruence
import SqlTemplate.Proofs.Execution.Policies
import SqlTemplate.Proofs.Statement.Hooks
import SqlTemplate.Proofs.Statement.Course
import SqlTemplate.Proofs.Statement.Documents
import SqlTemplate.Proofs.Template.Interiors
import SqlTemplate.Proofs.Template.Literals
import SqlTemplate.Proofs.Template.Quoting
import SqlTemplate.Proofs.Template.Lines
import SqlTemplate.Proofs.Cache.Recency
import SqlTemplate.Proofs.Template.Lexemes
import SqlTemplate.Proofs.Statement.Words
import SqlTemplate.Proofs.Statement.Rows
import SqlTemplate.Proofs.Value.Contents
import SqlTemplate.Proofs.Cache.Abandoned
import SqlTemplate.Proofs.Statement.Scanning
import SqlTemplate.Proofs.Transaction.Scopes
import SqlTemplate.Proofs.Execution.Refusals
import SqlTemplate.Proofs.Statement.Integers
import SqlTemplate.Proofs.Statement.Insertion
import SqlTemplate.Proofs.Template.Occurrences
import SqlTemplate.Proofs.Statement.Registered
