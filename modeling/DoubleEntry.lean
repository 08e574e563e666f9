import DoubleEntry.Account
import DoubleEntry.Balance.Account
import DoubleEntry.Balance.Basic
import DoubleEntry.Binary64.Basic
import DoubleEntry.Binary64.Shortest
import DoubleEntry.Calendar.Timestamp
import DoubleEntry.Calendar.Reader
import DoubleEntry.Config
import DoubleEntry.Database.Numeric
import DoubleEntry.Database.Rows
import DoubleEntry.Database.Schema
import DoubleEntry.Database.Script
import DoubleEntry.Database.Session
import DoubleEntry.Database.Statements
import DoubleEntry.Database.Store
import DoubleEntry.Decimal.Basic
import DoubleEntry.Decimal.Difference
import DoubleEntry.Decimal.Text
import DoubleEntry.Engine.Error
import DoubleEntry.Engine.Ledger
import DoubleEntry.Event
import DoubleEntry.Expr.Basic
import DoubleEntry.Expr.Reader
import DoubleEntry.Primitive
import DoubleEntry.Journal
import DoubleEntry.Json.Basic
import DoubleEntry.Json.Decode
import DoubleEntry.Json.Reader
import DoubleEntry.OrdMap
import DoubleEntry.Outbox.Stream
import DoubleEntry.Param.Definition
import DoubleEntry.Param.Value
import DoubleEntry.Posting.Balanced
import DoubleEntry.Posting.Resolve
import DoubleEntry.PostingError
import DoubleEntry.Power
import DoubleEntry.Store.Call
import DoubleEntry.Store.Faults
import DoubleEntry.Store.State
import DoubleEntry.Template.Basic
import DoubleEntry.Template.Create
import DoubleEntry.Text.Basic
import DoubleEntry.Text.Quoted
import DoubleEntry.Transaction
import DoubleEntry.Uuid
import DoubleEntry.Wire.Error
import DoubleEntry.Wire.Event
import DoubleEntry.Wire.Ledger
import DoubleEntry.Wire.Scalar
import DoubleEntry.Wire.Script
import DoubleEntry.Wire.Template
import DoubleEntry.Proofs.Store.Outcome
import DoubleEntry.Proofs.Engine.Operations
import DoubleEntry.Proofs.Engine.Writes
import DoubleEntry.Proofs.Results
import DoubleEntry.Proofs.Store.Success
import DoubleEntry.Proofs.Engine.Atomicity
import DoubleEntry.Proofs.Balance.Deltas
import DoubleEntry.Proofs.Balance.History
import DoubleEntry.Proofs.Decimal.Sums
import DoubleEntry.Proofs.Decimal.Rounding
import DoubleEntry.Proofs.Posting.Balanced
import DoubleEntry.Proofs.Balance.Totals
import DoubleEntry.Proofs.Balance.Trial
import DoubleEntry.Proofs.Param.Binding
import DoubleEntry.Proofs.Template.Typing
import DoubleEntry.Proofs.Template.Soundness
import DoubleEntry.Proofs.Template.Agreement
import DoubleEntry.Proofs.Engine.Contract
import DoubleEntry.Proofs.Engine.Committed
import DoubleEntry.Proofs.Engine.Racing
import DoubleEntry.Proofs.Engine.Rows
import DoubleEntry.Proofs.Engine.Retained
import DoubleEntry.Proofs.Engine.Voids
import DoubleEntry.Proofs.Engine.WellFormed
import DoubleEntry.Proofs.Outbox.Replay
import DoubleEntry.Proofs.Outbox.Shape
import DoubleEntry.Proofs.Template.Stored
import DoubleEntry.Proofs.Outbox.Consumer
import DoubleEntry.Proofs.Database.Changes
import DoubleEntry.Proofs.Database.OutboxRead
import DoubleEntry.Proofs.Database.Simulation
import DoubleEntry.Proofs.Database.Locks
import DoubleEntry.Proofs.Engine.Described
import DoubleEntry.Proofs.Engine.Overwrites
import DoubleEntry.Proofs.Engine.Identities
import DoubleEntry.Proofs.Database.Uniqueness
import DoubleEntry.Proofs.Balance.Growth
import DoubleEntry.Proofs.Balance.Checked
import DoubleEntry.Proofs.Engine.Overflows
import DoubleEntry.Proofs.Expr.Grammar
import DoubleEntry.Proofs.Engine.Pages
import DoubleEntry.Proofs.Engine.Amended
import DoubleEntry.Proofs.Param.Literals
import DoubleEntry.Proofs.Wire.Events
import DoubleEntry.Proofs.Wire.Nested
import DoubleEntry.Proofs.Outbox.Recordable
import DoubleEntry.Proofs.Database.Records
