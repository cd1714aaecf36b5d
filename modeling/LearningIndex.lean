import LearningIndex.Batch
import LearningIndex.Bytes.Chunk
import LearningIndex.Bytes.Gzip
import LearningIndex.Bytes.Hexadecimal
import LearningIndex.Bytes.Utf8
import LearningIndex.Calendar.Date
import LearningIndex.Calendar.Instant
import LearningIndex.Calendar.Timestamp
import LearningIndex.Command.Arguments
import LearningIndex.Command.EnvironmentBlock
import LearningIndex.Command.EnvironmentFile
import LearningIndex.Command.Error
import LearningIndex.Command.Operations
import LearningIndex.Command.Run
import LearningIndex.Command.Settings
import LearningIndex.Command.Wiring
import LearningIndex.Engine.Bulk
import LearningIndex.Engine.Call
import LearningIndex.Engine.Error
import LearningIndex.Engine.Key
import LearningIndex.Engine.Mapping
import LearningIndex.Engine.Query
import LearningIndex.Engine.Reply
import LearningIndex.Engine.Settings
import LearningIndex.Entity.Course
import LearningIndex.Entity.Document
import LearningIndex.Entity.Kind
import LearningIndex.Entity.LearningMaterial
import LearningIndex.Entity.MeshDescriptor
import LearningIndex.Http.Address
import LearningIndex.Http.Client
import LearningIndex.Http.Connection
import LearningIndex.Http.Endpoint
import LearningIndex.Http.Exchange
import LearningIndex.Http.Percent
import LearningIndex.Http.Wire
import LearningIndex.Indexing.Catalog
import LearningIndex.Indexing.Curriculum
import LearningIndex.Indexing.Error
import LearningIndex.Indexing.Handler
import LearningIndex.Indexing.LearningMaterials
import LearningIndex.Indexing.Mesh
import LearningIndex.Indexing.Message
import LearningIndex.Indexing.MessageJson
import LearningIndex.Indexing.Reconciliation
import LearningIndex.Indexing.Registry
import LearningIndex.Indexing.Repository
import LearningIndex.Indexing.Service
import LearningIndex.Indexing.Summary
import LearningIndex.Indexing.Worker
import LearningIndex.Json.Fault
import LearningIndex.Json.Literal
import LearningIndex.Json.Printer
import LearningIndex.Json.Reader
import LearningIndex.Json.Record
import LearningIndex.Json.Value
import LearningIndex.Machine
import LearningIndex.Main
import LearningIndex.Number.Binary64
import LearningIndex.Number.Literal
import LearningIndex.Number.Shortest
import LearningIndex.Number.Word
import LearningIndex.Program
import LearningIndex.Rehearsal.Journal
import LearningIndex.Rehearsal.Offline
import LearningIndex.Rehearsal.Script
import LearningIndex.Storage.Content
import LearningIndex.Storage.Path
import LearningIndex.Storage.Snapshot
import LearningIndex.Storage.Tree
import LearningIndex.Text.Basic
import LearningIndex.Text.Cleaning
import LearningIndex.Text.Decimal
import LearningIndex.Text.Letter
import LearningIndex.Text.Numeral
import LearningIndex.Proofs.Program.Trace
import LearningIndex.Proofs.Batch
import LearningIndex.Proofs.Reconciliation.Plan
import LearningIndex.Proofs.Ascending
import LearningIndex.Proofs.Reconciliation.Dispatch
import LearningIndex.Proofs.Document.Fields
import LearningIndex.Proofs.Document.Identity
import LearningIndex.Proofs.Program.Interference
import LearningIndex.Proofs.Backend
import LearningIndex.Proofs.Effect
import LearningIndex.Proofs.Catalog.Changes
import LearningIndex.Proofs.Handling
import LearningIndex.Proofs.Reconciliation.Independence
import LearningIndex.Proofs.Reconciliation.Inventory
import LearningIndex.Proofs.Interplay
import LearningIndex.Proofs.Reconciliation.Conduct
import LearningIndex.Proofs.Reconciliation.Execution
import LearningIndex.Proofs.Reconciliation.Confluence
import LearningIndex.Proofs.Contents
import LearningIndex.Proofs.Reconciliation.Convergence
import LearningIndex.Proofs.Reconciliation.Curriculum
import LearningIndex.Proofs.Backend.Memory
import LearningIndex.Proofs.Reconciliation.Succession
import LearningIndex.Proofs.Storage.Loading
import LearningIndex.Proofs.Bytes.Decoding
import LearningIndex.Proofs.Text.Words
import LearningIndex.Proofs.Document.Wording
import LearningIndex.Proofs.Catalog.Walk
import LearningIndex.Proofs.Replacement
import LearningIndex.Proofs.Reconciliation.Renewal
import LearningIndex.Proofs.Program.Transcript
import LearningIndex.Proofs.Calendar.Order
import LearningIndex.Proofs.Backend.Aggregation
import LearningIndex.Proofs.Backend.Clock
import LearningIndex.Proofs.Catalog.Skipping
import LearningIndex.Proofs.Handling.Subjects
import LearningIndex.Proofs.Handling.Alone
import LearningIndex.Proofs.Handling.Writing
import LearningIndex.Proofs.Handling.Repetition
import LearningIndex.Proofs.Handling.Retry
import LearningIndex.Proofs.Worker.Workplace
import LearningIndex.Proofs.Worker.Account
import LearningIndex.Proofs.Worker.Realization
import LearningIndex.Proofs.Json.Quotation
import LearningIndex.Proofs.Json.Reading
import LearningIndex.Proofs.Json.RoundTrip
import LearningIndex.Proofs.Json.Records
import LearningIndex.Proofs.Engine.Framing
import LearningIndex.Proofs.Calendar.Wording
import LearningIndex.Proofs.Message
import LearningIndex.Proofs.Worker.Shift
import LearningIndex.Proofs.Worker.ShiftRun
import LearningIndex.Proofs.Command.Status
import LearningIndex.Proofs.Program.Crowd
import LearningIndex.Proofs.Handling.Calls
import LearningIndex.Proofs.Handling.Race
import LearningIndex.Proofs.Handling.Agreement
import LearningIndex.Proofs.Handling.Collecting
import LearningIndex.Proofs.Handling.Naming
import LearningIndex.Proofs.Handling.Keeping
import LearningIndex.Proofs.Program.Faults
import LearningIndex.Proofs.Handling.Sending
import LearningIndex.Proofs.Json.Slots
import LearningIndex.Proofs.Entity.Written
import LearningIndex.Proofs.Storage.Text
import LearningIndex.Proofs.Storage.Restoring
import LearningIndex.Proofs.Handling.Requests
import LearningIndex.Proofs.Http.Failures
import LearningIndex.Proofs.Bytes.Encoding
import LearningIndex.Proofs.Bytes.Positions
import LearningIndex.Proofs.Bytes.Packing
import LearningIndex.Proofs.Bytes.Cuts
import LearningIndex.Proofs.Text.Spacing
import LearningIndex.Proofs.Search.Grouping
import LearningIndex.Proofs.Registry.Resumption
import LearningIndex.Proofs.Calendar.Days
import LearningIndex.Proofs.Calendar.Timeline
import LearningIndex.Proofs.Storage.Confinement
