import EntityStore.Connection.Scripted
import EntityStore.Description
import EntityStore.Main
import EntityStore.Memory.Store
import EntityStore.Proofs.Connection.Cancellation
import EntityStore.Proofs.Connection.Creation
import EntityStore.Proofs.Connection.Transaction
import EntityStore.Proofs.Memory.Atomicity
import EntityStore.Proofs.Memory.Keys
import EntityStore.Proofs.Memory.RoundTrip
import EntityStore.Proofs.Memory.Subtypes
import EntityStore.Proofs.OrderedMap
import EntityStore.Proofs.Precedence.Levels
import EntityStore.Proofs.Query.Dispatch
import EntityStore.Proofs.Query.Translation
import EntityStore.Proofs.Query.Document
import EntityStore.Proofs.Query.WellFormed
import EntityStore.Proofs.Save.Command
import EntityStore.Proofs.Save.KeyColumns
import EntityStore.Proofs.Save.RowOrder
import EntityStore.Proofs.Sql.Rendering
import EntityStore.Proofs.Store.Compiled
import EntityStore.Query.Tagged
import EntityStore.Schema.Builder
import EntityStore.Schema.Description
import EntityStore.Sql.Document
import EntityStore.Proofs.Memory.Staging
import EntityStore.Proofs.Query.Safety
import EntityStore.Proofs.Query.MissingValues
import EntityStore.Proofs.Connection.Asynchronous
import EntityStore.Proofs.Store.Asynchronous
import EntityStore.Proofs.Connection.Release
import EntityStore.Proofs.Store.Release
import EntityStore.Proofs.Query.UnknownTypes
import EntityStore.Proofs.Schema.Definition
import EntityStore.Proofs.Connection.Quiet
import EntityStore.Proofs.Connection.Tables
import EntityStore.Proofs.Store.Reports
import EntityStore.Proofs.Connection.Disclosure
import EntityStore.Proofs.Store.Disclosure
import EntityStore.Proofs.Sql.Paging
import EntityStore.Proofs.Sql.Unknown
import EntityStore.Proofs.Schema.Walks
import EntityStore.Proofs.Schema.Properties
import EntityStore.Proofs.Schema.Usability
import EntityStore.Proofs.Sql.Projection
import EntityStore.Proofs.Sql.Predicate
import EntityStore.Proofs.Save.Validation
import EntityStore.Proofs.Save.Statement
import EntityStore.Proofs.Save.Discriminator
import EntityStore.Proofs.Save.Deletion
import EntityStore.Proofs.Connection.Conflicts
import EntityStore.Proofs.Result.Pulls
import EntityStore.Proofs.Schema.Tables
import EntityStore.Proofs.Number.Whole
import EntityStore.Proofs.Connection.Backoff
import EntityStore.Proofs.Value.Exactness
import EntityStore.Proofs.Save.Stored
import EntityStore.Proofs.Query.Binding
