import DocumentAccess.Connection
import DocumentAccess.Migration.Book
import DocumentAccess.Source.Insert
import DocumentAccess.Settings
import DocumentAccess.Value.Access
import DocumentAccess.Proofs.Filter.Meaning
import DocumentAccess.Proofs.Filter.Pattern
import DocumentAccess.Proofs.Filter.Membership
import DocumentAccess.Proofs.Mapping.Declarations
import DocumentAccess.Proofs.Migration.Newest
import DocumentAccess.Proofs.Migration.Batching
import DocumentAccess.Proofs.Migration.Consistency
import DocumentAccess.Proofs.Migration.Order
import DocumentAccess.Proofs.Migration.ReadBack
import DocumentAccess.Proofs.Source.Attachment
import DocumentAccess.Proofs.Source.Release
import DocumentAccess.Proofs.Connection.Closing
import DocumentAccess.Proofs.Metrics.Window
import DocumentAccess.Proofs.Outcome
import DocumentAccess.Proofs.Update.Builder
import DocumentAccess.Proofs.Update.Paths
import DocumentAccess.Proofs.Update.Operands
import DocumentAccess.Proofs.Update.Placement
import DocumentAccess.Proofs.Store.Diagnosis
import DocumentAccess.Proofs.Query.Agreement
import DocumentAccess.Proofs.Query.Building
import DocumentAccess.Proofs.Query.Renaming
import DocumentAccess.Proofs.Source.Insertion
import DocumentAccess.Proofs.Source.Reporting
import DocumentAccess.Proofs.Condition.Joining
import DocumentAccess.Proofs.Source.Splitting
import DocumentAccess.Proofs.Query.Bulk
import DocumentAccess.Proofs.Query.Valueless
import DocumentAccess.Proofs.Value.Identifiers
import DocumentAccess.Proofs.Query.Elements
import DocumentAccess.Proofs.Query.Grouping
import DocumentAccess.Proofs.Query.Stages
import DocumentAccess.Proofs.Migration.Results
import DocumentAccess.Proofs.Migration.Registering
import DocumentAccess.Proofs.Calendar.ReadBack
import DocumentAccess.Proofs.Json.ReadBack
import DocumentAccess.Proofs.Text.Pieces
import DocumentAccess.Proofs.Calendar.Milliseconds
import DocumentAccess.Proofs.Value.Storage
import DocumentAccess.Proofs.Text.LetterCase
import DocumentAccess.Proofs.Query.Ordering
import DocumentAccess.Proofs.Text.Percent
import DocumentAccess.Proofs.Settings.Address
import DocumentAccess.Proofs.Settings.Options
import DocumentAccess.Proofs.Store.Messages
