import Reconciler.Api.DocumentServer
import Reconciler.Main
import Reconciler.Proofs.Api.BaseUrl
import Reconciler.Proofs.Api.Call
import Reconciler.Proofs.Api.Connecting
import Reconciler.Proofs.Api.DocumentHistory
import Reconciler.Proofs.Api.DocumentServer
import Reconciler.Proofs.Api.Precedence
import Reconciler.Proofs.Api.Refusal
import Reconciler.Proofs.Api.Serialized
import Reconciler.Proofs.Batch.Applying
import Reconciler.Proofs.Batch.Bookkeeping
import Reconciler.Proofs.Batch.Delivery
import Reconciler.Proofs.Batch.Entry
import Reconciler.Proofs.Batch.Independence
import Reconciler.Proofs.Batch.Lockstep
import Reconciler.Proofs.Batch.Ordering
import Reconciler.Proofs.Batch.Preservation
import Reconciler.Proofs.Batch.Recovery
import Reconciler.Proofs.Batch.Refreshing
import Reconciler.Proofs.Batch.Secrecy
import Reconciler.Proofs.Batch.Sequential
import Reconciler.Proofs.Declared.Misfit
import Reconciler.Proofs.Declared.Persistence
import Reconciler.Proofs.Declared.ReadTree
import Reconciler.Proofs.Declared.Sameness
import Reconciler.Proofs.Declared.Spelling
import Reconciler.Proofs.Declared.StaticType
import Reconciler.Proofs.Json.Literal
import Reconciler.Proofs.Json.Number
import Reconciler.Proofs.Json.Reader
import Reconciler.Proofs.Json.Refusal
import Reconciler.Proofs.Json.Text
import Reconciler.Proofs.Resource.Confinement
import Reconciler.Proofs.Resource.Convergence
import Reconciler.Proofs.Resource.Documents
import Reconciler.Proofs.Resource.Failures
import Reconciler.Proofs.Resource.History
import Reconciler.Proofs.Resource.Identities
import Reconciler.Proofs.Resource.Lifetime
import Reconciler.Proofs.Resource.Mapping
import Reconciler.Proofs.Resource.Materializing
import Reconciler.Proofs.Resource.Operations
import Reconciler.Proofs.Resource.Paths
import Reconciler.Proofs.Resource.Preflight
import Reconciler.Proofs.Resource.Ranges
import Reconciler.Proofs.Resource.Reading
import Reconciler.Proofs.Resource.Removal
import Reconciler.Proofs.Resource.Rereading
import Reconciler.Proofs.Resource.Rewriting
import Reconciler.Proofs.Resource.Upkeep
import Reconciler.Proofs.Resource.Wire
import Reconciler.Proofs.Resource.Writing
import Reconciler.Proofs.Text.Lossy
import Reconciler.Proofs.Text.Utf8
import Reconciler.Proofs.Time.Calendar
import Reconciler.Proofs.Time.Timestamp
