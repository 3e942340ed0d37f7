import Patwari.Lib.Keyset
import Patwari.Lib.Json
import Patwari.Crates
import Patwari.Pagination
import Patwari.Contract
import Patwari.Validation
import Patwari.Database
import Patwari.Lib.Prog
import Patwari.Service
import Patwari.Completion
import Patwari.Deletion
import Patwari.Retrieval
import Patwari.Recovery
import Patwari.Integrity
import Patwari.Server
import Patwari.Normalization
import Patwari.Fingerprint
import Patwari.Lib.Tiling
import Patwari.Layout
import Patwari.Transactions
import Patwari.Guarantee
import Patwari.Safety
import Patwari.UploadSafety
import Patwari.CompletionSafety
import Patwari.ServerSafety
import Patwari.Effects
import Patwari.Lifecycle
import Patwari.Candidates
import Patwari.Lib.Alone
import Patwari.Bootstrap
import Patwari.Collection
import Patwari.Snapshots
import Patwari.Lib.Latest
import Patwari.Contexts
import Patwari.Tombstones
import Patwari.Downloads
import Patwari.Lib.JsonSize
import Patwari.ManifestSize
import Patwari.Receipts
import Patwari.Lib.Beside
import Patwari.Verification
import Patwari.Alone
import Patwari.Completeness
import Patwari.Expiry
import Patwari.Cursors
import Patwari.Lib.Sql
import Patwari.Filters
import Patwari.Lib.Along
import Patwari.SnapshotReads
import Patwari.CaptureReuse
import Patwari.Lib.Cut
import Patwari.UploadStatus
import Patwari.Lib.Outcome
import Patwari.AcceptedChunks
import Patwari.Lib.Total
import Patwari.Draining
import Patwari.FastPath
import Patwari.Binding
import Patwari.Custody
import Patwari.Provenance
