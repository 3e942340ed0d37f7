/-
# Patwari.Database — the metadata store.

The tables of the service as lists of rows, one structure a table with the columns the modelled
code reads or writes. A write transaction is a function `Db → Except ApiError (α × Db)`: it either
yields the whole new database or an error and no change, which is what a serializable transaction
that commits or rolls back amounts to. Columns with a `CHECK (… IN …)` list are enumerations, and
integer columns are unbounded integers: every value written to one was range checked first.
-/
import Patwari.Lib.Table
import Patwari.Validation

namespace Patwari

open Lib (UniqueOn updateWhere)

/-! ## §1 — Rows. -/

structure ClientRow where
  id : String
  ownerNamespace : String
  hostname : Option String
  displayName : Option String
  metadataJson : String
  createdAt : String
  updatedAt : String
  deriving DecidableEq

structure SessionRow where
  id : String
  ownerNamespace : String
  sourceAgent : String
  sourceSessionId : String
  createdAt : String
  updatedAt : String
  deriving DecidableEq

/-- The `status` column of `uploads`. -/
inductive UploadRowStatus where
  | created
  | artifactUploaded
  | completed
  deriving DecidableEq

/-- `status IN ('created', 'artifact_uploaded')`. -/
def UploadRowStatus.active (s : UploadRowStatus) : Bool := decide (s ≠ .completed)

structure UploadRow where
  id : String
  ownerNamespace : String
  sessionId : String
  clientId : String
  captureId : String
  manifestSha256 : String
  status : UploadRowStatus
  snapshotId : Option String
  createdAt : String
  completedAt : Option String
  chunkSizeBytes : ℤ
  chunkCount : ℤ
  declaredStoredSizeBytes : ℤ
  declaredOriginalSizeBytes : ℤ
  expiresAt : String
  artifactCount : ℤ
  totalStoredSizeBytes : ℤ
  totalOriginalSizeBytes : ℤ
  transferBytes : ℤ
  newlyPersistedBytes : ℤ
  deriving DecidableEq

structure ManifestRow where
  id : String
  uploadId : String
  canonicalJson : String
  sha256 : String
  createdAt : String
  deriving DecidableEq

structure UploadArtifactRow where
  uploadId : String
  artifactIndex : ℤ
  logicalPath : String
  mediaType : Option String
  originalSizeBytes : ℤ
  originalSha256 : String
  storedSizeBytes : ℤ
  storedSha256 : String
  compression : Compression
  chunkCount : ℤ
  deriving DecidableEq

structure UploadChunkRow where
  uploadId : String
  artifactIndex : ℤ
  chunkIndex : ℤ
  byteLength : ℤ
  sha256 : String
  acceptedAt : String
  deriving DecidableEq

inductive TerminalReason where
  | abandoned
  | expired
  deriving DecidableEq

def TerminalReason.errorCode : TerminalReason → String
  | .abandoned => "upload_abandoned"
  | .expired => "upload_expired"

structure UploadAuditRow where
  uploadId : String
  ownerNamespace : String
  clientId : String
  captureId : String
  sessionId : String
  declaredOriginalSizeBytes : ℤ
  declaredStoredSizeBytes : ℤ
  chunkSizeBytes : ℤ
  chunkCount : ℤ
  createdAt : String
  terminalAt : String
  terminalReason : TerminalReason
  errorCode : String
  artifactCount : ℤ
  totalOriginalSizeBytes : ℤ
  totalStoredSizeBytes : ℤ
  manifestSha256 : Option String
  deriving DecidableEq

structure BlobRow where
  id : String
  ownerNamespace : String
  storedSha256 : String
  storedSizeBytes : ℤ
  compression : Compression
  createdAt : String
  orphanedAt : Option String
  eligibleAfter : Option String
  eligibleAfterSeq : Option ℤ
  deriving DecidableEq

structure SnapshotRow where
  id : String
  ownerNamespace : String
  sessionId : String
  manifestId : String
  fingerprintSha256 : String
  completedAt : String
  completedAtSeq : ℤ
  artifactCount : ℤ
  totalOriginalSizeBytes : ℤ
  totalStoredSizeBytes : ℤ
  fingerprintVersion : ℤ
  deletedAt : Option String
  rearchivedFromTombstoneId : Option String
  deriving DecidableEq

/-- `deleted_at IS NULL`. -/
def SnapshotRow.live (s : SnapshotRow) : Bool := s.deletedAt.isNone

structure ArtifactRow where
  id : String
  snapshotId : String
  blobId : String
  logicalPath : String
  mediaType : Option String
  originalSizeBytes : ℤ
  originalSha256 : String
  createdAt : String
  createdAtSeq : ℤ
  artifactIndex : ℤ
  deriving DecidableEq

structure CaptureRow where
  id : String
  ownerNamespace : String
  captureId : String
  sessionId : String
  clientId : String
  uploadId : String
  manifestId : String
  snapshotId : String
  sourceCapturedAt : String
  sourceCursor : Option String
  sourceStateHash : Option String
  sourceMetadataJson : String
  project : Option String
  repository : Option String
  branch : Option String
  sourceAgentVersion : Option String
  artifactSetVersion : ℤ
  munshiVersion : Option String
  serverReceivedAt : String
  serverCompletedAt : String
  serverCompletedAtSeq : ℤ
  deriving DecidableEq

structure SessionLatestContextRow where
  sessionId : String
  snapshotId : String
  completedAt : String
  completedAtSeq : ℤ
  sourceAgent : String
  project : Option String
  repository : Option String
  branch : Option String
  sourceAgentVersion : Option String
  artifactSetVersion : ℤ
  deriving DecidableEq

structure TombstoneRow where
  id : String
  ownerNamespace : String
  sessionId : String
  snapshotId : String
  snapshotFingerprintSha256 : String
  manifestSha256 : String
  snapshotCompletedAt : String
  deletedAt : String
  deletedAtSeq : ℤ
  reason : Option String
  rearchivedSnapshotId : Option String
  deriving DecidableEq

structure DeletionAuditRow where
  id : String
  tombstoneId : String
  ownerNamespace : String
  sessionId : String
  snapshotId : String
  snapshotFingerprintSha256 : String
  manifestSha256 : String
  occurredAt : String
  occurredAtSeq : ℤ
  reason : Option String
  deriving DecidableEq

inductive IntegrityRunStatus where
  | running
  | healthy
  | actionRequired
  | failed
  deriving DecidableEq

structure IntegrityRunRow where
  id : String
  ownerNamespace : String
  startedAt : String
  startedAtSeq : ℤ
  completedAt : Option String
  completedAtSeq : Option ℤ
  status : IntegrityRunStatus
  findingCount : ℤ
  infoCount : ℤ
  warningCount : ℤ
  errorCount : ℤ
  deriving DecidableEq

inductive IntegritySeverity where
  | info
  | warning
  | error
  deriving DecidableEq

inductive IntegrityFindingKind where
  | manifestMissing
  | manifestUnparseable
  | manifestHashMismatch
  | snapshotProjectionDrift
  | databaseIntegrityFailure
  | artifactBlobReferenceMissing
  | blobMetadataInvalid
  | blobFileMissing
  | blobFileNonRegular
  | blobFileSizeMismatch
  | blobFileHashMismatch
  | artifactOriginalMismatch
  | unexpectedBlobFile
  | blobOrphan
  | blobGraceCandidate
  | blobGcEligibleCandidate
  | blobStaleCandidate
  | tombstonedSnapshot
  | transientChange
  deriving DecidableEq

structure IntegrityFindingRow where
  id : String
  runId : String
  ownerNamespace : String
  kind : IntegrityFindingKind
  severity : IntegritySeverity
  snapshotId : Option String
  artifactId : Option String
  blobId : Option String
  detectedAt : String
  detectedAtSeq : ℤ
  detailCode : String
  deriving DecidableEq

/-! ## §2 — The database. -/

structure Db where
  clients : List ClientRow
  sessions : List SessionRow
  uploads : List UploadRow
  manifests : List ManifestRow
  uploadArtifacts : List UploadArtifactRow
  uploadChunks : List UploadChunkRow
  uploadAudits : List UploadAuditRow
  blobs : List BlobRow
  snapshots : List SnapshotRow
  artifacts : List ArtifactRow
  captures : List CaptureRow
  sessionLatestContext : List SessionLatestContextRow
  tombstones : List TombstoneRow
  deletionAudits : List DeletionAuditRow
  integrityRuns : List IntegrityRunRow
  integrityFindings : List IntegrityFindingRow
  deriving DecidableEq

/-- A freshly migrated archive. -/
def Db.empty : Db := ⟨[], [], [], [], [], [], [], [], [], [], [], [], [], [], [], []⟩

/-- The single owner of a v1 archive. -/
def ownerNamespace : String := "v1"

namespace Db

variable (db : Db)

def upload (id : String) : Option UploadRow := db.uploads.find? fun r => decide (r.id = id)

/-- The upload registered under a capture identity. -/
def uploadByCapture (clientId captureId : String) : Option UploadRow :=
  db.uploads.find? fun r => decide (r.ownerNamespace = ownerNamespace ∧ r.clientId = clientId ∧
    r.captureId = captureId)

def manifestOfUpload (uploadId : String) : Option ManifestRow :=
  db.manifests.find? fun r => decide (r.uploadId = uploadId)

def manifest (id : String) : Option ManifestRow :=
  db.manifests.find? fun r => decide (r.id = id)

/-- `ORDER BY artifact_index`. -/
def uploadArtifactsOf (uploadId : String) : List UploadArtifactRow :=
  (db.uploadArtifacts.filter fun r => decide (r.uploadId = uploadId)).insertionSort
    fun a b => a.artifactIndex ≤ b.artifactIndex

def uploadArtifact (uploadId : String) (artifactIndex : ℤ) : Option UploadArtifactRow :=
  db.uploadArtifacts.find? fun r =>
    decide (r.uploadId = uploadId ∧ r.artifactIndex = artifactIndex)

/-- `ORDER BY chunk_index`. -/
def chunksOf (uploadId : String) (artifactIndex : ℤ) : List UploadChunkRow :=
  (db.uploadChunks.filter fun r =>
    decide (r.uploadId = uploadId ∧ r.artifactIndex = artifactIndex)).insertionSort
      fun a b => a.chunkIndex ≤ b.chunkIndex

def chunk (uploadId : String) (artifactIndex chunkIndex : ℤ) : Option UploadChunkRow :=
  db.uploadChunks.find? fun r =>
    decide (r.uploadId = uploadId ∧ r.artifactIndex = artifactIndex ∧ r.chunkIndex = chunkIndex)

def session (id : String) : Option SessionRow := db.sessions.find? fun r => decide (r.id = id)

def snapshot (id : String) : Option SnapshotRow := db.snapshots.find? fun r => decide (r.id = id)

/-- The live snapshot of a session with a fingerprint. -/
def liveSnapshot (sessionId fingerprint : String) : Option SnapshotRow :=
  db.snapshots.find? fun r =>
    decide (r.sessionId = sessionId ∧ r.fingerprintSha256 = fingerprint) && r.live

def blobByDigest (storedSha256 : String) : Option BlobRow :=
  db.blobs.find? fun r => decide (r.ownerNamespace = ownerNamespace ∧ r.storedSha256 = storedSha256)

def blob (id : String) : Option BlobRow := db.blobs.find? fun r => decide (r.id = id)

/-- `EXISTS (SELECT 1 FROM artifacts JOIN snapshots … WHERE blob_id = ? AND deleted_at IS NULL)`:
some artifact of a live snapshot references the blob. -/
def hasLiveReference (blobId : String) : Bool :=
  db.artifacts.any fun a => decide (a.blobId = blobId) &&
    db.snapshots.any fun s => decide (s.id = a.snapshotId) && s.live

end Db

end Patwari
