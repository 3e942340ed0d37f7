/-
# Patwari.Completion — turning an uploaded manifest into a snapshot.

§1 is the semantic fingerprint and the checks a stored upload must pass again. §2 is the write
transactions: attaching a capture to an existing snapshot, and recording a new one with its blobs,
artifacts and capture. §3 assembles and verifies the artifacts, §4 promotes their files to
canonical blobs, §5 is `complete_upload` with its four ways to end. §6 is `reconcile_snapshot`,
which compares a snapshot's rows with its manifest.

Foreign keys of an inserted row always hold here, so only the unique keys and the checks that can
refuse a row are modelled.
-/
import Patwari.Uploads

namespace Patwari

open Lib (Json Prog updateWhere)

/-! ## §1 — Fingerprint and projection. -/

def snapshotFingerprintVersion : ℕ := 1

/-- `StableCapture`. -/
def Capture.stableJson (capture : Capture) : Json :=
  .obj [("project", optionJson capture.project), ("repository", optionJson capture.repository),
    ("branch", optionJson capture.branch),
    ("source_agent_version", optionJson capture.sourceAgentVersion),
    ("artifact_set_version", .num capture.artifactSetVersion.toNat)]

/-- `OriginalArtifact`. -/
def Artifact.originalJson (artifact : Artifact) : Json :=
  .obj [("logical_path", .str artifact.logicalPath),
    ("original_size_bytes", .num artifact.originalSizeBytes.toNat),
    ("original_sha256", .str artifact.originalSha256)]

def fingerprintJson (manifest : Manifest) : Json :=
  .obj [("version", .num snapshotFingerprintVersion),
    ("schema_version", .num manifest.schemaVersion.toNat), ("session", manifest.session.toJson),
    ("capture", manifest.capture.stableJson),
    ("artifacts", .arr ((sortByPath manifest.artifacts).map Artifact.originalJson))]

def snapshotFingerprint (c : Crates) (manifest : Manifest) : String :=
  c.sha256Hex (jsonToVec (fingerprintJson manifest))

/-- The per-artifact bounds of `validate_current_manifest_limits`. -/
def validateArtifactLimits (cfg : Config) : List Artifact → Except ApiError Unit
  | [] => pure ()
  | artifact :: rest => do
    if cfg.maxArtifactStoredBytes < artifact.storedSizeBytes.toNat then
      throw (.invalid "artifact stored size exceeds the configured bounded limit")
    if cfg.maxArtifactOriginalBytes < artifact.originalSizeBytes.toNat then
      throw (.invalid "artifact original size exceeds the configured bounded limit")
    validateArtifactLimits cfg rest

def validateCurrentManifestLimits (cfg : Config) (manifest : Manifest) : Except ApiError Unit := do
  if manifest.artifacts = [] ∨ cfg.maxArtifactCount < manifest.artifacts.length then
    throw (.invalid "manifest artifact count exceeds the configured bounded limit")
  let (original, stored) ← manifestTotals manifest
  if cfg.maxSnapshotOriginalBytes < original then
    throw (.invalid "snapshot original size exceeds the configured bounded limit")
  if cfg.maxSnapshotStoredBytes < stored then
    throw (.invalid "snapshot stored size exceeds the configured bounded limit")
  validateArtifactLimits cfg manifest.artifacts
  let _ ← uploadLayout manifest cfg.chunkSizeBytes

def projectionInvalid : ApiError :=
  .conflict "upload_artifact_projection_invalid"
    "upload artifact metadata does not match the canonical manifest"

/-- The rows of an upload's artifacts against its manifest, from an index on. -/
def validateProjectionRows (chunkSize : ℕ) :
    List (Artifact × UploadArtifactRow) → ℕ → Except ApiError Unit
  | [], _ => pure ()
  | (artifact, row) :: rest, index => do
    let originalSize ← toSqliteI64 artifact.originalSizeBytes.toNat
    let storedSize ← toSqliteI64 artifact.storedSizeBytes.toNat
    let count ← chunkCount artifact.storedSizeBytes.toNat chunkSize
    let count ← toSqliteI64 count
    if row.artifactIndex ≠ index ∨ row.logicalPath ≠ artifact.logicalPath ∨
        row.mediaType ≠ artifact.mediaType ∨ row.originalSizeBytes ≠ originalSize ∨
        row.originalSha256 ≠ digestStorageValue artifact.originalSha256 ∨
        row.storedSizeBytes ≠ storedSize ∨
        row.storedSha256 ≠ digestStorageValue artifact.storedSha256 ∨
        row.compression ≠ artifact.compression ∨ row.chunkCount ≠ count then
      throw projectionInvalid
    validateProjectionRows chunkSize rest (index + 1)

def validateUploadProjection (manifest : Manifest) (rows : List UploadArtifactRow)
    (upload : UploadRow) : Except ApiError Unit := do
  if manifest.artifacts.length ≠ rows.length ∨ (rows.length : ℤ) ≠ upload.artifactCount then
    throw projectionInvalid
  let chunkSize ← unsignedColumn upload.chunkSizeBytes
  validateProjectionRows chunkSize (manifest.artifacts.zip rows) 0

/-! ## §2 — Transactions. -/

structure PreparedArtifact where
  artifactIndex : ℕ
  artifact : Artifact
  assembledPath : FilePath

def PreparedArtifact.digest (p : PreparedArtifact) : String :=
  digestStorageValue p.artifact.storedSha256

def blobIntegrityConflict : ApiError :=
  .conflict "blob_integrity_conflict"
    "stored digest conflicts with immutable blob size or compression metadata"

/-- A blob row without a garbage collection deadline. -/
def BlobRow.clearCandidate (row : BlobRow) : BlobRow :=
  { row with orphanedAt := none, eligibleAfter := none, eligibleAfterSeq := none }

def newBlobRow (artifact : Artifact) (newId now : String) (size : ℤ) : BlobRow where
  id := newId
  ownerNamespace := ownerNamespace
  storedSha256 := digestStorageValue artifact.storedSha256
  storedSizeBytes := size
  compression := artifact.compression
  createdAt := now
  orphanedAt := none
  eligibleAfter := none
  eligibleAfterSeq := none

/-- `get_or_create_blob`. -/
def getOrCreateBlob (artifact : Artifact) (newId now : String) (db : Db) :
    Except ApiError (String × Db) := do
  let digest := digestStorageValue artifact.storedSha256
  let size ← toSqliteI64 artifact.storedSizeBytes.toNat
  match db.blobByDigest digest with
  | some row =>
    if row.storedSizeBytes ≠ size ∨ row.compression ≠ artifact.compression then
      throw blobIntegrityConflict
    -- the relationship rows, not the candidate state, authorize collection
    pure (row.id, { db with
      blobs := updateWhere (fun r => decide (r.id = row.id)) BlobRow.clearCandidate db.blobs })
  | none =>
    if (db.blob newId).isSome then throw .database
    pure (newId, { db with blobs := db.blobs ++ [newBlobRow artifact newId now size] })

/-- The blob loop of `record_completed_upload`: one row for each distinct digest. -/
def recordBlobs (now : String) :
    List (PreparedArtifact × String) → List (String × String) → Db →
      Except ApiError (List (String × String) × Db)
  | [], blobIds, db => pure (blobIds, db)
  | (prepared, newId) :: rest, blobIds, db =>
    match blobIds.lookup prepared.digest with
    | some _ => recordBlobs now rest blobIds db
    | none => do
      let (blobId, db) ← getOrCreateBlob prepared.artifact newId now db
      recordBlobs now rest ((prepared.digest, blobId) :: blobIds) db

/-- The upload's row once it is completed. -/
def UploadRow.complete (row : UploadRow) (snapshotId now : String)
    (transferBytes newlyPersistedBytes : ℤ) : UploadRow :=
  { row with
    status := .completed
    snapshotId := some snapshotId
    completedAt := some now
    transferBytes := transferBytes
    newlyPersistedBytes := newlyPersistedBytes }

/-- `UPDATE uploads SET status = 'completed' … WHERE id = ? AND status IN (…)`. -/
def completeUploadRow (uploadId snapshotId now : String) (transferBytes newlyPersistedBytes : ℤ)
    (db : Db) : Db :=
  { db with
    uploads := updateWhere (fun r => decide (r.id = uploadId) && r.status.active)
      (fun r => r.complete snapshotId now transferBytes newlyPersistedBytes) db.uploads }

/-- The row is there and its status is active. -/
def Db.uploadActive (db : Db) (uploadId : String) : Bool :=
  db.uploads.any fun r => decide (r.id = uploadId) && r.status.active

/-- The row is there, completed, with this snapshot. -/
def Db.completedWith (db : Db) (uploadId snapshotId : String) : Bool :=
  match db.upload uploadId with
  | some row => decide (row.status = .completed ∧ row.snapshotId = some snapshotId)
  | none => false

/-- The context of a completed snapshot, as browsing shows it for its session. -/
def contextRow (sessionId snapshotId completedAt : String) (seq : ℤ) (manifest : Manifest) :
    SessionLatestContextRow where
  sessionId := sessionId
  snapshotId := snapshotId
  completedAt := completedAt
  completedAtSeq := seq
  sourceAgent := manifest.session.sourceAgent
  project := manifest.capture.project
  repository := manifest.capture.repository
  branch := manifest.capture.branch
  sourceAgentVersion := manifest.capture.sourceAgentVersion
  artifactSetVersion := manifest.capture.artifactSetVersion.toNat

/-- `upsert_session_latest_context`: a session's row moves up only. -/
def upsertSessionLatestContext (c : Crates) (sessionId snapshotId completedAt : String)
    (manifest : Manifest) (db : Db) : Except ApiError Db := do
  let seq ← okOr (sortKeyFromRfc3339 c completedAt) .internal
  let row := contextRow sessionId snapshotId completedAt seq manifest
  if seq < 0 ∨ manifest.capture.artifactSetVersion = 0 then throw .database
  match db.sessionLatestContext.find? fun r => decide (r.sessionId = sessionId) with
  | none =>
    if db.sessionLatestContext.any fun r => decide (r.snapshotId = snapshotId) then
      throw .database
    pure { db with sessionLatestContext := db.sessionLatestContext ++ [row] }
  | some current =>
    if current.completedAtSeq < seq ∨
        current.completedAtSeq = seq ∧ current.snapshotId < snapshotId then
      if db.sessionLatestContext.any fun r =>
          decide (r.snapshotId = snapshotId ∧ r.sessionId ≠ sessionId) then
        throw .database
      pure { db with
        sessionLatestContext := updateWhere (fun r => decide (r.sessionId = sessionId))
          (fun _ => row) db.sessionLatestContext }
    else pure db

def maintainSessionLatestContext (c : Crates) (sessionId snapshotId : String)
    (manifest : Manifest) (db : Db) : Except ApiError Db :=
  match db.snapshot snapshotId with
  | none => throw .internal
  | some snapshot =>
    if snapshot.live then
      upsertSessionLatestContext c sessionId snapshotId snapshot.completedAt manifest db
    else throw .internal

/-- The capture row of a completed upload. -/
def captureRow (newId : String) (upload : UploadRow) (manifest : Manifest)
    (manifestId snapshotId completedAt : String) (seq : ℤ) : CaptureRow where
  id := newId
  ownerNamespace := ownerNamespace
  captureId := upload.captureId
  sessionId := upload.sessionId
  clientId := upload.clientId
  uploadId := upload.id
  manifestId := manifestId
  snapshotId := snapshotId
  sourceCapturedAt := manifest.capture.capturedAt
  sourceCursor := manifest.capture.sourceCursor
  sourceStateHash := manifest.capture.sourceStateHash
  sourceMetadataJson := Json.compact (stringMapJson manifest.capture.sourceMetadata)
  project := manifest.capture.project
  repository := manifest.capture.repository
  branch := manifest.capture.branch
  sourceAgentVersion := manifest.capture.sourceAgentVersion
  artifactSetVersion := manifest.capture.artifactSetVersion.toNat
  munshiVersion := manifest.capture.munshiVersion
  serverReceivedAt := upload.createdAt
  serverCompletedAt := completedAt
  serverCompletedAtSeq := seq

def insertCaptureProvenance (c : Crates) (newId : String) (upload : UploadRow)
    (manifest : Manifest) (manifestId snapshotId completedAt : String) (db : Db) :
    Except ApiError Db := do
  let seq ← okOr (sortKeyFromRfc3339 c completedAt) .internal
  if seq < 0 ∨ manifest.capture.artifactSetVersion = 0 then throw .database
  match db.captures.find? fun r => decide (r.uploadId = upload.id) with
  | some existing =>
    if existing.snapshotId = snapshotId then
      maintainSessionLatestContext c upload.sessionId snapshotId manifest db
    else
      throw (.conflict "capture_provenance_conflict"
        "capture provenance conflicts with an existing completed capture")
  | none =>
    if db.captures.any fun r => decide (r.id = newId ∨ r.ownerNamespace = ownerNamespace ∧
        r.clientId = upload.clientId ∧ r.captureId = upload.captureId) then
      throw .database
    maintainSessionLatestContext c upload.sessionId snapshotId manifest
      { db with
        captures := db.captures ++
          [captureRow newId upload manifest manifestId snapshotId completedAt seq] }

/-- What the two completing transactions share. -/
structure Completing where
  upload : UploadRow
  manifest : Manifest
  now : String
  transferBytes : ℕ
  captureId : String

/-- The transaction of `finalize_upload_for_existing_snapshot`; the result says whether the upload
is completed with this snapshot. -/
def finalizeUpload (c : Crates) (x : Completing) (snapshotId : String) (db : Db) :
    Except ApiError (Bool × Db) := do
  if ¬ db.snapshots.any (fun r => decide (r.id = snapshotId) && r.live) then
    throw (.conflict "snapshot_deleted"
      "snapshot was deleted before capture provenance could be recorded")
  let transferBytes ← toSqliteI64 x.transferBytes
  if db.uploadActive x.upload.id then
    let manifestRow ← okOr (db.manifestOfUpload x.upload.id) .database
    let db ← insertCaptureProvenance c x.captureId x.upload x.manifest manifestRow.id snapshotId
      x.now (completeUploadRow x.upload.id snapshotId x.now transferBytes 0 db)
    pure (true, db)
  else pure (db.completedWith x.upload.id snapshotId, db)

/-- `deleted_at_seq DESC, id DESC`. -/
def TombstoneRow.notOlder (a b : TombstoneRow) : Prop :=
  b.deletedAtSeq < a.deletedAtSeq ∨ b.deletedAtSeq = a.deletedAtSeq ∧ b.id ≤ a.id

instance : DecidableRel TombstoneRow.notOlder := fun a b =>
  inferInstanceAs (Decidable (b.deletedAtSeq < a.deletedAtSeq ∨
    b.deletedAtSeq = a.deletedAtSeq ∧ b.id ≤ a.id))

/-- The newest tombstone of a session's fingerprint. -/
def Db.priorTombstone (db : Db) (sessionId fingerprint : String) : Option TombstoneRow :=
  ((db.tombstones.filter fun r => decide (r.sessionId = sessionId ∧
    r.snapshotFingerprintSha256 = fingerprint)).insertionSort TombstoneRow.notOlder).head?

/-- The row of one artifact of a new snapshot. -/
def artifactRow (snapshotId now : String) (nowSeq : ℤ) (blobIds : List (String × String))
    (prepared : PreparedArtifact) (newId : String) : Except ApiError ArtifactRow := do
  let blobId ← okOr (blobIds.lookup prepared.digest) .internal
  let originalSize ← toSqliteI64 prepared.artifact.originalSizeBytes.toNat
  pure ⟨newId, snapshotId, blobId, prepared.artifact.logicalPath, prepared.artifact.mediaType,
    originalSize, digestStorageValue prepared.artifact.originalSha256, now, nowSeq,
    prepared.artifactIndex⟩

/-- One insert of `finalize_winning_snapshot`, refused by the table's unique keys. -/
def insertArtifact (db : Db) (row : ArtifactRow) : Except ApiError Db :=
  if db.artifacts.any fun r => decide (r.id = row.id ∨ r.snapshotId = row.snapshotId ∧
      (r.artifactIndex = row.artifactIndex ∨ r.logicalPath = row.logicalPath)) then
    throw .database
  else pure { db with artifacts := db.artifacts ++ [row] }

structure CompletionRecord extends Completing where
  prepared : List PreparedArtifact
  fingerprint : String
  nowSeq : ℤ
  newlyPersistedBytes : ℕ
  snapshotId : String
  blobIds : List String
  artifactIds : List String

inductive RecordOutcome where
  | recorded
  /-- Another completion holds the live fingerprint. -/
  | lost
  deriving DecidableEq

/-- `finalize_winning_snapshot`, with the new snapshot's row in place. -/
def finalizeWinningSnapshot (c : Crates) (x : CompletionRecord) (manifestId : String)
    (blobIds : List (String × String)) (db : Db) : Except ApiError Db := do
  let rows ← (x.prepared.zip x.artifactIds).mapM fun e =>
    artifactRow x.snapshotId x.now x.nowSeq blobIds e.1 e.2
  let db ← rows.foldlM insertArtifact db
  let transferBytes ← toSqliteI64 x.transferBytes
  let newlyPersistedBytes ← toSqliteI64 x.newlyPersistedBytes
  if db.uploadActive x.upload.id then
    insertCaptureProvenance c x.captureId x.upload x.manifest manifestId x.snapshotId x.now
      (completeUploadRow x.upload.id x.snapshotId x.now transferBytes newlyPersistedBytes db)
  else if db.completedWith x.upload.id x.snapshotId then pure db
  else throw (uploadStateConflict "upload state changed while completion was requested")

/-- The row of a new snapshot. -/
def snapshotRow (x : CompletionRecord) (manifestId : String) (prior : Option TombstoneRow) :
    Except ApiError SnapshotRow := do
  let (totalOriginalBytes, totalStoredBytes) ← manifestTotals x.manifest
  let artifactCount ← toSqliteI64 x.prepared.length
  let totalOriginalBytes ← toSqliteI64 totalOriginalBytes
  let totalStoredBytes ← toSqliteI64 totalStoredBytes
  if x.nowSeq < 0 ∨ artifactCount < 1 then throw .database
  pure
    { id := x.snapshotId
      ownerNamespace := ownerNamespace
      sessionId := x.upload.sessionId
      manifestId := manifestId
      fingerprintSha256 := x.fingerprint
      completedAt := x.now
      completedAtSeq := x.nowSeq
      artifactCount := artifactCount
      totalOriginalSizeBytes := totalOriginalBytes
      totalStoredSizeBytes := totalStoredBytes
      fingerprintVersion := snapshotFingerprintVersion
      deletedAt := none
      rearchivedFromTombstoneId := prior.map TombstoneRow.id }

/-- The rearchive link of `record_completed_upload`. -/
def linkRearchive (snapshotId : String) (prior : Option TombstoneRow) (db : Db) : Db :=
  match prior with
  | none => db
  | some tombstone =>
    { db with
      tombstones := updateWhere
        (fun r => decide (r.id = tombstone.id ∧ r.rearchivedSnapshotId = none))
        (fun r => { r with rearchivedSnapshotId := some snapshotId }) db.tombstones }

/-- The transaction of `record_completed_upload`. A lost insert is rolled back whole. -/
def recordCompletedUpload (c : Crates) (x : CompletionRecord) (db : Db) :
    Except ApiError (RecordOutcome × Db) := do
  let (blobIds, recorded) ← recordBlobs x.now (x.prepared.zip x.blobIds) [] db
  let manifestRow ← okOr (recorded.manifestOfUpload x.upload.id) .database
  let prior := recorded.priorTombstone x.upload.sessionId x.fingerprint
  let row ← snapshotRow x manifestRow.id prior
  if (recorded.snapshot x.snapshotId).isSome ∨
      (recorded.liveSnapshot x.upload.sessionId x.fingerprint).isSome then
    pure (.lost, db)
  else
    let recorded ← finalizeWinningSnapshot c x manifestRow.id blobIds
      { recorded with snapshots := recorded.snapshots ++ [row] }
    pure (.recorded, linkRearchive x.snapshotId prior recorded)

/-! ## §3 — Assembling and verifying. -/

variable (c : Crates) (cfg : Config)

def unprocessable (code message : String) : ApiError := ⟨422, code, message⟩

def chunkChecksumError : ApiError :=
  unprocessable "chunk_checksum_mismatch"
    "accepted chunk bytes no longer match their checksum or length"

def storedChecksumError (message : String) : ApiError :=
  unprocessable "artifact_stored_checksum_mismatch" message

/-- The row loop of `accepted_chunk_layout`, from an index on. -/
def checkChunkRows (upload : UploadRow) (artifact : UploadArtifactRow) :
    List UploadChunkRow → ℕ → Except ApiError Unit
  | [], _ => pure ()
  | row :: rest, expectedIndex => do
    if row.chunkIndex ≠ expectedIndex then
      throw (.conflict "artifact_incomplete" "accepted chunks contain a gap or overlap")
    let expectedLength ← expectedChunkLength upload artifact expectedIndex
    let expectedLength ← toSqliteI64 expectedLength
    if row.byteLength ≠ expectedLength then
      throw (.conflict "chunk_layout_invalid"
        "accepted chunk length does not match the negotiated layout")
    match validateDigest (digestDocumentValue row.sha256) with
    | .error _ =>
      throw (.conflict "chunk_layout_invalid"
        "accepted chunk checksum does not match the negotiated layout")
    | .ok () => checkChunkRows upload artifact rest (expectedIndex + 1)

def acceptedChunkLayout (upload : UploadRow) (artifact : UploadArtifactRow) :
    Handler ApiError (List UploadChunkRow) := do
  let rows ← query .database fun db => pure (db.chunksOf upload.id artifact.artifactIndex)
  let expectedCount ← check (unsignedColumn artifact.chunkCount)
  if rows.length ≠ expectedCount then
    throw (.conflict "artifact_incomplete"
      "all negotiated chunks must be accepted before completion")
  check (checkChunkRows upload artifact rows 0)
  pure rows

def chunkMissing : ApiError :=
  unprocessable "chunk_missing" "an accepted chunk is no longer available"

/-- The chunk loop of `assemble_artifact`, with the bytes copied so far. -/
def copyChunks (uploadId : String) (artifactIndex : ℕ) (artifact : Artifact)
    (destination : FilePath) : List UploadChunkRow → Bytes → Handler ApiError Bytes
  | [], copied => pure copied
  | chunk :: rest, copied => do
    let bytes ← fileRead chunkMissing fun fs =>
      match fs.read (.artifactChunk uploadId artifactIndex chunk.chunkIndex.toNat) with
      | .ok bytes => .ok bytes
      | .error _ => .error chunkMissing
    if chunk.byteLength < bytes.length then throw chunkChecksumError
    if artifact.storedSizeBytes.toNat < copied.length + bytes.length then
      throw (storedChecksumError "assembled artifact exceeds its declared stored size")
    orFail .storage (← fileOp fun fs => .ok (fs.append destination bytes))
    if (bytes.length : ℤ) ≠ chunk.byteLength ∨ c.sha256Hex bytes ≠ chunk.sha256 then
      throw chunkChecksumError
    copyChunks uploadId artifactIndex artifact destination rest (copied ++ bytes)

def assembleArtifact (upload : UploadRow) (artifactRow : UploadArtifactRow) (artifact : Artifact)
    (artifactIndex : ℕ) (destination : FilePath) : Handler ApiError Bytes := do
  let chunks ← acceptedChunkLayout upload artifactRow
  orFail .storage (← fileOp fun fs => fs.createDirAll [.uploadDir upload.id])
  orFail .storage (← fileOp fun fs => fs.createNew destination)
  let copied ← copyChunks c upload.id artifactIndex artifact destination chunks []
  -- flush and fsync
  orFail .storage (← fileOp fun fs => .ok (fs.syncFile destination))
  if copied.length ≠ artifact.storedSizeBytes.toNat ∨
      c.sha256Hex copied ≠ digestStorageValue artifact.storedSha256 then
    throw (storedChecksumError
      "assembled artifact stored size or checksum does not match the manifest")
  pure copied

/-- What a stored representation decodes to. -/
def decode (compression : Compression) (bytes : Bytes) : Except ApiError Bytes :=
  match compression with
  | .identity => pure bytes
  | .zstd => okOr (c.zstdDecode bytes) (.invalid "artifact zstd stream is corrupt or truncated")

/-- `verify_artifact_blocking`, given the bytes of the file. -/
def verifyArtifactBytes (artifact : Artifact) (bytes : Bytes) : Except ApiError Unit := do
  let (storedSize, storedDigest) ← hashReader c bytes artifact.storedSizeBytes.toNat
  if storedSize ≠ artifact.storedSizeBytes.toNat ∨
      storedDigest ≠ digestStorageValue artifact.storedSha256 then
    throw (storedChecksumError "artifact stored size or checksum does not match the manifest")
  let original ← decode c artifact.compression bytes
  let (originalSize, originalDigest) ← hashReader c original artifact.originalSizeBytes.toNat
  if originalSize ≠ artifact.originalSizeBytes.toNat ∨
      originalDigest ≠ digestStorageValue artifact.originalSha256 then
    throw (unprocessable "artifact_original_checksum_mismatch"
      "artifact original size or checksum does not match the manifest")

def verifyArtifact (path : FilePath) (artifact : Artifact) : Handler ApiError Unit :=
  fileRead .storage fun fs =>
    match fs.read path with
    | .ok bytes => verifyArtifactBytes c artifact bytes
    | .error _ => .error .storage

/-- `cleanup_prepared`. -/
def cleanupPrepared : List PreparedArtifact → Program Unit
  | [] => pure ()
  | prepared :: rest => do
    let _ ← discardFile prepared.assembledPath
    cleanupPrepared rest

/-- The loop of `prepare_artifacts`, with what is prepared so far. -/
def prepareArtifacts (upload : UploadRow) :
    List (Artifact × UploadArtifactRow) → List PreparedArtifact →
      Handler ApiError (List PreparedArtifact)
  | [], prepared => pure prepared
  | (artifact, row) :: rest, prepared => do
    let artifactIndex ← check (unsignedColumn row.artifactIndex)
    let uuid ← freshId
    let assembledPath := FilePath.assembledArtifact upload.id artifactIndex uuid
    let result ← attempt do
      let _ ← assembleArtifact c upload row artifact artifactIndex assembledPath
      verifyArtifact c assembledPath artifact
    match result with
    | .error error => do
      let _ ← discardFile assembledPath
      cleanupPrepared prepared
      throw error
    | .ok () =>
      prepareArtifacts upload rest (prepared ++ [⟨artifactIndex, artifact, assembledPath⟩])

/-! ## §4 — Promotion. -/

/-- `BTreeMap::entry(..).or_insert(..)`: the first of a digest stays. -/
def insertFirst (p : PreparedArtifact) : List PreparedArtifact → List PreparedArtifact
  | [] => [p]
  | q :: rest =>
    if p.digest < q.digest then p :: q :: rest
    else if p.digest = q.digest then q :: rest
    else q :: insertFirst p rest

/-- `unique_stored_artifacts`: one artifact of each digest, by ascending digest. -/
def uniqueStoredArtifacts (prepared : List PreparedArtifact) : List PreparedArtifact :=
  prepared.foldl (fun unique p => insertFirst p unique) []

/-- The loop of `ensure_blob_representations_compatible`. -/
def ensureRepresentations : List PreparedArtifact → Handler ApiError Unit
  | [] => pure ()
  | prepared :: rest => do
    let expectedSize ← check (toSqliteI64 prepared.artifact.storedSizeBytes.toNat)
    let existing ← query .database fun db => pure (db.blobByDigest prepared.digest)
    match existing with
    | none => ensureRepresentations rest
    | some row =>
      if row.storedSizeBytes ≠ expectedSize ∨ row.compression ≠ prepared.artifact.compression then
        throw blobIntegrityConflict
      else ensureRepresentations rest

def ensureBlobRepresentationsCompatible (prepared : List PreparedArtifact) :
    Handler ApiError Unit :=
  ensureRepresentations (uniqueStoredArtifacts prepared)

structure BlobPromotion where
  storedSha256 : String
  storedSizeBytes : ℕ
  created : Bool

/-- The loop of `cleanup_uncommitted_promotions`. -/
def cleanupUncommittedPromotions : List BlobPromotion → Handler ApiError Unit
  | [] => pure ()
  | promotion :: rest => do
    if promotion.created then
      let referenced ← query .database fun db => pure (db.blobByDigest promotion.storedSha256)
      if referenced.isNone then
        orFail .storage (← removeBlobFile promotion.storedSha256)
    cleanupUncommittedPromotions rest

/-- `promote_blob`; the result says whether the file is new. -/
def promoteBlob (sourcePath : FilePath) (storedSha256 : String) (storedSize : ℕ) :
    Handler ApiError Bool := do
  let digest := digestStorageValue storedSha256
  let destination := blobPath digest
  let shard := FilePath.shard (String.ofList ((Lib.chars digest).take 2))
  orFail .storage (← fileOp fun fs => fs.createDirAll [.blobRootEntry "sha256", shard])
  match ← linkBlobFile sourcePath digest with
  | .ok () => do
    orFail .storage (← fileOp fun fs => fs.syncDirectory shard)
    pure true
  | .error .alreadyExists => do
    fileRead .storage (verifyStoredFile c destination storedSize storedSha256)
    pure false
  | .error _ => throw .storage

/-- The loop of `promote_unique_blobs`, with the promotions so far. -/
def promoteUniqueBlobs : List PreparedArtifact → List BlobPromotion →
    Handler ApiError (List BlobPromotion)
  | [], promotions => pure promotions
  | prepared :: rest, promotions => do
    let size := prepared.artifact.storedSizeBytes.toNat
    let promotion ←
      attempt (promoteBlob c prepared.assembledPath prepared.artifact.storedSha256 size)
    match promotion with
    | .error error => do
      -- a failed promotion may have linked its destination before it failed
      let _ ← attempt (cleanupUncommittedPromotions
        (promotions ++ [⟨prepared.digest, size, true⟩]))
      throw error
    | .ok created =>
      promoteUniqueBlobs rest (promotions ++ [⟨prepared.digest, size, created⟩])

/-- `newly_persisted_bytes`: the sizes of the files that are new. -/
def newlyPersistedBytes (promotions : List BlobPromotion) : Except ApiError ℕ :=
  (promotions.filter BlobPromotion.created).foldlM (fun total promotion =>
    if total + promotion.storedSizeBytes < 2 ^ 64 then pure (total + promotion.storedSizeBytes)
    else throw .internal) 0

/-! ## §5 — `complete_upload`. -/

structure Receipt where
  receiptVersion : ℕ
  archiveInstanceId : String
  ownerNamespace : String
  snapshotId : String
  sessionId : String
  snapshotFingerprint : String
  manifestSha256 : String
  artifactCount : ℕ
  totalOriginalBytes : ℕ
  totalStoredBytes : ℕ
  completedAt : String

structure CaptureProvenance where
  captureRecordId : String
  captureId : String
  clientId : String
  sessionId : String
  uploadId : String
  snapshotId : String
  manifestId : String
  manifestSha256 : String
  sourceCapturedAt : String
  sourceCursor : Option String
  sourceStateHash : Option String
  sourceMetadata : Lib.StringMap String
  project : Option String
  repository : Option String
  branch : Option String
  sourceAgentVersion : Option String
  artifactSetVersion : ℕ
  munshiVersion : Option String
  serverReceivedAt : String
  serverCompletedAt : String
  captureUrl : String
  manifestUrl : String

structure CompletionResponse where
  receipt : Receipt
  uploadId : String
  captureId : String
  uploadTransferBytes : ℕ
  newlyPersistedPhysicalBytes : ℕ
  capture : CaptureProvenance

/-- The join of `receipt_for_upload`. -/
def Db.receiptRow (db : Db) (uploadId : String) : Option (SnapshotRow × ManifestRow) := do
  let upload ← db.uploads.find? fun r => decide (r.id = uploadId ∧ r.status = .completed)
  let snapshot ← db.snapshot (← upload.snapshotId)
  let manifest ← db.manifest snapshot.manifestId
  if snapshot.live then some (snapshot, manifest) else none

def receiptForUpload (uploadId : String) : Handler ApiError Receipt := do
  let (snapshot, manifest) ← query .database fun db =>
    okOr (db.receiptRow uploadId) (.notFound "snapshot_not_found" "snapshot was not found")
  let artifactCount ← check (unsignedColumn snapshot.artifactCount)
  let totalOriginalBytes ← check (unsignedColumn snapshot.totalOriginalSizeBytes)
  let totalStoredBytes ← check (unsignedColumn snapshot.totalStoredSizeBytes)
  pure ⟨2, cfg.archiveInstanceId, ownerNamespace, snapshot.id, snapshot.sessionId,
    digestDocumentValue snapshot.fingerprintSha256, digestDocumentValue manifest.sha256,
    artifactCount, totalOriginalBytes, totalStoredBytes, snapshot.completedAt⟩

/-- The join of `capture_for_upload`. -/
def Db.captureOfUpload (db : Db) (uploadId : String) : Option (CaptureRow × ManifestRow) := do
  let capture ← db.captures.find? fun r => decide (r.uploadId = uploadId) &&
    db.snapshots.any fun s => decide (s.id = r.snapshotId) && s.live
  let manifest ← db.manifest capture.manifestId
  some (capture, manifest)

def captureFromRow (row : CaptureRow) (manifest : ManifestRow) :
    Except ApiError CaptureProvenance := do
  let sourceMetadata ←
    okOr ((c.jsonFromStr row.sourceMetadataJson).bind stringMapFromJson) .internal
  let artifactSetVersion ← unsignedColumn row.artifactSetVersion
  pure
    { captureRecordId := row.id
      captureId := row.captureId
      clientId := row.clientId
      sessionId := row.sessionId
      uploadId := row.uploadId
      snapshotId := row.snapshotId
      manifestId := row.manifestId
      manifestSha256 := digestDocumentValue manifest.sha256
      sourceCapturedAt := row.sourceCapturedAt
      sourceCursor := row.sourceCursor
      sourceStateHash := row.sourceStateHash
      sourceMetadata := sourceMetadata
      project := row.project
      repository := row.repository
      branch := row.branch
      sourceAgentVersion := row.sourceAgentVersion
      artifactSetVersion := artifactSetVersion
      munshiVersion := row.munshiVersion
      serverReceivedAt := row.serverReceivedAt
      serverCompletedAt := row.serverCompletedAt
      captureUrl := "/api/v1/captures/" ++ row.id
      manifestUrl := "/api/v1/manifests/" ++ row.manifestId }

def captureForUpload (uploadId : String) : Handler ApiError CaptureProvenance := do
  let (row, manifest) ← query .database fun db =>
    okOr (db.captureOfUpload uploadId) (.notFound "capture_not_found" "capture was not found")
  check (captureFromRow c row manifest)

def completionForUpload (uploadId : String) : Handler ApiError CompletionResponse := do
  let receipt ← receiptForUpload cfg uploadId
  let transfer ← query .database fun db =>
    okOr (db.uploads.find? fun r => decide (r.id = uploadId ∧ r.status = .completed))
      (.notFound "upload_not_found" "upload was not found")
  let capture ← captureForUpload c uploadId
  let transferBytes ← check (unsignedColumn transfer.transferBytes)
  let newlyPersisted ← check (unsignedColumn transfer.newlyPersistedBytes)
  pure ⟨receipt, transfer.id, transfer.captureId, transferBytes, newlyPersisted, capture⟩

def getUploadManifest (uploadId : String) : Handler ApiError Manifest := do
  let row ← query .database fun db => okOr (db.manifestOfUpload uploadId) .database
  check (okOr (parseManifest c row.canonicalJson) .internal)

def findSnapshotByFingerprint (sessionId fingerprint : String) :
    Handler ApiError (Option String) :=
  query .database fun db => pure ((db.liveSnapshot sessionId fingerprint).map SnapshotRow.id)

def finalizeUploadForExistingSnapshot (upload : UploadRow) (manifest : Manifest)
    (snapshotId : String) (transferBytes : ℕ) : Handler ApiError Unit := do
  let now ← nowRfc3339 c
  let captureId ← freshId
  let completed ← transaction .finalizeUpload classifyDatabaseError [captureId] []
    (finalizeUpload c ⟨upload, manifest, now, transferBytes, captureId⟩ snapshotId)
  if completed then pure ()
  else throw (uploadStateConflict "upload state changed while completion was requested")

/-- `record_completed_upload` around its transaction. -/
def recordCompletion (upload : UploadRow) (manifest : Manifest) (prepared : List PreparedArtifact)
    (promotions : List BlobPromotion) (fingerprint : String)
    (transferBytes newlyPersisted : ℕ) : Handler ApiError Unit := do
  -- the ordering key of the snapshot is read here, before the write transaction begins
  let now ← nowRfc3339 c
  let nowSeq ← check (okOr (sortKeyFromRfc3339 c now) .internal)
  let blobIds ← freshIds prepared.length
  let snapshotId ← freshId
  let artifactIds ← freshIds prepared.length
  let captureId ← freshId
  let outcome ← transaction .recordCompletedUpload classifyDatabaseError
    (snapshotId :: captureId :: (blobIds ++ artifactIds)) []
    (recordCompletedUpload c ⟨⟨upload, manifest, now, transferBytes, captureId⟩, prepared,
      fingerprint, nowSeq, newlyPersisted, snapshotId, blobIds, artifactIds⟩)
  match outcome with
  | .recorded => pure ()
  | .lost => do
    let winner ← query .database fun db =>
      okOr (db.liveSnapshot upload.sessionId fingerprint) .database
    cleanupUncommittedPromotions promotions
    finalizeUploadForExistingSnapshot c upload manifest winner.id transferBytes

/-- What a completion knows once its artifacts are verified. -/
structure Verified where
  upload : UploadRow
  manifest : Manifest
  prepared : List PreparedArtifact
  transferBytes : ℕ
  fingerprint : String

/-- The response to an upload that has just been completed. -/
def completedResponse (uploadId : String) : Handler ApiError CompletionResponse := do
  -- metadata is committed: the directory is only leftovers now
  let _ ← removeUploadDir uploadId
  completionForUpload c cfg uploadId

/-- `complete_upload` under the blob locks of its digests. -/
def completeUnderBlobLocks (v : Verified) (unique : List PreparedArtifact) (locks : List Lock) :
    Handler ApiError CompletionResponse := do
  match ← attempt (ensureBlobRepresentationsCompatible v.prepared) with
  | .error error => do
    cleanupPrepared v.prepared
    throw error
  | .ok () => do
  match ← findSnapshotByFingerprint v.upload.sessionId v.fingerprint with
  | some snapshotId => do
    cleanupPrepared v.prepared
    finalizeUploadForExistingSnapshot c v.upload v.manifest snapshotId v.transferBytes
    release locks
    completedResponse c cfg v.upload.id
  | none => do
    match ← attempt (promoteUniqueBlobs c unique []) with
    | .error error => do
      cleanupPrepared v.prepared
      throw error
    | .ok promotions => do
      let newlyPersisted ← check (newlyPersistedBytes promotions)
      match ← attempt (recordCompletion c v.upload v.manifest v.prepared promotions v.fingerprint
          v.transferBytes newlyPersisted) with
      | .error error => do
        let _ ← attempt (cleanupUncommittedPromotions promotions)
        cleanupPrepared v.prepared
        throw error
      | .ok () => do
        release locks
        completedResponse c cfg v.upload.id

/-- `complete_upload` up to the verified artifacts. -/
def verifyUpload (upload : UploadRow) : Handler ApiError Verified := do
  let manifest ← getUploadManifest c upload.id
  check (validateCurrentManifestLimits cfg manifest)
  let artifacts ← query .database fun db => pure (db.uploadArtifactsOf upload.id)
  check (validateUploadProjection manifest artifacts upload)
  let prepared ← prepareArtifacts c upload (manifest.artifacts.zip artifacts) []
  let (_, transferBytes) ← check (manifestTotals manifest)
  pure ⟨upload, manifest, prepared, transferBytes, snapshotFingerprint c manifest⟩

/-- `complete_upload` for verified artifacts. -/
def completeVerified (v : Verified) : Handler ApiError CompletionResponse := do
  match ← attempt (ensureBlobRepresentationsCompatible v.prepared) with
  | .error error => do
    cleanupPrepared v.prepared
    throw error
  | .ok () => do
  -- a fast semantic hit takes the identity lock deletion takes, then looks again
  let hit ←
    match ← findSnapshotByFingerprint v.upload.sessionId v.fingerprint with
    | none => pure none
    | some _ => do
      acquire (snapshotLock v.upload.sessionId v.fingerprint)
      match ← findSnapshotByFingerprint v.upload.sessionId v.fingerprint with
      | some snapshotId => pure (some snapshotId)
      | none => do
        release [snapshotLock v.upload.sessionId v.fingerprint]
        pure none
  match hit with
  | some snapshotId => do
    cleanupPrepared v.prepared
    finalizeUploadForExistingSnapshot c v.upload v.manifest snapshotId v.transferBytes
    completedResponse c cfg v.upload.id
  | none => do
    let unique := uniqueStoredArtifacts v.prepared
    let locks := blobLocksForDigests (unique.map PreparedArtifact.digest)
    acquireAll locks
    completeUnderBlobLocks c cfg v unique locks

def completeUpload (uploadId : String) : Handler ApiError CompletionResponse := do
  let uploadId ← check (parseUuidText uploadId "upload identifier is not a UUID")
  acquire (uploadLock uploadId)
  let upload ← requireActiveUpload c uploadId
  if upload.status = .completed then completionForUpload c cfg uploadId
  else do
    let verified ← verifyUpload c cfg upload
    completeVerified c cfg verified

/-! ## §6 — `reconcile_snapshot`. -/

inductive ReconciliationError where
  | notFound
  | drift
  | metadata
  deriving DecidableEq

/-- The first read: the live snapshot with its manifest row. -/
def Db.reconcileRow (db : Db) (snapshotId : String) : Option (SnapshotRow × ManifestRow) := do
  let snapshot ← db.snapshot snapshotId
  let manifest ← db.manifest snapshot.manifestId
  if snapshot.live then some (snapshot, manifest) else none

/-- The second read: the snapshot's artifact rows with their blob rows, in index order. -/
def Db.reconcileArtifacts (db : Db) (snapshotId : String) : List (ArtifactRow × BlobRow) :=
  ((db.artifacts.filter fun a => decide (a.snapshotId = snapshotId)).insertionSort
    fun a b => a.artifactIndex ≤ b.artifactIndex).filterMap fun a =>
      (db.blob a.blobId).map fun b => (a, b)

/-- One artifact row and its blob row are what the manifest says of the artifact at `index`. -/
def rowMatches (index : ℕ) (artifact : Artifact) (row : ArtifactRow) (blob : BlobRow) : Bool :=
  decide (row.artifactIndex = index ∧ row.logicalPath = artifact.logicalPath ∧
    row.mediaType = artifact.mediaType ∧
    row.originalSizeBytes = artifact.originalSizeBytes.toNat ∧
    row.originalSha256 = digestStorageValue artifact.originalSha256 ∧
    blob.storedSizeBytes = artifact.storedSizeBytes.toNat ∧
    blob.storedSha256 = digestStorageValue artifact.storedSha256 ∧
    blob.compression = artifact.compression)

/-- Rows against artifacts, position by position. -/
def rowsMatch : List Artifact → List (ArtifactRow × BlobRow) → ℕ → Bool
  | [], [], _ => true
  | artifact :: artifacts, (row, blob) :: rows, index =>
    rowMatches index artifact row blob && rowsMatch artifacts rows (index + 1)
  | _, _, _ => false

/-- `reconcile_snapshot`, given its two reads. -/
def reconcile (snapshot : SnapshotRow) (manifestRow : ManifestRow)
    (rows : List (ArtifactRow × BlobRow)) : Except ReconciliationError Unit :=
  if c.sha256Hex (utf8 manifestRow.canonicalJson) ≠ manifestRow.sha256 then throw .drift
  else
    match parseManifest c manifestRow.canonicalJson with
    | none => throw .drift
    | some manifest =>
      match manifestTotals manifest with
      | .error _ => throw .drift
      | .ok (originalTotal, storedTotal) =>
        if snapshot.artifactCount = manifest.artifacts.length ∧
            snapshot.totalOriginalSizeBytes = originalTotal ∧
            snapshot.totalStoredSizeBytes = storedTotal ∧
            rowsMatch manifest.artifacts rows 0 then pure ()
        else throw .drift

/-- `reconcile_snapshot` on a database nobody else writes. -/
def reconcileSnapshot (db : Db) (snapshotId : String) : Except ReconciliationError Unit :=
  match db.reconcileRow snapshotId with
  | none => throw .notFound
  | some (snapshot, manifest) =>
    reconcile c snapshot manifest (db.reconcileArtifacts snapshotId)

end Patwari
