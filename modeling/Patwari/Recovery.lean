/-
# Patwari.Recovery — what a restarted server does before it serves.

`recover_uploads` brings the data directory and the metadata back together after a crash. §1 are
its upgrade steps, each of which selects the rows an earlier version left and finds none in an
archive this version wrote. §2 checks the chunks of active uploads against their files, §3 the
blob rows against references and the blob files against rows, §4 is the whole pass. The server
holds no lock and serves no request while it runs.
-/
import Patwari.Deletion

namespace Patwari

open Lib (Prog updateWhere)

variable (c : Crates) (cfg : Config)

/-! ## §1 — Upgrades. -/

/-- The write transactions of recovery; every failure is reported as one. -/
def recoveryTransaction {α : Type} (ids : List String)
    (f : Db → Except MaintenanceError (α × Db)) : Handler MaintenanceError α :=
  transaction .recover (fun _ => .operation) ids [] f

/-- One read of recovery. -/
def recoveryQuery {α : Type} (f : Db → α) : Handler MaintenanceError α :=
  query .operation fun db => pure (f db)

/-- Runs a step for every element. -/
def forEach {α : Type} (f : α → Handler MaintenanceError Unit) :
    List α → Handler MaintenanceError Unit
  | [] => pure ()
  | a :: rest => do
    f a
    forEach f rest

def asOperation {α : Type} (x : Except ApiError α) : Except MaintenanceError α :=
  x.mapError fun _ => .operation

/-- The artifact rows of one upload of an earlier version, in one transaction. -/
def upgradeUploadArtifacts (upload : UploadRow) (canonicalJson : String) :
    Handler MaintenanceError Unit := do
  let manifest ← check (okOr (parseManifest c canonicalJson) .operation)
  if manifest.artifacts = [] then throw .operation
  let chunkSize ← check (asOperation (unsignedColumn upload.chunkSizeBytes))
  let layout ← check (asOperation (uploadLayout manifest chunkSize))
  let counts := layout.chunkCounts.map fun count =>
    if manifest.artifacts.length = 1 ∧ 0 < upload.chunkCount then upload.chunkCount.toNat
    else count
  let first ← check (okOr manifest.artifacts.head? .operation)
  let firstCount := if 0 < upload.chunkCount then upload.chunkCount
    else ((layout.chunkCounts.headD 0 : ℕ) : ℤ)
  recoveryTransaction [] fun db => do
    let rows ← asOperation (uploadArtifactRows upload.id (manifest.artifacts.zip counts) 0)
    let db ← asOperation (rows.foldlM insertUploadArtifact db)
    let totalOriginalBytes ← asOperation (toSqliteI64 layout.totalOriginalBytes)
    let totalStoredBytes ← asOperation (toSqliteI64 layout.totalStoredBytes)
    pure ((), { db with
      uploads := updateWhere (fun r => decide (r.id = upload.id)) (fun r =>
        { r with
          artifactCount := manifest.artifacts.length
          totalOriginalSizeBytes := totalOriginalBytes
          totalStoredSizeBytes := totalStoredBytes
          declaredOriginalSizeBytes := first.originalSizeBytes.toNat
          declaredStoredSizeBytes := first.storedSizeBytes.toNat
          chunkCount := firstCount
          transferBytes :=
            if r.status = .completed then totalStoredBytes else r.transferBytes })
        db.uploads })

/-- The uploads without artifact rows, each with its manifest. -/
def Db.uploadsWithoutArtifacts (db : Db) : List (UploadRow × ManifestRow) :=
  (db.uploads.filter fun u =>
    !db.uploadArtifacts.any fun a => decide (a.uploadId = u.id)).flatMap fun u =>
      (db.manifests.filter fun m => decide (m.uploadId = u.id)).map fun m => (u, m)

def upgradeUploadArtifactRows : Handler MaintenanceError Unit := do
  let rows ← recoveryQuery Db.uploadsWithoutArtifacts
  forEach (fun r => upgradeUploadArtifacts c r.1 r.2.canonicalJson) rows

def legacyExpiryMarker : String := "1970-01-01T00:00:00Z"

/-- `migrate_legacy_file`: whether the single file of an early upload became its chunk. -/
def migrateLegacyFile (uploadId : String) (artifact : Artifact) :
    Handler MaintenanceError Bool := do
  let storedSize := artifact.storedSizeBytes.toNat
  if storedSize = 0 then return false
  let source := FilePath.legacyArtifact uploadId
  let found ← fileRead .operation fun fs => pure (fs.lookup source).isSome
  if ¬ found then return false
  match ← attempt (fileRead .operation fun fs =>
      asOperation (verifyStoredFile c source storedSize artifact.storedSha256 fs)) with
  | .error _ => pure false
  | .ok () => do
    orOperation (← fileOp fun fs =>
      fs.createDirAll [.uploadDir uploadId, .artifactChunkDir uploadId 0])
    let destination := FilePath.artifactChunk uploadId 0 0
    match ← fileOp fun fs => fs.hardLink source destination with
    | .ok () => do
      orOperation (← fileOp fun fs => fs.syncDirectory (.artifactChunkDir uploadId 0))
      pure true
    | .error .alreadyExists => do
      match ← attempt (fileRead .operation fun fs =>
          asOperation (verifyStoredFile c destination storedSize artifact.storedSha256 fs)) with
      | .ok () => pure true
      | .error _ => pure false
    | .error _ => throw .operation

/-- The transaction of `upgrade_legacy_upload`. -/
def upgradeLegacyRows (uploadId : String) (artifact : Artifact) (chunkSize : ℕ) (accepted : Bool)
    (now expiresAt : String) (db : Db) : Db :=
  let storedSize := artifact.storedSizeBytes.toNat
  let status := if storedSize = 0 ∨ accepted then UploadRowStatus.artifactUploaded else .created
  let count : ℤ := if storedSize = 0 then 0 else 1
  let row : UploadChunkRow :=
    ⟨uploadId, 0, 0, storedSize, digestStorageValue artifact.storedSha256, now⟩
  { db with
    artifacts := db.artifacts.filter fun a =>
      !db.snapshots.any fun s => decide (s.id = a.snapshotId) && !s.live
    uploads := updateWhere (fun r => decide (r.id = uploadId)) (fun r =>
      { r with
        chunkSizeBytes := chunkSize
        chunkCount := count
        declaredStoredSizeBytes := storedSize
        declaredOriginalSizeBytes := artifact.originalSizeBytes.toNat
        expiresAt := expiresAt
        status := status
        artifactCount := 1
        totalStoredSizeBytes := storedSize
        totalOriginalSizeBytes := artifact.originalSizeBytes.toNat }) db.uploads
    uploadArtifacts := updateWhere
      (fun r => decide (r.uploadId = uploadId ∧ r.artifactIndex = 0))
      (fun r => { r with chunkCount := count }) db.uploadArtifacts
    uploadChunks :=
      if accepted ∧ ¬ (db.chunk uploadId 0 0).isSome then db.uploadChunks ++ [row]
      else db.uploadChunks }

def upgradeLegacyUpload (uploadId canonicalJson now expiresAt : String) :
    Handler MaintenanceError Unit := do
  let manifest ← check (okOr (parseManifest c canonicalJson) .operation)
  match manifest.artifacts with
  | [artifact] => do
    let storedSize := artifact.storedSizeBytes.toNat
    let chunkSize := if storedSize = 0 then cfg.chunkSizeBytes else storedSize
    let accepted ← migrateLegacyFile c uploadId artifact
    recoveryTransaction [] fun db => do
      let _ ← asOperation (toSqliteI64 chunkSize)
      let _ ← asOperation (toSqliteI64 storedSize)
      let _ ← asOperation (toSqliteI64 artifact.originalSizeBytes.toNat)
      pure ((), upgradeLegacyRows uploadId artifact chunkSize accepted now expiresAt db)
    if accepted then
      orOperation (← fileOp fun fs => fs.removeFile (.legacyArtifact uploadId))
  | _ => throw .operation

/-- The active uploads an early version left, each with its manifest. -/
def Db.legacyUploads (db : Db) : List (UploadRow × ManifestRow) :=
  (db.uploads.filter fun u =>
    u.status.active && decide (u.expiresAt = legacyExpiryMarker)).flatMap fun u =>
      (db.manifests.filter fun m => decide (m.uploadId = u.id)).map fun m => (u, m)

def upgradeLegacyUploads : Handler MaintenanceError Unit := do
  let legacy ← recoveryQuery Db.legacyUploads
  if legacy = [] then return ()
  let now ← nowUtc
  let nowText ← check (formatTime c .clock now)
  let expiresAt ← check (formatTime c .clock (expirationTime now cfg.uploadExpiry))
  forEach (fun r => upgradeLegacyUpload c cfg r.1.id r.2.canonicalJson nowText expiresAt) legacy

/-- The snapshots with a fingerprint of the first version, each with its manifest. -/
def Db.legacyFingerprints (db : Db) : List (SnapshotRow × ManifestRow) :=
  (db.snapshots.filter fun s => decide (s.fingerprintVersion = 0)).flatMap fun s =>
    (db.manifests.filter fun m => decide (m.id = s.manifestId)).map fun m => (s, m)

def upgradeSnapshotFingerprint (snapshotId canonicalJson : String) :
    Handler MaintenanceError Unit := do
  let manifest ← check (okOr (parseManifest c canonicalJson) .operation)
  recoveryTransaction [] fun db => pure ((), { db with
    snapshots := updateWhere (fun r => decide (r.id = snapshotId ∧ r.fingerprintVersion = 0))
      (fun r =>
        { r with
          fingerprintSha256 := snapshotFingerprint c manifest
          fingerprintVersion := snapshotFingerprintVersion }) db.snapshots })

def upgradeSnapshotFingerprints : Handler MaintenanceError Unit := do
  let rows ← recoveryQuery Db.legacyFingerprints
  forEach (fun r => upgradeSnapshotFingerprint c r.1.id r.2.canonicalJson) rows

/-- `backfill_table_sort_key`: gives every row whose key is 0 the key of its timestamp. -/
def backfillTableSortKey {ρ : Type} (rows : Db → List ρ) (timestamp : ρ → String)
    (update : ρ → ℤ → Db → Db) : Handler MaintenanceError Unit := do
  let found ← recoveryQuery rows
  if found.isEmpty then return ()
  recoveryTransaction [] fun db => do
    let db ← found.foldlM (fun db row => do
      let seq ← okOr (sortKeyFromRfc3339 c (timestamp row)) .operation
      pure (update row seq db)) db
    pure ((), db)

def backfillSortKeys : Handler MaintenanceError Unit := do
  backfillTableSortKey c (fun db => db.snapshots.filter fun r => decide (r.completedAtSeq = 0))
    SnapshotRow.completedAt fun row seq db => { db with
      snapshots := updateWhere (fun r => decide (r.id = row.id ∧ r.completedAtSeq = 0))
        (fun r => { r with completedAtSeq := seq }) db.snapshots }
  backfillTableSortKey c (fun db => db.captures.filter fun r => decide (r.serverCompletedAtSeq = 0))
    CaptureRow.serverCompletedAt fun row seq db => { db with
      captures := updateWhere (fun r => decide (r.id = row.id ∧ r.serverCompletedAtSeq = 0))
        (fun r => { r with serverCompletedAtSeq := seq }) db.captures }
  backfillTableSortKey c (fun db => db.artifacts.filter fun r => decide (r.createdAtSeq = 0))
    ArtifactRow.createdAt fun row seq db => { db with
      artifacts := updateWhere (fun r => decide (r.id = row.id ∧ r.createdAtSeq = 0))
        (fun r => { r with createdAtSeq := seq }) db.artifacts }

/-- The completed uploads without a capture. -/
def Db.uploadsWithoutCapture (db : Db) : List String :=
  (db.uploads.filter fun u => decide (u.status = .completed) &&
    !db.captures.any fun r => decide (r.uploadId = u.id)).map UploadRow.id

def backfillCaptureProvenance (uploadId : String) : Handler MaintenanceError Unit := do
  let upload ← query .operation fun db => okOr (db.upload uploadId) .operation
  let manifestRow ← query .operation fun db => okOr (db.manifestOfUpload uploadId) .operation
  let manifest ← check (okOr (parseManifest c manifestRow.canonicalJson) .operation)
  let snapshotId ← check (okOr upload.snapshotId .operation)
  let completedAt ← check (okOr upload.completedAt .operation)
  let manifestId ← query .operation fun db =>
    okOr ((db.manifestOfUpload uploadId).map ManifestRow.id) .operation
  let captureId ← freshId
  recoveryTransaction [captureId] fun db => do
    let db ← asOperation
      (insertCaptureProvenance c captureId upload manifest manifestId snapshotId completedAt db)
    pure ((), db)

def backfillCompletedCaptureProvenance : Handler MaintenanceError Unit := do
  let uploadIds ← recoveryQuery Db.uploadsWithoutCapture
  forEach (backfillCaptureProvenance c) uploadIds

/-- `rebuild_session_latest_context` of `ingestion.rs`: every session's row at once. -/
def rebuildAllLatestContexts (db : Db) : Db :=
  { db with
    sessionLatestContext := db.sessions.flatMap fun s => (db.latestContext s.id).toList }

/-! ## §2 — Chunks. -/

/-- `remove_recovery_entry`. -/
def removeRecoveryEntry (path : FilePath) : Handler MaintenanceError Unit := do
  let metadata ← fileRead .operation fun fs => okOr (fs.lookup path) .operation
  match metadata with
  | .dir => orOperation (← fileOp fun fs => .ok (fs.removeWhere fun q => decide (q = path)))
  | .file _ | .unreadable | .other => orOperation (← fileOp fun fs => fs.removeFile path)

/-- The entries of a directory; none when there is no directory. -/
def recoveryEntries (path : FilePath) : Handler MaintenanceError (List FilePath) :=
  fileRead .operation fun fs =>
    match fs.readDir path with
    | .ok entries => pure entries
    | .error .notFound => pure []
    | .error _ => throw .operation

/-- A chunk row's file is not what the row says: the row goes, then the file. -/
def recoverChunkRow (uploadId : String) (artifactIndex : ℕ) (row : UploadChunkRow) :
    Handler MaintenanceError Unit := do
  let chunkIndex ← check (asOperation (unsignedColumn row.chunkIndex))
  let length ← check (asOperation (unsignedColumn row.byteLength))
  let path := FilePath.artifactChunk uploadId artifactIndex chunkIndex
  match ← attempt (fileRead .operation fun fs =>
      asOperation (verifyStoredFile c path length row.sha256 fs)) with
  | .ok () => pure ()
  | .error _ => do
    recoveryTransaction [] fun db => pure ((), { db with
      uploadChunks := db.uploadChunks.filter fun r =>
        !decide (r.uploadId = uploadId ∧ r.artifactIndex = artifactIndex ∧
          r.chunkIndex = row.chunkIndex) })
    let _ ← discardFile path

/-- An entry of a chunk directory that is no accepted chunk is removed. -/
def keepAcceptedChunk (accepted : List ℕ) (entry : FilePath) : Handler MaintenanceError Unit :=
  match entry with
  | .artifactChunk _ _ chunkIndex =>
    if chunkIndex ∈ accepted then pure () else removeRecoveryEntry entry
  | _ => removeRecoveryEntry entry

def recoverArtifactChunks (uploadId : String) (artifact : UploadArtifactRow) :
    Handler MaintenanceError Unit := do
  let artifactIndex ← check (asOperation (unsignedColumn artifact.artifactIndex))
  let rows ← recoveryQuery (·.chunksOf uploadId artifact.artifactIndex)
  forEach (recoverChunkRow c uploadId artifactIndex) rows
  let validRows ← recoveryQuery (·.chunksOf uploadId artifact.artifactIndex)
  let accepted ← check (asOperation (validRows.mapM fun row => unsignedColumn row.chunkIndex))
  let entries ← recoveryEntries (.artifactChunkDir uploadId artifactIndex)
  forEach (keepAcceptedChunk accepted) entries

/-- A file a completion was assembling, or the whole artifact of an early version, is removed. -/
def removeAssembled (entry : FilePath) : Handler MaintenanceError Unit :=
  match entry with
  | .assembledArtifact .. | .legacyArtifact _ => removeRecoveryEntry entry
  | _ => pure ()

def recoverActiveUpload (uploadId : String) : Handler MaintenanceError Unit := do
  let artifacts ← recoveryQuery (·.uploadArtifactsOf uploadId)
  if artifacts = [] then throw .operation
  forEach (recoverArtifactChunks c uploadId) artifacts
  let complete ← mapErr (fun _ => .operation) (uploadIsComplete uploadId)
  recoveryTransaction [] fun db => asOperation (setUploadStatus uploadId complete db)
  let entries ← recoveryEntries (.uploadDir uploadId)
  forEach removeAssembled entries

/-- `StorageLayout::remove_upload_dir` with its error reported. -/
def removeUploadDirectory (uploadId : String) : Handler MaintenanceError Unit := do
  orOperation (← removeUploadDir uploadId)

/-- One upload of `recover_uploads`. -/
def recoverUpload (upload : String × UploadRowStatus) : Handler MaintenanceError Unit :=
  if upload.2 = .completed then removeUploadDirectory upload.1
  else recoverActiveUpload c upload.1

/-- The directories under `uploads/`. -/
def FileStore.uploadDirs (fs : FileStore) : List String :=
  (fs.entries.map Prod.fst).dedup.filterMap fun
    | .uploadDir uploadId => some uploadId
    | _ => none

/-- A directory with the name of a UUID no row knows is removed with everything in it. -/
def removeUnknown (known : List String) (uploadId : String) : Handler MaintenanceError Unit := do
  if (parseUuid uploadId).isSome ∧ uploadId ∉ known then
    orOperation (← fileOp fun fs =>
      if fs.isDir (.uploadDir uploadId) then .ok (fs.removeUploadDir uploadId)
      else .error .other)

def removeUnknownUploadDirectories (known : List String) : Handler MaintenanceError Unit := do
  let entries ← fileRead .operation fun fs => pure fs.uploadDirs
  forEach (removeUnknown known) entries

/-! ## §3 — Blobs. -/

/-- The transaction of `recover_unreferenced_blobs`: live references clear a candidate, and a row
without one becomes a candidate unless it already has a deadline. -/
def recoverCandidates (orphanedAt eligibleAfter : String) (eligibleAfterSeq : ℤ) (db : Db) : Db :=
  { db with
    blobs := db.blobs.map fun r =>
      if db.hasLiveReference r.id then r.clearCandidate
      else if r.eligibleAfterSeq = none then
        { r with
          orphanedAt := some orphanedAt
          eligibleAfter := some eligibleAfter
          eligibleAfterSeq := some eligibleAfterSeq }
      else r }

/-- An entry of a shard whose name is no stored digest is removed. -/
def keepKnownBlob (known : List String) (entry : FilePath) : Handler MaintenanceError Unit :=
  match entry with
  | .blobEntry _ name => if name ∈ known then pure () else removeRecoveryEntry entry
  | _ => pure ()

/-- One shard directory; anything else under the root is passed over. -/
def recoverShard (known : List String) (shard : FilePath) : Handler MaintenanceError Unit := do
  let directory ← fileRead .operation fun fs => pure (fs.isDir shard)
  if ¬ directory then return ()
  let entries ← fileRead .operation fun fs =>
    match fs.readDir shard with
    | .ok entries => pure entries
    | .error _ => throw .operation
  forEach (keepKnownBlob known) entries

def recoverUnreferencedBlobs : Handler MaintenanceError Unit := do
  let now ← nowUtc
  let orphanedAt ← check (formatTime c .clock now)
  let eligibleAt := expirationTime now cfg.blobGcGrace
  let eligibleAfter ← check (formatTime c .clock eligibleAt)
  recoveryTransaction [] fun db => pure ((),
    recoverCandidates orphanedAt eligibleAfter (sortKeyFromTimestamp eligibleAt) db)
  let known ← recoveryQuery fun db => db.blobs.map BlobRow.storedSha256
  let shards ← recoveryEntries (.blobRootEntry "sha256")
  forEach (recoverShard known) shards

/-! ## §4 — The whole pass. -/

/-- The upgrade steps of `recover_uploads`. -/
def upgradeArchive : Handler MaintenanceError Unit := do
  upgradeUploadArtifactRows c
  upgradeLegacyUploads c cfg
  upgradeSnapshotFingerprints c
  backfillSortKeys c
  backfillCompletedCaptureProvenance c

def recoverUploads : Handler MaintenanceError Unit := do
  upgradeArchive c cfg
  recoveryTransaction [] fun db => pure ((), rebuildAllLatestContexts db)
  let uploads ← recoveryQuery fun db => db.uploads.map fun u => (u.id, u.status)
  let audits ← recoveryQuery fun db => db.uploadAudits.map UploadAuditRow.uploadId
  removeUnknownUploadDirectories (uploads.map Prod.fst ++ audits)
  forEach (recoverUpload c) uploads
  forEach removeUploadDirectory audits
  recoverUnreferencedBlobs c cfg

end Patwari
