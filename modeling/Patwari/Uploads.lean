/-
# Patwari.Uploads — creating an upload, sending its chunks, ending it early.

§1 and §2 are the pure parts: the chunk layout, the digests a retried capture is compared by, and
the text of chunk headers. §3 is the write transactions, each a function of the database it starts
from. §4 and §5 are the requests: `create_upload`, `put_artifact_chunk`, `get_upload_status`,
`abandon_upload`, and the expiry pass.
-/
import Patwari.Lib.Bitmap
import Patwari.Service

namespace Patwari

open Lib (Json Prog updateWhere)

/-! ## §1 — Layout and digests. -/

def maxChunkCount : ℕ := 65536
def maxSnapshotChunkCount : ℕ := 262144

def chunkCount (storedSize chunkSize : ℕ) : Except ApiError ℕ :=
  if chunkSize = 0 then throw .internal
  else
    let count := if storedSize = 0 then 0 else (storedSize - 1) / chunkSize + 1
    if maxChunkCount < count then
      throw (.invalid "artifact requires more chunks than the configured bounded limit")
    else pure count

structure UploadLayout where
  chunkCounts : List ℕ
  totalOriginalBytes : ℕ
  totalStoredBytes : ℕ

/-- The loop of `upload_layout`, with the chunks counted so far. -/
def layoutChunkCounts (chunkSize : ℕ) : List Artifact → ℕ → Except ApiError (List ℕ)
  | [], _ => pure []
  | artifact :: rest, totalChunks => do
    let count ← chunkCount artifact.storedSizeBytes.toNat chunkSize
    let totalChunks ← checkedAdd totalChunks count "snapshot chunk count is invalid"
    if maxSnapshotChunkCount < totalChunks then
      throw (.invalid "snapshot requires more chunks than the bounded upload limit")
    let counts ← layoutChunkCounts chunkSize rest totalChunks
    pure (count :: counts)

def uploadLayout (manifest : Manifest) (chunkSizeBytes : ℕ) : Except ApiError UploadLayout := do
  let (totalOriginalBytes, totalStoredBytes) ← manifestTotals manifest
  let chunkCounts ← layoutChunkCounts chunkSizeBytes manifest.artifacts 0
  pure ⟨chunkCounts, totalOriginalBytes, totalStoredBytes⟩

/-- `sha256_hex` of the canonical manifest. -/
def manifestDigest (c : Crates) (manifest : Manifest) : String :=
  c.sha256Hex (utf8 manifest.canonicalJson)

/-- `legacy_manifest_digests`: the digest the manifest had before provenance fields existed, when
it uses none of them. -/
def legacyManifestDigests (c : Crates) (manifest : Manifest) : List String :=
  if manifest.capture.sourceStateHash = none ∧ manifest.capture.sourceMetadata.entries = [] ∧
      manifest.capture.artifactSetVersion = legacyArtifactSetVersion then
    [c.sha256Hex (jsonToVec manifest.toLegacyJson)]
  else []

/-! ## §2 — Chunk requests. -/

/-- `parse::<u32>()` and `parse::<u64>()`. -/
def parseUnsigned (bits : ℕ) (s : String) : Option ℕ :=
  let digits := (stripPrefix "+" s).getD s
  if digits = "" ∨ ¬ digits.toList.all Char.isDigit then none
  else
    let value := digits.toList.foldl (fun n ch => 10 * n + (ch.toNat - '0'.toNat)) 0
    if value < 2 ^ bits then some value else none

/-- One frame of a request body. -/
inductive BodyFrame where
  | data (bytes : Bytes)
  | trailers
  | failed

structure ChunkRequest where
  byteLength : ℕ
  sha256 : String

/-- A header that is absent, or present with its text unless it is not visible ASCII. -/
abbrev HeaderValue := Option (Option String)

structure PutChunkRequest where
  uploadId : String
  artifactIndex : String
  chunkIndex : String
  contentType : HeaderValue
  chunkSha256 : HeaderValue
  chunkLength : HeaderValue
  body : List BodyFrame

/-- The bytes a body carries. -/
def bodyBytes (body : List BodyFrame) : Bytes :=
  body.flatMap fun
    | .data bytes => bytes
    | .trailers | .failed => []

def validateOctetStream (contentType : HeaderValue) : Except ApiError Unit :=
  if contentType = some (some "application/octet-stream") then pure ()
  else throw (.invalid "artifact upload requires application/octet-stream content type")

def optionalHeader (value : HeaderValue) : Except ApiError (Option String) :=
  match value with
  | none => pure none
  | some (some text) => pure (some text)
  | some none => throw (.invalid "chunk headers must be valid text")

def parseChunkHeaders (request : PutChunkRequest) : Except ApiError (Option ChunkRequest) := do
  let sha256 ← optionalHeader request.chunkSha256
  let byteLength ← optionalHeader request.chunkLength
  match sha256, byteLength with
  | none, none => pure none
  | some sha256, some byteLength =>
    validateDigest sha256
    let byteLength ← okOr (parseUnsigned 64 byteLength)
      (.invalid "chunk length header must be a non-negative integer")
    pure (some ⟨byteLength, sha256⟩)
  | _, _ => throw (.invalid "chunk checksum and length headers must be supplied together")

/-- `u64::try_from` of a column. -/
def unsignedColumn (value : ℤ) : Except ApiError ℕ :=
  if 0 ≤ value then pure value.toNat else throw .internal

def legacySingleChunkRequest (upload : UploadRow) (artifact : UploadArtifactRow)
    (artifactIndex chunkIndex : ℕ) : Except ApiError ChunkRequest := do
  if upload.artifactCount ≠ 1 ∨ artifactIndex ≠ 0 ∨ artifact.chunkCount ≠ 1 ∨ chunkIndex ≠ 0 then
    throw (.invalid "chunk checksum and length headers are required")
  let byteLength ← unsignedColumn artifact.storedSizeBytes
  pure ⟨byteLength, digestDocumentValue artifact.storedSha256⟩

def expectedChunkLength (upload : UploadRow) (artifact : UploadArtifactRow) (chunkIndex : ℕ) :
    Except ApiError ℕ := do
  let chunkCount ← unsignedColumn artifact.chunkCount
  if chunkCount ≤ chunkIndex then
    throw (.invalid "chunk index is outside the negotiated artifact range")
  let chunkSize ← unsignedColumn upload.chunkSizeBytes
  let storedSize ← unsignedColumn artifact.storedSizeBytes
  let offset := chunkIndex * chunkSize
  if 2 ^ 64 ≤ offset then throw .internal
  if chunkIndex + 1 = chunkCount then
    if offset ≤ storedSize then pure (storedSize - offset) else throw .internal
  else pure chunkSize

/-! ## §3 — Transactions. -/

structure RegisterClientRequest where
  hostname : Option String
  displayName : Option String
  metadata : Lib.StringMap String

/-- The upsert of `register_client`. -/
def upsertClient (clientId : String) (request : RegisterClientRequest) (metadataJson now : String)
    (db : Db) : Except ApiError (Unit × Db) :=
  if db.clients.any fun r => decide (r.id = clientId) then
    pure ((), { db with
      clients := updateWhere (fun r => decide (r.id = clientId)) (fun r =>
        { r with
          hostname := request.hostname
          displayName := request.displayName
          metadataJson := metadataJson
          updatedAt := now }) db.clients })
  else
    pure ((), { db with
      clients := db.clients ++ [⟨clientId, ownerNamespace, request.hostname, request.displayName,
        metadataJson, now, now⟩] })

/-- What `create_upload` hands to its transaction. -/
structure NewUpload where
  clientId : String
  captureId : String
  manifest : Manifest
  layout : UploadLayout
  now : String
  expiresAt : String
  sessionId : String
  uploadId : String
  manifestId : String

def captureIdConflict : ApiError :=
  .conflict "capture_id_conflict" "capture identifier was already used for a different manifest"

def Db.sessionOfSource (db : Db) (session : SessionInput) : Option SessionRow :=
  db.sessions.find? fun r => decide (r.ownerNamespace = ownerNamespace ∧
    r.sourceAgent = session.sourceAgent ∧ r.sourceSessionId = session.sourceSessionId)

def newSessionRow (new : NewUpload) : SessionRow where
  id := new.sessionId
  ownerNamespace := ownerNamespace
  sourceAgent := new.manifest.session.sourceAgent
  sourceSessionId := new.manifest.session.sourceSessionId
  createdAt := new.now
  updatedAt := new.now

/-- `UPDATE sessions SET updated_at = ? WHERE id = ?`. -/
def touchSession (id now : String) (db : Db) : Db :=
  { db with
    sessions := updateWhere (fun r => decide (r.id = id)) (fun r => { r with updatedAt := now })
      db.sessions }

def getOrCreateSession (new : NewUpload) (db : Db) : Except ApiError (String × Db) := do
  if ¬ db.clients.any (fun r => decide (r.id = new.clientId ∧
      r.ownerNamespace = ownerNamespace)) then
    throw (.notFound "client_not_found" "client must be registered first")
  match db.sessionOfSource new.manifest.session with
  | some row => pure (row.id, touchSession row.id new.now db)
  | none =>
    if (db.session new.sessionId).isSome then throw .database
    pure (new.sessionId, { db with sessions := db.sessions ++ [newSessionRow new] })

/-- `ORDER BY terminal_at DESC LIMIT 1`; the database may return any of several latest rows. -/
def Db.latestAudit (db : Db) (clientId captureId : String) : Option UploadAuditRow :=
  (db.uploadAudits.filter fun r => decide (r.ownerNamespace = ownerNamespace ∧
    r.clientId = clientId ∧ r.captureId = captureId)).argmax UploadAuditRow.terminalAt

def ensureTerminalCaptureReuseIsEquivalent (c : Crates) (new : NewUpload) (db : Db) :
    Except ApiError Unit :=
  match db.latestAudit new.clientId new.captureId with
  | none => pure ()
  | some audit =>
    match audit.manifestSha256 with
    | some previous =>
      if previous = manifestDigest c new.manifest ∨
          previous ∈ legacyManifestDigests c new.manifest then pure ()
      else throw captureIdConflict
    | none =>
      throw (.conflict "capture_id_conflict"
        "capture identifier was used by a historical terminal upload with unknown manifest")

/-- `legacy_manifest_equivalent`: the stored manifest, written again in today's shape. -/
def legacyManifestEquivalent (c : Crates) (uploadId expectedCanonicalSha256 : String) (db : Db) :
    Except ApiError Bool :=
  match db.manifestOfUpload uploadId with
  | none => pure false
  | some row => do
    let manifest ← okOr (parseManifest c row.canonicalJson) .database
    pure (decide (manifestDigest c manifest = expectedCanonicalSha256))

/-- The row of one artifact of a new upload. -/
def uploadArtifactRow (uploadId : String) (artifactIndex : ℕ) (artifact : Artifact)
    (chunkCount : ℕ) : Except ApiError UploadArtifactRow := do
  let originalSize ← toSqliteI64 artifact.originalSizeBytes.toNat
  let storedSize ← toSqliteI64 artifact.storedSizeBytes.toNat
  let chunkCount ← toSqliteI64 chunkCount
  pure ⟨uploadId, artifactIndex, artifact.logicalPath, artifact.mediaType, originalSize,
    digestStorageValue artifact.originalSha256, storedSize,
    digestStorageValue artifact.storedSha256, artifact.compression, chunkCount⟩

/-- The rows of a new upload's artifacts, numbered from `artifactIndex`. -/
def uploadArtifactRows (uploadId : String) :
    List (Artifact × ℕ) → ℕ → Except ApiError (List UploadArtifactRow)
  | [], _ => pure []
  | (artifact, chunkCount) :: rest, artifactIndex => do
    let row ← uploadArtifactRow uploadId artifactIndex artifact chunkCount
    let rows ← uploadArtifactRows uploadId rest (artifactIndex + 1)
    pure (row :: rows)

/-- `insert_upload_artifact`, refused by the table's unique keys. -/
def insertUploadArtifact (db : Db) (row : UploadArtifactRow) : Except ApiError Db :=
  if db.uploadArtifacts.any fun r => decide (r.uploadId = row.uploadId ∧
      (r.artifactIndex = row.artifactIndex ∨ r.logicalPath = row.logicalPath)) then
    throw .database
  else pure { db with uploadArtifacts := db.uploadArtifacts ++ [row] }

def newManifestRow (c : Crates) (new : NewUpload) : ManifestRow where
  id := new.manifestId
  uploadId := new.uploadId
  canonicalJson := new.manifest.canonicalJson
  sha256 := manifestDigest c new.manifest
  createdAt := new.now

def persistNewUploadDetail (c : Crates) (new : NewUpload) (db : Db) : Except ApiError Db := do
  if db.manifests.any fun r => decide (r.id = new.manifestId ∨ r.uploadId = new.uploadId) then
    throw .database
  let db := { db with manifests := db.manifests ++ [newManifestRow c new] }
  let rows ← uploadArtifactRows new.uploadId
    (new.manifest.artifacts.zip new.layout.chunkCounts) 0
  rows.foldlM insertUploadArtifact db

def newUploadRow (c : Crates) (cfg : Config) (new : NewUpload) (sessionId : String) :
    Except ApiError UploadRow := do
  let first ← okOr new.manifest.artifacts.head? .internal
  let firstChunkCount ← okOr new.layout.chunkCounts.head? .internal
  pure
    { id := new.uploadId
      ownerNamespace := ownerNamespace
      sessionId := sessionId
      clientId := new.clientId
      captureId := new.captureId
      manifestSha256 := manifestDigest c new.manifest
      status := if new.layout.chunkCounts.all fun count => decide (count = 0) then
        .artifactUploaded else .created
      snapshotId := none
      createdAt := new.now
      completedAt := none
      chunkSizeBytes := ← toSqliteI64 cfg.chunkSizeBytes
      chunkCount := ← toSqliteI64 firstChunkCount
      declaredStoredSizeBytes := ← toSqliteI64 first.storedSizeBytes.toNat
      declaredOriginalSizeBytes := ← toSqliteI64 first.originalSizeBytes.toNat
      expiresAt := new.expiresAt
      artifactCount := ← toSqliteI64 new.manifest.artifacts.length
      totalStoredSizeBytes := ← toSqliteI64 new.layout.totalStoredBytes
      totalOriginalSizeBytes := ← toSqliteI64 new.layout.totalOriginalBytes
      transferBytes := 0
      newlyPersistedBytes := 0 }

structure CreatedUpload where
  uploadId : String
  wasCreated : Bool

def persistUpload (c : Crates) (cfg : Config) (new : NewUpload) (db : Db) :
    Except ApiError (CreatedUpload × Db) := do
  let (sessionId, db) ← getOrCreateSession new db
  ensureTerminalCaptureReuseIsEquivalent c new db
  let row ← newUploadRow c cfg new sessionId
  match db.uploadByCapture new.clientId new.captureId with
  | none =>
    if (db.upload new.uploadId).isSome then throw .database
    let db ← persistNewUploadDetail c new { db with uploads := db.uploads ++ [row] }
    pure (⟨new.uploadId, true⟩, db)
  | some existing =>
    if existing.manifestSha256 ≠ manifestDigest c new.manifest then
      let equivalent ←
        legacyManifestEquivalent c existing.id (manifestDigest c new.manifest) db
      if ¬ equivalent then throw captureIdConflict
    pure (⟨existing.id, false⟩, db)

def uploadCompletedError (message : String) : ApiError := .conflict "upload_completed" message

/-- The redacted record of an upload that ends without a snapshot. -/
def uploadAuditRow (upload : UploadRow) (reason : TerminalReason) (terminalAt : String) :
    UploadAuditRow where
  uploadId := upload.id
  ownerNamespace := upload.ownerNamespace
  clientId := upload.clientId
  captureId := upload.captureId
  sessionId := upload.sessionId
  declaredOriginalSizeBytes := upload.declaredOriginalSizeBytes
  declaredStoredSizeBytes := upload.declaredStoredSizeBytes
  chunkSizeBytes := upload.chunkSizeBytes
  chunkCount := upload.chunkCount
  createdAt := upload.createdAt
  terminalAt := terminalAt
  terminalReason := reason
  errorCode := reason.errorCode
  artifactCount := upload.artifactCount
  totalOriginalSizeBytes := upload.totalOriginalSizeBytes
  totalStoredSizeBytes := upload.totalStoredSizeBytes
  manifestSha256 := some upload.manifestSha256

/-- A snapshot or a capture refers to the upload or to its manifest: the foreign keys refuse to
delete it. -/
def Db.uploadReferenced (db : Db) (uploadId : String) : Bool :=
  (db.captures.any fun r => decide (r.uploadId = uploadId)) ||
  db.manifests.any fun m => decide (m.uploadId = uploadId) &&
    ((db.snapshots.any fun s => decide (s.manifestId = m.id)) ||
      db.captures.any fun r => decide (r.manifestId = m.id))

/-- An upload ended: its redacted audit written once, its rows removed. -/
def endUpload (upload : UploadRow) (reason : TerminalReason) (terminalAt : String) (db : Db) : Db :=
  { db with
    uploadAudits :=
      if db.uploadAudits.any fun r => decide (r.uploadId = upload.id) then db.uploadAudits
      else db.uploadAudits ++ [uploadAuditRow upload reason terminalAt]
    uploadChunks := db.uploadChunks.filter fun r => decide (r.uploadId ≠ upload.id)
    uploadArtifacts := db.uploadArtifacts.filter fun r => decide (r.uploadId ≠ upload.id)
    manifests := db.manifests.filter fun r => decide (r.uploadId ≠ upload.id)
    uploads := db.uploads.filter fun r => decide (r.id ≠ upload.id) }

/-- The transaction of `terminalize_upload_locked`; the result says whether there was an upload to
end. -/
def terminalizeUpload (upload : UploadRow) (reason : TerminalReason) (terminalAt : String)
    (db : Db) : Except ApiError (Bool × Db) :=
  match db.upload upload.id with
  | none => pure (false, db)
  | some current =>
    if current.status = .completed then
      throw (uploadCompletedError "completed uploads cannot be abandoned")
    else if db.uploadReferenced upload.id then throw .database
    else pure (true, endUpload upload reason terminalAt db)

def uploadStateConflict (message : String) : ApiError := .conflict "upload_state_conflict" message

def chunkConflict : ApiError :=
  .conflict "chunk_conflict"
    "this chunk index was already accepted with a different length or checksum"

def persistChunkRecord (uploadId : String) (artifactIndex chunkIndex byteLength : ℕ)
    (sha256 acceptedAt : String) (db : Db) : Except ApiError (Unit × Db) := do
  match db.upload uploadId with
  | some current =>
    if ¬ current.status.active then
      throw (uploadStateConflict "upload state changed while the chunk was submitted")
  | none => throw (uploadStateConflict "upload state changed while the chunk was submitted")
  let chunkIndex ← toSqliteI64 chunkIndex
  let byteLength ← toSqliteI64 byteLength
  match db.chunk uploadId artifactIndex chunkIndex with
  | none =>
    pure ((), { db with
      uploadChunks := db.uploadChunks ++ [⟨uploadId, artifactIndex, chunkIndex, byteLength,
        digestStorageValue sha256, acceptedAt⟩] })
  | some existing =>
    if existing.byteLength ≠ byteLength ∨ existing.sha256 ≠ digestStorageValue sha256 then
      throw chunkConflict
    else pure ((), db)

/-- The update of `refresh_upload_status` and of recovery. -/
def setUploadStatus (uploadId : String) (complete : Bool) (db : Db) : Except ApiError (Unit × Db) :=
  pure ((), { db with
    uploads := updateWhere (fun r => decide (r.id = uploadId) && r.status.active)
      (fun r => { r with status := if complete then .artifactUploaded else .created })
      db.uploads })

/-- One artifact of `upload_is_complete`: as many accepted chunks as negotiated, the least index 0
and the greatest the last one. -/
def artifactComplete (artifact : UploadArtifactRow) (chunks : List UploadChunkRow) : Bool :=
  let indexes := chunks.map UploadChunkRow.chunkIndex
  decide ((indexes.length : ℤ) = artifact.chunkCount) &&
    (if artifact.chunkCount = 0 then decide (indexes.min? = none ∧ indexes.max? = none)
    else decide (indexes.min? = some 0 ∧ indexes.max? = some (artifact.chunkCount - 1)))

/-! ## §4 — Ending an upload. -/

variable (c : Crates) (cfg : Config)

def getActiveUpload (uploadId : String) : Handler ApiError (Option UploadRow) :=
  query .database fun db => pure (db.upload uploadId)

def isExpired (upload : UploadRow) (now : OffsetDateTime) : Except ApiError Bool := do
  let expiresAt ← okOr (c.parseRfc3339 upload.expiresAt) .database
  pure (decide (expiresAt.nanos ≤ now.nanos))

def removeUploadDir (uploadId : String) : Program (Except IoError Unit) :=
  fileOp fun fs => .ok (fs.removeUploadDir uploadId)

def terminalizeUploadLocked (upload : UploadRow) (reason : TerminalReason) :
    Handler ApiError Unit := do
  let terminalAt ← nowRfc3339 c
  let terminalized ← transaction .terminalizeUpload databaseError [] []
    (terminalizeUpload upload reason terminalAt)
  if terminalized then
    -- the redacted audit row makes the directory disposable from here on
    orFail .storage (← removeUploadDir upload.id)

/-- The loop of `expire_uploads_at` over the candidates. -/
def expireCandidates (now : OffsetDateTime) : List String → ℕ → Handler ApiError ℕ
  | [], expired => pure expired
  | uploadId :: rest, expired => do
    acquire (uploadLock uploadId)
    let ended ←
      match ← getActiveUpload uploadId with
      | none => pure false
      | some upload =>
        if upload.status = .completed then pure false
        else do
          if ← check (isExpired c upload now) then
            terminalizeUploadLocked c upload .expired
            pure true
          else pure false
    release [uploadLock uploadId]
    expireCandidates now rest (if ended then expired + 1 else expired)

/-- `expire_uploads_at`; every failure inside it is reported as one by its caller. -/
def expireUploadsAt (now : OffsetDateTime) : Handler ApiError ℕ := do
  let nowText ← check (formatTime c .internal now)
  let candidates ← query .internal fun db =>
    pure ((db.uploads.filter fun r => r.status.active && decide (r.expiresAt ≤ nowText)).map
      UploadRow.id)
  expireCandidates c now candidates 0

def requireActiveUpload (uploadId : String) : Handler ApiError UploadRow := do
  match ← getActiveUpload uploadId with
  | none => throw (.notFound "upload_not_found" "upload was not found")
  | some upload =>
    if upload.status = .completed then pure upload
    else do
      let now ← nowUtc
      if ← check (isExpired c upload now) then
        terminalizeUploadLocked c upload .expired
        throw (.conflict "upload_expired"
          "upload expired before this request could be accepted")
      else pure upload

/-! ## §5 — Responses. -/

structure UploadArtifactStatus where
  artifactIndex : ℕ
  logicalPath : String
  mediaType : Option String
  originalSizeBytes : ℕ
  originalSha256 : String
  storedSizeBytes : ℕ
  storedSha256 : String
  compression : Compression
  chunkCount : ℕ
  chunkUploadUrl : String
  acceptedChunkBitmap : String
  missingChunkIndexes : List ℕ

/-- `UploadResponse` and `UploadStatusResponse`; only the former names the first chunk's URL. -/
structure UploadResponse where
  uploadId : String
  captureId : String
  sessionId : String
  status : UploadStatus
  manifestSha256 : Option String
  chunkSizeBytes : ℕ
  artifacts : List UploadArtifactStatus
  artifactUploadUrl : Option String
  statusUrl : String
  abandonUrl : String
  completionUrl : String
  captureUrl : String

def uploadStatus : UploadRowStatus → UploadStatus
  | .created => .created
  | .artifactUploaded => .artifactUploaded
  | .completed => .completed

/-- `hex_digest`. -/
def hexDigest (bytes : Bytes) : String := String.ofList (Lib.Bitmap.encodeHex bytes)

/-- The loop of `upload_artifact_status` over the accepted rows: bit `i % 8` of byte `i / 8` stands
for chunk `i`. -/
def acceptedBitmap (chunkCount : ℕ) : List UploadChunkRow → Bytes → Except ApiError Bytes
  | [], bitmap => pure bitmap
  | row :: rest, bitmap => do
    let index ← unsignedColumn row.chunkIndex
    if chunkCount ≤ index then
      throw (.conflict "chunk_layout_invalid"
        "accepted chunk records do not match the negotiated layout")
    acceptedBitmap chunkCount rest (Lib.Bitmap.add index bitmap)

def uploadArtifactStatus (uploadId : String) (artifact : UploadArtifactRow) :
    Handler ApiError UploadArtifactStatus := do
  let artifactIndex ← check (unsignedColumn artifact.artifactIndex)
  let chunkCount ← check (unsignedColumn artifact.chunkCount)
  let rows ← query .database fun db => pure (db.chunksOf uploadId artifact.artifactIndex)
  let bitmap ← check (acceptedBitmap chunkCount rows (Lib.Bitmap.empty chunkCount))
  let originalSizeBytes ← check (unsignedColumn artifact.originalSizeBytes)
  let storedSizeBytes ← check (unsignedColumn artifact.storedSizeBytes)
  pure
    { artifactIndex := artifactIndex
      logicalPath := artifact.logicalPath
      mediaType := artifact.mediaType
      originalSizeBytes := originalSizeBytes
      originalSha256 := digestDocumentValue artifact.originalSha256
      storedSizeBytes := storedSizeBytes
      storedSha256 := digestDocumentValue artifact.storedSha256
      compression := artifact.compression
      chunkCount := chunkCount
      chunkUploadUrl := "/api/v1/uploads/" ++ uploadId ++ "/artifacts/" ++
        toString artifactIndex ++ "/chunks/\x7bchunk_index\x7d"
      acceptedChunkBitmap := hexDigest bitmap
      missingChunkIndexes := (List.range chunkCount).filter fun i => !Lib.Bitmap.holds bitmap i }

def uploadArtifactStatusList (uploadId : String) :
    List UploadArtifactRow → Handler ApiError (List UploadArtifactStatus)
  | [] => pure []
  | artifact :: rest => do
    let status ← uploadArtifactStatus uploadId artifact
    let statuses ← uploadArtifactStatusList uploadId rest
    pure (status :: statuses)

def uploadArtifactStatuses (uploadId : String) : Handler ApiError (List UploadArtifactStatus) := do
  let rows ← query .database fun db => pure (db.uploadArtifactsOf uploadId)
  uploadArtifactStatusList uploadId rows

def uploadUrl (uploadId suffix : String) : String := "/api/v1/uploads/" ++ uploadId ++ suffix

/-- `active_upload_status_response`. -/
def activeUploadStatusResponse (upload : UploadRow) : Handler ApiError UploadResponse := do
  let artifacts ← uploadArtifactStatuses upload.id
  let chunkSizeBytes ← check (unsignedColumn upload.chunkSizeBytes)
  pure
    { uploadId := upload.id
      captureId := upload.captureId
      sessionId := upload.sessionId
      status := uploadStatus upload.status
      manifestSha256 := some (digestDocumentValue upload.manifestSha256)
      chunkSizeBytes := chunkSizeBytes
      artifacts := artifacts
      artifactUploadUrl := none
      statusUrl := uploadUrl upload.id ""
      abandonUrl := uploadUrl upload.id "/abandon"
      completionUrl := uploadUrl upload.id "/complete"
      captureUrl := uploadUrl upload.id "/capture" }

def activeUploadResponse (uploadId : String) : Handler ApiError UploadResponse := do
  match ← getActiveUpload uploadId with
  | none => throw (.notFound "upload_not_found" "upload was not found")
  | some upload => do
    let response ← activeUploadStatusResponse upload
    pure { response with artifactUploadUrl := some (uploadUrl uploadId "/artifacts/0/chunks/0") }

def terminalStatus : TerminalReason → UploadStatus
  | .abandoned => .abandoned
  | .expired => .expired

/-- `audit_upload_response`: neither paths nor chunk detail. -/
def auditUploadResponse (uploadId : String) : Handler ApiError UploadResponse := do
  let audit ← query .database fun db =>
    okOr (db.uploadAudits.find? fun r => decide (r.uploadId = uploadId))
      (.notFound "upload_not_found" "upload was not found")
  let chunkSizeBytes ← check (unsignedColumn audit.chunkSizeBytes)
  pure
    { uploadId := audit.uploadId
      captureId := audit.captureId
      sessionId := audit.sessionId
      status := terminalStatus audit.terminalReason
      manifestSha256 := none
      chunkSizeBytes := chunkSizeBytes
      artifacts := []
      artifactUploadUrl := none
      statusUrl := uploadUrl uploadId ""
      abandonUrl := uploadUrl uploadId "/abandon"
      completionUrl := uploadUrl uploadId "/complete"
      captureUrl := uploadUrl uploadId "/capture" }

/-! ## §6 — Requests. -/

structure ClientResponse where
  clientId : String
  hostname : Option String
  displayName : Option String
  metadata : Lib.StringMap String
  createdAt : String
  updatedAt : String

def validateClientRequest (request : RegisterClientRequest) : Except ApiError Unit := do
  validateOptionalText request.hostname maxContextValueBytes
  validateOptionalText request.displayName maxContextValueBytes
  if maxMetadataEntries < request.metadata.entries.length then
    throw (.invalid "metadata has too many entries")
  for entry in request.metadata.entries do
    validateNonemptyText entry.1 maxMetadataKeyBytes "metadata key is invalid"
    validateText entry.2 maxMetadataValueBytes "metadata value is invalid"

def registerClient (clientId : String) (request : RegisterClientRequest) :
    Handler ApiError ClientResponse := do
  let clientId ← check (parseUuidText clientId "client identifier is not a UUID")
  check (validateClientRequest request)
  let metadataJson := Json.compact (stringMapJson request.metadata)
  let now ← nowRfc3339 c
  transaction .registerClient databaseError [] [] (upsertClient clientId request metadataJson now)
  let row ← query .database fun db =>
    okOr (db.clients.find? fun r => decide (r.id = clientId)) .database
  let metadata ← check (okOr ((c.jsonFromStr row.metadataJson).bind stringMapFromJson) .internal)
  pure ⟨row.id, row.hostname, row.displayName, metadata, row.createdAt, row.updatedAt⟩

/-- `create_upload` up to its transaction: what the request asks to persist. -/
def prepareUpload (request : CreateUploadRequest) : Handler ApiError NewUpload := do
  let clientId ← check (parseUuidText request.clientId "client identifier is not a UUID")
  let captureId ← check (captureId request)
  let manifest ← check (normalizeManifest c request.manifest cfg.manifestLimits)
  let layout ← check (uploadLayout manifest cfg.chunkSizeBytes)
  let now ← nowUtc
  let nowText ← check (formatTime c .internal now)
  let expiresAt ← check (formatTime c .internal (expirationTime now cfg.uploadExpiry))
  -- a retry after an expiry must not find the stale attempt
  let _ ← mapErr (fun _ => .internal) (expireUploadsAt c now)
  let sessionId ← freshId
  let uploadId ← freshId
  let manifestId ← freshId
  pure ⟨clientId, captureId, manifest, layout, nowText, expiresAt, sessionId, uploadId, manifestId⟩

def createUpload (request : CreateUploadRequest) : Handler ApiError (Bool × UploadResponse) := do
  let new ← prepareUpload c cfg request
  let created ← transaction .persistUpload databaseError
    [new.sessionId, new.uploadId, new.manifestId] [] (persistUpload c cfg new)
  let response ← activeUploadResponse created.uploadId
  pure (created.wasCreated, response)

def getUploadStatus (uploadId : String) : Handler ApiError UploadResponse := do
  let uploadId ← check (parseUuidText uploadId "upload identifier is not a UUID")
  acquire (uploadLock uploadId)
  match ← getActiveUpload uploadId with
  | none => auditUploadResponse uploadId
  | some upload =>
    if upload.status = .completed then activeUploadStatusResponse upload
    else do
      let now ← nowUtc
      if ← check (isExpired c upload now) then
        terminalizeUploadLocked c upload .expired
        auditUploadResponse uploadId
      else activeUploadStatusResponse upload

def abandonUpload (uploadId : String) : Handler ApiError UploadResponse := do
  let uploadId ← check (parseUuidText uploadId "upload identifier is not a UUID")
  acquire (uploadLock uploadId)
  match ← getActiveUpload uploadId with
  | none => auditUploadResponse uploadId
  | some upload =>
    if upload.status = .completed then
      throw (uploadCompletedError "completed uploads cannot be abandoned")
    else do
      let now ← nowUtc
      let expired ← check (isExpired c upload now)
      terminalizeUploadLocked c upload (if expired then .expired else .abandoned)
      auditUploadResponse uploadId

/-- The frame loop of `write_chunk_body`, with the bytes received so far. -/
def writeFrames (path : FilePath) (maximum : ℕ) :
    List BodyFrame → Bytes → Handler ApiError Bytes
  | [], received => pure received
  | .failed :: _, _ => throw (.invalid "chunk request body could not be read")
  | .trailers :: rest, received => writeFrames path maximum rest received
  | .data bytes :: rest, received => do
    if maximum < received.length + bytes.length then
      throw (.invalid "chunk body exceeds its declared negotiated length")
    orFail .storage (← fileOp fun fs => .ok (fs.append path bytes))
    writeFrames path maximum rest (received ++ bytes)

def writeChunkBody (body : List BodyFrame) (path : FilePath) (expected : ChunkRequest) :
    Handler ApiError Unit := do
  orFail .storage (← fileOp fun fs => fs.createNew path)
  let received ← writeFrames path expected.byteLength body []
  -- flush and fsync
  orFail .storage (← fileOp fun fs => .ok (fs.syncFile path))
  if received.length ≠ expected.byteLength ∨
      c.sha256Hex received ≠ digestStorageValue expected.sha256 then
    throw (.invalid "chunk body length or checksum does not match its headers")

/-- `let _ = StorageLayout::remove_file(..).await`. -/
def discardFile (path : FilePath) : Program (Except IoError Unit) :=
  fileOp fun fs => fs.removeFile path

/-- The same for the final file of a chunk. -/
def discardChunkFile (path : FilePath) : Program (Except IoError Unit) :=
  fileStep .removeChunkFile fun fs => fs.removeFile path

def storeChunkFile (uploadId : String) (artifactIndex chunkIndex : ℕ) (body : List BodyFrame)
    (requestChunk : ChunkRequest) : Handler ApiError FilePath := do
  orFail .storage (← fileOp fun fs =>
    fs.createDirAll [.uploadDir uploadId, .artifactChunkDir uploadId artifactIndex])
  let uuid ← freshId
  let temporaryPath := FilePath.stagedChunk uploadId artifactIndex uuid
  match ← attempt (writeChunkBody c body temporaryPath requestChunk) with
  | .error error => do
    let _ ← discardFile temporaryPath
    throw error
  | .ok () => do
    let finalPath := FilePath.artifactChunk uploadId artifactIndex chunkIndex
    -- files precede metadata: a crash leaves an orphaned file, never a row without its bytes
    match ← fileOp fun fs => fs.hardLink temporaryPath finalPath with
    | .ok () => do
      -- fsync of the directory
      match ← fileOp fun fs => fs.syncDirectory (.artifactChunkDir uploadId artifactIndex) with
      | .ok () => pure temporaryPath
      | .error _ => do
        let _ ← discardFile temporaryPath
        let _ ← discardChunkFile finalPath
        throw .storage
    | .error .alreadyExists => do
      match ← attempt (fileRead .storage
          (verifyStoredFile c finalPath requestChunk.byteLength requestChunk.sha256)) with
      | .ok () => pure temporaryPath
      | .error _ => do
        let _ ← discardFile temporaryPath
        throw chunkConflict
    | .error _ => do
      let _ ← discardFile temporaryPath
      throw .storage

/-- The loop of `upload_is_complete`. -/
def artifactsComplete (uploadId : String) : List UploadArtifactRow → Handler ApiError Bool
  | [] => pure true
  | artifact :: rest => do
    let chunks ← query .database fun db => pure (db.chunksOf uploadId artifact.artifactIndex)
    if artifactComplete artifact chunks then artifactsComplete uploadId rest else pure false

def uploadIsComplete (uploadId : String) : Handler ApiError Bool := do
  let artifacts ← query .database fun db => pure (db.uploadArtifactsOf uploadId)
  if artifacts = [] then throw .database
  artifactsComplete uploadId artifacts

def refreshUploadStatus (uploadId : String) : Handler ApiError Unit := do
  let complete ← uploadIsComplete uploadId
  transaction .refreshUploadStatus databaseError [] [] (setUploadStatus uploadId complete)

/-- `put_artifact_chunk` once its target and its declared length and digest are known. -/
def acceptChunk (upload : UploadRow) (artifact : UploadArtifactRow) (artifactIndex chunkIndex : ℕ)
    (body : List BodyFrame) (requestChunk : ChunkRequest) : Handler ApiError Unit := do
  let expectedLength ← check (expectedChunkLength upload artifact chunkIndex)
  if requestChunk.byteLength ≠ expectedLength then
    throw (.invalid "chunk length does not match the negotiated chunk layout")
  let temporaryPath ← storeChunkFile c upload.id artifactIndex chunkIndex body requestChunk
  let now ← nowRfc3339 c
  let accepted ← attempt (transaction .persistChunkRecord classifyDatabaseError []
    [⟨upload.id, artifactIndex, chunkIndex, bodyBytes body⟩]
    (persistChunkRecord upload.id artifactIndex chunkIndex requestChunk.byteLength
      requestChunk.sha256 now))
  let cleanup ← discardFile temporaryPath
  match accepted, cleanup with
  | .ok (), .error _ => throw .storage
  | .error error, _ => throw error
  | .ok (), .ok () => refreshUploadStatus upload.id

def putArtifactChunk (request : PutChunkRequest) : Handler ApiError Unit := do
  let uploadId ← check (parseUuidText request.uploadId "upload identifier is not a UUID")
  let artifactIndex ← check (okOr (parseUnsigned 32 request.artifactIndex)
    (.invalid "artifact index is not a non-negative integer"))
  let chunkIndex ← check (okOr (parseUnsigned 64 request.chunkIndex)
    (.invalid "chunk index is not a non-negative integer"))
  check (validateOctetStream request.contentType)
  acquire (uploadLock uploadId)
  let upload ← requireActiveUpload c uploadId
  if upload.status = .completed then
    throw (uploadCompletedError "completed uploads do not accept artifact bytes")
  let artifact ← query .database fun db => okOr (db.uploadArtifact uploadId artifactIndex)
    (.invalid "artifact index is outside the negotiated artifact range")
  let requestChunk ←
    match ← check (parseChunkHeaders request) with
    | some requestChunk => pure requestChunk
    | none => check (legacySingleChunkRequest upload artifact artifactIndex chunkIndex)
  match ← query .database fun db => pure (db.chunk uploadId artifactIndex chunkIndex) with
  | some existing => do
    let byteLength ← check (toSqliteI64 requestChunk.byteLength)
    if existing.byteLength ≠ byteLength ∨
        existing.sha256 ≠ digestStorageValue requestChunk.sha256 then
      throw chunkConflict
    fileRead .storage (verifyStoredFile c (.artifactChunk uploadId artifactIndex chunkIndex)
      requestChunk.byteLength requestChunk.sha256)
  | none => acceptChunk c upload artifact artifactIndex chunkIndex request.body requestChunk

end Patwari
