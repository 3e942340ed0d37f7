/-
# Patwari.Deletion — deleting a snapshot, and collecting the blobs nothing refers to.

§1 is the write transaction of a deletion: tombstone and audit, the reference rows removed, every
blob of the snapshot scheduled or cleared, the session's context rebuilt. §2 is `delete_snapshot`
around it. §3 is one pass of garbage collection, the one place where a file operation happens
inside an open write transaction.
-/
import Patwari.Completion

namespace Patwari

open Lib (Prog updateWhere)

/-! ## §1 — The deletion transaction. -/

/-- A snapshot with its manifest row. -/
def Db.snapshotDeletionRow (db : Db) (snapshotId : String) : Option (SnapshotRow × ManifestRow) :=
    do
  let snapshot ← db.snapshot snapshotId
  let manifest ← db.manifest snapshot.manifestId
  some (snapshot, manifest)

/-- `artifact_blobs`: the blobs a live snapshot refers to. -/
def Db.artifactBlobs (db : Db) (snapshotId : String) : List BlobRow :=
  if db.snapshots.any fun s => decide (s.id = snapshotId) && s.live then
    db.blobs.filter fun b => db.artifacts.any fun a =>
      decide (a.snapshotId = snapshotId ∧ a.blobId = b.id)
  else []

structure DeletionRecord where
  snapshotId : String
  deletedAt : String
  deletedAtSeq : ℤ
  eligibleAfter : String
  eligibleAfterSeq : ℤ
  reason : Option String
  tombstoneId : String
  auditId : String

/-- A blob row under a garbage collection deadline. -/
def BlobRow.schedule (x : DeletionRecord) (row : BlobRow) : BlobRow :=
  { row with
    orphanedAt := some x.deletedAt
    eligibleAfter := some x.eligibleAfter
    eligibleAfterSeq := some x.eligibleAfterSeq }

/-- `schedule_or_clear_blob_candidate`. -/
def scheduleOrClearBlobCandidate (x : DeletionRecord) (db : Db) (blobId : String) : Db :=
  { db with
    blobs := updateWhere (fun r => decide (r.id = blobId))
      (fun r => if db.hasLiveReference r.id then r.clearCandidate else r.schedule x) db.blobs }

/-- `completed_at_seq DESC, snapshot.id DESC, capture.id ASC`. -/
def contextNotOlder (a b : SnapshotRow × CaptureRow) : Prop :=
  b.1.completedAtSeq < a.1.completedAtSeq ∨ b.1.completedAtSeq = a.1.completedAtSeq ∧
    (b.1.id < a.1.id ∨ b.1.id = a.1.id ∧ a.2.id ≤ b.2.id)

instance : DecidableRel contextNotOlder := fun a b =>
  inferInstanceAs (Decidable (b.1.completedAtSeq < a.1.completedAtSeq ∨
    b.1.completedAtSeq = a.1.completedAtSeq ∧
      (b.1.id < a.1.id ∨ b.1.id = a.1.id ∧ a.2.id ≤ b.2.id)))

/-- The live snapshots of a session, each with its captures. -/
def Db.sessionContexts (db : Db) (sessionId : String) : List (SnapshotRow × CaptureRow) :=
  (db.snapshots.filter fun s => decide (s.sessionId = sessionId) && s.live).flatMap fun s =>
    (db.captures.filter fun r => decide (r.snapshotId = s.id)).map fun r => (s, r)

/-- The row a session's newest live snapshot gives. -/
def Db.latestContext (db : Db) (sessionId : String) : Option SessionLatestContextRow := do
  let session ← db.session sessionId
  let (snapshot, capture) ← ((db.sessionContexts sessionId).insertionSort contextNotOlder).head?
  some
    { sessionId := snapshot.sessionId
      snapshotId := snapshot.id
      completedAt := snapshot.completedAt
      completedAtSeq := snapshot.completedAtSeq
      sourceAgent := session.sourceAgent
      project := capture.project
      repository := capture.repository
      branch := capture.branch
      sourceAgentVersion := capture.sourceAgentVersion
      artifactSetVersion := capture.artifactSetVersion }

/-- `rebuild_session_latest_context` of `deletion.rs`. -/
def rebuildSessionLatestContext (sessionId : String) (db : Db) : Db :=
  { db with
    sessionLatestContext :=
      (db.sessionLatestContext.filter fun r => decide (r.sessionId ≠ sessionId)) ++
        (db.latestContext sessionId).toList }

def tombstoneRow (x : DeletionRecord) (snapshot : SnapshotRow) (manifest : ManifestRow) :
    TombstoneRow where
  id := x.tombstoneId
  ownerNamespace := snapshot.ownerNamespace
  sessionId := snapshot.sessionId
  snapshotId := snapshot.id
  snapshotFingerprintSha256 := snapshot.fingerprintSha256
  manifestSha256 := manifest.sha256
  snapshotCompletedAt := snapshot.completedAt
  deletedAt := x.deletedAt
  deletedAtSeq := x.deletedAtSeq
  reason := x.reason
  rearchivedSnapshotId := none

def deletionAuditRow (x : DeletionRecord) (snapshot : SnapshotRow) (manifest : ManifestRow) :
    DeletionAuditRow where
  id := x.auditId
  tombstoneId := x.tombstoneId
  ownerNamespace := snapshot.ownerNamespace
  sessionId := snapshot.sessionId
  snapshotId := snapshot.id
  snapshotFingerprintSha256 := snapshot.fingerprintSha256
  manifestSha256 := manifest.sha256
  occurredAt := x.deletedAt
  occurredAtSeq := x.deletedAtSeq
  reason := x.reason

/-- The unique keys of `tombstones` and `deletion_audits` that refuse the two new rows. -/
def Db.deletionRecorded (db : Db) (x : DeletionRecord) : Bool :=
  (db.tombstones.any fun r => decide (r.id = x.tombstoneId ∨ r.snapshotId = x.snapshotId)) ||
    db.deletionAudits.any fun r => decide (r.id = x.auditId ∨ r.tombstoneId = x.tombstoneId ∨
      r.snapshotId = x.snapshotId)

/-- The snapshot marked deleted, its tombstone and audit written, its references removed. -/
def markDeleted (x : DeletionRecord) (snapshot : SnapshotRow) (manifest : ManifestRow) (db : Db) :
    Db :=
  { db with
    tombstones := db.tombstones ++ [tombstoneRow x snapshot manifest]
    deletionAudits := db.deletionAudits ++ [deletionAuditRow x snapshot manifest]
    snapshots := updateWhere (fun r => decide (r.id = snapshot.id) && r.live)
      (fun r => { r with deletedAt := some x.deletedAt }) db.snapshots
    artifacts := db.artifacts.filter fun a => decide (a.snapshotId ≠ snapshot.id) }

/-- The transaction of `delete_snapshot`. The foreign key of the tombstone to its snapshot always
holds; a snapshot found deleted changes nothing. -/
def recordDeletion (x : DeletionRecord) (db : Db) : Except ApiError (Unit × Db) := do
  let (snapshot, manifest) ← okOr (db.snapshotDeletionRow x.snapshotId)
    (.notFound "snapshot_not_found" "snapshot was not found")
  if ¬ snapshot.live then pure ((), db)
  else
    if x.deletedAtSeq < 0 ∨ db.deletionRecorded x then throw .database
    let blobs := db.artifactBlobs x.snapshotId
    let db := markDeleted x snapshot manifest db
    let db := (blobs.map BlobRow.id).foldl (scheduleOrClearBlobCandidate x) db
    pure ((), rebuildSessionLatestContext snapshot.sessionId db)

/-! ## §2 — `delete_snapshot`. -/

structure DeleteSnapshotRequest where
  snapshotId : String
  /-- The `x-patwari-delete-confirmation` header. -/
  headerConfirmation : HeaderValue
  confirmation : Option String
  reason : Option String

def maxDeletionReasonBytes : ℕ := 512

/-- `char::is_whitespace`. -/
def isWhitespace (ch : Char) : Bool :=
  decide (9 ≤ ch.toNat ∧ ch.toNat ≤ 13 ∨ 0x2000 ≤ ch.toNat ∧ ch.toNat ≤ 0x200a) ||
    decide (ch.toNat ∈ [0x20, 0x85, 0xa0, 0x1680, 0x2028, 0x2029, 0x202f, 0x205f, 0x3000])

def deletionReason (request : DeleteSnapshotRequest) : Except ApiError (Option String) :=
  match request.reason with
  | none => pure none
  | some reason =>
    if reason.toList.all isWhitespace ∨ maxDeletionReasonBytes < reason.utf8ByteSize ∨
        reason.toList.any isAsciiControl then
      throw (.invalid "deletion reason is invalid")
    else pure (some reason)

def confirmSnapshotDeletion (request : DeleteSnapshotRequest)
    (snapshotId fingerprintSha256 : String) : Except ApiError Unit := do
  let header ←
    match request.headerConfirmation with
    | none => pure none
    | some (some text) => pure (some text)
    | some none => throw (.invalid "deletion confirmation is invalid")
  match header, request.confirmation with
  | some header, some body =>
    if header ≠ body then
      throw (.invalid "header and body deletion confirmations must match")
  | _, _ => pure ()
  let confirmation ← okOr (header <|> request.confirmation)
    (.invalid "a snapshot-specific deletion confirmation is required")
  if confirmation ≠ "delete-snapshot:" ++ snapshotId ++ ":sha256:" ++ fingerprintSha256 then
    throw (.conflict "deletion_confirmation_mismatch"
      "deletion confirmation does not match this snapshot fingerprint")

def requireAdminEnabled (cfg : Config) : Except ApiError Unit :=
  if cfg.adminDeletionEnabled then pure ()
  else throw (.forbidden "admin_deletion_disabled"
    "administrative deletion is disabled by server configuration")

structure TombstoneResponse where
  tombstoneId : String
  deletionAuditId : String
  ownerNamespace : String
  sessionId : String
  snapshotId : String
  snapshotFingerprint : String
  manifestSha256 : String
  snapshotCompletedAt : String
  deletedAt : String
  deletedAtSortKey : ℤ
  reason : Option String
  captureCount : ℕ
  rearchivedSnapshotId : Option String
  rearchivedSnapshotUrl : Option String
  historicalReceipt : Receipt

/-- The join of `tombstone_response`. -/
def Db.tombstoneJoin (db : Db) (snapshotId : String) :
    Option (TombstoneRow × DeletionAuditRow × SnapshotRow × ℕ) := do
  let tombstone ← db.tombstones.find? fun r => decide (r.snapshotId = snapshotId)
  let audit ← db.deletionAudits.find? fun r => decide (r.tombstoneId = tombstone.id)
  let snapshot ← db.snapshot tombstone.snapshotId
  some (tombstone, audit, snapshot,
    (db.captures.filter fun r => decide (r.snapshotId = tombstone.snapshotId)).length)

variable (c : Crates) (cfg : Config)

def tombstoneResponse (snapshotId : String) : Handler ApiError TombstoneResponse := do
  let (row, audit, snapshot, captureCount) ← query .database fun db =>
    okOr (db.tombstoneJoin snapshotId) (.notFound "tombstone_not_found" "tombstone was not found")
  let artifactCount ← check (unsignedColumn snapshot.artifactCount)
  let totalOriginalBytes ← check (unsignedColumn snapshot.totalOriginalSizeBytes)
  let totalStoredBytes ← check (unsignedColumn snapshot.totalStoredSizeBytes)
  pure
    { tombstoneId := row.id
      deletionAuditId := audit.id
      ownerNamespace := row.ownerNamespace
      sessionId := row.sessionId
      snapshotId := row.snapshotId
      snapshotFingerprint := digestDocumentValue row.snapshotFingerprintSha256
      manifestSha256 := digestDocumentValue row.manifestSha256
      snapshotCompletedAt := row.snapshotCompletedAt
      deletedAt := row.deletedAt
      deletedAtSortKey := row.deletedAtSeq
      reason := row.reason
      captureCount := captureCount
      rearchivedSnapshotId := row.rearchivedSnapshotId
      rearchivedSnapshotUrl := row.rearchivedSnapshotId.map ("/api/v1/snapshots/" ++ ·)
      historicalReceipt := ⟨2, cfg.archiveInstanceId, row.ownerNamespace, row.snapshotId,
        row.sessionId, digestDocumentValue row.snapshotFingerprintSha256,
        digestDocumentValue row.manifestSha256, artifactCount, totalOriginalBytes,
        totalStoredBytes, row.snapshotCompletedAt⟩ }

def snapshotDeletionRow (snapshotId : String) : Handler ApiError (SnapshotRow × ManifestRow) :=
  query .database fun db => okOr (db.snapshotDeletionRow snapshotId)
    (.notFound "snapshot_not_found" "snapshot was not found")

/-- `delete_snapshot` under the identity lock of its snapshot. -/
def deleteUnderLock (request : DeleteSnapshotRequest) (snapshotId : String)
    (reason : Option String) : Handler ApiError TombstoneResponse := do
  let (current, _) ← snapshotDeletionRow snapshotId
  check (confirmSnapshotDeletion request current.id current.fingerprintSha256)
  if ¬ current.live then tombstoneResponse cfg snapshotId
  else do
    let blobs ← query .database fun db => pure (db.artifactBlobs snapshotId)
    let locks := blobLocksForDigests (blobs.map BlobRow.storedSha256)
    acquireAll locks
    let now ← nowUtc
    let deletedAt ← check (formatTime c .internal now)
    let eligibleAt := expirationTime now cfg.blobGcGrace
    let eligibleAfter ← check (formatTime c .internal eligibleAt)
    let tombstoneId ← freshId
    let auditId ← freshId
    transaction .deleteSnapshot databaseError [tombstoneId, auditId] []
      (recordDeletion ⟨snapshotId, deletedAt, sortKeyFromTimestamp now, eligibleAfter,
        sortKeyFromTimestamp eligibleAt, reason, tombstoneId, auditId⟩)
    release locks
    tombstoneResponse cfg snapshotId

def deleteSnapshot (request : DeleteSnapshotRequest) : Handler ApiError TombstoneResponse := do
  check (requireAdminEnabled cfg)
  let snapshotId ← check (parseUuidText request.snapshotId "snapshot identifier is not a UUID")
  let reason ← check (deletionReason request)
  let (initial, _) ← snapshotDeletionRow snapshotId
  check (confirmSnapshotDeletion request initial.id initial.fingerprintSha256)
  if ¬ initial.live then tombstoneResponse cfg snapshotId
  else do
    -- a completion that attaches a capture to this snapshot holds the same lock
    acquire (snapshotLock initial.sessionId initial.fingerprintSha256)
    deleteUnderLock c cfg request snapshotId reason

def getTombstone (snapshotId : String) : Handler ApiError TombstoneResponse := do
  check (requireAdminEnabled cfg)
  let snapshotId ← check (parseUuidText snapshotId "snapshot identifier is not a UUID")
  tombstoneResponse cfg snapshotId

/-! ## §3 — Garbage collection. -/

def gcBatchSize : ℕ := 256

/-- The deadline of a blob row has passed. -/
def BlobRow.eligible (nowSeq : ℤ) (row : BlobRow) : Bool :=
  match row.eligibleAfterSeq with
  | some seq => decide (seq ≤ nowSeq)
  | none => false

/-- `eligible_after_seq ASC, id ASC`. -/
def gcNotLater (a b : BlobRow) : Prop :=
  a.eligibleAfterSeq.getD 0 < b.eligibleAfterSeq.getD 0 ∨
    a.eligibleAfterSeq.getD 0 = b.eligibleAfterSeq.getD 0 ∧ a.id ≤ b.id

instance : DecidableRel gcNotLater := fun a b =>
  inferInstanceAs (Decidable (a.eligibleAfterSeq.getD 0 < b.eligibleAfterSeq.getD 0 ∨
    a.eligibleAfterSeq.getD 0 = b.eligibleAfterSeq.getD 0 ∧ a.id ≤ b.id))

def Db.gcCandidates (db : Db) (nowSeq : ℤ) : List BlobRow :=
  ((db.blobs.filter (BlobRow.eligible nowSeq)).insertionSort gcNotLater).take gcBatchSize

/-- What the transaction of one candidate has come to before the file is touched. -/
inductive Collecting where
  /-- Committed: the candidate is gone or no longer due. -/
  | skipped
  /-- Committed: a live reference cleared the candidate. -/
  | cleared
  /-- Open: the row is deleted but not committed. -/
  | deleting
  deriving DecidableEq

/-- The statements of the transaction: what it has come to and the database it would leave. The
delete is refused while any artifact row refers to the blob. -/
def collectBlobRow (blobId : String) (nowSeq : ℤ) (db : Db) :
    Except MaintenanceError (Collecting × Db) :=
  match db.blobs.find? fun r => decide (r.id = blobId) && r.eligible nowSeq with
  | none => pure (.skipped, db)
  | some row =>
    if db.hasLiveReference row.id then
      pure (.cleared, { db with
        blobs := updateWhere (fun r => decide (r.id = row.id)) BlobRow.clearCandidate db.blobs })
    else if db.artifacts.any fun a => decide (a.blobId = row.id) then throw .operation
    else
      pure (.deleting, { db with blobs := db.blobs.filter fun r => decide (r.id ≠ row.id) })

/-- The transaction up to the file removal: committed unless it deletes a row. -/
def beginCollect (blobId : String) (nowSeq : ℤ) : Handler MaintenanceError Collecting :=
  ExceptT.mk <| Prog.atomic .beginCollect fun t e s =>
    match e.fault with
    | some _ => (.error .operation, s)
    | none =>
      if s.writer.isSome then (.error .operation, s)
      else
        match collectBlobRow blobId nowSeq s.db with
        | .error err => (.error err, s)
        | .ok (.deleting, db) => (.ok .deleting, { s with writer := some (t, db) })
        | .ok (step, db) => (.ok step, { s with db := db })

/-- The commit of a deleted row, or its rollback when the commit fails. -/
def commitCollect : Handler MaintenanceError Unit :=
  ExceptT.mk <| Prog.atomic .commitCollect fun t e s =>
    match s.writer with
    | some (holder, db) =>
      if holder = t then
        match e.fault with
        | some _ => (.error .operation, { s with writer := none })
        | none => (.ok (), { s with db := db, writer := none })
      else (.error .operation, s)
    | none => (.error .operation, s)

/-- `map_err(|_| MaintenanceError::Operation)`. -/
def orOperation {α : Type} : Except IoError α → Handler MaintenanceError α := orFail .operation

/-- The candidate loop of `collect_orphaned_blobs_at`. -/
def collectCandidates (nowSeq : ℤ) : List BlobRow → ℕ → Handler MaintenanceError ℕ
  | [], deleted => pure deleted
  | candidate :: rest, deleted => do
    let locks := blobLocksForDigests [candidate.storedSha256]
    acquireAll locks
    match ← beginCollect candidate.id nowSeq with
    | .skipped | .cleared => do
      release locks
      collectCandidates nowSeq rest deleted
    | .deleting => do
      -- the row is deleted but uncommitted; a completion must first take this digest's lock
      orOperation (← removeBlobFile candidate.storedSha256)
      commitCollect
      release locks
      collectCandidates nowSeq rest (deleted + 1)

structure BlobGcResponse where
  inspectedBlobs : ℕ
  deletedBlobs : ℕ

/-- `collect_orphaned_blobs_at`. -/
def collectOrphanedBlobsAt (now : OffsetDateTime) : Handler MaintenanceError BlobGcResponse := do
  let nowSeq := sortKeyFromTimestamp now
  let candidates ← query .operation fun db => pure (db.gcCandidates nowSeq)
  let deleted ← collectCandidates nowSeq candidates 0
  pure ⟨candidates.length, deleted⟩

/-- `run_blob_gc`. -/
def runBlobGc : Handler ApiError BlobGcResponse := do
  check (requireAdminEnabled cfg)
  let now ← nowUtc
  mapErr (fun _ => .internal) (collectOrphanedBlobsAt now)

end Patwari
