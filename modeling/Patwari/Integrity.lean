/-
# Patwari.Integrity — one archive integrity scan.

A scan reads the archive a page at a time, holds no transaction, and writes only its own run and
findings. §1 is the recorder, §2 the passes over the database, §3 the checks of one snapshot, §4
the checks of blob rows and their files, §5 the inventory of the blob directory, §6 the whole scan.
The jobs of one batch, which the source runs side by side, run one after another here: they only
read, each under the lock of its own digest, and their results are recorded in this order.
-/
import Patwari.Retrieval
import Patwari.Deletion

namespace Patwari

open Lib (Prog updateWhere)

/-! ## §1 — The recorder. -/

inductive IntegrityScanError where
  | clock
  | metadata
  | storage
  | worker
  | persistence
  deriving DecidableEq

structure IntegrityFindingCounts where
  total : ℕ
  info : ℕ
  warning : ℕ
  error : ℕ

structure ScanRecorder where
  runId : String
  startedAt : String
  counts : IntegrityFindingCounts
  reportFindings : List IntegrityFindingRow

/-- A step of a scan: what it fails with carries the recorder it failed under. -/
abbrev Scan (α : Type) := Handler (IntegrityScanError × ScanRecorder) α

/-- SQLite's own consistency checks: whether they pass. -/
structure SqliteChecks where
  quickCheck : Db → Bool
  foreignKeyCheck : Db → Bool

def pageSize : ℕ := 64
def reportFindingLimit : ℕ := 256

/-- The counts after one more finding. -/
def IntegrityFindingCounts.add (n : IntegrityFindingCounts) :
    IntegritySeverity → IntegrityFindingCounts
  | .info => { n with total := n.total + 1, info := n.info + 1 }
  | .warning => { n with total := n.total + 1, warning := n.warning + 1 }
  | .error => { n with total := n.total + 1, error := n.error + 1 }

/-- What a finding is about. -/
structure Finding where
  kind : IntegrityFindingKind
  severity : IntegritySeverity
  snapshotId : Option String
  artifactId : Option String
  blobId : Option String
  detailCode : String

variable (c : Crates) (cfg : Config) (sqlite : SqliteChecks)

/-- A transaction of the scan, which writes to the scan's own tables only. -/
def integrityTransaction {κ : Type} (e : κ) (ids : List String)
    (f : Db → Except κ (Unit × Db)) : Handler κ Unit :=
  transaction .recordIntegrity (fun _ => e) ids [] f

def beginRun (runId startedAt : String) (startedAtSeq : ℤ) (db : Db) :
    Except IntegrityScanError (Unit × Db) :=
  if startedAtSeq < 0 ∨ db.integrityRuns.any (fun r => decide (r.id = runId)) then
    throw .persistence
  else pure ((), { db with
    integrityRuns := db.integrityRuns ++ [⟨runId, ownerNamespace, startedAt, startedAtSeq, none,
      none, .running, 0, 0, 0, 0⟩] })

/-- `ScanRecorder::begin`. -/
def ScanRecorder.begin : Handler IntegrityScanError ScanRecorder := do
  let now ← nowUtc
  let startedAt ← check (formatTime c .clock now)
  let runId ← freshId
  integrityTransaction .persistence [runId] (beginRun runId startedAt (sortKeyFromTimestamp now))
  pure ⟨runId, startedAt, ⟨0, 0, 0, 0⟩, []⟩

def insertFinding {κ : Type} (e : κ) (row : IntegrityFindingRow) (db : Db) :
    Except κ (Unit × Db) :=
  if row.detectedAtSeq < 0 ∨ db.integrityFindings.any (fun r => decide (r.id = row.id)) then
    throw e
  else pure ((), { db with integrityFindings := db.integrityFindings ++ [row] })

/-- `ScanRecorder::record`. -/
def ScanRecorder.record (r : ScanRecorder) (x : Finding) : Scan ScanRecorder := do
  let now ← nowUtc
  let detectedAt ← check (formatTime c (.clock, r) now)
  let findingId ← freshId
  let row : IntegrityFindingRow := ⟨findingId, r.runId, ownerNamespace, x.kind, x.severity,
    x.snapshotId, x.artifactId, x.blobId, detectedAt, sortKeyFromTimestamp now, x.detailCode⟩
  integrityTransaction (.persistence, r) [findingId] (insertFinding (.persistence, r) row)
  pure { r with
    counts := r.counts.add x.severity
    reportFindings :=
      if r.reportFindings.length < reportFindingLimit then r.reportFindings ++ [row]
      else r.reportFindings }

/-- `final_status`. -/
def ScanRecorder.finalStatus (r : ScanRecorder) : IntegrityRunStatus :=
  if r.counts.warning ≠ 0 ∨ r.counts.error ≠ 0 then .actionRequired else .healthy

/-- The update that ends a running run. -/
def endRun (r : ScanRecorder) (status : IntegrityRunStatus) (completedAt : String)
    (completedAtSeq : ℤ) (db : Db) : Except IntegrityScanError (Unit × Db) :=
  if completedAtSeq < 0 ∨
      ¬ db.integrityRuns.any (fun x => decide (x.id = r.runId ∧ x.status = .running)) then
    throw .persistence
  else pure ((), { db with
    integrityRuns := updateWhere (fun x => decide (x.id = r.runId ∧ x.status = .running))
      (fun x =>
        { x with
          completedAt := some completedAt
          completedAtSeq := some completedAtSeq
          status := status
          findingCount := r.counts.total
          infoCount := r.counts.info
          warningCount := r.counts.warning
          errorCount := r.counts.error }) db.integrityRuns })

/-- `ScanRecorder::complete` and `ScanRecorder::fail` up to what they report. -/
def ScanRecorder.finish (r : ScanRecorder) (status : IntegrityRunStatus) :
    Handler IntegrityScanError String := do
  let now ← nowUtc
  let completedAt ← check (formatTime c .clock now)
  integrityTransaction .persistence [] (endRun r status completedAt (sortKeyFromTimestamp now))
  pure completedAt

structure IntegrityReport where
  runId : String
  ownerNamespace : String
  status : IntegrityRunStatus
  startedAt : String
  completedAt : String
  counts : IntegrityFindingCounts
  findings : List IntegrityFindingRow
  findingsTruncated : Bool

/-! ## §2 — Pages, and the passes over the database. -/

/-- One read of the scan. -/
def scanQuery {α : Type} (r : ScanRecorder) (f : Db → α) : Scan α :=
  query (.metadata, r) fun db => pure (f db)

/-- `WHERE id > after ORDER BY id ASC LIMIT PAGE_SIZE`. -/
def pageAfter {ρ : Type} (id : ρ → String) (after : String) (rows : List ρ) : List ρ :=
  ((rows.filter fun row => decide (after < id row)).insertionSort fun a b => id a ≤ id b).take
    pageSize

/-- Waits forever. -/
def neverEnds {κ α : Type} (e : κ) : Handler κ α :=
  ExceptT.mk <| .act .query (fun _ _ => false) (fun _ _ s => s) fun _ _ _ => .done (.error e)

/-- The page loop of a pass. One that has not come to its end after `fuel` pages never does. -/
def scanPages {ρ : Type} (id : ρ → String) (select : Db → List ρ)
    (each : ScanRecorder → List ρ → Scan ScanRecorder) :
    ℕ → String → ScanRecorder → Scan ScanRecorder
  | 0, _, r => neverEnds (.metadata, r)
  | fuel + 1, after, r => do
    let rows ← scanQuery r fun db => pageAfter id after (select db)
    match rows.getLast? with
    | none => pure r
    | some last => do
      let r ← each r rows
      scanPages id select each fuel (id last) r

/-- One step for every row, with the recorder handed on. -/
def scanEach {ρ : Type} (step : ScanRecorder → ρ → Scan ScanRecorder) :
    ScanRecorder → List ρ → Scan ScanRecorder
  | r, [] => pure r
  | r, row :: rest => do
    let r ← step r row
    scanEach step r rest

def scanDatabaseIntegrity (r : ScanRecorder) : Scan ScanRecorder := do
  let quick ← scanQuery r sqlite.quickCheck
  let r ← if quick then pure r
    else r.record c ⟨.databaseIntegrityFailure, .error, none, none, none,
      "sqlite_quick_check_failed"⟩
  let keys ← scanQuery r sqlite.foreignKeyCheck
  if keys then pure r
  else r.record c ⟨.databaseIntegrityFailure, .error, none, none, none,
    "sqlite_foreign_key_check_failed"⟩

/-- The artifacts of live snapshots whose blob row is missing. -/
def Db.danglingArtifacts (db : Db) : List ArtifactRow :=
  db.artifacts.filter fun a =>
    (db.snapshots.any fun s => decide (s.id = a.snapshotId) && s.live) &&
      !db.blobs.any fun b => decide (b.id = a.blobId)

/-- The artifacts of deleted snapshots. -/
def Db.tombstonedArtifacts (db : Db) : List ArtifactRow :=
  db.artifacts.filter fun a => db.snapshots.any fun s => decide (s.id = a.snapshotId) && !s.live

/-- Records the same finding about every artifact of a page. -/
def recordArtifacts (kind : IntegrityFindingKind) (detailCode : String) (r : ScanRecorder)
    (rows : List ArtifactRow) : Scan ScanRecorder :=
  scanEach (fun r row => r.record c ⟨kind, .error, some row.snapshotId, some row.id,
    some row.blobId, detailCode⟩) r rows

def scanDanglingArtifactReferences (fuel : ℕ) (r : ScanRecorder) : Scan ScanRecorder :=
  scanPages ArtifactRow.id Db.danglingArtifacts
    (recordArtifacts c .artifactBlobReferenceMissing "artifact_references_missing_blob_row")
    fuel "" r

def scanTombstonedArtifactReferences (fuel : ℕ) (r : ScanRecorder) : Scan ScanRecorder :=
  scanPages ArtifactRow.id Db.tombstonedArtifacts
    (recordArtifacts c .snapshotProjectionDrift "tombstoned_snapshot_has_artifact_reference")
    fuel "" r

/-! ## §3 — One snapshot. -/

structure SnapshotScanRow where
  id : String
  deleted : Bool
  manifest : Option ManifestRow
  tombstoned : Bool

/-- The left joins of `scan_snapshots`. -/
def Db.snapshotScanRows (db : Db) : List SnapshotScanRow :=
  db.snapshots.map fun s => ⟨s.id, !s.live, db.manifest s.manifestId,
    db.tombstones.any fun t => decide (t.snapshotId = s.id)⟩

/-- `load_manifest_document`. -/
def Db.manifestDocument (db : Db) (snapshotId : String) (maxManifestBytes : ℕ) :
    Option ManifestRow := do
  let snapshot ← db.snapshot snapshotId
  let manifest ← db.manifest snapshot.manifestId
  if manifest.canonicalJson.utf8ByteSize ≤ maxManifestBytes then some manifest else none

/-- `validate_manifest_schema`: the manifest as a request would declare it, normalized again. -/
def validateManifestSchema (manifest : Manifest) (limits : ManifestLimits) : Option Manifest :=
  (normalizeManifest c ⟨manifest.schemaVersion, manifest.session, manifest.capture,
    some manifest.artifacts, none⟩ limits).toOption

structure ManifestAnalysis where
  computedHash : String
  manifest : Option Manifest
  invalidDetailCode : String

def analyzeManifest (canonicalJson : String) (limits : ManifestLimits) : ManifestAnalysis :=
  let parsed := parseManifest c canonicalJson
  let manifest := parsed.bind fun m => validateManifestSchema c m limits
  ⟨c.sha256Hex (utf8 canonicalJson), manifest,
    if manifest.isSome then "canonical_manifest_valid"
    else if parsed.isNone then "canonical_manifest_unparseable"
    else "canonical_manifest_schema_invalid"⟩

structure ArtifactJob where
  snapshotId : String
  artifactId : String
  blobId : String
  storedSha256 : String
  storedSizeBytes : ℕ
  originalSha256 : String
  originalSizeBytes : ℕ
  compression : Compression

/-- `document_digest`. -/
def documentDigest (value : String) : Option String := canonicalDigest value

/-- `artifact_index ASC, id ASC`. -/
def projectionNotLater (a b : ArtifactRow) : Prop :=
  a.artifactIndex < b.artifactIndex ∨ a.artifactIndex = b.artifactIndex ∧ a.id ≤ b.id

instance : DecidableRel projectionNotLater := fun a b =>
  inferInstanceAs (Decidable (a.artifactIndex < b.artifactIndex ∨
    a.artifactIndex = b.artifactIndex ∧ a.id ≤ b.id))

/-- The left join of `artifact_jobs`. -/
def Db.artifactProjection (db : Db) (snapshotId : String) : List (ArtifactRow × Option BlobRow) :=
  ((db.artifacts.filter fun a => decide (a.snapshotId = snapshotId)).insertionSort
    projectionNotLater).map fun a => (a, db.blob a.blobId)

/-- The loop of `artifact_jobs` from an index on, with the jobs found so far. -/
def artifactJobsFrom (snapshotId : String) (rows : List (ArtifactRow × Option BlobRow)) :
    List Artifact → ℕ → List ArtifactJob → ScanRecorder → Scan (ScanRecorder × List ArtifactJob)
  | [], _, jobs, r => pure (r, jobs)
  | artifact :: rest, index, jobs, r =>
    match rows.find? fun row => decide (row.1.artifactIndex = (index : ℤ)) with
    | none => artifactJobsFrom snapshotId rows rest (index + 1) jobs r
    | some (_, none) => artifactJobsFrom snapshotId rows rest (index + 1) jobs r
    | some (row, some blob) =>
      let finding (kind : IntegrityFindingKind) (detailCode : String) : Finding :=
        ⟨kind, .error, some snapshotId, some row.id, some row.blobId, detailCode⟩
      match documentDigest artifact.storedSha256, documentDigest artifact.originalSha256 with
      | none, _ => do
        let r ← r.record c
          (finding .manifestUnparseable "canonical_manifest_stored_digest_invalid")
        artifactJobsFrom snapshotId rows rest (index + 1) jobs r
      | some _, none => do
        let r ← r.record c
          (finding .manifestUnparseable "canonical_manifest_original_digest_invalid")
        artifactJobsFrom snapshotId rows rest (index + 1) jobs r
      | some storedSha256, some originalSha256 =>
        if cfg.maxArtifactStoredBytes < artifact.storedSizeBytes.toNat ∨
            cfg.maxArtifactOriginalBytes < artifact.originalSizeBytes.toNat then do
          let r ← r.record c
            (finding .artifactOriginalMismatch "artifact_declared_size_exceeds_scan_limit")
          artifactJobsFrom snapshotId rows rest (index + 1) jobs r
        else if blob.storedSizeBytes ≠ artifact.storedSizeBytes.toNat ∨
            blob.storedSha256 ≠ storedSha256 ∨ blob.compression ≠ artifact.compression then
          -- left to the reconciliation and to the pass over blob rows
          artifactJobsFrom snapshotId rows rest (index + 1) jobs r
        else
          artifactJobsFrom snapshotId rows rest (index + 1)
            (jobs ++ [⟨snapshotId, row.id, row.blobId, storedSha256,
              artifact.storedSizeBytes.toNat, originalSha256, artifact.originalSizeBytes.toNat,
              artifact.compression⟩]) r

def artifactJobs (r : ScanRecorder) (snapshotId : String) (manifest : Manifest) :
    Scan (ScanRecorder × List ArtifactJob) := do
  let rows ← scanQuery r (·.artifactProjection snapshotId)
  artifactJobsFrom c cfg snapshotId rows manifest.artifacts 0 [] r

/-- Runs a job under the lock of one digest. -/
def withBlobLock {κ α : Type} (digest : String) (body : Handler κ α) : Handler κ α := do
  acquireAll (blobLocksForDigests [digest])
  let result ← attempt body
  release (blobLocksForDigests [digest])
  check result

inductive StoredFileCheck where
  | healthy
  | missing
  | nonRegular
  | sizeMismatch
  | hashMismatch
  | unreadable
  | transient
  deriving DecidableEq

/-- `scan_stored_file` on what the path leads to when it is opened. -/
def storedFileCheck (node : Option Node) (storedSha256 : String) (storedSizeBytes : ℕ) :
    StoredFileCheck :=
  match node with
  | none => .missing
  | some .dir | some .other => .nonRegular
  | some .unreadable => .unreadable
  | some (.file bytes) =>
    if bytes.length ≠ storedSizeBytes then .sizeMismatch
    else if c.sha256Hex bytes ≠ storedSha256 then .hashMismatch
    else .healthy

/-- One look at a path by a worker: what it leads to, or an error. -/
def lookAt (path : FilePath) : Program (Option (Option Node)) :=
  Prog.atomic .file fun _ e s =>
    match e.fault with
    | some _ => (none, s)
    | none => (some (s.fs.lookup path), s)

/-- `scan_stored_file`: the path is looked at when it is opened and again at the end, and a file
that changed meanwhile is no finding. -/
def scanStoredFile (path : FilePath) (storedSha256 : String) (storedSizeBytes : ℕ) :
    Program StoredFileCheck := do
  match ← lookAt path with
  | none => pure .unreadable
  | some before => do
    match storedFileCheck c before storedSha256 storedSizeBytes with
    | .missing => pure .missing
    | .nonRegular => pure .nonRegular
    | .unreadable => pure .unreadable
    | .sizeMismatch => pure .sizeMismatch
    | checked => do
      match ← lookAt path with
      | none => pure .unreadable
      | some after => pure (if after ≠ before then .transient else checked)

inductive OriginalFileCheck where
  | healthy
  | storedInvalid
  | mismatch (detailCode : String)
  | transient
  deriving DecidableEq

/-- What the decoded bytes of a job's file come to. -/
def originalCheck (job : ArtifactJob) (bytes : Bytes) : OriginalFileCheck :=
  match decode c job.compression bytes with
  | .error _ => .mismatch "zstd_decode_failed"
  | .ok original =>
    if original.length ≠ job.originalSizeBytes then .mismatch "original_size_mismatch"
    else if c.sha256Hex original ≠ job.originalSha256 then .mismatch "original_sha256_mismatch"
    else .healthy

/-- A worker reads the file it has open. -/
def readOpened : Program Bool := Prog.atomic .file fun _ e s => (e.fault.isNone, s)

def unreadableDetail : Compression → String
  | .identity => "original_content_unreadable"
  | .zstd => "zstd_decode_failed"

/-- `scan_artifact_original_file`. -/
def scanArtifactOriginalFile (path : FilePath) (job : ArtifactJob) :
    Program OriginalFileCheck := do
  match ← scanStoredFile c path job.storedSha256 job.storedSizeBytes with
  | .healthy => do
    match ← lookAt path with
    | some (some (.file bytes)) => do
      if ¬ (← readOpened) then return .mismatch (unreadableDetail job.compression)
      match ← lookAt path with
      | some (some (.file after)) =>
        pure (if after ≠ bytes then .transient else originalCheck c job bytes)
      | _ => pure .transient
    | _ => pure .storedInvalid
  | _ => pure .storedInvalid

inductive ArtifactScanResult where
  | healthy
  | storedInvalid
  | originalMismatch (detailCode : String)
  | transient
  deriving DecidableEq

/-- `artifact_is_current`. -/
def Db.artifactIsCurrent (db : Db) (job : ArtifactJob) : Bool :=
  db.artifacts.any fun a => decide (a.id = job.artifactId ∧ a.snapshotId = job.snapshotId ∧
      a.blobId = job.blobId) &&
    (db.snapshots.any fun s => decide (s.id = a.snapshotId) && s.live) &&
    db.blobs.any fun b => decide (b.id = a.blobId ∧ b.storedSha256 = job.storedSha256 ∧
      b.storedSizeBytes = job.storedSizeBytes)

/-- `scan_artifact_job` under its digest's lock. -/
def scanArtifactJobLocked (r : ScanRecorder) (job : ArtifactJob) : Scan ArtifactScanResult := do
  if ¬ (← scanQuery r (·.artifactIsCurrent job)) then return .transient
  let result ← scanArtifactOriginalFile c (blobPath job.storedSha256) job
  if ¬ (← scanQuery r (·.artifactIsCurrent job)) then return .transient
  match result with
  | .healthy => pure .healthy
  | .storedInvalid => pure .storedInvalid
  | .mismatch detailCode => pure (.originalMismatch detailCode)
  | .transient => pure .transient

/-- `scan_artifact_job` and `record_artifact_result`. A file that is not what its blob row says is
left to the pass over blob rows. -/
def scanArtifactJob (r : ScanRecorder) (job : ArtifactJob) : Scan ScanRecorder := do
  match ← withBlobLock job.storedSha256 (scanArtifactJobLocked c r job) with
  | .healthy => pure r
  | .storedInvalid => pure r
  | .originalMismatch detailCode =>
    r.record c ⟨.artifactOriginalMismatch, .error, some job.snapshotId, some job.artifactId,
      some job.blobId, detailCode⟩
  | .transient =>
    r.record c ⟨.transientChange, .info, some job.snapshotId, some job.artifactId,
      some job.blobId, "artifact_changed_during_scan"⟩

/-- A finding about a whole snapshot. -/
def snapshotFinding (kind : IntegrityFindingKind) (severity : IntegritySeverity)
    (snapshotId detailCode : String) : Finding :=
  ⟨kind, severity, some snapshotId, none, none, detailCode⟩

/-- `scan_snapshot` once the manifest is analyzed and the snapshot is live. -/
def scanLiveSnapshot (r : ScanRecorder) (snapshotId : String) (manifest : Manifest) :
    Scan ScanRecorder := do
  match ← attempt (reconcileSnapshotReads c snapshotId) with
  | .error .notFound =>
    r.record c (snapshotFinding .transientChange .info snapshotId "snapshot_changed_during_scan")
  | .error .metadata => throw (.metadata, r)
  | .error .drift => do
    let r ← r.record c (snapshotFinding .snapshotProjectionDrift .error snapshotId
      "normalized_snapshot_projection_mismatch")
    let (r, jobs) ← artifactJobs c cfg r snapshotId manifest
    scanEach (scanArtifactJob c) r jobs
  | .ok () => do
    let (r, jobs) ← artifactJobs c cfg r snapshotId manifest
    scanEach (scanArtifactJob c) r jobs

/-- `scan_snapshot` from the manifest's document on. -/
def scanDocument (r : ScanRecorder) (row : SnapshotScanRow) (document : ManifestRow) :
    Scan ScanRecorder := do
  let analysis := analyzeManifest c document.canonicalJson cfg.manifestLimits
  let r ← if analysis.computedHash = document.sha256 then pure r
    else r.record c (snapshotFinding .manifestHashMismatch .error row.id
      "canonical_manifest_hash_mismatch")
  match analysis.manifest with
  | none =>
    r.record c (snapshotFinding .manifestUnparseable .error row.id analysis.invalidDetailCode)
  | some manifest =>
    if row.deleted then pure r else scanLiveSnapshot c cfg r row.id manifest

def scanSnapshot (r : ScanRecorder) (row : SnapshotScanRow) : Scan ScanRecorder := do
  let r ←
    if ¬ row.deleted then pure r
    else if row.tombstoned then
      r.record c (snapshotFinding .tombstonedSnapshot .info row.id "snapshot_tombstoned")
    else
      r.record c (snapshotFinding .tombstonedSnapshot .error row.id "tombstone_record_missing")
  match row.manifest with
  | none =>
    r.record c (snapshotFinding .manifestMissing .error row.id "snapshot_manifest_row_missing")
  | some manifest =>
    if cfg.maxRequestBodyBytes < manifest.canonicalJson.utf8ByteSize then
      r.record c (snapshotFinding .manifestUnparseable .error row.id
        "canonical_manifest_exceeds_scan_limit")
    else do
      match ← scanQuery r (·.manifestDocument row.id cfg.maxRequestBodyBytes) with
      | none =>
        r.record c (snapshotFinding .transientChange .info row.id "snapshot_changed_during_scan")
      | some document => scanDocument c cfg r row document

def scanSnapshots (fuel : ℕ) (r : ScanRecorder) : Scan ScanRecorder :=
  scanPages SnapshotScanRow.id Db.snapshotScanRows (scanEach (scanSnapshot c cfg)) fuel "" r

/-! ## §4 — Blob rows. -/

structure BlobScanRow where
  blob : BlobRow
  hasLiveReference : Bool

def Db.blobScanRow (db : Db) (blob : BlobRow) : BlobScanRow := ⟨blob, db.hasLiveReference blob.id⟩

def Db.blobScanRows (db : Db) : List BlobScanRow := db.blobs.map db.blobScanRow

def blobFinding (kind : IntegrityFindingKind) (severity : IntegritySeverity)
    (blobId detailCode : String) : Finding :=
  ⟨kind, severity, none, none, some blobId, detailCode⟩

/-- What `record_blob_liveness` records. -/
def blobLiveness (row : BlobScanRow) (nowSeq : ℤ) : Option Finding :=
  let blob := row.blob
  if row.hasLiveReference then
    if blob.orphanedAt.isSome ∨ blob.eligibleAfter.isSome ∨ blob.eligibleAfterSeq.isSome then
      some (blobFinding .blobStaleCandidate .warning blob.id
        "candidate_has_live_artifact_reference")
    else none
  else
    match blob.orphanedAt.isSome, blob.eligibleAfter.isSome, blob.eligibleAfterSeq with
    | true, true, some eligibleAfterSeq =>
      if nowSeq < eligibleAfterSeq then
        some (blobFinding .blobGraceCandidate .info blob.id "orphan_within_gc_grace")
      else some (blobFinding .blobGcEligibleCandidate .warning blob.id "orphan_gc_eligible")
    | false, false, none =>
      some (blobFinding .blobOrphan .error blob.id "blob_has_no_live_artifact_reference")
    | _, _, _ =>
      some (blobFinding .blobOrphan .error blob.id "orphan_candidate_metadata_inconsistent")

/-- Records a finding when there is one. -/
def ScanRecorder.recordOption (r : ScanRecorder) : Option Finding → Scan ScanRecorder
  | none => pure r
  | some x => r.record c x

/-- `classify_blob_liveness`: a row with a usable digest is read again under its lock. -/
def classifyBlobLiveness (r : ScanRecorder) (row : BlobScanRow) (nowSeq : ℤ) :
    Scan ScanRecorder :=
  if (storageDigest row.blob.storedSha256).isNone then r.recordOption c (blobLiveness row nowSeq)
  else withBlobLock row.blob.storedSha256 do
    match ← scanQuery r fun db => (db.blob row.blob.id).map db.blobScanRow with
    | none =>
      r.record c (blobFinding .transientChange .info row.blob.id "blob_changed_during_scan")
    | some current => r.recordOption c (blobLiveness current nowSeq)

structure BlobJob where
  blobId : String
  storedSha256 : String
  storedSizeBytes : ℕ

/-- The row loop of `scan_blob_rows`, with the jobs found so far. -/
def scanBlobRow (nowSeq : ℤ) : List BlobScanRow → List BlobJob → ScanRecorder →
    Scan (ScanRecorder × List BlobJob)
  | [], jobs, r => pure (r, jobs)
  | row :: rest, jobs, r => do
    let r ← classifyBlobLiveness c r row nowSeq
    if (storageDigest row.blob.storedSha256).isNone ∨ row.blob.storedSizeBytes < 0 ∨
        (cfg.maxArtifactStoredBytes : ℤ) < row.blob.storedSizeBytes then do
      let r ← r.record c
        (blobFinding .blobMetadataInvalid .error row.blob.id "blob_row_metadata_invalid")
      scanBlobRow nowSeq rest jobs r
    else
      scanBlobRow nowSeq rest (jobs ++ [⟨row.blob.id, row.blob.storedSha256,
        row.blob.storedSizeBytes.toNat⟩]) r

/-- `blob_is_current`. -/
def Db.blobIsCurrent (db : Db) (job : BlobJob) : Bool :=
  db.blobs.any fun b => decide (b.id = job.blobId ∧ b.storedSha256 = job.storedSha256 ∧
    b.storedSizeBytes = job.storedSizeBytes)

/-- `scan_blob_job` under its digest's lock. -/
def scanBlobJobLocked (r : ScanRecorder) (job : BlobJob) : Scan StoredFileCheck := do
  if ¬ (← scanQuery r (·.blobIsCurrent job)) then return .transient
  let result ← scanStoredFile c (blobPath job.storedSha256) job.storedSha256 job.storedSizeBytes
  if ¬ (← scanQuery r (·.blobIsCurrent job)) then return .transient
  pure result

/-- What `record_blob_result` records. -/
def storedFileFinding (blobId : String) : StoredFileCheck → Option Finding
  | .healthy => none
  | .missing => some (blobFinding .blobFileMissing .error blobId "canonical_blob_file_missing")
  | .nonRegular =>
    some (blobFinding .blobFileNonRegular .error blobId "canonical_blob_file_not_regular")
  | .sizeMismatch =>
    some (blobFinding .blobFileSizeMismatch .error blobId "canonical_blob_file_size_mismatch")
  | .hashMismatch =>
    some (blobFinding .blobFileHashMismatch .error blobId "canonical_blob_file_hash_mismatch")
  | .unreadable =>
    some (blobFinding .blobFileMissing .error blobId "canonical_blob_file_unreadable")
  | .transient => some (blobFinding .transientChange .info blobId "blob_changed_during_scan")

def scanBlobJob (r : ScanRecorder) (job : BlobJob) : Scan ScanRecorder := do
  let result ← withBlobLock job.storedSha256 (scanBlobJobLocked c r job)
  r.recordOption c (storedFileFinding job.blobId result)

/-- One page of `scan_blob_rows`. -/
def scanBlobPage (nowSeq : ℤ) (r : ScanRecorder) (rows : List BlobScanRow) :
    Scan ScanRecorder := do
  let (r, jobs) ← scanBlobRow c cfg nowSeq rows [] r
  scanEach (scanBlobJob c) r jobs

def scanBlobRows (fuel : ℕ) (r : ScanRecorder) : Scan ScanRecorder := do
  let now ← nowUtc
  scanPages (fun row => row.blob.id) Db.blobScanRows
    (scanBlobPage c cfg (sortKeyFromTimestamp now)) fuel "" r

/-! ## §5 — Blob files. -/

def unexpectedFile (detailCode : String) : Finding :=
  ⟨.unexpectedBlobFile, .error, none, none, none, detailCode⟩

/-- `Path::extension`: what follows the last dot of a name that does not start with it. -/
def extension (name : List Char) : Option (List Char) :=
  match name.splitOn '.' with
  | first :: second :: rest =>
    if first = [] ∧ rest = [] then none else (first :: second :: rest).getLast?
  | _ => none

def temporaryStorageName (name : String) : Bool :=
  decide (name.toList.head? = some '.') ||
    (extension name.toList).any fun ext =>
      ["partial", "tmp", "temp"].contains (String.ofList (ext.map Char.toLower))

def shardName (value : String) : Bool :=
  decide (value.utf8ByteSize = 2) && value.toList.all fun ch => decide (lowerHex ch = some ch)

/-- One listing of a directory of the blob store. -/
def scanReadDir (r : ScanRecorder) (select : FileStore → Except IoError (List FilePath)) :
    Scan (List FilePath) :=
  fileRead (.storage, r) fun fs =>
    match select fs with
    | .ok entries => pure entries
    | .error _ => throw (.storage, r)

/-- The type of a listed entry; one that is gone fails the scan. -/
def scanEntry (r : ScanRecorder) (path : FilePath) : Scan Node :=
  fileRead (.storage, r) fun fs => okOr (fs.lookup path) (.storage, r)

/-- `record_unowned_blob_file_if_current`. -/
def recordUnownedBlobFile (r : ScanRecorder) (digest : String) (path : FilePath) :
    Scan ScanRecorder :=
  withBlobLock digest do
    let known ← scanQuery r (·.blobByDigest digest)
    if known.isSome then pure r
    else do
      match ← lookAt path with
      | some (some _) =>
        r.record c (unexpectedFile "canonical_blob_file_has_no_blob_row")
      | _ => pure r

/-- One entry of `inventory_blob_shard`. -/
def inventoryBlobEntry (shard : String) (r : ScanRecorder) (path : FilePath) :
    Scan ScanRecorder :=
  match path with
  | .blobEntry _ name =>
    if temporaryStorageName name then pure r
    else do
      let _ ← scanEntry r path
      if (storageDigest name).isSome ∧ shard.toList.isPrefixOf name.toList then
        recordUnownedBlobFile c r name path
      else r.record c (unexpectedFile "invalid_canonical_blob_entry")
  | _ => pure r

/-- One entry of `inventory_sha256_directory`. -/
def inventoryShard (r : ScanRecorder) (path : FilePath) : Scan ScanRecorder :=
  match path with
  | .shard name =>
    if temporaryStorageName name then pure r
    else do
      let node ← scanEntry r path
      if node = .dir ∧ shardName name then do
        let entries ← scanReadDir r (·.readDir path)
        scanEach (inventoryBlobEntry c name) r entries
      else r.record c (unexpectedFile "invalid_canonical_blob_shard")
  | _ => pure r

/-- One entry of `inventory_blob_files`. -/
def inventoryRootEntry (r : ScanRecorder) (path : FilePath) : Scan ScanRecorder :=
  match path with
  | .blobRootEntry name => do
    let node ← scanEntry r path
    if name = "sha256" then
      if node = .dir then do
        let shards ← scanReadDir r (·.readDir path)
        scanEach (inventoryShard c) r shards
      else r.record c (unexpectedFile "blob_sha256_root_not_directory")
    else if temporaryStorageName name then pure r
    else r.record c (unexpectedFile "noncanonical_blob_root_entry")
  | _ => pure r

/-- The entries of `blobs/`. -/
def FileStore.blobRoot (fs : FileStore) : List FilePath :=
  (fs.entries.map Prod.fst).dedup.filter fun
    | .blobRootEntry _ => true
    | _ => false

/-- `inventory_blob_files`; the root itself is a directory of the storage layout. -/
def inventoryBlobFiles (r : ScanRecorder) : Scan ScanRecorder := do
  let entries ← scanReadDir r fun fs => .ok fs.blobRoot
  scanEach (inventoryRootEntry c) r entries

/-! ## §6 — The scan. -/

def scanAll (fuel : ℕ) (r : ScanRecorder) : Scan ScanRecorder := do
  let r ← scanDatabaseIntegrity c sqlite r
  let r ← scanDanglingArtifactReferences c fuel r
  let r ← scanTombstonedArtifactReferences c fuel r
  let r ← scanSnapshots c cfg fuel r
  let r ← scanBlobRows c cfg fuel r
  inventoryBlobFiles c r

def scanArchive (fuel : ℕ) : Handler IntegrityScanError IntegrityReport := do
  let r ← ScanRecorder.begin c
  match ← attempt (scanAll c cfg sqlite fuel r) with
  | .ok r => do
    let completedAt ← r.finish c r.finalStatus
    pure ⟨r.runId, ownerNamespace, r.finalStatus, r.startedAt, completedAt, r.counts,
      r.reportFindings, decide (r.reportFindings.length < r.counts.total)⟩
  | .error (error, r) => do
    match ← attempt (r.finish c .failed) with
    | .error _ => throw .persistence
    | .ok _ => throw error

end Patwari
