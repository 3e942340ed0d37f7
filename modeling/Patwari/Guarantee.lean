/-
# Patwari.Guarantee — the steps a task of the server may take.

§1 are facts a task learns from one read and may still use at a later step: what an upload, a
manifest, a snapshot or a blob with a known identifier looks like as long as it is there. §2 is
`SysStep`, every change a task makes to the shared state, each with what the task knows when it
makes it. §3 says once for each table what a write may do to it. §4 is the invariant that all steps
keep, and the discipline made of both, in a `Mode` that says which actions may outlive their task
and which tasks may take which. §5 shows that the facts of §1 outlive the steps of every task, and
which facts a task's locks and generated names protect.
-/
import Patwari.Transactions

namespace Patwari

open Lib (Prog TaskId Discipline UniqueOn updateWhere mem_updateWhere)

/-! ## §1 — What a task knows. -/

/-- Which tasks do what in the runs considered. -/
structure Mode where
  /-- No removal of a canonical blob file outlives its task. -/
  removals : Prop
  /-- No link of a canonical blob file does. -/
  links : Prop
  /-- The tasks that link and remove canonical blob files and remove blob rows. -/
  keepers : TaskId → Prop
  /-- The tasks that open the transaction that removes a blob row. -/
  collectors : TaskId → Prop
  /-- The clock readings a task may take. -/
  readings : TaskId → ℤ → Prop

/-- Any task may do anything at any time. -/
def Mode.any : Mode := ⟨False, False, fun _ => True, fun _ => True, fun _ _ => True⟩

/-- The task collects blobs, and this is the key of a clock reading it took. -/
def Mode.Collects (mode : Mode) (t : TaskId) (nowSeq : ℤ) : Prop :=
  mode.collectors t ∧ ∃ n, mode.readings t n ∧ nowSeq = sortKeyFromTimestamp (.utc n)

/-- The columns of an upload that never change. -/
def UploadRow.fixed (r : UploadRow) : UploadRow :=
  { r with
    status := .created
    snapshotId := none
    completedAt := none
    transferBytes := 0
    newlyPersistedBytes := 0 }

/-- The upload with this identifier is `u` but for its state, as long as it has a row. -/
def UploadKnown (u : UploadRow) (s : Shared) : Prop :=
  u.id ∈ s.used ∧ ∀ r ∈ s.db.uploads, r.id = u.id → r.fixed = u.fixed

/-- The manifest of its upload is `m`, as long as it has a row. -/
def ManifestKnown (m : ManifestRow) (s : Shared) : Prop :=
  m.uploadId ∈ s.used ∧ ∀ r ∈ s.db.manifests, r.uploadId = m.uploadId → r = m

/-- The upload negotiated an artifact with this index. -/
def ArtifactKnown (uploadId : String) (artifactIndex : ℤ) (s : Shared) : Prop :=
  uploadId ∈ s.used ∧ ∀ r ∈ s.db.uploads, r.id = uploadId →
    ∃ a ∈ s.db.uploadArtifacts, a.uploadId = uploadId ∧ a.artifactIndex = artifactIndex

/-- The snapshot with this identifier belongs to the session and has the fingerprint. -/
def SnapshotKnown (snapshotId sessionId fingerprint : String) (s : Shared) : Prop :=
  snapshotId ∈ s.used ∧ ∀ r ∈ s.db.snapshots, r.id = snapshotId →
    r.sessionId = sessionId ∧ r.fingerprintSha256 = fingerprint

/-- The blob with this identifier stores the digest. -/
def BlobKnown (blobId storedSha256 : String) (s : Shared) : Prop :=
  blobId ∈ s.used ∧ ∀ r ∈ s.db.blobs, r.id = blobId → r.storedSha256 = storedSha256

/-- Identifiers generated for the task that no row carries yet. -/
def Fresh (t : TaskId) (ids : List String) (s : Shared) : Prop :=
  ids.Nodup ∧ ∀ id ∈ ids, (id, t) ∈ s.issued ∧ id ∉ s.used

/-- The task holds the lock. -/
def Holds (t : TaskId) (l : Lock) (s : Shared) : Prop := (l, t) ∈ s.locks

/-- The bytes were accepted as this chunk, up to their digest. -/
def ChunkAccepted (c : Crates) (uploadId : String) (artifactIndex chunkIndex : ℤ) (bytes : Bytes)
    (s : Shared) : Prop :=
  ∃ e ∈ s.accepted, e.uploadId = uploadId ∧ e.artifactIndex = artifactIndex ∧
    e.chunkIndex = chunkIndex ∧ e.body.length = bytes.length ∧
    c.sha256Hex e.body = c.sha256Hex bytes

/-- An artifact put together from all its accepted chunks in index order, and verified against what
the manifest declares of it. -/
def Assembled (c : Crates) (upload : UploadRow) (p : PreparedArtifact) (s : Shared) : Prop :=
  ∃ pieces : List Bytes, verifyArtifactBytes c p.artifact pieces.flatten = .ok () ∧
    chunkCount p.artifact.storedSizeBytes.toNat upload.chunkSizeBytes.toNat = .ok pieces.length ∧
    ∀ (k : ℕ) (piece : Bytes), pieces[k]? = some piece → ChunkAccepted c upload.id p.artifactIndex k
      piece s

/-- What `create_upload` has checked before its transaction. -/
structure NewUploadOk (c : Crates) (cfg : Config) (new : NewUpload) : Prop where
  manifest : ∃ input, normalizeManifest c input cfg.manifestLimits = .ok new.manifest
  layout : uploadLayout new.manifest cfg.chunkSizeBytes = .ok new.layout
  times : ∃ now : OffsetDateTime, now.offsetSeconds = 0 ∧ c.formatRfc3339 now = some new.now ∧
    c.formatRfc3339 (expirationTime now cfg.uploadExpiry) = some new.expiresAt

/-- What a completion has checked before its transaction. -/
structure CompletingOk (c : Crates) (x : Completing) (s : Shared) : Prop where
  upload : UploadKnown x.upload s
  manifest : ∃ m, ManifestKnown m s ∧ m.uploadId = x.upload.id ∧
    parseManifest c m.canonicalJson = some x.manifest
  time : ∃ now, c.formatRfc3339 (.utc now) = some x.now

/-- What a completion that makes a snapshot has checked besides. -/
structure RecordOk (c : Crates) (mode : Mode) (t : TaskId) (x : CompletionRecord) (s : Shared) :
    Prop extends CompletingOk c x.toCompleting s where
  fingerprint : x.fingerprint = snapshotFingerprint c x.manifest
  seq : sortKeyFromRfc3339 c x.now = some x.nowSeq
  artifacts : x.prepared.map PreparedArtifact.artifact = x.manifest.artifacts
  indexes : x.prepared.map PreparedArtifact.artifactIndex = List.range x.prepared.length
  blobIds : x.blobIds.length = x.prepared.length
  artifactIds : x.artifactIds.length = x.prepared.length
  assembled : ∀ p ∈ x.prepared, Assembled c x.upload p s
  locks : ∀ p ∈ x.prepared, Holds t (blobLock p.digest) s
  files : mode.removals → ∀ p ∈ x.prepared, s.fs.lookup (blobPath p.digest) ≠ none

/-- What a deletion has computed before its transaction: one clock reading, and the deadline the
configured grace period after it. -/
def DeletionOk (c : Crates) (cfg : Config) (x : DeletionRecord) : Prop :=
  ∃ n, c.formatRfc3339 (.utc n) = some x.deletedAt ∧ x.deletedAtSeq = sortKeyFromTimestamp
    (.utc n) ∧
    c.formatRfc3339 (expirationTime (.utc n) cfg.blobGcGrace) = some x.eligibleAfter ∧
    x.eligibleAfterSeq = sortKeyFromTimestamp (expirationTime (.utc n) cfg.blobGcGrace)

/-! ## §2 — Steps. -/

variable (c : Crates) (cfg : Config) (mode : Mode)

/-- A write transaction, with the identifiers that become keys of rows and the chunk bodies that
become accepted. -/
inductive DbWrite (t : TaskId) (s : Shared) : List String → List AcceptedChunk → Db → Prop
  | registerClient (clientId metadataJson now : String) (request : RegisterClientRequest) {db : Db}
      (h : upsertClient clientId request metadataJson now s.db = .ok ((), db)) :
      DbWrite t s [] [] db
  | persistUpload (new : NewUpload) {created : CreatedUpload} {db : Db}
      (hnew : NewUploadOk c cfg new)
      (h : Patwari.persistUpload c cfg new s.db = .ok (created, db)) :
      DbWrite t s [new.sessionId, new.uploadId, new.manifestId] [] db
  | terminalizeUpload (upload : UploadRow) (reason : TerminalReason) (terminalAt : String)
      {ended : Bool} {db : Db} (hupload : UploadKnown upload s)
      (h : Patwari.terminalizeUpload upload reason terminalAt s.db = .ok (ended, db)) :
      DbWrite t s [] [] db
  | persistChunkRecord (uploadId : String) (artifactIndex chunkIndex : ℕ)
      (sha256 acceptedAt : String) (body : Bytes) {db : Db}
      (hartifact : ArtifactKnown uploadId artifactIndex s)
      (hdigest : c.sha256Hex body = digestStorageValue sha256)
      (h : Patwari.persistChunkRecord uploadId artifactIndex chunkIndex body.length sha256
        acceptedAt s.db = .ok ((), db)) :
      DbWrite t s [] [⟨uploadId, artifactIndex, chunkIndex, body⟩] db
  | setUploadStatus (uploadId : String) (complete : Bool) {db : Db}
      (h : Patwari.setUploadStatus uploadId complete s.db = .ok ((), db)) :
      DbWrite t s [] [] db
  | finalizeUpload (x : Completing) (snapshotId : String) {completed : Bool} {db : Db}
      (hx : CompletingOk c x s)
      (hsnapshot : SnapshotKnown snapshotId x.upload.sessionId (snapshotFingerprint c x.manifest) s)
      (h : Patwari.finalizeUpload c x snapshotId s.db = .ok (completed, db)) :
      DbWrite t s [x.captureId] [] db
  | recordCompletedUpload (x : CompletionRecord) {outcome : RecordOutcome} {db : Db}
      (hx : RecordOk c mode t x s)
      (h : Patwari.recordCompletedUpload c x s.db = .ok (outcome, db)) :
      DbWrite t s (x.snapshotId :: x.captureId :: (x.blobIds ++ x.artifactIds)) [] db
  | recordDeletion (x : DeletionRecord) {db : Db} (hx : DeletionOk c cfg x)
      (h : Patwari.recordDeletion x s.db = .ok ((), db)) :
      DbWrite t s [x.tombstoneId, x.auditId] [] db
  | collectBlobRow (blobId : String) (nowSeq : ℤ) {step : Collecting} {db : Db}
      (hstep : step ≠ .deleting) (h : Patwari.collectBlobRow blobId nowSeq s.db = .ok (step, db)) :
      DbWrite t s [] [] db
  | recordIntegrity (ids : List String) (runs : List IntegrityRunRow)
      (findings : List IntegrityFindingRow) :
      DbWrite t s ids [] { s.db with integrityRuns := runs, integrityFindings := findings }

/-- The path may be created or written by the task. -/
def Creatable (t : TaskId) (s : Shared) : FilePath → Prop
  | .uploadDir _ => True
  | .artifactChunkDir u i | .artifactChunk u i _ => ArtifactKnown u i s
  | .stagedChunk u i uuid => ArtifactKnown u i s ∧ (uuid, t) ∈ s.issued
  | .assembledArtifact _ _ uuid => (uuid, t) ∈ s.issued
  | .legacyArtifact _ | .blobRootEntry _ | .shard _ | .blobEntry _ _ => False

/-- No committed blob row stores the digest, or the task is about to commit a database without
one. -/
def Unreferenced (t : TaskId) (d : String) (s : Shared) : Prop :=
  (∀ r ∈ s.db.blobs, r.storedSha256 ≠ d) ∨
    ∃ pending, s.writer = some (t, pending) ∧ ∀ r ∈ pending.blobs, r.storedSha256 ≠ d

/-- A file operation. -/
inductive FileWrite (t : TaskId) (s : Shared) (fs : FileStore) : Prop
  /-- In the directory of an upload. -/
  | upload (h : ∀ p, fs.lookup p = s.fs.lookup p ∨
      p.upload?.isSome ∧ (fs.lookup p = none ∨ Creatable t s p))
  /-- The directories of canonical blobs. -/
  | blobDirs (h : ∀ p, fs.lookup p = s.fs.lookup p ∨
      s.fs.lookup p = none ∧ fs.lookup p = some .dir ∧
        (p = .blobRootEntry "sha256" ∨
          ∃ d : String, p = .shard (String.ofList ((Lib.chars d).take 2))))
  /-- A new canonical blob file. -/
  | link (d : String) (bytes : Bytes) (hlock : mode.links → Holds t (blobLock d) s)
      (hnone : s.fs.lookup (blobPath d) = none) (hdigest : c.sha256Hex bytes = d)
      (h : ∀ p, fs.lookup p = if p = blobPath d then some (.file bytes) else s.fs.lookup p)
      (hkeeper : mode.keepers t)
  /-- A canonical blob file removed. -/
  | unlink (d : String)
      (hlock : mode.removals → Holds t (blobLock d) s ∧ Unreferenced t d s)
      (h : ∀ p, fs.lookup p = if p = blobPath d then none else s.fs.lookup p)
      (hkeeper : mode.keepers t)

/-- **`SysStep`** — one step of a task. -/
inductive SysStep (t : TaskId) (s : Shared) : Shared → Prop
  | refl : SysStep t s s
  | issue (id : String) (hv7 : IsUuidV7 id) (hfresh : id ∉ s.issued.map Prod.fst) :
      SysStep t s { s with issued := (id, t) :: s.issued }
  | acquire (l : Lock) (hfree : s.free l = true) :
      SysStep t s { s with locks := (l, t) :: s.locks }
  | release (dropped : Lock → Bool) :
      SysStep t s
        { s with locks := s.locks.filter fun h => !(decide (h.2 = t) && dropped h.1) }
  | cleanup : SysStep t s (s.cleanup t)
  | reconcile (rs : List (String × TaskId))
      (h : ∀ r, r.2 ≠ t → (r ∈ rs ↔ r ∈ s.reconciling)) :
      SysStep t s { s with reconciling := rs }
  | write {ids : List String} {acc : List AcceptedChunk} {db : Db} (hwriter : s.writer = none)
      (hids : Fresh t ids s) (h : DbWrite c cfg mode t s ids acc db) :
      SysStep t s
        { s with db := db, used := ids ++ s.used, accepted := acc ++ s.accepted }
  | beginCollect (blobId : String) (nowSeq : ℤ) {db : Db} (hwriter : s.writer = none)
      (hlock : ∀ r ∈ s.db.blobs, r.id = blobId → Holds t (blobLock r.storedSha256) s)
      (h : collectBlobRow blobId nowSeq s.db = .ok (.deleting, db))
      (hcollects : mode.Collects t nowSeq) :
      SysStep t s { s with writer := some (t, db) }
  | commitCollect {db : Db} (hwriter : s.writer = some (t, db)) (hkeeper : mode.keepers t) :
      SysStep t s { s with db := db, writer := none }
  | rollback {db : Db} (hwriter : s.writer = some (t, db)) :
      SysStep t s { s with writer := none }
  | files {fs : FileStore} (h : FileWrite c mode t s fs) (horderly : s.fs.Orderly fs) :
      SysStep t s { s with fs := fs }

/-! ## §3 — What a write does to each table. -/

section Tables

variable {c : Crates} {cfg : Config} {mode : Mode} {t : TaskId} {s : Shared} {ids : List String}
  {acc : List AcceptedChunk} {db : Db}

/-- Completing a row changes no fixed column. -/
@[simp] theorem UploadRow.fixed_complete (r : UploadRow) (snapshotId now : String)
    (transferBytes newlyPersistedBytes : ℤ) :
    (r.complete snapshotId now transferBytes newlyPersistedBytes).fixed = r.fixed := rfl

@[simp] theorem UploadRow.fixed_id (r : UploadRow) : r.fixed.id = r.id := rfl

theorem UploadRow.id_of_fixed {r r' : UploadRow} (h : r'.fixed = r.fixed) : r'.id = r.id := by
  have hid : r'.fixed.id = r.fixed.id := congrArg UploadRow.id h
  exact hid

/-- A row an update of the state columns leaves is an old row but for its state. -/
theorem mem_updateWhere_fixed {rows : List UploadRow} {p : UploadRow → Bool}
    {f : UploadRow → UploadRow} {r' : UploadRow} (h : r' ∈ updateWhere p f rows)
    (hf : ∀ r, (f r).fixed = r.fixed) : ∃ r ∈ rows, r'.fixed = r.fixed := by
  obtain ⟨r, hr, rfl⟩ := mem_updateWhere.mp h
  refine ⟨r, hr, ?_⟩
  split
  · exact hf r
  · rfl

/-- An upload row is an old one but for its state, or new under a generated identifier. -/
theorem DbWrite.upload_origin (h : DbWrite c cfg mode t s ids acc db) {r' : UploadRow}
    (hr : r' ∈ db.uploads) : (∃ r ∈ s.db.uploads, r'.fixed = r.fixed) ∨ r'.id ∈ ids := by
  cases h with
  | registerClient clientId metadataJson now request h =>
    obtain ⟨clients, rfl, -⟩ := upsertClient_ok h
    exact Or.inl ⟨r', hr, rfl⟩
  | persistUpload new hnew h =>
    obtain ⟨sessionId, db₁, hsession, -, hcase⟩ := persistUpload_ok h
    have hold : db₁.uploads = s.db.uploads := by rw [getOrCreateSession_frame hsession]
    rcases hcase with ⟨existing, -, -, -, rfl⟩ | ⟨-, -, -, row, hrow, hdetail⟩
    · rw [hold] at hr
      exact Or.inl ⟨r', hr, rfl⟩
    · obtain ⟨rows, -, -, rfl, -⟩ := persistNewUploadDetail_ok hdetail
      rcases List.mem_append.mp hr with hr | hr
      · rw [hold] at hr
        exact Or.inl ⟨r', hr, rfl⟩
      · obtain rfl := List.mem_singleton.mp hr
        rw [(newUploadRow_ok hrow).1]
        exact Or.inr (by simp)
  | terminalizeUpload upload reason terminalAt hupload h =>
    rcases terminalizeUpload_ok h with ⟨-, -, rfl⟩ | ⟨-, -, -, -, -, rfl⟩
    · exact Or.inl ⟨r', hr, rfl⟩
    · exact Or.inl ⟨r', List.mem_of_mem_filter hr, rfl⟩
  | persistChunkRecord uploadId i k sha256 acceptedAt body hartifact hdigest h =>
    rw [persistChunkRecord_frame h] at hr
    exact Or.inl ⟨r', hr, rfl⟩
  | setUploadStatus uploadId complete h =>
    obtain ⟨-, rfl⟩ := Prod.mk.inj (pure_eq_ok.mp h)
    exact Or.inl (mem_updateWhere_fixed hr fun r => rfl)
  | finalizeUpload x snapshotId hx hsnapshot h =>
    rcases (finalizeUpload_ok h).2 with ⟨-, -, manifestRow, -, hcapture⟩ | ⟨-, -, rfl⟩
    · rw [insertCaptureProvenance_frame hcapture] at hr
      exact Or.inl (mem_updateWhere_fixed hr fun r => rfl)
    · exact Or.inl ⟨r', hr, rfl⟩
  | recordCompletedUpload x hx h =>
    rcases recordCompletedUpload_ok h with
      ⟨-, rfl⟩ | ⟨blobIds, blobs, manifestRow, row, db₂, -, -, -, -, -, -, -, hfinal, rfl⟩
    · exact Or.inl ⟨r', hr, rfl⟩
    · rw [linkRearchive_frame] at hr
      obtain ⟨rows, -, -, -, ⟨-, hcapture⟩ | ⟨-, rfl⟩⟩ := finalizeWinningSnapshot_ok hfinal
      · rw [insertCaptureProvenance_frame hcapture] at hr
        exact Or.inl (mem_updateWhere_fixed hr fun r => rfl)
      · exact Or.inl ⟨r', hr, rfl⟩
  | recordDeletion x hx h =>
    rw [recordDeletion_frame h] at hr
    exact Or.inl ⟨r', hr, rfl⟩
  | collectBlobRow blobId nowSeq hstep h =>
    rw [collectBlobRow_frame h] at hr
    exact Or.inl ⟨r', hr, rfl⟩
  | recordIntegrity ids runs findings => exact Or.inl ⟨r', hr, rfl⟩

/-- A manifest row is old, or that of a new upload. -/
theorem DbWrite.manifest_origin (h : DbWrite c cfg mode t s ids acc db) {m : ManifestRow}
    (hm : m ∈ db.manifests) :
    m ∈ s.db.manifests ∨ (m.id ∈ ids ∧ m.uploadId ∈ ids ∧
      ∃ new, NewUploadOk c cfg new ∧ m = newManifestRow c new) := by
  cases h with
  | registerClient clientId metadataJson now request h =>
    obtain ⟨clients, rfl, -⟩ := upsertClient_ok h
    exact Or.inl hm
  | persistUpload new hnew h =>
    obtain ⟨sessionId, db₁, hsession, -, hcase⟩ := persistUpload_ok h
    have hold : db₁.manifests = s.db.manifests := by
      rw [getOrCreateSession_frame hsession]
    rcases hcase with ⟨existing, -, -, -, rfl⟩ | ⟨-, -, -, row, hrow, hdetail⟩
    · rw [hold] at hm
      exact Or.inl hm
    · obtain ⟨rows, -, -, rfl, -⟩ := persistNewUploadDetail_ok hdetail
      rcases List.mem_append.mp hm with hm | hm
      · exact Or.inl (hold ▸ hm)
      · obtain rfl := List.mem_singleton.mp hm
        exact Or.inr ⟨by simp [newManifestRow], by simp [newManifestRow], new, hnew, rfl⟩
  | terminalizeUpload upload reason terminalAt hupload h =>
    rcases terminalizeUpload_ok h with ⟨-, -, rfl⟩ | ⟨-, -, -, -, -, rfl⟩
    · exact Or.inl hm
    · exact Or.inl (List.mem_of_mem_filter hm)
  | persistChunkRecord uploadId i k sha256 acceptedAt body hartifact hdigest h =>
    rw [persistChunkRecord_frame h] at hm
    exact Or.inl hm
  | setUploadStatus uploadId complete h =>
    obtain ⟨-, rfl⟩ := Prod.mk.inj (pure_eq_ok.mp h)
    exact Or.inl hm
  | finalizeUpload x snapshotId hx hsnapshot h =>
    rw [finalizeUpload_frame h] at hm
    exact Or.inl hm
  | recordCompletedUpload x hx h =>
    rw [recordCompletedUpload_frame h] at hm
    exact Or.inl hm
  | recordDeletion x hx h =>
    rw [recordDeletion_frame h] at hm
    exact Or.inl hm
  | collectBlobRow blobId nowSeq hstep h =>
    rw [collectBlobRow_frame h] at hm
    exact Or.inl hm
  | recordIntegrity ids runs findings => exact Or.inl hm

/-- The artifact rows of an upload stay as long as its own row does. -/
theorem DbWrite.uploadArtifact_kept (h : DbWrite c cfg mode t s ids acc db) {r : UploadRow}
    (hr : r ∈ db.uploads) {a : UploadArtifactRow} (ha : a ∈ s.db.uploadArtifacts)
    (hid : a.uploadId = r.id) : a ∈ db.uploadArtifacts := by
  cases h with
  | registerClient clientId metadataJson now request h =>
    obtain ⟨clients, rfl, -⟩ := upsertClient_ok h
    exact ha
  | persistUpload new hnew h =>
    obtain ⟨sessionId, db₁, hsession, -, hcase⟩ := persistUpload_ok h
    have hold : db₁.uploadArtifacts = s.db.uploadArtifacts := by
      rw [getOrCreateSession_frame hsession]
    rcases hcase with ⟨existing, -, -, -, rfl⟩ | ⟨-, -, -, row, hrow, hdetail⟩
    · rwa [hold]
    · obtain ⟨rows, -, -, rfl, -⟩ := persistNewUploadDetail_ok hdetail
      exact List.mem_append_left _ (hold ▸ ha)
  | terminalizeUpload upload reason terminalAt hupload h =>
    rcases terminalizeUpload_ok h with ⟨-, -, rfl⟩ | ⟨-, -, -, -, -, rfl⟩
    · exact ha
    · have hne : r.id ≠ upload.id := by simpa using List.of_mem_filter hr
      refine List.mem_filter.mpr ⟨ha, ?_⟩
      simpa [hid] using hne
  | persistChunkRecord uploadId i k sha256 acceptedAt body hartifact hdigest h =>
    rw [persistChunkRecord_frame h]
    exact ha
  | setUploadStatus uploadId complete h =>
    obtain ⟨-, rfl⟩ := Prod.mk.inj (pure_eq_ok.mp h)
    exact ha
  | finalizeUpload x snapshotId hx hsnapshot h =>
    rw [finalizeUpload_frame h]
    exact ha
  | recordCompletedUpload x hx h =>
    rw [recordCompletedUpload_frame h]
    exact ha
  | recordDeletion x hx h =>
    rw [recordDeletion_frame h]
    exact ha
  | collectBlobRow blobId nowSeq hstep h =>
    rw [collectBlobRow_frame h]
    exact ha
  | recordIntegrity ids runs findings => exact ha

/-- The accepted body a chunk row stands for. -/
def UploadChunkRow.Accepts (c : Crates) (r : UploadChunkRow) (e : AcceptedChunk) : Prop :=
  e.uploadId = r.uploadId ∧ e.artifactIndex = r.artifactIndex ∧ e.chunkIndex = r.chunkIndex ∧
    (e.body.length : ℤ) = r.byteLength ∧ c.sha256Hex e.body = r.sha256

/-- A chunk row is old, or records the body just accepted. -/
theorem DbWrite.chunk_origin (h : DbWrite c cfg mode t s ids acc db) {r' : UploadChunkRow}
    (hr : r' ∈ db.uploadChunks) : r' ∈ s.db.uploadChunks ∨ ∃ e ∈ acc, r'.Accepts c e := by
  cases h with
  | registerClient clientId metadataJson now request h =>
    obtain ⟨clients, rfl, -⟩ := upsertClient_ok h
    exact Or.inl hr
  | persistUpload new hnew h =>
    rw [persistUpload_frame h] at hr
    exact Or.inl hr
  | terminalizeUpload upload reason terminalAt hupload h =>
    rcases terminalizeUpload_ok h with ⟨-, -, rfl⟩ | ⟨-, -, -, -, -, rfl⟩
    · exact Or.inl hr
    · exact Or.inl (List.mem_of_mem_filter hr)
  | persistChunkRecord uploadId i k sha256 acceptedAt body hartifact hdigest h =>
    rcases (persistChunkRecord_ok h).2 with ⟨-, rfl⟩ | ⟨-, -, -, -, rfl⟩
    · refine (List.mem_append.mp hr).imp_right fun hnew => ?_
      obtain rfl := List.mem_singleton.mp hnew
      exact ⟨_, List.mem_singleton_self _, rfl, rfl, rfl, rfl, hdigest⟩
    · exact Or.inl hr
  | setUploadStatus uploadId complete h =>
    obtain ⟨-, rfl⟩ := Prod.mk.inj (pure_eq_ok.mp h)
    exact Or.inl hr
  | finalizeUpload x snapshotId hx hsnapshot h =>
    rw [finalizeUpload_frame h] at hr
    exact Or.inl hr
  | recordCompletedUpload x hx h =>
    rw [recordCompletedUpload_frame h] at hr
    exact Or.inl hr
  | recordDeletion x hx h =>
    rw [recordDeletion_frame h] at hr
    exact Or.inl hr
  | collectBlobRow blobId nowSeq hstep h =>
    rw [collectBlobRow_frame h] at hr
    exact Or.inl hr
  | recordIntegrity ids runs findings => exact Or.inl hr

/-- A snapshot row is an old one, live only if it was, or new under a generated identifier. -/
theorem DbWrite.snapshot_origin (h : DbWrite c cfg mode t s ids acc db) {r' : SnapshotRow}
    (hr : r' ∈ db.snapshots) :
    (∃ r ∈ s.db.snapshots, r' = { r with deletedAt := r'.deletedAt } ∧ (r'.live = true → r' = r)) ∨
      r'.id ∈ ids := by
  cases h with
  | registerClient clientId metadataJson now request h =>
    obtain ⟨clients, rfl, -⟩ := upsertClient_ok h
    exact Or.inl ⟨r', hr, rfl, fun _ => rfl⟩
  | persistUpload new hnew h =>
    rw [persistUpload_frame h] at hr
    exact Or.inl ⟨r', hr, rfl, fun _ => rfl⟩
  | terminalizeUpload upload reason terminalAt hupload h =>
    rw [terminalizeUpload_frame h] at hr
    exact Or.inl ⟨r', hr, rfl, fun _ => rfl⟩
  | persistChunkRecord uploadId i k sha256 acceptedAt body hartifact hdigest h =>
    rw [persistChunkRecord_frame h] at hr
    exact Or.inl ⟨r', hr, rfl, fun _ => rfl⟩
  | setUploadStatus uploadId complete h =>
    obtain ⟨-, rfl⟩ := Prod.mk.inj (pure_eq_ok.mp h)
    exact Or.inl ⟨r', hr, rfl, fun _ => rfl⟩
  | finalizeUpload x snapshotId hx hsnapshot h =>
    rw [finalizeUpload_frame h] at hr
    exact Or.inl ⟨r', hr, rfl, fun _ => rfl⟩
  | recordCompletedUpload x hx h =>
    rcases recordCompletedUpload_ok h with
      ⟨-, rfl⟩ | ⟨blobIds, blobs, manifestRow, row, db₂, -, -, -, -, hrow, -, -, hfinal, rfl⟩
    · exact Or.inl ⟨r', hr, rfl, fun _ => rfl⟩
    · rw [linkRearchive_frame, finalizeWinningSnapshot_frame hfinal] at hr
      rcases List.mem_append.mp hr with hr | hr
      · exact Or.inl ⟨r', hr, rfl, fun _ => rfl⟩
      · obtain rfl := List.mem_singleton.mp hr
        obtain ⟨original, stored, -, -, rfl⟩ := snapshotRow_ok hrow
        exact Or.inr List.mem_cons_self
  | recordDeletion x hx h =>
    obtain ⟨snapshot, manifest, -, ⟨-, rfl⟩ | ⟨-, -, -, rfl⟩⟩ := recordDeletion_ok h
    · exact Or.inl ⟨r', hr, rfl, fun _ => rfl⟩
    · rw [foldl_scheduleOrClearBlobCandidate] at hr
      obtain ⟨r, hmem, rfl⟩ := mem_updateWhere.mp hr
      refine Or.inl ⟨r, hmem, ?_⟩
      split
      · exact ⟨rfl, fun hlive => by simp [SnapshotRow.live] at hlive⟩
      · exact ⟨rfl, fun _ => rfl⟩
  | collectBlobRow blobId nowSeq hstep h =>
    rw [collectBlobRow_frame h] at hr
    exact Or.inl ⟨r', hr, rfl, fun _ => rfl⟩
  | recordIntegrity ids runs findings => exact Or.inl ⟨r', hr, rfl, fun _ => rfl⟩

/-- The columns of a blob row that never change. -/
abbrev BlobRow.fixed (r : BlobRow) : BlobRow := r.clearCandidate

theorem BlobRow.of_fixed {r r' : BlobRow} (h : r'.fixed = r.fixed) :
    r'.id = r.id ∧ r'.ownerNamespace = r.ownerNamespace ∧ r'.storedSha256 = r.storedSha256 ∧
      r'.storedSizeBytes = r.storedSizeBytes ∧ r'.compression = r.compression := by
  simp only [BlobRow.clearCandidate, BlobRow.mk.injEq] at h
  exact ⟨h.1, h.2.1, h.2.2.1, h.2.2.2.1, h.2.2.2.2.1⟩

/-- Updating deadlines changes no fixed column. -/
theorem mem_updateWhere_clear {rows : List BlobRow} {p : BlobRow → Bool} {r' : BlobRow}
    (h : r' ∈ updateWhere p BlobRow.clearCandidate rows) : ∃ r ∈ rows, r'.fixed = r.fixed := by
  obtain ⟨r, hr, rfl⟩ := mem_updateWhere.mp h
  refine ⟨r, hr, ?_⟩
  split <;> rfl

/-- A blob row is an old one but for its deadline, or that of an artifact of a new snapshot. -/
theorem DbWrite.blob_origin (h : DbWrite c cfg mode t s ids acc db) {r' : BlobRow}
    (hr : r' ∈ db.blobs) :
    (∃ r ∈ s.db.blobs, r'.fixed = r.fixed) ∨
      r'.id ∈ ids ∧ ∃ x p newId now, RecordOk c mode t x s ∧ p ∈ x.prepared ∧
        r' = newBlobRow p.artifact newId now p.artifact.storedSizeBytes.toNat := by
  cases h with
  | registerClient clientId metadataJson now request h =>
    obtain ⟨clients, rfl, -⟩ := upsertClient_ok h
    exact Or.inl ⟨r', hr, rfl⟩
  | persistUpload new hnew h =>
    rw [persistUpload_frame h] at hr
    exact Or.inl ⟨r', hr, rfl⟩
  | terminalizeUpload upload reason terminalAt hupload h =>
    rw [terminalizeUpload_frame h] at hr
    exact Or.inl ⟨r', hr, rfl⟩
  | persistChunkRecord uploadId i k sha256 acceptedAt body hartifact hdigest h =>
    rw [persistChunkRecord_frame h] at hr
    exact Or.inl ⟨r', hr, rfl⟩
  | setUploadStatus uploadId complete h =>
    obtain ⟨-, rfl⟩ := Prod.mk.inj (pure_eq_ok.mp h)
    exact Or.inl ⟨r', hr, rfl⟩
  | finalizeUpload x snapshotId hx hsnapshot h =>
    rw [finalizeUpload_frame h] at hr
    exact Or.inl ⟨r', hr, rfl⟩
  | recordCompletedUpload x hx h =>
    rcases recordCompletedUpload_ok h with
      ⟨-, rfl⟩ | ⟨blobIds, blobs, manifestRow, row, db₂, -, hblobs, -, -, -, -, -, hfinal, rfl⟩
    · exact Or.inl ⟨r', hr, rfl⟩
    · rw [linkRearchive_frame, finalizeWinningSnapshot_frame hfinal] at hr
      rcases hblobs.origin r' hr with hold | ⟨-, ⟨r, hold, rfl⟩ | ⟨e, he, rfl⟩⟩
      · exact Or.inl ⟨r', hold, rfl⟩
      · exact Or.inl ⟨r, hold, rfl⟩
      · obtain ⟨hp, hid⟩ := List.of_mem_zip he
        refine Or.inr ⟨?_, x, e.1, e.2, x.now, hx, hp, rfl⟩
        simp [newBlobRow, hid]
  | recordDeletion x hx h =>
    obtain ⟨snapshot, manifest, -, ⟨-, rfl⟩ | ⟨-, -, -, rfl⟩⟩ := recordDeletion_ok h
    · exact Or.inl ⟨r', hr, rfl⟩
    · rw [foldl_scheduleOrClearBlobCandidate] at hr
      obtain ⟨r, hmem, rfl⟩ := List.mem_map.mp hr
      refine Or.inl ⟨r, hmem, ?_⟩
      split_ifs <;> rfl
  | collectBlobRow blobId nowSeq hstep h =>
    rcases collectBlobRow_ok h with ⟨-, rfl⟩ | ⟨row, -, -, -, ⟨-, -, rfl⟩ | ⟨hdel, -, -⟩⟩
    · exact Or.inl ⟨r', hr, rfl⟩
    · exact Or.inl (mem_updateWhere_clear hr)
    · exact absurd hdel hstep
  | recordIntegrity ids runs findings => exact Or.inl ⟨r', hr, rfl⟩

/-- No write removes a blob row. -/
theorem DbWrite.blob_kept (h : DbWrite c cfg mode t s ids acc db) {r : BlobRow}
    (hr : r ∈ s.db.blobs) : ∃ r' ∈ db.blobs, r'.fixed = r.fixed := by
  cases h with
  | registerClient clientId metadataJson now request h =>
    obtain ⟨clients, rfl, -⟩ := upsertClient_ok h
    exact ⟨r, hr, rfl⟩
  | persistUpload new hnew h =>
    rw [persistUpload_frame h]
    exact ⟨r, hr, rfl⟩
  | terminalizeUpload upload reason terminalAt hupload h =>
    rw [terminalizeUpload_frame h]
    exact ⟨r, hr, rfl⟩
  | persistChunkRecord uploadId i k sha256 acceptedAt body hartifact hdigest h =>
    rw [persistChunkRecord_frame h]
    exact ⟨r, hr, rfl⟩
  | setUploadStatus uploadId complete h =>
    obtain ⟨-, rfl⟩ := Prod.mk.inj (pure_eq_ok.mp h)
    exact ⟨r, hr, rfl⟩
  | finalizeUpload x snapshotId hx hsnapshot h =>
    rw [finalizeUpload_frame h]
    exact ⟨r, hr, rfl⟩
  | recordCompletedUpload x hx h =>
    rcases recordCompletedUpload_ok h with
      ⟨-, rfl⟩ | ⟨blobIds, blobs, manifestRow, row, db₂, -, hblobs, -, -, -, -, -, hfinal, rfl⟩
    · exact ⟨r, hr, rfl⟩
    · rw [linkRearchive_frame, finalizeWinningSnapshot_frame hfinal]
      exact hblobs.kept r hr
  | recordDeletion x hx h =>
    obtain ⟨snapshot, manifest, -, ⟨-, rfl⟩ | ⟨-, -, -, rfl⟩⟩ := recordDeletion_ok h
    · exact ⟨r, hr, rfl⟩
    · rw [foldl_scheduleOrClearBlobCandidate]
      refine ⟨_, List.mem_map.mpr ⟨r, hr, rfl⟩, ?_⟩
      split_ifs <;> rfl
  | collectBlobRow blobId nowSeq hstep h =>
    rcases collectBlobRow_ok h with ⟨-, rfl⟩ | ⟨row, -, -, -, ⟨-, -, rfl⟩ | ⟨hdel, -, -⟩⟩
    · exact ⟨r, hr, rfl⟩
    · refine ⟨_, mem_updateWhere.mpr ⟨r, hr, rfl⟩, ?_⟩
      split <;> rfl
    · exact absurd hdel hstep
  | recordIntegrity ids runs findings => exact ⟨r, hr, rfl⟩

/-- Every write keeps the unique keys. -/
theorem DbWrite.unique (h : DbWrite c cfg mode t s ids acc db) (hu : s.db.Unique) :
    db.Unique := by
  cases h with
  | registerClient clientId metadataJson now request h =>
    obtain ⟨clients, rfl, -⟩ := upsertClient_ok h
    exact { hu with }
  | persistUpload new hnew h => exact persistUpload_unique hu h
  | terminalizeUpload upload reason terminalAt hupload h => exact terminalizeUpload_unique hu h
  | persistChunkRecord uploadId i k sha256 acceptedAt body hartifact hdigest h =>
    exact persistChunkRecord_unique hu h
  | setUploadStatus uploadId complete h => exact setUploadStatus_unique hu h
  | finalizeUpload x snapshotId hx hsnapshot h => exact finalizeUpload_unique hu h
  | recordCompletedUpload x hx h => exact recordCompletedUpload_unique hu h
  | recordDeletion x hx h => exact recordDeletion_unique hu h
  | collectBlobRow blobId nowSeq hstep h => exact collectBlobRow_unique hu h
  | recordIntegrity ids runs findings => exact { hu with }

end Tables

/-! ## §4 — The discipline. -/

/-- Every key of a row has been generated by the service. -/
structure Db.Issued (db : Db) (used : List String) : Prop where
  uploads : ∀ r ∈ db.uploads, r.id ∈ used
  manifests : ∀ r ∈ db.manifests, r.uploadId ∈ used
  snapshots : ∀ r ∈ db.snapshots, r.id ∈ used
  blobs : ∀ r ∈ db.blobs, r.id ∈ used

/-- What an open collection will commit: the database without one blob row nothing refers to. -/
def Collects (db pending : Db) : Prop :=
  ∃ row ∈ db.blobs, (∀ a ∈ db.artifacts, a.blobId ≠ row.id) ∧
    pending = { db with blobs := db.blobs.filter fun r => decide (r.id ≠ row.id) }

/-- **`Shared.Inv`** — what holds between any two steps. -/
structure Shared.Inv (c : Crates) (s : Shared) : Prop where
  issuedOnce : UniqueOn Prod.fst s.issued
  used : ∀ id ∈ s.used, ∃ t, (id, t) ∈ s.issued
  issued : s.db.Issued s.used
  unique : s.db.Unique
  owned : ∀ r ∈ s.db.blobs, r.ownerNamespace = ownerNamespace
  chunks : ∀ r ∈ s.db.uploadChunks, ∃ e ∈ s.accepted, r.Accepts c e
  locksOnce : UniqueOn Prod.fst s.locks
  writer : ∀ t pending, s.writer = some (t, pending) → Collects s.db pending

theorem Shared.Inv.init (c : Crates) : Shared.init.Inv c where
  issuedOnce := UniqueOn.nil
  used := by simp [Shared.init]
  issued := by constructor <;> simp [Shared.init, Db.empty]
  unique := Db.Unique.empty
  owned := by simp [Shared.init, Db.empty]
  chunks := by simp [Shared.init, Db.empty]
  locksOnce := UniqueOn.nil
  writer := by simp [Shared.init]

section Invariant

variable {c : Crates} {cfg : Config} {mode : Mode} {t : TaskId} {s s' : Shared}
  {ids : List String} {acc : List AcceptedChunk} {db : Db}

theorem DbWrite.issued (h : DbWrite c cfg mode t s ids acc db) (hs : s.db.Issued s.used) :
    db.Issued (ids ++ s.used) where
  uploads := by
    intro r' hr'
    rcases h.upload_origin hr' with ⟨r, hr, hfixed⟩ | hid
    · rw [UploadRow.id_of_fixed hfixed]
      exact List.mem_append_right _ (hs.uploads r hr)
    · exact List.mem_append_left _ hid
  manifests := by
    intro m hm
    rcases h.manifest_origin hm with hold | ⟨-, hid, -⟩
    · exact List.mem_append_right _ (hs.manifests m hold)
    · exact List.mem_append_left _ hid
  snapshots := by
    intro r' hr'
    rcases h.snapshot_origin hr' with ⟨r, hr, heq, -⟩ | hid
    · rw [heq]
      exact List.mem_append_right _ (hs.snapshots r hr)
    · exact List.mem_append_left _ hid
  blobs := by
    intro r' hr'
    rcases h.blob_origin hr' with ⟨r, hr, hfixed⟩ | ⟨hid, -⟩
    · rw [(BlobRow.of_fixed hfixed).1]
      exact List.mem_append_right _ (hs.blobs r hr)
    · exact List.mem_append_left _ hid

/-- A write keeps the invariant. -/
theorem Shared.Inv.write (hs : s.Inv c) (hwriter : s.writer = none) (hids : Fresh t ids s)
    (h : DbWrite c cfg mode t s ids acc db) :
    Shared.Inv c { s with db := db, used := ids ++ s.used, accepted := acc ++ s.accepted } where
  issuedOnce := hs.issuedOnce
  used := by
    intro id hid
    rcases List.mem_append.mp hid with hid | hid
    · exact ⟨t, (hids.2 id hid).1⟩
    · exact hs.used id hid
  issued := h.issued hs.issued
  unique := h.unique hs.unique
  owned := by
    intro r' hr'
    rcases h.blob_origin hr' with ⟨r, hr, hfixed⟩ | ⟨-, x, p, newId, now, -, -, rfl⟩
    · exact (BlobRow.of_fixed hfixed).2.1.trans (hs.owned r hr)
    · rfl
  chunks := by
    intro r hr
    rcases h.chunk_origin hr with hold | ⟨e, he, haccepts⟩
    · obtain ⟨e, he, haccepts⟩ := hs.chunks r hold
      exact ⟨e, List.mem_append_right _ he, haccepts⟩
    · exact ⟨e, List.mem_append_left _ he, haccepts⟩
  locksOnce := hs.locksOnce
  writer := by
    intro t' pending hpending
    rw [hwriter] at hpending
    exact absurd hpending (by simp)

/-- What collection commits keeps the invariant. -/
theorem Shared.Inv.commit (hs : s.Inv c) (h : Collects s.db db) :
    Shared.Inv c { s with db := db, writer := none } := by
  obtain ⟨row, hrow, hfree, rfl⟩ := h
  exact
    { issuedOnce := hs.issuedOnce
      used := hs.used
      issued := { hs.issued with blobs := fun r hr => hs.issued.blobs r (List.mem_of_mem_filter hr)
        }
      unique := { hs.unique with
        blobs := hs.unique.blobs.filter _
        digests := hs.unique.digests.filter _ }
      owned := fun r hr => hs.owned r (List.mem_of_mem_filter hr)
      chunks := hs.chunks
      locksOnce := hs.locksOnce
      writer := fun _ _ hpending => by simp at hpending }

/-- **`Shared.Inv.step`** — every step keeps the invariant. -/
theorem Shared.Inv.step (hs : s.Inv c) (h : SysStep c cfg mode t s s') : s'.Inv c := by
  cases h with
  | refl => exact hs
  | issue id hv7 hfresh =>
    refine { hs with issuedOnce := ?_, used := fun x hx => ?_ }
    · exact List.nodup_cons.mpr ⟨hfresh, hs.issuedOnce⟩
    · obtain ⟨t', ht'⟩ := hs.used x hx
      exact ⟨t', List.mem_cons_of_mem _ ht'⟩
  | acquire l hfree =>
    refine { hs with locksOnce := List.nodup_cons.mpr ⟨fun hmem => ?_, hs.locksOnce⟩ }
    obtain ⟨h, hh, hl⟩ := List.mem_map.mp hmem
    have hne := List.all_eq_true.mp hfree h hh
    simp only [decide_eq_true_eq] at hne
    exact hne hl
  | release dropped => exact { hs with locksOnce := hs.locksOnce.filter _ }
  | cleanup =>
    refine { hs with locksOnce := hs.locksOnce.filter _, writer := fun t' pending h => ?_ }
    exact hs.writer t' pending (Option.filter_eq_some_iff.mp h).1
  | reconcile rs h => exact { hs with }
  | write hwriter hids h => exact hs.write hwriter hids h
  | beginCollect blobId nowSeq hwriter hlock h =>
    refine { hs with writer := fun t' pending hpending => ?_ }
    obtain ⟨-, rfl⟩ := Prod.mk.inj (Option.some.inj hpending)
    rcases collectBlobRow_ok h with ⟨hstep, -⟩ | ⟨row, hrow, -, -, hcase⟩
    · simp at hstep
    · rcases hcase with ⟨hstep, -⟩ | ⟨-, hfree, hdb⟩
      · simp at hstep
      · exact ⟨row, hrow, hfree, hdb⟩
  | commitCollect hwriter => exact hs.commit (hs.writer _ _ hwriter)
  | rollback hwriter =>
    refine { hs with writer := fun _ _ hpending => ?_ }
    simp at hpending
  | files h horderly => exact { hs with }

end Invariant

/-- A task that ends holds no lock and has no open transaction. -/
theorem SysStep.idle_cleanup (t : TaskId) (s : Shared) :
    (∀ l, ¬ Holds t l (s.cleanup t)) ∧ ∀ db, (s.cleanup t).writer ≠ some (t, db) := by
  constructor
  · intro l hl
    have hne := List.of_mem_filter hl
    simp at hne
  · intro db hw
    have hne := (Option.filter_eq_some_iff.mp hw).2
    simp at hne

/-- A task takes a lock for itself only. -/
theorem SysStep.holds_of_other {c : Crates} {cfg : Config} {mode : Mode} {t t' : TaskId}
    {s s' : Shared} (h : SysStep c cfg mode t' s s') (hne : t' ≠ t) {l : Lock}
    (hl : Holds t l s') : Holds t l s := by
  cases h with
  | acquire l' hfree =>
    rcases List.mem_cons.mp hl with heq | hold
    · exact absurd (Prod.mk.inj heq).2.symm hne
    · exact hold
  | release dropped => exact List.mem_of_mem_filter hl
  | cleanup => exact List.mem_of_mem_filter hl
  | _ => exact hl

/-- So does it open a transaction. -/
theorem SysStep.writer_of_other {c : Crates} {cfg : Config} {mode : Mode} {t t' : TaskId}
    {s s' : Shared} (h : SysStep c cfg mode t' s s') (hne : t' ≠ t) {db : Db}
    (hw : s'.writer = some (t, db)) : s.writer = some (t, db) := by
  cases h with
  | cleanup => exact (Option.filter_eq_some_iff.mp hw).1
  | beginCollect blobId nowSeq hwriter hlock h =>
    exact absurd (Prod.mk.inj (Option.some.inj hw)).1 hne
  | commitCollect => exact nomatch hw
  | rollback => exact nomatch hw
  | _ => exact hw

/-- **`discipline`** — the invariant and the steps, in the runs that meet the mode. -/
def discipline : Discipline system where
  inv := Shared.Inv c
  guar := SysStep c cfg mode
  stepOk t label e _ _ := label = .clock → mode.readings t e.now
  detachOk label :=
    (mode.links → label ≠ .linkBlobFile) ∧ (mode.removals → label ≠ .removeBlobFile)
  idle t s := (∀ l, ¬ Holds t l s) ∧ ∀ db, s.writer ≠ some (t, db)
  inv_step := Shared.Inv.step
  guar_cleanup _ _ := .cleanup
  idle_cleanup := SysStep.idle_cleanup
  idle_stable hne _ hstep hidle :=
    ⟨fun l hl => hidle.1 l (hstep.holds_of_other hne hl),
      fun db hw => hidle.2 db (hstep.writer_of_other hne hw)⟩

/-! ## §5 — What outlives a step. -/

section Persistence

variable {c : Crates} {cfg : Config} {mode : Mode} {t : TaskId} {s s' : Shared}

theorem issued_persistent (id : String) (t₀ : TaskId) :
    (discipline c cfg mode).Persistent fun s => (id, t₀) ∈ s.issued := by
  intro t s s' _ hstep h
  cases hstep with
  | issue id' hv7 hfresh => exact List.mem_cons_of_mem _ h
  | _ => exact h

theorem accepted_persistent (e : AcceptedChunk) :
    (discipline c cfg mode).Persistent fun s => e ∈ s.accepted := by
  intro t s s' _ hstep h
  cases hstep with
  | write hwriter hids hw => exact List.mem_append_right _ h
  | _ => exact h

/-- A generated identifier that keys a row is no longer fresh. -/
theorem Fresh.not_used {ids : List String} (h : Fresh t ids s) {id : String} (hid : id ∈ ids) :
    id ∉ s.used := (h.2 id hid).2

/-- What is known of the rows of an identifier in use outlives every step, when it outlives the
writes that give out other identifiers and the collection of a blob. -/
theorem known_persistent {id : String} {P : Db → Prop}
    (hwrite : ∀ {t s ids acc db}, DbWrite c cfg mode t s ids acc db → id ∉ ids → P s.db → P db)
    (hcollect : ∀ {db pending}, Collects db pending → P db → P pending) :
    (discipline c cfg mode).Persistent fun s => id ∈ s.used ∧ P s.db := by
  intro t s s' hinv hstep h
  cases hstep with
  | write hwriter hids hw =>
    refine ⟨List.mem_append_right _ h.1, hwrite hw (fun hid => ?_) h.2⟩
    exact hids.not_used hid h.1
  | commitCollect hwriter => exact ⟨h.1, hcollect (hinv.writer _ _ hwriter) h.2⟩
  | _ => exact h

theorem UploadKnown.persistent (u : UploadRow) :
    (discipline c cfg mode).Persistent (UploadKnown u) := by
  refine known_persistent (P := fun db => ∀ r ∈ db.uploads, r.id = u.id → r.fixed = u.fixed)
    (fun hw hother h r' hr' hid => ?_) ?_
  · rcases hw.upload_origin hr' with ⟨r, hr, hfixed⟩ | hnew
    · rw [hfixed]
      exact h r hr ((UploadRow.id_of_fixed hfixed).symm.trans hid)
    · exact absurd (hid ▸ hnew) hother
  · rintro _ _ ⟨row, -, -, rfl⟩ h
    exact h

theorem ManifestKnown.persistent (m : ManifestRow) :
    (discipline c cfg mode).Persistent (ManifestKnown m) := by
  refine known_persistent (P := fun db => ∀ r ∈ db.manifests, r.uploadId = m.uploadId → r = m)
    (fun hw hother h r' hr' hid => ?_) ?_
  · rcases hw.manifest_origin hr' with hold | ⟨-, hnew, -⟩
    · exact h r' hold hid
    · exact absurd (hid ▸ hnew) hother
  · rintro _ _ ⟨row, -, -, rfl⟩ h
    exact h

theorem ArtifactKnown.persistent (uploadId : String) (artifactIndex : ℤ) :
    (discipline c cfg mode).Persistent (ArtifactKnown uploadId artifactIndex) := by
  refine known_persistent (P := fun db => ∀ r ∈ db.uploads, r.id = uploadId →
    ∃ a ∈ db.uploadArtifacts, a.uploadId = uploadId ∧ a.artifactIndex = artifactIndex)
    (fun hw hother h r' hr' hid => ?_) ?_
  · rcases hw.upload_origin hr' with ⟨r, hr, hfixed⟩ | hnew
    · have hrid : r.id = uploadId := (UploadRow.id_of_fixed hfixed).symm.trans hid
      obtain ⟨a, ha, haid, hindex⟩ := h r hr hrid
      exact ⟨a, hw.uploadArtifact_kept hr' ha (haid.trans hid.symm), haid, hindex⟩
    · exact absurd (hid ▸ hnew) hother
  · rintro _ _ ⟨row, -, -, rfl⟩ h
    exact h

theorem SnapshotKnown.persistent (snapshotId sessionId fingerprint : String) :
    (discipline c cfg mode).Persistent (SnapshotKnown snapshotId sessionId fingerprint) := by
  refine known_persistent (P := fun db => ∀ r ∈ db.snapshots, r.id = snapshotId →
    r.sessionId = sessionId ∧ r.fingerprintSha256 = fingerprint)
    (fun hw hother h r' hr' hid => ?_) ?_
  · rcases hw.snapshot_origin hr' with ⟨r, hr, heq, -⟩ | hnew
    · rw [heq] at hid ⊢
      exact h r hr hid
    · exact absurd (hid ▸ hnew) hother
  · rintro _ _ ⟨row, -, -, rfl⟩ h
    exact h

theorem BlobKnown.persistent (blobId storedSha256 : String) :
    (discipline c cfg mode).Persistent (BlobKnown blobId storedSha256) := by
  refine known_persistent
    (P := fun db => ∀ r ∈ db.blobs, r.id = blobId → r.storedSha256 = storedSha256)
    (fun hw hother h r' hr' hid => ?_) ?_
  · rcases hw.blob_origin hr' with ⟨r, hr, hfixed⟩ | ⟨hnew, -⟩
    · obtain ⟨hrid, -, hsha, -⟩ := BlobRow.of_fixed hfixed
      exact hsha.trans (h r hr (hrid.symm.trans hid))
    · exact absurd (hid ▸ hnew) hother
  · rintro _ _ ⟨row, -, -, rfl⟩ h
    exact fun r hr => h r (List.mem_of_mem_filter hr)

theorem ChunkAccepted.persistent (uploadId : String) (artifactIndex chunkIndex : ℤ)
    (bytes : Bytes) : (discipline c cfg mode).Persistent
      (ChunkAccepted c uploadId artifactIndex chunkIndex bytes) := by
  rintro t s s' hinv hstep ⟨e, he, hrest⟩
  exact ⟨e, accepted_persistent e t s s' hinv hstep he, hrest⟩

theorem Assembled.persistent (upload : UploadRow) (p : PreparedArtifact) :
    (discipline c cfg mode).Persistent (Assembled c upload p) := by
  rintro t s s' hinv hstep ⟨pieces, hverify, hcount, hpieces⟩
  refine ⟨pieces, hverify, hcount, fun k piece hk => ?_⟩
  exact ChunkAccepted.persistent _ _ _ _ t s s' hinv hstep (hpieces k piece hk)

theorem CompletingOk.persistent (x : Completing) :
    (discipline c cfg mode).Persistent (CompletingOk c x) := by
  rintro t s s' hinv hstep ⟨hupload, ⟨m, hm, hid, hparse⟩, htime⟩
  exact ⟨UploadKnown.persistent _ t s s' hinv hstep hupload,
    ⟨m, ManifestKnown.persistent m t s s' hinv hstep hm, hid, hparse⟩, htime⟩

/-- Two tasks do not hold one lock. -/
theorem Holds.unique (hinv : s.Inv c) {t' : TaskId} {l : Lock} (h : Holds t l s)
    (h' : Holds t' l s) : t' = t :=
  congrArg Prod.snd (hinv.locksOnce.eq_of_mem h' h rfl)

/-- One identifier was not generated for two tasks. -/
theorem issued_unique (hinv : s.Inv c) {t' : TaskId} {id : String} (h : (id, t) ∈ s.issued)
    (h' : (id, t') ∈ s.issued) : t' = t :=
  congrArg Prod.snd (hinv.issuedOnce.eq_of_mem h' h rfl)

theorem Holds.stable (l : Lock) : (discipline c cfg mode).Stable t (Holds t l) := by
  intro s s' t' hne hinv hstep h
  cases hstep with
  | acquire l' hfree => exact List.mem_cons_of_mem _ h
  | release dropped =>
    refine List.mem_filter.mpr ⟨h, ?_⟩
    simp [hne.symm]
  | cleanup =>
    refine List.mem_filter.mpr ⟨h, ?_⟩
    simp [hne.symm]
  | _ => exact h

theorem Fresh.stable (ids : List String) :
    (discipline c cfg mode).Stable t (Fresh t ids) := by
  intro s s' t' hne hinv hstep h
  refine ⟨h.1, fun id hid => ⟨?_, ?_⟩⟩
  · exact issued_persistent id t t' s s' hinv hstep (h.2 id hid).1
  · cases hstep with
    | write hwriter hids hw =>
      intro hmem
      rcases List.mem_append.mp hmem with hmem | hmem
      · exact hne (issued_unique hinv (h.2 id hid).1 (hids.2 id hmem).1)
      · exact h.not_used hid hmem
    | _ => exact h.not_used hid

/-- An open write transaction stays open while its task waits. -/
theorem writer_stable (pending : Db) :
    (discipline c cfg mode).Stable t fun s => s.writer = some (t, pending) := by
  intro s s' t' hne hinv hstep h
  cases hstep with
  | cleanup =>
    show s.writer.filter _ = _
    rw [h]
    simp [hne.symm]
  | write hwriter hids hw => simp [h] at hwriter
  | beginCollect blobId nowSeq hwriter hlock hcollect => simp [h] at hwriter
  | commitCollect hwriter =>
    rw [h] at hwriter
    simp only [Option.some.injEq, Prod.mk.injEq] at hwriter
    exact absurd hwriter.1.symm hne
  | rollback hwriter =>
    rw [h] at hwriter
    simp only [Option.some.injEq, Prod.mk.injEq] at hwriter
    exact absurd hwriter.1.symm hne
  | _ => exact h

/-- While a task holds the lock of a digest, no other task removes its file. -/
theorem blobFile_stable (hmode : mode.removals) (d : String) :
    (discipline c cfg mode).Stable t fun s =>
      Holds t (blobLock d) s ∧ s.fs.lookup (blobPath d) ≠ none := by
  intro s s' t' hne hinv hstep h
  refine ⟨Holds.stable _ s s' t' hne hinv hstep h.1, ?_⟩
  cases hstep with
  | files hwrite horderly =>
    cases hwrite with
    | upload hfs =>
      rcases hfs (blobPath d) with heq | ⟨hup, -⟩
      · rw [heq]
        exact h.2
      · simp at hup
    | blobDirs hfs =>
      rcases hfs (blobPath d) with heq | ⟨hnone, -⟩
      · rw [heq]
        exact h.2
      · exact absurd hnone h.2
    | link d' bytes hlock hnone hdigest hfs =>
      rw [hfs]
      split
      · simp
      · exact h.2
    | unlink d' hlock hfs =>
      rw [hfs]
      split
      · next heq =>
        obtain rfl := blobPath_injective heq
        exact absurd (h.1.unique hinv (hlock hmode).1) hne
      · exact h.2
  | _ => exact h.2

/-- While a task holds the lock of a digest, no other task makes a blob row for it. -/
theorem noBlob_stable (d : String) :
    (discipline c cfg mode).Stable t fun s =>
      Holds t (blobLock d) s ∧ ∀ r ∈ s.db.blobs, r.storedSha256 ≠ d := by
  intro s s' t' hne hinv hstep h
  refine ⟨Holds.stable _ s s' t' hne hinv hstep h.1, ?_⟩
  cases hstep with
  | write hwriter hids hw =>
    intro r' hr'
    rcases hw.blob_origin hr' with ⟨r, hr, hfixed⟩ | ⟨-, x, p, newId, now, hx, hp, rfl⟩
    · rw [(BlobRow.of_fixed hfixed).2.2.1]
      exact h.2 r hr
    · rintro rfl
      exact hne (h.1.unique hinv (hx.locks p hp))
  | commitCollect hwriter =>
    obtain ⟨row, -, -, rfl⟩ := hinv.writer _ _ hwriter
    exact fun r hr => h.2 r (List.mem_of_mem_filter hr)
  | _ => exact h.2

/-- A file under a name generated for the task is `bytes`, or gone. -/
def Sealed (t : TaskId) (path : FilePath) (bytes : Bytes) (s : Shared) : Prop :=
  (∃ u i uuid, path = .assembledArtifact u i uuid ∧ (uuid, t) ∈ s.issued) ∧
    (s.fs.lookup path = none ∨ s.fs.lookup path = some (.file bytes))

theorem Sealed.stable (path : FilePath) (bytes : Bytes) :
    (discipline c cfg mode).Stable t (Sealed t path bytes) := by
  rintro s s' t' hne hinv hstep ⟨⟨u, i, uuid, rfl, huuid⟩, hfile⟩
  refine ⟨⟨u, i, uuid, rfl, issued_persistent uuid t t' s s' hinv hstep huuid⟩, ?_⟩
  cases hstep with
  | files hwrite horderly =>
    cases hwrite with
    | upload hfs =>
      rcases hfs (.assembledArtifact u i uuid) with heq | ⟨-, hnone | hcreate⟩
      · rw [heq]
        exact hfile
      · exact Or.inl hnone
      · exact absurd (issued_unique hinv huuid hcreate) hne
    | blobDirs hfs =>
      rcases hfs (.assembledArtifact u i uuid) with heq | ⟨-, -, hdir⟩
      · rw [heq]
        exact hfile
      · rcases hdir with hdir | ⟨d, hdir⟩ <;> simp at hdir
    | link d bytes' hlock hnone hdigest hfs =>
      rw [hfs, if_neg (by simp [blobPath])]
      exact hfile
    | unlink d hlock hfs =>
      rw [hfs, if_neg (by simp [blobPath])]
      exact hfile
  | _ => exact hfile

end Persistence

end Patwari
