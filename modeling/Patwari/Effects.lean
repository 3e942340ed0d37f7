/-
# Patwari.Effects — what the database is after a step.

A write transaction can end in several ways, some of them impossible in a database the service has
made. §1 is the invariant that excludes those: a capture belongs to an upload that is completed with
its snapshot. §2 is `Effect`, the ways that are left, each with the new database written out as the
old one and the changed tables, and what the transaction has checked. §3 shows that a step has one
of these effects or changes no row, and §4 is the rule for invariants of the database: what every
effect keeps holds in every state a run of the server reaches.
-/
import Patwari.ServerSafety

namespace Patwari

open Lib (TaskId Discipline UniqueOn updateWhere mem_updateWhere)

variable {c : Crates} {cfg : Config} {mode : Mode} {t : TaskId} {s s' : Shared}
  {ids : List String} {acc : List AcceptedChunk} {db : Db}

/-! ## §1 — Captures and completed uploads. -/

/-- A capture stands for the completion of its upload, and a completed upload for a snapshot whose
identifier was generated. -/
structure Db.Completed (db : Db) (used : List String) : Prop where
  captures : ∀ r ∈ db.captures, ∃ u ∈ db.uploads, u.id = r.uploadId ∧ u.status = .completed ∧
    u.snapshotId = some r.snapshotId
  snapshots : ∀ u ∈ db.uploads, ∀ id, u.snapshotId = some id → id ∈ used

theorem UploadRowStatus.active_iff {status : UploadRowStatus} :
    status.active = true ↔ status ≠ .completed := decide_eq_true_iff

theorem Db.uploadActive_iff {uploadId : String} :
    db.uploadActive uploadId = true ↔
      ∃ u ∈ db.uploads, u.id = uploadId ∧ u.status ≠ .completed := by
  simp [Db.uploadActive, UploadRowStatus.active_iff]

/-! ## §2 — Effects. -/

/-- The session of a new upload is the row of its source, touched, or a new one. -/
inductive SessionFor (new : NewUpload) (db : Db) : String → List SessionRow → Prop
  | found (row : SessionRow) (h : db.sessionOfSource new.manifest.session = some row) :
      SessionFor new db row.id
        (updateWhere (fun r => decide (r.id = row.id)) (fun r => { r with updatedAt := new.now })
          db.sessions)
  | added (h : db.sessionOfSource new.manifest.session = none)
      (hfresh : db.session new.sessionId = none) :
      SessionFor new db new.sessionId (db.sessions ++ [newSessionRow new])

/-- The upload rows once the active one with this identifier is completed. -/
def completedUploads (x : Completing) (snapshotId : String) (newlyPersistedBytes : ℤ)
    (uploads : List UploadRow) : List UploadRow :=
  updateWhere (fun r => decide (r.id = x.upload.id) && r.status.active)
    (fun r => r.complete snapshotId x.now x.transferBytes newlyPersistedBytes) uploads

/-- The tombstones once the newest one of a new snapshot is linked to it. -/
def linkedTombstones (snapshotId : String) (prior : Option TombstoneRow)
    (tombstones : List TombstoneRow) : List TombstoneRow :=
  match prior with
  | none => tombstones
  | some tombstone =>
    updateWhere (fun r => decide (r.id = tombstone.id ∧ r.rearchivedSnapshotId = none))
      (fun r => { r with rearchivedSnapshotId := some snapshotId }) tombstones

theorem linkRearchive_eq (snapshotId : String) (prior : Option TombstoneRow) (db : Db) :
    linkRearchive snapshotId prior db =
      { db with tombstones := linkedTombstones snapshotId prior db.tombstones } := by
  cases prior <;> rfl

/-- An upload that a completion finds active, with the manifest it has verified, and no capture. -/
structure Attaching (c : Crates) (x : Completing) (manifestRow : ManifestRow) (db : Db) : Prop where
  upload : ∃ u ∈ db.uploads, u.status ≠ .completed ∧ u.fixed = x.upload.fixed
  manifest : manifestRow ∈ db.manifests
  manifestUpload : manifestRow.uploadId = x.upload.id
  parsed : parseManifest c manifestRow.canonicalJson = some x.manifest
  captures : ∀ r ∈ db.captures, r.uploadId ≠ x.upload.id ∧ r.id ≠ x.captureId ∧
    ¬ (r.ownerNamespace = ownerNamespace ∧ r.clientId = x.upload.clientId ∧
      r.captureId = x.upload.captureId)

/-- **`Effect`** — the database a write transaction leaves, with the identifiers that became keys of
rows. -/
inductive Effect (c : Crates) (cfg : Config) (mode : Mode) (t : TaskId) (s : Shared) :
    List String → Db → Prop
  | unchanged (ids : List String) : Effect c cfg mode t s ids s.db
  | clients (clients : List ClientRow) : Effect c cfg mode t s [] { s.db with clients := clients }
  | integrity (ids : List String) (runs : List IntegrityRunRow)
      (findings : List IntegrityFindingRow) :
      Effect c cfg mode t s ids
        { s.db with integrityRuns := runs, integrityFindings := findings }
  /-- The capture identity is bound to an upload already. -/
  | repeated (new : NewUpload) (existing : UploadRow) {sessionId : String}
      {sessions : List SessionRow} (hnew : NewUploadOk c cfg new)
      (hsession : SessionFor new s.db sessionId sessions)
      (hexisting : s.db.uploadByCapture new.clientId new.captureId = some existing)
      (hsame : existing.manifestSha256 = manifestDigest c new.manifest ∨
        legacyManifestEquivalent c existing.id (manifestDigest c new.manifest) s.db = .ok true) :
      Effect c cfg mode t s [new.sessionId, new.uploadId, new.manifestId]
        { s.db with sessions := sessions }
  | created (new : NewUpload) (row : UploadRow) {sessionId : String} {sessions : List SessionRow}
      {rows : List UploadArtifactRow} (hnew : NewUploadOk c cfg new)
      (hsession : SessionFor new s.db sessionId sessions)
      (hreuse : ensureTerminalCaptureReuseIsEquivalent c new s.db = .ok ())
      (hfree : s.db.uploadByCapture new.clientId new.captureId = none)
      (hfresh : s.db.upload new.uploadId = none)
      (hrow : newUploadRow c cfg new sessionId = .ok row)
      (hrows : uploadArtifactRows new.uploadId
        (new.manifest.artifacts.zip new.layout.chunkCounts) 0 = .ok rows) :
      Effect c cfg mode t s [new.sessionId, new.uploadId, new.manifestId]
        { s.db with
          sessions := sessions
          uploads := s.db.uploads ++ [row]
          manifests := s.db.manifests ++ [newManifestRow c new]
          uploadArtifacts := s.db.uploadArtifacts ++ rows }
  | ended (upload current : UploadRow) (reason : TerminalReason) (terminalAt : String)
      (hmem : current ∈ s.db.uploads) (hfixed : current.fixed = upload.fixed)
      (hactive : current.status ≠ .completed)
      (hfree : s.db.uploadReferenced upload.id = false) :
      Effect c cfg mode t s [] (endUpload upload reason terminalAt s.db)
  | chunk (row : UploadChunkRow) (current : UploadRow) (hmem : current ∈ s.db.uploads)
      (hid : current.id = row.uploadId) (hactive : current.status ≠ .completed) :
      Effect c cfg mode t s [] { s.db with uploadChunks := s.db.uploadChunks ++ [row] }
  | status (uploadId : String) (complete : Bool) :
      Effect c cfg mode t s []
        { s.db with
          uploads := updateWhere (fun r => decide (r.id = uploadId) && r.status.active)
            (fun r => { r with status := if complete then .artifactUploaded else .created })
            s.db.uploads }
  /-- A capture of a snapshot that is there. -/
  | attached (x : Completing) (snapshot : SnapshotRow) (manifestRow : ManifestRow)
      {contextSeq seq : ℤ} {contexts : List SessionLatestContextRow} (hx : CompletingOk c x s)
      (hattach : Attaching c x manifestRow s.db)
      (hsnapshot : snapshot ∈ s.db.snapshots) (hlive : snapshot.live = true)
      (hsession : snapshot.sessionId = x.upload.sessionId)
      (hfingerprint : snapshot.fingerprintSha256 = snapshotFingerprint c x.manifest)
      (hseq : sortKeyFromRfc3339 c x.now = some seq)
      (hcontextSeq : sortKeyFromRfc3339 c snapshot.completedAt = some contextSeq)
      (hcontexts : ContextMaintained
        (contextRow x.upload.sessionId snapshot.id snapshot.completedAt contextSeq x.manifest)
        s.db.sessionLatestContext contexts) :
      Effect c cfg mode t s [x.captureId]
        { s.db with
          uploads := completedUploads x snapshot.id 0 s.db.uploads
          captures := s.db.captures ++ [captureRow x.captureId x.upload x.manifest manifestRow.id
            snapshot.id x.now seq]
          sessionLatestContext := contexts }
  /-- A new snapshot. -/
  | recorded (x : CompletionRecord) (row : SnapshotRow) (manifestRow : ManifestRow)
      (blobIds : List (String × String)) {blobs : List BlobRow} {rows : List ArtifactRow}
      {contexts : List SessionLatestContextRow} (hx : RecordOk c mode t x s)
      (hattach : Attaching c x.toCompleting manifestRow s.db)
      (hblobs : BlobsRecorded x.now (x.prepared.zip x.blobIds) s.db.blobs blobs blobIds)
      (hrow : snapshotRow x manifestRow.id
        (s.db.priorTombstone x.upload.sessionId x.fingerprint) = .ok row)
      (hfresh : s.db.snapshot x.snapshotId = none)
      (hfree : s.db.liveSnapshot x.upload.sessionId x.fingerprint = none)
      (hrows : (x.prepared.zip x.artifactIds).mapM (fun e =>
        artifactRow x.snapshotId x.now x.nowSeq blobIds e.1 e.2) = .ok rows)
      (hcontexts : ContextMaintained
        (contextRow x.upload.sessionId x.snapshotId x.now x.nowSeq x.manifest)
        s.db.sessionLatestContext contexts) :
      Effect c cfg mode t s (x.snapshotId :: x.captureId :: (x.blobIds ++ x.artifactIds))
        { s.db with
          blobs := blobs
          snapshots := s.db.snapshots ++ [row]
          artifacts := s.db.artifacts ++ rows
          uploads := completedUploads x.toCompleting x.snapshotId x.newlyPersistedBytes s.db.uploads
          captures := s.db.captures ++ [captureRow x.captureId x.upload x.manifest manifestRow.id
            x.snapshotId x.now x.nowSeq]
          sessionLatestContext := contexts
          tombstones := linkedTombstones x.snapshotId
            (s.db.priorTombstone x.upload.sessionId x.fingerprint) s.db.tombstones }
  | deleted (x : DeletionRecord) (snapshot : SnapshotRow) (manifest : ManifestRow)
      (hx : DeletionOk c cfg x)
      (hrow : s.db.snapshotDeletionRow x.snapshotId = some (snapshot, manifest))
      (hlive : snapshot.live = true) (hfresh : s.db.deletionRecorded x = false) :
      Effect c cfg mode t s [x.tombstoneId, x.auditId]
        (rebuildSessionLatestContext snapshot.sessionId
          (((s.db.artifactBlobs x.snapshotId).map BlobRow.id).foldl
            (scheduleOrClearBlobCandidate x) (markDeleted x snapshot manifest s.db)))
  /-- Garbage collection finds a candidate with a live reference. -/
  | cleared (row : BlobRow) (nowSeq : ℤ) (hmem : row ∈ s.db.blobs)
      (heligible : row.eligible nowSeq = true) (hlive : s.db.hasLiveReference row.id = true) :
      Effect c cfg mode t s []
        { s.db with
          blobs := updateWhere (fun r => decide (r.id = row.id)) BlobRow.clearCandidate s.db.blobs }

/-! ## §3 — Every write has an effect. -/

/-- What both completing transactions have in common: the capture is new. -/
theorem insertCaptureProvenance_new {x : Completing} {manifestId snapshotId : String} {db' : Db}
    (h : insertCaptureProvenance c x.captureId x.upload x.manifest manifestId snapshotId x.now db =
      .ok db') (hcaptures : ∀ r ∈ db.captures, r.uploadId ≠ x.upload.id) :
    ∃ seq snapshot contextSeq contexts, sortKeyFromRfc3339 c x.now = some seq ∧
      (∀ r ∈ db.captures, r.uploadId ≠ x.upload.id ∧ r.id ≠ x.captureId ∧
        ¬ (r.ownerNamespace = ownerNamespace ∧ r.clientId = x.upload.clientId ∧
          r.captureId = x.upload.captureId)) ∧
      db.snapshot snapshotId = some snapshot ∧ snapshot.live = true ∧
      sortKeyFromRfc3339 c snapshot.completedAt = some contextSeq ∧
      ContextMaintained
        (contextRow x.upload.sessionId snapshotId snapshot.completedAt contextSeq x.manifest)
        db.sessionLatestContext contexts ∧
      db' = { db with
        captures := db.captures ++
          [captureRow x.captureId x.upload x.manifest manifestId snapshotId x.now seq]
        sessionLatestContext := contexts } := by
  obtain ⟨seq, db₁, hseq, -, hcase, hmaintain⟩ := insertCaptureProvenance_ok h
  obtain ⟨snapshot, contextSeq, contexts, hsnapshot, hlive, hcontextSeq, -, hcontexts, rfl⟩ :=
    maintainSessionLatestContext_ok hmaintain
  rcases hcase with ⟨existing, hmem, hid, -, -⟩ | ⟨hfresh, rfl⟩
  · exact absurd hid (hcaptures existing hmem)
  · exact ⟨seq, snapshot, contextSeq, contexts, hseq, hfresh, hsnapshot, hlive, hcontextSeq,
      hcontexts, rfl⟩

/-- An active upload has no capture. -/
theorem Db.Completed.no_capture (h : s.db.Completed s.used) (hinv : s.Inv c) {uploadId : String}
    (hactive : s.db.uploadActive uploadId = true) :
    ∀ r ∈ s.db.captures, r.uploadId ≠ uploadId := by
  intro r hr hid
  obtain ⟨u, hu, huid, hcompleted, -⟩ := h.captures r hr
  obtain ⟨v, hv, hvid, hvactive⟩ := Db.uploadActive_iff.mp hactive
  have hsame : u = v := hinv.unique.uploads.eq_of_mem hu hv (by rw [huid, hid, hvid])
  rw [hsame] at hcompleted
  exact hvactive hcompleted

/-- What a completion has verified still describes the active upload it finds. -/
theorem CompletingOk.attaching {x : Completing} (hx : CompletingOk c x s)
    (hactive : s.db.uploadActive x.upload.id = true) {manifestRow : ManifestRow}
    (hmanifest : s.db.manifestOfUpload x.upload.id = some manifestRow)
    (hcaptures : ∀ r ∈ s.db.captures, r.uploadId ≠ x.upload.id ∧ r.id ≠ x.captureId ∧
      ¬ (r.ownerNamespace = ownerNamespace ∧ r.clientId = x.upload.clientId ∧
        r.captureId = x.upload.captureId)) : Attaching c x manifestRow s.db := by
  obtain ⟨u, hu, huid, hstatus⟩ := Db.uploadActive_iff.mp hactive
  obtain ⟨m, hm, hmid, hparse⟩ := hx.manifest
  have hmem : manifestRow ∈ s.db.manifests := List.mem_of_find?_eq_some hmanifest
  have hid : manifestRow.uploadId = x.upload.id := by simpa using List.find?_some hmanifest
  have hsame : manifestRow = m := hm.2 manifestRow hmem (hid.trans hmid.symm)
  exact ⟨⟨u, hu, hstatus, hx.upload.2 u hu huid⟩, hmem, hid, hsame ▸ hparse, hcaptures⟩

theorem sessionFor_of_ok {new : NewUpload} {sessionId : String}
    (h : getOrCreateSession new s.db = .ok (sessionId, db)) :
    SessionFor new s.db sessionId db.sessions ∧ db = { s.db with sessions := db.sessions } := by
  rcases (getOrCreateSession_ok h).2 with ⟨row, hrow, rfl, rfl⟩ | ⟨hnone, hfresh, rfl, rfl⟩
  · exact ⟨.found row hrow, rfl⟩
  · exact ⟨.added hnone hfresh, rfl⟩

/-- **`DbWrite.effect`** — what a write transaction of a task leaves is one of the effects. -/
theorem DbWrite.effect (h : DbWrite c cfg mode t s ids acc db) (hinv : s.Inv c)
    (hcompleted : s.db.Completed s.used) (hids : Fresh t ids s) : Effect c cfg mode t s ids db := by
  cases h with
  | registerClient clientId metadataJson now request h =>
    obtain ⟨clients, rfl, -⟩ := upsertClient_ok h
    exact .clients clients
  | persistUpload new hnew h =>
    obtain ⟨sessionId, db₁, hsession, hreuse, hcase⟩ := persistUpload_ok h
    obtain ⟨hfor, hdb₁⟩ := sessionFor_of_ok hsession
    rw [hdb₁] at hreuse hcase
    rcases hcase with ⟨existing, hexisting, hsame, -, rfl⟩ | ⟨hfree, hfresh, -, row, hrow, hdetail⟩
    · exact .repeated new existing hnew hfor hexisting hsame
    · obtain ⟨rows, hrows, -, rfl, -⟩ := persistNewUploadDetail_ok hdetail
      exact .created new row hnew hfor hreuse hfree hfresh hrow hrows
  | terminalizeUpload upload reason terminalAt hupload h =>
    rcases terminalizeUpload_ok h with ⟨-, -, rfl⟩ | ⟨current, hcurrent, hactive, hfree, -, rfl⟩
    · exact .unchanged []
    · obtain ⟨hmem, hid⟩ := Db.upload_some hcurrent
      exact .ended upload current reason terminalAt hmem (hupload.2 current hmem hid) hactive hfree
  | persistChunkRecord uploadId i k sha256 acceptedAt body hartifact hdigest h =>
    obtain ⟨⟨current, hcurrent, hactive⟩, hcase⟩ := persistChunkRecord_ok h
    obtain ⟨hmem, hid⟩ := Db.upload_some hcurrent
    rcases hcase with ⟨-, rfl⟩ | ⟨-, -, -, -, rfl⟩
    · exact .chunk _ current hmem hid (UploadRowStatus.active_iff.mp hactive)
    · exact .unchanged []
  | setUploadStatus uploadId complete h =>
    obtain ⟨-, rfl⟩ := Prod.mk.inj (pure_eq_ok.mp h)
    exact .status uploadId complete
  | finalizeUpload x snapshotId hx hsnapshot h =>
    rcases (finalizeUpload_ok h).2 with ⟨hactive, -, manifestRow, hmanifest, hinsert⟩ | ⟨-, -, rfl⟩
    · have hnone := hcompleted.no_capture hinv hactive
      obtain ⟨seq, snapshot, contextSeq, contexts, hseq, hcaptures, hfound, hlive, hcontextSeq,
        hcontexts, rfl⟩ := insertCaptureProvenance_new hinsert hnone
      have hmem : snapshot ∈ s.db.snapshots := List.mem_of_find?_eq_some hfound
      obtain rfl : snapshot.id = snapshotId := by simpa using List.find?_some hfound
      obtain ⟨hsession, hfingerprint⟩ := hsnapshot.2 snapshot hmem rfl
      exact .attached x snapshot manifestRow hx (hx.attaching hactive hmanifest hcaptures) hmem
        hlive hsession hfingerprint hseq hcontextSeq hcontexts
    · exact .unchanged _
  | recordCompletedUpload x hx h =>
    rcases recordCompletedUpload_ok h with ⟨-, rfl⟩ | ⟨blobIds, blobs, manifestRow, row, db₂, -,
      hblobs, -, hmanifest, hrow, hfresh, hfree, hfinal, rfl⟩
    · exact .unchanged _
    obtain ⟨rows, hrows, -, -, hcase⟩ := finalizeWinningSnapshot_ok hfinal
    rcases hcase with ⟨hactive, hinsert⟩ | ⟨hwith, -⟩
    · have hnone := hcompleted.no_capture hinv hactive
      obtain ⟨seq, snapshot, contextSeq, contexts, hseq, hcaptures, hfound, -, hcontextSeq,
        hcontexts, rfl⟩ := insertCaptureProvenance_new (x := x.toCompleting)
          hinsert hnone
      obtain ⟨original, stored, -, -, hrowEq⟩ := snapshotRow_ok hrow
      -- the snapshot whose context is maintained is the one just inserted
      obtain rfl : snapshot = row := by
        have hid : snapshot.id = x.snapshotId := by simpa using List.find?_some hfound
        have hmem : snapshot ∈ s.db.snapshots ++ [row] := List.mem_of_find?_eq_some hfound
        rcases List.mem_append.mp hmem with hold | hnew
        · have hmiss := List.find?_eq_none.mp hfresh snapshot hold
          simp [hid] at hmiss
        · exact List.mem_singleton.mp hnew
      have hcompletedAt : snapshot.completedAt = x.now := by rw [hrowEq]
      obtain rfl : seq = x.nowSeq := Option.some.inj (hseq.symm.trans hx.seq)
      rw [hcompletedAt] at hcontextSeq hcontexts
      obtain rfl : contextSeq = x.nowSeq := Option.some.inj (hcontextSeq.symm.trans hseq)
      rw [linkRearchive_eq]
      exact .recorded x snapshot manifestRow blobIds hx
        (hx.toCompletingOk.attaching hactive hmanifest hcaptures) hblobs hrow hfresh hfree hrows
        hcontexts
    · -- no upload is completed with a snapshot whose identifier is new
      unfold Db.completedWith at hwith
      split at hwith
      · next u hu =>
        have hsome := (of_decide_eq_true hwith).2
        have hused := hcompleted.snapshots u (Db.upload_some hu).1 _ hsome
        exact absurd hused (hids.not_used List.mem_cons_self)
      · simp at hwith
  | recordDeletion x hx h =>
    obtain ⟨snapshot, manifest, hrow, ⟨-, rfl⟩ | ⟨hlive, -, hfresh, rfl⟩⟩ := recordDeletion_ok h
    · exact .unchanged _
    · exact .deleted x snapshot manifest hx hrow hlive hfresh
  | collectBlobRow blobId nowSeq hstep h =>
    rcases collectBlobRow_ok h with ⟨-, rfl⟩ | ⟨row, hrow, -, heligible, hcase⟩
    · exact .unchanged []
    · rcases hcase with ⟨-, hlive, rfl⟩ | ⟨hdel, -, -⟩
      · exact .cleared row nowSeq hrow heligible hlive
      · exact absurd hdel hstep
  | recordIntegrity ids runs findings => exact .integrity ids runs findings

/-! ## §4 — Invariants of the database. -/

theorem Db.Completed.empty : Db.empty.Completed [] where
  captures := by simp [Db.empty]
  snapshots := by simp [Db.empty]

/-- Completing an active upload moves no other upload out of its completion. -/
theorem mem_completedUploads {x : Completing} {snapshotId : String} {newlyPersistedBytes : ℤ}
    {uploads : List UploadRow} {u : UploadRow} (hu : u ∈ uploads) (hdone : u.status = .completed) :
    u ∈ completedUploads x snapshotId newlyPersistedBytes uploads := by
  refine Lib.mem_updateWhere_of_not hu ?_
  simp [UploadRowStatus.active, hdone]

/-- The upload a completion finds active is completed with its snapshot. -/
theorem completed_mem_completedUploads {x : Completing} {snapshotId : String}
    {newlyPersistedBytes : ℤ} {uploads : List UploadRow} {u : UploadRow} (hu : u ∈ uploads)
    (hid : u.id = x.upload.id) (hactive : u.status ≠ .completed) :
    u.complete snapshotId x.now x.transferBytes newlyPersistedBytes ∈
      completedUploads x snapshotId newlyPersistedBytes uploads := by
  refine mem_updateWhere.mpr ⟨u, hu, ?_⟩
  simp [hid, UploadRowStatus.active, hactive]

/-- An upload after a completion is an old one, or the one just completed. -/
theorem of_mem_completedUploads {x : Completing} {snapshotId : String} {newlyPersistedBytes : ℤ}
    {uploads : List UploadRow} {u : UploadRow}
    (hu : u ∈ completedUploads x snapshotId newlyPersistedBytes uploads) :
    (u ∈ uploads ∧ ¬ (u.id = x.upload.id ∧ u.status ≠ .completed)) ∨
      ∃ v ∈ uploads, v.id = x.upload.id ∧ v.status ≠ .completed ∧
        u = v.complete snapshotId x.now x.transferBytes newlyPersistedBytes := by
  obtain ⟨v, hv, rfl⟩ := mem_updateWhere.mp hu
  by_cases hsel : v.id = x.upload.id ∧ v.status ≠ .completed
  · refine Or.inr ⟨v, hv, hsel.1, hsel.2, ?_⟩
    simp [hsel.1, UploadRowStatus.active, hsel.2]
  · rw [if_neg (by simpa [UploadRowStatus.active] using hsel)]
    exact Or.inl ⟨hv, hsel⟩

theorem Attaching.upload_id {x : Completing} {manifestRow : ManifestRow}
    (h : Attaching c x manifestRow db) :
    ∃ u ∈ db.uploads, u.status ≠ .completed ∧ u.id = x.upload.id := by
  obtain ⟨u, hu, hactive, hfixed⟩ := h.upload
  exact ⟨u, hu, hactive, UploadRow.id_of_fixed hfixed⟩

/-- Attaching a capture keeps the completed uploads and their captures in step. -/
theorem Db.Completed.attach {x : Completing} {snapshotId manifestId : String}
    {newlyPersistedBytes seq : ℤ} {manifestRow : ManifestRow} {used used' : List String}
    (h : db.Completed used) (hattach : Attaching c x manifestRow db) (hsub : used ⊆ used')
    (hused : snapshotId ∈ used') {db' : Db}
    (huploads : db'.uploads = completedUploads x snapshotId newlyPersistedBytes db.uploads)
    (hcaptures : db'.captures = db.captures ++
      [captureRow x.captureId x.upload x.manifest manifestId snapshotId x.now seq]) :
    db'.Completed used' where
  captures := by
    intro r hr
    rw [hcaptures] at hr
    rw [huploads]
    rcases List.mem_append.mp hr with hr | hr
    · obtain ⟨u, hu, hid, hdone, hsnapshot⟩ := h.captures r hr
      exact ⟨u, mem_completedUploads hu hdone, hid, hdone, hsnapshot⟩
    · obtain rfl := List.mem_singleton.mp hr
      obtain ⟨u, hu, hactive, hid⟩ := hattach.upload_id
      exact ⟨_, completed_mem_completedUploads hu hid hactive, hid, rfl, rfl⟩
  snapshots := by
    intro u hu id hid
    rw [huploads] at hu
    rcases of_mem_completedUploads hu with ⟨hold, -⟩ | ⟨v, -, -, -, rfl⟩
    · exact hsub (h.snapshots u hold id hid)
    · obtain rfl : snapshotId = id := Option.some.inj hid
      exact hused

/-- Every effect keeps the completed uploads and their captures in step. -/
theorem Effect.completed (h : Effect c cfg mode t s ids db) (hinv : s.Inv c)
    (hs : s.db.Completed s.used) : db.Completed (ids ++ s.used) := by
  have hsub : s.used ⊆ ids ++ s.used := List.subset_append_right _ _
  have hkeep : s.db.Completed (ids ++ s.used) :=
    ⟨hs.captures, fun u hu id hid => hsub (hs.snapshots u hu id hid)⟩
  cases h with
  | unchanged ids => exact hkeep
  | clients clients => exact ⟨hkeep.captures, hkeep.snapshots⟩
  | integrity ids runs findings => exact ⟨hkeep.captures, hkeep.snapshots⟩
  | repeated new existing hnew hsession hexisting hsame =>
    exact ⟨hkeep.captures, hkeep.snapshots⟩
  | created new row hnew hsession hreuse hfree hfresh hrow hrows =>
    refine ⟨fun r hr => ?_, fun u hu id hid => ?_⟩
    · obtain ⟨u, hu, hrest⟩ := hs.captures r hr
      exact ⟨u, List.mem_append_left _ hu, hrest⟩
    · rcases List.mem_append.mp hu with hu | hu
      · exact hkeep.snapshots u hu id hid
      · obtain rfl := List.mem_singleton.mp hu
        have hnone := (newUploadRow_ok hrow).2.2.2.2.2.2.2.1
        simp [hnone] at hid
  | ended upload current reason terminalAt hmem hfixed hactive hfree =>
    refine ⟨fun r hr => ?_, fun u hu id hid => ?_⟩
    · obtain ⟨u, hu, hid, hrest⟩ := hs.captures r hr
      refine ⟨u, List.mem_filter.mpr ⟨hu, ?_⟩, hid, hrest⟩
      -- a referenced upload is not ended
      simp only [Db.uploadReferenced, Bool.or_eq_false_iff, List.any_eq_false,
        decide_eq_true_eq] at hfree
      rw [hid]
      simpa using hfree.1 r hr
    · exact hkeep.snapshots u (List.mem_of_mem_filter hu) id hid
  | chunk row current hmem hid hactive => exact ⟨hkeep.captures, hkeep.snapshots⟩
  | status uploadId complete =>
    refine ⟨fun r hr => ?_, fun u hu id hid => ?_⟩
    · obtain ⟨u, hu, huid, hdone, hsnapshot⟩ := hs.captures r hr
      refine ⟨u, Lib.mem_updateWhere_of_not hu ?_, huid, hdone, hsnapshot⟩
      simp [UploadRowStatus.active, hdone]
    · obtain ⟨v, hv, rfl⟩ := mem_updateWhere.mp hu
      refine hkeep.snapshots v hv id ?_
      split at hid <;> exact hid
  | attached x snapshot manifestRow hx hattach hsnapshot hlive hsession hfingerprint hseq
      hcontextSeq hcontexts =>
    exact hs.attach hattach hsub (hsub (hinv.issued.snapshots snapshot hsnapshot)) rfl rfl
  | recorded x row manifestRow blobIds hx hattach hblobs hrow hfresh hfree hrows hcontexts =>
    exact hs.attach hattach hsub (List.mem_append_left _ List.mem_cons_self) rfl rfl
  | deleted x snapshot manifest hx hrow hlive hfresh =>
    rw [foldl_scheduleOrClearBlobCandidate]
    exact ⟨hkeep.captures, hkeep.snapshots⟩
  | cleared row nowSeq hmem heligible hlive => exact ⟨hkeep.captures, hkeep.snapshots⟩

/-- A step as the database sees it. -/
inductive DbStep (c : Crates) (cfg : Config) (mode : Mode) (t : TaskId) (s s' : Shared) : Prop
  | stays (hdb : s'.db = s.db) (hused : s'.used = s.used)
  | writes {ids : List String} (hids : Fresh t ids s)
      (heffect : Effect c cfg mode t s ids s'.db) (hused : s'.used = ids ++ s.used)
  | collects (hcollects : Collects s.db s'.db) (hused : s'.used = s.used)

/-- **`SysStep.dbStep`** — a step leaves the database alone, has one effect on it, or removes one
blob row nothing refers to. -/
theorem SysStep.dbStep (h : SysStep c cfg mode t s s') (hinv : s.Inv c)
    (hcompleted : s.db.Completed s.used) : DbStep c cfg mode t s s' := by
  cases h with
  | write hwriter hids hw => exact .writes hids (hw.effect hinv hcompleted hids) rfl
  | commitCollect hwriter => exact .collects (hinv.writer _ _ hwriter) rfl
  | _ => exact .stays rfl rfl

/-- **`DbInvariant`** — a property of the database, and of the identifiers that have become keys,
that every step of the service keeps. -/
structure DbInvariant (c : Crates) (cfg : Config) (P : Db → List String → Prop) : Prop where
  effect : ∀ {t : TaskId} {s : Shared} {ids : List String} {db : Db}, s.Inv c →
    s.db.Completed s.used → Fresh t ids s → Effect c cfg .any t s ids db →
    P s.db s.used → P db (ids ++ s.used)
  collect : ∀ {s : Shared} {db : Db}, s.Inv c → s.db.Completed s.used → Collects s.db db →
    P s.db s.used → P db s.used

namespace DbInvariant

variable {P Q : Db → List String → Prop}

theorem completed : DbInvariant c cfg Db.Completed where
  effect := fun hinv hcompleted _ h _ => h.completed hinv hcompleted
  collect := fun _ _ h hs => by
    obtain ⟨row, -, -, rfl⟩ := h
    exact ⟨hs.captures, hs.snapshots⟩

/-- An invariant that is kept in the states of another one. -/
theorem and (hP : DbInvariant c cfg P)
    (hQ : ∀ {t : TaskId} {s : Shared} {ids : List String} {db : Db}, s.Inv c →
      s.db.Completed s.used → P s.db s.used → Fresh t ids s →
      Effect c cfg .any t s ids db → Q s.db s.used → Q db (ids ++ s.used))
    (hcollect : ∀ {s : Shared} {db : Db}, s.Inv c → P s.db s.used → Collects s.db db →
      Q s.db s.used → Q db s.used) : DbInvariant c cfg fun db used => P db used ∧ Q db used where
  effect := fun hinv hcompleted hids h hs =>
    ⟨hP.effect hinv hcompleted hids h hs.1, hQ hinv hcompleted hs.1 hids h hs.2⟩
  collect := fun hinv hcompleted h hs =>
    ⟨hP.collect hinv hcompleted h hs.1, hcollect hinv hs.1 h hs.2⟩

/-- What every step keeps holds wherever the state of a server gets. -/
theorem reach (hP : DbInvariant c cfg P) (hcompleted : s.db.Completed s.used)
    (hs : P s.db s.used) (hreach : ServerReach c cfg s s') :
    s'.db.Completed s'.used ∧ P s'.db s'.used := by
  refine Lib.Discipline.Persistent.of_reach
    (P := fun s => s.db.Completed s.used ∧ P s.db s.used) ?_ hreach ⟨hcompleted, hs⟩
  intro t s s' hinv hstep hboth
  cases SysStep.dbStep hstep hinv hboth.1 with
  | stays hdb hused => rwa [hdb, hused]
  | writes hids heffect hused =>
    rw [hused]
    exact ⟨heffect.completed hinv hboth.1, hP.effect hinv hboth.1 hids heffect hboth.2⟩
  | collects hcollects hused =>
    rw [hused]
    exact ⟨(completed : DbInvariant c cfg Db.Completed).collect hinv hboth.1 hcollects hboth.1,
      hP.collect hinv hboth.1 hcollects hboth.2⟩

/-- **`DbInvariant.run`** — what holds of an empty archive and is kept by every step holds of the
database of a server at any time. -/
theorem run (hP : DbInvariant c cfg P) (hempty : P Db.empty []) {sqlite : SqliteChecks}
    {allowed : Server → Lib.Event Env Request → Prop} {p : Server}
    (hrun : ServerRun c cfg sqlite allowed Server.init p) : P p.state.db p.state.used :=
  (hP.reach (s := Shared.init) Db.Completed.empty hempty
    (server_reach (Shared.Inv.init c) hrun)).2

end DbInvariant

end Patwari
