/-
# Patwari.Transactions — what each write transaction does when it commits.

One lemma a transaction: from the fact that it succeeded, the checks that passed and the database
it leaves, written as the old one with the changed tables named. Every invariant is derived from
these, and no later proof looks into a transaction again.
-/
import Patwari.Recovery

namespace Patwari

open Lib (UniqueOn updateWhere mem_updateWhere)

variable {c : Crates} {cfg : Config} {db db' : Db}

/-! ## §1 — Uploads. -/

/-- A column that is not negative is read as it is. -/
theorem unsignedColumn_total {value : ℤ} (h : 0 ≤ value) : unsignedColumn value =
    .ok value.toNat := by
  unfold unsignedColumn
  rw [if_pos h]
  rfl

/-- Registering a client changes the client table only, and every client stays. -/
theorem upsertClient_ok {clientId metadataJson now : String} {request : RegisterClientRequest}
    (h : upsertClient clientId request metadataJson now db = .ok ((), db')) :
    ∃ clients, db' = { db with clients := clients } ∧
      (∀ r ∈ db.clients, ∃ r' ∈ clients, r'.id = r.id ∧ r'.ownerNamespace = r.ownerNamespace) ∧
      (UniqueOn ClientRow.id db.clients → UniqueOn ClientRow.id clients) := by
  unfold upsertClient at h
  split_ifs at h with hany
  · obtain ⟨-, rfl⟩ := Prod.mk.inj (pure_eq_ok.mp h)
    refine ⟨_, rfl, fun r hr => ?_, fun hu => hu.updateWhere fun _ _ => rfl⟩
    refine ⟨_, mem_updateWhere.mpr ⟨r, hr, rfl⟩, ?_⟩
    split <;> exact ⟨rfl, rfl⟩
  · obtain ⟨-, rfl⟩ := Prod.mk.inj (pure_eq_ok.mp h)
    refine ⟨_, rfl, fun r hr => ⟨r, List.mem_append_left _ hr, rfl, rfl⟩, fun hu => ?_⟩
    refine hu.append fun x hx hid => hany ?_
    simpa using ⟨x, hx, hid⟩

/-- The session of a new upload is an old row touched, or a new one where there was none. -/
theorem getOrCreateSession_ok {new : NewUpload} {sessionId : String}
    (h : getOrCreateSession new db = .ok (sessionId, db')) :
    (∃ r ∈ db.clients, r.id = new.clientId ∧ r.ownerNamespace = ownerNamespace) ∧
    ((∃ row, db.sessionOfSource new.manifest.session = some row ∧ sessionId = row.id ∧
        db' = touchSession row.id new.now db) ∨
      (db.sessionOfSource new.manifest.session = none ∧ db.session new.sessionId = none ∧
        sessionId = new.sessionId ∧
        db' = { db with sessions := db.sessions ++ [newSessionRow new] })) := by
  unfold getOrCreateSession at h
  simp only [throw_bind, ite_throw_eq_ok, not_not] at h
  obtain ⟨hclient, h⟩ := h
  refine ⟨by simpa using hclient, ?_⟩
  split at h
  · next row hrow =>
    obtain ⟨rfl, rfl⟩ := Prod.mk.inj (pure_eq_ok.mp h)
    exact Or.inl ⟨row, hrow, rfl, rfl⟩
  · next hnone =>
    simp only [ite_throw_eq_ok, pure_eq_ok, Prod.mk.injEq] at h
    obtain ⟨hfresh, rfl, rfl⟩ := h
    exact Or.inr ⟨hnone, by simpa using hfresh, rfl, rfl⟩

/-- Inserting a new upload's artifact rows appends them, and keeps both keys of the table. -/
theorem foldlM_insertUploadArtifact_ok {rows : List UploadArtifactRow}
    (h : rows.foldlM insertUploadArtifact db = .ok db') :
    db' = { db with uploadArtifacts := db.uploadArtifacts ++ rows } ∧
    (UniqueOn (fun r => (r.uploadId, r.artifactIndex)) db.uploadArtifacts →
      UniqueOn (fun r => (r.uploadId, r.artifactIndex)) db'.uploadArtifacts) ∧
    (UniqueOn (fun r => (r.uploadId, r.logicalPath)) db.uploadArtifacts →
      UniqueOn (fun r => (r.uploadId, r.logicalPath)) db'.uploadArtifacts) := by
  induction rows generalizing db with
  | nil =>
    obtain rfl : db = db' := by simpa using h
    exact ⟨by simp, id, id⟩
  | cons row rest ih =>
    simp only [List.foldlM_cons, bind_eq_ok] at h
    obtain ⟨db₁, hrow, hrest⟩ := h
    unfold insertUploadArtifact at hrow
    simp only [ite_throw_eq_ok, pure_eq_ok] at hrow
    obtain ⟨hfresh, rfl⟩ := hrow
    obtain ⟨hdb, hindex, hpath⟩ := ih hrest
    simp only [List.any_eq_true, decide_eq_true_eq, not_exists, not_and] at hfresh
    refine ⟨?_, fun hu => hindex (hu.append ?_), fun hu => hpath (hu.append ?_)⟩
    · rw [hdb]
      simp
    · intro x hx heq
      obtain ⟨hid, hi⟩ := Prod.mk.inj heq
      exact hfresh x hx hid (Or.inl hi)
    · intro x hx heq
      obtain ⟨hid, hp⟩ := Prod.mk.inj heq
      exact hfresh x hx hid (Or.inr hp)

/-- The artifact rows of a new upload belong to it, and there is one for each artifact. -/
theorem uploadArtifactRows_ok {uploadId : String} {entries : List (Artifact × ℕ)} {index : ℕ}
    {rows : List UploadArtifactRow} (h : uploadArtifactRows uploadId entries index = .ok rows) :
    rows.length = entries.length ∧ ∀ r ∈ rows, r.uploadId = uploadId := by
  induction entries generalizing index rows with
  | nil =>
    obtain rfl := pure_eq_ok.mp h
    simp
  | cons entry rest ih =>
    unfold uploadArtifactRows at h
    simp only [bind_eq_ok, pure_eq_ok] at h
    obtain ⟨row, hrow, rows', hrows', rfl⟩ := h
    obtain ⟨hlength, hids⟩ := ih hrows'
    refine ⟨by simp [hlength], fun r hr => ?_⟩
    rcases List.mem_cons.mp hr with rfl | hr
    · unfold uploadArtifactRow at hrow
      simp only [bind_eq_ok, pure_eq_ok] at hrow
      obtain ⟨-, -, -, -, -, -, rfl⟩ := hrow
      rfl
    · exact hids r hr

/-- The row of a new upload carries its identity and what was negotiated. -/
theorem newUploadRow_ok {new : NewUpload} {sessionId : String} {row : UploadRow}
    (h : newUploadRow c cfg new sessionId = .ok row) :
    row.id = new.uploadId ∧ row.ownerNamespace = ownerNamespace ∧ row.sessionId = sessionId ∧
      row.clientId = new.clientId ∧ row.captureId = new.captureId ∧
      row.manifestSha256 = manifestDigest c new.manifest ∧ row.status ≠ .completed ∧
      row.snapshotId = none ∧ row.chunkSizeBytes = cfg.chunkSizeBytes ∧
      row.artifactCount = new.manifest.artifacts.length ∧ row.expiresAt = new.expiresAt := by
  unfold newUploadRow at h
  simp only [bind_eq_ok, okOr_eq_ok, toSqliteI64, pure_eq_ok] at h
  obtain ⟨first, -, firstCount, -, chunkSize, hchunkSize, count, -, stored, -, original, -,
    artifactCount, hartifactCount, storedTotal, -, originalTotal, -, rfl⟩ := h
  split_ifs at hchunkSize hartifactCount
  obtain rfl := pure_eq_ok.mp hchunkSize
  obtain rfl := pure_eq_ok.mp hartifactCount
  refine ⟨rfl, rfl, rfl, rfl, rfl, rfl, ?_, rfl, rfl, rfl, rfl⟩
  show (if _ then _ else _) ≠ _
  split <;> simp

/-- The rows a new upload adds beside its own. -/
theorem persistNewUploadDetail_ok {new : NewUpload}
    (h : persistNewUploadDetail c new db = .ok db') :
    ∃ rows, uploadArtifactRows new.uploadId
        (new.manifest.artifacts.zip new.layout.chunkCounts) 0 = .ok rows ∧
      (∀ r ∈ db.manifests, r.id ≠ new.manifestId ∧ r.uploadId ≠ new.uploadId) ∧
      db' = { db with
        manifests := db.manifests ++ [newManifestRow c new]
        uploadArtifacts := db.uploadArtifacts ++ rows } ∧
      (UniqueOn (fun r => (r.uploadId, r.artifactIndex)) db.uploadArtifacts →
        UniqueOn (fun r => (r.uploadId, r.artifactIndex)) (db.uploadArtifacts ++ rows)) ∧
      (UniqueOn (fun r => (r.uploadId, r.logicalPath)) db.uploadArtifacts →
        UniqueOn (fun r => (r.uploadId, r.logicalPath)) (db.uploadArtifacts ++ rows)) := by
  unfold persistNewUploadDetail at h
  simp only [throw_bind, ite_throw_eq_ok, bind_eq_ok] at h
  obtain ⟨hfresh, rows, hrows, hinsert⟩ := h
  obtain ⟨rfl, hindex, hpath⟩ := foldlM_insertUploadArtifact_ok hinsert
  refine ⟨rows, hrows, ?_, rfl, hindex, hpath⟩
  simpa [not_or] using hfresh

/-- **`persistUpload_ok`** — the capture identity is free and the upload is new, or it is bound to
an upload with an equivalent manifest and nothing but the session changes. -/
theorem persistUpload_ok {new : NewUpload} {created : CreatedUpload}
    (h : persistUpload c cfg new db = .ok (created, db')) :
    ∃ sessionId db₁, getOrCreateSession new db = .ok (sessionId, db₁) ∧
      ensureTerminalCaptureReuseIsEquivalent c new db₁ = .ok () ∧
      ((∃ existing, db₁.uploadByCapture new.clientId new.captureId = some existing ∧
          (existing.manifestSha256 = manifestDigest c new.manifest ∨
            legacyManifestEquivalent c existing.id (manifestDigest c new.manifest) db₁ = .ok true) ∧
          created = ⟨existing.id, false⟩ ∧ db' = db₁) ∨
        (db₁.uploadByCapture new.clientId new.captureId = none ∧
          db₁.upload new.uploadId = none ∧ created = ⟨new.uploadId, true⟩ ∧
          ∃ row, newUploadRow c cfg new sessionId = .ok row ∧
            persistNewUploadDetail c new { db₁ with uploads := db₁.uploads ++ [row] } =
              .ok db')) := by
  unfold persistUpload at h
  simp only [bind_eq_ok] at h
  obtain ⟨⟨sessionId, db₁⟩, hsession, u, hreuse, row, hrow, h⟩ := h
  refine ⟨sessionId, db₁, hsession, hreuse, ?_⟩
  split at h
  · next hnone =>
    simp only [ite_throw_eq_ok, throw_bind, bind_eq_ok, pure_eq_ok, Prod.mk.injEq] at h
    obtain ⟨hfresh, db₂, hdetail, rfl, rfl⟩ := h
    exact Or.inr ⟨hnone, by simpa using hfresh, rfl, row, hrow, hdetail⟩
  · next existing hexisting =>
    refine Or.inl ⟨existing, hexisting, ?_⟩
    by_cases hdigest : existing.manifestSha256 = manifestDigest c new.manifest
    · simp only [hdigest, ne_eq, not_true_eq_false, if_false, pure_eq_ok, Prod.mk.injEq] at h
      exact ⟨Or.inl hdigest, h.1.symm, h.2.symm⟩
    · simp only [ne_eq, hdigest, not_false_eq_true, if_true, bind_eq_ok, throw_bind,
        ite_throw_eq_ok, not_not, pure_eq_ok, Prod.mk.injEq] at h
      obtain ⟨equivalent, hequivalent, htrue, hcreated, hdb⟩ := h
      rw [htrue] at hequivalent
      exact ⟨Or.inr hequivalent, hcreated.symm, hdb.symm⟩

/-- Ending an upload finds nothing, or removes an upload no snapshot and no capture needs. -/
theorem terminalizeUpload_ok {upload : UploadRow} {reason : TerminalReason} {terminalAt : String}
    {ended : Bool} (h : terminalizeUpload upload reason terminalAt db = .ok (ended, db')) :
    (db.upload upload.id = none ∧ ended = false ∧ db' = db) ∨
    ∃ current, db.upload upload.id = some current ∧ current.status ≠ .completed ∧
      db.uploadReferenced upload.id = false ∧ ended = true ∧
      db' = endUpload upload reason terminalAt db := by
  unfold terminalizeUpload at h
  split at h
  · next hnone =>
    obtain ⟨rfl, rfl⟩ := Prod.mk.inj (pure_eq_ok.mp h)
    exact Or.inl ⟨hnone, rfl, rfl⟩
  · next current hcurrent =>
    simp only [ite_throw_eq_ok, pure_eq_ok, Prod.mk.injEq, Bool.not_eq_true] at h
    obtain ⟨hactive, hfree, rfl, rfl⟩ := h
    exact Or.inr ⟨current, hcurrent, hactive, hfree, rfl, rfl⟩

/-- A chunk record is new, or repeats the one that is there. -/
theorem persistChunkRecord_ok {uploadId sha256 acceptedAt : String}
    {artifactIndex chunkIndex byteLength : ℕ}
    (h : persistChunkRecord uploadId artifactIndex chunkIndex byteLength sha256 acceptedAt db =
      .ok ((), db')) :
    (∃ current, db.upload uploadId = some current ∧ current.status.active = true) ∧
    ((db.chunk uploadId artifactIndex chunkIndex = none ∧
        db' = { db with
          uploadChunks := db.uploadChunks ++ [⟨uploadId, artifactIndex, chunkIndex, byteLength,
            digestStorageValue sha256, acceptedAt⟩] }) ∨
      (∃ existing, db.chunk uploadId artifactIndex chunkIndex = some existing ∧
        existing.byteLength = byteLength ∧ existing.sha256 = digestStorageValue sha256 ∧
        db' = db)) := by
  unfold persistChunkRecord at h
  cases hupload : db.upload uploadId with
  | none => simp [hupload] at h
  | some current =>
    simp only [hupload, throw_bind, ite_throw_eq_ok, not_not, bind_eq_ok, toSqliteI64] at h
    obtain ⟨hactive, ci, hci, bl, hbl, h⟩ := h
    split_ifs at hci hbl
    obtain rfl := pure_eq_ok.mp hci
    obtain rfl := pure_eq_ok.mp hbl
    refine ⟨⟨current, rfl, hactive⟩, ?_⟩
    split at h
    · next hnone =>
      obtain ⟨-, rfl⟩ := Prod.mk.inj (pure_eq_ok.mp h)
      exact Or.inl ⟨hnone, rfl⟩
    · next existing hexisting =>
      simp only [ite_throw_eq_ok, not_or, not_not, pure_eq_ok, Prod.mk.injEq, true_and] at h
      obtain ⟨⟨hlength, hsha⟩, rfl⟩ := h
      exact Or.inr ⟨existing, hexisting, hlength, hsha, rfl⟩

/-! ## §2 — Blobs. -/

@[simp] theorem BlobRow.clearCandidate_idem (r : BlobRow) :
    r.clearCandidate.clearCandidate = r.clearCandidate := rfl

@[simp] theorem BlobRow.clearCandidate_id (r : BlobRow) : r.clearCandidate.id = r.id := rfl

/-- A blob row of an artifact's declared size and compression is found and cleared, or made. -/
theorem getOrCreateBlob_ok {artifact : Artifact} {newId now blobId : String}
    (h : getOrCreateBlob artifact newId now db = .ok (blobId, db')) :
    (∃ row, db.blobByDigest (digestStorageValue artifact.storedSha256) = some row ∧
      row.storedSizeBytes = artifact.storedSizeBytes.toNat ∧
      row.compression = artifact.compression ∧ blobId = row.id ∧
      db' = { db with
        blobs := updateWhere (fun r => decide (r.id = row.id)) BlobRow.clearCandidate db.blobs }) ∨
    (db.blobByDigest (digestStorageValue artifact.storedSha256) = none ∧ db.blob newId = none ∧
      blobId = newId ∧
      db' = { db with
        blobs := db.blobs ++ [newBlobRow artifact newId now artifact.storedSizeBytes.toNat] }) := by
  unfold getOrCreateBlob at h
  simp only [bind_eq_ok, toSqliteI64] at h
  obtain ⟨size, hsize, h⟩ := h
  split_ifs at hsize
  obtain rfl := pure_eq_ok.mp hsize
  split at h
  · next row hrow =>
    simp only [ite_throw_eq_ok, throw_bind, not_or, not_not, pure_eq_ok, Prod.mk.injEq] at h
    obtain ⟨⟨hsize, hcompression⟩, rfl, rfl⟩ := h
    exact Or.inl ⟨row, hrow, hsize, hcompression, rfl, rfl⟩
  · next hnone =>
    simp only [ite_throw_eq_ok, throw_bind, pure_eq_ok, Prod.mk.injEq] at h
    obtain ⟨hfresh, rfl, rfl⟩ := h
    exact Or.inr ⟨hnone, by simpa using hfresh, rfl, rfl⟩

/-- What the blob loop has done to the blob table, from the rows it started with. -/
structure BlobsRecorded (now : String) (entries : List (PreparedArtifact × String))
    (old new : List BlobRow) (blobIds : List (String × String)) : Prop where
  /-- No blob is lost. -/
  kept : ∀ r ∈ old, ∃ r' ∈ new, r'.clearCandidate = r.clearCandidate
  /-- A row is old and untouched, old and cleared because it is used, or new. -/
  origin : ∀ r' ∈ new, r' ∈ old ∨
    (∃ d, (d, r'.id) ∈ blobIds) ∧
      ((∃ r ∈ old, r' = r.clearCandidate) ∨
        ∃ e ∈ entries, r' = newBlobRow e.1.artifact e.2 now e.1.artifact.storedSizeBytes.toNat)
  /-- A digest's blob is there and is what an artifact of that digest declares. -/
  found : ∀ e ∈ blobIds, ∃ r ∈ new, r.id = e.2 ∧ r.clearCandidate = r ∧
    ∃ x ∈ entries, x.1.digest = e.1 ∧ r.storedSha256 = e.1 ∧
      r.storedSizeBytes = x.1.artifact.storedSizeBytes.toNat ∧
      r.compression = x.1.artifact.compression
  /-- A digest has one blob. -/
  keysOnce : UniqueOn Prod.fst blobIds
  idsUnique : UniqueOn BlobRow.id old → UniqueOn BlobRow.id new
  digestsUnique : UniqueOn (fun r => (r.ownerNamespace, r.storedSha256)) old →
    UniqueOn (fun r => (r.ownerNamespace, r.storedSha256)) new

theorem BlobsRecorded.nil (now : String) (old : List BlobRow) :
    BlobsRecorded now [] old old [] where
  kept := fun r hr => ⟨r, hr, rfl⟩
  origin := fun r' hr' => Or.inl hr'
  found := fun e he => by simp at he
  keysOnce := UniqueOn.nil
  idsUnique := id
  digestsUnique := id

/-- A row the loop has already cleared or made is not changed by clearing it again. -/
theorem BlobsRecorded.clear {now : String} {entries : List (PreparedArtifact × String)}
    {old new : List BlobRow} {blobIds : List (String × String)}
    (h : BlobsRecorded now entries old new blobIds) {x : BlobRow} (hx : x ∈ new)
    {entries' : List (PreparedArtifact × String)} (hsub : entries ⊆ entries') :
    (∃ r ∈ old, x.clearCandidate = r.clearCandidate) ∨
      ∃ e ∈ entries', x.clearCandidate =
        newBlobRow e.1.artifact e.2 now e.1.artifact.storedSizeBytes.toNat := by
  rcases h.origin x hx with hold | ⟨-, ⟨r, hr, rfl⟩ | ⟨e, he, rfl⟩⟩
  · exact Or.inl ⟨x, hold, rfl⟩
  · exact Or.inl ⟨r, hr, rfl⟩
  · exact Or.inr ⟨e, hsub he, rfl⟩

/-- One round of the blob loop. -/
theorem BlobsRecorded.step {now blobId : String} {entries : List (PreparedArtifact × String)}
    {old : List BlobRow} {blobIds : List (String × String)} {e : PreparedArtifact × String}
    (h : BlobsRecorded now entries old db.blobs blobIds)
    (hnew : blobIds.lookup e.1.digest = none)
    (hstep : getOrCreateBlob e.1.artifact e.2 now db = .ok (blobId, db')) :
    db' = { db with blobs := db'.blobs } ∧
    BlobsRecorded now (entries ++ [e]) old db'.blobs ((e.1.digest, blobId) :: blobIds) := by
  have hsub : entries ⊆ entries ++ [e] := List.subset_append_left _ _
  have hlast : e ∈ entries ++ [e] := List.mem_append_right _ List.mem_cons_self
  have hkeys : UniqueOn Prod.fst ((e.1.digest, blobId) :: blobIds) := by
    refine List.nodup_cons.mpr ⟨fun hmem => ?_, h.keysOnce⟩
    obtain ⟨p, hp, hkey⟩ := List.mem_map.mp hmem
    have hmiss := List.lookup_eq_none_iff.mp hnew p hp
    simp [hkey] at hmiss
  rcases getOrCreateBlob_ok hstep with
    ⟨row, hrow, hsize, hcompression, rfl, rfl⟩ | ⟨hnone, hfresh, rfl, rfl⟩
  · have hrowmem : row ∈ db.blobs := List.mem_of_find?_eq_some hrow
    have hdigest : row.storedSha256 = e.1.digest := by
      have hkey := List.find?_some hrow
      simp only [decide_eq_true_eq] at hkey
      exact hkey.2
    refine ⟨rfl, ?_, ?_, ?_, hkeys, ?_, ?_⟩
    · intro r hr
      obtain ⟨x, hx, hxr⟩ := h.kept r hr
      refine ⟨_, mem_updateWhere.mpr ⟨x, hx, rfl⟩, ?_⟩
      split
      · exact hxr
      · exact hxr
    · intro r' hr'
      obtain ⟨x, hx, rfl⟩ := mem_updateWhere.mp hr'
      split
      · next hid =>
        right
        refine ⟨⟨e.1.digest, ?_⟩, h.clear hx hsub⟩
        rw [BlobRow.clearCandidate_id, of_decide_eq_true hid]
        exact List.mem_cons_self
      · rcases h.origin x hx with hold | ⟨⟨d, hd⟩, hfrom⟩
        · exact Or.inl hold
        · refine Or.inr ⟨⟨d, List.mem_cons_of_mem _ hd⟩, ?_⟩
          rcases hfrom with hclear | ⟨e', he', hnew⟩
          · exact Or.inl hclear
          · exact Or.inr ⟨e', hsub he', hnew⟩
    · intro p hp
      rcases List.mem_cons.mp hp with rfl | hp
      · refine ⟨row.clearCandidate, mem_updateWhere.mpr ⟨row, hrowmem, by simp⟩, rfl, rfl, e, hlast,
          rfl, hdigest, hsize, hcompression⟩
      · obtain ⟨r, hr, hid, hclear, x, hx, hrest⟩ := h.found p hp
        refine ⟨r, mem_updateWhere.mpr ⟨r, hr, ?_⟩, hid, hclear, x, hsub hx, hrest⟩
        rw [hclear, ite_self]
    · exact fun hu => (h.idsUnique hu).updateWhere fun _ _ => rfl
    · exact fun hu => (h.digestsUnique hu).updateWhere fun _ _ => rfl
  · refine ⟨rfl, ?_, ?_, ?_, hkeys, ?_, ?_⟩
    · intro r hr
      obtain ⟨x, hx, hxr⟩ := h.kept r hr
      exact ⟨x, List.mem_append_left _ hx, hxr⟩
    · intro r' hr'
      rcases List.mem_append.mp hr' with hr' | hr'
      · rcases h.origin r' hr' with hold | ⟨⟨d, hd⟩, hfrom⟩
        · exact Or.inl hold
        · refine Or.inr ⟨⟨d, List.mem_cons_of_mem _ hd⟩, ?_⟩
          rcases hfrom with hclear | ⟨e', he', hnew⟩
          · exact Or.inl hclear
          · exact Or.inr ⟨e', hsub he', hnew⟩
      · obtain rfl := List.mem_singleton.mp hr'
        exact Or.inr ⟨⟨e.1.digest, List.mem_cons_self⟩, Or.inr ⟨e, hlast, rfl⟩⟩
    · intro p hp
      rcases List.mem_cons.mp hp with rfl | hp
      · exact ⟨_, List.mem_append_right _ List.mem_cons_self, rfl, rfl, e, hlast, rfl, rfl, rfl,
          rfl⟩
      · obtain ⟨r, hr, hid, hclear, x, hx, hrest⟩ := h.found p hp
        exact ⟨r, List.mem_append_left _ hr, hid, hclear, x, hsub hx, hrest⟩
    · refine fun hu => (h.idsUnique hu).append fun x hx hid => ?_
      have hmiss := List.find?_eq_none.mp hfresh x hx
      simp only [decide_eq_true_eq] at hmiss
      exact hmiss hid
    · refine fun hu => (h.digestsUnique hu).append fun x hx hkey => ?_
      have hmiss := List.find?_eq_none.mp hnone x hx
      simp only [decide_eq_true_eq, not_and] at hmiss
      obtain ⟨howner, hsha⟩ := Prod.mk.inj hkey
      exact hmiss howner hsha

/-- **`recordBlobs_ok`** — the blob loop changes the blob table only, and every artifact's digest
has its blob at the end. -/
theorem recordBlobs_ok {now : String} {old : List BlobRow}
    {entries done : List (PreparedArtifact × String)} {blobIds out : List (String × String)}
    (h : recordBlobs now entries blobIds db = .ok (out, db'))
    (hdone : BlobsRecorded now done old db.blobs blobIds)
    (hall : ∀ e ∈ done, (blobIds.lookup e.1.digest).isSome) :
    db' = { db with blobs := db'.blobs } ∧ BlobsRecorded now (done ++ entries) old db'.blobs out ∧
      ∀ e ∈ done ++ entries, (out.lookup e.1.digest).isSome := by
  induction entries generalizing db done blobIds with
  | nil =>
    obtain ⟨rfl, rfl⟩ := Prod.mk.inj (pure_eq_ok.mp h)
    rw [List.append_nil]
    exact ⟨rfl, hdone, hall⟩
  | cons e rest ih =>
    unfold recordBlobs at h
    split at h
    · next id hid =>
      -- the digest has its blob already; the entry still counts among those looked at
      have hstep : BlobsRecorded now (done ++ [e]) old db.blobs blobIds := by
        have hsub : done ⊆ done ++ [e] := List.subset_append_left _ _
        refine ⟨hdone.kept, fun r' hr' => ?_, fun p hp => ?_, hdone.keysOnce, hdone.idsUnique,
          hdone.digestsUnique⟩
        · rcases hdone.origin r' hr' with hold | ⟨hd, hclear | ⟨e', he', hnew⟩⟩
          · exact Or.inl hold
          · exact Or.inr ⟨hd, Or.inl hclear⟩
          · exact Or.inr ⟨hd, Or.inr ⟨e', hsub he', hnew⟩⟩
        · obtain ⟨r, hr, hid, hclear, x, hx, hrest⟩ := hdone.found p hp
          exact ⟨r, hr, hid, hclear, x, hsub hx, hrest⟩
      have hall' : ∀ x ∈ done ++ [e], (blobIds.lookup x.1.digest).isSome := by
        intro x hx
        rcases List.mem_append.mp hx with hx | hx
        · exact hall x hx
        · rw [List.mem_singleton.mp hx, hid]
          rfl
      simpa using ih h hstep hall'
    · next hnone =>
      obtain ⟨⟨blobId, db₁⟩, hcreate, hrest⟩ := bind_eq_ok.mp h
      obtain ⟨hdb₁, hstep⟩ := hdone.step hnone hcreate
      have hall' : ∀ x ∈ done ++ [e],
          (((e.1.digest, blobId) :: blobIds).lookup x.1.digest).isSome := by
        intro x hx
        by_cases hkey : x.1.digest = e.1.digest
        · simp [hkey]
        · have hne : (x.1.digest == e.1.digest) = false := by simpa using hkey
          rw [List.lookup_cons, hne]
          rcases List.mem_append.mp hx with hx | hx
          · exact hall x hx
          · rw [List.mem_singleton.mp hx] at hkey
            exact absurd rfl hkey
      obtain ⟨hdb', hrecorded, hlookup⟩ := ih hrest hstep hall'
      refine ⟨?_, by simpa using hrecorded, by simpa using hlookup⟩
      rw [hdb', hdb₁]

/-! ## §3 — Completion. -/

/-- What maintaining a session's context after a completion does to its table: an older or absent
row gives way to the completed snapshot's, a newer one stays. -/
inductive ContextMaintained (row : SessionLatestContextRow) (old : List SessionLatestContextRow) :
    List SessionLatestContextRow → Prop
  | added (hnone : ∀ r ∈ old, r.sessionId ≠ row.sessionId)
      (hsnapshot : ∀ r ∈ old, r.snapshotId ≠ row.snapshotId) :
      ContextMaintained row old (old ++ [row])
  | moved (current : SessionLatestContextRow) (hmem : current ∈ old)
      (hsession : current.sessionId = row.sessionId)
      (hup : current.completedAtSeq < row.completedAtSeq ∨
        current.completedAtSeq = row.completedAtSeq ∧ current.snapshotId < row.snapshotId)
      (hsnapshot : ∀ r ∈ old, r.snapshotId = row.snapshotId → r.sessionId = row.sessionId) :
      ContextMaintained row old
        (updateWhere (fun r => decide (r.sessionId = row.sessionId)) (fun _ => row) old)
  | stays (current : SessionLatestContextRow) (hmem : current ∈ old)
      (hsession : current.sessionId = row.sessionId)
      (hnotUp : ¬ (current.completedAtSeq < row.completedAtSeq ∨
        current.completedAtSeq = row.completedAtSeq ∧ current.snapshotId < row.snapshotId)) :
      ContextMaintained row old old

theorem upsertSessionLatestContext_ok {sessionId snapshotId completedAt : String}
    {manifest : Manifest}
    (h : upsertSessionLatestContext c sessionId snapshotId completedAt manifest db = .ok db') :
    ∃ seq contexts, sortKeyFromRfc3339 c completedAt = some seq ∧ 0 ≤ seq ∧
      ContextMaintained (contextRow sessionId snapshotId completedAt seq manifest)
        db.sessionLatestContext contexts ∧
      db' = { db with sessionLatestContext := contexts } := by
  unfold upsertSessionLatestContext at h
  simp only [bind_eq_ok, okOr_eq_ok, throw_bind, ite_throw_eq_ok, not_or, not_lt] at h
  obtain ⟨seq, hseq, ⟨hnonneg, -⟩, h⟩ := h
  refine ⟨seq, ?_⟩
  split at h
  · next hnone =>
    simp only [ite_throw_eq_ok, pure_eq_ok] at h
    obtain ⟨hfresh, rfl⟩ := h
    refine ⟨_, hseq, hnonneg, .added (fun r hr => ?_) (fun r hr => ?_), rfl⟩
    · simpa [contextRow] using List.find?_eq_none.mp hnone r hr
    · simp only [List.any_eq_true, decide_eq_true_eq, not_exists, not_and] at hfresh
      exact hfresh r hr
  · next current hcurrent =>
    have hmem := List.mem_of_find?_eq_some hcurrent
    have hsession : current.sessionId = sessionId := by simpa using List.find?_some hcurrent
    by_cases hup : current.completedAtSeq < seq ∨
        current.completedAtSeq = seq ∧ current.snapshotId < snapshotId
    · simp only [hup, if_true, ite_throw_eq_ok, pure_eq_ok] at h
      obtain ⟨hclash, rfl⟩ := h
      refine ⟨_, hseq, hnonneg, .moved current hmem hsession hup fun r hr hid => ?_, rfl⟩
      simp only [List.any_eq_true, decide_eq_true_eq, not_exists, not_and, not_not] at hclash
      exact hclash r hr hid
    · simp only [hup, if_false, pure_eq_ok] at h
      subst h
      exact ⟨_, hseq, hnonneg, .stays current hmem hsession hup, rfl⟩

/-- The context of a completion is maintained from a live snapshot's own completion time. -/
theorem maintainSessionLatestContext_ok {sessionId snapshotId : String} {manifest : Manifest}
    (h : maintainSessionLatestContext c sessionId snapshotId manifest db = .ok db') :
    ∃ snapshot seq contexts, db.snapshot snapshotId = some snapshot ∧ snapshot.live = true ∧
      sortKeyFromRfc3339 c snapshot.completedAt = some seq ∧ 0 ≤ seq ∧
      ContextMaintained (contextRow sessionId snapshotId snapshot.completedAt seq manifest)
        db.sessionLatestContext contexts ∧
      db' = { db with sessionLatestContext := contexts } := by
  unfold maintainSessionLatestContext at h
  split at h
  · simp at h
  · next snapshot hsnapshot =>
    split_ifs at h with hlive
    · obtain ⟨seq, contexts, hseq, hnonneg, hmaintained, rfl⟩ := upsertSessionLatestContext_ok h
      exact ⟨snapshot, seq, contexts, hsnapshot, hlive, hseq, hnonneg, hmaintained, rfl⟩

/-- A capture's provenance is there already, or its row is added under keys nobody has. -/
theorem insertCaptureProvenance_ok {newId manifestId snapshotId completedAt : String}
    {upload : UploadRow} {manifest : Manifest}
    (h : insertCaptureProvenance c newId upload manifest manifestId snapshotId completedAt db =
      .ok db') :
    ∃ seq db₁, sortKeyFromRfc3339 c completedAt = some seq ∧ 0 ≤ seq ∧
      ((∃ existing ∈ db.captures, existing.uploadId = upload.id ∧
          existing.snapshotId = snapshotId ∧ db₁ = db) ∨
        ((∀ r ∈ db.captures, r.uploadId ≠ upload.id ∧ r.id ≠ newId ∧
            ¬ (r.ownerNamespace = ownerNamespace ∧ r.clientId = upload.clientId ∧
              r.captureId = upload.captureId)) ∧
          db₁ = { db with
            captures := db.captures ++
              [captureRow newId upload manifest manifestId snapshotId completedAt seq] })) ∧
      maintainSessionLatestContext c upload.sessionId snapshotId manifest db₁ = .ok db' := by
  unfold insertCaptureProvenance at h
  simp only [bind_eq_ok, okOr_eq_ok, throw_bind, ite_throw_eq_ok, not_or, not_lt] at h
  obtain ⟨seq, hseq, ⟨hnonneg, -⟩, h⟩ := h
  refine ⟨seq, ?_⟩
  split at h
  · next existing hexisting =>
    split_ifs at h with hsame
    · have hupload : existing.uploadId = upload.id := by simpa using List.find?_some hexisting
      exact ⟨db, hseq, hnonneg, Or.inl ⟨existing, List.mem_of_find?_eq_some hexisting, hupload,
        hsame, rfl⟩, h⟩
  · next hnone =>
    simp only [ite_throw_eq_ok] at h
    obtain ⟨hfresh, h⟩ := h
    refine ⟨_, hseq, hnonneg, Or.inr ⟨fun r hr => ?_, rfl⟩, h⟩
    have hupload : r.uploadId ≠ upload.id := by simpa using List.find?_eq_none.mp hnone r hr
    simp only [List.any_eq_true, decide_eq_true_eq, not_exists, not_and, not_or] at hfresh
    obtain ⟨hid, hcapture⟩ := hfresh r hr
    exact ⟨hupload, hid, fun hsame => hcapture hsame.1 hsame.2.1 hsame.2.2⟩

/-- **`finalizeUpload_ok`** — a live snapshot takes the capture of an active upload, or nothing
changes. -/
theorem finalizeUpload_ok {x : Completing} {snapshotId : String} {completed : Bool}
    (h : finalizeUpload c x snapshotId db = .ok (completed, db')) :
    (∃ s ∈ db.snapshots, s.id = snapshotId ∧ s.live = true) ∧
    ((db.uploadActive x.upload.id = true ∧ completed = true ∧
        ∃ manifestRow, db.manifestOfUpload x.upload.id = some manifestRow ∧
          insertCaptureProvenance c x.captureId x.upload x.manifest manifestRow.id snapshotId x.now
            (completeUploadRow x.upload.id snapshotId x.now x.transferBytes 0 db) = .ok db') ∨
      (db.uploadActive x.upload.id = false ∧ completed = db.completedWith x.upload.id snapshotId ∧
        db' = db)) := by
  unfold finalizeUpload at h
  simp only [throw_bind, ite_throw_eq_ok, not_not, bind_eq_ok, toSqliteI64] at h
  obtain ⟨hlive, transfer, htransfer, h⟩ := h
  split_ifs at htransfer
  obtain rfl := pure_eq_ok.mp htransfer
  refine ⟨by simpa using hlive, ?_⟩
  split_ifs at h with hactive
  · simp only [bind_eq_ok, okOr_eq_ok, pure_eq_ok, Prod.mk.injEq] at h
    obtain ⟨manifestRow, hmanifest, db₁, hcapture, rfl, rfl⟩ := h
    exact Or.inl ⟨hactive, rfl, manifestRow, hmanifest, hcapture⟩
  · obtain ⟨rfl, rfl⟩ := Prod.mk.inj (pure_eq_ok.mp h)
    exact Or.inr ⟨by simpa using hactive, rfl, rfl⟩

/-- Inserting artifact rows appends them, and keeps every key of the table. -/
theorem foldlM_insertArtifact_ok {rows : List ArtifactRow}
    (h : rows.foldlM insertArtifact db = .ok db') :
    db' = { db with artifacts := db.artifacts ++ rows } ∧
    (UniqueOn ArtifactRow.id db.artifacts → UniqueOn ArtifactRow.id db'.artifacts) ∧
    (UniqueOn (fun r => (r.snapshotId, r.artifactIndex)) db.artifacts →
      UniqueOn (fun r => (r.snapshotId, r.artifactIndex)) db'.artifacts) := by
  induction rows generalizing db with
  | nil =>
    obtain rfl : db = db' := by simpa using h
    exact ⟨by simp, id, id⟩
  | cons row rest ih =>
    simp only [List.foldlM_cons, bind_eq_ok] at h
    obtain ⟨db₁, hrow, hrest⟩ := h
    unfold insertArtifact at hrow
    simp only [ite_throw_eq_ok, pure_eq_ok] at hrow
    obtain ⟨hfresh, rfl⟩ := hrow
    obtain ⟨hdb, hid, hindex⟩ := ih hrest
    simp only [List.any_eq_true, decide_eq_true_eq, not_exists, not_and, not_or] at hfresh
    refine ⟨?_, fun hu => hid (hu.append fun x hx heq => (hfresh x hx).1 heq),
      fun hu => hindex (hu.append fun x hx heq => ?_)⟩
    · rw [hdb]
      simp
    · obtain ⟨hs, hi⟩ := Prod.mk.inj heq
      exact ((hfresh x hx).2 hs).1 hi

/-- The artifact row of a prepared artifact refers to the blob of its digest. -/
theorem artifactRow_ok {snapshotId now newId : String} {nowSeq : ℤ}
    {blobIds : List (String × String)} {p : PreparedArtifact} {row : ArtifactRow}
    (h : artifactRow snapshotId now nowSeq blobIds p newId = .ok row) :
    ∃ blobId, blobIds.lookup p.digest = some blobId ∧
      row = ⟨newId, snapshotId, blobId, p.artifact.logicalPath, p.artifact.mediaType,
        p.artifact.originalSizeBytes.toNat, digestStorageValue p.artifact.originalSha256, now,
        nowSeq, p.artifactIndex⟩ := by
  unfold artifactRow at h
  simp only [bind_eq_ok, okOr_eq_ok, toSqliteI64, pure_eq_ok] at h
  obtain ⟨blobId, hblob, size, hsize, rfl⟩ := h
  split_ifs at hsize
  obtain rfl := pure_eq_ok.mp hsize
  exact ⟨blobId, hblob, rfl⟩

/-- A successful `mapM` gives each element its own result. -/
theorem forall₂_of_mapM_ok {α β κ : Type} {f : α → Except κ β} {xs : List α} {ys : List β}
    (h : xs.mapM f = .ok ys) : List.Forall₂ (fun x y => f x = .ok y) xs ys := by
  induction xs generalizing ys with
  | nil =>
    obtain rfl : [] = ys := pure_eq_ok.mp h
    exact .nil
  | cons x xs ih =>
    simp only [List.mapM_cons, bind_eq_ok, pure_eq_ok] at h
    obtain ⟨y, hy, ys', hys', rfl⟩ := h
    exact .cons hy (ih hys')

/-- Each element on one side has its partner on the other. -/
theorem exists_of_forall₂ {α β : Type} {R : α → β → Prop} {xs : List α} {ys : List β}
    (h : List.Forall₂ R xs ys) :
    (∀ x ∈ xs, ∃ y ∈ ys, R x y) ∧ ∀ y ∈ ys, ∃ x ∈ xs, R x y := by
  induction h with
  | nil => simp
  | cons hxy _ ih =>
    obtain ⟨hleft, hright⟩ := ih
    constructor
    · intro x hx
      rcases List.mem_cons.mp hx with rfl | hx
      · exact ⟨_, List.mem_cons_self, hxy⟩
      · obtain ⟨y, hy, hr⟩ := hleft x hx
        exact ⟨y, List.mem_cons_of_mem _ hy, hr⟩
    · intro y hy
      rcases List.mem_cons.mp hy with rfl | hy
      · exact ⟨_, List.mem_cons_self, hxy⟩
      · obtain ⟨x, hx, hr⟩ := hright y hy
        exact ⟨x, List.mem_cons_of_mem _ hx, hr⟩

/-- An artifact row refers to the blob of the digest of its prepared artifact. -/
theorem artifactRows_blob {snapshotId now : String} {nowSeq : ℤ} {blobIds : List (String × String)}
    {entries : List (PreparedArtifact × String)} {rows : List ArtifactRow}
    (h : entries.mapM (fun e => artifactRow snapshotId now nowSeq blobIds e.1 e.2) = .ok rows) :
    (∀ r ∈ rows, r.snapshotId = snapshotId ∧
      ∃ e ∈ entries, blobIds.lookup e.1.digest = some r.blobId) ∧
    ∀ e ∈ entries, ∃ r ∈ rows, blobIds.lookup e.1.digest = some r.blobId := by
  obtain ⟨hleft, hright⟩ := exists_of_forall₂ (forall₂_of_mapM_ok h)
  constructor
  · intro r hr
    obtain ⟨e, he, hrow⟩ := hright r hr
    obtain ⟨blobId, hblob, rfl⟩ := artifactRow_ok hrow
    exact ⟨rfl, e, he, hblob⟩
  · intro e he
    obtain ⟨r, hr, hrow⟩ := hleft e he
    obtain ⟨blobId, hblob, rfl⟩ := artifactRow_ok hrow
    exact ⟨_, hr, hblob⟩

/-- The row of a new snapshot carries the totals of its manifest. -/
theorem snapshotRow_ok {x : CompletionRecord} {manifestId : String} {prior : Option TombstoneRow}
    {row : SnapshotRow} (h : snapshotRow x manifestId prior = .ok row) :
    ∃ original stored, manifestTotals x.manifest = .ok (original, stored) ∧ 0 ≤ x.nowSeq ∧
      row =
        { id := x.snapshotId
          ownerNamespace := ownerNamespace
          sessionId := x.upload.sessionId
          manifestId := manifestId
          fingerprintSha256 := x.fingerprint
          completedAt := x.now
          completedAtSeq := x.nowSeq
          artifactCount := x.prepared.length
          totalOriginalSizeBytes := original
          totalStoredSizeBytes := stored
          fingerprintVersion := snapshotFingerprintVersion
          deletedAt := none
          rearchivedFromTombstoneId := prior.map TombstoneRow.id } := by
  unfold snapshotRow at h
  simp only [bind_eq_ok, toSqliteI64, throw_bind, ite_throw_eq_ok, not_or, not_lt, pure_eq_ok,
    Prod.exists] at h
  obtain ⟨original, stored, htotals, count, hcount, o, ho, st, hst, ⟨hseq, -⟩, rfl⟩ := h
  split_ifs at hcount ho hst
  obtain rfl := pure_eq_ok.mp hcount
  obtain rfl := pure_eq_ok.mp ho
  obtain rfl := pure_eq_ok.mp hst
  exact ⟨original, stored, htotals, hseq, rfl⟩

/-- What is left of a completion once its snapshot's row is in place. -/
theorem finalizeWinningSnapshot_ok {x : CompletionRecord} {manifestId : String}
    {blobIds : List (String × String)}
    (h : finalizeWinningSnapshot c x manifestId blobIds db = .ok db') :
    ∃ rows, ((x.prepared.zip x.artifactIds).mapM fun e =>
        artifactRow x.snapshotId x.now x.nowSeq blobIds e.1 e.2) = .ok rows ∧
      (UniqueOn ArtifactRow.id db.artifacts →
        UniqueOn ArtifactRow.id (db.artifacts ++ rows)) ∧
      (UniqueOn (fun r => (r.snapshotId, r.artifactIndex)) db.artifacts →
        UniqueOn (fun r => (r.snapshotId, r.artifactIndex)) (db.artifacts ++ rows)) ∧
      ((db.uploadActive x.upload.id = true ∧
          insertCaptureProvenance c x.captureId x.upload x.manifest manifestId x.snapshotId x.now
            (completeUploadRow x.upload.id x.snapshotId x.now x.transferBytes
              x.newlyPersistedBytes { db with artifacts := db.artifacts ++ rows }) = .ok db') ∨
        (db.completedWith x.upload.id x.snapshotId = true ∧
          db' = { db with artifacts := db.artifacts ++ rows })) := by
  unfold finalizeWinningSnapshot at h
  simp only [bind_eq_ok, toSqliteI64] at h
  obtain ⟨rows, hrows, db₁, hinsert, transfer, htransfer, newly, hnewly, h⟩ := h
  split_ifs at htransfer hnewly
  obtain rfl := pure_eq_ok.mp htransfer
  obtain rfl := pure_eq_ok.mp hnewly
  obtain ⟨rfl, hid, hindex⟩ := foldlM_insertArtifact_ok hinsert
  refine ⟨rows, hrows, hid, hindex, ?_⟩
  split_ifs at h with hactive hcompleted
  · exact Or.inl ⟨hactive, h⟩
  · exact Or.inr ⟨hcompleted, (pure_eq_ok.mp h).symm⟩

/-- **`recordCompletedUpload_ok`** — another completion holds the live fingerprint and nothing
changes, or the snapshot is recorded with its blobs, its artifacts and its capture. -/
theorem recordCompletedUpload_ok {x : CompletionRecord} {outcome : RecordOutcome}
    (h : recordCompletedUpload c x db = .ok (outcome, db')) :
    (outcome = .lost ∧ db' = db) ∨
    ∃ blobIds blobs manifestRow row db₂, outcome = .recorded ∧
      BlobsRecorded x.now (x.prepared.zip x.blobIds) db.blobs blobs blobIds ∧
      (∀ e ∈ x.prepared.zip x.blobIds, (blobIds.lookup e.1.digest).isSome) ∧
      db.manifestOfUpload x.upload.id = some manifestRow ∧
      snapshotRow x manifestRow.id (db.priorTombstone x.upload.sessionId x.fingerprint) =
        .ok row ∧
      db.snapshot x.snapshotId = none ∧
      db.liveSnapshot x.upload.sessionId x.fingerprint = none ∧
      finalizeWinningSnapshot c x manifestRow.id blobIds
        { db with blobs := blobs, snapshots := db.snapshots ++ [row] } = .ok db₂ ∧
      db' = linkRearchive x.snapshotId
        (db.priorTombstone x.upload.sessionId x.fingerprint) db₂ := by
  unfold recordCompletedUpload at h
  simp only [bind_eq_ok, okOr_eq_ok, Prod.exists] at h
  obtain ⟨blobIds, recorded, hblobs, manifestRow, hmanifest, row, hrow, h⟩ := h
  obtain ⟨hdb, hrecorded, hlookup⟩ :=
    recordBlobs_ok hblobs (BlobsRecorded.nil x.now db.blobs) (fun e he => by simp at he)
  rw [List.nil_append] at hrecorded hlookup
  split_ifs at h with hlost
  · obtain ⟨rfl, rfl⟩ := Prod.mk.inj (pure_eq_ok.mp h)
    exact Or.inl ⟨rfl, rfl⟩
  · simp only [bind_eq_ok, pure_eq_ok, Prod.mk.injEq] at h
    obtain ⟨db₂, hfinal, rfl, rfl⟩ := h
    rw [hdb] at hmanifest hrow hlost hfinal
    simp only [not_or, Option.not_isSome_iff_eq_none] at hlost
    refine Or.inr ⟨blobIds, recorded.blobs, manifestRow, row, db₂, rfl, hrecorded, hlookup,
      hmanifest, hrow, hlost.1, hlost.2, hfinal, ?_⟩
    rw [hdb]
    rfl

/-! ## §4 — Deletion and collection. -/

/-- **`recordDeletion_ok`** — an already deleted snapshot changes nothing; a live one is marked, its
blobs are scheduled or cleared, its session's context rebuilt. -/
theorem recordDeletion_ok {x : DeletionRecord} (h : recordDeletion x db = .ok ((), db')) :
    ∃ snapshot manifest, db.snapshotDeletionRow x.snapshotId = some (snapshot, manifest) ∧
      ((snapshot.live = false ∧ db' = db) ∨
        (snapshot.live = true ∧ 0 ≤ x.deletedAtSeq ∧ db.deletionRecorded x = false ∧
          db' = rebuildSessionLatestContext snapshot.sessionId
            (((db.artifactBlobs x.snapshotId).map BlobRow.id).foldl
              (scheduleOrClearBlobCandidate x) (markDeleted x snapshot manifest db)))) := by
  unfold recordDeletion at h
  simp only [bind_eq_ok, okOr_eq_ok, Prod.exists] at h
  obtain ⟨snapshot, manifest, hrow, h⟩ := h
  refine ⟨snapshot, manifest, hrow, ?_⟩
  by_cases hlive : snapshot.live
  · simp only [hlive, not_true_eq_false, if_false, throw_bind, ite_throw_eq_ok, not_or, not_lt,
      Bool.not_eq_true, pure_eq_ok, Prod.mk.injEq, true_and] at h
    obtain ⟨⟨hseq, hfresh⟩, rfl⟩ := h
    exact Or.inr ⟨hlive, hseq, hfresh, rfl⟩
  · simp only [hlive, Bool.false_eq_true, not_false_eq_true, if_true, pure_eq_ok, Prod.mk.injEq,
      true_and] at h
    exact Or.inl ⟨by simpa using hlive, h.symm⟩

/-- Scheduling candidates changes the blob table only. -/
theorem foldl_scheduleOrClearBlobCandidate (x : DeletionRecord) (ids : List String) (db : Db) :
    ids.foldl (scheduleOrClearBlobCandidate x) db =
      { db with
        blobs := db.blobs.map fun r =>
          if r.id ∈ ids then
            if db.hasLiveReference r.id then r.clearCandidate else r.schedule x
          else r } := by
  induction ids generalizing db with
  | nil => simp
  | cons blobId rest ih =>
    rw [List.foldl_cons, ih]
    -- a blob id occurring again is given what it was given before
    have hmap : (scheduleOrClearBlobCandidate x db blobId).blobs.map (fun r =>
        if r.id ∈ rest then
          if db.hasLiveReference r.id then r.clearCandidate else r.schedule x
        else r) = db.blobs.map fun r =>
          if r.id ∈ blobId :: rest then
            if db.hasLiveReference r.id then r.clearCandidate else r.schedule x
          else r := by
      unfold scheduleOrClearBlobCandidate updateWhere
      rw [List.map_map]
      refine List.map_congr_left fun r _ => ?_
      by_cases hid : r.id = blobId <;> by_cases hrest : r.id ∈ rest <;>
        by_cases hlive : db.hasLiveReference r.id <;>
        simp_all [BlobRow.clearCandidate, BlobRow.schedule]
    exact congrArg (fun blobs => { db with blobs := blobs }) hmap

/-- What the statements of one candidate's transaction come to. -/
theorem collectBlobRow_ok {blobId : String} {nowSeq : ℤ} {step : Collecting}
    (h : collectBlobRow blobId nowSeq db = .ok (step, db')) :
    (step = .skipped ∧ db' = db) ∨
    ∃ row, row ∈ db.blobs ∧ row.id = blobId ∧ row.eligible nowSeq = true ∧
      ((step = .cleared ∧ db.hasLiveReference row.id = true ∧
          db' = { db with
            blobs := updateWhere (fun r => decide (r.id = row.id)) BlobRow.clearCandidate
              db.blobs }) ∨
        (step = .deleting ∧ (∀ a ∈ db.artifacts, a.blobId ≠ row.id) ∧
          db' = { db with blobs := db.blobs.filter fun r => decide (r.id ≠ row.id) })) := by
  unfold collectBlobRow at h
  split at h
  · obtain ⟨rfl, rfl⟩ := Prod.mk.inj (pure_eq_ok.mp h)
    exact Or.inl ⟨rfl, rfl⟩
  · next row hrow =>
    have hkey := List.find?_some hrow
    simp only [Bool.and_eq_true, decide_eq_true_eq] at hkey
    refine Or.inr ⟨row, List.mem_of_find?_eq_some hrow, hkey.1, hkey.2, ?_⟩
    split_ifs at h with hlive href
    · obtain ⟨rfl, rfl⟩ := Prod.mk.inj (pure_eq_ok.mp h)
      exact Or.inl ⟨rfl, hlive, rfl⟩
    · obtain ⟨rfl, rfl⟩ := Prod.mk.inj (pure_eq_ok.mp h)
      simp only [List.any_eq_true, decide_eq_true_eq, not_exists, not_and] at href
      exact Or.inr ⟨rfl, href, rfl⟩

/-! ## §5 — The tables a transaction leaves alone. -/

theorem getOrCreateSession_frame {new : NewUpload} {sessionId : String}
    (h : getOrCreateSession new db = .ok (sessionId, db')) :
    db' = { db with sessions := db'.sessions } := by
  rcases (getOrCreateSession_ok h).2 with ⟨row, -, -, rfl⟩ | ⟨-, -, -, rfl⟩ <;> rfl

theorem persistUpload_frame {new : NewUpload} {created : CreatedUpload}
    (h : persistUpload c cfg new db = .ok (created, db')) :
    db' = { db with
      sessions := db'.sessions
      uploads := db'.uploads
      manifests := db'.manifests
      uploadArtifacts := db'.uploadArtifacts } := by
  obtain ⟨sessionId, db₁, hsession, -, hcase⟩ := persistUpload_ok h
  have hdb₁ := getOrCreateSession_frame hsession
  rcases hcase with ⟨-, -, -, -, rfl⟩ | ⟨-, -, -, row, -, hdetail⟩
  · rw [hdb₁]
  · obtain ⟨rows, -, -, rfl, -⟩ := persistNewUploadDetail_ok hdetail
    rw [hdb₁]

theorem terminalizeUpload_frame {upload : UploadRow} {reason : TerminalReason}
    {terminalAt : String} {ended : Bool}
    (h : terminalizeUpload upload reason terminalAt db = .ok (ended, db')) :
    db' = { db with
      uploadAudits := db'.uploadAudits
      uploadChunks := db'.uploadChunks
      uploadArtifacts := db'.uploadArtifacts
      manifests := db'.manifests
      uploads := db'.uploads } := by
  rcases terminalizeUpload_ok h with ⟨-, -, rfl⟩ | ⟨-, -, -, -, -, rfl⟩ <;> rfl

theorem persistChunkRecord_frame {uploadId sha256 acceptedAt : String}
    {artifactIndex chunkIndex byteLength : ℕ}
    (h : persistChunkRecord uploadId artifactIndex chunkIndex byteLength sha256 acceptedAt db =
      .ok ((), db')) :
    db' = { db with uploadChunks := db'.uploadChunks } := by
  rcases (persistChunkRecord_ok h).2 with ⟨-, rfl⟩ | ⟨-, -, -, -, rfl⟩ <;> rfl

theorem insertCaptureProvenance_frame {newId manifestId snapshotId completedAt : String}
    {upload : UploadRow} {manifest : Manifest}
    (h : insertCaptureProvenance c newId upload manifest manifestId snapshotId completedAt db =
      .ok db') :
    db' = { db with
      captures := db'.captures
      sessionLatestContext := db'.sessionLatestContext } := by
  obtain ⟨seq, db₁, -, -, hcase, hmaintain⟩ := insertCaptureProvenance_ok h
  obtain ⟨-, -, contexts, -, -, -, -, -, rfl⟩ := maintainSessionLatestContext_ok hmaintain
  rcases hcase with ⟨-, -, -, -, rfl⟩ | ⟨-, rfl⟩ <;> rfl

theorem finalizeUpload_frame {x : Completing} {snapshotId : String} {completed : Bool}
    (h : finalizeUpload c x snapshotId db = .ok (completed, db')) :
    db' = { db with
      uploads := db'.uploads
      captures := db'.captures
      sessionLatestContext := db'.sessionLatestContext } := by
  rcases (finalizeUpload_ok h).2 with ⟨-, -, manifestRow, -, hcapture⟩ | ⟨-, -, rfl⟩
  · rw [insertCaptureProvenance_frame hcapture]
    rfl
  · rfl

theorem linkRearchive_frame (snapshotId : String) (prior : Option TombstoneRow) (db : Db) :
    linkRearchive snapshotId prior db =
      { db with tombstones := (linkRearchive snapshotId prior db).tombstones } := by
  cases prior <;> rfl

theorem finalizeWinningSnapshot_frame {x : CompletionRecord} {manifestId : String}
    {blobIds : List (String × String)}
    (h : finalizeWinningSnapshot c x manifestId blobIds db = .ok db') :
    db' = { db with
      artifacts := db'.artifacts
      uploads := db'.uploads
      captures := db'.captures
      sessionLatestContext := db'.sessionLatestContext } := by
  obtain ⟨rows, -, -, -, ⟨-, hcapture⟩ | ⟨-, rfl⟩⟩ := finalizeWinningSnapshot_ok h
  · rw [insertCaptureProvenance_frame hcapture]
    rfl
  · rfl

theorem recordCompletedUpload_frame {x : CompletionRecord} {outcome : RecordOutcome}
    (h : recordCompletedUpload c x db = .ok (outcome, db')) :
    db' = { db with
      blobs := db'.blobs
      snapshots := db'.snapshots
      artifacts := db'.artifacts
      uploads := db'.uploads
      captures := db'.captures
      sessionLatestContext := db'.sessionLatestContext
      tombstones := db'.tombstones } := by
  rcases recordCompletedUpload_ok h with
    ⟨-, rfl⟩ | ⟨blobIds, blobs, manifestRow, row, db₂, -, -, -, -, -, -, -, hfinal, rfl⟩
  · rfl
  · rw [linkRearchive_frame, finalizeWinningSnapshot_frame hfinal]

theorem recordDeletion_frame {x : DeletionRecord} (h : recordDeletion x db = .ok ((), db')) :
    db' = { db with
      tombstones := db'.tombstones
      deletionAudits := db'.deletionAudits
      snapshots := db'.snapshots
      artifacts := db'.artifacts
      blobs := db'.blobs
      sessionLatestContext := db'.sessionLatestContext } := by
  obtain ⟨snapshot, manifest, -, ⟨-, rfl⟩ | ⟨-, -, -, rfl⟩⟩ := recordDeletion_ok h
  · rfl
  · rw [foldl_scheduleOrClearBlobCandidate]
    rfl

theorem collectBlobRow_frame {blobId : String} {nowSeq : ℤ} {step : Collecting}
    (h : collectBlobRow blobId nowSeq db = .ok (step, db')) :
    db' = { db with blobs := db'.blobs } := by
  rcases collectBlobRow_ok h with ⟨-, rfl⟩ | ⟨row, -, -, -, ⟨-, -, rfl⟩ | ⟨-, -, rfl⟩⟩ <;> rfl

/-! ## §6 — Unique keys. -/

/-- The unique keys of the tables. -/
structure Db.Unique (db : Db) : Prop where
  sessions : UniqueOn SessionRow.id db.sessions
  uploads : UniqueOn UploadRow.id db.uploads
  captureIds : UniqueOn (fun r => (r.ownerNamespace, r.clientId, r.captureId)) db.uploads
  manifestIds : UniqueOn ManifestRow.id db.manifests
  manifests : UniqueOn ManifestRow.uploadId db.manifests
  uploadArtifacts : UniqueOn (fun r => (r.uploadId, r.artifactIndex)) db.uploadArtifacts
  uploadChunks : UniqueOn (fun r => (r.uploadId, r.artifactIndex, r.chunkIndex)) db.uploadChunks
  blobs : UniqueOn BlobRow.id db.blobs
  digests : UniqueOn (fun r => (r.ownerNamespace, r.storedSha256)) db.blobs
  snapshots : UniqueOn SnapshotRow.id db.snapshots
  artifacts : UniqueOn ArtifactRow.id db.artifacts
  artifactIndexes : UniqueOn (fun r => (r.snapshotId, r.artifactIndex)) db.artifacts
  captures : UniqueOn CaptureRow.uploadId db.captures
  contexts : UniqueOn SessionLatestContextRow.sessionId db.sessionLatestContext

theorem Db.Unique.empty : Db.empty.Unique := by
  constructor <;> exact UniqueOn.nil

/-- A context maintained after a completion stays the only one of its session. -/
theorem ContextMaintained.unique {row : SessionLatestContextRow}
    {old new : List SessionLatestContextRow} (h : ContextMaintained row old new)
    (hu : UniqueOn SessionLatestContextRow.sessionId old) :
    UniqueOn SessionLatestContextRow.sessionId new := by
  cases h with
  | added hnone hsnapshot => exact hu.append hnone
  | moved current hmem hsession hup hsnapshot =>
    unfold updateWhere
    refine hu.map fun r _ => ?_
    split
    · next hkey => exact (of_decide_eq_true hkey).symm
    · rfl
  | stays current hmem hsession hnotUp => exact hu

theorem getOrCreateSession_unique {new : NewUpload} {sessionId : String} (hu : db.Unique)
    (h : getOrCreateSession new db = .ok (sessionId, db')) : db'.Unique := by
  rcases (getOrCreateSession_ok h).2 with ⟨row, -, -, rfl⟩ | ⟨-, hfresh, -, rfl⟩
  · exact { hu with sessions := hu.sessions.updateWhere fun _ _ => rfl }
  · refine { hu with sessions := hu.sessions.append fun x hx hid => ?_ }
    have hmiss := List.find?_eq_none.mp hfresh x hx
    simp only [decide_eq_true_eq] at hmiss
    exact hmiss hid

theorem persistUpload_unique {new : NewUpload} {created : CreatedUpload} (hu : db.Unique)
    (h : persistUpload c cfg new db = .ok (created, db')) : db'.Unique := by
  obtain ⟨sessionId, db₁, hsession, -, hcase⟩ := persistUpload_ok h
  have hu₁ := getOrCreateSession_unique hu hsession
  rcases hcase with ⟨-, -, -, -, rfl⟩ | ⟨hcapture, hfresh, -, row, hrow, hdetail⟩
  · exact hu₁
  · obtain ⟨rows, -, hmanifest, rfl, hindexes, -⟩ := persistNewUploadDetail_ok hdetail
    obtain ⟨hid, howner, -, hclient, hcaptureId, -⟩ := newUploadRow_ok hrow
    refine { hu₁ with
      uploads := hu₁.uploads.append fun x hx hkey => ?_
      captureIds := hu₁.captureIds.append fun x hx hkey => ?_
      manifestIds := hu₁.manifestIds.append fun x hx => (hmanifest x hx).1
      manifests := hu₁.manifests.append fun x hx => (hmanifest x hx).2
      uploadArtifacts := hindexes hu₁.uploadArtifacts }
    · have hmiss := List.find?_eq_none.mp hfresh x hx
      simp only [decide_eq_true_eq] at hmiss
      exact hmiss (hkey.trans hid)
    · have hmiss := List.find?_eq_none.mp hcapture x hx
      simp only [decide_eq_true_eq] at hmiss
      simp only [howner, hclient, hcaptureId, Prod.mk.injEq] at hkey
      exact hmiss hkey

theorem terminalizeUpload_unique {upload : UploadRow} {reason : TerminalReason}
    {terminalAt : String} {ended : Bool} (hu : db.Unique)
    (h : terminalizeUpload upload reason terminalAt db = .ok (ended, db')) : db'.Unique := by
  rcases terminalizeUpload_ok h with ⟨-, -, rfl⟩ | ⟨-, -, -, -, -, rfl⟩
  · exact hu
  · exact { hu with
      uploads := hu.uploads.filter _
      captureIds := hu.captureIds.filter _
      manifestIds := hu.manifestIds.filter _
      manifests := hu.manifests.filter _
      uploadArtifacts := hu.uploadArtifacts.filter _
      uploadChunks := hu.uploadChunks.filter _ }

theorem persistChunkRecord_unique {uploadId sha256 acceptedAt : String}
    {artifactIndex chunkIndex byteLength : ℕ} (hu : db.Unique)
    (h : persistChunkRecord uploadId artifactIndex chunkIndex byteLength sha256 acceptedAt db =
      .ok ((), db')) : db'.Unique := by
  rcases (persistChunkRecord_ok h).2 with ⟨hnone, rfl⟩ | ⟨-, -, -, -, rfl⟩
  · refine { hu with uploadChunks := hu.uploadChunks.append fun x hx hkey => ?_ }
    have hmiss := List.find?_eq_none.mp hnone x hx
    simp only [decide_eq_true_eq] at hmiss
    simp only [Prod.mk.injEq] at hkey
    exact hmiss hkey
  · exact hu

theorem setUploadStatus_unique {uploadId : String} {complete : Bool} (hu : db.Unique)
    (h : setUploadStatus uploadId complete db = .ok ((), db')) : db'.Unique := by
  obtain ⟨-, rfl⟩ := Prod.mk.inj (pure_eq_ok.mp h)
  exact { hu with
    uploads := hu.uploads.updateWhere fun _ _ => rfl
    captureIds := hu.captureIds.updateWhere fun _ _ => rfl }

theorem completeUploadRow_unique (uploadId snapshotId now : String)
    (transferBytes newlyPersistedBytes : ℤ) (hu : db.Unique) :
    (completeUploadRow uploadId snapshotId now transferBytes newlyPersistedBytes db).Unique :=
  { hu with
    uploads := hu.uploads.updateWhere fun _ _ => rfl
    captureIds := hu.captureIds.updateWhere fun _ _ => rfl }

theorem insertCaptureProvenance_unique {newId manifestId snapshotId completedAt : String}
    {upload : UploadRow} {manifest : Manifest} (hu : db.Unique)
    (h : insertCaptureProvenance c newId upload manifest manifestId snapshotId completedAt db =
      .ok db') : db'.Unique := by
  obtain ⟨seq, db₁, -, -, hcase, hmaintain⟩ := insertCaptureProvenance_ok h
  obtain ⟨snapshot, seq', contexts, -, -, -, -, hcontext, rfl⟩ :=
    maintainSessionLatestContext_ok hmaintain
  rcases hcase with ⟨-, -, -, -, rfl⟩ | ⟨hfresh, rfl⟩
  · exact { hu with contexts := hcontext.unique hu.contexts }
  · exact { hu with
      captures := hu.captures.append fun x hx => (hfresh x hx).1
      contexts := hcontext.unique hu.contexts }

theorem finalizeUpload_unique {x : Completing} {snapshotId : String} {completed : Bool}
    (hu : db.Unique) (h : finalizeUpload c x snapshotId db = .ok (completed, db')) :
    db'.Unique := by
  rcases (finalizeUpload_ok h).2 with ⟨-, -, manifestRow, -, hcapture⟩ | ⟨-, -, rfl⟩
  · exact insertCaptureProvenance_unique (completeUploadRow_unique _ _ _ _ _ hu) hcapture
  · exact hu

theorem recordCompletedUpload_unique {x : CompletionRecord} {outcome : RecordOutcome}
    (hu : db.Unique) (h : recordCompletedUpload c x db = .ok (outcome, db')) : db'.Unique := by
  rcases recordCompletedUpload_ok h with
    ⟨-, rfl⟩ | ⟨blobIds, blobs, manifestRow, row, db₂, -, hblobs, -, -, hrow, hfresh, -, hfinal,
      rfl⟩
  · exact hu
  · have hsnapshot : row.id = x.snapshotId := by
      obtain ⟨original, stored, -, -, rfl⟩ := snapshotRow_ok hrow
      rfl
    obtain ⟨rows, -, hid, hindex, hcase⟩ := finalizeWinningSnapshot_ok hfinal
    have hrecorded : Db.Unique { db with
        blobs := blobs
        snapshots := db.snapshots ++ [row]
        artifacts := db.artifacts ++ rows } :=
      { hu with
        blobs := hblobs.idsUnique hu.blobs
        digests := hblobs.digestsUnique hu.digests
        snapshots := hu.snapshots.append fun y hy hkey => by
          have hmiss := List.find?_eq_none.mp hfresh y hy
          simp only [decide_eq_true_eq] at hmiss
          exact hmiss (hkey.trans hsnapshot)
        artifacts := hid hu.artifacts
        artifactIndexes := hindex hu.artifactIndexes }
    have hfinal : db₂.Unique := by
      rcases hcase with ⟨-, hcapture⟩ | ⟨-, rfl⟩
      · exact insertCaptureProvenance_unique (completeUploadRow_unique _ _ _ _ _ hrecorded) hcapture
      · exact hrecorded
    rw [linkRearchive_frame]
    exact { hfinal with }

/-- A session's rebuilt context belongs to the session. -/
theorem latestContext_sessionId {sessionId : String} {row : SessionLatestContextRow}
    (h : db.latestContext sessionId = some row) :
    ∃ snapshot ∈ db.snapshots, snapshot.sessionId = sessionId ∧ snapshot.live = true ∧
      ∃ capture ∈ db.captures, capture.snapshotId = snapshot.id ∧
      ∃ session, db.session sessionId = some session ∧
        row = ⟨sessionId, snapshot.id, snapshot.completedAt, snapshot.completedAtSeq,
          session.sourceAgent, capture.project, capture.repository, capture.branch,
          capture.sourceAgentVersion, capture.artifactSetVersion⟩ := by
  unfold Db.latestContext at h
  simp only [Option.bind_eq_bind, Option.bind_eq_some_iff, Option.some.injEq, Prod.exists] at h
  obtain ⟨session, hsession, snapshot, capture, hhead, rfl⟩ := h
  have hmem : (snapshot, capture) ∈ db.sessionContexts sessionId :=
    (List.mem_insertionSort contextNotOlder).mp (List.mem_of_mem_head? hhead)
  simp only [Db.sessionContexts, List.mem_flatMap, List.mem_filter, List.mem_map, Prod.mk.injEq,
    Bool.and_eq_true, decide_eq_true_eq] at hmem
  obtain ⟨s, ⟨hs, hsid, hlive⟩, r, ⟨hr, hrid⟩, rfl, rfl⟩ := hmem
  exact ⟨s, hs, hsid, hlive, r, hr, hrid, session, hsession, by rw [hsid]⟩

theorem rebuildSessionLatestContext_unique (sessionId : String) (hu : db.Unique) :
    (rebuildSessionLatestContext sessionId db).Unique := by
  refine { hu with contexts := ?_ }
  show UniqueOn _ (_ ++ (db.latestContext sessionId).toList)
  cases hrow : db.latestContext sessionId with
  | none => simpa using hu.contexts.filter _
  | some row =>
    refine (hu.contexts.filter _).append fun x hx hkey => ?_
    have hne : x.sessionId ≠ sessionId := by simpa using List.of_mem_filter hx
    obtain ⟨snapshot, -, -, -, capture, -, -, session, -, rfl⟩ := latestContext_sessionId hrow
    exact hne hkey

theorem recordDeletion_unique {x : DeletionRecord} (hu : db.Unique)
    (h : recordDeletion x db = .ok ((), db')) : db'.Unique := by
  obtain ⟨snapshot, manifest, -, ⟨-, rfl⟩ | ⟨-, -, -, rfl⟩⟩ := recordDeletion_ok h
  · exact hu
  · apply rebuildSessionLatestContext_unique
    rw [foldl_scheduleOrClearBlobCandidate]
    exact { hu with
      snapshots := hu.snapshots.updateWhere fun _ _ => rfl
      artifacts := hu.artifacts.filter _
      artifactIndexes := hu.artifactIndexes.filter _
      blobs := hu.blobs.map fun r _ => by split_ifs <;> rfl
      digests := hu.digests.map fun r _ => by split_ifs <;> rfl }

theorem collectBlobRow_unique {blobId : String} {nowSeq : ℤ} {step : Collecting} (hu : db.Unique)
    (h : collectBlobRow blobId nowSeq db = .ok (step, db')) : db'.Unique := by
  rcases collectBlobRow_ok h with ⟨-, rfl⟩ | ⟨row, -, -, -, ⟨-, -, rfl⟩ | ⟨-, -, rfl⟩⟩
  · exact hu
  · exact { hu with
      blobs := hu.blobs.updateWhere fun _ _ => rfl
      digests := hu.digests.updateWhere fun _ _ => rfl }
  · exact { hu with
      blobs := hu.blobs.filter _
      digests := hu.digests.filter _ }

end Patwari
