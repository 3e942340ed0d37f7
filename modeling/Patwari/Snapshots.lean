/-
# Patwari.Snapshots — the identity of snapshots and captures.

A snapshot is identified by its session and the fingerprint of its manifest, a capture by its
upload. §1 states what a database says of snapshots, captures and artifacts, §2 that every step
keeps it: one lemma for the steps that touch no snapshot, and one each for a capture that is
attached, a snapshot that is recorded and one that is deleted. §3 reads the result off at any moment
of an archive's life.
-/
import Patwari.Bootstrap
import Patwari.Fingerprint

namespace Patwari

open Lib (TaskId Event Pool UniqueOn updateWhere mem_updateWhere)

variable {c : Crates} {cfg : Config} {t : TaskId} {s s' : Shared} {ids : List String} {db db' : Db}

/-! ## §1 — What the rows of a snapshot say. -/

/-- The rows of a snapshot say what its manifest says. -/
def Projected (c : Crates) (db : Db) (snapshot : SnapshotRow) : Prop :=
  ∃ m ∈ db.manifests, m.id = snapshot.manifestId ∧
    reconcile c snapshot m (db.reconcileArtifacts snapshot.id) = .ok ()

/-- A capture points to a snapshot of the upload's session with the fingerprint of its manifest. -/
def Identified (c : Crates) (db : Db) (r : CaptureRow) (u : UploadRow) : Prop :=
  ∃ snapshot ∈ db.snapshots, snapshot.id = r.snapshotId ∧ snapshot.sessionId = u.sessionId ∧
    ∃ m ∈ db.manifests, m.uploadId = u.id ∧ ∃ manifest,
      parseManifest c m.canonicalJson = some manifest ∧
        snapshot.fingerprintSha256 = snapshotFingerprint c manifest

/-- A manifest row with the digest of its text, which is a manifest that was accepted. -/
def ManifestRow.Sound (c : Crates) (m : ManifestRow) : Prop :=
  c.sha256Hex (utf8 m.canonicalJson) = m.sha256 ∧ ∃ manifest,
    parseManifest c m.canonicalJson = some manifest ∧ OneRepresentation manifest.artifacts

/-- The session and the fingerprint of a snapshot. -/
def SnapshotRow.identity (r : SnapshotRow) : String × String := (r.sessionId, r.fingerprintSha256)

/-- **`Db.Identities`** — what a database says of manifests, snapshots, captures and artifacts. -/
structure Db.Identities (c : Crates) (db : Db) : Prop where
  manifests : ∀ m ∈ db.manifests, m.Sound c
  liveOnce : UniqueOn SnapshotRow.identity (db.snapshots.filter SnapshotRow.live)
  captures : ∀ r ∈ db.captures, ∃ u ∈ db.uploads, u.id = r.uploadId ∧ u.status = .completed ∧
    Identified c db r u
  captured : ∀ r ∈ db.snapshots, r.live = true → ∃ capture ∈ db.captures, capture.snapshotId = r.id
  projected : ∀ r ∈ db.snapshots, r.live = true → Projected c db r
  artifacts : ∀ a ∈ db.artifacts, ∃ r ∈ db.snapshots, r.id = a.snapshotId ∧ r.live = true
  blobs : ∀ a ∈ db.artifacts, ∃ b ∈ db.blobs, b.id = a.blobId

/-- The documents whose digests are the fingerprints of the manifests on record. -/
def Db.fingerprinted (c : Crates) (db : Db) : Set Bytes :=
  {bytes | ∃ m ∈ db.manifests, ∃ manifest, parseManifest c m.canonicalJson = some manifest ∧
    bytes = manifest.fingerprinted}

theorem Db.Identities.empty : Db.empty.Identities c := by
  constructor <;> simp [Db.empty, UniqueOn]

/-- Reconciliation looks at the fixed columns of blob rows only. -/
theorem rowsMatch_congr : ∀ {artifacts : List Artifact} {rows rows' : List (ArtifactRow × BlobRow)}
    {k : ℕ}, rows'.map (fun e => (e.1, e.2.fixed)) = rows.map (fun e => (e.1, e.2.fixed)) →
    rowsMatch artifacts rows' k = rowsMatch artifacts rows k
  | artifacts, [], [], _, _ => rfl
  | _, [], _ :: _, _, h => by simp at h
  | _, _ :: _, [], _, h => by simp at h
  | [], _ :: _, _ :: _, _, _ => rfl
  | artifact :: artifacts, (row, blob) :: rows, (row', blob') :: rows', k, h => by
    obtain ⟨hhead, htail⟩ := List.cons.inj h
    obtain ⟨rfl, hfixed⟩ := Prod.mk.inj hhead
    obtain ⟨-, -, hdigest, hsize, hcompression⟩ := BlobRow.of_fixed hfixed
    unfold rowsMatch rowMatches
    rw [hdigest, hsize, hcompression, rowsMatch_congr htail]

theorem reconcile_congr {snapshot : SnapshotRow} {m : ManifestRow}
    {rows rows' : List (ArtifactRow × BlobRow)}
    (h : rows'.map (fun e => (e.1, e.2.fixed)) = rows.map (fun e => (e.1, e.2.fixed))) :
    reconcile c snapshot m rows' = reconcile c snapshot m rows := by
  have hmatch : ∀ artifacts, rowsMatch artifacts rows' 0 = rowsMatch artifacts rows 0 :=
    fun _ => rowsMatch_congr h
  unfold reconcile
  simp only [hmatch]

theorem Db.blob_eq_some (h : UniqueOn BlobRow.id db.blobs) {b : BlobRow} (hb : b ∈ db.blobs) :
    db.blob b.id = some b :=
  Lib.find?_unique h hb

/-- A snapshot whose manifest, artifacts and blobs are kept stays projected. -/
theorem Projected.kept {snapshot : SnapshotRow} (h : Projected c db snapshot)
    (hunique : UniqueOn BlobRow.id db.blobs) (hunique' : UniqueOn BlobRow.id db'.blobs)
    (hmanifest : ∀ m ∈ db.manifests, m.id = snapshot.manifestId → m ∈ db'.manifests)
    (hartifacts : (db'.artifacts.filter fun a => decide (a.snapshotId = snapshot.id)) =
      db.artifacts.filter fun a => decide (a.snapshotId = snapshot.id))
    (hexists : ∀ a ∈ db.artifacts, ∃ b ∈ db.blobs, b.id = a.blobId)
    (hblobs : ∀ b ∈ db.blobs, (∃ a ∈ db.artifacts, a.blobId = b.id) →
      ∃ b' ∈ db'.blobs, b'.fixed = b.fixed) :
    Projected c db' snapshot := by
  obtain ⟨m, hm, hid, hok⟩ := h
  refine ⟨m, hmanifest m hm hid, hid, ?_⟩
  rw [← hok]
  refine reconcile_congr ?_
  unfold Db.reconcileArtifacts
  rw [hartifacts, List.map_filterMap, List.map_filterMap]
  refine List.filterMap_congr fun a ha => ?_
  have hmem : a ∈ db.artifacts := List.mem_of_mem_filter ((List.mem_insertionSort _).mp ha)
  obtain ⟨b, hb, hbid⟩ := hexists a hmem
  obtain ⟨b', hb', hfixed⟩ := hblobs b hb ⟨a, hmem, hbid.symm⟩
  have hread : db.blob a.blobId = some b := by rw [← hbid, Db.blob_eq_some hunique hb]
  have hread' : db'.blob a.blobId = some b' := by
    rw [← hbid, ← (BlobRow.of_fixed hfixed).1, Db.blob_eq_some hunique' hb']
  rw [hread, hread', Option.map_some, Option.map_some, Option.map_some, Option.map_some, hfixed]

/-! ## §2 — Every step keeps it. -/

/-- A change that touches no snapshot, artifact, capture or completed upload, and nothing they refer
to. -/
structure Db.Spares (db db' : Db) : Prop where
  snapshots : db'.snapshots = db.snapshots
  artifacts : db'.artifacts = db.artifacts
  captures : db'.captures = db.captures
  uploads : ∀ u ∈ db.uploads, u.status = .completed → u ∈ db'.uploads
  manifests : ∀ m ∈ db.manifests, (∃ r ∈ db.snapshots, r.manifestId = m.id) ∨
    (∃ r ∈ db.captures, r.uploadId = m.uploadId) → m ∈ db'.manifests
  blobs : ∀ b ∈ db.blobs, (∃ a ∈ db.artifacts, a.blobId = b.id) → ∃ b' ∈ db'.blobs, b'.fixed =
    b.fixed

theorem Db.Identities.spared (h : db.Identities c) (hspares : db.Spares db') (hunique : db.Unique)
    (hunique' : db'.Unique) (hnew : ∀ m ∈ db'.manifests, m ∈ db.manifests ∨ m.Sound c) :
    db'.Identities c where
  manifests := fun m hm => (hnew m hm).elim (h.manifests m) id
  liveOnce := by
    rw [hspares.snapshots]
    exact h.liveOnce
  captures := by
    intro r hr
    rw [hspares.captures] at hr
    obtain ⟨u, hu, hid, hdone, snapshot, hsnapshot, hsid, hsession, m, hm, hmid, hfingerprint⟩ :=
      h.captures r hr
    refine ⟨u, hspares.uploads u hu hdone, hid, hdone, snapshot, ?_, hsid, hsession, m,
      hspares.manifests m hm (Or.inr ⟨r, hr, hid.symm.trans hmid.symm⟩), hmid, hfingerprint⟩
    rw [hspares.snapshots]
    exact hsnapshot
  captured := by
    rw [hspares.snapshots, hspares.captures]
    exact h.captured
  projected := by
    intro r hr hlive
    rw [hspares.snapshots] at hr
    refine (h.projected r hr hlive).kept hunique.blobs hunique'.blobs
      (fun m hm hid => hspares.manifests m hm (Or.inl ⟨r, hr, hid.symm⟩)) ?_ h.blobs hspares.blobs
    rw [hspares.artifacts]
  artifacts := by
    rw [hspares.artifacts, hspares.snapshots]
    exact h.artifacts
  blobs := by
    intro a ha
    rw [hspares.artifacts] at ha
    obtain ⟨b, hb, hid⟩ := h.blobs a ha
    obtain ⟨b', hb', hfixed⟩ := hspares.blobs b hb ⟨a, ha, hid.symm⟩
    exact ⟨b', hb', (BlobRow.of_fixed hfixed).1.trans hid⟩

/-- A capture attached to a snapshot of the upload's session and fingerprint. -/
theorem Db.Identities.attach {x : Completing} {snapshot : SnapshotRow} {manifestId : String}
    {newlyPersistedBytes seq : ℤ} {manifestRow : ManifestRow} (h : db.Identities c)
    (hattach : Attaching c x manifestRow db) (hsnapshot : snapshot ∈ db'.snapshots)
    (hsession : snapshot.sessionId = x.upload.sessionId)
    (hfingerprint : snapshot.fingerprintSha256 = snapshotFingerprint c x.manifest)
    (huploads : db'.uploads = completedUploads x snapshot.id newlyPersistedBytes db.uploads)
    (hcaptures : db'.captures = db.captures ++
      [captureRow x.captureId x.upload x.manifest manifestId snapshot.id x.now seq])
    (hsnapshots : ∀ r ∈ db.snapshots, r ∈ db'.snapshots)
    (hmanifests : db'.manifests = db.manifests) :
    ∀ r ∈ db'.captures, ∃ u ∈ db'.uploads, u.id = r.uploadId ∧ u.status = .completed ∧
      Identified c db' r u := by
  intro r hr
  rw [hcaptures] at hr
  unfold Identified
  rw [huploads, hmanifests]
  rcases List.mem_append.mp hr with hr | hr
  · obtain ⟨u, hu, hid, hdone, old, hold, hrest⟩ := h.captures r hr
    exact ⟨u, mem_completedUploads hu hdone, hid, hdone, old, hsnapshots old hold, hrest⟩
  · obtain rfl := List.mem_singleton.mp hr
    obtain ⟨u, hu, hactive, hfixed⟩ := hattach.upload
    have hid : u.id = x.upload.id := UploadRow.id_of_fixed hfixed
    have hsame : u.fixed.sessionId = x.upload.fixed.sessionId := by rw [hfixed]
    exact ⟨_, completed_mem_completedUploads hu hid hactive, hid, rfl, snapshot, hsnapshot, rfl,
      hsession.trans hsame.symm, manifestRow, hattach.manifest,
      hattach.manifestUpload.trans hid.symm, x.manifest, hattach.parsed, hfingerprint⟩

/-- The artifact rows of a new snapshot, in order, are what was prepared. -/
theorem rowsMatch_recorded {read : String → Option BlobRow} {prepared : List PreparedArtifact}
    {rows : List ArtifactRow} (h : List.Forall₂ (fun p a => ∃ b, read a.blobId = some b ∧
      rowMatches p.artifactIndex p.artifact a b = true) prepared rows) :
    ∀ k, prepared.map PreparedArtifact.artifactIndex = List.range' k prepared.length →
      rowsMatch (prepared.map PreparedArtifact.artifact)
        (rows.filterMap fun a => (read a.blobId).map fun b => (a, b)) k = true := by
  induction h with
  | nil =>
    intro k _
    rfl
  | @cons p a prepared rows hhead _ ih =>
    intro k hindexes
    obtain ⟨b, hread, hmatches⟩ := hhead
    obtain ⟨hindex, hrest⟩ := List.cons.inj hindexes
    rw [List.filterMap_cons, hread, Option.map_some]
    show (rowMatches k p.artifact a b && rowsMatch _ _ (k + 1)) = true
    rw [← hindex, hmatches, hindex, ih (k + 1) hrest]
    rfl

/-- A new snapshot is what its manifest says. -/
theorem projected_recorded {x : CompletionRecord} {row : SnapshotRow} {manifestRow : ManifestRow}
    {blobIds : List (String × String)} {rows : List ArtifactRow} {prior : Option TombstoneRow}
    {old : List BlobRow} {mode : Mode} (hx : RecordOk c mode t x s)
    (hattach : Attaching c x.toCompleting manifestRow db) (hsound : manifestRow.Sound c)
    (hblobs : BlobsRecorded x.now (x.prepared.zip x.blobIds) old db'.blobs blobIds)
    (hunique : UniqueOn BlobRow.id db'.blobs) (hrow : snapshotRow x manifestRow.id prior = .ok row)
    (hrows : (x.prepared.zip x.artifactIds).mapM (fun e =>
      artifactRow x.snapshotId x.now x.nowSeq blobIds e.1 e.2) = .ok rows)
    (hmanifest : manifestRow ∈ db'.manifests)
    (hartifacts : (db'.artifacts.filter fun a => decide (a.snapshotId = row.id)) = rows) :
    Projected c db' row := by
  obtain ⟨original, stored, htotals, -, hrowEq⟩ := snapshotRow_ok hrow
  obtain ⟨hdigest, manifest, hparsed, hone⟩ := hsound
  obtain rfl : manifest = x.manifest := Option.some.inj (hparsed.symm.trans hattach.parsed)
  have hdeclared : ∀ p ∈ x.prepared, p.artifact ∈ x.manifest.artifacts := fun p hp => by
    rw [← hx.artifacts]
    exact List.mem_map_of_mem hp
  have hmatches : List.Forall₂ (fun (p : PreparedArtifact) (a : ArtifactRow) =>
      a.artifactIndex = p.artifactIndex ∧ ∃ b, db'.blob a.blobId = some b ∧
        rowMatches p.artifactIndex p.artifact a b = true) x.prepared rows := by
    have hzip : (x.prepared.zip x.artifactIds).map Prod.fst = x.prepared :=
      List.map_fst_zip hx.artifactIds.ge
    rw [← hzip, List.forall₂_map_left_iff]
    have hmem : ∀ e ∈ x.prepared.zip x.artifactIds, e.1 ∈ x.prepared := fun e he =>
      (List.of_mem_zip he).1
    refine ((List.forall₂_and_left _ _).mpr ⟨hmem, forall₂_of_mapM_ok hrows⟩).imp ?_
    rintro ⟨p, newId⟩ a ⟨hp, ha⟩
    obtain ⟨blobId, hlookup, rfl⟩ := artifactRow_ok ha
    obtain ⟨b, hb, hid, -, ⟨q, qId⟩, hq, hqdigest, hstored, hsize, hcompression⟩ :=
      hblobs.found _ (Crates.mem_of_lookup hlookup)
    -- the blob was declared by some artifact of the digest, hence like this one
    obtain ⟨hsameSize, hsameCompression⟩ := hone q.artifact (hdeclared q (List.of_mem_zip hq).1)
      p.artifact (hdeclared p hp) hqdigest
    have hread : db'.blob blobId = some b := by
      rw [← Db.blob_eq_some hunique hb, hid]
    refine ⟨rfl, b, hread, decide_eq_true ⟨rfl, rfl, rfl, rfl, rfl, ?_, hstored, ?_⟩⟩
    · rw [hsize, hsameSize]
    · rw [hcompression, hsameCompression]
  have hsorted : rows.Pairwise fun a b => a.artifactIndex ≤ b.artifactIndex := by
    have hindexes : rows.map ArtifactRow.artifactIndex =
        (List.range x.prepared.length).map fun k : ℕ => (k : ℤ) := by
      rw [← hx.indexes, List.map_map]
      have heq := hmatches.imp fun _ _ h => h.1.symm
      exact (List.forall₂_eq_eq_eq ▸ (List.forall₂_map_left_iff.mpr
        (List.forall₂_map_right_iff.mpr heq))).symm
    rw [← List.pairwise_map (f := ArtifactRow.artifactIndex) (R := (· ≤ ·)), hindexes,
      List.pairwise_map]
    exact List.pairwise_lt_range.imp fun h => by omega
  have hread : db'.reconcileArtifacts row.id =
      rows.filterMap fun a => (db'.blob a.blobId).map fun b => (a, b) := by
    unfold Db.reconcileArtifacts
    rw [hartifacts, hsorted.insertionSort_eq]
  have hmatch := rowsMatch_recorded (hmatches.imp fun _ _ h => h.2) 0
    (by rw [hx.indexes, List.range_eq_range'])
  rw [hx.artifacts] at hmatch
  refine ⟨manifestRow, hmanifest, by rw [hrowEq], ?_⟩
  unfold reconcile
  rw [hread, if_neg (not_not.mpr hdigest), hparsed]
  simp only [htotals]
  refine if_pos ⟨?_, by rw [hrowEq], by rw [hrowEq], hmatch⟩
  rw [hrowEq, ← hx.artifacts, List.length_map]

/-- A snapshot recorded with its first capture. -/
theorem Db.Identities.recorded {x : CompletionRecord} {row : SnapshotRow}
    {manifestRow : ManifestRow}
    {blobIds : List (String × String)} {blobs : List BlobRow} {rows : List ArtifactRow}
    {prior : Option TombstoneRow} {seq newlyPersistedBytes : ℤ} {mode : Mode}
    (h : db.Identities c) (hx : RecordOk c mode t x s)
    (hattach : Attaching c x.toCompleting manifestRow db)
    (hblobs : BlobsRecorded x.now (x.prepared.zip x.blobIds) db.blobs blobs blobIds)
    (hrow : snapshotRow x manifestRow.id prior = .ok row) (hfresh : db.snapshot x.snapshotId = none)
    (hfree : db.liveSnapshot x.upload.sessionId x.fingerprint = none)
    (hrows : (x.prepared.zip x.artifactIds).mapM (fun e =>
      artifactRow x.snapshotId x.now x.nowSeq blobIds e.1 e.2) = .ok rows)
    (hunique : db.Unique) (hunique' : db'.Unique) (hm : db'.manifests = db.manifests)
    (hb : db'.blobs = blobs) (hs : db'.snapshots = db.snapshots ++ [row])
    (ha : db'.artifacts = db.artifacts ++ rows)
    (hu : db'.uploads = completedUploads x.toCompleting x.snapshotId newlyPersistedBytes db.uploads)
    (hc : db'.captures = db.captures ++
      [captureRow x.captureId x.upload x.manifest manifestRow.id x.snapshotId x.now seq]) :
    db'.Identities c := by
  obtain ⟨original, stored, -, -, hrowEq⟩ := snapshotRow_ok hrow
  have hid : row.id = x.snapshotId := by rw [hrowEq]
  have hlive : row.live = true := by rw [hrowEq]; rfl
  have hidentity : row.identity = (x.upload.sessionId, x.fingerprint) := by rw [hrowEq]; rfl
  have hmem : row ∈ db'.snapshots := by
    rw [hs]
    exact List.mem_append_right _ List.mem_cons_self
  have hkept : ∀ r ∈ db.snapshots, r ∈ db'.snapshots := fun r hr => by
    rw [hs]
    exact List.mem_append_left _ hr
  have hforeign : ∀ r ∈ db.snapshots, r.id ≠ row.id := by
    intro r hr hsame
    have hmiss := List.find?_eq_none.mp hfresh r hr
    rw [hid] at hsame
    simp [hsame] at hmiss
  have howned := (artifactRows_blob hrows).1
  have hkeptBlobs : ∀ b ∈ db.blobs, ∃ b' ∈ db'.blobs, b'.fixed = b.fixed := by
    rw [hb]
    exact hblobs.kept
  constructor
  · rw [hm]
    exact h.manifests
  · rw [hs, List.filter_append, List.filter_cons_of_pos hlive, List.filter_nil]
    refine h.liveOnce.append fun r hr hsame => ?_
    obtain ⟨hr, hrlive⟩ := List.mem_filter.mp hr
    have hmiss := List.find?_eq_none.mp hfree r hr
    rw [hidentity] at hsame
    obtain ⟨hsession, hfingerprint⟩ := Prod.mk.inj hsame
    simp [hsession, hfingerprint, hrlive] at hmiss
  · rw [← hid] at hu hc
    exact h.attach hattach hmem (by rw [hrowEq]) (by rw [hrowEq]; exact hx.fingerprint) hu hc hkept
      hm
  · intro r hr hrlive
    rw [hs] at hr
    rw [hc]
    rcases List.mem_append.mp hr with hr | hr
    · obtain ⟨capture, hcapture, hsid⟩ := h.captured r hr hrlive
      exact ⟨capture, List.mem_append_left _ hcapture, hsid⟩
    · obtain rfl := List.mem_singleton.mp hr
      exact ⟨_, List.mem_append_right _ List.mem_cons_self, hid.symm⟩
  · intro r hr hrlive
    rw [hs] at hr
    rcases List.mem_append.mp hr with hr | hr
    · refine (h.projected r hr hrlive).kept hunique.blobs hunique'.blobs (fun m hmem _ => ?_) ?_
        h.blobs fun b hb _ => hkeptBlobs b hb
      · rw [hm]
        exact hmem
      · rw [ha, List.filter_append, List.append_right_eq_self, List.filter_eq_nil_iff]
        intro a hmem hsame
        exact hforeign r hr
          ((of_decide_eq_true hsame).symm.trans (((howned a hmem).1).trans hid.symm))
    · obtain rfl := List.mem_singleton.mp hr
      refine projected_recorded hx hattach (h.manifests _ hattach.manifest) (hb ▸ hblobs)
        hunique'.blobs hrow hrows (hm ▸ hattach.manifest) ?_
      rw [ha, List.filter_append, List.filter_eq_nil_iff.mpr, List.nil_append, List.filter_eq_self]
      · intro a hmem
        exact decide_eq_true ((howned a hmem).1.trans hid.symm)
      · intro a hmem hsame
        obtain ⟨r₀, hr₀, hid₀, -⟩ := h.artifacts a hmem
        exact hforeign r₀ hr₀ (hid₀.trans (of_decide_eq_true hsame))
  · intro a hmem'
    rw [ha] at hmem'
    rcases List.mem_append.mp hmem' with hold | hnew
    · obtain ⟨r, hr, hrest⟩ := h.artifacts a hold
      exact ⟨r, hkept r hr, hrest⟩
    · exact ⟨row, hmem, hid.trans (howned a hnew).1.symm, hlive⟩
  · intro a hmem'
    rw [ha] at hmem'
    rcases List.mem_append.mp hmem' with hold | hnew
    · obtain ⟨b, hbmem, hbid⟩ := h.blobs a hold
      obtain ⟨b', hb', hfixed⟩ := hkeptBlobs b hbmem
      exact ⟨b', hb', (BlobRow.of_fixed hfixed).1.trans hbid⟩
    · obtain ⟨-, e, -, hlookup⟩ := howned a hnew
      obtain ⟨b, hbmem, hbid, -⟩ := hblobs.found _ (Crates.mem_of_lookup hlookup)
      rw [← hb] at hbmem
      exact ⟨b, hbmem, hbid⟩

/-- The live snapshots after a deletion are the others. -/
theorem filter_live_deleted (id deletedAt : String) (rows : List SnapshotRow) :
    (updateWhere (fun r => decide (r.id = id) && r.live)
        (fun r => { r with deletedAt := some deletedAt }) rows).filter SnapshotRow.live =
      (rows.filter SnapshotRow.live).filter fun r => decide (r.id ≠ id) := by
  have hlive : ∀ r ∈ rows, SnapshotRow.live (if decide (r.id = id) && r.live then
      { r with deletedAt := some deletedAt } else r) = (decide (r.id ≠ id) && r.live) := by
    intro r _
    by_cases hsel : (decide (r.id = id) && r.live) = true
    · rw [if_pos hsel]
      rw [Bool.and_eq_true, decide_eq_true_eq] at hsel
      simp [SnapshotRow.live, hsel.1]
    · rw [if_neg hsel]
      cases hr : r.live <;> simp_all
  unfold updateWhere
  rw [List.filter_map, List.filter_filter]
  show (rows.filter fun r => SnapshotRow.live (if decide (r.id = id) && r.live then
    { r with deletedAt := some deletedAt } else r)).map _ = _
  rw [List.filter_congr hlive]
  refine (List.map_congr_left fun r hr => ?_).trans (List.map_id _)
  have hne := (List.mem_filter.mp hr).2
  rw [Bool.and_eq_true, decide_eq_true_eq] at hne
  refine if_neg fun hsel => ?_
  simp [hne.1] at hsel

/-- A row that is live after a deletion was live before and is another one. -/
theorem of_live_deleted {id deletedAt : String} {rows : List SnapshotRow} {r : SnapshotRow}
    (hr : r ∈ updateWhere (fun r => decide (r.id = id) && r.live)
      (fun r => { r with deletedAt := some deletedAt }) rows) (hlive : r.live = true) :
    r ∈ rows ∧ r.id ≠ id := by
  have hmem := List.mem_filter.mpr ⟨hr, hlive⟩
  rw [filter_live_deleted, List.mem_filter, List.mem_filter] at hmem
  exact ⟨hmem.1.1, of_decide_eq_true hmem.2⟩

/-- A snapshot deleted with its artifacts. -/
theorem Db.Identities.deleted (x : DeletionRecord) (snapshot : SnapshotRow) (h : db.Identities c)
    (hunique : db.Unique) (hunique' : db'.Unique) (hm : db'.manifests = db.manifests)
    (hu : db'.uploads = db.uploads) (hc : db'.captures = db.captures)
    (hs : db'.snapshots = updateWhere (fun r => decide (r.id = snapshot.id) && r.live)
      (fun r => { r with deletedAt := some x.deletedAt }) db.snapshots)
    (ha : db'.artifacts = db.artifacts.filter fun a => decide (a.snapshotId ≠ snapshot.id))
    (hb : ∀ b ∈ db.blobs, ∃ b' ∈ db'.blobs, b'.fixed = b.fixed) : db'.Identities c where
  manifests := by
    rw [hm]
    exact h.manifests
  liveOnce := by
    rw [hs, filter_live_deleted]
    exact h.liveOnce.filter _
  captures := by
    intro r hr
    rw [hc] at hr
    unfold Identified
    rw [hu, hm, hs]
    obtain ⟨u, hu, hid, hdone, old, hold, hsid, hsession, m, hm, hmid, manifest, hparsed,
      hfingerprint⟩ := h.captures r hr
    refine ⟨u, hu, hid, hdone, _, mem_updateWhere.mpr ⟨old, hold, rfl⟩, ?_, ?_, m, hm, hmid,
      manifest,
      hparsed, ?_⟩
    all_goals split <;> assumption
  captured := by
    intro r hr hlive
    rw [hs] at hr
    rw [hc]
    exact h.captured r (of_live_deleted hr hlive).1 hlive
  projected := by
    intro r hr hlive
    rw [hs] at hr
    obtain ⟨hr, hne⟩ := of_live_deleted hr hlive
    refine (h.projected r hr hlive).kept hunique.blobs hunique'.blobs (fun m hmem _ => ?_) ?_
      h.blobs
      fun b hbmem _ => hb b hbmem
    · rw [hm]
      exact hmem
    · rw [ha, List.filter_filter]
      refine List.filter_congr fun a _ => ?_
      by_cases hsame : a.snapshotId = r.id <;> simp [hsame, hne]
  artifacts := by
    intro a hmem
    rw [ha, List.mem_filter] at hmem
    obtain ⟨r, hr, hid, hlive⟩ := h.artifacts a hmem.1
    refine ⟨r, ?_, hid, hlive⟩
    rw [hs]
    refine Lib.mem_updateWhere_of_not hr ?_
    rw [hid, decide_eq_false (of_decide_eq_true hmem.2), Bool.false_and]
  blobs := by
    intro a hmem
    rw [ha, List.mem_filter] at hmem
    obtain ⟨b, hbmem, hid⟩ := h.blobs a hmem.1
    obtain ⟨b', hb', hfixed⟩ := hb b hbmem
    exact ⟨b', hb', (BlobRow.of_fixed hfixed).1.trans hid⟩

/-- The manifest row of a new upload. -/
theorem newManifestRow_sound (hJson : c.JsonReads) {new : NewUpload}
    (hnew : NewUploadOk c cfg new) :
    (newManifestRow c new).Sound c := by
  obtain ⟨input, hinput⟩ := hnew.manifest
  exact ⟨rfl, new.manifest, parseManifest_canonicalJson hJson new.manifest,
    normalizeManifest_oneRepresentation hinput⟩

/-- **`Effect.identities`** — every effect keeps the identity of snapshots and captures. -/
theorem Effect.identities {mode : Mode} (hJson : c.JsonReads) (h : Effect c cfg mode t s ids db)
    (hunique : s.db.Unique) (hunique' : db.Unique) (hs : s.db.Identities c) : db.Identities c := by
  have hsame {db' : Db} (hspares : s.db.Spares db') (hunique' : db'.Unique)
      (hm : ∀ m ∈ db'.manifests, m ∈ s.db.manifests) : db'.Identities c :=
    hs.spared hspares hunique hunique' fun m hmem => Or.inl (hm m hmem)
  have hkeep : s.db.Spares s.db :=
    ⟨rfl, rfl, rfl, fun _ hu _ => hu, fun _ hm _ => hm, fun b hb _ => ⟨b, hb, rfl⟩⟩
  cases h with
  | unchanged ids => exact hs
  | created new row hnew hsession hreuse hfree hfresh hrow hrows =>
    refine hs.spared { hkeep with
      uploads := fun u hu _ => List.mem_append_left _ hu
      manifests := fun m hm _ => List.mem_append_left _ hm } hunique hunique' fun m hm => ?_
    rcases List.mem_append.mp hm with hm | hm
    · exact Or.inl hm
    · obtain rfl := List.mem_singleton.mp hm
      exact Or.inr (newManifestRow_sound hJson hnew)
  | ended upload current reason terminalAt hmem hfixed hactive hfree =>
    simp only [Db.uploadReferenced, Bool.or_eq_false_iff, List.any_eq_false, decide_eq_true_eq,
      Bool.and_eq_true, Bool.or_eq_true, List.any_eq_true, not_and, not_or, not_exists] at hfree
    have hid : current.id = upload.id := UploadRow.id_of_fixed hfixed
    refine hsame { hkeep with uploads := fun u hu hdone => ?_, manifests := fun m hm hrefers => ?_ }
      hunique' fun m hm => List.mem_of_mem_filter hm
    · refine List.mem_filter.mpr ⟨hu, decide_eq_true fun hsame => hactive ?_⟩
      rw [← hunique.uploads.eq_of_mem hu hmem (hsame.trans hid.symm)]
      exact hdone
    · -- what a snapshot or a capture refers to is not removed
      refine List.mem_filter.mpr ⟨hm, decide_eq_true fun hsame => ?_⟩
      rcases hrefers with ⟨r, hr, hmid⟩ | ⟨r, hr, huid⟩
      · exact (hfree.2 m hm hsame).1 r hr hmid
      · exact hfree.1 r hr (huid.trans hsame)
  | status uploadId complete =>
    refine hsame { hkeep with uploads := fun u hu hdone => ?_ } hunique' fun _ hm => hm
    refine Lib.mem_updateWhere_of_not hu ?_
    simp [UploadRowStatus.active, hdone]
  | attached x snapshot manifestRow hx hattach hsnapshot hlive hsession hfingerprint hseq
      hcontextSeq hcontexts =>
    refine { hs with captures := ?_, captured := fun r hr hrlive => ?_ }
    · exact hs.attach hattach hsnapshot hsession hfingerprint rfl rfl (fun _ hr => hr) rfl
    · obtain ⟨capture, hcapture, hid⟩ := hs.captured r hr hrlive
      exact ⟨capture, List.mem_append_left _ hcapture, hid⟩
  | recorded x row manifestRow blobIds hx hattach hblobs hrow hfresh hfree hrows hcontexts =>
    exact hs.recorded hx hattach hblobs hrow hfresh hfree hrows hunique hunique' rfl rfl rfl rfl rfl
      rfl
  | deleted x snapshot manifest hx hrow hlive hfresh =>
    rw [foldl_scheduleOrClearBlobCandidate] at hunique' ⊢
    refine hs.deleted x snapshot hunique hunique' rfl rfl rfl rfl rfl fun b hb => ?_
    refine ⟨_, List.mem_map_of_mem hb, ?_⟩
    split
    · split <;> rfl
    · rfl
  | cleared row nowSeq hmem heligible hlive =>
    refine hsame { hkeep with blobs := fun b hb _ => ?_ } hunique' fun _ hm => hm
    refine ⟨_, mem_updateWhere.mpr ⟨b, hb, rfl⟩, ?_⟩
    split <;> rfl
  | _ => exact hsame { hkeep with } hunique' fun _ hm => hm

/-- Whatever happens to an archive keeps the identity of snapshots and captures. -/
theorem DbMoved.identities (hJson : c.JsonReads) (h : DbMoved c cfg s s') (hs : Archive c s)
    (hs' : Archive c s') (hids : s.db.Identities c) : s'.db.Identities c := by
  have hunique := hs.inv.unique
  have hunique' := hs'.inv.unique
  cases h with
  | stays hdb hused =>
    rw [hdb]
    exact hids
  | writes hfresh heffect hused => exact heffect.identities hJson hunique hunique' hids
  | collects hcollects hused =>
    obtain ⟨row, -, hnone, heq⟩ := hcollects
    rw [heq] at hunique' ⊢
    refine hids.spared ⟨rfl, rfl, rfl, fun _ hu _ => hu, fun _ hm _ => hm, fun b hb href => ?_⟩
      hunique
      hunique' fun m hm => Or.inl hm
    obtain ⟨a, ha, hid⟩ := href
    exact ⟨b, List.mem_filter.mpr ⟨hb, decide_eq_true (hid ▸ hnone a ha)⟩, rfl⟩
  | chunks keep hdb hused =>
    rw [hdb]
    exact { hids with }
  | legacy uploadId artifact chunkSize now expiresAt hactive hdb hused =>
    rw [hdb] at hunique' ⊢
    refine hids.spared ⟨rfl, ?_, rfl, fun u hu hdone => ?_, fun _ hm _ => hm, fun b hb _ =>
      ⟨b, hb, rfl⟩⟩
      hunique hunique' fun m hm => Or.inl hm
    · -- no artifact is left of a deleted snapshot
      refine List.filter_eq_self.mpr fun a ha => ?_
      obtain ⟨r, hr, hid, hlive⟩ := hids.artifacts a ha
      rw [Bool.not_eq_true', List.any_eq_false]
      intro r' hr' hdead
      rw [Bool.and_eq_true, decide_eq_true_eq] at hdead
      rw [hunique.snapshots.eq_of_mem hr' hr (hdead.1.trans hid.symm), hlive] at hdead
      exact absurd hdead.2 (by simp)
    · refine Lib.mem_updateWhere_of_not hu (decide_eq_false fun hid => ?_)
      exact hactive u hu hid hdone
  | contexts hdb hused =>
    rw [hdb]
    exact { hids with }

/-! ## §3 — At any moment. -/

variable {sqlite : SqliteChecks} {m : Moment}

theorem Life.identities (hJson : c.JsonReads) (h : Life c cfg sqlite m) :
    m.state.db.Identities c :=
  h.keeps Db.Identities.empty fun hs hs' hmoved hids => hmoved.identities hJson hs hs' hids

/-- A projected snapshot is reconciled. -/
theorem Projected.reconcileSnapshot {snapshot : SnapshotRow} (h : Projected c db snapshot)
    (hunique : db.Unique) (hmem : snapshot ∈ db.snapshots) (hlive : snapshot.live = true) :
    reconcileSnapshot c db snapshot.id = .ok () := by
  obtain ⟨m, hm, hid, hok⟩ := h
  have hsnapshot : db.snapshot snapshot.id = some snapshot :=
    Lib.find?_unique hunique.snapshots hmem
  have hmanifest : db.manifest snapshot.manifestId = some m := by
    rw [← hid]
    exact Lib.find?_unique hunique.manifestIds hm
  have hrow : db.reconcileRow snapshot.id = some (snapshot, m) := by
    simp [Db.reconcileRow, hsnapshot, hmanifest, hlive]
  unfold Patwari.reconcileSnapshot
  rw [hrow]
  exact hok

/-- A unique key selects at most one row. -/
theorem length_filter_key_le {ρ κ : Type} [DecidableEq κ] {key : ρ → κ} {rows : List ρ}
    (h : UniqueOn key rows) (k : κ) : (rows.filter fun r => decide (key r = k)).length ≤ 1 := by
  have hnodup := h.filter fun r => decide (key r = k)
  have hkey : ∀ r ∈ rows.filter fun r => decide (key r = k), key r = k := fun r hr =>
    of_decide_eq_true (List.mem_filter.mp hr).2
  unfold UniqueOn at hnodup
  generalize rows.filter (fun r => decide (key r = k)) = selected at hnodup hkey ⊢
  match selected with
  | [] | [_] => simp
  | a :: b :: rest =>
    have hab : key a = key b := (hkey a (by simp)).trans (hkey b (by simp)).symm
    simp [hab] at hnodup

/-- The row a unique key selects is the only one. -/
theorem filter_key_eq_singleton {ρ κ : Type} [DecidableEq κ] {key : ρ → κ} {rows : List ρ}
    (h : UniqueOn key rows) {r : ρ} (hr : r ∈ rows) :
    (rows.filter fun x => decide (key x = key r)) = [r] := by
  have hmem : r ∈ rows.filter fun x => decide (key x = key r) :=
    List.mem_filter.mpr ⟨hr, decide_eq_true rfl⟩
  obtain ⟨a, ha⟩ := List.length_eq_one_iff.mp
    (le_antisymm (length_filter_key_le h (key r)) (List.length_pos_of_mem hmem))
  rw [ha, List.mem_singleton] at hmem
  rw [ha, hmem]

/-- **`snapshotIdentity`** — snapshots and captures are identified as they should be at every moment
of an archive's life: while it recovers, between any two steps of the requests in flight, after any
crash. -/
theorem snapshotIdentity (hJson : c.JsonReads) (h : Life c cfg sqlite m) :
    (∀ sessionId fingerprint, (m.state.db.snapshots.filter fun r => decide (r.live = true ∧
        r.sessionId = sessionId ∧ r.fingerprintSha256 = fingerprint)).length ≤ 1) ∧
      (∀ u ∈ m.state.db.uploads, u.status = .completed → ∃ r,
        (m.state.db.captures.filter fun r => decide (r.uploadId = u.id)) = [r] ∧
          Identified c m.state.db r u) ∧
      (∀ r ∈ m.state.db.captures, ∃ u ∈ m.state.db.uploads, u.id = r.uploadId ∧
        u.status = .completed) ∧
      (∀ r ∈ m.state.db.snapshots, r.live = true →
        (∃ capture ∈ m.state.db.captures, capture.snapshotId = r.id) ∧
          reconcileSnapshot c m.state.db r.id = .ok ()) ∧
      ∀ r ∈ m.state.db.snapshots, r.live = false →
        ∀ a ∈ m.state.db.artifacts, a.snapshotId ≠ r.id := by
  have hids := h.identities hJson
  have harchive := (Life.good h).archive
  have hunique := harchive.inv.unique
  refine ⟨fun sessionId fingerprint => ?_, fun u hu hdone => ?_, fun r hr => ?_,
    fun r hr hlive => ⟨hids.captured r hr hlive, ?_⟩, fun r hr hdead a ha hid => ?_⟩
  · have hone := length_filter_key_le hids.liveOnce (sessionId, fingerprint)
    rw [List.filter_filter] at hone
    refine le_of_eq_of_le (congrArg List.length (List.filter_congr fun r _ => ?_)) hone
    unfold SnapshotRow.identity
    rw [Bool.eq_iff_iff]
    simp [and_comm]
  · obtain ⟨r, hr, hid⟩ := harchive.current.captured u hu hdone
    obtain ⟨v, hv, hvid, -, hidentified⟩ := hids.captures r hr
    obtain rfl : v = u := hunique.uploads.eq_of_mem hv hu (hvid.trans hid)
    refine ⟨r, ?_, hidentified⟩
    rw [← hid]
    exact filter_key_eq_singleton hunique.captures hr
  · obtain ⟨u, hu, hid, hdone, -⟩ := hids.captures r hr
    exact ⟨u, hu, hid, hdone⟩
  · exact (hids.projected r hr hlive).reconcileSnapshot hunique hr hlive
  · obtain ⟨r', hr', hid', hlive⟩ := hids.artifacts a ha
    rw [hunique.snapshots.eq_of_mem hr' hr (hid'.trans hid), hdead] at hlive
    exact Bool.false_ne_true hlive

/-! ## §4 — A sample archive read by lawful crates. -/

def sampleFingerprintJson : Lib.Json :=
  .obj
    [("version", .num 1), ("schema_version", .num 1),
      ("session", .obj [("source_agent", .str "agent"), ("source_session_id", .str "session")]),
      ("capture", .obj
        [("project", .null), ("repository", .null), ("branch", .null),
          ("source_agent_version", .null), ("artifact_set_version", .num 1)]),
      ("artifacts", .arr [.obj
        [("logical_path", .str "notes.txt"), ("original_size_bytes", .num 0),
          ("original_sha256", .str ("sha256:" ++ emptyDigest))]])]

/-- The bytes of a document. -/
def documentBytes (j : Lib.Json) : Bytes := j.render.flatMap String.utf8EncodeChar

theorem jsonToVec_eq (j : Lib.Json) : jsonToVec j = documentBytes j := utf8_ofList _

/-- Crates that know the digests of some documents and of no bytes, and recognize the documents they
read before parsing them. -/
def listedCrates (digests : List (Lib.Json × String)) (documents : List Lib.Json) : Crates :=
  { Crates.sample (([], emptyDigest) :: digests.map fun d => (documentBytes d.1, d.2)) with
    jsonFromSlice := fun bytes =>
      match documents.find? fun j => decide (bytes = documentBytes j) with
      | some j => some j
      | none => Crates.sampleJsonFromSlice bytes }

theorem listedCrates_jsonReads (digests : List (Lib.Json × String)) (documents : List Lib.Json) :
    (listedCrates digests documents).JsonReads where
  fromSlice j _ := by
    show (match documents.find? fun j' => decide (jsonToVec j = documentBytes j') with
      | some j => some j
      | none => Crates.sampleJsonFromSlice (jsonToVec j)) = some j
    cases hfound : documents.find? fun j' => decide (jsonToVec j = documentBytes j') with
    | none => exact Crates.sample_jsonFromSlice [] j
    | some j' =>
      have hsame : jsonToVec j = documentBytes j' := by simpa using List.find?_some hfound
      rw [← jsonToVec_eq] at hsame
      rw [jsonToVec_injective hsame]

/-- They tell all inputs apart when the digests differ and none looks like an encoding. -/
theorem listedCrates_injective {digests : List (Lib.Json × String)} {documents : List Lib.Json}
    (hdistinct : (emptyDigest :: digests.map Prod.snd).Nodup)
    (hplain : ∀ d ∈ digests, d.2.toList.head? ≠ some 'b') :
    Function.Injective (listedCrates digests documents).sha256Hex := by
  have hvalues : UniqueOn Prod.snd
      (([], emptyDigest) :: digests.map fun d => (documentBytes d.1, d.2)) := by
    show List.Nodup (_ :: List.map _ (List.map _ digests))
    rw [List.map_map]
    exact hdistinct
  refine sample_injective hvalues fun e he => ?_
  rcases List.mem_cons.mp he with rfl | he
  · decide +kernel
  · obtain ⟨d, hd, rfl⟩ := List.mem_map.mp he
    exact hplain d hd

/-- Crates with the real digests of what a sample archive hashes. -/
def lawfulCrates : Crates :=
  listedCrates
    [(sampleFingerprintJson, sampleFingerprint), (sampleManifestJson, sampleManifestDigest)]
    [.obj [], sampleManifestJson]

theorem lawfulCrates_jsonReads : lawfulCrates.JsonReads := listedCrates_jsonReads _ _

theorem lawfulCrates_injective : Function.Injective lawfulCrates.sha256Hex :=
  listedCrates_injective (by decide +kernel) (by decide +kernel)

/-- The same content is archived once more, as another capture. -/
def coalescedEvents : List (Event Env Request) :=
  served 3 (.createUpload ⟨sampleClientId, some "again", none, sampleManifest⟩) 0 59 9 ++
  served 4 (.completeUpload (sampleUuid 62)) 0 68 23

/-- The first completion is retried, the snapshot is deleted and its tombstone read. -/
def retriedEvents : List (Event Env Request) :=
  served 5 (.completeUpload (sampleUuid 23)) 0 91 5 ++
  served 6 (.deleteSnapshot (sampleDeletion (sampleUuid 50))) 1 96 11 ++
  served 7 (.getTombstone (sampleUuid 50)) 1 107 1

theorem sampled_coalescedEvents : ∀ ev ∈ coalescedEvents, ∀ e ∈ ev.input?, Sampled e := by
  intro ev hev
  rcases List.mem_append.mp hev with hev | hev
  · exact sampled_served (by norm_num) ev hev
  · exact sampled_served (by norm_num) ev hev

theorem sampled_retriedEvents : ∀ ev ∈ retriedEvents, ∀ e ∈ ev.input?, Sampled e := by
  intro ev hev
  rw [retriedEvents, List.mem_append, List.mem_append] at hev
  rcases hev with (hev | hev) | hev
  · exact sampled_served (by norm_num) ev hev
  · exact sampled_served (by norm_num) ev hev
  · exact sampled_served (by norm_num) ev hev

/-- The receipt an answer carries. -/
def answeredReceipt : Request × Outcome → Option Receipt
  | (.completeUpload _, .ok (.completion r)) => some r.receipt
  | (.deleteSnapshot _, .ok (.tombstone r)) => some r.historicalReceipt
  | (.getTombstone _, .ok (.tombstone r)) => some r.historicalReceipt
  | _ => none

/-- The request asks for a tombstone of another snapshot. -/
def asksOther (snapshotId : String) : Request → Bool
  | .deleteSnapshot request => decide (request.snapshotId ≠ snapshotId)
  | .getTombstone text => decide (text ≠ snapshotId)
  | _ => false

/-- Rows of the archive, before and after the deletion, and what was asked. -/
structure RetriedReport where
  archived : List Bool
  snapshots : List String
  artifacts : List String
  live : List Bool
  captures : List String
  liveAfter : List Bool
  uploadsAfter : List (Option String)
  receipts : ℕ
  other : Bool
  deriving DecidableEq

def retriedReport (p₀ p p' : Server) : RetriedReport where
  archived := p₀.state.db.snapshots.map SnapshotRow.live
  snapshots := p.state.db.snapshots.map SnapshotRow.id
  artifacts := p₀.state.db.artifacts.map ArtifactRow.id
  live := p.state.db.snapshots.map SnapshotRow.live
  captures := p.state.db.captures.map CaptureRow.snapshotId
  liveAfter := p'.state.db.snapshots.map SnapshotRow.live
  uploadsAfter := p'.state.db.uploads.map UploadRow.snapshotId
  receipts := (p'.results.filterMap answeredReceipt).length
  other := p'.results.any fun x => asksOther (sampleUuid 50) x.1

/-- One snapshot of one artifact, which two uploads share, is deleted; every answer is about it. -/
def sampleRetried : RetriedReport where
  archived := [true]
  snapshots := [sampleUuid 50]
  artifacts := [sampleUuid 51]
  live := [true]
  captures := [sampleUuid 50, sampleUuid 50]
  liveAfter := [false]
  uploadsAfter := [some (sampleUuid 50), some (sampleUuid 50)]
  receipts := 5
  other := false

theorem retriedReport_eq : (lifeReplay lawfulCrates sampleConfig archivedEvents).bind (fun p₀ =>
      (p₀.replay system (handle lawfulCrates sampleConfig sampleSqlite) freshEnv
        coalescedEvents).bind fun p =>
      (p.replay system (handle lawfulCrates sampleConfig sampleSqlite) freshEnv
        retriedEvents).map (retriedReport p₀ p)) = some sampleRetried := by
  decide +kernel

/-- **`lawfulRetried`** — an archive read by lawful crates: with its first snapshot, once the
content is archived again, and after the deletion. -/
theorem lawfulRetried : ∃ p₀ p p' : Server,
    lifeReplay lawfulCrates sampleConfig archivedEvents = some p₀ ∧
    Life lawfulCrates sampleConfig sampleSqlite (.serving p₀) ∧
    ServerRun lawfulCrates sampleConfig sampleSqlite (fun _ _ => True) p₀ p ∧
    ServerRun lawfulCrates sampleConfig sampleSqlite (fun _ _ => True) p p' ∧
    retriedReport p₀ p p' = sampleRetried := by
  obtain ⟨p₀, hp₀, hrest⟩ := Option.bind_eq_some_iff.mp retriedReport_eq
  obtain ⟨p, hp, hrest⟩ := Option.bind_eq_some_iff.mp hrest
  obtain ⟨p', hp', hreport⟩ := Option.map_eq_some_iff.mp hrest
  exact ⟨p₀, p, p', hp₀, life_of_lifeReplay sampled_archivedEvents hp₀,
    serverRun_of_replay sampled_coalescedEvents hp, serverRun_of_replay sampled_retriedEvents hp',
    hreport⟩

/-- Its one snapshot is live at first. -/
theorem lawfulArchive : ∃ p : Server, Life lawfulCrates sampleConfig sampleSqlite (.serving p) ∧
    p.state.db.snapshots.map SnapshotRow.live = [true] := by
  obtain ⟨p₀, p, p', -, hlife, -, -, hreport⟩ := lawfulRetried
  exact ⟨p₀, hlife, congrArg RetriedReport.archived hreport⟩

/-- Two captures of one live snapshot, each of its own upload, and then a deletion. -/
theorem snapshotIdentity_sample : ∃ p p' : Server,
    p.state.db.snapshots.map SnapshotRow.live = [true] ∧
      p.state.db.captures.map CaptureRow.snapshotId = [sampleUuid 50, sampleUuid 50] ∧
      (∀ u ∈ p.state.db.uploads, u.status = .completed → ∃ r,
        (p.state.db.captures.filter fun r => decide (r.uploadId = u.id)) = [r] ∧
          Identified lawfulCrates p.state.db r u) ∧
      (∀ r ∈ p.state.db.snapshots, r.live = true →
        (∃ capture ∈ p.state.db.captures, capture.snapshotId = r.id) ∧
          reconcileSnapshot lawfulCrates p.state.db r.id = .ok ()) ∧
      p'.state.db.snapshots.map SnapshotRow.live = [false] ∧
      ∀ r ∈ p'.state.db.snapshots, r.live = false →
        ∀ a ∈ p'.state.db.artifacts, a.snapshotId ≠ r.id := by
  obtain ⟨p₀, p, p', -, hlife₀, hrun, hrun', hreport⟩ := lawfulRetried
  have hlife := Life.run hlife₀ hrun
  obtain ⟨-, hcaptured, -, hsnapshots, -⟩ := snapshotIdentity lawfulCrates_jsonReads hlife
  obtain ⟨-, -, -, -, hdead⟩ := snapshotIdentity lawfulCrates_jsonReads (Life.run hlife hrun')
  exact ⟨p, p', congrArg RetriedReport.live hreport, congrArg RetriedReport.captures hreport,
    hcaptured, hsnapshots, congrArg RetriedReport.liveAfter hreport, hdead⟩

end Patwari
