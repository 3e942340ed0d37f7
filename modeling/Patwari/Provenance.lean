/-
# Patwari.Provenance — from accepted chunks to downloads.

An artifact row is written once, by the completion that has put the artifact together, and removed
with its snapshot. §1 traces each row back through its completed upload to the chunk bodies that
were accepted for it. With the files of `Patwari.Custody` that settles in §2 what a canonical blob
file holds, in §3 what any download sends, whatever happens beside it, and in §4 that a download
alone sends it.
-/
import Patwari.Alone
import Patwari.Custody
import Patwari.Downloads

namespace Patwari

open Lib (Prog TaskId Event Pool UniqueOn updateWhere mem_updateWhere)
open Lib.Prog (Given GivenE returned)

variable {c : Crates} {cfg : Config} {mode : Mode} {sqlite : SqliteChecks} {t : TaskId}
  {s s' : Shared} {db db' : Db} {m m' : Moment}

/-! ## §1 — Where artifacts are from. -/

/-- **`Traced c a s`** — an artifact row is from a completed upload: it stands for the artifact with
its index in the upload's manifest, was put together from the chunks the upload accepted for that
index, and its blob has the digest the manifest declares. -/
structure Traced (c : Crates) (a : ArtifactRow) (s : Shared) (u : UploadRow) (m : ManifestRow)
    (manifest : Manifest) (p : PreparedArtifact) : Prop where
  upload : u ∈ s.db.uploads
  completed : u.status = .completed
  uploadSnapshot : u.snapshotId = some a.snapshotId
  manifestRow : m ∈ s.db.manifests
  manifestUpload : m.uploadId = u.id
  snapshot : ∃ r ∈ s.db.snapshots, r.id = a.snapshotId ∧ r.manifestId = m.id
  parsed : parseManifest c m.canonicalJson = some manifest
  artifact : manifest.artifacts[p.artifactIndex]? = some p.artifact
  artifactIndex : a.artifactIndex = p.artifactIndex
  assembled : Assembled c u p s
  blob : BlobKnown a.blobId p.digest s

/-- What was accepted stays accepted. -/
theorem Moved.accepted (h : Moved c cfg s s') (hs : Archive c s) {e : AcceptedChunk}
    (he : e ∈ s.accepted) : e ∈ s'.accepted := by
  cases h with
  | task h => exact accepted_persistent e _ s s' hs.inv h he
  | boot h =>
    cases h with
    | service h => exact accepted_persistent e _ s s' hs.inv h he
    | _ => exact he
  | _ => exact he

theorem Assembled.mono {u v : UploadRow} {p : PreparedArtifact} (h : Assembled c u p s)
    (hid : v.id = u.id) (hsize : v.chunkSizeBytes = u.chunkSizeBytes)
    (haccepted : ∀ e ∈ s.accepted, e ∈ s'.accepted) : Assembled c v p s' := by
  obtain ⟨pieces, hverify, hcount, hpieces⟩ := h
  refine ⟨pieces, hverify, hsize ▸ hcount, fun k piece hk => ?_⟩
  obtain ⟨e, he, hupload, hrest⟩ := hpieces k piece hk
  exact ⟨e, haccepted e he, hupload.trans hid.symm, hrest⟩

/-- The identifier of a blob keeps its digest. -/
theorem Moved.blobKnown (h : Moved c cfg s s') (hs : Archive c s) {blobId digest : String}
    (hknown : BlobKnown blobId digest s) : BlobKnown blobId digest s' := by
  cases h with
  | task h => exact BlobKnown.persistent _ _ _ s s' hs.inv h hknown
  | boot h =>
    cases h with
    | service h => exact BlobKnown.persistent _ _ _ s s' hs.inv h hknown
    | _ => exact hknown
  | _ => exact hknown

theorem Traced.moved {a : ArtifactRow} {u : UploadRow} {row : ManifestRow} {manifest : Manifest}
    {p : PreparedArtifact} (h : Traced c a s u row manifest p) (hmoved : Moved c cfg s s')
    (hs : Archive c s) : Traced c a s' u row manifest p := by
  have hdb := hmoved.dbMoved hs
  obtain ⟨r, hr, hid, hmanifest⟩ := h.snapshot
  obtain ⟨r', hr', hfixed, -⟩ := hdb.later.snapshots r hr
  exact
    { h with
      upload := hdb.completed_kept hs h.upload h.completed
      manifestRow := hdb.later.manifests row h.manifestRow ⟨r, hr, hmanifest⟩
      snapshot := ⟨r', hr', (SnapshotRow.id_of_fixed hfixed).trans hid,
        (SnapshotRow.manifestId_of_fixed hfixed).trans hmanifest⟩
      assembled := h.assembled.mono rfl rfl fun e he => hmoved.accepted hs he
      blob := hmoved.blobKnown hs h.blob }

/-- An artifact row a completion has just recorded. -/
theorem ArtifactRecorded.traced {a : ArtifactRow} {x : CompletionRecord} {p : PreparedArtifact}
    (h : ArtifactRecorded c mode t s s'.db a x p) (hmoved : Moved c cfg s s') (hs : Archive c s)
    (hused : a.blobId ∈ s'.used) : ∃ u row manifest, Traced c a s' u row manifest p := by
  obtain ⟨u, hu, hdone, hsnapshot, hfixed⟩ := h.upload
  obtain ⟨row, hrow, hupload, hparsed, r, hr, hrid, hmanifest⟩ := h.manifest
  have hid : u.id = x.upload.id := UploadRow.id_of_fixed hfixed
  have hsize : u.chunkSizeBytes = x.upload.chunkSizeBytes := by
    have hsame : u.fixed.chunkSizeBytes = x.upload.fixed.chunkSizeBytes := by rw [hfixed]
    exact hsame
  -- the prepared artifacts are those of the manifest, each under its position
  obtain ⟨k, hk⟩ := List.getElem?_of_mem h.prepared
  have hindex : p.artifactIndex = k := by
    have hget := congrArg (fun l => l[k]?) h.record.indexes
    obtain ⟨hlt, -⟩ := List.getElem?_eq_some_iff.mp hk
    simpa [hk, List.getElem?_range hlt] using hget
  have hartifact : x.manifest.artifacts[p.artifactIndex]? = some p.artifact := by
    rw [hindex, ← h.record.artifacts, List.getElem?_map, hk, Option.map_some]
  refine ⟨u, row, x.manifest, hu, hdone, h.snapshotId ▸ hsnapshot, hrow, hupload.trans hid.symm,
    ⟨r, hr, hrid.trans h.snapshotId.symm, hmanifest⟩, hparsed, hartifact, h.artifactIndex,
    (h.record.assembled p h.prepared).mono hid hsize fun e he => hmoved.accepted hs he,
    hused, h.blob⟩

/-- **`Life.traced`** — at every moment of an archive's life, every artifact row is from a completed
upload. -/
theorem Life.traced (hJson : c.JsonReads) (h : Life c cfg sqlite m) :
    ∀ a ∈ m.state.db.artifacts, ∃ u row manifest p, Traced c a m.state u row manifest p := by
  induction h with
  | refl =>
    intro a ha
    exact absurd ha List.not_mem_nil
  | @tail m m' hlife hstep ih =>
    have hlife' : Life c cfg sqlite m' := Relation.ReflTransGen.tail hlife hstep
    have hs := (Life.good hlife).archive
    have hs' := (Life.good hlife').archive
    have hmoved := (hstep.good (Life.good hlife)).2
    have hold {a : ArtifactRow} (ha : a ∈ m.state.db.artifacts) :
        ∃ u row manifest p, Traced c a m'.state u row manifest p := by
      obtain ⟨u, row, manifest, p, htraced⟩ := ih a ha
      exact ⟨u, row, manifest, p, htraced.moved hmoved hs⟩
    intro a ha
    cases hmoved.dbMoved hs with
    | stays hdb hused => exact hold (hdb ▸ ha)
    | writes hids heffect hused =>
      rcases heffect.artifact_origin hs'.inv.unique.blobs ha with ha | ⟨x, p, hrecorded⟩
      · exact hold ha
      · obtain ⟨b, hb, hid⟩ := (Life.identities hJson hlife').blobs a ha
        have hused : a.blobId ∈ m'.state.used := hid ▸ hs'.inv.issued.blobs b hb
        obtain ⟨u, row, manifest, htraced⟩ := hrecorded.traced hmoved hs hused
        exact ⟨u, row, manifest, p, htraced⟩
    | collects hcollects hused =>
      obtain ⟨row, -, -, heq⟩ := hcollects
      rw [heq] at ha
      exact hold ha
    | chunks keep hdb hused =>
      rw [hdb] at ha
      exact hold ha
    | legacy uploadId artifact chunkSize now expiresAt hactive hdb hused =>
      rw [hdb] at ha
      exact hold (List.mem_of_mem_filter ha)
    | contexts hdb hused =>
      rw [hdb] at ha
      exact hold ha

/-! ## §2 — What the file of an artifact holds. -/

/-- **`PutTogether c s u p pieces`** — the pieces are an intact copy of the artifact by what the
manifest declares, and each has the digest of the chunk body the upload accepted in its place. -/
def PutTogether (c : Crates) (s : Shared) (u : UploadRow) (p : PreparedArtifact)
    (pieces : List Bytes) : Prop :=
  Intact c p.artifact pieces.flatten ∧
    chunkCount p.artifact.storedSizeBytes.toNat u.chunkSizeBytes.toNat = .ok pieces.length ∧
    ∀ (k : ℕ) (piece : Bytes), pieces[k]? = some piece →
      ∃ e ∈ s.accepted, e.uploadId = u.id ∧ e.artifactIndex = p.artifactIndex ∧
        e.chunkIndex = k ∧ c.sha256Hex e.body = c.sha256Hex piece

theorem Assembled.putTogether {u : UploadRow} {p : PreparedArtifact} (h : Assembled c u p s) :
    ∃ pieces, PutTogether c s u p pieces := by
  obtain ⟨pieces, hverify, hcount, hpieces⟩ := h
  refine ⟨pieces, verifyArtifactBytes_iff.mp hverify, hcount, fun k piece hk => ?_⟩
  obtain ⟨e, he, hupload, hartifact, hchunk, -, hbody⟩ := hpieces k piece hk
  exact ⟨e, he, hupload, hartifact, hchunk, hbody⟩

/-- **`Stored c a s b bytes u row manifest p`** — the file of a traced artifact is there, with the
digest of the pieces it was put together from. -/
structure Stored (c : Crates) (a : ArtifactRow) (s : Shared) (b : BlobRow) (bytes : Bytes)
    (u : UploadRow) (row : ManifestRow) (manifest : Manifest) (p : PreparedArtifact) : Prop where
  traced : Traced c a s u row manifest p
  blob : b ∈ s.db.blobs
  blobId : b.id = a.blobId
  file : s.fs.lookup (blobPath b.storedSha256) = some (.file bytes)
  accepted : ∃ pieces, PutTogether c s u p pieces ∧
    c.sha256Hex bytes = c.sha256Hex pieces.flatten

theorem PromptLife.stored (hJson : c.JsonReads) (h : PromptLife c cfg sqlite m) {a : ArtifactRow}
    (ha : a ∈ m.state.db.artifacts) :
    ∃ b bytes u row manifest p, Stored c a m.state b bytes u row manifest p := by
  obtain ⟨b, hb, hid, bytes, hfile, hdigest⟩ := h.file hJson ha
  obtain ⟨u, row, manifest, p, htraced⟩ := Life.traced hJson h.life a ha
  rw [htraced.blob.2 b hb hid] at hdigest
  obtain ⟨pieces, htogether⟩ := htraced.assembled.putTogether
  exact ⟨b, bytes, u, row, manifest, p, htraced, hb, hid, hfile, pieces, htogether,
    hdigest.trans htogether.1.2.1.symm⟩

/-- **`artifactFiles_accepted`** — while no removal of a blob file outlives its request, every
artifact row at every moment has its blob row and its canonical file, with the digest of an intact
copy put together from pieces with the digests of the chunk bodies its upload accepted. -/
theorem artifactFiles_accepted (hJson : c.JsonReads) (h : PromptLife c cfg sqlite m) :
    ∀ a ∈ m.state.db.artifacts, ∃ b bytes u row manifest p,
      Stored c a m.state b bytes u row manifest p := fun _ ha => h.stored hJson ha

/-! ## §3 — What a download sends. -/

theorem canonicalDigest_some {value digest : String} (h : canonicalDigest value = some digest) :
    digest = digestStorageValue value := by
  obtain ⟨hex, hstrip, hhex⟩ := Option.bind_eq_some_iff.mp h
  unfold storageDigest at hhex
  split_ifs at hhex
  rw [digestStorageValue, hstrip, Option.getD_some]
  exact (Option.some.inj hhex).symm

theorem storageDigest_some {value digest : String} (h : storageDigest value = some digest) :
    digest = value := by
  unfold storageDigest at h
  split_ifs at h
  exact (Option.some.inj h).symm

/-- The metadata of a download is what the manifest declares at the artifact's index, and the blob
has the declared digest. -/
theorem downloadMetadataFromRow_ok {row : DownloadRow} {metadata : DownloadMetadata}
    (h : downloadMetadataFromRow c row = .ok metadata) :
    ∃ manifest artifact, parseManifest c row.manifest.canonicalJson = some manifest ∧
      0 ≤ row.artifact.artifactIndex ∧
      manifest.artifacts[row.artifact.artifactIndex.toNat]? = some artifact ∧
      row.blob.storedSha256 = digestStorageValue artifact.storedSha256 ∧
      metadata = artifact.downloadMetadata (digestStorageValue artifact.originalSha256)
        (digestStorageValue artifact.storedSha256) := by
  unfold downloadMetadataFromRow at h
  simp only [throw_bind, ite_throw_eq_ok, okOr_bind_ok] at h
  obtain ⟨-, manifest, hparsed, hindex, artifact, hartifact, original, horiginal, stored, hstored,
    -, hsame, h⟩ := h
  simp only [not_or, not_not] at hsame
  obtain ⟨-, -, -, -, -, hblob, -⟩ := hsame
  refine ⟨manifest, artifact, hparsed, not_lt.mp hindex, hartifact, ?_, ?_⟩
  · rw [← storageDigest_some hblob, canonicalDigest_some hstored]
  · obtain rfl := pure_eq_ok.mp h
    rw [canonicalDigest_some horiginal, canonicalDigest_some hstored]
    rfl

/-- **`Downloaded c s artifactId r`** — a download sends an artifact that a completed upload
brought: bytes of the declared length with the digest of the pieces it was put together from, under
the headers of the artifact. -/
def Downloaded (c : Crates) (s : Shared) (artifactId : String) (r : DownloadResponse) : Prop :=
  ∃ a u row manifest p, a.id = artifactId ∧ Traced c a s u row manifest p ∧
    r.body.length = p.artifact.storedSizeBytes.toNat ∧
    (∃ pieces, PutTogether c s u p pieces ∧ c.sha256Hex r.body = c.sha256Hex pieces.flatten) ∧
    addDownloadHeaders c (p.artifact.downloadMetadata (digestStorageValue p.artifact.originalSha256)
        (digestStorageValue p.artifact.storedSha256))
      (standardBase64 (digestBytes p.digest.toList)) = .ok r.headers

/-- A state whose artifacts are all traced, in a later one as well. -/
structure TracedIn (c : Crates) (s' s : Shared) : Prop where
  unique : s.db.Unique
  traced : ∀ a ∈ s.db.artifacts, ∃ u row manifest p, Traced c a s u row manifest p ∧
    Traced c a s' u row manifest p

/-- The rows of a download belong together. -/
theorem Db.downloadRow_some {artifactId : String} {row : DownloadRow}
    (h : db.downloadRow artifactId = some row) :
    row.artifact ∈ db.artifacts ∧ row.artifact.id = artifactId ∧
      (row.blob ∈ db.blobs ∧ row.blob.id = row.artifact.blobId) ∧ row.manifest ∈ db.manifests ∧
      ∃ r ∈ db.snapshots, r.id = row.artifact.snapshotId ∧ r.manifestId = row.manifest.id ∧
        r.live = true := by
  simp only [Db.downloadRow, Option.bind_eq_bind, Option.bind_eq_some_iff,
    Option.ite_none_right_eq_some] at h
  obtain ⟨a, ha, r, hr, m, hm, b, hb, hlive, h⟩ := h
  obtain rfl := Option.some.inj h
  refine ⟨List.mem_of_find?_eq_some ha, by simpa using List.find?_some ha,
    ⟨List.mem_of_find?_eq_some hb, by simpa using List.find?_some hb⟩,
    List.mem_of_find?_eq_some hm, r, List.mem_of_find?_eq_some hr, by
      simpa using List.find?_some hr,
    ?_, hlive⟩
  have hid : m.id = r.manifestId := by simpa using List.find?_some hm
  exact hid.symm

/-- The metadata of a download is that of the artifact its row is traced to. -/
theorem Traced.metadata {row : DownloadRow} {u : UploadRow} {m : ManifestRow} {manifest : Manifest}
    {p : PreparedArtifact} (h : Traced c row.artifact s u m manifest p) (hunique : s.db.Unique)
    {metadata : DownloadMetadata} {artifactId : String}
    (hrow : s.db.downloadRow artifactId = some row)
    (hmetadata : downloadMetadataFromRow c row = .ok metadata) :
    metadata = p.artifact.downloadMetadata (digestStorageValue p.artifact.originalSha256)
      (digestStorageValue p.artifact.storedSha256) := by
  obtain ⟨manifest', artifact, hparsed, -, hartifact, -, rfl⟩ :=
    downloadMetadataFromRow_ok hmetadata
  obtain ⟨-, -, -, hm, r, hr, hid, hmid, -⟩ := Db.downloadRow_some hrow
  obtain ⟨r', hr', hid', hmanifest⟩ := h.snapshot
  -- the snapshot and its manifest are the ones the row is traced to
  obtain rfl : r = r' := hunique.snapshots.eq_of_mem hr hr' (hid.trans hid'.symm)
  have hsame : row.manifest = m :=
    hunique.manifestIds.eq_of_mem hm h.manifestRow (hmid.symm.trans hmanifest)
  rw [hsame, h.parsed] at hparsed
  obtain rfl := Option.some.inj hparsed
  rw [h.artifactIndex, Int.toNat_natCast, h.artifact] at hartifact
  obtain rfl := Option.some.inj hartifact
  rfl

/-- The metadata of a download, and the artifact it belongs to. -/
def MetadataOf (c : Crates) (s : Shared) (artifactId : String) (metadata : DownloadMetadata) :
    Prop :=
  ∃ a u row manifest p, a.id = artifactId ∧ Traced c a s u row manifest p ∧
    metadata = p.artifact.downloadMetadata (digestStorageValue p.artifact.originalSha256)
      (digestStorageValue p.artifact.storedSha256)

variable {I : Env → Shared → Prop}

theorem given_verifiedDownloadMetadata {artifactId : String} (hi : ∀ e s, I e s → TracedIn c s' s) :
    GivenE I t (verifiedDownloadMetadata c artifactId)
      (fun found => ∀ metadata, found = some metadata → MetadataOf c s' artifactId metadata)
      fun _ => True := by
  refine GivenE.bind (Q := fun found => ∀ row, found = some row →
    ∀ metadata, downloadMetadataFromRow c row = .ok metadata → MetadataOf c s' artifactId metadata)
    (given_query fun e s h found hfound => ?_) fun found hfound => ?_
  · intro row hrow metadata hmetadata
    obtain rfl := pure_eq_ok.mp hfound
    have htraced := hi e s h
    obtain ⟨ha, hid, -⟩ := Db.downloadRow_some hrow
    obtain ⟨u, m, manifest, p, hnow, hlater⟩ := htraced.traced row.artifact ha
    exact ⟨row.artifact, u, m, manifest, p, hid, hlater, hnow.metadata htraced.unique hrow
      hmetadata⟩
  · cases found with
    | none => exact GivenE.pure (by simp)
    | some row =>
      refine GivenE.bind (given_check fun metadata h => hfound row rfl metadata h)
        fun metadata hmetadata => GivenE.bind (GivenE.trivial _) fun _ _ => GivenE.pure ?_
      intro metadata' h
      obtain rfl := Option.some.inj h
      exact hmetadata

/-- The bytes `preflight_blob` leaves to be sent have the expected length and digest. -/
theorem given_preflightBlob (path : FilePath) (expectedSize : ℕ) (expectedSha256 : String) :
    GivenE I t (preflightBlob c path expectedSize expectedSha256)
      (fun bytes => bytes.length = expectedSize ∧ c.sha256Hex bytes = expectedSha256)
      fun _ => True := by
  unfold preflightBlob
  dsimp only
  split
  · exact GivenE.throw trivial
  refine GivenE.bind (GivenE.trivial _) fun regular _ => ?_
  split
  · exact GivenE.throw trivial
  apply given_fileRead
  intro e s _ bytes hbytes
  split at hbytes
  · unfold preflightBytes at hbytes
    split_ifs at hbytes with hsame
    obtain rfl := pure_eq_ok.mp hbytes
    exact hsame
  · simp at hbytes

theorem given_downloadArtifact {request : String} (hi : ∀ e s, I e s → TracedIn c s' s) :
    GivenE I t (downloadArtifact c request)
      (fun r => ∃ artifactId, parseUuidText request "artifact identifier is not a UUID" =
        .ok artifactId ∧
        Downloaded c s' artifactId r) fun _ => True := by
  refine GivenE.bind (given_check fun artifactId h => h) fun artifactId hid => ?_
  refine GivenE.bind (given_verifiedDownloadMetadata hi) fun found hfound => ?_
  cases found with
  | none => exact GivenE.throw trivial
  | some metadata =>
    obtain ⟨a, u, row, manifest, p, ha, htraced, rfl⟩ := hfound metadata rfl
    refine GivenE.bind (given_preflightBlob _ _ _) fun body hbody => ?_
    refine GivenE.bind (given_check fun headers h => h) fun headers hheaders => GivenE.pure ?_
    obtain ⟨hlength, hdigest⟩ := hbody
    replace hdigest : c.sha256Hex body = p.digest := hdigest
    obtain ⟨pieces, htogether⟩ := htraced.assembled.putTogether
    rw [hdigest] at hheaders
    exact ⟨artifactId, hid, a, u, row, manifest, p, ha, htraced, hlength,
      ⟨pieces, htogether, hdigest.trans htogether.1.2.1.symm⟩, hheaders⟩

/-- **`downloads_accepted`** — in every run of a server on an archive that may have lived through
anything before, whatever else is going on and whatever fails, what a download sends is an artifact
that a completed upload brought, by length and digest, under the headers of that artifact. -/
theorem downloads_accepted (hJson : c.JsonReads)
    (hlife : Life c cfg sqlite (.serving (Pool.init s))) {seen : List (Env × Shared)} {p : Server}
    (hrun : Pool.Follows system (handle c cfg sqlite) t (Pool.init s) seen p) {request : String}
    {r : DownloadResponse}
    (htask : p.tasks t = some (.downloadArtifact request, .done (.ok (.download r)))) :
    ∃ artifactId, parseUuidText request "artifact identifier is not a UUID" = .ok artifactId ∧
      Downloaded c p.state artifactId r := by
  -- what is traced at one moment is traced at every later one
  have hlater := (hrun.pairwise (R := fun s s' => ∀ a u row manifest p,
    Traced c a s u row manifest p → Traced c a s' u row manifest p)
    (fun _ _ _ h h' a u row manifest p htraced =>
      h' a u row manifest p (h a u row manifest p htraced))
    fun p₁ p₂ hp hstep a u row manifest p htraced => ?_).2
  · have hseen : ∀ x ∈ seen, TracedIn c p.state x.2 := by
      intro x hx
      obtain ⟨q, hq, -, hstate⟩ := hrun.reached x hx
      have hlife' := hlife.run hq
      refine ⟨?_, fun a ha => ?_⟩
      · rw [← hstate]
        exact (Life.good hlife').archive.inv.unique
      · rw [← hstate] at ha
        obtain ⟨u, row, manifest, p', htraced⟩ := Life.traced hJson hlife' a ha
        have htraced : Traced c a x.2 u row manifest p' := hstate ▸ htraced
        exact ⟨u, row, manifest, p', htraced, hlater x hx a u row manifest p' htraced⟩
    have hdownload : GivenE (fun _ s' => TracedIn c p.state s') t (downloadArtifact c request)
        (fun r => ∃ artifactId, parseUuidText request "artifact identifier is not a UUID" =
          .ok artifactId ∧ Downloaded c p.state artifactId r) fun _ => True :=
      given_downloadArtifact fun _ _ h => h
    obtain ⟨r', heq, hresult⟩ := (given_respond hdownload).of_along (hrun.along htask) hseen _ rfl
    obtain rfl := Response.download.inj heq
    exact hresult
  · have hgood := Life.good (hlife.run hp)
    exact htraced.moved ((LifeStep.event hstep).good hgood).2 hgood.archive

/-! ## §4 — A download alone. -/

/-- Rows that match have every one of them an artifact it matches. -/
theorem rowMatches_of_rowsMatch {artifacts : List Artifact} {rows : List (ArtifactRow × BlobRow)}
    {k : ℕ} (h : rowsMatch artifacts rows k = true) :
    ∀ r ∈ rows, ∃ i artifact, artifacts[i]? = some artifact ∧
      rowMatches (k + i) artifact r.1 r.2 = true := by
  induction artifacts generalizing rows k with
  | nil =>
    cases rows with
    | nil => simp
    | cons row rest => exact absurd h (by simp [rowsMatch])
  | cons artifact artifacts ih =>
    cases rows with
    | nil => simp
    | cons row rest =>
      obtain ⟨row, blob⟩ := row
      rw [rowsMatch, Bool.and_eq_true] at h
      intro r hr
      rcases List.mem_cons.mp hr with rfl | hr
      · exact ⟨0, artifact, rfl, h.1⟩
      · obtain ⟨i, artifact', hget, hmatch⟩ := ih h.2 r hr
        refine ⟨i + 1, artifact', hget, ?_⟩
        rwa [show k + (i + 1) = k + 1 + i by omega]

/-- What a download of this artifact reads of the database. -/
structure DownloadRead (c : Crates) (cfg : Config) (db : Db) (a : ArtifactRow) (b : BlobRow)
    (row : SnapshotRow) (m : ManifestRow) (manifest : Manifest) (index : ℕ) (artifact : Artifact) :
    Prop where
  read : LiveRead c cfg db a.snapshotId row m manifest
  row : db.downloadRow a.id = some ⟨a, m, b⟩
  text : m.canonicalJson = manifest.canonicalJson
  sound : m.sha256 = c.sha256Hex (utf8 manifest.canonicalJson)
  declared : manifest.artifacts[index]? = some artifact
  compared : rowMatches index artifact a b = true

theorem Db.Coherent.downloadRead (h : db.Coherent c cfg) (hJson : c.JsonReads) {a : ArtifactRow}
    (ha : a ∈ db.artifacts) {b : BlobRow} (hb : b ∈ db.blobs) (hid : b.id = a.blobId) :
    ∃ row m manifest index artifact, DownloadRead c cfg db a b row m manifest index artifact := by
  obtain ⟨r, hr, hrid, hrlive⟩ := h.identities.artifacts a ha
  obtain ⟨row, m, manifest, hread⟩ := h.liveRead hJson ⟨r, hr, hrid, hrlive⟩
  obtain ⟨input, manifest', haccepted, htext⟩ := h.manifests m hread.manifestMem
  have hsame : manifest' = manifest := by
    have hparsed := hread.parsed
    rw [htext, parseManifest_canonicalJson hJson manifest'] at hparsed
    exact Option.some.inj hparsed
  have hblob : db.blob a.blobId = some b := by
    rw [← hid]
    exact Db.blob_eq_some h.unique.blobs hb
  -- the reconciliation has compared the row with the artifact at its index
  have hmem : (a, b) ∈ db.reconcileArtifacts a.snapshotId := by
    apply List.mem_filterMap.mpr
    refine ⟨a, (List.perm_insertionSort _ _).mem_iff.mpr ?_, ?_⟩
    · exact List.mem_filter.mpr ⟨ha, decide_eq_true rfl⟩
    · rw [hblob, Option.map_some]
  obtain ⟨i, artifact, hget, hmatch⟩ :=
    rowMatches_of_rowsMatch (reconcile_ok hread.parsed hread.reconciled).2.2 (a, b) hmem
  rw [Nat.zero_add] at hmatch
  subst hsame
  have hsound := (h.identities.manifests m hread.manifestMem).1
  rw [htext] at hsound
  refine ⟨row, m, _, i, artifact, hread, ?_, htext, hsound.symm, hget, hmatch⟩
  have hartifact : db.artifacts.find? (fun r => decide (r.id = a.id)) = some a :=
    Lib.find?_unique h.unique.artifacts ha
  have hsnapshot : db.snapshot a.snapshotId = some row := by
    rw [← hread.id]
    exact Lib.find?_unique h.unique.snapshots hread.mem
  have hmanifest : db.manifest row.manifestId = some m := by
    rw [← hread.manifestId]
    exact Lib.find?_unique h.unique.manifestIds hread.manifestMem
  simp [Db.downloadRow, hartifact, hsnapshot, hmanifest, hblob, hread.live]

section Alone

variable {κ α : Type} {clock : ℤ → Prop} {Q : α → Shared → Prop} {E : κ → Shared → Prop}

theorem alone_fileRead {onFault : κ} {f : FileStore → Except κ α} {a : α} (hf : f s.fs = .ok a)
    (h : Q a s) : Alone clock t (fileRead onFault f) Q E s := by
  intro e he _
  refine ⟨trivial, ?_⟩
  simp only [he.2.1, hf]
  exact h

/-- A reconciliation of a snapshot that is as its manifest says. -/
theorem alone_reconcileSnapshotReads {snapshotId : String} {row : SnapshotRow} {m : ManifestRow}
    {E : ReconciliationError → Shared → Prop} (hrow : s.db.reconcileRow snapshotId = some (row, m))
    (hok : reconcile c row m (s.db.reconcileArtifacts snapshotId) = .ok ()) :
    Alone clock t (reconcileSnapshotReads c snapshotId)
      (fun _ s' => s'.db = s.db ∧ s'.fs = s.fs) E s := by
  intro e he _
  refine ⟨trivial, ?_⟩
  simp only [he.2.1, hrow]
  intro e' he' _
  refine ⟨trivial, ?_⟩
  simp only [he'.2.1]
  show Lib.Discipline.outcome _ E (reconcile c row m (s.db.reconcileArtifacts snapshotId)) _
  rw [hok]
  exact ⟨rfl, rfl⟩

/-- The metadata of an artifact whose snapshot is as its manifest says. -/
theorem alone_verifiedDownloadMetadata {artifactId : String} {found : DownloadRow}
    {metadata : DownloadMetadata} {row : SnapshotRow} {m : ManifestRow}
    {E : ApiError → Shared → Prop} (hfound : s.db.downloadRow artifactId = some found)
    (hmetadata : downloadMetadataFromRow c found = .ok metadata)
    (hrow : s.db.reconcileRow found.artifact.snapshotId = some (row, m))
    (hok : reconcile c row m (s.db.reconcileArtifacts found.artifact.snapshotId) = .ok ()) :
    Alone clock t (verifiedDownloadMetadata c artifactId)
      (fun result s' => result = some metadata ∧ s'.db = s.db ∧ s'.fs = s.fs) E s := by
  refine Alone.bind (Q := fun result s' => result = some found ∧ s' = s)
    (Alone.query (fun result h => ⟨?_, rfl⟩) fun e h => ?_) fun result s' hresult => ?_
  · obtain rfl := pure_eq_ok.mp h
    exact hfound
  · simp [pure, Except.pure] at h
  obtain ⟨rfl, rfl⟩ := hresult
  refine Alone.check_bind (fun result h => ?_) fun e h => ?_
  · obtain rfl := Except.ok.inj (hmetadata.symm.trans h)
    refine Alone.bind (Alone.mapErr (alone_reconcileSnapshotReads hrow hok)) fun _ s' hs' => ?_
    exact Alone.pure ⟨rfl, hs'⟩
  · simp [hmetadata] at h

end Alone

/-- The check of a file of the expected digest fails only at its length. -/
theorem alone_preflightBlob {clock : ℤ → Prop} {path : FilePath} {bytes : Bytes} {size : ℕ}
    {sha256 : String} {Q : Bytes → Shared → Prop} {E : ApiError → Shared → Prop}
    (hfile : s.fs.lookup path = some (.file bytes)) (hvalid : storageDigest sha256 = some sha256)
    (hdigest : c.sha256Hex bytes = sha256) (h : bytes.length = size → Q bytes s)
    (hbroken : bytes.length ≠ size → E .artifactIntegrity s) :
    Alone clock t (preflightBlob c path size sha256) Q E s := by
  unfold preflightBlob
  rw [hvalid]
  dsimp only
  rw [if_neg (by simp)]
  refine Alone.bind (Q := fun regular s' => regular = true ∧ s' = s)
    (alone_fileRead rfl ⟨by simp [hfile, Node.isFile], rfl⟩) fun regular s' hregular => ?_
  obtain ⟨rfl, rfl⟩ := hregular
  rw [if_neg (by simp)]
  by_cases hsize : bytes.length = size
  · apply alone_fileRead ?_ (h hsize)
    simp [FileStore.read, hfile, preflightBytes, hsize, hdigest]
  · intro e he _
    refine ⟨trivial, ?_⟩
    simp only [he.2.1, FileStore.read, hfile, preflightBytes, hsize, false_and, if_false]
    exact hbroken hsize

/-- **`Collides c a s`** — the file of the artifact has the digest of an intact copy and another
length. -/
def Collides (c : Crates) (a : ArtifactRow) (s : Shared) : Prop :=
  ∃ b bytes u row manifest p pieces, Stored c a s b bytes u row manifest p ∧
    PutTogether c s u p pieces ∧ c.sha256Hex bytes = c.sha256Hex pieces.flatten ∧
      bytes.length ≠ pieces.flatten.length

/-- **`download_available`** — at every moment of an archive in whose life no removal of a blob file
outlived its request, a download of any artifact, left alone, sends it, unless two inputs of
different length have one digest: then it reports a broken artifact. -/
theorem download_available (hJson : c.JsonReads) (hh : c.HeaderValues)
    (h : PromptLife c cfg sqlite m) {a : ArtifactRow} (ha : a ∈ m.state.db.artifacts)
    {request : String}
    (hid : parseUuidText request "artifact identifier is not a UUID" = .ok a.id)
    (clock : ℤ → Prop) :
    Alone clock t (downloadArtifact c request) (fun r _ => Downloaded c m.state a.id r)
      (fun e _ => e = .artifactIntegrity ∧ Collides c a m.state) m.state := by
  obtain ⟨b, bytes, u, mrow, manifest', p, hstored⟩ := h.stored hJson ha
  obtain ⟨htraced, hb, hbid, hfile, pieces, htogether, hpieces⟩ := id hstored
  have hcoherent := Life.coherent hJson h.life
  obtain ⟨row, manifestRow, manifest, index, artifact, hread⟩ :=
    hcoherent.downloadRead hJson ha hb hbid
  obtain ⟨input, haccept⟩ := hread.read.accepted
  obtain ⟨metadata, hmetadata, headers, hheaders⟩ := downloadHeaders_total hJson hh haccept
    hread.declared ⟨a, manifestRow, b⟩ hread.text hread.sound hread.compared
    (digestBytes p.digest.toList)
  have hsame := htraced.metadata hcoherent.unique hread.row hmetadata
  have hdigest : b.storedSha256 = p.digest := htraced.blob.2 b hb hbid
  have hvalid : storageDigest p.digest = some p.digest := by
    obtain ⟨artifacts, -, hrules, rfl⟩ := normalizeManifest_ok.mp haccept
    have hmem := (sortByPath_perm artifacts).mem_iff.mp (List.mem_of_getElem? hread.declared)
    rw [← hdigest, (of_decide_eq_true hread.compared).2.2.2.2.2.2.1]
    exact (hrules.admissible.each artifact hmem).storedSha256.storage.2.1
  have hbytes : c.sha256Hex bytes = p.digest := hpieces.trans htogether.1.2.1
  rw [hdigest] at hfile
  refine Alone.check_bind (fun artifactId h => ?_) fun e h => ?_
  rotate_left
  · simp [hid] at h
  obtain rfl : a.id = artifactId := Except.ok.inj (hid.symm.trans h)
  refine Alone.bind (alone_verifiedDownloadMetadata hread.row hmetadata hread.read.read
    hread.read.reconciled) fun found s' hfound => ?_
  obtain ⟨rfl, -, hfs⟩ := hfound
  subst hsame
  refine Alone.bind (Q := fun body _ => body = bytes ∧ body.length =
    p.artifact.storedSizeBytes.toNat)
    (alone_preflightBlob (hfs ▸ hfile) hvalid hbytes (fun hsize => ⟨rfl, hsize⟩) fun hsize => ?_)
    fun body s'' hbody => ?_
  · refine ⟨rfl, b, bytes, u, mrow, manifest', p, pieces, hstored, htogether, hpieces, ?_⟩
    rw [htogether.1.1]
    exact hsize
  obtain ⟨rfl, hsize⟩ := hbody
  rw [hbytes]
  refine Alone.check_bind (fun headers' h => Alone.pure ?_) fun e h => ?_
  · exact ⟨a, u, mrow, manifest', p, rfl, htraced, hsize, ⟨pieces, htogether, hpieces⟩, h⟩
  · exact absurd (h.symm.trans hheaders) (by simp)

/-! ### The sample archive. -/

/-- No request of the sample archive is dropped. -/
theorem archivedEvents_kept : ∀ ev ∈ archivedEvents, ∀ t, ev ≠ .detach t := by
  have hserved {t : TaskId} {request : Request} {seconds first count : ℕ} :
      ∀ ev ∈ served t request seconds first count, ∀ t', ev ≠ .detach t' := by
    intro ev hev t' heq
    rcases List.mem_cons.mp hev with rfl | hev
    · cases heq
    rcases List.mem_append.mp hev with hev | hev
    · obtain ⟨k, -, rfl⟩ := List.mem_map.mp hev
      cases heq
    · rw [List.mem_singleton.mp hev] at heq
      cases heq
  intro ev hev
  rw [archivedEvents, List.mem_append, List.mem_append] at hev
  rcases hev with (hev | hev) | hev
  · exact hserved ev hev
  · exact hserved ev hev
  · exact hserved ev hev

/-- The sample archive has lived promptly, and has its artifact. -/
theorem lawfulArchive_prompt : ∃ p : Server,
    PromptLife lawfulCrates sampleConfig sampleSqlite (.serving p) ∧
      p.state.db.artifacts.map ArtifactRow.id = [sampleUuid 51] := by
  obtain ⟨p, p₁, p₂, hp, -, -, -, hreport⟩ := lawfulRetried
  obtain ⟨p₀, hboot, hreplay⟩ := Option.bind_eq_some_iff.mp hp
  obtain ⟨s, hstart, rfl⟩ := bootReplay_some hboot
  have hcheck : ∀ ev ∈ archivedEvents, ∀ e ∈ ev.input?, ∀ s, freshEnv e s = true →
      system.envOk e s :=
    fun ev hev e he s hfresh => (sampled_archivedEvents ev hev e he).envOk hfresh
  have hserving : PromptLife lawfulCrates sampleConfig sampleSqlite
      (.serving (Pool.init (s.cleanup 0))) := promptLife_of_bootstrap hstart
  have hrun : ServerRun lawfulCrates sampleConfig sampleSqlite (fun _ ev => ∀ t, ev ≠ .detach t)
      (Pool.init (s.cleanup 0)) p :=
    Pool.Run.of_replay hcheck (fun ev hev _ => archivedEvents_kept ev hev) hreplay
  exact ⟨p, (hserving.run rfl hrun).1, congrArg RetriedReport.artifacts hreport⟩

/-- The sample's artifact has its file. -/
theorem artifactFiles_accepted_sample : ∃ p : Server, ∃ a ∈ p.state.db.artifacts,
    ∃ b bytes u row manifest q, Stored lawfulCrates a p.state b bytes u row manifest q := by
  obtain ⟨p, hprompt, hids⟩ := lawfulArchive_prompt
  obtain ⟨a, ha, -⟩ := List.mem_map.mp (hids ▸ List.mem_singleton_self (sampleUuid 51))
  exact ⟨p, a, ha, artifactFiles_accepted lawfulCrates_jsonReads hprompt a ha⟩

/-- Downloaded alone, the sample's artifact is sent: no inputs of the sample collide. -/
theorem download_available_sample : ∃ (p : Server) (a : ArtifactRow), a ∈ p.state.db.artifacts ∧
    Alone (fun _ => True) 3 (downloadArtifact lawfulCrates (sampleUuid 51))
      (fun r _ => Downloaded lawfulCrates p.state a.id r) (fun _ _ => False) p.state := by
  obtain ⟨p, hprompt, hids⟩ := lawfulArchive_prompt
  obtain ⟨a, ha, hid⟩ := List.mem_map.mp (hids ▸ List.mem_singleton_self (sampleUuid 51))
  have hparse : parseUuidText (sampleUuid 51) "artifact identifier is not a UUID" =
      .ok (sampleUuid 51) := by decide +kernel
  have hheaders : lawfulCrates.HeaderValues := ⟨(Crates.sample_headerValues []).fromStr⟩
  rw [← hid] at hparse ⊢
  refine ⟨p, a, ha, Alone.mono (download_available lawfulCrates_jsonReads hheaders hprompt ha hparse
    _)
    (fun _ _ h => h) fun e s' h => ?_⟩
  obtain ⟨-, b, bytes, u, row, manifest, q, pieces, -, -, hsame, hlength⟩ := h
  exact hlength (congrArg List.length (lawfulCrates_injective hsame))

end Patwari
