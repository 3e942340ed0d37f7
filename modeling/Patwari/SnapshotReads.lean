/-
# Patwari.SnapshotReads — whether a snapshot is read whole.

`get_snapshot` reads the database four times: the snapshot with its manifest, the two reads of the
reconciliation, and the artifacts. Between any two of them anything may be committed. §1 says what
becomes of a snapshot and its manifest meanwhile: nothing, as long as the snapshot lives. §2 is what
each read finds of a snapshot that lives and of one that does not, and §3 puts the four together.
The document is whole unless the snapshot was deleted after the reconciliation had found it.
-/
import Patwari.Receipts
import Patwari.Verification
import Patwari.ManifestSize
import Patwari.Lib.Along

namespace Patwari

open Lib (TaskId Event Pool Prog UniqueOn updateWhere mem_updateWhere)

variable {c : Crates} {cfg : Config} {s s' : Shared} {db db' : Db} {snapshotId : String}

/-! ## §1 — What becomes of a snapshot. -/

/-- **`Db.Later db db'`** — what `db` may have become: no snapshot is forgotten, one that is live
has not changed, and the manifests of snapshots are kept. -/
structure Db.Later (db db' : Db) : Prop where
  snapshots : ∀ r ∈ db.snapshots, ∃ r' ∈ db'.snapshots, r'.fixed = r.fixed ∧
    (r'.live = true → r' = r)
  manifests : ∀ m ∈ db.manifests, (∃ r ∈ db.snapshots, r.manifestId = m.id) → m ∈ db'.manifests

theorem Db.Later.refl (db : Db) : db.Later db :=
  ⟨fun r hr => ⟨r, hr, rfl, fun _ => rfl⟩, fun _ hm _ => hm⟩

theorem SnapshotRow.manifestId_of_fixed {r r' : SnapshotRow} (h : r'.fixed = r.fixed) :
    r'.manifestId = r.manifestId := by
  have hfixed : r'.fixed.manifestId = r.fixed.manifestId := by rw [h]
  exact hfixed

theorem Db.Later.trans {db₁ db₂ db₃ : Db} (h₁ : db₁.Later db₂) (h₂ : db₂.Later db₃) :
    db₁.Later db₃ := by
  refine ⟨fun r hr => ?_, fun m hm href => ?_⟩
  · obtain ⟨r₂, hr₂, hfixed₂, hlive₂⟩ := h₁.snapshots r hr
    obtain ⟨r₃, hr₃, hfixed₃, hlive₃⟩ := h₂.snapshots r₂ hr₂
    refine ⟨r₃, hr₃, hfixed₃.trans hfixed₂, fun hlive => ?_⟩
    -- what is live at the end was live in between
    have hsame := hlive₃ hlive
    exact hsame.trans (hlive₂ (hsame ▸ hlive))
  · obtain ⟨r, hr, hid⟩ := href
    obtain ⟨r₂, hr₂, hfixed₂, -⟩ := h₁.snapshots r hr
    exact h₂.manifests m (h₁.manifests m hm ⟨r, hr, hid⟩)
      ⟨r₂, hr₂, (SnapshotRow.manifestId_of_fixed hfixed₂).trans hid⟩

/-- A change that keeps the rows of snapshots and the manifests they refer to. -/
theorem Db.Later.of_kept (hs : ∀ r ∈ db.snapshots, r ∈ db'.snapshots)
    (hm : ∀ m ∈ db.manifests, (∃ r ∈ db.snapshots, r.manifestId = m.id) → m ∈ db'.manifests) :
    db.Later db' :=
  ⟨fun r hr => ⟨r, hs r hr, rfl, fun _ => rfl⟩, hm⟩

theorem Effect.later {mode : Mode} {t : TaskId} {ids : List String}
    (h : Effect c cfg mode t s ids db) : s.db.Later db := by
  have hrefl := Db.Later.refl s.db
  cases h with
  | created new row hnew hsession hreuse hfree hfresh hrow hrows =>
    exact .of_kept (fun _ hr => hr) fun m hm _ => List.mem_append_left _ hm
  | ended upload current reason terminalAt hmem hfixed hactive hfree =>
    simp only [Db.uploadReferenced, Bool.or_eq_false_iff, List.any_eq_false, decide_eq_true_eq,
      Bool.and_eq_true, Bool.or_eq_true, List.any_eq_true, not_and, not_or, not_exists] at hfree
    refine .of_kept (fun _ hr => hr) fun m hm href => ?_
    -- the manifest of a snapshot is referred to, so it is not among those removed
    obtain ⟨r, hr, hmid⟩ := href
    refine List.mem_filter.mpr ⟨hm, decide_eq_true fun hsame => ?_⟩
    exact (hfree.2 m hm hsame).1 r hr hmid
  | recorded x row manifestRow blobIds hx hattach hblobs hrow hfresh hfree hrows hcontexts =>
    exact .of_kept (fun r hr => List.mem_append_left _ hr) fun _ hm _ => hm
  | deleted x snapshot manifest hx hrow hlive hfresh =>
    rw [foldl_scheduleOrClearBlobCandidate]
    refine ⟨fun r hr => ⟨_, mem_updateWhere.mpr ⟨r, hr, rfl⟩, ?_, ?_⟩, fun _ hm _ => hm⟩
    · split <;> rfl
    · -- the row that was marked is not live
      split
      · intro hlive'
        exact absurd hlive' (by simp [SnapshotRow.live])
      · exact fun _ => rfl
  | _ => exact { hrefl with }

theorem DbMoved.later (h : DbMoved c cfg s s') : s.db.Later s'.db := by
  have hrefl := Db.Later.refl s.db
  cases h with
  | stays hdb hused =>
    rw [hdb]
    exact hrefl
  | writes hids heffect hused => exact heffect.later
  | collects hcollects hused =>
    obtain ⟨row, -, -, heq⟩ := hcollects
    rw [heq]
    exact { hrefl with }
  | chunks keep hdb hused =>
    rw [hdb]
    exact { hrefl with }
  | legacy uploadId artifact chunkSize now expiresAt hactive hdb hused =>
    rw [hdb]
    exact { hrefl with }
  | contexts hdb hused =>
    rw [hdb]
    exact { hrefl with }

/-- Every manifest row is a manifest that was accepted under the configured limits. -/
def Db.ManifestsAccepted (c : Crates) (cfg : Config) (db : Db) : Prop :=
  ∀ m ∈ db.manifests, ∃ input manifest, normalizeManifest c input cfg.manifestLimits =
    .ok manifest ∧
    m.canonicalJson = manifest.canonicalJson

theorem Db.ManifestsAccepted.of_subset (h : db.ManifestsAccepted c cfg)
    (hm : ∀ m ∈ db'.manifests, m ∈ db.manifests) : db'.ManifestsAccepted c cfg :=
  fun m hmem => h m (hm m hmem)

theorem DbMoved.manifestsAccepted (h : DbMoved c cfg s s') (hs : s.db.ManifestsAccepted c cfg) :
    s'.db.ManifestsAccepted c cfg := by
  cases h with
  | stays hdb hused => exact hdb ▸ hs
  | writes hids heffect hused =>
    generalize s'.db = db at heffect ⊢
    cases heffect with
    | created new row hnew hsession hreuse hfree hfresh hrow hrows =>
      intro m hm
      rcases List.mem_append.mp hm with hm | hm
      · exact hs m hm
      · obtain rfl := List.mem_singleton.mp hm
        obtain ⟨input, hinput⟩ := hnew.manifest
        exact ⟨input, new.manifest, hinput, rfl⟩
    | ended upload current reason terminalAt hmem hfixed hactive hfree =>
      exact hs.of_subset fun m hm => List.mem_of_mem_filter hm
    | deleted x snapshot manifest hx hrow hlive hfresh =>
      rw [foldl_scheduleOrClearBlobCandidate]
      exact hs
    | _ => exact hs
  | collects hcollects hused =>
    obtain ⟨row, -, -, heq⟩ := hcollects
    exact heq ▸ hs
  | chunks keep hdb hused => exact hdb ▸ hs
  | legacy uploadId artifact chunkSize now expiresAt hactive hdb hused => exact hdb ▸ hs
  | contexts hdb hused => exact hdb ▸ hs

/-! ## §2 — What the reads find. -/

/-- The snapshot is there and not deleted. -/
def Db.Lives (db : Db) (snapshotId : String) : Prop :=
  ∃ r ∈ db.snapshots, r.id = snapshotId ∧ r.live = true

/-- **`Db.Coherent`** — what the reads of a snapshot rest on. -/
structure Db.Coherent (c : Crates) (cfg : Config) (db : Db) : Prop where
  unique : db.Unique
  identities : db.Identities c
  receipts : db.Receipts
  manifests : db.ManifestsAccepted c cfg

/-- A snapshot that is live later is the one it was. -/
theorem Db.Later.live_eq (h : db.Later db') (hunique : UniqueOn SnapshotRow.id db'.snapshots)
    {r r' : SnapshotRow} (hr : r ∈ db.snapshots) (hr' : r' ∈ db'.snapshots) (hid : r'.id = r.id)
    (hlive : r'.live = true) : r' = r := by
  obtain ⟨r₂, hr₂, hfixed, hsame⟩ := h.snapshots r hr
  obtain rfl := hunique.eq_of_mem hr₂ hr' ((SnapshotRow.id_of_fixed hfixed).trans hid.symm)
  exact hsame hlive

/-- What a live snapshot's own reads find. -/
structure LiveRead (c : Crates) (cfg : Config) (db : Db) (snapshotId : String) (row : SnapshotRow)
    (m : ManifestRow) (manifest : Manifest) : Prop where
  mem : row ∈ db.snapshots
  id : row.id = snapshotId
  live : row.live = true
  manifestMem : m ∈ db.manifests
  manifestId : m.id = row.manifestId
  read : db.reconcileRow snapshotId = some (row, m)
  parsed : parseManifest c m.canonicalJson = some manifest
  accepted : ∃ input, normalizeManifest c input cfg.manifestLimits = .ok manifest
  reconciled : reconcile c row m (db.reconcileArtifacts snapshotId) = .ok ()

theorem Db.Coherent.liveRead (h : db.Coherent c cfg) (hJson : c.JsonReads)
    (hlives : db.Lives snapshotId) :
    ∃ row m manifest, LiveRead c cfg db snapshotId row m manifest := by
  obtain ⟨row, hrow, rfl, hlive⟩ := hlives
  obtain ⟨m, hm, hid, hok⟩ := h.identities.projected row hrow hlive
  obtain ⟨input, manifest, hinput, htext⟩ := h.manifests m hm
  have hsnapshot : db.snapshot row.id = some row := Lib.find?_unique h.unique.snapshots hrow
  have hmanifest : db.manifest row.manifestId = some m := by
    rw [← hid]
    exact Lib.find?_unique h.unique.manifestIds hm
  refine ⟨row, m, manifest, hrow, rfl, hlive, hm, hid, ?_, ?_, ⟨input, hinput⟩, hok⟩
  · simp [Db.reconcileRow, hsnapshot, hmanifest, hlive]
  · rw [htext]
    exact parseManifest_canonicalJson hJson manifest

/-- Nothing is found of a snapshot that is not live. -/
theorem Db.Coherent.deadRead (h : db.Coherent c cfg) (hdead : ¬ db.Lives snapshotId) :
    db.reconcileRow snapshotId = none ∧ db.reconcileArtifacts snapshotId = [] := by
  constructor
  · cases hread : db.reconcileRow snapshotId with
    | none => rfl
    | some row =>
      simp only [Db.reconcileRow, Option.bind_eq_bind, Option.bind_eq_some_iff,
        Option.ite_none_right_eq_some] at hread
      obtain ⟨snapshot, hsnapshot, -, -, hlive, -⟩ := hread
      have hid : snapshot.id = snapshotId := by simpa using List.find?_some hsnapshot
      exact absurd ⟨snapshot, List.mem_of_find?_eq_some hsnapshot, hid, hlive⟩ hdead
  · have hnone : (db.artifacts.filter fun a => decide (a.snapshotId = snapshotId)) = [] := by
      refine List.filter_eq_nil_iff.mpr fun a ha hid => ?_
      obtain ⟨r, hr, hrid, hlive⟩ := h.identities.artifacts a ha
      exact hdead ⟨r, hr, hrid.trans (of_decide_eq_true hid), hlive⟩
    unfold Db.reconcileArtifacts
    rw [hnone]
    rfl

theorem Db.snapshotResponseRow_eq (db : Db) (snapshotId : String) :
    db.snapshotResponseRow snapshotId = (db.reconcileRow snapshotId).map fun row =>
      ⟨row.1, row.2,
        (db.captures.filter fun r => decide (r.snapshotId = row.1.id)).length⟩ := by
  unfold Db.snapshotResponseRow Db.reconcileRow
  cases db.snapshot snapshotId with
  | none => rfl
  | some snapshot =>
    show (db.manifest snapshot.manifestId).bind _ = Option.map _ ((db.manifest _).bind _)
    cases db.manifest snapshot.manifestId with
    | none => rfl
    | some manifest =>
      show (if snapshot.live then _ else none) = Option.map _ (if snapshot.live then _ else none)
      cases snapshot.live <;> rfl

/-- What a reconciliation that succeeded compared. -/
theorem reconcile_ok {row : SnapshotRow} {m : ManifestRow} {rows : List (ArtifactRow × BlobRow)}
    {manifest : Manifest} (hparsed : parseManifest c m.canonicalJson = some manifest)
    (h : reconcile c row m rows = .ok ()) : row.artifactCount = manifest.artifacts.length ∧
      (∃ original stored, manifestTotals manifest = .ok (original, stored) ∧
        row.totalOriginalSizeBytes = original ∧ row.totalStoredSizeBytes = stored) ∧
      rowsMatch manifest.artifacts rows 0 = true := by
  unfold reconcile at h
  rw [hparsed] at h
  split at h
  · contradiction
  · dsimp only at h
    cases htotals : manifestTotals manifest with
    | error e =>
      rw [htotals] at h
      contradiction
    | ok totals =>
      obtain ⟨original, stored⟩ := totals
      rw [htotals] at h
      dsimp only at h
      split at h
      · next hall => exact ⟨hall.1, ⟨original, stored, rfl, hall.2.1, hall.2.2.1⟩, hall.2.2.2⟩
      · contradiction

/-- Without its artifacts a snapshot is not what its manifest says. -/
theorem reconcile_nil {row : SnapshotRow} {m : ManifestRow} {manifest : Manifest}
    (hparsed : parseManifest c m.canonicalJson = some manifest)
    (hnonempty : manifest.artifacts ≠ []) :
    reconcile c row m [] = .error .drift := by
  cases hreconcile : reconcile c row m [] with
  | ok u =>
    have hmatch := (reconcile_ok hparsed hreconcile).2.2
    cases hartifacts : manifest.artifacts with
    | nil => exact absurd hartifacts hnonempty
    | cons artifact rest =>
      rw [hartifacts] at hmatch
      exact absurd hmatch (by simp [rowsMatch])
  | error e =>
    unfold reconcile at hreconcile
    rw [hparsed] at hreconcile
    cases htotals : manifestTotals manifest with
    | error _ =>
      simp only [htotals] at hreconcile
      split at hreconcile
      · exact hreconcile.symm
      · exact hreconcile.symm
    | ok totals =>
      simp only [htotals] at hreconcile
      split at hreconcile
      · exact hreconcile.symm
      · split at hreconcile
        · contradiction
        · exact hreconcile.symm

/-! ## §3 — The document. -/

/-- A digest taken from a document and put back is the one that was there. -/
theorem DocumentDigest.document_storage {value : String} (h : DocumentDigest value) :
    digestDocumentValue (digestStorageValue value) = value := by
  obtain ⟨hex, hstrip, -, hlower⟩ := h
  have hstorage : digestStorageValue value = hex := by
    rw [digestStorageValue, hstrip, Option.getD_some]
  rw [hstorage, digestDocumentValue_of_hex hlower, ← String.toList_inj, String.toList_append]
  exact (toList_of_stripPrefix hstrip).symm

/-- The entry of a document is what the manifest says of an artifact. -/
structure ArtifactResponse.Describes (entry : ArtifactResponse) (artifact : Artifact) : Prop where
  logicalPath : entry.logicalPath = artifact.logicalPath
  mediaType : entry.mediaType = artifact.mediaType
  originalSizeBytes : entry.originalSizeBytes = artifact.originalSizeBytes.toNat
  originalSha256 : entry.originalSha256 = artifact.originalSha256
  storedSizeBytes : entry.storedSizeBytes = artifact.storedSizeBytes.toNat
  storedSha256 : entry.storedSha256 = artifact.storedSha256
  compression : entry.compression = artifact.compression

/-- **`SnapshotResponse.Whole`** — the artifacts of a document are those of its manifest, one to one
and in order, and its counts are theirs. -/
structure SnapshotResponse.Whole (r : SnapshotResponse) : Prop where
  artifacts : List.Forall₂ ArtifactResponse.Describes r.artifacts r.manifest.artifacts
  indexes : r.artifacts.map ArtifactResponse.artifactIndex = List.range r.manifest.artifacts.length
  artifactCount : r.artifactCount = r.manifest.artifacts.length
  totalOriginalBytes : r.totalOriginalBytes = originalTotal r.manifest.artifacts
  totalStoredBytes : r.totalStoredBytes = storedTotal r.manifest.artifacts

/-- The rows of a reconciled snapshot as the entries of its document. -/
theorem artifactResponses_ok {artifacts : List Artifact} {rows : List (ArtifactRow × BlobRow)}
    {k : ℕ} (hdigests : ∀ a ∈ artifacts, DocumentDigest a.originalSha256 ∧
      DocumentDigest a.storedSha256) (hbound : k + artifacts.length < 2 ^ 32)
    (h : rowsMatch artifacts rows k = true) :
    ∃ entries, rows.mapM (fun r => artifactResponse r.1 r.2) = .ok entries ∧
      List.Forall₂ ArtifactResponse.Describes entries artifacts ∧
      entries.map ArtifactResponse.artifactIndex = List.range' k artifacts.length := by
  induction artifacts generalizing rows k with
  | nil =>
    cases rows with
    | nil => exact ⟨[], rfl, List.Forall₂.nil, rfl⟩
    | cons row rest => exact absurd h (by simp [rowsMatch])
  | cons artifact artifacts ih =>
    cases rows with
    | nil => exact absurd h (by simp [rowsMatch])
    | cons row rest =>
      obtain ⟨row, blob⟩ := row
      rw [rowsMatch, Bool.and_eq_true] at h
      obtain ⟨hindex, hpath, hmedia, hosize, hosha, hssize, hssha, hcompression⟩ :=
        of_decide_eq_true h.1
      rw [List.length_cons] at hbound
      obtain ⟨entries, hentries, hdescribes, hindexes⟩ :=
        ih (fun a ha => hdigests a (List.mem_cons_of_mem _ ha)) (k := k + 1) (by omega) h.2
      obtain ⟨horiginal, hstored⟩ := hdigests artifact List.mem_cons_self
      have hcolumn : unsigned32Column row.artifactIndex = .ok k := by
        unfold unsigned32Column
        rw [hindex, if_pos ⟨by omega, by exact_mod_cast (by omega : k < 2 ^ 32)⟩, Int.toNat_natCast]
        rfl
      have hsizes (n : ℕ) : unsignedColumn (n : ℤ) = .ok n :=
        unsignedColumn_total (Int.natCast_nonneg n)
      obtain ⟨entry, hentry, hdescribed, hposition⟩ : ∃ entry, artifactResponse row blob =
        .ok entry ∧
          entry.Describes artifact ∧ entry.artifactIndex = k := by
        unfold artifactResponse
        rw [hcolumn, hosize, hssize, hsizes, hsizes]
        refine ⟨_, rfl, ⟨hpath, hmedia, rfl, ?_, rfl, ?_, hcompression⟩, rfl⟩
        · show digestDocumentValue row.originalSha256 = _
          rw [hosha, horiginal.document_storage]
        · show digestDocumentValue blob.storedSha256 = _
          rw [hssha, hstored.document_storage]
      refine ⟨entry :: entries, ?_, List.Forall₂.cons hdescribed hdescribes, ?_⟩
      · rw [List.mapM_cons, hentry, ok_bind, hentries]
        rfl
      · rw [List.map_cons, hindexes, hposition, List.length_cons, List.range'_succ]

theorem snapshotDocument_ok {row : SnapshotRow} (m : ManifestRow) (captureCount : ℕ)
    {count original stored : ℕ} (hcount : unsigned32Column row.artifactCount = .ok count)
    (horiginal : row.totalOriginalSizeBytes = original) (hstored : row.totalStoredSizeBytes =
      stored)
    (manifest : Manifest) (entries : List ArtifactResponse) :
    ∃ document, snapshotDocument ⟨row, m, captureCount⟩ manifest entries = .ok document ∧
      document.artifacts = entries ∧ document.manifest = manifest ∧ document.artifactCount = count ∧
      document.totalOriginalBytes = original ∧ document.totalStoredBytes = stored ∧
      document.snapshotId = row.id := by
  have hsizes (n : ℕ) : unsignedColumn (n : ℤ) = .ok n :=
    unsignedColumn_total (Int.natCast_nonneg n)
  unfold snapshotDocument
  rw [hcount, horiginal, hstored, hsizes, hsizes]
  exact ⟨_, rfl, rfl, rfl, rfl, rfl, rfl, rfl⟩

/-- A document has the artifacts it was given, or there is none. -/
theorem snapshotDocument_cases (row : SnapshotListRow) (manifest : Manifest)
    (entries : List ArtifactResponse) : snapshotDocument row manifest entries = .error .internal ∨
      ∃ document, snapshotDocument row manifest entries = .ok document ∧
        document.artifacts = entries ∧ document.manifest = manifest := by
  unfold snapshotDocument unsigned32Column unsignedColumn
  split_ifs
  · exact Or.inr ⟨_, rfl, rfl, rfl⟩
  all_goals exact Or.inl rfl

/-- What is read of a snapshot that lives until the last read is a whole document. -/
theorem snapshotDocument_whole (hcount : cfg.maxArtifactCount ≤ ConfigBound.maxArtifactCount)
    (captureCount : ℕ) {row : SnapshotRow} {m : ManifestRow} {manifest : Manifest}
    {input : ManifestInput} {rows : List (ArtifactRow × BlobRow)}
    (hparsed : parseManifest c m.canonicalJson = some manifest)
    (haccepted : normalizeManifest c input cfg.manifestLimits = .ok manifest)
    (h : reconcile c row m rows = .ok ()) :
    ∃ entries document, rows.mapM (fun r => artifactResponse r.1 r.2) = .ok entries ∧
      snapshotDocument ⟨row, m, captureCount⟩ manifest entries = .ok document ∧
      document.Whole ∧ document.snapshotId = row.id := by
  obtain ⟨hartifactCount, ⟨original, stored, htotals, horiginal, hstored⟩, hmatch⟩ :=
    reconcile_ok hparsed h
  obtain ⟨artifacts, -, hrules, rfl⟩ := normalizeManifest_ok.mp haccepted
  have hwithin := Manifest.within haccepted
  have hmem : ∀ a ∈ sortByPath artifacts, a ∈ artifacts := fun a ha =>
    (sortByPath_perm artifacts).mem_iff.mp ha
  have hsmall : (sortByPath artifacts).length < 2 ^ 32 :=
    lt_of_le_of_lt (hwithin.count.trans hcount) (by decide)
  obtain ⟨entries, hentries, hdescribes, hindexes⟩ := artifactResponses_ok (k := 0)
    (fun a ha => ⟨(hrules.admissible.each a (hmem a ha)).originalSha256,
      (hrules.admissible.each a (hmem a ha)).storedSha256⟩) (by omega) hmatch
  have hadmissible := hrules.admissible.perm (sortByPath_perm artifacts).symm
  have htotals' := manifestTotals_ok (m := ⟨input.schemaVersion, input.session,
    canonicalCapture c input.capture, sortByPath artifacts⟩) hadmissible.originalTotal.2
    hadmissible.storedTotal.2
  obtain ⟨rfl, rfl⟩ := Prod.mk.inj (Except.ok.inj (htotals.symm.trans htotals'))
  have hcolumn : unsigned32Column row.artifactCount = .ok (sortByPath artifacts).length := by
    unfold unsigned32Column
    rw [hartifactCount, if_pos ⟨by omega, by exact_mod_cast hsmall⟩, Int.toNat_natCast]
    rfl
  obtain ⟨document, hdocument, rfl, hmanifest, hdcount, hdoriginal, hdstored, hid⟩ :=
    snapshotDocument_ok m captureCount hcolumn horiginal hstored
      ⟨input.schemaVersion, input.session, canonicalCapture c input.capture, sortByPath artifacts⟩
      entries
  refine ⟨_, document, hentries, hdocument, ?_, hid⟩
  constructor
  · rw [hmanifest]
    exact hdescribes
  · rw [hmanifest, hindexes, List.range_eq_range']
  · rw [hmanifest, hdcount]
  · rw [hmanifest, hdoriginal]
  · rw [hmanifest, hdstored]

/-! ## §4 — A request among others. -/

/-- What a request for a snapshot may be answered: that there is none, or the whole document. -/
def SnapshotAnswer (snapshotId : String) : Outcome → Prop
  | .ok (.snapshot r) => r.snapshotId = snapshotId ∧ r.Whole
  | .error (.api e) => e = snapshotNotFound
  | _ => False

/-- **`Torn snapshotId seen`** — the reconciliation found the snapshot, its second action, and one
of the two actions that follow no longer does. -/
def Torn (snapshotId : String) (seen : List (Env × Shared)) : Prop :=
  ∃ early late, seen[1]? = some early ∧ early.2.db.Lives snapshotId ∧
    (seen[2]? = some late ∨ seen[3]? = some late) ∧ ¬ late.2.db.Lives snapshotId

variable {sqlite : SqliteChecks} {t : TaskId}

section Actions

variable {κ α β : Type} {failure : κ → Failure} {response : β → Response}

/-- A request after an action that may fail. -/
theorem along_respond_atomic (label : Label) (f : TaskId → Env → Shared → Except κ α × Shared)
    (g : α → Handler κ β) (e : Env) (s : Shared) (rest : List (Env × Shared)) :
    (respond failure response (ExceptT.mk (Prog.atomic label f) >>= g)).along t ((e, s) :: rest) =
      (match (f t e s).1 with
      | .ok a => respond failure response (g a)
      | .error err => .done (.error (failure err))).along t rest := by
  show (Prog.bind (Prog.bind (Prog.done (f t e s).1) _) _).along t rest = _
  cases (f t e s).1 <;> rfl

theorem along_respond_query (onFault : κ) (f : Db → Except κ α) (g : α → Handler κ β) {e : Env}
    (he : e.fault = none) (s : Shared) (rest : List (Env × Shared)) :
    (respond failure response (query onFault f >>= g)).along t ((e, s) :: rest) =
      (match f s.db with
      | .ok a => respond failure response (g a)
      | .error err => .done (.error (failure err))).along t rest := by
  unfold query
  rw [along_respond_atomic, he]

/-- A reconciliation after its first read. -/
theorem along_respond_firstRead (map : ReconciliationError → κ) (snapshotId : String)
    (g : Unit → Handler κ β) {e : Env} (he : e.fault = none) (s : Shared)
    (rest : List (Env × Shared)) :
    (respond failure response (mapErr map (reconcileSnapshotReads c snapshotId) >>= g)).along t
        ((e, s) :: rest) =
      (match s.db.reconcileRow snapshotId with
      | some row => respond failure response (mapErr map (do
          let rows ← reconcileSecondRead snapshotId
          check (reconcile c row.1 row.2 rows)) >>= g)
      | none => .done (.error (failure (map .notFound)))).along t rest := by
  obtain ⟨now, uuid, fault⟩ := e
  obtain rfl : fault = none := he
  show (Prog.bind (Prog.bind (Prog.bind (Prog.bind (Prog.done (Prod.fst (match
    s.db.reconcileRow snapshotId with
    | some row => (Except.ok row, { s with reconciling := (snapshotId, t) :: s.reconciling })
    | none => (Except.error ReconciliationError.notFound, s)))) _) _) _) _).along t rest = _
  cases s.db.reconcileRow snapshotId <;> rfl

/-- A reconciliation after its second read. -/
theorem along_respond_secondRead (map : ReconciliationError → κ) (snapshotId : String)
    (row : SnapshotRow × ManifestRow) (g : Unit → Handler κ β) {e : Env} (he : e.fault = none)
    (s : Shared) (rest : List (Env × Shared)) :
    (respond failure response (mapErr map (do
        let rows ← reconcileSecondRead snapshotId
        check (reconcile c row.1 row.2 rows)) >>= g)).along t ((e, s) :: rest) =
      (match reconcile c row.1 row.2 (s.db.reconcileArtifacts snapshotId) with
      | .ok u => respond failure response (g u)
      | .error err => .done (.error (failure (map err)))).along t rest := by
  obtain ⟨now, uuid, fault⟩ := e
  obtain rfl : fault = none := he
  show (Prog.bind (Prog.bind (Prog.bind (Prog.done
    (reconcile c row.1 row.2 (s.db.reconcileArtifacts snapshotId))) _) _) _).along t rest = _
  cases reconcile c row.1 row.2 (s.db.reconcileArtifacts snapshotId) <;> rfl

end Actions

theorem handle_getSnapshot {request : String} (hid : parseUuidText request
    "snapshot identifier is not a UUID" = .ok snapshotId) :
    handle c cfg sqlite (.getSnapshot request) =
      respond .api .snapshot (snapshotResponse c snapshotId) := by
  show respond .api .snapshot (check (parseUuidText request _) >>= snapshotResponse c) = _
  rw [hid]
  rfl

/-- Two reads of a snapshot that lives find the same rows. -/
theorem LiveRead.same {row row' : SnapshotRow} {m m' : ManifestRow} {manifest manifest' : Manifest}
    (h : LiveRead c cfg db snapshotId row m manifest) (hlater : db.Later db')
    (hc' : db'.Coherent c cfg) (h' : LiveRead c cfg db' snapshotId row' m' manifest') :
    row' = row ∧ m' = m ∧ manifest' = manifest := by
  obtain rfl := hlater.live_eq hc'.unique.snapshots h.mem h'.mem (h'.id.trans h.id.symm) h'.live
  obtain rfl := hc'.unique.manifestIds.eq_of_mem h'.manifestMem
    (hlater.manifests m h.manifestMem ⟨_, h.mem, h.manifestId.symm⟩)
    (h'.manifestId.trans h.manifestId.symm)
  exact ⟨rfl, rfl, Option.some.inj (h'.parsed.symm.trans h.parsed)⟩

theorem Life.coherent {m : Moment} (hJson : c.JsonReads) (h : Life c cfg sqlite m) :
    m.state.db.Coherent c cfg where
  unique := (Life.good h).archive.inv.unique
  identities := h.identities hJson
  receipts := h.receipts
  manifests := h.keeps (fun _ hm => absurd hm List.not_mem_nil) fun _ _ hmoved hs =>
    hmoved.manifestsAccepted hs

/-- The states a task of a server sees are coherent, and each later one is later. -/
theorem Follows.coherent {seen : List (Env × Shared)} {p : Server} (hJson : c.JsonReads)
    (hlife : Life c cfg sqlite (.serving (Pool.init s)))
    (hrun : Pool.Follows system (handle c cfg sqlite) t (Pool.init s) seen p) :
    (∀ x ∈ seen, x.2.db.Coherent c cfg) ∧ seen.Pairwise fun x y => x.2.db.Later y.2.db := by
  constructor
  · intro x hx
    obtain ⟨q, hq, -, hstate⟩ := hrun.reached x hx
    rw [← hstate]
    exact (hlife.run hq).coherent hJson
  · refine (hrun.pairwise (R := fun s s' => s.db.Later s'.db) (fun _ _ _ => Db.Later.trans) ?_).1
    intro p₁ p₂ hp hstep
    have hgood := Life.good (hlife.run hp)
    exact ((LifeStep.event hstep).good hgood).2.dbMoved hgood.archive |>.later

/-- The request once the snapshot is reconciled: its artifacts are the last read. -/
def documentRead (c : Crates) (snapshotId : String) (row : SnapshotListRow) :
    Handler ApiError SnapshotResponse := do
  let manifest ← check (okOr (parseManifest c row.manifest.canonicalJson) .internal)
  let rows ← query .database fun db => pure (db.reconcileArtifacts snapshotId)
  let artifacts ← check (rows.mapM fun r => artifactResponse r.1 r.2)
  check (snapshotDocument row manifest artifacts)

/-- The request once the reconciliation has found the snapshot. -/
def reconciliationRead (c : Crates) (snapshotId : String) (row : SnapshotListRow) :
    Handler ApiError SnapshotResponse := do
  mapErr ReconciliationError.toSnapshotError (do
    let rows ← reconcileSecondRead snapshotId
    check (reconcile c row.snapshot row.manifest rows))
  documentRead c snapshotId row

section Reads

variable {row : SnapshotRow} {m : ManifestRow} {manifest : Manifest} {captureCount : ℕ}
  {seen : List (Env × Shared)} {outcome : Outcome}

/-- The last read: a snapshot that is deleted by then is answered with a document of no
artifacts. -/
theorem documentRead_exact (hJson : c.JsonReads)
    (hcount : cfg.maxArtifactCount ≤ ConfigBound.maxArtifactCount)
    (hread : LiveRead c cfg db snapshotId row m manifest)
    (hcoherent : ∀ x ∈ seen, x.2.db.Coherent c cfg) (hlater : ∀ x ∈ seen, db.Later x.2.db)
    (hcalm : ∀ x ∈ seen, x.1.fault = none)
    (hanswer : (respond .api .snapshot (documentRead c snapshotId ⟨row, m, captureCount⟩)).along t
      seen = some (.done outcome)) :
    SnapshotAnswer snapshotId outcome ↔ ∀ x, seen[0]? = some x → x.2.db.Lives snapshotId := by
  obtain ⟨input, haccepted⟩ := hread.accepted
  unfold documentRead at hanswer
  dsimp only at hanswer
  rw [hread.parsed] at hanswer
  match seen with
  | [] => exact nomatch Option.some.inj hanswer
  | ⟨e, s⟩ :: rest =>
  change (respond .api .snapshot (query .database (fun db =>
    pure (db.reconcileArtifacts snapshotId)) >>= _)).along t _ = _ at hanswer
  rw [along_respond_query _ _ _ (hcalm _ List.mem_cons_self)] at hanswer
  have hcoherent := hcoherent _ List.mem_cons_self
  have hlater := hlater _ List.mem_cons_self
  by_cases hlives : s.db.Lives snapshotId
  · obtain ⟨row', m', manifest', hread'⟩ := hcoherent.liveRead hJson hlives
    obtain ⟨rfl, rfl, rfl⟩ := hread.same hlater hcoherent hread'
    obtain ⟨entries, document, hentries, hdocument, hwhole, hdid⟩ :=
      snapshotDocument_whole hcount captureCount hread'.parsed haccepted hread'.reconciled
    change (respond .api .snapshot (check (List.mapM _ _) >>= _)).along t _ = _ at hanswer
    rw [hentries] at hanswer
    change (respond .api .snapshot (check (snapshotDocument _ _ _))).along t _ = _ at hanswer
    rw [hdocument] at hanswer
    obtain ⟨-, hout⟩ := Prog.along_done.mp hanswer
    obtain rfl := Prog.done.inj hout
    exact iff_of_true ⟨hdid.trans hread'.id, hwhole⟩ (by simpa using hlives)
  · rw [(hcoherent.deadRead hlives).2] at hanswer
    refine iff_of_false (fun h => ?_) (by simpa using hlives)
    -- the document of no artifacts is not the manifest's
    change (respond .api .snapshot (check (snapshotDocument _ _ []))).along t _ = _ at hanswer
    rcases snapshotDocument_cases ⟨row, m, captureCount⟩ manifest [] with
      herror | ⟨document, hok, hnil, hm⟩
    · rw [herror] at hanswer
      obtain ⟨-, hout⟩ := Prog.along_done.mp hanswer
      obtain rfl := Prog.done.inj hout
      exact nomatch (show ApiError.internal = snapshotNotFound from h)
    · rw [hok] at hanswer
      obtain ⟨-, hout⟩ := Prog.along_done.mp hanswer
      obtain rfl := Prog.done.inj hout
      have hartifacts := h.2.artifacts
      rw [hnil, hm, List.forall₂_nil_left_iff] at hartifacts
      exact (Manifest.within haccepted).nonempty hartifacts

/-- The read of the reconciliation that follows its first: a snapshot that is deleted by then fails
it. -/
theorem reconciliationRead_exact (hJson : c.JsonReads)
    (hcount : cfg.maxArtifactCount ≤ ConfigBound.maxArtifactCount)
    (hread : LiveRead c cfg db snapshotId row m manifest)
    (hcoherent : ∀ x ∈ seen, x.2.db.Coherent c cfg) (hlater : ∀ x ∈ seen, db.Later x.2.db)
    (hcalm : ∀ x ∈ seen, x.1.fault = none)
    (hanswer : (respond .api .snapshot
      (reconciliationRead c snapshotId ⟨row, m, captureCount⟩)).along t seen =
        some (.done outcome)) :
    SnapshotAnswer snapshotId outcome ↔
      ∀ x, seen[0]? = some x ∨ seen[1]? = some x → x.2.db.Lives snapshotId := by
  match seen with
  | [] => exact nomatch Option.some.inj hanswer
  | ⟨e, s⟩ :: rest =>
  unfold reconciliationRead at hanswer
  rw [along_respond_secondRead _ _ (row, m) _ (hcalm _ List.mem_cons_self)] at hanswer
  obtain ⟨hcoherent₁, hcoherent⟩ := List.forall_mem_cons.mp hcoherent
  obtain ⟨hlater₁, hlater⟩ := List.forall_mem_cons.mp hlater
  obtain ⟨-, hcalm⟩ := List.forall_mem_cons.mp hcalm
  by_cases hlives : s.db.Lives snapshotId
  · obtain ⟨row', m', manifest', hread'⟩ := hcoherent₁.liveRead hJson hlives
    obtain ⟨rfl, rfl, rfl⟩ := hread.same hlater₁ hcoherent₁ hread'
    rw [hread'.reconciled] at hanswer
    rw [documentRead_exact hJson hcount hread hcoherent hlater hcalm hanswer]
    constructor
    · rintro hnext x (hx | hx)
      · obtain rfl := Option.some.inj hx
        exact hlives
      · exact hnext x hx
    · exact fun hall x hx => hall x (Or.inr hx)
  · obtain ⟨input, haccepted⟩ := hread.accepted
    rw [(hcoherent₁.deadRead hlives).2,
      reconcile_nil hread.parsed (Manifest.within haccepted).nonempty] at hanswer
    obtain ⟨-, hout⟩ := Prog.along_done.mp hanswer
    obtain rfl := Prog.done.inj hout
    refine iff_of_false (fun h => nomatch (show ApiError.internal = snapshotNotFound from h)) ?_
    exact fun hall => hlives (hall _ (Or.inl rfl))

end Reads

/-- **`snapshotReads_exact`** — in every run of a server on an archive that may have lived through
anything before, whose database answers the request's reads, a request for a snapshot is answered
that there is none or with the whole document, unless the reconciliation found the snapshot and one
of the two reads after that came too late. -/
theorem snapshotReads_exact (hJson : c.JsonReads)
    (hcount : cfg.maxArtifactCount ≤ ConfigBound.maxArtifactCount)
    (hlife : Life c cfg sqlite (.serving (Pool.init s))) {request : String}
    (hid : parseUuidText request "snapshot identifier is not a UUID" = .ok snapshotId)
    {seen : List (Env × Shared)} {p : Server} {outcome : Outcome}
    (hrun : Pool.Follows system (handle c cfg sqlite) t (Pool.init s) seen p)
    (htask : p.tasks t = some (.getSnapshot request, .done outcome))
    (hcalm : ∀ x ∈ seen, x.1.fault = none) :
    SnapshotAnswer snapshotId outcome ↔ ¬ Torn snapshotId seen := by
  obtain ⟨hcoherent, hlater⟩ := Follows.coherent hJson hlife hrun
  have hanswer := hrun.along htask
  rw [handle_getSnapshot hid] at hanswer
  clear hrun htask hlife
  -- the first read
  match seen with
  | [] => exact nomatch Option.some.inj hanswer
  | ⟨e₁, s₁⟩ :: rest =>
  unfold snapshotResponse at hanswer
  rw [along_respond_query _ _ _ (hcalm _ List.mem_cons_self), Db.snapshotResponseRow_eq] at hanswer
  obtain ⟨hlater₁, hlater⟩ := List.pairwise_cons.mp hlater
  obtain ⟨hcoherent₁, hcoherent⟩ := List.forall_mem_cons.mp hcoherent
  obtain ⟨-, hcalm⟩ := List.forall_mem_cons.mp hcalm
  by_cases hlives₁ : s₁.db.Lives snapshotId
  rotate_left
  · rw [(hcoherent₁.deadRead hlives₁).1] at hanswer
    obtain ⟨rfl, hout⟩ := Prog.along_done.mp hanswer
    obtain rfl := Prog.done.inj hout
    exact iff_of_true rfl (by simp [Torn])
  obtain ⟨row, m, manifest, hread₁⟩ := hcoherent₁.liveRead hJson hlives₁
  rw [hread₁.read] at hanswer
  -- the reconciliation's first read
  match rest with
  | [] => exact nomatch Option.some.inj hanswer
  | ⟨e₂, s₂⟩ :: rest =>
  dsimp only [Option.map_some, okOr] at hanswer
  rw [along_respond_firstRead _ _ _ (hcalm _ List.mem_cons_self)] at hanswer
  obtain ⟨hlater₂, -⟩ := List.pairwise_cons.mp hlater
  obtain ⟨hcoherent₂, hcoherent⟩ := List.forall_mem_cons.mp hcoherent
  obtain ⟨-, hcalm⟩ := List.forall_mem_cons.mp hcalm
  by_cases hlives₂ : s₂.db.Lives snapshotId
  · obtain ⟨row₂, m₂, manifest₂, hread₂⟩ := hcoherent₂.liveRead hJson hlives₂
    obtain ⟨rfl, rfl, rfl⟩ := hread₁.same (hlater₁ _ List.mem_cons_self) hcoherent₂ hread₂
    rw [hread₂.read] at hanswer
    rw [reconciliationRead_exact hJson hcount hread₂ hcoherent hlater₂ hcalm hanswer]
    simp [Torn, hlives₂]
  · rw [(hcoherent₂.deadRead hlives₂).1] at hanswer
    obtain ⟨rfl, hout⟩ := Prog.along_done.mp hanswer
    obtain rfl := Prog.done.inj hout
    exact iff_of_true rfl (by simp [Torn])

/-! ### Reads of the sample snapshot. -/

instance (db : Db) (snapshotId : String) : Decidable (db.Lives snapshotId) :=
  inferInstanceAs (Decidable (∃ r ∈ db.snapshots, r.id = snapshotId ∧ r.live = true))

/-- Actions of a task under the sample identifiers from `first` on. -/
def actions (t : TaskId) (seconds first count : ℕ) : List (Event Env Request) :=
  (List.range count).map fun k => .act t (sampleEnv seconds (first + k))

theorem sampled_actions {t : TaskId} {seconds first count : ℕ} (h : first + count ≤ 256) :
    ∀ ev ∈ actions t seconds first count, ∀ e ∈ ev.input?, Sampled e := by
  intro ev hev e he
  obtain ⟨k, hk, rfl⟩ := List.mem_map.mp hev
  have hlt := List.mem_range.mp hk
  obtain rfl : sampleEnv seconds (first + k) = e := by simpa [Event.input?] using he
  exact ⟨first + k, by omega, rfl⟩

/-- The sample snapshot is archived and read. -/
def readEvents : List (Event Env Request) :=
  archivedEvents ++ .spawn (.getSnapshot (sampleUuid 50)) :: actions 3 1 59 4

/-- It is deleted before the last of the four reads. -/
def tornEvents : List (Event Env Request) :=
  archivedEvents ++ .spawn (.getSnapshot (sampleUuid 50)) :: (actions 3 1 59 3 ++
    (served 4 (.deleteSnapshot (sampleDeletion (sampleUuid 50))) 1 62 11 ++ actions 3 1 73 1))

/-- It is deleted between the first read and the reconciliation. -/
def goneEvents : List (Event Env Request) :=
  archivedEvents ++ .spawn (.getSnapshot (sampleUuid 50)) :: (actions 3 1 59 1 ++
    (served 4 (.deleteSnapshot (sampleDeletion (sampleUuid 50))) 1 60 11 ++ actions 3 1 71 1))

theorem sampled_readEvents : ∀ ev ∈ readEvents, ∀ e ∈ ev.input?, Sampled e := by
  intro ev hev
  rcases List.mem_append.mp hev with hev | hev
  · exact sampled_archivedEvents ev hev
  · rcases List.mem_cons.mp hev with rfl | hev
    · exact fun e he => nomatch he
    · exact sampled_actions (by norm_num) ev hev

/-- A read that a deletion comes into is of sample identifiers, when its two parts are. -/
theorem sampled_deletedWithin {first deleted last before after : ℕ} (hfirst : first + before ≤ 256)
    (hdeleted : deleted + 11 ≤ 256) (hlast : last + after ≤ 256) :
    ∀ ev ∈ archivedEvents ++ .spawn (.getSnapshot (sampleUuid 50)) :: (actions 3 1 first before ++
      (served 4 (.deleteSnapshot (sampleDeletion (sampleUuid 50))) 1 deleted 11 ++
        actions 3 1 last after)), ∀ e ∈ ev.input?, Sampled e := by
  intro ev hev
  rcases List.mem_append.mp hev with hev | hev
  · exact sampled_archivedEvents ev hev
  rcases List.mem_cons.mp hev with rfl | hev
  · exact fun e he => nomatch he
  rcases List.mem_append.mp hev with hev | hev
  · exact sampled_actions hfirst ev hev
  rcases List.mem_append.mp hev with hev | hev
  · exact sampled_served hdeleted ev hev
  · exact sampled_actions hlast ev hev

theorem sampled_tornEvents : ∀ ev ∈ tornEvents, ∀ e ∈ ev.input?, Sampled e :=
  sampled_deletedWithin (by norm_num) (by norm_num) (by norm_num)

theorem sampled_goneEvents : ∀ ev ∈ goneEvents, ∀ e ∈ ev.input?, Sampled e :=
  sampled_deletedWithin (by norm_num) (by norm_num) (by norm_num)

/-- The count of a document and the length of its list. -/
def documentCounts : Outcome → Option (ℕ × ℕ)
  | .ok (.snapshot r) => some (r.artifactCount, r.artifacts.length)
  | _ => none

theorem documentCounts_some {outcome : Outcome} {counts : ℕ × ℕ}
    (h : documentCounts outcome = some counts) :
    ∃ r, outcome = .ok (.snapshot r) ∧ (r.artifactCount, r.artifacts.length) = counts := by
  unfold documentCounts at h
  split at h
  · next r => exact ⟨r, rfl, Option.some.inj h⟩
  · contradiction

/-- What a replay shows of the request: whether all its actions went well, for each of them whether
the snapshot lived, and of its answer the counts of a document. -/
structure ReadReport where
  calm : Bool
  lived : List Bool
  counts : Option (Option (ℕ × ℕ))
  deriving DecidableEq

def readReport (events : List (Event Env Request)) : Option ReadReport :=
  (bootReplay lawfulCrates sampleConfig).bind fun p₀ =>
    (p₀.replay system (handle lawfulCrates sampleConfig sampleSqlite) freshEnv events).map fun p =>
      let seen := p₀.seen system (handle lawfulCrates sampleConfig sampleSqlite) 3 events
      { calm := seen.all fun x => x.1.fault.isNone
        lived := seen.map fun x => decide (x.2.db.Lives (sampleUuid 50))
        counts :=
          match p.tasks 3 with
          | some (.getSnapshot request, .done outcome) =>
            if request = sampleUuid 50 then some (documentCounts outcome) else none
          | _ => none }

/-- Events that can be replayed are a run that follows the request. -/
theorem follows_of_readReport {events : List (Event Env Request)}
    (hevents : ∀ ev ∈ events, ∀ e ∈ ev.input?, Sampled e) {lived : List Bool}
    {counts : Option (ℕ × ℕ)}
    (h : readReport events = some ⟨true, lived, some counts⟩) :
    ∃ (s : Shared) (seen : List (Env × Shared)) (p : Server) (outcome : Outcome),
      Life lawfulCrates sampleConfig sampleSqlite (.serving (Pool.init s)) ∧
      Pool.Follows system (handle lawfulCrates sampleConfig sampleSqlite) 3 (Pool.init s) seen p ∧
      p.tasks 3 = some (.getSnapshot (sampleUuid 50), .done outcome) ∧
      (∀ x ∈ seen, x.1.fault = none) ∧
      seen.map (fun x => decide (x.2.db.Lives (sampleUuid 50))) = lived ∧
      documentCounts outcome = counts := by
  obtain ⟨p₀, hboot, hmap⟩ := Option.bind_eq_some_iff.mp h
  obtain ⟨p, hreplay, hreport⟩ := Option.map_eq_some_iff.mp hmap
  obtain ⟨hcalm, hlived, hanswer⟩ := ReadReport.mk.inj hreport
  obtain ⟨s, hstart, rfl⟩ := bootReplay_some hboot
  have hlife : Life lawfulCrates sampleConfig sampleSqlite (.serving (Pool.init (s.cleanup 0))) :=
    life_of_replay (fun ev hev => absurd hev List.not_mem_nil) hstart rfl
  split at hanswer
  · next request outcome htask =>
    split_ifs at hanswer with hrequest
    subst hrequest
    have hfollows := Pool.follows_of_replay (t := 3)
      (fun ev hev e he s hfresh => (hevents ev hev e he).envOk hfresh) hreplay
    refine ⟨_, _, p, outcome, hlife, hfollows, htask, fun x hx => ?_, hlived,
      Option.some.inj hanswer⟩
    exact Option.isNone_iff_eq_none.mp (List.all_eq_true.mp hcalm x hx)
  · contradiction

/-- The three replays, of which the first part is the same. -/
theorem readReports :
    readReport readEvents = some ⟨true, [true, true, true, true], some (some (1, 1))⟩ ∧
      readReport tornEvents = some ⟨true, [true, true, true, false], some (some (1, 0))⟩ ∧
      readReport goneEvents = some ⟨true, [true, false], some none⟩ := by
  decide +kernel

/-- Whether a request was torn can be told from where the snapshot lived. -/
theorem not_torn_of_lived {snapshotId : String} {seen : List (Env × Shared)} {lived : List Bool}
    (h : seen.map (fun x => decide (x.2.db.Lives snapshotId)) = lived)
    (hlived : lived[1]? = some true → lived[2]? ≠ some false ∧ lived[3]? ≠ some false) :
    ¬ Torn snapshotId seen := by
  rintro ⟨early, late, hearly, hlives, hlate, hdead⟩
  have hentry : ∀ (i : ℕ) x, seen[i]? = some x →
      lived[i]? = some (decide (x.2.db.Lives snapshotId)) := by
    intro i x hx
    rw [← h, List.getElem?_map, hx, Option.map_some]
  obtain ⟨hthird, hfourth⟩ := hlived ((hentry 1 early hearly).trans (by simp [hlives]))
  rcases hlate with hlate | hlate
  · exact hthird ((hentry 2 late hlate).trans (by simp [hdead]))
  · exact hfourth ((hentry 3 late hlate).trans (by simp [hdead]))

/-- A snapshot that is left alone is answered with its document, and one that is deleted before the
reconciliation without one. -/
theorem snapshotReads_exact_sample : ∃ (s s' : Shared) (p p' : Server) (outcome outcome' : Outcome),
    Life lawfulCrates sampleConfig sampleSqlite (.serving (Pool.init s)) ∧
    p.tasks 3 = some (.getSnapshot (sampleUuid 50), .done outcome) ∧
    documentCounts outcome = some (1, 1) ∧ SnapshotAnswer (sampleUuid 50) outcome ∧
    Life lawfulCrates sampleConfig sampleSqlite (.serving (Pool.init s')) ∧
    p'.tasks 3 = some (.getSnapshot (sampleUuid 50), .done outcome') ∧
    documentCounts outcome' = none ∧ SnapshotAnswer (sampleUuid 50) outcome' := by
  obtain ⟨s, seen, p, outcome, hlife, hrun, htask, hcalm, hlived, hcounts⟩ :=
    follows_of_readReport sampled_readEvents readReports.1
  obtain ⟨s', seen', p', outcome', hlife', hrun', htask', hcalm', hlived', hcounts'⟩ :=
    follows_of_readReport sampled_goneEvents readReports.2.2
  have hid : parseUuidText (sampleUuid 50) "snapshot identifier is not a UUID" =
      .ok (sampleUuid 50) := by decide +kernel
  refine ⟨s, s', p, p', outcome, outcome', hlife, htask, hcounts, ?_, hlife', htask', hcounts', ?_⟩
  · exact (snapshotReads_exact lawfulCrates_jsonReads (by decide) hlife hid hrun htask hcalm).mpr
      (not_torn_of_lived hlived (by decide))
  · exact (snapshotReads_exact lawfulCrates_jsonReads (by decide) hlife' hid hrun' htask'
      hcalm').mpr (not_torn_of_lived hlived' (by decide))

/-- **`snapshotReads_torn`** — a snapshot deleted before the last read is answered with a document
that counts one artifact and lists none. -/
theorem snapshotReads_torn : ∃ (s : Shared) (seen : List (Env × Shared)) (p : Server)
    (r : SnapshotResponse),
    Life lawfulCrates sampleConfig sampleSqlite (.serving (Pool.init s)) ∧
    Pool.Follows system (handle lawfulCrates sampleConfig sampleSqlite) 3 (Pool.init s) seen p ∧
    p.tasks 3 = some (.getSnapshot (sampleUuid 50), .done (.ok (.snapshot r))) ∧
    (∀ x ∈ seen, x.1.fault = none) ∧ r.artifactCount = 1 ∧ r.artifacts = [] ∧
    ¬ SnapshotAnswer (sampleUuid 50) (.ok (.snapshot r)) := by
  obtain ⟨s, seen, p, outcome, hlife, hrun, htask, hcalm, -, hdocument⟩ :=
    follows_of_readReport sampled_tornEvents readReports.2.1
  obtain ⟨r, rfl, hcounts⟩ := documentCounts_some hdocument
  obtain ⟨hcount, hlength⟩ := Prod.mk.inj hcounts
  have hnil := List.length_eq_zero_iff.mp hlength
  refine ⟨s, seen, p, r, hlife, hrun, htask, hcalm, hcount, hnil, fun h => ?_⟩
  have hwhole := h.2
  have hartifacts := hwhole.artifacts.length_eq
  rw [← hwhole.artifactCount, hcount, hlength] at hartifacts
  exact absurd hartifacts (by decide)

end Patwari
