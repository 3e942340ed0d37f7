/-
# Patwari.Custody — what the archive holds of what it accepted.

A canonical blob file is named by the digest of its bytes, and an artifact row names its blob. §1 is
the first half: whatever happens to an archive, a file is what its name says, and no file is ever
written over. §2 is the second half for a server that runs: a blob file goes only while nothing
refers to it, provided its removal does not outlive the task that looked. §3 says the same of every
program of a bootstrap, §4 of the whole life of an archive.
-/
import Patwari.Lib.Outcome
import Patwari.SnapshotReads

namespace Patwari

open Lib (Prog TaskId Event Pool Discipline Routine UniqueOn updateWhere mem_updateWhere)
open Lib.Prog (Keeps KeepsE)

variable {c : Crates} {cfg : Config} {mode : Mode} {sqlite : SqliteChecks} {t : TaskId}
  {s s' : Shared} {ids : List String} {db db' : Db} {m m' : Moment}

/-! ## §1 — Files are what their names say. -/

/-- Every canonical blob file is readable and has the digest it is named by. -/
def FileStore.Named (c : Crates) (fs : FileStore) : Prop :=
  ∀ d node, fs.lookup (blobPath d) = some node → ∃ bytes, node = .file bytes ∧ c.sha256Hex bytes = d

theorem FileStore.Named.empty (c : Crates) : FileStore.empty.Named c := by
  intro d node h
  simp [FileStore.lookup, FileStore.empty] at h

/-- What one step may do to the canonical file of a digest. -/
inductive BlobFileStep (c : Crates) (d : String) (fs fs' : FileStore) (mayGo : Prop) : Prop
  | kept (h : fs'.lookup (blobPath d) = fs.lookup (blobPath d))
  | added (bytes : Bytes) (hnone : fs.lookup (blobPath d) = none)
      (h : fs'.lookup (blobPath d) = some (.file bytes)) (hdigest : c.sha256Hex bytes = d)
  | gone (h : fs'.lookup (blobPath d) = none) (hmay : mayGo)

theorem BlobFileStep.refl (d : String) (fs : FileStore) (mayGo : Prop) :
    BlobFileStep c d fs fs mayGo := .kept rfl

theorem BlobFileStep.mono {d : String} {fs fs' : FileStore} {p q : Prop}
    (h : BlobFileStep c d fs fs' p) (hpq : p → q) : BlobFileStep c d fs fs' q := by
  cases h with
  | kept h => exact .kept h
  | added bytes hnone h hdigest => exact .added bytes hnone h hdigest
  | gone h hmay => exact .gone h (hpq hmay)

theorem FileWrite.blobFile {fs : FileStore} (h : FileWrite c mode t s fs) (d : String) :
    BlobFileStep c d s.fs fs
      (mode.removals → Holds t (blobLock d) s ∧ Unreferenced t d s) := by
  cases h with
  | upload h =>
    rcases h (blobPath d) with heq | ⟨hup, -⟩
    · exact .kept heq
    · simp at hup
  | blobDirs h =>
    rcases h (blobPath d) with heq | ⟨-, -, hdir⟩
    · exact .kept heq
    · rcases hdir with hdir | ⟨e, hdir⟩ <;> simp [blobPath] at hdir
  | link e bytes hlock hnone hdigest h =>
    by_cases hd : blobPath d = blobPath e
    · obtain rfl := blobPath_injective hd
      exact .added bytes hnone (by rw [h, if_pos rfl]) hdigest
    · exact .kept (by rw [h, if_neg hd])
  | unlink e hlock h =>
    by_cases hd : blobPath d = blobPath e
    · obtain rfl := blobPath_injective hd
      exact .gone (by rw [h, if_pos rfl]) hlock
    · exact .kept (by rw [h, if_neg hd])

/-- A task adds a canonical file under the digest of its bytes, or removes one. -/
theorem SysStep.blobFile (h : SysStep c cfg mode t s s') (d : String) :
    BlobFileStep c d s.fs s'.fs
      (mode.removals → Holds t (blobLock d) s ∧ Unreferenced t d s) := by
  cases h with
  | files h horderly => exact h.blobFile d
  | _ => exact .refl d _ _

/-- So does everything else that happens to an archive. -/
theorem Moved.blobFile (h : Moved c cfg s s') (d : String) :
    BlobFileStep c d s.fs s'.fs True := by
  cases h with
  | task h => exact (h.blobFile d).mono fun _ => trivial
  | boot h =>
    cases h with
    | service h => exact (h.blobFile d).mono fun _ => trivial
    | files hlegacy hblobs =>
      rcases hblobs d with heq | hnone
      · exact .kept heq
      · exact .gone hnone trivial
    | _ => exact .refl d _ _
  | stays => exact .refl d _ _
  | stop => exact .refl d _ _

theorem BlobFileStep.named {fs fs' : FileStore} (h : ∀ d, BlobFileStep c d fs fs' True)
    (hs : fs.Named c) : fs'.Named c := by
  intro d node hnode
  cases h d with
  | kept heq => exact hs d node (heq ▸ hnode)
  | added bytes hnone hnew hdigest =>
    rw [hnew] at hnode
    exact ⟨bytes, (Option.some.inj hnode).symm, hdigest⟩
  | gone hnone hmay => simp [hnone] at hnode

/-- What the next thing that happens to an archive does to the file of a digest. -/
theorem LifeStep.blobFile (h : Life c cfg sqlite m) (hstep : LifeStep c cfg sqlite m m')
    (d : String) :
    BlobFileStep c d m.state.fs m'.state.fs True :=
  (hstep.good (Life.good h)).2.blobFile d

theorem Life.named (h : Life c cfg sqlite m) : m.state.fs.Named c := by
  induction h with
  | refl => exact FileStore.Named.empty c
  | tail hlife hstep ih => exact BlobFileStep.named (LifeStep.blobFile hlife hstep) ih

/-- **`blobFiles_named`** — at every moment of an archive's life, whatever is dropped, left behind
or cut off, each canonical blob file is a readable file of the digest it is named by, and the next
thing that happens leaves it as it is or removes it. -/
theorem blobFiles_named (h : Life c cfg sqlite m) :
    (∀ d node, m.state.fs.lookup (blobPath d) = some node →
      ∃ bytes, node = .file bytes ∧ c.sha256Hex bytes = d) ∧
    ∀ m', LifeStep c cfg sqlite m m' → ∀ d node,
      m.state.fs.lookup (blobPath d) = some node →
        m'.state.fs.lookup (blobPath d) = some node ∨ m'.state.fs.lookup (blobPath d) = none := by
  refine ⟨Life.named h, fun m' hstep d node hnode => ?_⟩
  cases LifeStep.blobFile h hstep d with
  | kept heq => exact Or.inl (heq.trans hnode)
  | added bytes hnone => simp [hnone] at hnode
  | gone hnone => exact Or.inr hnone

/-- On the sample archive every blob file is what its name says. -/
theorem blobFiles_named_sample : ∃ p : Server, p.state.db.snapshots.map SnapshotRow.live = [true] ∧
    ∀ d node, p.state.fs.lookup (blobPath d) = some node →
      ∃ bytes, node = .file bytes ∧ lawfulCrates.sha256Hex bytes = d := by
  obtain ⟨p, hlife, hlive⟩ := lawfulArchive
  exact ⟨p, hlive, (blobFiles_named hlife).1⟩

/-! ## §2 — The files of artifacts, while a server runs. -/

/-- What a completion has written down of a new artifact row. -/
structure ArtifactRecorded (c : Crates) (mode : Mode) (t : TaskId) (s : Shared) (db : Db)
    (a : ArtifactRow) (x : CompletionRecord) (p : PreparedArtifact) : Prop where
  record : RecordOk c mode t x s
  prepared : p ∈ x.prepared
  snapshotId : a.snapshotId = x.snapshotId
  artifactIndex : a.artifactIndex = p.artifactIndex
  blob : ∀ b ∈ db.blobs, b.id = a.blobId → b.storedSha256 = p.digest
  upload : ∃ u ∈ db.uploads, u.status = .completed ∧ u.snapshotId = some x.snapshotId ∧
    u.fixed = x.upload.fixed
  manifest : ∃ m ∈ db.manifests, m.uploadId = x.upload.id ∧
    parseManifest c m.canonicalJson = some x.manifest ∧
      ∃ r ∈ db.snapshots, r.id = x.snapshotId ∧ r.manifestId = m.id

/-- An artifact row is old, or a completion has just recorded it. -/
theorem Effect.artifact_origin (h : Effect c cfg mode t s ids db)
    (hunique : UniqueOn BlobRow.id db.blobs) {a : ArtifactRow} (ha : a ∈ db.artifacts) :
    a ∈ s.db.artifacts ∨ ∃ x p, ArtifactRecorded c mode t s db a x p := by
  cases h with
  | recorded x row manifestRow blobIds hx hattach hblobs hrow hfresh hfree hrows hcontexts =>
    apply (List.mem_append.mp ha).imp_right
    intro hnew
    obtain ⟨e, he, hartifact⟩ := (exists_of_forall₂ (forall₂_of_mapM_ok hrows)).2 a hnew
    obtain ⟨blobId, hblobId, rfl⟩ := artifactRow_ok hartifact
    obtain ⟨original, stored, -, -, hrowEq⟩ := snapshotRow_ok hrow
    obtain ⟨u, hu, hactive, hfixed⟩ := hattach.upload
    have hid : u.id = x.upload.id := UploadRow.id_of_fixed hfixed
    refine ⟨x, e.1, hx, (List.of_mem_zip he).1, rfl, rfl, fun b hb hbid => ?_,
      ⟨_, completed_mem_completedUploads hu hid hactive, rfl, rfl, hfixed⟩,
      ⟨manifestRow, hattach.manifest, hattach.manifestUpload, hattach.parsed, row,
        List.mem_append_right _ List.mem_cons_self, by rw [hrowEq], by rw [hrowEq]⟩⟩
    -- the identifier in the row was found under the digest, and stands for one blob
    obtain ⟨b', hb', hbid', -, y, -, -, hsha, -⟩ := hblobs.found _ (Crates.mem_of_lookup hblobId)
    obtain rfl : b = b' := hunique.eq_of_mem hb hb' (hbid.trans hbid'.symm)
    exact hsha
  | deleted x snapshot manifest hx hrow hlive hfresh =>
    rw [foldl_scheduleOrClearBlobCandidate] at ha
    exact Or.inl (List.mem_of_mem_filter ha)
  | _ => exact Or.inl ha

/-- Every artifact's blob has its file. -/
def Shelved (db : Db) (fs : FileStore) : Prop :=
  ∀ a ∈ db.artifacts, ∀ b ∈ db.blobs, b.id = a.blobId → fs.lookup (blobPath b.storedSha256) ≠ none

theorem Shelved.empty : Shelved Db.empty FileStore.empty := by simp [Shelved, Db.empty]

/-- Rows may go, and blobs change their deadlines. -/
theorem Shelved.mono {fs : FileStore} (h : Shelved db fs)
    (ha : ∀ a' ∈ db'.artifacts, ∃ a ∈ db.artifacts, a.blobId = a'.blobId)
    (hb : ∀ b' ∈ db'.blobs, ∃ b ∈ db.blobs, b'.fixed = b.fixed) : Shelved db' fs := by
  intro a' ha' b' hb' hid
  obtain ⟨a, hmem, hblobId⟩ := ha a' ha'
  obtain ⟨b, hbmem, hfixed⟩ := hb b' hb'
  obtain ⟨hbid, -, hsha, -⟩ := BlobRow.of_fixed hfixed
  rw [hsha]
  apply h a hmem b hbmem
  rw [← hbid, hid, hblobId]

/-- A row whose digest no other row has, and nothing refers to, needs no file. -/
theorem Shelved.of_blobFile {fs fs' : FileStore} (h : Shelved db fs)
    (hstep : ∀ d, BlobFileStep c d fs fs'
      (∀ a ∈ db.artifacts, ∀ b ∈ db.blobs, b.id = a.blobId → b.storedSha256 ≠ d)) :
    Shelved db fs' := by
  intro a ha b hb hid
  cases hstep b.storedSha256 with
  | kept heq =>
    rw [heq]
    exact h a ha b hb hid
  | added bytes hnone hnew => simp [hnew]
  | gone hnone hmay => exact absurd rfl (hmay a ha b hb hid)

/-- No removal of a canonical blob file outlives its task. -/
def Mode.prompt : Mode := ⟨True, False, fun _ => True, fun _ => True, fun _ _ => True⟩

/-- What nobody refers to may go, and nothing else. -/
theorem Unreferenced.free (hinv : s.Inv c) {d : String} (h : Unreferenced t d s) :
    ∀ a ∈ s.db.artifacts, ∀ b ∈ s.db.blobs, b.id = a.blobId → b.storedSha256 ≠ d := by
  intro a ha b hb hid
  rcases h with hnone | ⟨pending, hwriter, hnone⟩
  · exact hnone b hb
  · obtain ⟨row, -, hfree, rfl⟩ := hinv.writer t pending hwriter
    -- the row an open collection takes away is not that of an artifact
    apply hnone b
    apply List.mem_filter.mpr ⟨hb, ?_⟩
    apply decide_eq_true
    intro hrow
    exact hfree a ha (hid.symm.trans hrow)

/-- **`SysStep.shelved`** — while removals are prompt, no step of a task takes an artifact's file.
-/
theorem SysStep.shelved (h : SysStep c cfg .prompt t s s') (hinv : s.Inv c)
    (hcompleted : s.db.Completed s.used) (hblobs : ∀ a ∈ s.db.artifacts, ∃ b ∈ s.db.blobs, b.id =
      a.blobId)
    (hs : Shelved s.db s.fs) : Shelved s'.db s'.fs := by
  cases h with
  | files hwrite horderly =>
    apply hs.of_blobFile
    intro d
    apply (hwrite.blobFile d).mono
    intro hmay
    exact (hmay trivial).2.free hinv
  | write hwriter hids hw =>
    intro a ha b hb hid
    have hunique := hw.unique hinv.unique
    rcases (hw.effect hinv hcompleted hids).artifact_origin hunique.blobs ha with
      hold | ⟨x, p, hrecorded⟩
    · -- the blob of an old artifact is an old row, since new rows have new identifiers
      obtain ⟨b₀, hb₀, hid₀⟩ := hblobs a hold
      obtain ⟨b', hb', hfixed⟩ := hw.blob_kept hb₀
      obtain ⟨hbid, -, hsha, -⟩ := BlobRow.of_fixed hfixed
      obtain rfl : b = b' := hunique.blobs.eq_of_mem hb hb' (by rw [hid, hbid, hid₀])
      rw [hsha]
      exact hs a hold b₀ hb₀ hid₀
    · rw [hrecorded.blob b hb hid]
      exact hrecorded.record.files trivial p hrecorded.prepared
  | commitCollect hwriter =>
    obtain ⟨row, -, -, rfl⟩ := hinv.writer _ _ hwriter
    apply hs.mono
    · intro a ha
      exact ⟨a, ha, rfl⟩
    · intro b hb
      exact ⟨b, List.mem_of_mem_filter hb, rfl⟩
  | _ => exact hs

/-! ## §3 — The same while it starts. -/

/-- The rows and files a program of a bootstrap leaves are such that every artifact has its file. -/
abbrev Shelving (s : Shared) : Prop := Shelved s.db s.fs

section Bootstrap

variable {κ κ' α β : Type}

theorem keeps_shelving_files {f : FileStore → Except IoError FileStore}
    (h : ∀ fs fs', f fs = .ok fs' → ∀ d, fs'.lookup (blobPath d) = fs.lookup (blobPath d)) :
    (fileOp f).Keeps t Shelving := by
  apply keeps_fileOp
  intro s fs hfs hs
  exact hs.of_blobFile (c := Crates.sample []) fun d => .kept (h s.fs fs hfs d)

theorem keeps_shelving_transaction {w : Write} {onFault : Fault → κ} {acc : List AcceptedChunk}
    {f : Db → Except κ (α × Db)}
    (h : ∀ db a db', f db = .ok (a, db') →
      (∀ a' ∈ db'.artifacts, ∃ a ∈ db.artifacts, a.blobId = a'.blobId) ∧
        ∀ b' ∈ db'.blobs, ∃ b ∈ db.blobs, b'.fixed = b.fixed) :
    KeepsE t Shelving (transaction w onFault ids acc f) := by
  apply Keeps.atomic
  intro e s hs
  split
  · exact hs
  · split
    · exact hs
    · split
      · exact hs
      · next a db hdb =>
        obtain ⟨hartifacts, hblobs⟩ := h s.db a db hdb
        exact Shelved.mono hs hartifacts hblobs

/-- A transaction that leaves artifacts and blobs alone. -/
theorem keeps_shelving_frame {w : Write} {onFault : Fault → κ} {acc : List AcceptedChunk}
    {f : Db → Except κ (α × Db)}
    (h : ∀ db a db', f db = .ok (a, db') → db'.artifacts = db.artifacts ∧ db'.blobs = db.blobs) :
    KeepsE t Shelving (transaction w onFault ids acc f) := by
  apply keeps_shelving_transaction
  intro db a db' hdb
  obtain ⟨hartifacts, hblobs⟩ := h db a db' hdb
  rw [hartifacts, hblobs]
  exact ⟨fun a ha => ⟨a, ha, rfl⟩, fun b hb => ⟨b, hb, rfl⟩⟩

theorem keeps_shelving_freshId : freshId.Keeps t Shelving := keeps_freshId fun _ _ hs => hs

theorem keeps_forEach {P : Shared → Prop} {f : α → Handler MaintenanceError Unit}
    (h : ∀ a, KeepsE t P (f a)) (l : List α) : KeepsE t P (forEach f l) := by
  induction l with
  | nil => exact KeepsE.pure _
  | cons a rest ih => exact KeepsE.bind (h a) fun _ => ih

theorem keeps_mapErr {P : Shared → Prop} {f : κ → κ'} {p : Handler κ α} (h : KeepsE t P p) :
    KeepsE t P (mapErr f p) := Keeps.bind h fun _ => Keeps.done _

/-! ### Upgrades. -/

theorem keeps_upgradeUploadArtifacts (upload : UploadRow) (canonicalJson : String) :
    KeepsE t Shelving (upgradeUploadArtifacts c upload canonicalJson) := by
  refine KeepsE.bind keeps_check fun manifest => KeepsE.guard ?_
  refine KeepsE.bind keeps_check fun chunkSize => KeepsE.bind keeps_check fun layout => ?_
  refine KeepsE.bind keeps_check fun first => keeps_shelving_frame fun db a db' h => ?_
  simp only [asOperation, bind_eq_ok, pure_eq_ok] at h
  obtain ⟨rows, _, db₁, hinsert, _, _, _, _, h⟩ := h
  obtain ⟨-, rfl⟩ := Prod.mk.inj h
  cases hfold : rows.foldlM insertUploadArtifact db with
  | error e => simp [hfold, Except.mapError] at hinsert
  | ok db₂ =>
    rw [hfold] at hinsert
    obtain rfl : db₂ = db₁ := Except.ok.inj hinsert
    rw [(foldlM_insertUploadArtifact_ok hfold).1]
    exact ⟨rfl, rfl⟩

theorem keeps_migrateLegacyFile (uploadId : String) (artifact : Artifact) :
    KeepsE t Shelving (migrateLegacyFile c uploadId artifact) := by
  have hdirs (fs fs' : FileStore) (h : fs.createDirAll
      [.uploadDir uploadId, .artifactChunkDir uploadId 0] = .ok fs') (d : String) :
      fs'.lookup (blobPath d) = fs.lookup (blobPath d) := by
    rcases FileStore.lookup_createDirAll h (blobPath d) with heq | ⟨hmem, -⟩
    · exact heq
    · simp [blobPath] at hmem
  have hlink (fs fs' : FileStore) (h : fs.hardLink (.legacyArtifact uploadId)
      (.artifactChunk uploadId 0 0) = .ok fs') (d : String) :
      fs'.lookup (blobPath d) = fs.lookup (blobPath d) := by
    obtain ⟨node, -, -, -, rfl⟩ := FileStore.hardLink_ok h
    rw [FileStore.lookup_link, if_neg (by simp [blobPath])]
  have hsync (fs fs' : FileStore) (h : fs.syncDirectory (.artifactChunkDir uploadId 0) = .ok fs')
      (d : String) : fs'.lookup (blobPath d) = fs.lookup (blobPath d) :=
    FileStore.lookup_syncDirectory h (blobPath d)
  unfold migrateLegacyFile
  dsimp only
  split
  · exact KeepsE.pure _
  refine KeepsE.bind keeps_fileRead fun found => ?_
  split
  · exact KeepsE.pure _
  refine KeepsE.bind (keeps_attempt keeps_fileRead) fun verified => ?_
  cases verified with
  | error e => exact KeepsE.pure _
  | ok u =>
    refine KeepsE.bind (keeps_lift (keeps_shelving_files hdirs)) fun made => ?_
    refine KeepsE.bind keeps_orFail fun _ => ?_
    refine KeepsE.bind (keeps_lift (keeps_shelving_files hlink)) fun linked => ?_
    cases linked with
    | ok u =>
      refine KeepsE.bind (keeps_lift (keeps_shelving_files hsync)) fun synced => ?_
      exact KeepsE.bind keeps_orFail fun _ => KeepsE.pure _
    | error e =>
      cases e with
      | alreadyExists =>
        refine KeepsE.bind (keeps_attempt keeps_fileRead) fun verified => ?_
        cases verified <;> exact KeepsE.pure _
      | notFound => exact KeepsE.throw _
      | other => exact KeepsE.throw _

/-- Removing something that is no canonical blob file. -/
theorem keeps_shelving_removeFile {path : FilePath} (hpath : ∀ d, blobPath d ≠ path) :
    (fileOp fun fs => fs.removeFile path).Keeps t Shelving := by
  apply keeps_shelving_files
  intro fs fs' h d
  rw [FileStore.removeFile_ok h, FileStore.lookup_removeWhere, if_neg]
  simpa using hpath d

theorem keeps_upgradeLegacyUpload (uploadId canonicalJson now expiresAt : String) :
    KeepsE t Shelving (upgradeLegacyUpload c cfg uploadId canonicalJson now expiresAt) := by
  unfold upgradeLegacyUpload
  refine KeepsE.bind keeps_check fun manifest => ?_
  split
  · refine KeepsE.bind (keeps_migrateLegacyFile uploadId _) fun accepted => ?_
    refine KeepsE.bind (keeps_shelving_transaction fun db a db' h => ?_) fun _ => ?_
    · simp only [bind_eq_ok, pure_eq_ok] at h
      obtain ⟨-, -, -, -, -, -, h⟩ := h
      obtain ⟨-, rfl⟩ := Prod.mk.inj h
      exact ⟨fun a ha => ⟨a, List.mem_of_mem_filter ha, rfl⟩, fun b hb => ⟨b, hb, rfl⟩⟩
    · split
      · refine KeepsE.bind (keeps_lift (keeps_shelving_removeFile fun d => ?_)) fun _ =>
          keeps_orFail
        simp [blobPath]
      · exact KeepsE.pure _
  · exact KeepsE.throw _

theorem keeps_upgradeLegacyUploads : KeepsE t Shelving (upgradeLegacyUploads c cfg) := by
  refine KeepsE.bind keeps_query fun legacy => ?_
  split
  · exact KeepsE.pure _
  refine KeepsE.bind (keeps_lift keeps_nowUtc) fun now => KeepsE.bind keeps_check fun nowText => ?_
  refine KeepsE.bind keeps_check fun expiresAt => keeps_forEach (fun r => ?_) legacy
  exact keeps_upgradeLegacyUpload _ _ _ _

theorem keeps_upgradeSnapshotFingerprints :
    KeepsE t Shelving (upgradeSnapshotFingerprints c) := by
  refine KeepsE.bind keeps_query fun rows => keeps_forEach (fun r => ?_) rows
  refine KeepsE.bind keeps_check fun manifest => keeps_shelving_frame fun db a db' h => ?_
  obtain ⟨-, rfl⟩ := Prod.mk.inj (pure_eq_ok.mp h)
  exact ⟨rfl, rfl⟩

/-- A sort key is given to rows of one table, whose other columns stay. -/
theorem keeps_backfillTableSortKey {ρ : Type} {rows : Db → List ρ} {timestamp : ρ → String}
    {update : ρ → ℤ → Db → Db}
    (hupdate : ∀ row seq db,
      (∀ a' ∈ (update row seq db).artifacts, ∃ a ∈ db.artifacts, a.blobId = a'.blobId) ∧
        (update row seq db).blobs = db.blobs) :
    KeepsE t Shelving (backfillTableSortKey c rows timestamp update) := by
  refine KeepsE.bind keeps_query fun found => ?_
  split
  · exact KeepsE.pure _
  next hsome =>
  refine keeps_shelving_transaction fun db a db' h => ?_
  simp only [bind_eq_ok, pure_eq_ok] at h
  obtain ⟨db₁, hfold, h⟩ := h
  obtain ⟨-, rfl⟩ := Prod.mk.inj h
  clear h hsome
  -- row by row
  induction found generalizing db with
  | nil =>
    obtain rfl : db = db₁ := by simpa using hfold
    exact ⟨fun a ha => ⟨a, ha, rfl⟩, fun b hb => ⟨b, hb, rfl⟩⟩
  | cons row rest ih =>
    simp only [List.foldlM_cons, bind_eq_ok, pure_eq_ok] at hfold
    obtain ⟨_, ⟨seq, -, rfl⟩, hrest⟩ := hfold
    obtain ⟨hartifacts, hblobs⟩ := ih _ hrest
    obtain ⟨hrow, hsame⟩ := hupdate row seq db
    constructor
    · intro a' ha'
      obtain ⟨a, ha, hid⟩ := hartifacts a' ha'
      obtain ⟨a₀, ha₀, hid₀⟩ := hrow a ha
      exact ⟨a₀, ha₀, hid₀.trans hid⟩
    · rwa [hsame] at hblobs

theorem keeps_backfillSortKeys : KeepsE t Shelving (backfillSortKeys c) := by
  refine KeepsE.bind (keeps_backfillTableSortKey fun row seq db => ⟨fun a ha => ⟨a, ha, rfl⟩, rfl⟩)
    fun _ => KeepsE.bind (keeps_backfillTableSortKey fun row seq db =>
      ⟨fun a ha => ⟨a, ha, rfl⟩, rfl⟩)
    fun _ => keeps_backfillTableSortKey fun row seq db => ⟨fun a' ha' => ?_, rfl⟩
  obtain ⟨a, ha, rfl⟩ := mem_updateWhere.mp ha'
  refine ⟨a, ha, ?_⟩
  split <;> rfl

theorem keeps_backfillCompletedCaptureProvenance :
    KeepsE t Shelving (backfillCompletedCaptureProvenance c) := by
  refine KeepsE.bind keeps_query fun uploadIds => keeps_forEach (fun uploadId => ?_) uploadIds
  refine KeepsE.bind keeps_query fun upload => KeepsE.bind keeps_query fun manifestRow => ?_
  refine KeepsE.bind keeps_check fun manifest => KeepsE.bind keeps_check fun snapshotId => ?_
  refine KeepsE.bind keeps_check fun completedAt => KeepsE.bind keeps_query fun manifestId => ?_
  refine KeepsE.bind (keeps_lift keeps_shelving_freshId) fun captureId => ?_
  refine keeps_shelving_frame fun db a db' h => ?_
  simp only [asOperation, bind_eq_ok, pure_eq_ok] at h
  obtain ⟨db₁, hinsert, h⟩ := h
  obtain ⟨-, rfl⟩ := Prod.mk.inj h
  cases hcapture : insertCaptureProvenance c captureId upload manifest manifestId snapshotId
      completedAt db with
  | error e => simp [hcapture, Except.mapError] at hinsert
  | ok db₂ =>
    rw [hcapture] at hinsert
    obtain rfl : db₂ = db₁ := Except.ok.inj hinsert
    rw [insertCaptureProvenance_frame hcapture]
    exact ⟨rfl, rfl⟩

theorem keeps_upgradeArchive : KeepsE t Shelving (upgradeArchive c cfg) := by
  refine KeepsE.bind (KeepsE.bind keeps_query fun rows => keeps_forEach (fun r => ?_) rows) fun _ =>
    KeepsE.bind keeps_upgradeLegacyUploads fun _ =>
    KeepsE.bind keeps_upgradeSnapshotFingerprints fun _ =>
    KeepsE.bind keeps_backfillSortKeys fun _ => keeps_backfillCompletedCaptureProvenance
  exact keeps_upgradeUploadArtifacts _ _

/-! ### Uploads. -/

theorem keeps_recoverChunkRow (uploadId : String) (artifactIndex : ℕ) (row : UploadChunkRow) :
    KeepsE t Shelving (recoverChunkRow c uploadId artifactIndex row) := by
  refine KeepsE.bind keeps_check fun chunkIndex => KeepsE.bind keeps_check fun length => ?_
  refine KeepsE.bind (keeps_attempt keeps_fileRead) fun verified => ?_
  cases verified with
  | ok u => exact KeepsE.pure _
  | error e =>
    refine KeepsE.bind (keeps_shelving_frame fun db a db' h => ?_) fun _ => ?_
    · obtain ⟨-, rfl⟩ := Prod.mk.inj (pure_eq_ok.mp h)
      exact ⟨rfl, rfl⟩
    · refine KeepsE.bind (keeps_lift (keeps_shelving_removeFile fun d => ?_)) fun _ => KeepsE.pure _
      simp [blobPath]

/-- Removing an entry that is no canonical blob file. -/
theorem keeps_removeRecoveryEntry {path : FilePath} (hpath : ∀ d, blobPath d ≠ path) :
    KeepsE t Shelving (removeRecoveryEntry path) := by
  refine KeepsE.bind keeps_fileRead fun metadata => ?_
  have hfile : KeepsE t Shelving
      (do orOperation (← fileOp fun fs => fs.removeFile path) : Handler MaintenanceError Unit) :=
    KeepsE.bind (keeps_lift (keeps_shelving_removeFile hpath)) fun _ => keeps_orFail
  cases metadata with
  | dir =>
    refine KeepsE.bind (keeps_lift (keeps_shelving_files fun fs fs' h d => ?_)) fun _ =>
      keeps_orFail
    obtain rfl := Except.ok.inj h
    rw [FileStore.lookup_removeWhere, if_neg]
    simpa using hpath d
  | file bytes => exact hfile
  | unreadable => exact hfile
  | other => exact hfile

theorem keeps_removeUploadDir (uploadId : String) :
    (removeUploadDir uploadId).Keeps t Shelving := by
  apply keeps_shelving_files
  intro fs fs' h d
  obtain rfl := Except.ok.inj h
  rw [FileStore.removeUploadDir, FileStore.lookup_removeWhere, if_neg (by simp)]

theorem keeps_removeUnknownUploadDirectories (known : List String) :
    KeepsE t Shelving (removeUnknownUploadDirectories known) := by
  refine KeepsE.bind keeps_fileRead fun entries => keeps_forEach (fun uploadId => ?_) entries
  unfold removeUnknown
  split
  · refine KeepsE.bind (keeps_lift (keeps_shelving_files fun fs fs' h d => ?_)) fun _ =>
      keeps_orFail
    split at h
    · obtain rfl := Except.ok.inj h
      rw [FileStore.removeUploadDir, FileStore.lookup_removeWhere, if_neg (by simp)]
    · simp at h
  · exact KeepsE.pure _

/-- The uploads that expired meanwhile. -/
theorem keeps_expireUploadsAt (now : OffsetDateTime) :
    KeepsE t Shelving (expireUploadsAt c now) := by
  refine KeepsE.bind keeps_check fun nowText => KeepsE.bind keeps_query fun candidates => ?_
  generalize 0 = expired
  induction candidates generalizing expired with
  | nil => exact KeepsE.pure _
  | cons uploadId rest ih =>
    have hrest (ended : Bool) : KeepsE t Shelving (do
        release [uploadLock uploadId]
        expireCandidates c now rest (if ended then expired + 1 else expired) :
          Handler ApiError ℕ) :=
      KeepsE.bind (keeps_lift (Keeps.atomic fun _ _ hs => hs)) fun _ => ih _
    refine KeepsE.bind (keeps_lift (Keeps.await fun _ hs => hs)) fun _ => ?_
    refine KeepsE.bind keeps_query fun upload => ?_
    cases upload with
    | none => exact hrest false
    | some upload =>
      dsimp only
      split
      · exact hrest false
      refine KeepsE.bind keeps_check fun overdue => ?_
      split
      · refine KeepsE.bind (KeepsE.bind keeps_nowRfc3339 fun terminalAt => ?_) fun _ => hrest true
        refine KeepsE.bind (keeps_shelving_frame fun db a db' h => ?_) fun terminalized => ?_
        · rw [terminalizeUpload_frame h]
          exact ⟨rfl, rfl⟩
        · split
          · exact KeepsE.bind (keeps_lift (keeps_removeUploadDir _)) fun _ => keeps_orFail
          · exact KeepsE.pure _
      · exact hrest false

/-! ### The pass. -/

/-- The rows and files of an archive while a bootstrap runs. -/
def shelving : Routine Shared := ⟨Shelving, fun _ s' => Shelving s', fun _ h => h⟩

/-- A program of a bootstrap that takes no artifact's file. -/
def Shelves (p : Handler κ α) : Prop :=
  ∀ s, Shelving s → shelving.RunsE system 0 p (fun _ _ => True) (fun _ _ => True) s

namespace Shelves

theorem pure (a : α) : Shelves (Pure.pure a : Handler κ α) := fun _ _ => trivial

theorem throw (e : κ) : Shelves (MonadExcept.throw e : Handler κ α) := fun _ _ => trivial

theorem bind {p : Handler κ α} {f : α → Handler κ β} (hp : Shelves p)
    (hf : ∀ a, Shelves (f a)) : Shelves (p >>= f) :=
  fun s hs => Routine.RunsE.bind (hp s hs) hs fun a s' hs' _ _ => hf a s' hs'

/-- What no action breaks, the program does not break. -/
theorem of_keeps {p : Handler κ α} (h : KeepsE 0 Shelving p) : Shelves p := by
  intro s hs
  suffices hgen : ∀ q : Program (Except κ α), q.Keeps 0 Shelving →
      shelving.Runs system 0 q (Discipline.outcome (fun _ _ => True) fun _ _ => True) s from
    hgen p.run h
  intro q hq
  induction q generalizing s with
  | done r => cases r <;> trivial
  | act label enabled run next ih =>
    intro e _ _
    obtain ⟨hrun, hnext⟩ := hq e s hs
    exact ⟨hrun, ih 0 e s _ hrun hnext⟩

theorem forEach {f : α → Handler MaintenanceError Unit} (l : List α)
    (h : ∀ a ∈ l, Shelves (f a)) : Shelves (forEach f l) := by
  induction l with
  | nil => exact pure _
  | cons a rest ih =>
    refine bind (h a List.mem_cons_self) fun _ => ih fun b hb => ?_
    exact h b (List.mem_cons_of_mem _ hb)

end Shelves

/-- The entries of a directory are the paths in it. -/
theorem runs_recoveryEntries (path : FilePath) (hs : Shelving s) :
    shelving.RunsE system 0 (recoveryEntries path)
      (fun entries s' => s' = s ∧ ∀ entry ∈ entries, entry.parent = some path)
      (fun _ _ => True) s := by
  refine runs_fileRead hs (fun entries h => ⟨rfl, fun entry hentry => ?_⟩) fun _ => trivial
  cases hread : s.fs.readDir path with
  | error e =>
    rw [hread] at h
    cases e with
    | notFound =>
      obtain rfl := pure_eq_ok.mp h
      simp at hentry
    | _ => simp at h
  | ok found =>
    rw [hread] at h
    obtain rfl := pure_eq_ok.mp h
    unfold FileStore.readDir at hread
    split at hread
    · obtain rfl := Except.ok.inj hread
      have hparent := List.of_mem_filter hentry
      simpa using hparent
    · simp at hread
    · simp at hread

theorem shelves_recoverArtifactChunks (uploadId : String) (artifact : UploadArtifactRow) :
    Shelves (recoverArtifactChunks c uploadId artifact) := by
  refine Shelves.bind (.of_keeps keeps_check) fun artifactIndex => ?_
  refine Shelves.bind (.of_keeps keeps_query) fun rows => ?_
  refine Shelves.bind (.of_keeps (keeps_forEach (fun row => keeps_recoverChunkRow _ _ row) rows))
    fun _ => ?_
  refine Shelves.bind (.of_keeps keeps_query) fun validRows => ?_
  refine Shelves.bind (.of_keeps keeps_check) fun accepted => ?_
  intro s hs
  refine Routine.RunsE.bind (runs_recoveryEntries _ hs) hs fun entries s' hs' _ hentries => ?_
  refine Shelves.forEach entries (fun entry hentry => ?_) s' hs'
  -- an entry of a chunk directory is no canonical blob file
  have hpath (d : String) : blobPath d ≠ entry := by
    intro heq
    have hparent := hentries.2 entry hentry
    rw [← heq] at hparent
    simp [blobPath, FilePath.parent] at hparent
  apply Shelves.of_keeps
  unfold keepAcceptedChunk
  split
  · split
    · exact KeepsE.pure _
    · exact keeps_removeRecoveryEntry hpath
  · exact keeps_removeRecoveryEntry hpath

theorem shelves_recoverUpload (upload : String × UploadRowStatus) :
    Shelves (recoverUpload c upload) := by
  unfold recoverUpload
  split
  · exact .of_keeps (KeepsE.bind (keeps_lift (keeps_removeUploadDir _)) fun _ => keeps_orFail)
  refine Shelves.bind (.of_keeps keeps_query) fun artifacts => ?_
  split
  · exact Shelves.throw _
  refine Shelves.bind (Shelves.forEach artifacts fun artifact _ =>
    shelves_recoverArtifactChunks _ artifact) fun _ => ?_
  refine Shelves.bind (.of_keeps (keeps_mapErr ?_)) fun complete => ?_
  · refine KeepsE.bind keeps_query fun artifacts => KeepsE.guard ?_
    induction artifacts with
    | nil => exact KeepsE.pure _
    | cons artifact rest ih =>
      refine KeepsE.bind keeps_query fun chunks => ?_
      split
      · exact ih
      · exact KeepsE.pure _
  refine Shelves.bind (.of_keeps (keeps_shelving_frame fun db a db' h => ?_)) fun _ => ?_
  · obtain ⟨-, rfl⟩ := Prod.mk.inj (Except.ok.inj h)
    exact ⟨rfl, rfl⟩
  refine Shelves.bind (.of_keeps keeps_fileRead) fun entries => ?_
  refine Shelves.forEach entries fun entry _ => .of_keeps ?_
  unfold removeAssembled
  split
  · exact keeps_removeRecoveryEntry fun d => by simp [blobPath]
  · exact keeps_removeRecoveryEntry fun d => by simp [blobPath]
  · exact KeepsE.pure _

/-- Every blob row's digest is in a list. -/
def Listed (known : List String) (s : Shared) : Prop :=
  Shelving s ∧ ∀ b ∈ s.db.blobs, b.storedSha256 ∈ known

theorem listed_removed {known : List String} {d : String} (hunknown : d ∉ known) {fs : FileStore}
    {path : FilePath} (hpath : ∀ e, blobPath e = path → e = d)
    (h : ∀ q, q ≠ path → fs.lookup q = s.fs.lookup q) (hs : Listed known s) :
      Listed known { s with fs := fs } := by
  refine ⟨?_, hs.2⟩
  intro a ha b hb hid
  show fs.lookup (blobPath b.storedSha256) ≠ none
  rw [h]
  · exact hs.1 a ha b hb hid
  · intro heq
    obtain rfl := hpath _ heq
    exact hunknown (hs.2 b hb)

/-- An entry under a name that is no known digest is no artifact's file. -/
theorem keeps_removeUnlisted {known : List String} {shard name : String} (hunknown : name ∉ known) :
    KeepsE t (Listed known) (removeRecoveryEntry (.blobEntry shard name)) := by
  have hpath (e : String) (h : blobPath e = .blobEntry shard name) : e = name :=
    (FilePath.blobEntry.inj h).2
  have hremoved (s : Shared) (hs : Listed known s) : Listed known { s with
      fs := s.fs.removeWhere fun q => decide (q = FilePath.blobEntry shard name) } := by
    apply listed_removed hunknown hpath (fun q hq => ?_) hs
    rw [FileStore.lookup_removeWhere, if_neg (by simpa using hq)]
  have hfile : KeepsE t (Listed known) (do
      orOperation (← fileOp fun fs => fs.removeFile (.blobEntry shard name)) :
        Handler MaintenanceError Unit) := by
    refine KeepsE.bind (keeps_lift (keeps_fileOp fun s fs h hs => ?_)) fun _ => keeps_orFail
    rw [FileStore.removeFile_ok h]
    exact hremoved s hs
  refine KeepsE.bind keeps_fileRead fun metadata => ?_
  cases metadata with
  | dir =>
    refine KeepsE.bind (keeps_lift (keeps_fileOp fun s fs h hs => ?_)) fun _ => keeps_orFail
    obtain rfl := Except.ok.inj h
    exact hremoved s hs
  | file bytes => exact hfile
  | unreadable => exact hfile
  | other => exact hfile

theorem keeps_recoverShard (known : List String) (shard : FilePath) :
    KeepsE t (Listed known) (recoverShard known shard) := by
  refine KeepsE.bind keeps_fileRead fun directory => ?_
  split
  · exact KeepsE.pure _
  refine KeepsE.bind keeps_fileRead fun entries => keeps_forEach (fun entry => ?_) entries
  unfold keepKnownBlob
  split
  · split
    · exact KeepsE.pure _
    · next hunknown => exact keeps_removeUnlisted hunknown
  · exact KeepsE.pure _

theorem shelves_recoverUnreferencedBlobs : Shelves (recoverUnreferencedBlobs c cfg) := by
  refine Shelves.bind (.of_keeps (keeps_lift keeps_nowUtc)) fun now => ?_
  refine Shelves.bind (.of_keeps keeps_check) fun orphanedAt => ?_
  refine Shelves.bind (.of_keeps keeps_check) fun eligibleAfter => ?_
  refine Shelves.bind (.of_keeps (keeps_shelving_transaction fun db a db' h => ?_)) fun _ => ?_
  · obtain ⟨-, rfl⟩ := Prod.mk.inj (pure_eq_ok.mp h)
    refine ⟨fun a ha => ⟨a, ha, rfl⟩, fun b' hb' => ?_⟩
    obtain ⟨b, hb, rfl⟩ := List.mem_map.mp hb'
    refine ⟨b, hb, ?_⟩
    split_ifs <;> rfl
  intro s hs
  -- what is read here stays true: nothing else writes rows
  refine Routine.RunsE.bind (runs_query (Q := fun known s' => Listed known s') hs
    (fun known h => ⟨hs, fun b hb => ?_⟩) fun _ => trivial) hs fun known s' hs' _ hlisted => ?_
  · obtain rfl := pure_eq_ok.mp h
    exact List.mem_map_of_mem hb
  have hkeeps : KeepsE 0 (Listed known) (do
      let shards ← recoveryEntries (.blobRootEntry "sha256")
      forEach (recoverShard known) shards) :=
    KeepsE.bind keeps_fileRead fun shards => keeps_forEach (keeps_recoverShard known) shards
  suffices hgen : ∀ (q : Program (Except MaintenanceError Unit)) (s : Shared),
      q.Keeps 0 (Listed known) → Listed known s →
      shelving.Runs system 0 q (Discipline.outcome (fun _ _ => True) fun _ _ => True) s from
    hgen _ s' hkeeps hlisted
  intro q
  induction q with
  | done r =>
    intro _ _ _
    cases r <;> trivial
  | act label enabled run next ih =>
    intro s hq hlisted e _ _
    obtain ⟨hrun, hnext⟩ := hq e s hlisted
    exact ⟨hrun.1, ih 0 e s _ hnext hrun⟩

/-- **`shelves_bootstrapArchive`** — no bootstrap takes an artifact's file, wherever it is cut
off. -/
theorem shelves_bootstrapArchive : Shelves (bootstrapArchive c cfg) := by
  have hdirs (uploadId : String) : Shelves (removeUploadDirectory uploadId) :=
    .of_keeps (KeepsE.bind (keeps_lift (keeps_removeUploadDir uploadId)) fun _ => keeps_orFail)
  have hrecover : Shelves (recoverUploads c cfg) := by
    refine Shelves.bind (.of_keeps keeps_upgradeArchive) fun _ => ?_
    refine Shelves.bind (.of_keeps (keeps_shelving_frame fun db a db' h => ?_)) fun _ => ?_
    · obtain ⟨-, rfl⟩ := Prod.mk.inj (pure_eq_ok.mp h)
      exact ⟨rfl, rfl⟩
    refine Shelves.bind (.of_keeps keeps_query) fun uploads => ?_
    refine Shelves.bind (.of_keeps keeps_query) fun audits => ?_
    refine Shelves.bind (.of_keeps (keeps_removeUnknownUploadDirectories _)) fun _ => ?_
    refine Shelves.bind (Shelves.forEach uploads fun upload _ => shelves_recoverUpload upload)
      fun _ => ?_
    exact Shelves.bind (Shelves.forEach audits fun uploadId _ => hdirs uploadId)
      fun _ => shelves_recoverUnreferencedBlobs
  refine Shelves.bind hrecover fun _ => Shelves.bind (.of_keeps (keeps_lift keeps_nowUtc))
    fun now => ?_
  exact Shelves.bind (.of_keeps (keeps_mapErr (keeps_expireUploadsAt now))) fun _ => Shelves.pure _

end Bootstrap

/-! ## §4 — The whole life. -/

section Life

variable (c cfg) (sqlite : SqliteChecks)

/-- No dropped request has left the removal of a canonical blob file behind. -/
def Moment.Prompt : Moment → Prop
  | .starting _ _ => True
  | .serving p => ∀ entry ∈ p.late, entry.label ≠ .removeBlobFile

/-- The moments of an archive in which no removal of a canonical blob file outlived its request. -/
def PromptLife (m : Moment) : Prop :=
  Relation.ReflTransGen (fun m m' => LifeStep c cfg sqlite m m' ∧ m'.Prompt)
    (.starting (bootstrapArchive c cfg).run Shared.init) m

/-- Every artifact has its file, and whatever runs will leave it so. -/
def Moment.Shelved : Moment → Prop
  | .starting rest s => Shelving s ∧ shelving.Runs system 0 rest (fun _ _ => True) s
  | .serving p => Shelving p.state ∧ Pool.Good (discipline c cfg .prompt) (fun _ _ => True) p

end Life

theorem PromptLife.life (h : PromptLife c cfg sqlite m) : Life c cfg sqlite m := by
  induction h with
  | refl => exact Relation.ReflTransGen.refl
  | tail _ hnext ih => exact ih.tail hnext.1

/-- An event after which no removal is left behind meets the prompt mode. -/
theorem meets_prompt {p p' : Server} {ev : Event Env Request}
    (hstep : p.step system (handle c cfg sqlite) ev = some p')
    (hprompt : Moment.Prompt (.serving p')) :
    p.Meets (discipline c cfg .prompt) Mode.prompt.Serves ev := by
  cases ev with
  | spawn request => exact ⟨fun _ => trivial, fun _ => trivial⟩
  | act t e => exact fun _ _ _ _ _ _ _ _ _ => trivial
  | finish t => exact trivial
  | drop t => exact fun _ => trivial
  | detach t =>
    intro request label enabled run next htask
    refine ⟨⟨False.elim, fun _ => ?_⟩, trivial⟩
    -- the action left behind is the newest of those in the next pool
    simp only [Pool.step, htask] at hstep
    split at hstep
    · obtain rfl := Option.some.inj hstep
      exact hprompt ⟨t, label, run⟩ List.mem_cons_self
    · simp at hstep
  | late i e => exact fun _ _ _ _ => trivial

theorem Moment.Shelved.start (hs : Shelving s) :
    Moment.Shelved c cfg (.starting (bootstrapArchive c cfg).run s) :=
  ⟨hs, Routine.Runs.mono (shelves_bootstrapArchive s hs) hs fun _ _ _ _ => trivial⟩

theorem Moment.Shelved.shelving (h : m.Shelved c cfg) : Shelving m.state := by
  cases m with
  | starting rest s => exact h.1
  | serving p => exact h.1

/-- Whatever happens to an archive, its artifacts keep their files. -/
theorem LifeStep.shelved (hJson : c.JsonReads) (hlife : Life c cfg sqlite m)
    (h : LifeStep c cfg sqlite m m') (hprompt : m'.Prompt) (hm : m.Shelved c cfg) :
    m'.Shelved c cfg := by
  cases h with
  | boot h => exact hm.2.step h
  | serve s =>
    have hs : Archive c s := (Life.good hlife).archive
    have hcleanup : SysStep c cfg .any 0 s (s.cleanup 0) := .cleanup
    exact ⟨hm.1, Pool.Good.init _ _ (hs.inv.step hcleanup)⟩
  | @event p p' h =>
    obtain ⟨ev, -, henv, hstep⟩ := h
    have hs : Archive c p.state := (Life.good hlife).archive
    obtain ⟨hgood, hmoved⟩ :=
      hm.2.step (safe_request sqlite) (meets_prompt hstep hprompt) henv hstep
    refine ⟨?_, hgood⟩
    rcases hmoved with heq | ⟨t, hguar⟩
    · rw [heq]
      exact hm.1
    · have hguar : SysStep c cfg .prompt t p.state p'.state := hguar
      exact hguar.shelved hs.inv hs.completed (Life.identities hJson hlife).blobs hm.1
  | restart =>
    have hs := hm.shelving
    exact Moment.Shelved.start hs

theorem PromptLife.shelved (hJson : c.JsonReads) (h : PromptLife c cfg sqlite m) :
    m.Shelved c cfg := by
  induction h with
  | refl => exact Moment.Shelved.start Shelved.empty
  | tail hlife hnext ih =>
    exact hnext.1.shelved hJson (PromptLife.life hlife) hnext.2 ih

/-- While no removal of a blob file outlives its request, an artifact has its blob row and its
file. -/
theorem PromptLife.file (hJson : c.JsonReads) (h : PromptLife c cfg sqlite m) {a : ArtifactRow}
    (ha : a ∈ m.state.db.artifacts) : ∃ b ∈ m.state.db.blobs, b.id = a.blobId ∧
      ∃ bytes, m.state.fs.lookup (blobPath b.storedSha256) = some (.file bytes) ∧
        c.sha256Hex bytes = b.storedSha256 := by
  obtain ⟨b, hb, hid⟩ := (Life.identities hJson h.life).blobs a ha
  have hfile := (h.shelved hJson).shelving a ha b hb hid
  obtain ⟨node, hnode⟩ := Option.ne_none_iff_exists'.mp hfile
  obtain ⟨bytes, rfl, hdigest⟩ := Life.named h.life b.storedSha256 node hnode
  exact ⟨b, hb, hid, bytes, hnode, hdigest⟩

/-- Nothing is left behind where no request is dropped at an outstanding action. -/
theorem late_of_step {p p' : Server} {ev : Event Env Request} (hlate : p.late = [])
    (hkept : ∀ t, ev ≠ .detach t) (hstep : p.step system (handle c cfg sqlite) ev = some p') :
    p'.late = [] := by
  cases ev with
  | spawn request =>
    obtain rfl := Option.some.inj hstep
    exact hlate
  | detach t => exact absurd rfl (hkept t)
  | late i e =>
    simp only [Pool.step, hlate, List.getElem?_nil] at hstep
    exact absurd hstep (by simp)
  | act t e =>
    simp only [Pool.step] at hstep
    split at hstep
    · split_ifs at hstep
      obtain rfl := Option.some.inj hstep
      exact hlate
    · simp at hstep
  | finish t =>
    simp only [Pool.step] at hstep
    split at hstep
    · obtain rfl := Option.some.inj hstep
      exact hlate
    · simp at hstep
  | drop t =>
    simp only [Pool.step] at hstep
    split at hstep
    · obtain rfl := Option.some.inj hstep
      exact hlate
    · simp at hstep

/-- A run that drops no request at an outstanding action goes on a prompt life. -/
theorem PromptLife.run {p p' : Server} (h : PromptLife c cfg sqlite (.serving p))
    (hlate : p.late = [])
    (hrun : ServerRun c cfg sqlite (fun _ ev => ∀ t, ev ≠ .detach t) p p') :
    PromptLife c cfg sqlite (.serving p') ∧ p'.late = [] := by
  induction hrun with
  | refl => exact ⟨h, hlate⟩
  | tail _ hnext ih =>
    obtain ⟨hlife, hlate⟩ := ih
    obtain ⟨ev, hkept, henv, hstep⟩ := hnext
    have hlate' := late_of_step hlate hkept hstep
    refine ⟨hlife.tail ⟨.event ⟨ev, trivial, henv, hstep⟩, ?_⟩, hlate'⟩
    intro entry hentry
    rw [hlate'] at hentry
    exact absurd hentry List.not_mem_nil

/-- A bootstrap under sample identifiers starts a prompt life. -/
theorem promptLife_of_bootstrap {s : Shared} (hboot : (bootstrapArchive c cfg).run.replay 0 freshEnv
      ((List.range 17).map (sampleEnv 0)) Shared.init = some (.done (.ok ()), s)) :
    PromptLife c cfg sqlite (.serving (Pool.init (s.cleanup 0))) := by
  have hsteps := Prog.steps_of_replay
    (fun e he s hfresh => (sampled_bootstrap e he).envOk hfresh) hboot
  have hstarting : PromptLife c cfg sqlite (.starting (.done (.ok ())) s) :=
    Relation.ReflTransGen.lift
      (fun a : Program (Except MaintenanceError Unit) × Shared => Moment.starting a.1 a.2)
      (fun _ _ hstep => ⟨.boot hstep, trivial⟩) _ _ hsteps
  exact hstarting.tail ⟨.serve s, fun _ hentry => absurd hentry List.not_mem_nil⟩

end Patwari
