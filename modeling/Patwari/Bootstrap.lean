/-
# Patwari.Bootstrap — the life of an archive.

A server first recovers its archive, then serves requests, and its process may end at any moment:
while it recovers, between two actions of the requests in flight, or on purpose. §1 is what the
database of this version always satisfies and recovery relies on, §2 that every effect keeps it. §3
are the steps of a bootstrap, and that recovery takes only those; its upgrade steps find nothing to
do. §4 is `Life`, everything that may happen to an archive from its empty volume on, and the rule
for invariants that hold all that time.
-/
import Patwari.Candidates
import Patwari.Lib.Alone

namespace Patwari

open Lib (Prog TaskId Event Pool Discipline Routine System UniqueOn updateWhere mem_updateWhere)

variable {c : Crates} {cfg : Config} {mode : Mode} {t : TaskId} {s s' : Shared} {ids : List String}
  {db : Db}

/-! ## §1 — Rows of this version. -/

/-- What holds of the rows this version writes, and not of those of earlier ones. -/
structure Db.Current (c : Crates) (db : Db) : Prop where
  detailed : ∀ u ∈ db.uploads, ∃ a ∈ db.uploadArtifacts, a.uploadId = u.id
  captured : ∀ u ∈ db.uploads, u.status = .completed → ∃ r ∈ db.captures, r.uploadId = u.id
  fingerprints : ∀ r ∈ db.snapshots, r.fingerprintVersion ≠ 0
  snapshotKeys : ∀ r ∈ db.snapshots, sortKeyFromRfc3339 c r.completedAt = some r.completedAtSeq
  captureKeys : ∀ r ∈ db.captures,
    sortKeyFromRfc3339 c r.serverCompletedAt = some r.serverCompletedAtSeq
  artifactKeys : ∀ r ∈ db.artifacts, sortKeyFromRfc3339 c r.createdAt = some r.createdAtSeq

theorem Db.Current.empty : Db.empty.Current c := by
  constructor <;> simp [Db.empty]

/-- A new upload has at least one artifact row. -/
theorem exists_uploadArtifactRow {new : NewUpload} {row : UploadRow} {sessionId : String}
    {rows : List UploadArtifactRow} (hrow : newUploadRow c cfg new sessionId = .ok row)
    (hrows : uploadArtifactRows new.uploadId (new.manifest.artifacts.zip new.layout.chunkCounts) 0 =
      .ok rows) : ∃ a ∈ rows, a.uploadId = row.id := by
  obtain ⟨hlength, howner⟩ := uploadArtifactRows_ok hrows
  have hid := (newUploadRow_ok hrow).1
  unfold newUploadRow at hrow
  simp only [bind_eq_ok, okOr_eq_ok] at hrow
  obtain ⟨first, hfirst, count, hcount, -⟩ := hrow
  cases rows with
  | cons a rest => exact ⟨a, List.mem_cons_self, (howner a List.mem_cons_self).trans hid.symm⟩
  | nil =>
    obtain ⟨artifacts, hartifacts⟩ := List.head?_eq_some_iff.mp hfirst
    obtain ⟨counts, hcounts⟩ := List.head?_eq_some_iff.mp hcount
    rw [hartifacts, hcounts] at hlength
    simp at hlength

/-- The artifact rows of a new snapshot carry its time. -/
theorem artifactRows_time {snapshotId now : String} {nowSeq : ℤ} {blobIds : List (String × String)}
    {entries : List (PreparedArtifact × String)} {rows : List ArtifactRow}
    (h : entries.mapM (fun e => artifactRow snapshotId now nowSeq blobIds e.1 e.2) = .ok rows) :
    ∀ r ∈ rows, r.createdAt = now ∧ r.createdAtSeq = nowSeq := by
  intro r hr
  obtain ⟨e, -, hrow⟩ := (exists_of_forall₂ (forall₂_of_mapM_ok h)).2 r hr
  obtain ⟨blobId, -, rfl⟩ := artifactRow_ok hrow
  exact ⟨rfl, rfl⟩

/-! ## §2 — Every effect writes such rows. -/

/-- Attaching a capture. -/
theorem Db.Current.attach {x : Completing} {snapshotId manifestId : String}
    {newlyPersistedBytes seq : ℤ} (h : db.Current c)
    (hseq : sortKeyFromRfc3339 c x.now = some seq) {db' : Db}
    (huploads : db'.uploads = completedUploads x snapshotId newlyPersistedBytes db.uploads)
    (hdetail : db'.uploadArtifacts = db.uploadArtifacts)
    (hcaptures : db'.captures = db.captures ++
      [captureRow x.captureId x.upload x.manifest manifestId snapshotId x.now seq])
    (hsnapshots : ∀ r ∈ db'.snapshots, r.fingerprintVersion ≠ 0 ∧
      sortKeyFromRfc3339 c r.completedAt = some r.completedAtSeq)
    (hartifacts : ∀ r ∈ db'.artifacts, sortKeyFromRfc3339 c r.createdAt = some r.createdAtSeq) :
    db'.Current c where
  detailed := by
    intro u hu
    rw [huploads] at hu
    rw [hdetail]
    rcases of_mem_completedUploads hu with ⟨hold, -⟩ | ⟨v, hv, hid, -, rfl⟩
    · exact h.detailed u hold
    · exact h.detailed v hv
  captured := by
    intro u hu hdone
    rw [huploads] at hu
    rw [hcaptures]
    rcases of_mem_completedUploads hu with ⟨hold, -⟩ | ⟨v, -, hid, -, rfl⟩
    · obtain ⟨r, hr, hrid⟩ := h.captured u hold hdone
      exact ⟨r, List.mem_append_left _ hr, hrid⟩
    · exact ⟨_, List.mem_append_right _ List.mem_cons_self, hid.symm⟩
  fingerprints := fun r hr => (hsnapshots r hr).1
  snapshotKeys := fun r hr => (hsnapshots r hr).2
  captureKeys := by
    intro r hr
    rw [hcaptures] at hr
    rcases List.mem_append.mp hr with hr | hr
    · exact h.captureKeys r hr
    · obtain rfl := List.mem_singleton.mp hr
      exact hseq
  artifactKeys := hartifacts

/-- An update of the state columns of active uploads. -/
theorem Db.Current.update (h : db.Current c) {p : UploadRow → Bool} {f : UploadRow → UploadRow}
    (hid : ∀ r, (f r).id = r.id)
    (hstatus : ∀ r ∈ db.uploads, p r = true → (f r).status ≠ .completed) :
    Db.Current c { db with uploads := updateWhere p f db.uploads } := by
  refine { h with detailed := fun u hu => ?_, captured := fun u hu hdone => ?_ }
  · obtain ⟨v, hv, rfl⟩ := mem_updateWhere.mp hu
    obtain ⟨a, ha, haid⟩ := h.detailed v hv
    refine ⟨a, ha, haid.trans ?_⟩
    split
    · exact (hid v).symm
    · rfl
  · obtain ⟨v, hv, rfl⟩ := mem_updateWhere.mp hu
    split at hdone
    · next hsel => exact absurd hdone (hstatus v hv hsel)
    · next hsel =>
      rw [if_neg hsel]
      exact h.captured v hv hdone

/-- Every effect leaves rows of this version. -/
theorem Effect.current (h : Effect c cfg mode t s ids db) (hs : s.db.Current c) :
    db.Current c := by
  cases h with
  | created new row hnew hsession hreuse hfree hfresh hrow hrows =>
    refine { hs with detailed := fun u hu => ?_, captured := fun u hu hdone => ?_ }
    · rcases List.mem_append.mp hu with hu | hu
      · obtain ⟨a, ha, haid⟩ := hs.detailed u hu
        exact ⟨a, List.mem_append_left _ ha, haid⟩
      · obtain rfl := List.mem_singleton.mp hu
        obtain ⟨a, ha, haid⟩ := exists_uploadArtifactRow hrow hrows
        exact ⟨a, List.mem_append_right _ ha, haid⟩
    · rcases List.mem_append.mp hu with hu | hu
      · exact hs.captured u hu hdone
      · obtain rfl := List.mem_singleton.mp hu
        exact absurd hdone (newUploadRow_ok hrow).2.2.2.2.2.2.1
  | ended upload current reason terminalAt hmem hfixed hactive hfree =>
    refine { hs with detailed := fun u hu => ?_, captured := fun u hu hdone => ?_ }
    · obtain ⟨hu, hne⟩ := List.mem_filter.mp hu
      obtain ⟨a, ha, haid⟩ := hs.detailed u hu
      refine ⟨a, List.mem_filter.mpr ⟨ha, ?_⟩, haid⟩
      simpa [haid] using hne
    · exact hs.captured u (List.mem_of_mem_filter hu) hdone
  | status uploadId complete =>
    refine hs.update (fun r => rfl) fun r _ _ => ?_
    show (if complete then UploadRowStatus.artifactUploaded else .created) ≠ _
    split <;> simp
  | attached x snapshot manifestRow hx hattach hsnapshot hlive hsession hfingerprint hseq
      hcontextSeq hcontexts =>
    exact hs.attach hseq rfl rfl rfl (fun r hr => ⟨hs.fingerprints r hr, hs.snapshotKeys r hr⟩)
      hs.artifactKeys
  | recorded x row manifestRow blobIds hx hattach hblobs hrow hfresh hfree hrows hcontexts =>
    refine hs.attach (x := x.toCompleting) hx.seq rfl rfl rfl (fun r hr => ?_) fun r hr => ?_
    · rcases List.mem_append.mp hr with hr | hr
      · exact ⟨hs.fingerprints r hr, hs.snapshotKeys r hr⟩
      · obtain rfl := List.mem_singleton.mp hr
        obtain ⟨original, stored, -, -, rfl⟩ := snapshotRow_ok hrow
        exact ⟨by simp [snapshotFingerprintVersion], hx.seq⟩
    · rcases List.mem_append.mp hr with hr | hr
      · exact hs.artifactKeys r hr
      · obtain ⟨htime, hseq⟩ := artifactRows_time hrows r hr
        rw [htime, hseq]
        exact hx.seq
  | deleted x snapshot manifest hx hrow hlive hfresh =>
    rw [foldl_scheduleOrClearBlobCandidate]
    refine { hs with
      fingerprints := fun r hr => ?_
      snapshotKeys := fun r hr => ?_
      artifactKeys := fun r hr => hs.artifactKeys r (List.mem_of_mem_filter hr) }
    · obtain ⟨v, hv, rfl⟩ := mem_updateWhere.mp hr
      have hkeep := hs.fingerprints v hv
      split <;> exact hkeep
    · obtain ⟨v, hv, rfl⟩ := mem_updateWhere.mp hr
      have hkeep := hs.snapshotKeys v hv
      split <;> exact hkeep
  | _ => exact { hs with }

theorem DbInvariant.current : DbInvariant c cfg fun db _ => db.Current c where
  effect := fun _ _ _ h hs => h.current hs
  collect := fun _ _ h hs => by
    obtain ⟨row, -, -, rfl⟩ := h
    exact { hs with }

/-! ## §3 — The steps of a bootstrap. -/

/-- What holds of an archive at any time. -/
structure Archive (c : Crates) (s : Shared) : Prop where
  inv : s.Inv c
  completed : s.db.Completed s.used
  current : s.db.Current c
  candidates : s.db.Candidates
  files : ∀ uploadId, s.fs.lookup (.legacyArtifact uploadId) = none

theorem Archive.init (c : Crates) : Archive c Shared.init :=
  ⟨Shared.Inv.init c, Db.Completed.empty, Db.Current.empty, Db.Candidates.empty, fun _ => rfl⟩

/-- Files of early versions are neither made nor found. -/
theorem SysStep.no_legacy (h : SysStep c cfg mode t s s')
    (hs : ∀ uploadId, s.fs.lookup (.legacyArtifact uploadId) = none) :
    ∀ uploadId, s'.fs.lookup (.legacyArtifact uploadId) = none := by
  intro uploadId
  cases h with
  | files hwrite horderly =>
    cases hwrite with
    | upload hfs =>
      rcases hfs (.legacyArtifact uploadId) with heq | ⟨-, hnone | hcreate⟩
      · rw [heq]
        exact hs uploadId
      · exact hnone
      · exact hcreate.elim
    | blobDirs hfs =>
      rcases hfs (.legacyArtifact uploadId) with heq | ⟨-, -, hdir⟩
      · rw [heq]
        exact hs uploadId
      · rcases hdir with hdir | ⟨d, hdir⟩ <;> simp at hdir
    | link d bytes hlock hnone hdigest hfs =>
      rw [hfs, if_neg (by simp [blobPath])]
      exact hs uploadId
    | unlink d hlock hfs =>
      rw [hfs, if_neg (by simp [blobPath])]
      exact hs uploadId
  | _ => exact hs uploadId

/-- A step of a task keeps the archive. -/
theorem Archive.service (hs : Archive c s) (h : SysStep c cfg .any t s s') :
    Archive c s' := by
  have hfiles := h.no_legacy hs.files
  have hkept : s'.db.Completed s'.used ∧ s'.db.Current c ∧ s'.db.Candidates := by
    cases h.dbStep hs.inv hs.completed with
    | stays hdb hused =>
      rw [hdb, hused]
      exact ⟨hs.completed, hs.current, hs.candidates⟩
    | writes hids heffect hused =>
      rw [hused]
      exact ⟨heffect.completed hs.inv hs.completed, heffect.current hs.current,
        heffect.candidates hs.inv hs.candidates⟩
    | collects hcollects hused =>
      rw [hused]
      have hcompleted : DbInvariant c cfg Db.Completed := DbInvariant.completed
      have hcurrent : DbInvariant c cfg fun db _ => db.Current c := DbInvariant.current
      have hcandidates : DbInvariant c cfg fun db _ => db.Candidates := DbInvariant.candidates
      exact ⟨hcompleted.collect hs.inv hs.completed hcollects hs.completed,
        hcurrent.collect hs.inv hs.completed hcollects hs.current,
        hcandidates.collect hs.inv hs.completed hcollects hs.candidates⟩
  exact ⟨hs.inv.step h, hkept.1, hkept.2.1, hkept.2.2, hfiles⟩

/-- **`BootStep`** — one step of a bootstrap. -/
inductive BootStep (c : Crates) (cfg : Config) (s : Shared) : Shared → Prop
  /-- What a request might do as well. -/
  | service {s' : Shared} (h : SysStep c cfg .any 0 s s') : BootStep c cfg s s'
  /-- Chunk rows whose files are gone. -/
  | chunks (hwriter : s.writer = none) (keep : UploadChunkRow → Bool) :
      BootStep c cfg s
        { s with db := { s.db with uploadChunks := s.db.uploadChunks.filter keep } }
  /-- An upload whose expiry reads like that of an early version. -/
  | legacy (hwriter : s.writer = none) (uploadId : String) (artifact : Artifact) (chunkSize : ℕ)
      (now expiresAt : String)
      (hactive : ∀ u ∈ s.db.uploads, u.id = uploadId → u.status ≠ .completed) :
      BootStep c cfg s
        { s with db := upgradeLegacyRows uploadId artifact chunkSize false now expiresAt s.db }
  | contexts (hwriter : s.writer = none) :
      BootStep c cfg s { s with db := rebuildAllLatestContexts s.db }
  /-- Files removed, and directories made, but none where a blob file belongs. -/
  | files {fs : FileStore} (h : ∀ uploadId, fs.lookup (.legacyArtifact uploadId) = none)
      (hblobs : ∀ d, fs.lookup (blobPath d) = s.fs.lookup (blobPath d) ∨
        fs.lookup (blobPath d) = none) :
      BootStep c cfg s { s with fs := fs }

theorem Shared.Inv.chunks_filter (hs : s.Inv c) (hwriter : s.writer = none)
    (keep : UploadChunkRow → Bool) :
    Shared.Inv c { s with db := { s.db with uploadChunks := s.db.uploadChunks.filter keep } } :=
  { hs with
    issued := { hs.issued with }
    unique := { hs.unique with uploadChunks := hs.unique.uploadChunks.filter keep }
    chunks := fun r hr => hs.chunks r (List.mem_of_mem_filter hr)
    writer := fun t pending hpending => by simp [hwriter] at hpending }

/-- Upgrading an upload keeps the keys of every table. -/
theorem Shared.Inv.legacy (hs : s.Inv c) (hwriter : s.writer = none) (uploadId : String)
    (artifact : Artifact) (chunkSize : ℕ) (now expiresAt : String) :
    Shared.Inv c
      { s with db := upgradeLegacyRows uploadId artifact chunkSize false now expiresAt s.db } := by
  have hchunks : (upgradeLegacyRows uploadId artifact chunkSize false now expiresAt
      s.db).uploadChunks = s.db.uploadChunks := by simp [upgradeLegacyRows]
  refine
    { hs with
      issued := { hs.issued with uploads := fun r hr => ?_ }
      unique :=
        { hs.unique with
          uploads := hs.unique.uploads.updateWhere fun r _ => rfl
          captureIds := hs.unique.captureIds.updateWhere fun r _ => rfl
          uploadArtifacts := hs.unique.uploadArtifacts.updateWhere fun r _ => rfl
          uploadChunks := ?_
          artifacts := hs.unique.artifacts.filter _
          artifactIndexes := hs.unique.artifactIndexes.filter _ }
      chunks := ?_
      writer := fun t pending hpending => by simp [hwriter] at hpending }
  · obtain ⟨v, hv, rfl⟩ := mem_updateWhere.mp hr
    have hid := hs.issued.uploads v hv
    split <;> exact hid
  · rw [hchunks]
    exact hs.unique.uploadChunks
  · show ∀ r ∈ (upgradeLegacyRows uploadId artifact chunkSize false now expiresAt
      s.db).uploadChunks, _
    rw [hchunks]
    exact hs.chunks

/-- No session has two rebuilt contexts. -/
theorem rebuildAllLatestContexts_unique (hu : UniqueOn SessionRow.id db.sessions) :
    UniqueOn SessionLatestContextRow.sessionId
      (rebuildAllLatestContexts db).sessionLatestContext := by
  have hkeys (sessions : List SessionRow) :
      (sessions.flatMap fun s => (db.latestContext s.id).toList).map
        SessionLatestContextRow.sessionId =
      (sessions.map SessionRow.id).filter fun id => (db.latestContext id).isSome := by
    induction sessions with
    | nil => rfl
    | cons session rest ih =>
      rw [List.flatMap_cons, List.map_append, ih, List.map_cons, List.filter_cons]
      cases hrow : db.latestContext session.id with
      | none => rfl
      | some row =>
        obtain ⟨-, -, -, -, capture, -, -, -, -, rfl⟩ := latestContext_sessionId hrow
        rfl
  show List.Nodup ((db.sessions.flatMap _).map _)
  rw [hkeys]
  exact List.Nodup.filter _ hu

theorem Shared.Inv.contexts (hs : s.Inv c) (hwriter : s.writer = none) :
    Shared.Inv c { s with db := rebuildAllLatestContexts s.db } :=
  { hs with
    issued := { hs.issued with }
    unique := { hs.unique with contexts := rebuildAllLatestContexts_unique hs.unique.sessions }
    writer := fun t pending hpending => by simp [hwriter] at hpending }

/-- Artifact rows of deleted snapshots are no references. -/
theorem hasLiveReference_upgradeLegacyRows (hu : UniqueOn SnapshotRow.id db.snapshots)
    (uploadId : String) (artifact : Artifact) (chunkSize : ℕ) (now expiresAt blobId : String) :
    (upgradeLegacyRows uploadId artifact chunkSize false now expiresAt db).hasLiveReference blobId =
      db.hasLiveReference blobId := by
  rw [Bool.eq_iff_iff, Db.hasLiveReference_iff, Db.hasLiveReference_iff]
  constructor
  · rintro ⟨a, ha, hrest⟩
    exact ⟨a, List.mem_of_mem_filter ha, hrest⟩
  · rintro ⟨a, ha, hblob, r, hr, hid, hlive⟩
    refine ⟨a, List.mem_filter.mpr ⟨ha, ?_⟩, hblob, r, hr, hid, hlive⟩
    rw [Bool.not_eq_true', List.any_eq_false]
    intro r' hr' hdead
    rw [Bool.and_eq_true, decide_eq_true_eq] at hdead
    obtain ⟨hid', hdead⟩ := hdead
    obtain rfl : r' = r := hu.eq_of_mem hr' hr (hid'.trans hid.symm)
    rw [hlive] at hdead
    exact Bool.false_ne_true hdead

/-- **`BootStep.archive`** — a bootstrap keeps the archive, wherever it is cut off. -/
theorem BootStep.archive (h : BootStep c cfg s s') (hs : Archive c s) : Archive c s' := by
  cases h with
  | service h => exact hs.service h
  | chunks hwriter keep =>
    exact ⟨hs.inv.chunks_filter hwriter keep, ⟨hs.completed.captures, hs.completed.snapshots⟩,
      { hs.current with }, ⟨hs.candidates.marks, hs.candidates.artifacts⟩, hs.files⟩
  | legacy hwriter uploadId artifact chunkSize now expiresAt hactive =>
    refine ⟨hs.inv.legacy hwriter uploadId artifact chunkSize now expiresAt, ?_, ?_, ?_, hs.files⟩
    · refine ⟨fun r hr => ?_, fun u hu id hid => ?_⟩
      · obtain ⟨u, hu, huid, hdone, hsnapshot⟩ := hs.completed.captures r hr
        refine ⟨u, Lib.mem_updateWhere_of_not hu ?_, huid, hdone, hsnapshot⟩
        exact decide_eq_false fun heq => hactive u hu heq hdone
      · obtain ⟨v, hv, rfl⟩ := mem_updateWhere.mp hu
        refine hs.completed.snapshots v hv id ?_
        split at hid <;> exact hid
    · have hupdate := hs.current.update (p := fun r => decide (r.id = uploadId))
        (f := fun r => { r with
          chunkSizeBytes := chunkSize
          chunkCount := if artifact.storedSizeBytes.toNat = 0 then 0 else 1
          declaredStoredSizeBytes := artifact.storedSizeBytes.toNat
          declaredOriginalSizeBytes := artifact.originalSizeBytes.toNat
          expiresAt := expiresAt
          status := if artifact.storedSizeBytes.toNat = 0 ∨ false = true then .artifactUploaded
            else .created
          artifactCount := 1
          totalStoredSizeBytes := artifact.storedSizeBytes.toNat
          totalOriginalSizeBytes := artifact.originalSizeBytes.toNat }) (fun r => rfl)
        fun r _ _ => by
          show (if _ then UploadRowStatus.artifactUploaded else .created) ≠ _
          split <;> simp
      refine { hupdate with
        detailed := fun u hu => ?_
        artifactKeys := fun r hr => hs.current.artifactKeys r (List.mem_of_mem_filter hr) }
      obtain ⟨a, ha, haid⟩ := hupdate.detailed u hu
      refine ⟨_, mem_updateWhere.mpr ⟨a, ha, rfl⟩, ?_⟩
      split <;> exact haid
    · refine ⟨fun r hr => ?_, fun a ha => hs.candidates.artifacts a (List.mem_of_mem_filter ha)⟩
      rw [hasLiveReference_upgradeLegacyRows hs.inv.unique.snapshots]
      exact hs.candidates.marks r hr
  | contexts hwriter =>
    exact ⟨hs.inv.contexts hwriter, ⟨hs.completed.captures, hs.completed.snapshots⟩,
      { hs.current with }, ⟨hs.candidates.marks, hs.candidates.artifacts⟩, hs.files⟩
  | files hfiles hblobs =>
    exact ⟨{ hs.inv with }, hs.completed, hs.current, hs.candidates, hfiles⟩

/-- The steps a bootstrap may take. -/
def boot (c : Crates) (cfg : Config) : Routine Shared where
  inv := Archive c
  guar := BootStep c cfg
  inv_step := fun hs h => h.archive hs

/-! ## §4 — Recovery takes only such steps. -/

section Rules

variable {κ κ' α β : Type} {R : Routine Shared} {sys : System Label Env Shared}
  {Q : α → Shared → Prop} {E : κ → Shared → Prop}

/-- A read of the database by a task that runs alone. -/
theorem runs_query {onFault : κ} {f : Db → Except κ α} (hrefl : R.guar s s)
    (hok : ∀ a, f s.db = .ok a → Q a s) (herr : ∀ e, E e s) :
    R.RunsE sys t (query onFault f) Q E s := by
  refine Routine.Runs.atomic fun e _ => ?_
  cases e.fault with
  | some fault => exact ⟨hrefl, herr onFault⟩
  | none =>
    refine ⟨hrefl, ?_⟩
    show Discipline.outcome Q E (f s.db) s
    cases hf : f s.db with
    | ok a => exact hok a hf
    | error e => exact herr e

theorem runs_transaction {w : Write} {onFault : Fault → κ} {f : Db → Except κ (α × Db)}
    (hrefl : R.guar s s)
    (hok : ∀ a db, s.writer = none → f s.db = .ok (a, db) →
      R.guar s { s with db := db } ∧ Q a { s with db := db })
    (herr : ∀ e, E e s) : R.RunsE sys t (transaction w onFault [] [] f) Q E s := by
  refine Routine.Runs.atomic fun e _ => ?_
  cases e.fault with
  | some fault => exact ⟨hrefl, herr _⟩
  | none =>
    by_cases hwriter : s.writer.isSome
    · simp only [hwriter, if_true]
      exact ⟨hrefl, herr _⟩
    · simp only [hwriter, Bool.false_eq_true, if_false]
      cases hf : f s.db with
      | error err => exact ⟨hrefl, herr err⟩
      | ok r =>
        obtain ⟨a, db⟩ := r
        exact hok a db (by simpa using hwriter) hf

theorem runs_fileRead {onFault : κ} {f : FileStore → Except κ α} (hrefl : R.guar s s)
    (hok : ∀ a, f s.fs = .ok a → Q a s) (herr : ∀ e, E e s) :
    R.RunsE sys t (fileRead onFault f) Q E s := by
  refine Routine.Runs.atomic fun e _ => ?_
  cases e.fault with
  | some fault => exact ⟨hrefl, herr onFault⟩
  | none =>
    refine ⟨hrefl, ?_⟩
    show Discipline.outcome Q E (f s.fs) s
    cases hf : f s.fs with
    | ok a => exact hok a hf
    | error e => exact herr e

theorem runs_fileOp {f : FileStore → Except IoError FileStore}
    {Q : Except IoError Unit → Shared → Prop} (hrefl : R.guar s s)
    (hok : ∀ fs, f s.fs = .ok fs → R.guar s { s with fs := fs } ∧ Q (.ok ()) { s with fs := fs })
    (herr : ∀ e, Q (.error e) s) : R.Runs sys t (fileOp f) Q s := by
  refine Routine.Runs.atomic fun e _ => ?_
  cases e.fault with
  | some fault => exact ⟨hrefl, herr _⟩
  | none =>
    cases hf : f s.fs with
    | error err => exact ⟨hrefl, herr err⟩
    | ok fs => exact hok fs hf

theorem runs_nowUtc (hrefl : R.guar s s) :
    R.Runs sys t nowUtc (fun now s' => (∃ n, now = .utc n) ∧ s' = s) s :=
  Routine.Runs.atomic fun e _ => ⟨hrefl, ⟨e.now, rfl⟩, rfl⟩

theorem runs_attempt {p : Handler κ α} {E' : κ' → Shared → Prop} (h : R.RunsE sys t p Q E s)
    (hs : R.inv s) :
    R.RunsE sys t (attempt p : Handler κ' (Except κ α)) (Discipline.outcome Q E) E' s :=
  Routine.Runs.bind h hs fun _ _ _ _ hr => hr

theorem runs_mapErr {f : κ → κ'} {p : Handler κ α} {E' : κ' → Shared → Prop}
    (h : R.RunsE sys t p Q E s) (hs : R.inv s) (hE : ∀ e s, E e s → E' (f e) s) :
    R.RunsE sys t (mapErr f p) Q E' s := by
  refine Routine.Runs.bind h hs fun r s' _ _ hr => ?_
  cases r with
  | ok a => exact hr
  | error e => exact hE e s' hr

/-- A check takes no step. -/
theorem runs_check_bind {x : Except κ α} {f : α → Handler κ β} {Q : β → Shared → Prop}
    (hok : ∀ a, x = .ok a → R.RunsE sys t (f a) Q E s) (herr : ∀ e, E e s) :
    R.RunsE sys t (check x >>= f) Q E s := by
  cases x with
  | ok a => exact hok a rfl
  | error e => exact herr e

theorem runs_orOperation {x : Except IoError α} {Q : α → Shared → Prop}
    {E : MaintenanceError → Shared → Prop} (hok : ∀ a, x = .ok a → Q a s) (herr : E .operation s) :
    R.RunsE sys t (orOperation x) Q E s := by
  cases x with
  | ok a => exact hok a rfl
  | error err => exact herr

/-- What every round of a loop keeps, the loop keeps. -/
theorem runs_forEach {P : Shared → Prop} {E : MaintenanceError → Shared → Prop}
    {f : α → Handler MaintenanceError Unit} {l : List α} (hs : R.inv s) (hp : P s)
    (h : ∀ a ∈ l, ∀ s', R.inv s' → P s' → R.RunsE sys t (f a) (fun _ s => P s) E s') :
    R.RunsE sys t (forEach f l) (fun _ s => P s) E s := by
  induction l generalizing s with
  | nil => exact Routine.RunsE.pure hp
  | cons a rest ih =>
    refine Routine.RunsE.bind (h a List.mem_cons_self s hs hp) hs fun _ s' hs' _ hp' => ?_
    exact ih hs' hp' fun b hb => h b (List.mem_cons_of_mem _ hb)

end Rules

/-- A program of a bootstrap that needs to know nothing. -/
def Boots {κ α : Type} (c : Crates) (cfg : Config) (p : Handler κ α) : Prop :=
  ∀ s, Archive c s → (boot c cfg).RunsE system 0 p (fun _ _ => True) (fun _ _ => True) s

namespace Boots

variable {κ κ' α β : Type}

theorem refl (s : Shared) : (boot c cfg).guar s s := .service .refl

theorem pure (a : α) : Boots c cfg (Pure.pure a : Handler κ α) := fun _ _ => trivial

theorem throw (e : κ) : Boots c cfg (MonadExcept.throw e : Handler κ α) := fun _ _ => trivial

theorem bind {p : Handler κ α} {f : α → Handler κ β} (hp : Boots c cfg p)
    (hf : ∀ a, Boots c cfg (f a)) : Boots c cfg (p >>= f) :=
  fun s hs => Routine.RunsE.bind (hp s hs) hs fun a s' hs' _ _ => hf a s' hs'

theorem query {e : κ} {f : Db → Except κ α} : Boots c cfg (query e f) :=
  fun s _ => runs_query (refl s) (fun _ _ => trivial) fun _ => trivial

theorem fileRead {e : κ} {f : FileStore → Except κ α} : Boots c cfg (fileRead e f) :=
  fun s _ => runs_fileRead (refl s) (fun _ _ => trivial) fun _ => trivial

theorem check (x : Except κ α) : Boots c cfg (check x : Handler κ α) := by
  intro s hs
  cases x <;> trivial

theorem attempt {p : Handler κ α} (hp : Boots c cfg p) :
    Boots c cfg (attempt p : Handler κ' (Except κ α)) := by
  intro s hs
  have hrun : (boot c cfg).RunsE system 0 (Patwari.attempt p : Handler κ' (Except κ α))
      (Discipline.outcome (fun _ _ => True) fun _ _ => True) (fun _ _ => True) s :=
    runs_attempt (hp s hs) hs
  exact hrun.mono hs (fun _ _ _ _ => trivial) fun _ _ _ _ => trivial

theorem mapErr {f : κ → κ'} {p : Handler κ α} (hp : Boots c cfg p) :
    Boots c cfg (mapErr f p) :=
  fun s hs => runs_mapErr (hp s hs) hs fun _ _ _ => trivial

theorem forEach {f : α → Handler MaintenanceError Unit} (h : ∀ a, Boots c cfg (f a))
    (l : List α) : Boots c cfg (forEach f l) := by
  intro s hs
  exact Routine.RunsE.mono (runs_forEach (P := fun _ => True) hs trivial
    fun a _ s' hs' _ => h a s' hs') hs (fun _ _ _ _ => trivial) fun _ _ _ _ => trivial

/-- A file operation that makes no file of an early version and no blob file. -/
theorem fileOp {f : FileStore → Except IoError FileStore}
    (h : ∀ fs fs', f fs = .ok fs' → ∀ p, fs'.lookup p = fs.lookup p ∨ fs'.lookup p = none) :
    Boots c cfg (do orOperation (← fileOp f) : Handler MaintenanceError Unit) := by
  intro s hs
  refine Routine.RunsE.bind (Routine.RunsE.lift (Q := fun _ _ => True) (runs_fileOp (refl s)
    (fun fs hfs => ⟨.files (fun u => ?_) fun d => h s.fs fs hfs (blobPath d), trivial⟩)
    fun _ => trivial) hs) hs fun r s' hs' _ _ => runs_orOperation (fun _ _ => trivial) trivial
  rcases h s.fs fs hfs (.legacyArtifact u) with heq | hnone
  · exact heq.trans (hs.files u)
  · exact hnone

/-- What a request may do, a bootstrap may do. -/
theorem of_always {p : Handler κ α}
    (h : (discipline c cfg .any).AlwaysE p) : Boots c cfg p := by
  intro s hs
  have hruns : (boot c cfg).Runs system 0 p.run (fun _ _ => True) s :=
    Routine.Runs.of_safe (fun s hs => Archive.inv hs) (fun s s' hstep => BootStep.service hstep)
      (fun _ _ _ _ _ => trivial) (h 0 s hs.inv) hs
  refine hruns.mono hs fun r _ _ _ => ?_
  cases r <;> trivial

end Boots

/-! ### Upgrades, which find nothing to do. -/

theorem Db.Current.uploadsWithoutArtifacts (h : db.Current c) :
    db.uploadsWithoutArtifacts = [] := by
  rw [Db.uploadsWithoutArtifacts, List.flatMap_eq_nil_iff]
  intro u hu
  obtain ⟨hu, hnone⟩ := List.mem_filter.mp hu
  obtain ⟨a, ha, haid⟩ := h.detailed u hu
  rw [Bool.not_eq_true', List.any_eq_false] at hnone
  exact absurd (decide_eq_true haid) (hnone a ha)

theorem Db.Current.legacyFingerprints (h : db.Current c) : db.legacyFingerprints = [] := by
  rw [Db.legacyFingerprints, List.flatMap_eq_nil_iff]
  intro r hr
  obtain ⟨hr, hzero⟩ := List.mem_filter.mp hr
  exact absurd (of_decide_eq_true hzero) (h.fingerprints r hr)

theorem Db.Current.uploadsWithoutCapture (h : db.Current c) : db.uploadsWithoutCapture = [] := by
  rw [Db.uploadsWithoutCapture, List.map_eq_nil_iff, List.filter_eq_nil_iff]
  intro u hu hsel
  rw [Bool.and_eq_true, decide_eq_true_eq, Bool.not_eq_true', List.any_eq_false] at hsel
  obtain ⟨r, hr, hrid⟩ := h.captured u hu hsel.1
  exact hsel.2 r hr (decide_eq_true hrid)

theorem boots_upgradeUploadArtifactRows : Boots c cfg (upgradeUploadArtifactRows c) := by
  intro s hs
  refine Routine.RunsE.bind (runs_query (Q := fun rows _ => rows = []) (Boots.refl s)
    (fun rows h => ?_) fun _ => trivial) hs fun rows s' hs' _ hrows => ?_
  · obtain rfl := pure_eq_ok.mp h
    exact hs.current.uploadsWithoutArtifacts
  · rw [hrows]
    trivial

/-- No upload with one of these identifiers is completed. -/
def AllActive (ids : List String) (s : Shared) : Prop :=
  ∀ u ∈ s.db.uploads, u.id ∈ ids → u.status ≠ .completed

theorem runs_migrateLegacyFile (uploadId : String) (artifact : Artifact) (hs : Archive c s) :
    (boot c cfg).RunsE system 0 (migrateLegacyFile c uploadId artifact)
      (fun accepted s' => accepted = false ∧ s' = s) (fun _ _ => True) s := by
  unfold migrateLegacyFile
  dsimp only
  split
  · exact ⟨rfl, rfl⟩
  · refine Routine.RunsE.bind (runs_fileRead (Q := fun found s' => found = false ∧ s' = s)
      (Boots.refl s) (fun found h => ?_) fun _ => trivial) hs fun found s' hs' _ hfound => ?_
    · obtain rfl := pure_eq_ok.mp h
      rw [hs.files]
      exact ⟨rfl, rfl⟩
    · obtain ⟨rfl, rfl⟩ := hfound
      exact ⟨rfl, rfl⟩

theorem runs_upgradeLegacyUpload {ids : List String} {uploadId : String} (hid : uploadId ∈ ids)
    (canonicalJson now expiresAt : String) (hs : Archive c s) (hactive : AllActive ids s) :
    (boot c cfg).RunsE system 0 (upgradeLegacyUpload c cfg uploadId canonicalJson now expiresAt)
      (fun _ s' => AllActive ids s') (fun _ _ => True) s := by
  unfold upgradeLegacyUpload
  refine runs_check_bind (fun manifest _ => ?_) fun _ => trivial
  split
  · next artifact hartifacts =>
    refine Routine.RunsE.bind (runs_migrateLegacyFile uploadId artifact hs) hs
      fun accepted s' hs' _ hresult => ?_
    obtain ⟨rfl, rfl⟩ := hresult
    refine Routine.RunsE.bind (runs_transaction (Q := fun _ s' => AllActive ids s') (Boots.refl s')
      (fun _ db hwriter h => ?_) fun _ => trivial) hs' fun _ s'' _ _ hactive' => hactive'
    simp only [bind_eq_ok, pure_eq_ok] at h
    obtain ⟨-, -, -, -, -, -, h⟩ := h
    obtain ⟨-, rfl⟩ := Prod.mk.inj h
    refine ⟨.legacy hwriter uploadId artifact _ now expiresAt
      fun u hu heq => hactive u hu (heq ▸ hid), fun u hu huid => ?_⟩
    obtain ⟨v, hv, rfl⟩ := mem_updateWhere.mp hu
    split
    · show (if _ then UploadRowStatus.artifactUploaded else .created) ≠ _
      split <;> simp
    · next hsel =>
      rw [if_neg hsel] at huid
      exact hactive v hv huid
  · trivial

theorem boots_upgradeLegacyUploads : Boots c cfg (upgradeLegacyUploads c cfg) := by
  intro s hs
  refine Routine.RunsE.bind (runs_query (Q := fun legacy s' => AllActive (legacy.map (·.1.id)) s')
    (Boots.refl s) (fun legacy h => ?_) fun _ => trivial) hs fun legacy s' hs' _ hactive => ?_
  · obtain rfl := pure_eq_ok.mp h
    intro u hu hid
    obtain ⟨e, he, heq⟩ := List.mem_map.mp hid
    obtain ⟨v, hv, hm⟩ := List.mem_flatMap.mp he
    obtain ⟨m, -, rfl⟩ := List.mem_map.mp hm
    obtain ⟨hv, hsel⟩ := List.mem_filter.mp hv
    obtain rfl : v = u := hs.inv.unique.uploads.eq_of_mem hv hu heq
    exact UploadRowStatus.active_iff.mp (Bool.and_eq_true_iff.mp hsel).1
  · split
    · trivial
    refine Routine.RunsE.bind (Routine.RunsE.lift (runs_nowUtc (Boots.refl s')) hs') hs'
      fun now s'' hs'' _ hnow => ?_
    obtain ⟨-, rfl⟩ := hnow
    refine runs_check_bind (fun nowText _ => ?_) fun _ => trivial
    refine runs_check_bind (fun expiresAt _ => ?_) fun _ => trivial
    refine Routine.RunsE.mono (runs_forEach (E := fun _ _ => True) hs'' hactive
      fun e he s₁ hs₁ hactive₁ => ?_) hs'' (fun _ _ _ _ => trivial) fun _ _ _ _ => trivial
    have hid : e.1.id ∈ legacy.map fun e => e.1.id := List.mem_map.mpr ⟨e, he, rfl⟩
    exact runs_upgradeLegacyUpload hid _ _ _ hs₁ hactive₁

theorem boots_upgradeSnapshotFingerprints : Boots c cfg (upgradeSnapshotFingerprints c) := by
  intro s hs
  refine Routine.RunsE.bind (runs_query (Q := fun rows _ => rows = []) (Boots.refl s)
    (fun rows h => ?_) fun _ => trivial) hs fun rows s' hs' _ hrows => ?_
  · obtain rfl := pure_eq_ok.mp h
    exact hs.current.legacyFingerprints
  · rw [hrows]
    trivial

/-- Giving rows whose key is 0 the key they have changes nothing. -/
theorem boots_backfillTableSortKey {ρ : Type} {rows : Db → List ρ} {timestamp : ρ → String}
    {update : ρ → ℤ → Db → Db}
    (hkey : ∀ db, db.Current c → ∀ r ∈ rows db, sortKeyFromRfc3339 c (timestamp r) = some 0)
    (hupdate : ∀ r db, update r 0 db = db) :
    Boots c cfg (backfillTableSortKey c rows timestamp update) := by
  intro s hs
  refine Routine.RunsE.bind (runs_query (Q := fun found s' => s' = s ∧ found = rows s.db)
    (Boots.refl s) (fun found h => ⟨rfl, (pure_eq_ok.mp h).symm⟩) fun _ => trivial) hs
    fun found s' hs' _ hfound => ?_
  obtain ⟨rfl, rfl⟩ := hfound
  split
  · trivial
  refine runs_transaction (Boots.refl s') (fun _ db _ h => ?_) fun _ => trivial
  have hfold (l : List ρ) (hl : ∀ r ∈ l, sortKeyFromRfc3339 c (timestamp r) = some 0) (db : Db) :
      l.foldlM (fun db row => do
        let seq ← okOr (sortKeyFromRfc3339 c (timestamp row)) MaintenanceError.operation
        pure (update row seq db)) db = .ok db := by
    induction l with
    | nil => rfl
    | cons r rest ih =>
      rw [List.foldlM_cons, hl r List.mem_cons_self]
      show rest.foldlM _ (update r 0 db) = _
      rw [hupdate, ih fun r' hr' => hl r' (List.mem_cons_of_mem _ hr')]
  rw [hfold _ (hkey s'.db hs'.current)] at h
  obtain ⟨-, rfl⟩ := Prod.mk.inj (pure_eq_ok.mp h)
  exact ⟨Boots.refl s', trivial⟩

/-- Giving a row the value it has changes no row. -/
theorem updateWhere_self {ρ : Type} {p : ρ → Bool} {f : ρ → ρ} (rows : List ρ)
    (h : ∀ r, p r = true → f r = r) : updateWhere p f rows = rows := by
  refine List.map_id''  (fun r => ?_) rows
  split
  · next hsel => exact h r hsel
  · rfl

theorem boots_backfillSortKeys : Boots c cfg (backfillSortKeys c) := by
  refine Boots.bind (boots_backfillTableSortKey (fun db hdb r hr => ?_) fun r db => ?_)
    fun _ => Boots.bind (boots_backfillTableSortKey (fun db hdb r hr => ?_) fun r db => ?_)
    fun _ => boots_backfillTableSortKey (fun db hdb r hr => ?_) fun r db => ?_
  · obtain ⟨hr, hzero⟩ := List.mem_filter.mp hr
    rw [hdb.snapshotKeys r hr, of_decide_eq_true hzero]
  · have hsame := updateWhere_self (p := fun r' => decide (r'.id = r.id ∧ r'.completedAtSeq = 0))
      (f := fun r' => { r' with completedAtSeq := 0 }) db.snapshots fun r' hsel => by
        rw [← (of_decide_eq_true hsel).2]
    rw [hsame]
  · obtain ⟨hr, hzero⟩ := List.mem_filter.mp hr
    rw [hdb.captureKeys r hr, of_decide_eq_true hzero]
  · have hsame := updateWhere_self
      (p := fun r' => decide (r'.id = r.id ∧ r'.serverCompletedAtSeq = 0))
      (f := fun r' => { r' with serverCompletedAtSeq := 0 }) db.captures fun r' hsel => by
        rw [← (of_decide_eq_true hsel).2]
    rw [hsame]
  · obtain ⟨hr, hzero⟩ := List.mem_filter.mp hr
    rw [hdb.artifactKeys r hr, of_decide_eq_true hzero]
  · have hsame := updateWhere_self (p := fun r' => decide (r'.id = r.id ∧ r'.createdAtSeq = 0))
      (f := fun r' => { r' with createdAtSeq := 0 }) db.artifacts fun r' hsel => by
        rw [← (of_decide_eq_true hsel).2]
    rw [hsame]

theorem boots_backfillCompletedCaptureProvenance :
    Boots c cfg (backfillCompletedCaptureProvenance c) := by
  intro s hs
  refine Routine.RunsE.bind (runs_query (Q := fun uploadIds _ => uploadIds = []) (Boots.refl s)
    (fun uploadIds h => ?_) fun _ => trivial) hs fun uploadIds s' hs' _ hnone => ?_
  · obtain rfl := pure_eq_ok.mp h
    exact hs.current.uploadsWithoutCapture
  · rw [hnone]
    trivial

/-! ### Uploads and blobs. -/

theorem boots_removeFile (path : FilePath) :
    Boots c cfg (do orOperation (← fileOp fun fs => fs.removeFile path) :
      Handler MaintenanceError Unit) := by
  refine Boots.fileOp fun fs fs' h p => ?_
  rw [FileStore.removeFile_ok h, FileStore.lookup_removeWhere]
  split
  · exact Or.inr rfl
  · exact Or.inl rfl

theorem boots_removeWhere {p : FileStore → FilePath → Bool} :
    Boots c cfg (do orOperation (← fileOp fun fs => .ok (fs.removeWhere (p fs))) :
      Handler MaintenanceError Unit) := by
  refine Boots.fileOp fun fs fs' h path => ?_
  obtain rfl := Except.ok.inj h
  rw [FileStore.lookup_removeWhere]
  split
  · exact Or.inr rfl
  · exact Or.inl rfl

theorem boots_removeRecoveryEntry (path : FilePath) :
    Boots c cfg (removeRecoveryEntry path) := by
  refine Boots.bind Boots.fileRead fun metadata => ?_
  cases metadata with
  | dir => exact boots_removeWhere (p := fun _ q => decide (q = path))
  | _ => exact boots_removeFile path

theorem boots_recoverChunkRow (uploadId : String) (artifactIndex : ℕ) (row : UploadChunkRow) :
    Boots c cfg (recoverChunkRow c uploadId artifactIndex row) := by
  refine Boots.bind (Boots.check _) fun chunkIndex => Boots.bind (Boots.check _) fun length => ?_
  refine Boots.bind (Boots.attempt Boots.fileRead) fun verified => ?_
  cases verified with
  | ok _ => exact Boots.pure _
  | error _ =>
    refine Boots.bind (fun s hs => runs_transaction (Boots.refl s) (fun _ db hwriter h => ?_)
      fun _ => trivial) fun _ => ?_
    · obtain ⟨-, rfl⟩ := Prod.mk.inj (pure_eq_ok.mp h)
      exact ⟨.chunks hwriter _, trivial⟩
    · refine Boots.bind (Boots.of_always (always_lift ?_)) fun _ => Boots.pure _
      exact always_discardFile rfl

theorem boots_recoverArtifactChunks (uploadId : String) (artifact : UploadArtifactRow) :
    Boots c cfg (recoverArtifactChunks c uploadId artifact) := by
  refine Boots.bind (Boots.check _) fun artifactIndex => Boots.bind Boots.query fun rows => ?_
  refine Boots.bind (Boots.forEach (boots_recoverChunkRow uploadId artifactIndex) rows) fun _ => ?_
  refine Boots.bind Boots.query fun validRows => Boots.bind (Boots.check _) fun accepted => ?_
  refine Boots.bind Boots.fileRead fun entries => Boots.forEach (fun entry => ?_) entries
  unfold keepAcceptedChunk
  split
  · split
    · exact Boots.pure _
    · exact boots_removeRecoveryEntry _
  · exact boots_removeRecoveryEntry _

theorem boots_recoverActiveUpload (uploadId : String) :
    Boots c cfg (recoverActiveUpload c uploadId) := by
  refine Boots.bind Boots.query fun artifacts => ?_
  split
  · exact Boots.throw _
  refine Boots.bind (Boots.forEach (boots_recoverArtifactChunks uploadId) artifacts) fun _ => ?_
  refine Boots.bind (Boots.mapErr (Boots.of_always (always_uploadIsComplete uploadId)))
    fun complete => ?_
  refine Boots.bind (fun s hs => runs_transaction (Boots.refl s) (fun a db hwriter h => ?_)
    fun _ => trivial) fun _ => ?_
  · obtain ⟨-, rfl⟩ := Prod.mk.inj (Except.ok.inj h)
    exact ⟨.service (.write hwriter Fresh.nil (.setUploadStatus uploadId complete rfl)), trivial⟩
  · refine Boots.bind Boots.fileRead fun entries => Boots.forEach (fun entry => ?_) entries
    unfold removeAssembled
    split
    · exact boots_removeRecoveryEntry _
    · exact boots_removeRecoveryEntry _
    · exact Boots.pure _

theorem boots_removeUploadDirectory (uploadId : String) :
    Boots c cfg (removeUploadDirectory uploadId) :=
  boots_removeWhere (p := fun _ q => decide (q.upload? = some uploadId))

theorem boots_recoverUpload (upload : String × UploadRowStatus) :
    Boots c cfg (recoverUpload c upload) := by
  unfold recoverUpload
  split
  · exact boots_removeUploadDirectory _
  · exact boots_recoverActiveUpload _

theorem boots_removeUnknownUploadDirectories (known : List String) :
    Boots c cfg (removeUnknownUploadDirectories known) := by
  refine Boots.bind Boots.fileRead fun entries => Boots.forEach (fun uploadId => ?_) entries
  unfold removeUnknown
  split
  · refine Boots.fileOp fun fs fs' h path => ?_
    split at h
    · obtain rfl := Except.ok.inj h
      rw [FileStore.removeUploadDir, FileStore.lookup_removeWhere]
      split
      · exact Or.inr rfl
      · exact Or.inl rfl
    · simp at h
  · exact Boots.pure _

theorem BlobRow.Unmarked.clearCandidate {r : BlobRow} (h : r.Unmarked) : r.clearCandidate = r := by
  obtain ⟨horphaned, heligible, hseq⟩ := h
  cases r
  subst horphaned heligible hseq
  rfl

/-- Where the marks are exact, recovery leaves them. -/
theorem Db.Candidates.recoverCandidates (h : db.Candidates) (orphanedAt eligibleAfter : String)
    (eligibleAfterSeq : ℤ) :
    recoverCandidates orphanedAt eligibleAfter eligibleAfterSeq db = db := by
  have hrows : db.blobs.map (fun r =>
      if db.hasLiveReference r.id then r.clearCandidate
      else if r.eligibleAfterSeq = none then
        { r with
          orphanedAt := some orphanedAt
          eligibleAfter := some eligibleAfter
          eligibleAfterSeq := some eligibleAfterSeq }
      else r) = db.blobs := by
    refine (List.map_congr_left fun r hr => ?_).trans (List.map_id _)
    have hmark := h.marks r hr
    split
    · next hlive =>
      rw [if_pos hlive] at hmark
      exact hmark.clearCandidate
    · next hlive =>
      rw [if_neg hlive] at hmark
      rw [if_neg]
      · rfl
      · intro hnone
        have hsome := hmark.2.2
        rw [hnone] at hsome
        exact Bool.false_ne_true hsome
  unfold Patwari.recoverCandidates
  rw [hrows]

theorem boots_recoverUnreferencedBlobs : Boots c cfg (recoverUnreferencedBlobs c cfg) := by
  refine Boots.bind (Boots.of_always (always_lift always_nowUtc)) fun now => ?_
  refine Boots.bind (Boots.check _) fun orphanedAt => ?_
  refine Boots.bind (Boots.check _) fun eligibleAfter => ?_
  refine Boots.bind (fun s hs => runs_transaction (Boots.refl s) (fun _ db _ h => ?_)
    fun _ => trivial) fun _ => ?_
  · rw [hs.candidates.recoverCandidates] at h
    obtain ⟨-, rfl⟩ := Prod.mk.inj (pure_eq_ok.mp h)
    exact ⟨Boots.refl s, trivial⟩
  · refine Boots.bind Boots.query fun known => Boots.bind Boots.fileRead fun shards => ?_
    refine Boots.forEach (fun shard => ?_) shards
    refine Boots.bind Boots.fileRead fun directory => ?_
    split
    · exact Boots.pure _
    refine Boots.bind Boots.fileRead fun entries => Boots.forEach (fun entry => ?_) entries
    unfold keepKnownBlob
    split
    · split
      · exact Boots.pure _
      · exact boots_removeRecoveryEntry _
    · exact Boots.pure _

/-- **`boots_recoverUploads`** — recovery takes only steps of a bootstrap. -/
theorem boots_recoverUploads : Boots c cfg (recoverUploads c cfg) := by
  refine Boots.bind (Boots.bind boots_upgradeUploadArtifactRows fun _ =>
    Boots.bind boots_upgradeLegacyUploads fun _ =>
    Boots.bind boots_upgradeSnapshotFingerprints fun _ =>
    Boots.bind boots_backfillSortKeys fun _ => boots_backfillCompletedCaptureProvenance)
    fun _ => ?_
  refine Boots.bind (fun s hs => runs_transaction (Boots.refl s) (fun _ db hwriter h => ?_)
    fun _ => trivial) fun _ => ?_
  · obtain ⟨-, rfl⟩ := Prod.mk.inj (pure_eq_ok.mp h)
    exact ⟨.contexts hwriter, trivial⟩
  · refine Boots.bind Boots.query fun uploads => Boots.bind Boots.query fun audits => ?_
    refine Boots.bind (boots_removeUnknownUploadDirectories _) fun _ => ?_
    refine Boots.bind (Boots.forEach boots_recoverUpload uploads) fun _ => ?_
    refine Boots.bind (Boots.forEach boots_removeUploadDirectory audits) fun _ => ?_
    exact boots_recoverUnreferencedBlobs

/-! ## §5 — The life of an archive. -/

/-- `Service::bootstrap` once the volume is open: recovery, then the uploads expired meanwhile. -/
def bootstrapArchive (c : Crates) (cfg : Config) : Handler MaintenanceError Unit := do
  recoverUploads c cfg
  let now ← nowUtc
  let _ ← mapErr (fun _ => .operation) (expireUploadsAt c now)

theorem boots_bootstrapArchive : Boots c cfg (bootstrapArchive c cfg) := by
  refine Boots.bind boots_recoverUploads fun _ => ?_
  refine Boots.bind (Boots.of_always (always_lift always_nowUtc)) fun now => ?_
  refine Boots.bind (Boots.mapErr (Boots.of_always (always_expireUploadsAt now))) fun _ => ?_
  exact Boots.pure _

/-- What is left of the state when the process ends. -/
def Shared.stopped (s : Shared) : Shared :=
    { s with locks := [], writer := none, reconciling := [] }

/-- An archive whose server is starting, with the rest of the bootstrap, or serving. -/
inductive Moment where
  | starting (rest : Program (Except MaintenanceError Unit)) (s : Shared)
  | serving (p : Server)

def Moment.state : Moment → Shared
  | starting _ s => s
  | serving p => p.state

section Life

variable (c : Crates) (cfg : Config) (sqlite : SqliteChecks)

/-- **`LifeStep`** — one thing that happens to an archive. -/
inductive LifeStep : Moment → Moment → Prop
  | boot {rest rest' : Program (Except MaintenanceError Unit)} {s s' : Shared}
      (h : rest.Step system 0 s rest' s') : LifeStep (.starting rest s) (.starting rest' s')
  /-- The bootstrap has succeeded, and its task ends. -/
  | serve (s : Shared) :
      LifeStep (.starting (.done (.ok ())) s) (.serving (Pool.init (s.cleanup 0)))
  | event {p p' : Server} (h : p.Step system (handle c cfg sqlite) (fun _ _ => True) p') :
      LifeStep (.serving p) (.serving p')
  /-- The process ends, wherever it is, and another one starts. -/
  | restart (m : Moment) : LifeStep m (.starting (bootstrapArchive c cfg).run m.state.stopped)

/-- The moments of an archive that started as an empty volume. -/
def Life (m : Moment) : Prop :=
  Relation.ReflTransGen (LifeStep c cfg sqlite) (.starting (bootstrapArchive c cfg).run Shared.init)
    m

/-- What a step of an archive's life does to its state. -/
inductive Moved (s : Shared) : Shared → Prop
  | stays : Moved s s
  | task {t : TaskId} {s' : Shared} (h : SysStep c cfg .any t s s') : Moved s s'
  | boot {s' : Shared} (h : BootStep c cfg s s') : Moved s s'
  | stop : Moved s s.stopped

/-- What holds of an archive at any moment, and what its server is about to do. -/
def Moment.Good : Moment → Prop
  | starting rest s => Archive c s ∧ (boot c cfg).Runs system 0 rest (fun _ _ => True) s
  | serving p => Archive c p.state ∧ Pool.Good (discipline c cfg .any) (fun _ _ => True) p

end Life

variable {sqlite : SqliteChecks} {m m' : Moment}

theorem Archive.stopped (hs : Archive c s) : Archive c s.stopped where
  inv :=
    { hs.inv with
      locksOnce := UniqueOn.nil
      writer := fun _ _ h => by simp [Shared.stopped] at h }
  completed := hs.completed
  current := hs.current
  candidates := hs.candidates
  files := hs.files

theorem Moved.archive (h : Moved c cfg s s') (hs : Archive c s) : Archive c s' := by
  cases h with
  | stays => exact hs
  | task h => exact hs.service h
  | boot h => exact h.archive hs
  | stop => exact hs.stopped

/-- A step of an archive's life as its database sees it. -/
inductive DbMoved (c : Crates) (cfg : Config) (s s' : Shared) : Prop
  | stays (hdb : s'.db = s.db) (hused : s'.used = s.used)
  | writes {t : TaskId} {ids : List String} (hids : Fresh t ids s)
      (heffect : Effect c cfg .any t s ids s'.db) (hused : s'.used = ids ++ s.used)
  | collects (hcollects : Collects s.db s'.db) (hused : s'.used = s.used)
  | chunks (keep : UploadChunkRow → Bool)
      (hdb : s'.db = { s.db with uploadChunks := s.db.uploadChunks.filter keep })
      (hused : s'.used = s.used)
  | legacy (uploadId : String) (artifact : Artifact) (chunkSize : ℕ) (now expiresAt : String)
      (hactive : ∀ u ∈ s.db.uploads, u.id = uploadId → u.status ≠ .completed)
      (hdb : s'.db = upgradeLegacyRows uploadId artifact chunkSize false now expiresAt s.db)
      (hused : s'.used = s.used)
  | contexts (hdb : s'.db = rebuildAllLatestContexts s.db) (hused : s'.used = s.used)

theorem Moved.dbMoved (h : Moved c cfg s s') (hs : Archive c s) : DbMoved c cfg s s' := by
  have hservice {t : TaskId} {s' : Shared} (h : SysStep c cfg .any t s s') :
      DbMoved c cfg s s' := by
    cases h.dbStep hs.inv hs.completed with
    | stays hdb hused => exact .stays hdb hused
    | writes hids heffect hused => exact .writes hids heffect hused
    | collects hcollects hused => exact .collects hcollects hused
  cases h with
  | stays => exact .stays rfl rfl
  | task h => exact hservice h
  | boot h =>
    cases h with
    | service h => exact hservice h
    | chunks hwriter keep => exact .chunks keep rfl rfl
    | legacy hwriter uploadId artifact chunkSize now expiresAt hactive =>
      exact .legacy uploadId artifact chunkSize now expiresAt hactive rfl rfl
    | contexts hwriter => exact .contexts rfl rfl
    | files hfiles hblobs => exact .stays rfl rfl
  | stop => exact .stays rfl rfl

/-- A server that starts is good. -/
theorem Moment.Good.start (hs : Archive c s) :
    Moment.Good c cfg (.starting (bootstrapArchive c cfg).run s) := by
  refine ⟨hs, Routine.Runs.mono (boots_bootstrapArchive s hs) hs fun r _ _ _ => trivial⟩

/-- **`LifeStep.good`** — whatever happens to an archive, it is good and was moved by one step. -/
theorem LifeStep.good (h : LifeStep c cfg sqlite m m') (hm : m.Good c cfg) :
    m'.Good c cfg ∧ Moved c cfg m.state m'.state := by
  cases h with
  | boot h =>
    obtain ⟨hguar, hnext⟩ := hm.2.step h
    exact ⟨⟨hguar.archive hm.1, hnext⟩, .boot hguar⟩
  | serve s =>
    have hcleanup : SysStep c cfg .any 0 s (s.cleanup 0) := .cleanup
    have hs := hm.1.service hcleanup
    exact ⟨⟨hs, Pool.Good.init _ _ hs.inv⟩, .task hcleanup⟩
  | @event p p' h =>
    obtain ⟨ev, -, henv, hstep⟩ := h
    obtain ⟨hgood, hmoved⟩ := hm.2.step (safe_request sqlite) (meets_any p ev) henv hstep
    have hmove : Moved c cfg p.state p'.state := by
      rcases hmoved with heq | ⟨t, hguar⟩
      · rw [heq]
        exact .stays
      · exact .task hguar
    exact ⟨⟨hmove.archive hm.1, hgood⟩, hmove⟩
  | restart =>
    have hs : Archive c m.state := by
      cases m with
      | starting rest s => exact hm.1
      | serving p => exact hm.1
    exact ⟨Moment.Good.start hs.stopped, .stop⟩

theorem Moment.Good.archive (h : m.Good c cfg) : Archive c m.state := by
  cases m with
  | starting rest s => exact h.1
  | serving p => exact h.1

/-- **`Life.good`** — an archive is good at every moment of its life. -/
theorem Life.good (h : Life c cfg sqlite m) : m.Good c cfg := by
  induction h with
  | refl => exact Moment.Good.start (Archive.init c)
  | tail _ hstep ih => exact (hstep.good ih).1

/-- **`LifeInvariant`** — a property of the database that the service and every bootstrap keep. -/
structure LifeInvariant (c : Crates) (cfg : Config) (P : Db → List String → Prop) : Prop extends
    DbInvariant c cfg P where
  chunks : ∀ {s : Shared} (keep : UploadChunkRow → Bool), Archive c s → P s.db s.used →
    P { s.db with uploadChunks := s.db.uploadChunks.filter keep } s.used
  legacy : ∀ {s : Shared} (uploadId : String) (artifact : Artifact) (chunkSize : ℕ)
    (now expiresAt : String), Archive c s →
    (∀ u ∈ s.db.uploads, u.id = uploadId → u.status ≠ .completed) → P s.db s.used →
    P (upgradeLegacyRows uploadId artifact chunkSize false now expiresAt s.db) s.used
  contexts : ∀ {s : Shared}, Archive c s → P s.db s.used →
    P (rebuildAllLatestContexts s.db) s.used

theorem LifeInvariant.moved {P : Db → List String → Prop} (hP : LifeInvariant c cfg P)
    (h : Moved c cfg s s') (hs : Archive c s) (hp : P s.db s.used) : P s'.db s'.used := by
  cases h.dbMoved hs with
  | stays hdb hused => rwa [hdb, hused]
  | writes hids heffect hused =>
    rw [hused]
    exact hP.effect hs.inv hs.completed hids heffect hp
  | collects hcollects hused =>
    rw [hused]
    exact hP.collect hs.inv hs.completed hcollects hp
  | chunks keep hdb hused =>
    rw [hdb, hused]
    exact hP.chunks keep hs hp
  | legacy uploadId artifact chunkSize now expiresAt hactive hdb hused =>
    rw [hdb, hused]
    exact hP.legacy uploadId artifact chunkSize now expiresAt hs hactive hp
  | contexts hdb hused =>
    rw [hdb, hused]
    exact hP.contexts hs hp

/-- **`LifeInvariant.life`** — what holds of an empty archive and is kept by everything that may
happen to it holds at every moment of its life. -/
theorem LifeInvariant.life {P : Db → List String → Prop} (hP : LifeInvariant c cfg P)
    (hempty : P Db.empty []) (h : Life c cfg sqlite m) : P m.state.db m.state.used := by
  induction h with
  | refl => exact hempty
  | tail hlife hstep ih =>
    have hgood := Life.good hlife
    exact hP.moved (hstep.good hgood).2 hgood.archive ih

/-- What holds of an empty archive and is kept by every step between two archives holds at every
moment of an archive's life. -/
theorem Life.keeps {P : Db → Prop} (hempty : P Db.empty)
    (hstep : ∀ {s s' : Shared}, Archive c s → Archive c s' → DbMoved c cfg s s' → P s.db → P s'.db)
    (h : Life c cfg sqlite m) : P m.state.db := by
  induction h with
  | refl => exact hempty
  | tail hlife hnext ih =>
    have hgood := Life.good hlife
    obtain ⟨hgood', hmoved⟩ := hnext.good hgood
    exact hstep hgood.archive hgood'.archive (hmoved.dbMoved hgood.archive) ih

/-- Locks and transactions belong to tasks in flight. -/
def Moment.Owned (c : Crates) (cfg : Config) : Moment → Prop
  | .starting _ s => ∀ t, t ≠ 0 → (discipline c cfg .any).idle t s
  | .serving p => p.Idle (discipline c cfg .any)

theorem BootStep.idle (h : BootStep c cfg s s') {t : TaskId} (hs : Archive c s) (ht : t ≠ 0)
    (hidle : (discipline c cfg .any).idle t s) : (discipline c cfg .any).idle t s' := by
  cases h with
  | service h => exact (discipline c cfg .any).idle_stable ht.symm hs.inv h hidle
  | _ => exact hidle

theorem idle_stopped (t : TaskId) (s : Shared) : (discipline c cfg .any).idle t s.stopped :=
  ⟨fun _ hl => absurd hl List.not_mem_nil, fun _ hw => nomatch hw⟩

theorem Life.owned (h : Life c cfg sqlite m) : m.Owned c cfg := by
  induction h with
  | refl => exact fun t _ => idle_stopped _ Shared.init
  | @tail m m' hlife hstep ih =>
    have hgood := Life.good hlife
    cases hstep with
    | boot h => exact fun t ht => (hgood.2.step h).1.idle hgood.1 ht (ih t ht)
    | serve s =>
      intro t _
      by_cases ht : t = 0
      · exact ht ▸ (discipline c cfg .any).idle_cleanup 0 s
      · have hcleanup : (discipline c cfg .any).guar 0 s (s.cleanup 0) := SysStep.cleanup
        exact (discipline c cfg .any).idle_stable (Ne.symm ht) hgood.1.inv hcleanup (ih t ht)
    | @event p p' h =>
      obtain ⟨ev, -, henv, hstep⟩ := h
      exact hgood.2.idle_step (meets_any p ev) henv hstep ih
    | restart => exact fun t _ => idle_stopped _ _

/-! ## §6 — A sample life. -/

theorem Life.boot {rest rest' : Program (Except MaintenanceError Unit)}
    (h : Life c cfg sqlite (.starting rest s))
    (hsteps : Relation.ReflTransGen (fun a b => a.1.Step system 0 a.2 b.1 b.2) (rest, s)
      (rest', s')) : Life c cfg sqlite (.starting rest' s') :=
  h.trans (hsteps.lift (fun a => Moment.starting a.1 a.2) fun _ _ hstep => .boot hstep)

theorem Life.run {p p' : Server} (h : Life c cfg sqlite (.serving p))
    (hrun : ServerRun c cfg sqlite (fun _ _ => True) p p') : Life c cfg sqlite (.serving p') :=
  h.trans (hrun.lift Moment.serving fun _ _ hstep => .event hstep)

/-- A serving archive was started with nothing in flight. -/
theorem Life.started {p : Server} (h : Life c cfg sqlite (.serving p)) :
    ∃ s, Life c cfg sqlite (.serving (Pool.init s)) ∧
      ServerRun c cfg sqlite (fun _ _ => True) (Pool.init s) p := by
  suffices hgen : ∀ m, Life c cfg sqlite m → ∀ p, m = .serving p →
      ∃ s, Life c cfg sqlite (.serving (Pool.init s)) ∧
        ServerRun c cfg sqlite (fun _ _ => True) (Pool.init s) p from hgen _ h p rfl
  intro m hm
  induction hm with
  | refl => simp
  | tail hlife hstep ih =>
    rintro p rfl
    cases hstep with
    | serve s => exact ⟨s.cleanup 0, hlife.tail (.serve s), .refl⟩
    | event hevent =>
      obtain ⟨s, hstart, hrun⟩ := ih _ rfl
      exact ⟨s, hstart, hrun.tail hevent⟩

/-- A server on an empty volume after its bootstrap. -/
def bootReplay (c : Crates) (cfg : Config) : Option Server :=
  ((bootstrapArchive c cfg).run.replay 0 freshEnv ((List.range 17).map (sampleEnv 0))
    Shared.init).bind fun
    | (.done (.ok ()), s) => some (Pool.init (s.cleanup 0))
    | _ => none

/-- A bootstrap that is replayed ends in the state its server starts from. -/
theorem bootReplay_some {p : Server} (h : bootReplay c cfg = some p) :
    ∃ s : Shared, (bootstrapArchive c cfg).run.replay 0 freshEnv
        ((List.range 17).map (sampleEnv 0)) Shared.init = some (.done (.ok ()), s) ∧
      p = Pool.init (s.cleanup 0) := by
  obtain ⟨⟨rest, s⟩, hstart, hserve⟩ := Option.bind_eq_some_iff.mp h
  split at hserve
  · next heq =>
    obtain ⟨rfl, rfl⟩ := Prod.mk.inj heq
    exact ⟨_, hstart, (Option.some.inj hserve).symm⟩
  · simp at hserve

/-- Events replayed on that server. -/
def lifeReplay (c : Crates) (cfg : Config) (events : List (Event Env Request)) : Option Server :=
  (bootReplay c cfg).bind (Pool.replay system (handle c cfg sampleSqlite) freshEnv events)

/-- Events replayed under the sample configuration. -/
def sampleReplay (events : List (Event Env Request)) : Option Server :=
  lifeReplay sampleCrates sampleConfig events

theorem sampled_bootstrap : ∀ e ∈ (List.range 17).map (sampleEnv 0), Sampled e := by
  intro e he
  obtain ⟨k, hk, rfl⟩ := List.mem_map.mp he
  have hlt := List.mem_range.mp hk
  exact ⟨k, by omega, rfl⟩

/-- A bootstrap and events with sample identifiers that can be replayed are a life. -/
theorem life_of_replay {events : List (Event Env Request)}
    (hevents : ∀ ev ∈ events, ∀ e ∈ ev.input?, Sampled e) {s : Shared} {p : Server}
    (hboot : (bootstrapArchive c cfg).run.replay 0 freshEnv ((List.range 17).map (sampleEnv 0))
      Shared.init = some (.done (.ok ()), s))
    (h : (Pool.init (s.cleanup 0) : Server).replay system (handle c cfg sqlite) freshEnv events =
      some p) : Life c cfg sqlite (.serving p) := by
  have hsteps := Prog.steps_of_replay
    (fun e he s hfresh => (sampled_bootstrap e he).envOk hfresh) hboot
  have hserving : Life c cfg sqlite (.serving (Pool.init (s.cleanup 0))) :=
    (Life.boot Relation.ReflTransGen.refl hsteps).tail (.serve s)
  exact hserving.run (serverRun_of_replay hevents h)

theorem life_of_lifeReplay {events : List (Event Env Request)}
    (hevents : ∀ ev ∈ events, ∀ e ∈ ev.input?, Sampled e) {p : Server}
    (h : lifeReplay c cfg events = some p) : Life c cfg sampleSqlite (.serving p) := by
  obtain ⟨p₀, hboot, hreplay⟩ := Option.bind_eq_some_iff.mp h
  obtain ⟨s, hstart, rfl⟩ := bootReplay_some hboot
  exact life_of_replay hevents hstart hreplay

theorem life_of_sampleReplay {events : List (Event Env Request)}
    (hevents : ∀ ev ∈ events, ∀ e ∈ ev.input?, Sampled e) {p : Server}
    (h : sampleReplay events = some p) :
    Life sampleCrates sampleConfig sampleSqlite (.serving p) :=
  life_of_lifeReplay hevents h

/-- A client registers and archives the sample manifest. -/
def archivedEvents : List (Event Env Request) :=
  served 0 (.registerClient sampleClientId ⟨none, none, Lib.StringMap.empty⟩) 0 17 3 ++
  served 1 (.createUpload ⟨sampleClientId, some "capture", none, sampleManifest⟩) 0 20 9 ++
  served 2 (.completeUpload (sampleUuid 23)) 0 29 30

/-- The request that deletes a sample snapshot. -/
def sampleDeletion (snapshotId : String) : DeleteSnapshotRequest :=
  ⟨snapshotId, none, some ("delete-snapshot:" ++ snapshotId ++ ":sha256:" ++ sampleFingerprint),
    none⟩

/-- One second later the snapshot is deleted. -/
def deletedEvents : List (Event Env Request) :=
  archivedEvents ++ served 3 (.deleteSnapshot (sampleDeletion (sampleUuid 50))) 1 59 11

theorem sampled_archivedEvents : ∀ ev ∈ archivedEvents, ∀ e ∈ ev.input?, Sampled e := by
  intro ev hev
  rw [archivedEvents, List.mem_append, List.mem_append] at hev
  rcases hev with (hev | hev) | hev
  · exact sampled_served (by norm_num) ev hev
  · exact sampled_served (by norm_num) ev hev
  · exact sampled_served (by norm_num) ev hev

theorem sampled_deletedEvents : ∀ ev ∈ deletedEvents, ∀ e ∈ ev.input?, Sampled e := by
  intro ev hev
  rcases List.mem_append.mp hev with hev | hev
  · exact sampled_archivedEvents ev hev
  · exact sampled_served (by norm_num) ev hev

end Patwari
