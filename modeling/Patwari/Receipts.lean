/-
# Patwari.Receipts — one receipt for every answer about a snapshot.

A receipt is not stored. Completions compute it from an upload, its snapshot and its manifest, a
tombstone's answer from the tombstone and what is left of the snapshot. §1 writes both computations
as reads of the committed database, §2 says what the rows must keep for the two to agree, §3 that
every step keeps it, §4 that a snapshot therefore has one receipt for as long as the archive exists.
§5 follows the requests: whatever an answer of the service carries is what one of the two reads
found in a state the request has seen.
-/
import Patwari.Tombstones
import Patwari.Answers

namespace Patwari

open Lib (TaskId Event Pool Prog UniqueOn updateWhere mem_updateWhere)
open Lib.Prog (GivenE)

variable {c : Crates} {cfg : Config} {s s' : Shared} {db db' : Db}

/-! ## §1 — The two reads. -/

/-- What `receipt_for_upload` makes of a snapshot and its manifest. -/
def snapshotReceipt (cfg : Config) (snapshot : SnapshotRow) (manifest : ManifestRow) :
    Except ApiError Receipt := do
  let artifactCount ← unsignedColumn snapshot.artifactCount
  let totalOriginalBytes ← unsignedColumn snapshot.totalOriginalSizeBytes
  let totalStoredBytes ← unsignedColumn snapshot.totalStoredSizeBytes
  pure ⟨2, cfg.archiveInstanceId, ownerNamespace, snapshot.id, snapshot.sessionId,
    digestDocumentValue snapshot.fingerprintSha256, digestDocumentValue manifest.sha256,
    artifactCount, totalOriginalBytes, totalStoredBytes, snapshot.completedAt⟩

/-- The receipt of an upload as the database has it. -/
def Db.receipt (cfg : Config) (db : Db) (uploadId : String) : Except ApiError Receipt := do
  let (snapshot, manifest) ←
    okOr (db.receiptRow uploadId) (.notFound "snapshot_not_found" "snapshot was not found")
  snapshotReceipt cfg snapshot manifest

/-- What `tombstone_response` makes of its join. -/
def tombstoneDocument (cfg : Config) (row : TombstoneRow) (audit : DeletionAuditRow)
    (snapshot : SnapshotRow) (captureCount : ℕ) : Except ApiError TombstoneResponse := do
  let artifactCount ← unsignedColumn snapshot.artifactCount
  let totalOriginalBytes ← unsignedColumn snapshot.totalOriginalSizeBytes
  let totalStoredBytes ← unsignedColumn snapshot.totalStoredSizeBytes
  pure
    { tombstoneId := row.id
      deletionAuditId := audit.id
      ownerNamespace := row.ownerNamespace
      sessionId := row.sessionId
      snapshotId := row.snapshotId
      snapshotFingerprint := digestDocumentValue row.snapshotFingerprintSha256
      manifestSha256 := digestDocumentValue row.manifestSha256
      snapshotCompletedAt := row.snapshotCompletedAt
      deletedAt := row.deletedAt
      deletedAtSortKey := row.deletedAtSeq
      reason := row.reason
      captureCount := captureCount
      rearchivedSnapshotId := row.rearchivedSnapshotId
      rearchivedSnapshotUrl := row.rearchivedSnapshotId.map ("/api/v1/snapshots/" ++ ·)
      historicalReceipt := ⟨2, cfg.archiveInstanceId, row.ownerNamespace, row.snapshotId,
        row.sessionId, digestDocumentValue row.snapshotFingerprintSha256,
        digestDocumentValue row.manifestSha256, artifactCount, totalOriginalBytes,
        totalStoredBytes, row.snapshotCompletedAt⟩ }

/-- The tombstone's answer as the database has it. -/
def Db.tombstone (cfg : Config) (db : Db) (snapshotId : String) :
    Except ApiError TombstoneResponse := do
  let (row, audit, snapshot, captureCount) ← okOr (db.tombstoneJoin snapshotId)
    (.notFound "tombstone_not_found" "tombstone was not found")
  tombstoneDocument cfg row audit snapshot captureCount

/-- A read and a check of what it found are one read. -/
theorem query_bind_check {κ α β : Type} (onFault : κ) (f : Db → Except κ α)
    (g : α → Except κ β) :
    (query onFault f >>= fun x => check (g x)) = query onFault fun db => f db >>= g := by
  apply ExceptT.ext
  show Prog.act _ _ _ _ = Prog.act _ _ _ _
  congr 1
  · funext t e s
    dsimp only
    cases e.fault <;> rfl
  · funext t e s
    dsimp only
    cases e.fault with
    | some fault => rfl
    | none =>
      show Prog.bind (Prog.done (f s.db)) _ = Prog.done (f s.db >>= g)
      cases f s.db <;> rfl

/-- Three columns read one after the other are one check. -/
theorem check_columns {α : Type} (x y z : Except ApiError ℕ) (f : ℕ → ℕ → ℕ → α) :
    (do
      let a ← check x
      let b ← check y
      let d ← check z
      pure (f a b d) : Handler ApiError α) =
    check (do
      let a ← x
      let b ← y
      let d ← z
      pure (f a b d)) := by
  cases x <;> cases y <;> cases z <;> rfl

theorem receiptForUpload_eq (uploadId : String) : receiptForUpload cfg uploadId =
    query .database fun db => db.receipt cfg uploadId := by
  refine Eq.trans ?_ (query_bind_check .database _ fun row : SnapshotRow × ManifestRow =>
    snapshotReceipt cfg row.1 row.2)
  unfold receiptForUpload
  refine congrArg (Bind.bind (m := Handler ApiError) _) (funext fun row => ?_)
  exact check_columns _ _ _ _

theorem tombstoneResponse_eq (snapshotId : String) : tombstoneResponse cfg snapshotId =
    query .database fun db => db.tombstone cfg snapshotId := by
  refine Eq.trans ?_ (query_bind_check .database _ fun row :
    TombstoneRow × DeletionAuditRow × SnapshotRow × ℕ =>
      tombstoneDocument cfg row.1 row.2.1 row.2.2.1 row.2.2.2)
  unfold tombstoneResponse
  refine congrArg (Bind.bind (m := Handler ApiError) _) (funext fun row => ?_)
  exact check_columns _ _ _ _

/-! ## §2 — What the rows keep. -/

/-- A snapshot row without the mark of its deletion. -/
def SnapshotRow.fixed (r : SnapshotRow) : SnapshotRow := { r with deletedAt := none }

/-- A tombstone without the link to a later snapshot. -/
def TombstoneRow.fixed (t : TombstoneRow) : TombstoneRow := { t with rearchivedSnapshotId := none }

/-- The tombstone records the snapshot and the digest of its manifest. -/
structure TombstoneRow.Records (t : TombstoneRow) (r : SnapshotRow) (manifestSha256 : String) :
    Prop where
  snapshotId : t.snapshotId = r.id
  ownerNamespace : t.ownerNamespace = r.ownerNamespace
  sessionId : t.sessionId = r.sessionId
  fingerprint : t.snapshotFingerprintSha256 = r.fingerprintSha256
  manifest : t.manifestSha256 = manifestSha256
  completedAt : t.snapshotCompletedAt = r.completedAt

/-- **`Receipted db r manifestSha256`** — everything a receipt for the snapshot is computed from is
there: columns that can be read, and its manifest while it lives, its tombstone and audit after. -/
structure Receipted (db : Db) (r : SnapshotRow) (manifestSha256 : String) : Prop where
  counts : 0 ≤ r.artifactCount ∧ 0 ≤ r.totalOriginalSizeBytes ∧ 0 ≤ r.totalStoredSizeBytes
  owner : r.ownerNamespace = ownerNamespace
  live : r.live = true → ∃ m ∈ db.manifests, m.id = r.manifestId ∧ m.sha256 = manifestSha256
  dead : r.live = false → ∃ t ∈ db.tombstones, t.Records r manifestSha256 ∧
    ∃ a ∈ db.deletionAudits, a.tombstoneId = t.id

/-- Every snapshot has its receipt, and every completed upload its snapshot. -/
structure Db.Receipts (db : Db) : Prop where
  receipted : ∀ r ∈ db.snapshots, ∃ manifestSha256, Receipted db r manifestSha256
  completed : ∀ u ∈ db.uploads, u.status = .completed → ∃ r ∈ db.snapshots, u.snapshotId = some r.id

/-- The snapshot is still there, whether or not it was deleted since, and has the same receipt. -/
def KeepsReceipts (db db' : Db) : Prop :=
  ∀ r ∈ db.snapshots, ∀ manifestSha256, Receipted db r manifestSha256 →
    ∃ r' ∈ db'.snapshots, r'.fixed = r.fixed ∧ Receipted db' r' manifestSha256

/-- A change that removes nothing a receipt is computed from. -/
structure Db.Retains (db db' : Db) : Prop where
  snapshots : ∀ r ∈ db.snapshots, r ∈ db'.snapshots
  manifests : ∀ m ∈ db.manifests, (∃ r ∈ db.snapshots, r.manifestId = m.id) → m ∈ db'.manifests
  tombstones : ∀ t ∈ db.tombstones, ∃ t' ∈ db'.tombstones, t'.fixed = t.fixed
  audits : ∀ a ∈ db.deletionAudits, a ∈ db'.deletionAudits

theorem Db.Retains.refl (db : Db) : db.Retains db :=
  ⟨fun _ hr => hr, fun _ hm _ => hm, fun t ht => ⟨t, ht, rfl⟩, fun _ ha => ha⟩

theorem TombstoneRow.Records.of_fixed {t t' : TombstoneRow} {r : SnapshotRow}
    {manifestSha256 : String} (h : t.Records r manifestSha256) (hfixed : t'.fixed = t.fixed) :
    t'.Records r manifestSha256 := by
  simp only [TombstoneRow.fixed, TombstoneRow.mk.injEq] at hfixed
  obtain ⟨-, howner, hsession, hsnapshot, hfingerprint, hmanifest, hcompleted, -⟩ := hfixed
  exact ⟨hsnapshot.trans h.snapshotId, howner.trans h.ownerNamespace, hsession.trans h.sessionId,
    hfingerprint.trans h.fingerprint, hmanifest.trans h.manifest, hcompleted.trans h.completedAt⟩

theorem TombstoneRow.id_of_fixed {t t' : TombstoneRow} (h : t'.fixed = t.fixed) : t'.id = t.id := by
  simp only [TombstoneRow.fixed, TombstoneRow.mk.injEq] at h
  exact h.1

theorem Db.Retains.receipted (h : db.Retains db') {r : SnapshotRow} (hr : r ∈ db.snapshots)
    {manifestSha256 : String} (hreceipt : Receipted db r manifestSha256) :
    Receipted db' r manifestSha256 := by
  refine { hreceipt with live := fun hlive => ?_, dead := fun hdead => ?_ }
  · obtain ⟨m, hm, hid, hsha⟩ := hreceipt.live hlive
    exact ⟨m, h.manifests m hm ⟨r, hr, hid.symm⟩, hid, hsha⟩
  · obtain ⟨t, ht, hrecords, a, ha, haid⟩ := hreceipt.dead hdead
    obtain ⟨t', ht', hfixed⟩ := h.tombstones t ht
    exact ⟨t', ht', hrecords.of_fixed hfixed, a, h.audits a ha,
      haid.trans (TombstoneRow.id_of_fixed hfixed).symm⟩

theorem Db.Retains.keepsReceipts (h : db.Retains db') : KeepsReceipts db db' :=
  fun r hr _ hreceipt => ⟨r, h.snapshots r hr, rfl, h.receipted hr hreceipt⟩

/-- Linking a tombstone to the next snapshot leaves what it records. -/
theorem linkedTombstones_fixed {snapshotId : String} {prior : Option TombstoneRow}
    {tombstones : List TombstoneRow} {t : TombstoneRow} (ht : t ∈ tombstones) :
    ∃ t' ∈ linkedTombstones snapshotId prior tombstones, t'.fixed = t.fixed := by
  have hmap := linkedTombstones_map TombstoneRow.fixed (fun _ _ => rfl) snapshotId prior tombstones
  have hmem : t.fixed ∈ (linkedTombstones snapshotId prior tombstones).map TombstoneRow.fixed := by
    rw [hmap]
    exact List.mem_map_of_mem ht
  exact List.mem_map.mp hmem

/-! ## §3 — Every step keeps it. -/

/-- A deletion moves what the receipt is computed from to the tombstone. -/
theorem keepsReceipts_deleted (x : DeletionRecord) {snapshot : SnapshotRow} {manifest : ManifestRow}
    (hunique : db.Unique) (hmem : snapshot ∈ db.snapshots) (hlive : snapshot.live = true)
    (hmanifest : manifest ∈ db.manifests) (hid : manifest.id = snapshot.manifestId)
    (hs : db'.snapshots = updateWhere (fun r => decide (r.id = snapshot.id) && r.live)
      (fun r => { r with deletedAt := some x.deletedAt }) db.snapshots)
    (hm : db'.manifests = db.manifests)
    (ht : db'.tombstones = db.tombstones ++ [tombstoneRow x snapshot manifest])
    (ha : db'.deletionAudits = db.deletionAudits ++ [deletionAuditRow x snapshot manifest]) :
    KeepsReceipts db db' := by
  intro r hr manifestSha256 hreceipt
  by_cases hsel : r.id = snapshot.id
  · obtain rfl := hunique.snapshots.eq_of_mem hr hmem hsel
    obtain ⟨m, hmmem, hmid, hsha⟩ := hreceipt.live hlive
    obtain rfl := hunique.manifestIds.eq_of_mem hmmem hmanifest (hmid.trans hid.symm)
    refine ⟨{ r with deletedAt := some x.deletedAt }, ?_, rfl, ?_⟩
    · rw [hs]
      refine mem_updateWhere.mpr ⟨r, hmem, ?_⟩
      rw [if_pos (by simp [hlive])]
    · refine ⟨hreceipt.counts, hreceipt.owner, fun habsurd => ?_, fun _ => ?_⟩
      · exact absurd habsurd (by simp [SnapshotRow.live])
      · refine ⟨tombstoneRow x r m, ?_, ⟨rfl, rfl, rfl, rfl, hsha, rfl⟩,
          deletionAuditRow x r m, ?_, rfl⟩
        · rw [ht]
          exact List.mem_append_right _ List.mem_cons_self
        · rw [ha]
          exact List.mem_append_right _ List.mem_cons_self
  · refine ⟨r, ?_, rfl, { hreceipt with live := fun hl => ?_, dead := fun hdead => ?_ }⟩
    · rw [hs]
      exact Lib.mem_updateWhere_of_not hr (by simp [hsel])
    · rw [hm]
      exact hreceipt.live hl
    · obtain ⟨t, htmem, hrecords, a, hamem, haid⟩ := hreceipt.dead hdead
      rw [ht, ha]
      exact ⟨t, List.mem_append_left _ htmem, hrecords, a, List.mem_append_left _ hamem, haid⟩

/-- **`ReceiptStep`** — what a step does to what receipts are computed from. -/
structure ReceiptStep (db db' : Db) : Prop where
  keeps : KeepsReceipts db db'
  snapshots : ∀ r' ∈ db'.snapshots, (∃ r ∈ db.snapshots, r.id = r'.id) ∨
    ∃ manifestSha256, Receipted db' r' manifestSha256
  completed : ∀ u ∈ db'.uploads, u.status = .completed → u ∈ db.uploads ∨
    ∃ r ∈ db'.snapshots, u.snapshotId = some r.id

theorem SnapshotRow.id_of_fixed {r r' : SnapshotRow} (h : r'.fixed = r.fixed) : r'.id = r.id := by
  simp only [SnapshotRow.fixed, SnapshotRow.mk.injEq] at h
  exact h.1

theorem ReceiptStep.receipts (h : ReceiptStep db db')
    (hunique' : UniqueOn SnapshotRow.id db'.snapshots)
    (hr : db.Receipts) : db'.Receipts := by
  refine ⟨fun r' hr' => ?_, fun u hu hdone => ?_⟩
  · rcases h.snapshots r' hr' with ⟨r, hmem, hid⟩ | hreceipt
    · obtain ⟨manifestSha256, hreceipt⟩ := hr.receipted r hmem
      obtain ⟨r'', hr'', hfixed, hreceipt'⟩ := h.keeps r hmem manifestSha256 hreceipt
      have hsame := hunique'.eq_of_mem hr'' hr' ((SnapshotRow.id_of_fixed hfixed).trans hid)
      exact ⟨manifestSha256, hsame ▸ hreceipt'⟩
    · exact hreceipt
  · rcases h.completed u hu hdone with hu | hsnapshot
    · obtain ⟨r, hmem, hid⟩ := hr.completed u hu hdone
      obtain ⟨manifestSha256, hreceipt⟩ := hr.receipted r hmem
      obtain ⟨r', hr', hfixed, -⟩ := h.keeps r hmem manifestSha256 hreceipt
      exact ⟨r', hr', hid.trans (congrArg some (SnapshotRow.id_of_fixed hfixed).symm)⟩
    · exact hsnapshot

/-- A change that adds no snapshot and completes no upload. -/
theorem Db.Retains.receiptStep (h : db.Retains db') (hs : db'.snapshots = db.snapshots)
    (hu : ∀ u ∈ db'.uploads, u.status = .completed → u ∈ db.uploads) : ReceiptStep db db' where
  keeps := h.keepsReceipts
  snapshots := fun r' hr' => Or.inl ⟨r', hs ▸ hr', rfl⟩
  completed := fun u hmem hdone => Or.inl (hu u hmem hdone)

/-- An upload that is completed now was completed before, or with this snapshot. -/
theorem completed_of_completedUploads {x : Completing} {snapshotId : String}
    {newlyPersistedBytes : ℤ} {uploads : List UploadRow} {snapshots : List SnapshotRow}
    {snapshot : SnapshotRow} (hmem : snapshot ∈ snapshots) (hid : snapshot.id = snapshotId)
    {u : UploadRow} (hu : u ∈ completedUploads x snapshotId newlyPersistedBytes uploads) :
    u ∈ uploads ∨ ∃ r ∈ snapshots, u.snapshotId = some r.id := by
  rcases of_mem_completedUploads hu with ⟨hu, -⟩ | ⟨v, -, -, -, rfl⟩
  · exact Or.inl hu
  · exact Or.inr ⟨snapshot, hmem, congrArg some hid.symm⟩

/-- Uploads given another status than completed are not among the completed ones. -/
theorem completed_of_updateWhere {select : UploadRow → Bool} {f : UploadRow → UploadRow}
    {uploads : List UploadRow} (hf : ∀ v, (f v).status ≠ .completed) {u : UploadRow}
    (hu : u ∈ updateWhere select f uploads) (hdone : u.status = .completed) : u ∈ uploads := by
  obtain ⟨v, hv, rfl⟩ := mem_updateWhere.mp hu
  split at hdone
  · exact absurd hdone (hf v)
  · next hsel =>
    rw [if_neg hsel]
    exact hv

theorem Effect.receiptStep {mode : Mode} {t : TaskId} {ids : List String}
    (h : Effect c cfg mode t s ids db) (hunique : s.db.Unique) : ReceiptStep s.db db := by
  have hrefl := Db.Retains.refl s.db
  cases h with
  | created new row hnew hsession hreuse hfree hfresh hrow hrows =>
    refine Db.Retains.receiptStep { hrefl with
      manifests := fun m hm _ => List.mem_append_left _ hm } rfl fun u hu hdone => ?_
    rcases List.mem_append.mp hu with hu | hu
    · exact hu
    · obtain ⟨-, -, -, -, -, -, hactive, -, -⟩ := newUploadRow_ok hrow
      rw [List.mem_singleton.mp hu] at hdone
      exact absurd hdone hactive
  | ended upload current reason terminalAt hmem hfixed hactive hfree =>
    simp only [Db.uploadReferenced, Bool.or_eq_false_iff, List.any_eq_false, decide_eq_true_eq,
      Bool.and_eq_true, Bool.or_eq_true, List.any_eq_true, not_and, not_or, not_exists] at hfree
    refine Db.Retains.receiptStep { hrefl with manifests := fun m hm href => ?_ } rfl
      fun u hu _ => List.mem_of_mem_filter hu
    -- the manifest of a snapshot is referred to, so it is not among those removed
    obtain ⟨r, hr, hmid⟩ := href
    refine List.mem_filter.mpr ⟨hm, decide_eq_true fun hsame => ?_⟩
    exact (hfree.2 m hm hsame).1 r hr hmid
  | status uploadId complete =>
    refine Db.Retains.receiptStep { hrefl with } rfl fun u => completed_of_updateWhere fun v => ?_
    dsimp only
    split <;> simp
  | attached x snapshot manifestRow hx hattach hsnapshot hlive hsession hfingerprint hseq
      hcontextSeq hcontexts =>
    refine ⟨Db.Retains.keepsReceipts { hrefl with }, fun r' hr' => Or.inl ⟨r', hr', rfl⟩,
      fun u hu _ => ?_⟩
    exact completed_of_completedUploads hsnapshot rfl hu
  | recorded x row manifestRow blobIds hx hattach hblobs hrow hfresh hfree hrows hcontexts =>
    obtain ⟨original, stored, -, -, rfl⟩ := snapshotRow_ok hrow
    refine ⟨Db.Retains.keepsReceipts ⟨fun r hr => List.mem_append_left _ hr, fun m hm _ => hm,
      fun t ht => linkedTombstones_fixed ht, fun a ha => ha⟩, fun r' hr' => ?_, fun u hu _ => ?_⟩
    · rcases List.mem_append.mp hr' with hr' | hr'
      · exact Or.inl ⟨r', hr', rfl⟩
      · obtain rfl := List.mem_singleton.mp hr'
        refine Or.inr ⟨manifestRow.sha256, ⟨?_, ?_, ?_⟩, rfl, fun _ => ?_, fun hdead => ?_⟩
        · exact Int.natCast_nonneg _
        · exact Int.natCast_nonneg _
        · exact Int.natCast_nonneg _
        · exact ⟨manifestRow, hattach.manifest, rfl, rfl⟩
        · exact absurd hdead (by simp [SnapshotRow.live])
    · exact completed_of_completedUploads (List.mem_append_right _ List.mem_cons_self) rfl hu
  | deleted x snapshot manifest hx hrow hlive hfresh =>
    rw [foldl_scheduleOrClearBlobCandidate]
    obtain ⟨hmem, hid, hmanifest, hmid⟩ := Db.snapshotDeletionRow_some hrow
    refine ⟨keepsReceipts_deleted x hunique hmem hlive hmanifest hmid rfl rfl rfl rfl,
      fun r' hr' => ?_, fun u hu _ => Or.inl hu⟩
    obtain ⟨r, hr, rfl⟩ := mem_updateWhere.mp hr'
    refine Or.inl ⟨r, hr, ?_⟩
    split <;> rfl
  | _ => exact Db.Retains.receiptStep { hrefl with } rfl fun _ hu _ => hu

theorem DbMoved.receiptStep (h : DbMoved c cfg s s') (hs : Archive c s) :
    ReceiptStep s.db s'.db := by
  have hrefl := Db.Retains.refl s.db
  cases h with
  | stays hdb hused =>
    rw [hdb]
    exact hrefl.receiptStep rfl fun _ hu _ => hu
  | writes hids heffect hused => exact heffect.receiptStep hs.inv.unique
  | collects hcollects hused =>
    obtain ⟨row, -, -, heq⟩ := hcollects
    rw [heq]
    exact Db.Retains.receiptStep { hrefl with } rfl fun _ hu _ => hu
  | chunks keep hdb hused =>
    rw [hdb]
    exact Db.Retains.receiptStep { hrefl with } rfl fun _ hu _ => hu
  | legacy uploadId artifact chunkSize now expiresAt hactive hdb hused =>
    rw [hdb]
    refine Db.Retains.receiptStep { hrefl with } rfl fun u => completed_of_updateWhere fun v => ?_
    dsimp only
    split <;> simp
  | contexts hdb hused =>
    rw [hdb]
    exact Db.Retains.receiptStep { hrefl with } rfl fun _ hu _ => hu

/-- A completed upload keeps its row. -/
theorem DbMoved.completed_kept (h : DbMoved c cfg s s') (hs : Archive c s) {u : UploadRow}
    (hu : u ∈ s.db.uploads) (hdone : u.status = .completed) : u ∈ s'.db.uploads := by
  cases h with
  | stays hdb hused => exact hdb ▸ hu
  | writes hids heffect hused =>
    generalize s'.db = db at heffect ⊢
    cases heffect with
    | created new row hnew hsession hreuse hfree hfresh hrow hrows =>
        exact List.mem_append_left _ hu
    | ended upload current reason terminalAt hmem hfixed hactive hfree =>
      refine List.mem_filter.mpr ⟨hu, decide_eq_true fun hsame => hactive ?_⟩
      have hid := hsame.trans (UploadRow.id_of_fixed hfixed).symm
      rwa [← hs.inv.unique.uploads.eq_of_mem hu hmem hid]
    | status uploadId complete =>
      apply Lib.mem_updateWhere_of_not hu
      simp [UploadRowStatus.active, hdone]
    | attached x snapshot manifestRow hx hattach hsnapshot hlive hsession hfingerprint hseq
        hcontextSeq hcontexts => exact mem_completedUploads hu hdone
    | recorded x row manifestRow blobIds hx hattach hblobs hrow hfresh hfree hrows hcontexts =>
      exact mem_completedUploads hu hdone
    | deleted x snapshot manifest hx hrow hlive hfresh =>
      rw [foldl_scheduleOrClearBlobCandidate]
      exact hu
    | _ => exact hu
  | collects hcollects hused =>
    obtain ⟨row, -, -, heq⟩ := hcollects
    rw [heq]
    exact hu
  | chunks keep hdb hused => exact hdb ▸ hu
  | legacy uploadId artifact chunkSize now expiresAt hactive hdb hused =>
    rw [hdb]
    apply Lib.mem_updateWhere_of_not hu
    exact decide_eq_false fun hid => hactive u hu hid hdone
  | contexts hdb hused => exact hdb ▸ hu

/-! ## §4 — One receipt. -/

variable {sqlite : SqliteChecks} {m m' : Moment}

theorem Db.Receipts.empty : Db.empty.Receipts := by
  constructor <;> simp [Db.empty]

theorem Life.receipts (h : Life c cfg sqlite m) : m.state.db.Receipts :=
  h.keeps Db.Receipts.empty fun hs hs' hmoved hr =>
    (hmoved.receiptStep hs).receipts hs'.inv.unique.snapshots hr

/-- However an archive goes on, a snapshot keeps its receipt. -/
theorem Life.keepsReceipts (h : Life c cfg sqlite m)
    (hlater : Relation.ReflTransGen (LifeStep c cfg sqlite) m m') :
    KeepsReceipts m.state.db m'.state.db := by
  induction hlater with
  | refl => exact fun r hr _ hreceipt => ⟨r, hr, rfl, hreceipt⟩
  | tail hsteps hnext ih =>
    have hgood := Life.good (h.trans hsteps)
    have hstep := ((hnext.good hgood).2.dbMoved hgood.archive).receiptStep hgood.archive
    intro r hr manifestSha256 hreceipt
    obtain ⟨r₁, hr₁, hfixed₁, hreceipt₁⟩ := ih r hr manifestSha256 hreceipt
    obtain ⟨r₂, hr₂, hfixed₂, hreceipt₂⟩ := hstep.keeps r₁ hr₁ manifestSha256 hreceipt₁
    exact ⟨r₂, hr₂, hfixed₂.trans hfixed₁, hreceipt₂⟩

/-- The receipt of a snapshot with this manifest digest. -/
def receiptOf (cfg : Config) (r : SnapshotRow) (manifestSha256 : String) : Receipt :=
  ⟨2, cfg.archiveInstanceId, ownerNamespace, r.id, r.sessionId,
    digestDocumentValue r.fingerprintSha256, digestDocumentValue manifestSha256,
    r.artifactCount.toNat, r.totalOriginalSizeBytes.toNat, r.totalStoredSizeBytes.toNat,
    r.completedAt⟩

theorem receiptOf_fixed {r r' : SnapshotRow} (h : r'.fixed = r.fixed) (manifestSha256 : String) :
    receiptOf cfg r' manifestSha256 = receiptOf cfg r manifestSha256 := by
  simp only [SnapshotRow.fixed, SnapshotRow.mk.injEq] at h
  obtain ⟨hid, -, hsession, -, hfingerprint, hcompleted, -, hcount, horiginal, hstored, -⟩ := h
  unfold receiptOf
  rw [hid, hsession, hfingerprint, hcompleted, hcount, horiginal, hstored]

/-- While the snapshot lives, its uploads are answered with its receipt. -/
theorem Receipted.receipt {r : SnapshotRow} {manifestSha256 : String}
    (h : Receipted db r manifestSha256) (hunique : db.Unique) (hr : r ∈ db.snapshots)
    (hlive : r.live = true) {u : UploadRow} (hu : u ∈ db.uploads) (hdone : u.status = .completed)
    (hid : u.snapshotId = some r.id) :
    db.receipt cfg u.id = .ok (receiptOf cfg r manifestSha256) := by
  obtain ⟨m, hm, hmid, hsha⟩ := h.live hlive
  have hupload : db.uploads.find? (fun x => decide (x.id = u.id ∧ x.status = .completed)) =
      some u := by
    cases hfind : db.uploads.find? (fun x => decide (x.id = u.id ∧ x.status = .completed)) with
    | none => exact absurd (decide_eq_true ⟨rfl, hdone⟩) (List.find?_eq_none.mp hfind u hu)
    | some v =>
      have hv : v.id = u.id ∧ v.status = .completed := by simpa using List.find?_some hfind
      rw [hunique.uploads.eq_of_mem (List.mem_of_find?_eq_some hfind) hu hv.1]
  have hsnapshot : db.snapshot r.id = some r := Lib.find?_unique hunique.snapshots hr
  have hmanifest : db.manifest r.manifestId = some m := by
    rw [← hmid]
    exact Lib.find?_unique hunique.manifestIds hm
  have hrow : db.receiptRow u.id = some (r, m) := by
    rw [Db.receiptRow, hupload]
    simp [hid, hsnapshot, hmanifest, hlive]
  obtain ⟨hcount, horiginal, hstored⟩ := h.counts
  show (okOr (db.receiptRow u.id) _ >>= fun row => snapshotReceipt cfg row.1 row.2) = _
  rw [hrow, ← hsha]
  show snapshotReceipt cfg r m = _
  unfold snapshotReceipt
  rw [unsignedColumn_total hcount, unsignedColumn_total horiginal, unsignedColumn_total hstored]
  rfl

/-- Once the snapshot is deleted, its tombstone answers with its receipt. -/
theorem Receipted.tombstone {r : SnapshotRow} {manifestSha256 : String}
    (h : Receipted db r manifestSha256) (hunique : db.Unique) (hdeletions : db.Deletions)
    (hr : r ∈ db.snapshots) (hdead : r.live = false) : ∃ response,
      db.tombstone cfg r.id = .ok response ∧
        response.historicalReceipt = receiptOf cfg r manifestSha256 := by
  obtain ⟨t, ht, hrecords, a, ha, haid⟩ := h.dead hdead
  have htombstone : db.tombstones.find? (fun x => decide (x.snapshotId = r.id)) = some t := by
    rw [← hrecords.snapshotId]
    exact Lib.find?_unique hdeletions.tombstonesOnce ht
  obtain ⟨audit, haudit⟩ : ∃ audit,
      db.deletionAudits.find? (fun x => decide (x.tombstoneId = t.id)) = some audit := by
    rw [← Option.isSome_iff_exists, List.find?_isSome]
    exact ⟨a, ha, decide_eq_true haid⟩
  have hsnapshot : db.snapshot t.snapshotId = some r := by
    rw [hrecords.snapshotId]
    exact Lib.find?_unique hunique.snapshots hr
  have hjoin : db.tombstoneJoin r.id = some (t, audit, r,
      (db.captures.filter fun x => decide (x.snapshotId = t.snapshotId)).length) := by
    simp [Db.tombstoneJoin, htombstone, haudit, hsnapshot]
  obtain ⟨hcount, horiginal, hstored⟩ := h.counts
  have hread (count : ℕ) : ∃ response, tombstoneDocument cfg t audit r count = .ok response ∧
      response.historicalReceipt = receiptOf cfg r manifestSha256 := by
    unfold tombstoneDocument receiptOf
    rw [unsignedColumn_total hcount, unsignedColumn_total horiginal, unsignedColumn_total hstored,
      ← hrecords.manifest, ← hrecords.completedAt, ← hrecords.snapshotId, ← hrecords.sessionId,
      ← hrecords.fingerprint, ← h.owner, ← hrecords.ownerNamespace]
    exact ⟨_, rfl, rfl⟩
  show ∃ response, (okOr (db.tombstoneJoin r.id) _ >>= fun row =>
    tombstoneDocument cfg row.1 row.2.1 row.2.2.1 row.2.2.2) = .ok response ∧ _
  rw [hjoin]
  exact hread _

/-- A snapshot has one receipt. -/
theorem Receipted.eq {r : SnapshotRow} {a b : String} (ha : Receipted db r a)
    (hb : Receipted db r b) (hunique : db.Unique) (hdeletions : db.Deletions) : a = b := by
  cases hlive : r.live with
  | true =>
    obtain ⟨m, hm, hid, rfl⟩ := ha.live hlive
    obtain ⟨m', hm', hid', rfl⟩ := hb.live hlive
    rw [hunique.manifestIds.eq_of_mem hm hm' (hid.trans hid'.symm)]
  | false =>
    obtain ⟨t, ht, hrecords, -⟩ := ha.dead hlive
    obtain ⟨t', ht', hrecords', -⟩ := hb.dead hlive
    obtain rfl := hdeletions.tombstonesOnce.eq_of_mem ht ht'
      (hrecords.snapshotId.trans hrecords'.snapshotId.symm)
    exact hrecords.manifest.symm.trans hrecords'.manifest

/-- **`HasReceipt`** — the receipt everything about this snapshot is answered with. -/
def HasReceipt (cfg : Config) (db : Db) (snapshotId : String) (receipt : Receipt) : Prop :=
  ∃ r ∈ db.snapshots, r.id = snapshotId ∧
    ∃ manifestSha256, Receipted db r manifestSha256 ∧ receipt = receiptOf cfg r manifestSha256

namespace HasReceipt

variable {snapshotId : String} {receipt receipt' : Receipt}

theorem snapshotId_eq (h : HasReceipt cfg db snapshotId receipt) :
    receipt.snapshotId = snapshotId := by
  obtain ⟨r, -, hid, manifestSha256, -, rfl⟩ := h
  exact hid

theorem eq (h : HasReceipt cfg db snapshotId receipt) (h' : HasReceipt cfg db snapshotId receipt')
    (hunique : db.Unique) (hdeletions : db.Deletions) : receipt = receipt' := by
  obtain ⟨r, hr, hid, a, ha, rfl⟩ := h
  obtain ⟨r', hr', hid', b, hb, rfl⟩ := h'
  obtain rfl := hunique.snapshots.eq_of_mem hr hr' (hid.trans hid'.symm)
  rw [ha.eq hb hunique hdeletions]

theorem later (h : HasReceipt cfg db snapshotId receipt) (hkeeps : KeepsReceipts db db') :
    HasReceipt cfg db' snapshotId receipt := by
  obtain ⟨r, hr, hid, manifestSha256, hreceipt, rfl⟩ := h
  obtain ⟨r', hr', hfixed, hreceipt'⟩ := hkeeps r hr manifestSha256 hreceipt
  exact ⟨r', hr', (SnapshotRow.id_of_fixed hfixed).trans hid, manifestSha256, hreceipt',
    (receiptOf_fixed hfixed manifestSha256).symm⟩

end HasReceipt

/-- Whatever a completion reads for an upload is the receipt of the upload's snapshot. -/
theorem Db.Receipts.of_receipt (h : db.Receipts) (hunique : db.Unique) {uploadId : String}
    {receipt : Receipt} (hread : db.receipt cfg uploadId = .ok receipt) :
    ∃ u ∈ db.uploads, u.id = uploadId ∧ u.status = .completed ∧
      ∃ snapshotId, u.snapshotId = some snapshotId ∧ HasReceipt cfg db snapshotId receipt := by
  obtain ⟨⟨r, m⟩, hrow, -⟩ := bind_eq_ok.mp hread
  have hjoin := okOr_eq_ok.mp hrow
  simp only [Db.receiptRow, Option.bind_eq_bind, Option.bind_eq_some_iff,
    Option.ite_none_right_eq_some] at hjoin
  obtain ⟨u, hfind, snapshotId, hsnapshotId, r', hsnapshot, m', -, hlive, -⟩ := hjoin
  have hu := List.mem_of_find?_eq_some hfind
  obtain ⟨hid, hdone⟩ : u.id = uploadId ∧ u.status = .completed := by
    simpa using List.find?_some hfind
  have hr' := List.mem_of_find?_eq_some hsnapshot
  have hrid : r'.id = snapshotId := by simpa using List.find?_some hsnapshot
  obtain ⟨manifestSha256, hreceipt⟩ := h.receipted r' hr'
  refine ⟨u, hu, hid, hdone, snapshotId, hsnapshotId, r', hr', hrid, manifestSha256, hreceipt, ?_⟩
  have hsame : db.receipt cfg u.id = .ok (receiptOf cfg r' manifestSha256) :=
    hreceipt.receipt hunique hr' hlive hu hdone (hrid ▸ hsnapshotId)
  rw [hid, hread] at hsame
  exact Except.ok.inj hsame

/-- Whatever is read of a tombstone carries the receipt of its snapshot. -/
theorem Db.Receipts.of_tombstone (h : db.Receipts) (hunique : db.Unique)
    (hdeletions : db.Deletions) {snapshotId : String} {response : TombstoneResponse}
    (hread : db.tombstone cfg snapshotId = .ok response) :
    HasReceipt cfg db snapshotId response.historicalReceipt := by
  obtain ⟨⟨t, audit, snapshot, captureCount⟩, hrow, -⟩ := bind_eq_ok.mp hread
  have hjoin := okOr_eq_ok.mp hrow
  simp only [Db.tombstoneJoin, Option.bind_eq_bind, Option.bind_eq_some_iff] at hjoin
  obtain ⟨t', hfind, -⟩ := hjoin
  have hid : t'.snapshotId = snapshotId := by simpa using List.find?_some hfind
  obtain ⟨r, hr, hrid, hdead⟩ := hdeletions.tombstones t' (List.mem_of_find?_eq_some hfind)
  obtain ⟨manifestSha256, hreceipt⟩ := h.receipted r hr
  refine ⟨r, hr, hrid.trans hid, manifestSha256, hreceipt, ?_⟩
  obtain ⟨response', hsame, hhistorical⟩ : ∃ response',
      db.tombstone cfg r.id = .ok response' ∧
        response'.historicalReceipt = receiptOf cfg r manifestSha256 :=
    hreceipt.tombstone hunique hdeletions hr hdead
  rw [hrid.trans hid, hread] at hsame
  rw [Except.ok.inj hsame, hhistorical]

/-- However an archive goes on, a completed upload keeps its row. -/
theorem Life.keepsCompleted (h : Life c cfg sqlite m)
    (hlater : Relation.ReflTransGen (LifeStep c cfg sqlite) m m') {u : UploadRow}
    (hu : u ∈ m.state.db.uploads) (hdone : u.status = .completed) : u ∈ m'.state.db.uploads := by
  induction hlater with
  | refl => exact hu
  | tail hsteps hnext ih =>
    have hgood := Life.good (h.trans hsteps)
    exact ((hnext.good hgood).2.dbMoved hgood.archive).completed_kept hgood.archive ih hdone

/-! ## §5 — The answers. -/

section Given

variable {t : TaskId} {I : Env → Shared → Prop}

/-- The answer of a completion names its upload and carries the receipt that one of the states it
has seen has for it. -/
def ReceiptRead (cfg : Config) (I : Env → Shared → Prop) (uploadId : String)
    (r : CompletionResponse) : Prop :=
  r.uploadId = uploadId ∧ ∃ e s, I e s ∧ s.db.receipt cfg uploadId = .ok r.receipt

theorem given_completionForUpload (uploadId : String) :
    GivenE I t (completionForUpload c cfg uploadId) (ReceiptRead cfg I uploadId)
      fun _ => True := by
  unfold completionForUpload
  rw [receiptForUpload_eq]
  refine GivenE.bind
    (Q := fun receipt => ∃ e s, I e s ∧ s.db.receipt cfg uploadId = .ok receipt)
    (given_query fun e s hi receipt h => ⟨e, s, hi, h⟩) fun receipt hreceipt => ?_
  refine GivenE.bind (Q := fun transfer => transfer.id = uploadId)
    (given_query fun e s _ row hrow => ?_) fun transfer htransfer => ?_
  · have hrow := List.find?_some (okOr_eq_ok.mp hrow)
    exact (of_decide_eq_true hrow).1
  refine GivenE.bind (GivenE.trivial _) fun capture _ => ?_
  refine GivenE.bind (GivenE.trivial _) fun transferBytes _ => ?_
  refine GivenE.bind (GivenE.trivial _) fun newlyPersisted _ => ?_
  exact GivenE.pure ⟨htransfer, hreceipt⟩

theorem given_completedResponse (uploadId : String) :
    GivenE I t (completedResponse c cfg uploadId) (ReceiptRead cfg I uploadId) fun _ => True :=
  GivenE.bind (GivenE.trivial _) fun _ _ => given_completionForUpload uploadId

theorem given_completeUnderBlobLocks (v : Verified) (unique : List PreparedArtifact)
    (locks : List Lock) :
    GivenE I t (completeUnderBlobLocks c cfg v unique locks) (ReceiptRead cfg I v.upload.id)
      fun _ => True := by
  refine GivenE.bind (GivenE.trivial _) fun compatible _ => ?_
  cases compatible with
  | error error => exact GivenE.bind (GivenE.trivial _) fun _ _ => GivenE.throw trivial
  | ok _ =>
  refine GivenE.bind (GivenE.trivial _) fun found _ => ?_
  cases found with
  | some snapshotId =>
    refine GivenE.bind (GivenE.trivial _) fun _ _ => GivenE.bind (GivenE.trivial _) fun _ _ => ?_
    exact GivenE.bind (GivenE.trivial _) fun _ _ => given_completedResponse _
  | none =>
    refine GivenE.bind (GivenE.trivial _) fun promoted _ => ?_
    cases promoted with
    | error error => exact GivenE.bind (GivenE.trivial _) fun _ _ => GivenE.throw trivial
    | ok promotions =>
      refine GivenE.bind (GivenE.trivial _) fun persisted _ => ?_
      refine GivenE.bind (GivenE.trivial _) fun recorded _ => ?_
      cases recorded with
      | error error =>
        refine GivenE.bind (GivenE.trivial _) fun _ _ => ?_
        exact GivenE.bind (GivenE.trivial _) fun _ _ => GivenE.throw trivial
      | ok _ => exact GivenE.bind (GivenE.trivial _) fun _ _ => given_completedResponse _

theorem given_completeVerified (v : Verified) :
    GivenE I t (completeVerified c cfg v) (ReceiptRead cfg I v.upload.id) fun _ => True := by
  rw [completeVerified_eq]
  refine GivenE.bind (GivenE.trivial _) fun compatible _ => ?_
  cases compatible with
  | error error => exact GivenE.bind (GivenE.trivial _) fun _ _ => GivenE.throw trivial
  | ok _ =>
    refine GivenE.bind (GivenE.trivial _) fun hit _ => ?_
    cases hit with
    | some snapshotId =>
      refine GivenE.bind (GivenE.trivial _) fun _ _ => GivenE.bind (GivenE.trivial _) fun _ _ => ?_
      exact given_completedResponse _
    | none =>
      exact GivenE.bind (GivenE.trivial _) fun _ _ => given_completeUnderBlobLocks v _ _

theorem given_requireActiveUpload (uploadId : String) :
    GivenE I t (requireActiveUpload c uploadId) (fun upload => upload.id = uploadId)
      fun _ => True := by
  refine GivenE.bind (Q := fun found => ∀ upload, found = some upload → upload.id = uploadId)
    (given_query fun e s _ found hfound upload hupload => ?_) fun found hfound => ?_
  · rw [← Except.ok.inj hfound] at hupload
    simpa using List.find?_some hupload
  · cases found with
    | none => exact GivenE.throw trivial
    | some upload =>
      have hid := hfound upload rfl
      dsimp only
      split
      · exact GivenE.pure hid
      · refine GivenE.bind (GivenE.trivial _) fun now _ => ?_
        refine GivenE.bind (GivenE.trivial _) fun expired _ => ?_
        split
        · exact GivenE.bind (GivenE.trivial _) fun _ _ => GivenE.throw trivial
        · exact GivenE.pure hid

theorem given_completeUpload (text : String) :
    GivenE I t (completeUpload c cfg text) (fun r => ∃ uploadId,
      parseUuidText text "upload identifier is not a UUID" = .ok uploadId ∧
        ReceiptRead cfg I uploadId r) fun _ => True := by
  refine GivenE.bind (given_check fun uploadId h => h) fun uploadId hid => ?_
  have hmono {p : Handler ApiError CompletionResponse}
      (h : GivenE I t p (ReceiptRead cfg I uploadId) fun _ => True) :
      GivenE I t p (fun r => ∃ uploadId,
        parseUuidText text "upload identifier is not a UUID" = .ok uploadId ∧
          ReceiptRead cfg I uploadId r) fun _ => True :=
    h.mono fun r hr => ⟨uploadId, hid, hr⟩
  refine GivenE.bind (GivenE.trivial _) fun _ _ => ?_
  refine GivenE.bind (given_requireActiveUpload uploadId) fun upload hupload => ?_
  split
  · exact hmono (given_completionForUpload uploadId)
  · refine GivenE.bind (Q := fun v => v.upload = upload) ?_ fun v hv => ?_
    · iterate 6 refine GivenE.bind (GivenE.trivial _) fun _ _ => ?_
      exact GivenE.pure rfl
    · have hcompletes : GivenE I t (completeVerified c cfg v) (ReceiptRead cfg I v.upload.id)
          fun _ => True := given_completeVerified v
      rw [hv, hupload] at hcompletes
      exact hmono hcompletes

/-- An answer about a tombstone is the one that one of the states it has seen has for it. -/
def TombstoneRead (cfg : Config) (I : Env → Shared → Prop) (snapshotId : String)
    (r : TombstoneResponse) : Prop :=
  ∃ e s, I e s ∧ s.db.tombstone cfg snapshotId = .ok r

theorem given_tombstoneResponse (snapshotId : String) :
    GivenE I t (tombstoneResponse cfg snapshotId) (TombstoneRead cfg I snapshotId)
      fun _ => True := by
  rw [tombstoneResponse_eq]
  exact given_query fun e s hi r h => ⟨e, s, hi, h⟩

theorem given_deleteUnderLock (request : DeleteSnapshotRequest) (snapshotId : String)
    (reason : Option String) :
    GivenE I t (deleteUnderLock c cfg request snapshotId reason) (TombstoneRead cfg I snapshotId)
      fun _ => True := by
  refine GivenE.bind (GivenE.trivial _) fun found _ => GivenE.bind (GivenE.trivial _) fun _ _ => ?_
  split
  · exact given_tombstoneResponse snapshotId
  · iterate 9 refine GivenE.bind (GivenE.trivial _) fun _ _ => ?_
    exact given_tombstoneResponse snapshotId

theorem given_deleteSnapshot (request : DeleteSnapshotRequest) :
    GivenE I t (deleteSnapshot c cfg request) (fun r => ∃ snapshotId,
      parseUuidText request.snapshotId "snapshot identifier is not a UUID" = .ok snapshotId ∧
        TombstoneRead cfg I snapshotId r) fun _ => True := by
  refine GivenE.bind (GivenE.trivial _) fun _ _ => ?_
  refine GivenE.bind (given_check fun snapshotId h => h) fun snapshotId hid => ?_
  refine GivenE.mono (Q := TombstoneRead cfg I snapshotId) ?_ fun r hr => ⟨snapshotId, hid, hr⟩
  iterate 3 refine GivenE.bind (GivenE.trivial _) fun _ _ => ?_
  split
  · exact given_tombstoneResponse snapshotId
  · exact GivenE.bind (GivenE.trivial _) fun _ _ => given_deleteUnderLock request snapshotId _

theorem given_getTombstone (text : String) :
    GivenE I t (getTombstone cfg text) (fun r => ∃ snapshotId,
      parseUuidText text "snapshot identifier is not a UUID" = .ok snapshotId ∧
        TombstoneRead cfg I snapshotId r) fun _ => True := by
  refine GivenE.bind (GivenE.trivial _) fun _ _ => ?_
  refine GivenE.bind (given_check fun snapshotId h => h) fun snapshotId hid => ?_
  exact (given_tombstoneResponse snapshotId).mono fun r hr => ⟨snapshotId, hid, hr⟩

end Given

/-- The states behind an answer: those the archive was in before, while it served. -/
def Before (c : Crates) (cfg : Config) (sqlite : SqliteChecks) (p : Server) (_ : Env) (s : Shared) :
    Prop :=
  ∃ q : Server, q.state = s ∧ Life c cfg sqlite (.serving q) ∧
    Relation.ReflTransGen (LifeStep c cfg sqlite) (.serving q) (.serving p)

/-- What holds of an answer whenever its actions happen in states the archive was in before. -/
theorem Life.answered {p : Server} (h : Life c cfg sqlite (.serving p)) {request : Request}
    {a : Outcome} (hanswered : p.Answered request a) {Q : Outcome → Prop}
    (hgiven : ∀ t, (handle c cfg sqlite request).Given (Before c cfg sqlite p) t Q) : Q a := by
  obtain ⟨s, hstart, hrun⟩ := h.started
  obtain ⟨t, seen, p', hfollows, htask, hrest⟩ := hanswered.follows hrun
  refine (hgiven t).of_along (hfollows.along htask) fun x hx => ?_
  obtain ⟨q, hq, hq', hstate⟩ := hfollows.reached x hx
  exact ⟨q, hstate, hstart.run hq,
    (hq'.trans hrest).lift Moment.serving fun _ _ hstep => LifeStep.event hstep⟩

/-- A completion is answered with the receipt of the snapshot its upload was completed with. -/
theorem Life.completion_answered {p : Server} (h : Life c cfg sqlite (.serving p)) {text : String}
    {response : CompletionResponse}
    (hanswered : p.Answered (.completeUpload text) (.ok (.completion response))) :
    ∃ u ∈ p.state.db.uploads, parseUuidText text "upload identifier is not a UUID" = .ok u.id ∧
      u.status = .completed ∧ response.uploadId = u.id ∧
        ∃ snapshotId, u.snapshotId = some snapshotId ∧
          HasReceipt cfg p.state.db snapshotId response.receipt := by
  obtain ⟨r, heq, uploadId, hid, hupload, e, s, ⟨q, rfl, hq, hlater⟩, hread⟩ :=
    h.answered hanswered (fun t => given_respond (given_completeUpload text)) _ rfl
  obtain rfl := Response.completion.inj heq
  have hunique := (Life.good hq).archive.inv.unique
  obtain ⟨u, hu, rfl, hdone, snapshotId, hsnapshot, hreceipt⟩ :=
    hq.receipts.of_receipt hunique hread
  exact ⟨u, hq.keepsCompleted hlater hu hdone, hid, hdone, hupload, snapshotId, hsnapshot,
    hreceipt.later (hq.keepsReceipts hlater)⟩

/-- Answers about a tombstone carry the receipt of its snapshot. -/
theorem Life.tombstone_answered {p : Server} (h : Life c cfg sqlite (.serving p))
    {request : Request} {text : String}
    (hgiven : ∀ t, (handle c cfg sqlite request).Given (Before c cfg sqlite p) t fun outcome =>
      ∀ r, outcome = .ok r → ∃ response, r = .tombstone response ∧ ∃ snapshotId,
        parseUuidText text "snapshot identifier is not a UUID" = .ok snapshotId ∧
          TombstoneRead cfg (Before c cfg sqlite p) snapshotId response)
    {response : TombstoneResponse} (hanswered : p.Answered request (.ok (.tombstone response))) :
    ∃ snapshotId, parseUuidText text "snapshot identifier is not a UUID" = .ok snapshotId ∧
      HasReceipt cfg p.state.db snapshotId response.historicalReceipt := by
  obtain ⟨r, heq, snapshotId, hid, e, s, ⟨q, rfl, hq, hlater⟩, hread⟩ :=
    h.answered hanswered hgiven _ rfl
  obtain rfl := Response.tombstone.inj heq
  have hunique := (Life.good hq).archive.inv.unique
  exact ⟨snapshotId, hid,
    (hq.receipts.of_tombstone hunique hq.deletions hread).later (hq.keepsReceipts hlater)⟩

/-- **`AnswersWith`** — what the server has answered so far about the snapshot. A completion names a
completed upload and carries the receipt of the snapshot of this upload; for the uploads of this
snapshot, and for its tombstone, that is the given receipt. -/
structure AnswersWith (p : Server) (snapshotId : String) (receipt : Receipt) : Prop where
  completions : ∀ text response, p.Answered (.completeUpload text) (.ok (.completion response)) →
    ∃ u ∈ p.state.db.uploads, parseUuidText text "upload identifier is not a UUID" = .ok u.id ∧
      u.status = .completed ∧ response.uploadId = u.id ∧
        u.snapshotId = some response.receipt.snapshotId ∧
          (u.snapshotId = some snapshotId → response.receipt = receipt)
  deletions : ∀ request response, p.Answered (.deleteSnapshot request) (.ok (.tombstone response)) →
    parseUuidText request.snapshotId "snapshot identifier is not a UUID" = .ok snapshotId →
      response.historicalReceipt = receipt
  tombstones : ∀ text response, p.Answered (.getTombstone text) (.ok (.tombstone response)) →
    parseUuidText text "snapshot identifier is not a UUID" = .ok snapshotId →
      response.historicalReceipt = receipt

theorem Life.answersWith {p : Server} (h : Life c cfg sqlite (.serving p)) {snapshotId : String}
    {receipt : Receipt} (hreceipt : HasReceipt cfg p.state.db snapshotId receipt) :
    AnswersWith p snapshotId receipt := by
  have hunique := (Life.good h).archive.inv.unique
  have hdeletions := h.deletions
  have htombstone : ∀ {text : String} {response : TombstoneResponse},
      (∃ snapshotId, parseUuidText text "snapshot identifier is not a UUID" = .ok snapshotId ∧
        HasReceipt cfg p.state.db snapshotId response.historicalReceipt) →
      parseUuidText text "snapshot identifier is not a UUID" = .ok snapshotId →
        response.historicalReceipt = receipt := by
    rintro text response ⟨id, hid, hread⟩ hparsed
    obtain rfl := Except.ok.inj (hid.symm.trans hparsed)
    exact hread.eq hreceipt hunique hdeletions
  refine ⟨fun text response hanswered => ?_, fun request response hanswered => ?_,
    fun text response hanswered => ?_⟩
  · obtain ⟨u, hu, hid, hdone, hupload, id, hsnapshot, hread⟩ := h.completion_answered hanswered
    refine ⟨u, hu, hid, hdone, hupload, hread.snapshotId_eq.symm ▸ hsnapshot, fun hsame => ?_⟩
    obtain rfl := Option.some.inj (hsnapshot.symm.trans hsame)
    exact hread.eq hreceipt hunique hdeletions
  · exact htombstone (h.tombstone_answered
      (fun t => given_respond (given_deleteSnapshot request)) hanswered)
  · exact htombstone (h.tombstone_answered
      (fun t => given_respond (given_getTombstone text)) hanswered)

/-- **`receiptStability`** — a completed upload has a snapshot, and every snapshot an archive has at
some moment has one receipt. At every later moment, whatever happened in between, it is what the
server has answered with so far: to every completion of an upload that was completed with this
snapshot, first, coalesced or retried, and to every request for its tombstone. And it is what the
reads behind these answers find at that moment: `receiptForUpload` for each upload of the snapshot
while it lives, `tombstoneResponse` once it is deleted. -/
theorem receiptStability (h : Life c cfg sqlite m) :
    (∀ u ∈ m.state.db.uploads, u.status = .completed →
      ∃ r ∈ m.state.db.snapshots, u.snapshotId = some r.id) ∧
    (∀ r ∈ m.state.db.snapshots, ∃ receipt : Receipt, receipt.snapshotId = r.id ∧
      (∀ p, Relation.ReflTransGen (LifeStep c cfg sqlite) m (.serving p) →
        AnswersWith p r.id receipt) ∧
      ∀ m', Relation.ReflTransGen (LifeStep c cfg sqlite) m m' →
        ∃ r' ∈ m'.state.db.snapshots, r'.id = r.id ∧
          (r'.live = true → ∀ u ∈ m'.state.db.uploads, u.status = .completed →
            u.snapshotId = some r.id → m'.state.db.receipt cfg u.id = .ok receipt) ∧
          (r'.live = false → ∃ response, m'.state.db.tombstone cfg r.id = .ok response ∧
            response.historicalReceipt = receipt)) ∧
    (∀ uploadId, receiptForUpload cfg uploadId =
      query .database fun db => db.receipt cfg uploadId) ∧
    ∀ snapshotId, tombstoneResponse cfg snapshotId =
      query .database fun db => db.tombstone cfg snapshotId := by
  refine ⟨h.receipts.completed, fun r hr => ?_, receiptForUpload_eq, tombstoneResponse_eq⟩
  obtain ⟨manifestSha256, hreceipt⟩ := h.receipts.receipted r hr
  have hhas : HasReceipt cfg m.state.db r.id (receiptOf cfg r manifestSha256) :=
    ⟨r, hr, rfl, manifestSha256, hreceipt, rfl⟩
  refine ⟨receiptOf cfg r manifestSha256, rfl, fun p hlater => ?_, fun m' hlater => ?_⟩
  · exact Life.answersWith (h.trans hlater) (hhas.later (h.keepsReceipts hlater))
  · have hlife : Life c cfg sqlite m' := h.trans hlater
    have hunique := (Life.good hlife).archive.inv.unique
    obtain ⟨r', hr', hfixed, hreceipt'⟩ := h.keepsReceipts hlater r hr manifestSha256 hreceipt
    have hid := SnapshotRow.id_of_fixed hfixed
    refine ⟨r', hr', hid, fun hlive u hu hdone husnapshot => ?_, fun hdead => ?_⟩
    · rw [← receiptOf_fixed hfixed]
      exact hreceipt'.receipt hunique hr' hlive hu hdone (hid ▸ husnapshot)
    · rw [← receiptOf_fixed hfixed, ← hid]
      exact hreceipt'.tombstone hunique hlife.deletions hr' hdead

/-- Two completions, a retry, the deletion and a read of the tombstone carry one receipt. -/
theorem receiptStability_sample : ∃ p p' : Server,
    p.state.db.snapshots.map SnapshotRow.live = [true] ∧
      p'.state.db.snapshots.map SnapshotRow.live = [false] ∧
      ∃ receipt : Receipt, receipt.snapshotId = sampleUuid 50 ∧
        p'.results.filterMap answeredReceipt = List.replicate 5 receipt := by
  obtain ⟨p₀, p, p', -, hlife₀, hrun₀, hrun, hreport⟩ := lawfulRetried
  have hlife := Life.run hlife₀ hrun₀
  have hids : p.state.db.snapshots.map SnapshotRow.id = [sampleUuid 50] :=
    congrArg RetriedReport.snapshots hreport
  have huploads : p'.state.db.uploads.map UploadRow.snapshotId =
      [some (sampleUuid 50), some (sampleUuid 50)] := congrArg RetriedReport.uploadsAfter hreport
  have hcount : (p'.results.filterMap answeredReceipt).length = 5 :=
    congrArg RetriedReport.receipts hreport
  have hother : (p'.results.any fun x => asksOther (sampleUuid 50) x.1) = false :=
    congrArg RetriedReport.other hreport
  obtain ⟨r, hr, hid⟩ : ∃ r ∈ p.state.db.snapshots, r.id = sampleUuid 50 :=
    List.mem_map.mp (hids ▸ List.mem_singleton_self (sampleUuid 50))
  have hlater := hrun.lift Moment.serving fun _ _ hstep => LifeStep.event hstep
  obtain ⟨receipt, hreceipt, hanswers, -⟩ := (receiptStability hlife).2.1 r hr
  obtain ⟨hcompletions, hdeletions, htombstones⟩ := hanswers p' hlater
  rw [hid] at hreceipt hcompletions hdeletions htombstones
  have hparsed : parseUuidText (sampleUuid 50) "snapshot identifier is not a UUID" =
      .ok (sampleUuid 50) := by decide +kernel
  refine ⟨p, p', congrArg RetriedReport.live hreport, congrArg RetriedReport.liveAfter hreport,
    receipt, hreceipt, List.eq_replicate_iff.mpr ⟨hcount, fun receipt' hmem => ?_⟩⟩
  obtain ⟨⟨request, outcome⟩, hx, hanswered⟩ := List.mem_filterMap.mp hmem
  have hask : asksOther (sampleUuid 50) request = false := by
    simpa using List.any_eq_false.mp hother _ hx
  unfold answeredReceipt at hanswered
  split at hanswered
  · next text response heq =>
    obtain ⟨rfl, rfl⟩ := Prod.mk.inj heq
    obtain rfl := Option.some.inj hanswered
    obtain ⟨u, hu, -, -, -, -, hsame⟩ := hcompletions _ _ (Or.inl hx)
    have hsnapshot : u.snapshotId ∈ p'.state.db.uploads.map UploadRow.snapshotId :=
      List.mem_map_of_mem hu
    rw [huploads] at hsnapshot
    exact hsame (by simpa using hsnapshot)
  · next request response heq =>
    obtain ⟨rfl, rfl⟩ := Prod.mk.inj heq
    obtain rfl := Option.some.inj hanswered
    have htext : request.snapshotId = sampleUuid 50 := not_ne_iff.mp (of_decide_eq_false hask)
    refine hdeletions _ _ (Or.inl hx) ?_
    rw [htext, hparsed]
  · next text response heq =>
    obtain ⟨rfl, rfl⟩ := Prod.mk.inj heq
    obtain rfl := Option.some.inj hanswered
    have htext : text = sampleUuid 50 := not_ne_iff.mp (of_decide_eq_false hask)
    refine htombstones _ _ (Or.inl hx) ?_
    rw [htext, hparsed]
  · cases hanswered

end Patwari
