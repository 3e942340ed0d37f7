/-
# Patwari.Candidates — which blobs wait for garbage collection.

A blob row's three deadline columns are derived data: they are set while no artifact of a live
snapshot refers to the blob, and unset otherwise. §1 states that of a database, §2 shows that every
effect keeps it.
-/
import Patwari.Effects

namespace Patwari

open Lib (TaskId Event Pool UniqueOn updateWhere mem_updateWhere)

variable {c : Crates} {cfg : Config} {mode : Mode} {t : TaskId} {s s' : Shared} {ids : List String}
  {db : Db}

/-! ## §1 — Marks and references. -/

/-- The row is no candidate. -/
def BlobRow.Unmarked (r : BlobRow) : Prop :=
  r.orphanedAt = none ∧ r.eligibleAfter = none ∧ r.eligibleAfterSeq = none

/-- The row is a candidate with its deadline. -/
def BlobRow.Marked (r : BlobRow) : Prop :=
  r.orphanedAt.isSome ∧ r.eligibleAfter.isSome ∧ r.eligibleAfterSeq.isSome

theorem BlobRow.unmarked_clearCandidate (r : BlobRow) : r.clearCandidate.Unmarked :=
  ⟨rfl, rfl, rfl⟩

theorem BlobRow.marked_schedule (x : DeletionRecord) (r : BlobRow) : (r.schedule x).Marked :=
  ⟨rfl, rfl, rfl⟩

theorem BlobRow.Marked.not_unmarked {r : BlobRow} (h : r.Marked) : ¬ r.Unmarked := by
  rintro ⟨hnone, -, -⟩
  have hsome := h.1
  rw [hnone] at hsome
  exact Bool.false_ne_true hsome

theorem Db.hasLiveReference_iff {blobId : String} :
    db.hasLiveReference blobId = true ↔ ∃ a ∈ db.artifacts, a.blobId = blobId ∧
      ∃ r ∈ db.snapshots, r.id = a.snapshotId ∧ r.live = true := by
  simp [Db.hasLiveReference]

/-- What the marks of a database say, and that every artifact row belongs to a snapshot. -/
structure Db.Candidates (db : Db) : Prop where
  marks : ∀ r ∈ db.blobs, if db.hasLiveReference r.id then r.Unmarked else r.Marked
  artifacts : ∀ a ∈ db.artifacts, ∃ r ∈ db.snapshots, r.id = a.snapshotId

theorem Db.Candidates.empty : Db.empty.Candidates where
  marks := by simp [Db.empty]
  artifacts := by simp [Db.empty]

/-- A blob has a live reference exactly when its row is unmarked, and none exactly when all three
columns are set. -/
theorem Db.Candidates.iff (h : db.Candidates) {r : BlobRow} (hr : r ∈ db.blobs) :
    (db.hasLiveReference r.id = true ↔ r.Unmarked) ∧
      (db.hasLiveReference r.id = false ↔ r.Marked) := by
  have hmark := h.marks r hr
  cases hlive : db.hasLiveReference r.id with
  | true =>
    rw [hlive, if_pos rfl] at hmark
    exact ⟨⟨fun _ => hmark, fun _ => rfl⟩, ⟨fun h => by simp at h,
      fun hmarked => absurd hmark hmarked.not_unmarked⟩⟩
  | false =>
    rw [hlive, if_neg (by simp)] at hmark
    exact ⟨⟨fun h => by simp at h, fun hun => absurd hun hmark.not_unmarked⟩,
      ⟨fun _ => hmark, fun _ => rfl⟩⟩

/-! ## §2 — Every effect keeps the marks. -/

/-- The artifacts of a new snapshot refer to exactly the blobs of its digests. -/
theorem refers_iff {now snapshotId : String} {nowSeq : ℤ} {prepared : List PreparedArtifact}
    {newIds artifactIds : List String} {old new : List BlobRow} {blobIds : List (String × String)}
    {rows : List ArtifactRow} (hblobs : BlobsRecorded now (prepared.zip newIds) old new blobIds)
    (hlength : artifactIds.length = prepared.length)
    (hrows : (prepared.zip artifactIds).mapM (fun e =>
      artifactRow snapshotId now nowSeq blobIds e.1 e.2) = .ok rows) {blobId : String} :
    (∃ r ∈ rows, r.blobId = blobId) ↔ ∃ d, (d, blobId) ∈ blobIds := by
  obtain ⟨hfrom, hto⟩ := artifactRows_blob hrows
  constructor
  · rintro ⟨r, hr, rfl⟩
    obtain ⟨-, e, -, hlookup⟩ := hfrom r hr
    exact ⟨e.1.digest, Crates.mem_of_lookup hlookup⟩
  · rintro ⟨d, hd⟩
    obtain ⟨-, -, -, -, x, hx, hdigest, -⟩ := hblobs.found (d, blobId) hd
    -- the prepared artifact of the digest has an artifact row too
    obtain ⟨k, hk, hget⟩ := List.getElem_of_mem (List.of_mem_zip hx).1
    have hk' : k < (prepared.zip artifactIds).length := by
      rw [List.length_zip, hlength, min_self]
      exact hk
    obtain ⟨r, hr, hlookup⟩ := hto _ (List.getElem_mem hk')
    refine ⟨r, hr, ?_⟩
    rw [List.getElem_zip, hget, hdigest] at hlookup
    have hmem := Crates.mem_of_lookup hlookup
    exact congrArg Prod.snd (hblobs.keysOnce.eq_of_mem hmem hd rfl)

/-- The references after a snapshot is recorded are the old ones and those of its rows. -/
theorem Db.Candidates.recorded_reference {x : CompletionRecord} {manifestId : String}
    {prior : Option TombstoneRow} {row : SnapshotRow} {blobs : List BlobRow}
    {blobIds : List (String × String)} {rows : List ArtifactRow} (h : db.Candidates)
    (hlength : x.artifactIds.length = x.prepared.length)
    (hblobs : BlobsRecorded x.now (x.prepared.zip x.blobIds) db.blobs blobs blobIds)
    (hrow : snapshotRow x manifestId prior = .ok row) (hfresh : db.snapshot x.snapshotId = none)
    (hrows : (x.prepared.zip x.artifactIds).mapM (fun e =>
      artifactRow x.snapshotId x.now x.nowSeq blobIds e.1 e.2) = .ok rows) {db' : Db}
    (hs : db'.snapshots = db.snapshots ++ [row]) (ha : db'.artifacts = db.artifacts ++ rows)
    (blobId : String) : db'.hasLiveReference blobId = true ↔
      db.hasLiveReference blobId = true ∨ ∃ d, (d, blobId) ∈ blobIds := by
  obtain ⟨original, stored, -, -, hrowEq⟩ := snapshotRow_ok hrow
  have hid : row.id = x.snapshotId := by rw [hrowEq]
  have hlive : row.live = true := by rw [hrowEq]; rfl
  have hsnapshot := (artifactRows_blob hrows).1
  rw [Db.hasLiveReference_iff, Db.hasLiveReference_iff, ← refers_iff hblobs hlength hrows, ha, hs]
  constructor
  · rintro ⟨a, hmem, hblob, r, hr, hrid, hrlive⟩
    rcases List.mem_append.mp hmem with hold | hnew
    · refine Or.inl ⟨a, hold, hblob, ?_⟩
      rcases List.mem_append.mp hr with hr | hr
      · exact ⟨r, hr, hrid, hrlive⟩
      · -- an old artifact belongs to an old snapshot
        obtain ⟨r₀, hr₀, hid₀⟩ := h.artifacts a hold
        have hmiss := List.find?_eq_none.mp hfresh r₀ hr₀
        rw [List.mem_singleton.mp hr, hid] at hrid
        simp [hid₀, hrid] at hmiss
    · exact Or.inr ⟨a, hnew, hblob⟩
  · rintro (⟨a, hmem, hblob, r, hr, hrest⟩ | ⟨a, hmem, hblob⟩)
    · exact ⟨a, List.mem_append_left _ hmem, hblob, r, List.mem_append_left _ hr, hrest⟩
    · refine ⟨a, List.mem_append_right _ hmem, hblob, row,
        List.mem_append_right _ List.mem_cons_self, ?_, hlive⟩
      rw [hid, (hsnapshot a hmem).1]

/-- Recording a snapshot unmarks the blobs it refers to and no others. -/
theorem Db.Candidates.recorded {x : CompletionRecord} {manifestId : String}
    {prior : Option TombstoneRow} {row : SnapshotRow} {blobs : List BlobRow}
    {blobIds : List (String × String)} {rows : List ArtifactRow} (h : db.Candidates)
    (hunique : db.Unique) (hlength : x.artifactIds.length = x.prepared.length)
    (hblobs : BlobsRecorded x.now (x.prepared.zip x.blobIds) db.blobs blobs blobIds)
    (hrow : snapshotRow x manifestId prior = .ok row) (hfresh : db.snapshot x.snapshotId = none)
    (hrows : (x.prepared.zip x.artifactIds).mapM (fun e =>
      artifactRow x.snapshotId x.now x.nowSeq blobIds e.1 e.2) = .ok rows) {db' : Db}
    (hb : db'.blobs = blobs) (hs : db'.snapshots = db.snapshots ++ [row])
    (ha : db'.artifacts = db.artifacts ++ rows) : db'.Candidates := by
  obtain ⟨original, stored, -, -, hrowEq⟩ := snapshotRow_ok hrow
  have hid : row.id = x.snapshotId := by rw [hrowEq]
  have hreference := h.recorded_reference hlength hblobs hrow hfresh hrows hs ha
  constructor
  · intro r hr
    rw [hb] at hr
    by_cases hnew : ∃ d, (d, r.id) ∈ blobIds
    · obtain ⟨d, hd⟩ := hnew
      rw [if_pos ((hreference r.id).mpr (Or.inr ⟨d, hd⟩))]
      obtain ⟨r', hr', hid', hclear, -⟩ := hblobs.found (d, r.id) hd
      have hsame : r = r' := (hblobs.idsUnique hunique.blobs).eq_of_mem hr hr' hid'.symm
      rw [hsame, ← hclear]
      exact r'.unmarked_clearCandidate
    · have hold : r ∈ db.blobs := by
        rcases hblobs.origin r hr with hold | ⟨hused, -⟩
        · exact hold
        · exact absurd hused hnew
      have heq : db'.hasLiveReference r.id = db.hasLiveReference r.id := by
        rw [Bool.eq_iff_iff, hreference]
        simp [hnew]
      rw [heq]
      exact h.marks r hold
  · intro a hmem
    rw [ha] at hmem
    rw [hs]
    rcases List.mem_append.mp hmem with hold | hnew
    · obtain ⟨r, hr, hrid⟩ := h.artifacts a hold
      exact ⟨r, List.mem_append_left _ hr, hrid⟩
    · refine ⟨row, List.mem_append_right _ List.mem_cons_self, ?_⟩
      rw [hid, ((artifactRows_blob hrows).1 a hnew).1]

theorem Db.snapshotDeletionRow_some {snapshotId : String} {snapshot : SnapshotRow}
    {manifest : ManifestRow} (h : db.snapshotDeletionRow snapshotId = some (snapshot, manifest)) :
    snapshot ∈ db.snapshots ∧ snapshot.id = snapshotId ∧ manifest ∈ db.manifests ∧
      manifest.id = snapshot.manifestId := by
  simp only [Db.snapshotDeletionRow, Option.bind_eq_bind, Option.bind_eq_some_iff,
    Option.some.injEq, Prod.mk.injEq] at h
  obtain ⟨r, hr, m, hm, rfl, rfl⟩ := h
  refine ⟨List.mem_of_find?_eq_some hr, by simpa using List.find?_some hr,
    List.mem_of_find?_eq_some hm, by simpa using List.find?_some hm⟩

/-- A live reference after a deletion is one of another snapshot. -/
theorem hasLiveReference_markDeleted {x : DeletionRecord} {snapshot : SnapshotRow}
    {manifest : ManifestRow} {blobId : String} :
    (markDeleted x snapshot manifest db).hasLiveReference blobId = true ↔
      ∃ a ∈ db.artifacts, a.blobId = blobId ∧ a.snapshotId ≠ snapshot.id ∧
        ∃ r ∈ db.snapshots, r.id = a.snapshotId ∧ r.live = true := by
  rw [Db.hasLiveReference_iff]
  constructor
  · rintro ⟨a, ha, hblob, r, hr, hid, hlive⟩
    obtain ⟨ha, hne⟩ := List.mem_filter.mp ha
    have hne := of_decide_eq_true hne
    refine ⟨a, ha, hblob, hne, ?_⟩
    obtain ⟨r₀, hr₀, rfl⟩ := mem_updateWhere.mp hr
    split at hid
    · next hsel =>
      simp only [Bool.and_eq_true, decide_eq_true_eq] at hsel
      exact absurd (hid.symm.trans hsel.1) hne
    · next hsel =>
      rw [if_neg hsel] at hlive
      exact ⟨r₀, hr₀, hid, hlive⟩
  · rintro ⟨a, ha, hblob, hne, r, hr, hid, hlive⟩
    refine ⟨a, List.mem_filter.mpr ⟨ha, decide_eq_true hne⟩, hblob, r,
      Lib.mem_updateWhere_of_not hr ?_, hid, hlive⟩
    rw [decide_eq_false (hid ▸ hne), Bool.false_and]

/-- Deleting a snapshot looks at every blob whose references it changes. -/
theorem hasLiveReference_of_not_artifactBlobs {x : DeletionRecord} {snapshot : SnapshotRow}
    {manifest : ManifestRow} (hmem : snapshot ∈ db.snapshots) (hid : snapshot.id = x.snapshotId)
    (hlive : snapshot.live = true) {r : BlobRow} (hr : r ∈ db.blobs)
    (hnot : r.id ∉ (db.artifactBlobs x.snapshotId).map BlobRow.id) :
    (markDeleted x snapshot manifest db).hasLiveReference r.id = db.hasLiveReference r.id := by
  have hsnapshot : db.snapshots.any (fun s => decide (s.id = x.snapshotId) && s.live) = true := by
    refine List.any_eq_true.mpr ⟨snapshot, hmem, ?_⟩
    rw [decide_eq_true hid, hlive]
    rfl
  have hforeign : ∀ a ∈ db.artifacts, a.blobId = r.id → a.snapshotId ≠ snapshot.id := by
    intro a ha hblob heq
    apply hnot
    rw [Db.artifactBlobs, if_pos hsnapshot]
    refine List.mem_map_of_mem (List.mem_filter.mpr ⟨hr, ?_⟩)
    exact List.any_eq_true.mpr ⟨a, ha, decide_eq_true ⟨heq.trans hid, hblob⟩⟩
  rw [Bool.eq_iff_iff, hasLiveReference_markDeleted, Db.hasLiveReference_iff]
  constructor
  · rintro ⟨a, ha, hblob, -, hrest⟩
    exact ⟨a, ha, hblob, hrest⟩
  · rintro ⟨a, ha, hblob, hrest⟩
    exact ⟨a, ha, hblob, hforeign a ha hblob, hrest⟩

/-- Deleting a snapshot marks exactly the blobs that lose their last live reference. -/
theorem Db.Candidates.deleted {x : DeletionRecord} {snapshot : SnapshotRow} {manifest : ManifestRow}
    (h : db.Candidates) (hrow : db.snapshotDeletionRow x.snapshotId = some (snapshot, manifest))
    (hlive : snapshot.live = true) {db' : Db}
    (hb : db'.blobs = db.blobs.map fun r =>
      if r.id ∈ (db.artifactBlobs x.snapshotId).map BlobRow.id then
        if (markDeleted x snapshot manifest db).hasLiveReference r.id then r.clearCandidate
        else r.schedule x
      else r)
    (hs : db'.snapshots = (markDeleted x snapshot manifest db).snapshots)
    (ha : db'.artifacts = (markDeleted x snapshot manifest db).artifacts) : db'.Candidates := by
  obtain ⟨hmem, hid, -, -⟩ := Db.snapshotDeletionRow_some hrow
  have hreference (blobId : String) : db'.hasLiveReference blobId =
      (markDeleted x snapshot manifest db).hasLiveReference blobId := by
    unfold Db.hasLiveReference
    rw [ha, hs]
  constructor
  · intro r' hr'
    rw [hb] at hr'
    obtain ⟨r, hr, rfl⟩ := List.mem_map.mp hr'
    rw [hreference]
    by_cases hsel : r.id ∈ (db.artifactBlobs x.snapshotId).map BlobRow.id
    · rw [if_pos hsel]
      by_cases hstill : (markDeleted x snapshot manifest db).hasLiveReference r.id = true
      · rw [if_pos hstill, BlobRow.clearCandidate_id, if_pos hstill]
        exact r.unmarked_clearCandidate
      · rw [if_neg hstill]
        show if (markDeleted x snapshot manifest db).hasLiveReference r.id then _ else _
        rw [if_neg hstill]
        exact r.marked_schedule x
    · rw [if_neg hsel, hasLiveReference_of_not_artifactBlobs hmem hid hlive hr hsel]
      exact h.marks r hr
  · intro a hmem'
    rw [ha] at hmem'
    obtain ⟨r, hr, hrid⟩ := h.artifacts a (List.mem_of_mem_filter hmem')
    rw [hs]
    refine ⟨_, mem_updateWhere.mpr ⟨r, hr, rfl⟩, ?_⟩
    split <;> exact hrid

/-- **`Effect.candidates`** — every effect keeps the marks of all blobs exact. -/
theorem Effect.candidates (h : Effect c cfg mode t s ids db) (hinv : s.Inv c)
    (hs : s.db.Candidates) : db.Candidates := by
  cases h with
  | recorded x row manifestRow blobIds hx hattach hblobs hrow hfresh hfree hrows hcontexts =>
    exact hs.recorded hinv.unique hx.artifactIds hblobs hrow hfresh hrows rfl rfl rfl
  | deleted x snapshot manifest hx hrow hlive hfresh =>
    rw [foldl_scheduleOrClearBlobCandidate]
    exact hs.deleted hrow hlive rfl rfl rfl
  | cleared row nowSeq hmem heligible hlive =>
    refine ⟨fun r hr => ?_, hs.artifacts⟩
    show if s.db.hasLiveReference r.id then r.Unmarked else r.Marked
    obtain ⟨r₀, hr₀, rfl⟩ := mem_updateWhere.mp hr
    split
    · next hsel =>
      rw [BlobRow.clearCandidate_id, of_decide_eq_true hsel, if_pos hlive]
      exact r₀.unmarked_clearCandidate
    · exact hs.marks r₀ hr₀
  | _ => exact ⟨hs.marks, hs.artifacts⟩

theorem DbInvariant.candidates : DbInvariant c cfg fun db _ => db.Candidates where
  effect := fun hinv _ _ h hs => h.candidates hinv hs
  collect := fun _ _ h hs => by
    obtain ⟨row, -, -, rfl⟩ := h
    exact ⟨fun r hr => hs.marks r (List.mem_of_mem_filter hr), hs.artifacts⟩

end Patwari
