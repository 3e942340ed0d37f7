/-
# Patwari.Draining — garbage collection, repeated, comes to an end.

A pass looks at one batch of candidates and deletes, clears or skips each of them. In an archive the
service wrote, no candidate is ever cleared or skipped by a pass that runs alone: a blob is a
candidate exactly when nothing refers to it, so every pass shortens the queue by its batch. §1 is
one pass on a state with these properties, §2 follows any number of passes, §3 shows that an archive
with nothing in flight has them, whatever happened to it before.
-/
import Patwari.Lib.Total
import Patwari.Lib.Along
import Patwari.Snapshots

namespace Patwari

open Lib (Prog TaskId System Pool Event UniqueOn)
open Lib.Prog (Delivers DeliversE Keeps KeepsE)

/-! ## §1 — One pass. -/

/-- The service while nothing reports an error. -/
def steady : System Label Env Shared := { system with envOk := fun e _ => e.fault = none }

/-- What the collection of one row leaves. -/
def sweep (s : Shared) (r : BlobRow) : Shared :=
  { s with
    db := { s.db with blobs := s.db.blobs.filter fun x => decide (x.id ≠ r.id) }
    fs := s.fs.removeWhere fun q => decide (q = blobPath r.storedSha256) }

/-- **`Drainable`** — nobody holds a lock or a transaction, every candidate that is due is without
references of any kind, and no directory is where a blob file belongs. -/
structure Drainable (nowSeq : ℤ) (s : Shared) : Prop where
  locks : s.locks = []
  writer : s.writer = none
  ids : UniqueOn BlobRow.id s.db.blobs
  unreferenced : ∀ r ∈ s.db.blobs, r.eligible nowSeq = true →
    ∀ a ∈ s.db.artifacts, a.blobId ≠ r.id
  files : ∀ d, s.fs.lookup (blobPath d) ≠ some .dir

section Pass

variable {nowSeq : ℤ} {s : Shared} {t : TaskId} {r : BlobRow}

theorem Drainable.sweepOne (h : Drainable nowSeq s) (r : BlobRow) :
    Drainable nowSeq (sweep s r) where
  locks := h.locks
  writer := h.writer
  ids := h.ids.filter _
  unreferenced x hx := h.unreferenced x (List.mem_of_mem_filter hx)
  files d := by
    show (s.fs.removeWhere _).lookup (blobPath d) ≠ _
    rw [FileStore.lookup_removeWhere]
    split
    · exact fun h => nomatch h
    · exact h.files d

/-- A row that is due goes. -/
theorem Drainable.collectBlobRow (h : Drainable nowSeq s) (hr : r ∈ s.db.blobs)
    (hdue : r.eligible nowSeq = true) :
    collectBlobRow r.id nowSeq s.db = .ok (.deleting,
      { s.db with blobs := s.db.blobs.filter fun x => decide (x.id ≠ r.id) }) := by
  have hfound : s.db.blobs.find? (fun x => decide (x.id = r.id) && x.eligible nowSeq) = some r := by
    cases hfind : s.db.blobs.find? fun x => decide (x.id = r.id) && x.eligible nowSeq with
    | none =>
      have hmiss := List.find?_eq_none.mp hfind r hr
      rw [decide_eq_true rfl, hdue] at hmiss
      exact absurd rfl hmiss
    | some x =>
      obtain ⟨hid, -⟩ :=
        Bool.and_eq_true_iff.mp
          (List.find?_some (p := fun x : BlobRow => decide (x.id = r.id) && x.eligible nowSeq)
            hfind)
      rw [h.ids.eq_of_mem (List.mem_of_find?_eq_some hfind) hr (of_decide_eq_true hid)]
  have hnone := h.unreferenced r hr hdue
  have hlive : s.db.hasLiveReference r.id = false := by
    rw [Bool.eq_false_iff]
    intro hlive
    obtain ⟨a, ha, hblob, -⟩ := Db.hasLiveReference_iff.mp hlive
    exact hnone a ha hblob
  have hany : (s.db.artifacts.any fun a => decide (a.blobId = r.id)) = false := by
    rw [List.any_eq_false]
    exact fun a ha heq => hnone a ha (of_decide_eq_true heq)
  unfold Patwari.collectBlobRow
  rw [hfound]
  simp only [hlive, hany, Bool.false_eq_true, if_false]
  rfl

/-- The candidate loop deletes every row it is given. -/
theorem delivers_collectCandidates (rows : List BlobRow) (deleted : ℕ) (h : Drainable nowSeq s)
    (hrows : ∀ r ∈ rows, r ∈ s.db.blobs ∧ r.eligible nowSeq = true)
    (hids : (rows.map BlobRow.id).Nodup) :
    DeliversE steady t (collectCandidates nowSeq rows deleted)
      (fun n s' => n = deleted + rows.length ∧ s' = rows.foldl sweep s) s := by
  induction rows generalizing s deleted with
  | nil => exact DeliversE.pure ⟨rfl, rfl⟩
  | cons r rest ih =>
    obtain ⟨hr, hdue⟩ := hrows r List.mem_cons_self
    obtain ⟨hnew, hrest⟩ := List.nodup_cons.mp hids
    have hlocks : blobLocksForDigests [r.storedSha256] = [blobLock r.storedSha256] := rfl
    rw [collectCandidates, hlocks]
    -- the stripe of the digest is free
    refine DeliversE.bind (DeliversE.lift (Q := fun _ s₁ =>
      s₁ = { s with locks := [(blobLock r.storedSha256, t)] }) ?_) fun _ s₁ hs₁ => ?_
    · refine Delivers.bind
        (Q := fun _ s₁ => s₁ = { s with locks := [(blobLock r.storedSha256, t)] })
        (Delivers.await ?_ ?_) fun _ s₁ hs₁ => ?_
      · show s.free _ = true
        unfold Shared.free
        rw [h.locks]
        rfl
      · rw [h.locks]
      · exact hs₁
    subst hs₁
    refine DeliversE.bind (Q := fun step s₂ => step = .deleting ∧ s₂ = { s with
        locks := [(blobLock r.storedSha256, t)]
        writer := some (t, (sweep s r).db) }) (Delivers.atomic fun e he => ?_) fun step s₂ hs₂ => ?_
    · have hfault : e.fault = none := he
      simp only [hfault, h.writer, Option.isSome_none, Bool.false_eq_true, if_false,
        h.collectBlobRow hr hdue]
      exact ⟨_, rfl, rfl, rfl⟩
    obtain ⟨rfl, rfl⟩ := hs₂
    dsimp only
    refine DeliversE.bind (DeliversE.lift (Q := fun removed s₃ => removed = .ok () ∧ s₃ = { s with
        locks := [(blobLock r.storedSha256, t)]
        writer := some (t, (sweep s r).db)
        fs := (sweep s r).fs }) (Delivers.atomic fun e he => ?_)) fun removed s₃ hs₃ => ?_
    · have hfault : e.fault = none := he
      have hfile : s.fs.isDir (blobPath r.storedSha256) = false := by
        rw [Bool.eq_false_iff]
        exact fun hdir => h.files _ (FileStore.isDir_iff.mp hdir)
      simp only [hfault, FileStore.removeFile, hfile, Bool.false_eq_true, if_false]
      exact ⟨trivial, rfl⟩
    obtain ⟨rfl, rfl⟩ := hs₃
    refine DeliversE.bind (Q := fun _ s₃ => s₃ = { s with
      locks := [(blobLock r.storedSha256, t)]
      writer := some (t, (sweep s r).db)
      fs := (sweep s r).fs }) (DeliversE.pure rfl) fun _ s₃ hs₃ => ?_
    subst hs₃
    refine DeliversE.bind (Q := fun _ s₄ => s₄ = { sweep s r with
        locks := [(blobLock r.storedSha256, t)] }) (Delivers.atomic fun e he => ?_) fun _ s₄ hs₄ =>
          ?_
    · have hfault : e.fault = none := he
      simp only [hfault, if_true]
      refine ⟨(), trivial, ?_⟩
      unfold sweep
      rw [h.writer]
    subst hs₄
    refine DeliversE.bind (DeliversE.lift (Q := fun _ s₅ => s₅ = sweep s r)
      (Delivers.atomic fun e _ => ?_)) fun _ s₅ hs₅ => ?_
    · unfold sweep
      simp [h.locks]
    subst hs₅
    refine (ih (deleted + 1) (h.sweepOne r) (fun x hx => ?_) hrest).mono fun out s' hout => ?_
    · obtain ⟨hxmem, hxdue⟩ := hrows x (List.mem_cons_of_mem _ hx)
      refine ⟨List.mem_filter.mpr ⟨hxmem, decide_eq_true fun heq => hnew ?_⟩, hxdue⟩
      rw [← heq]
      exact List.mem_map_of_mem hx
    · obtain ⟨n, rfl, rfl, hs'⟩ := hout
      refine ⟨_, rfl, ?_, hs'⟩
      rw [List.length_cons]
      omega

/-- The batch of a pass: rows that are due, each once. -/
theorem mem_gcCandidates {db : Db} (hr : r ∈ db.gcCandidates nowSeq) :
    r ∈ db.blobs ∧ r.eligible nowSeq = true := by
  have hsorted := List.mem_of_mem_take hr
  exact List.mem_filter.mp ((List.mem_insertionSort _).mp hsorted)

theorem gcCandidates_nodup {db : Db} (h : UniqueOn BlobRow.id db.blobs) :
    ((db.gcCandidates nowSeq).map BlobRow.id).Nodup := by
  have hfilter : UniqueOn BlobRow.id (db.blobs.filter (BlobRow.eligible nowSeq)) := h.filter _
  have hsorted := ((List.perm_insertionSort gcNotLater _).map BlobRow.id).nodup_iff.mpr hfilter
  exact hsorted.sublist ((List.take_sublist _ _).map _)

/-- A batch is empty only when nothing is due. -/
theorem gcCandidates_nil {db : Db} (h : db.gcCandidates nowSeq = []) :
    ∀ r ∈ db.blobs, r.eligible nowSeq = false := by
  have hsorted : (db.blobs.filter (BlobRow.eligible nowSeq)).insertionSort gcNotLater = [] := by
    rcases List.take_eq_nil_iff.mp h with hzero | hnil
    · exact absurd hzero (by decide)
    · exact hnil
  intro r hr
  rw [Bool.eq_false_iff]
  intro hdue
  have hmem := (List.mem_insertionSort gcNotLater).mpr (List.mem_filter.mpr ⟨hr, hdue⟩)
  rw [hsorted] at hmem
  exact absurd hmem List.not_mem_nil

/-- **`delivers_collectOrphanedBlobsAt`** — a pass that runs alone comes to its end: it has deleted
its whole batch, rows and files. -/
theorem delivers_collectOrphanedBlobsAt {now : OffsetDateTime}
    (h : Drainable (sortKeyFromTimestamp now) s) :
    DeliversE steady t (collectOrphanedBlobsAt now)
      (fun response s' =>
        response.inspectedBlobs = (s.db.gcCandidates (sortKeyFromTimestamp now)).length ∧
        response.deletedBlobs = (s.db.gcCandidates (sortKeyFromTimestamp now)).length ∧
        s' = (s.db.gcCandidates (sortKeyFromTimestamp now)).foldl sweep s) s := by
  refine DeliversE.bind (Q := fun rows s' => rows = s.db.gcCandidates (sortKeyFromTimestamp now) ∧
    s' = s) (Delivers.atomic fun e he => ?_) fun rows s' hs' => ?_
  · have hfault : e.fault = none := he
    simp only [hfault]
    exact ⟨_, rfl, rfl, trivial⟩
  · obtain ⟨rfl, rfl⟩ := hs'
    refine DeliversE.bind (delivers_collectCandidates _ 0 h (fun r hr => mem_gcCandidates hr)
      (gcCandidates_nodup h.ids)) fun deleted s'' hdone => DeliversE.pure ?_
    exact ⟨rfl, hdone.1.trans (Nat.zero_add _), hdone.2⟩

end Pass

/-! ## §2 — Passes one after another. -/

/-- Passes at one time of the clock, each run alone to its end, with what they answered. -/
inductive GcPasses (now : OffsetDateTime) (t : TaskId) (s : Shared) :
    List BlobGcResponse → Shared → Prop
  | start : GcPasses now t s [] s
  | pass {responses : List BlobGcResponse} {response : BlobGcResponse} {s₁ s₂ : Shared}
      (h : GcPasses now t s responses s₁)
      (hpass : (collectOrphanedBlobsAt now).run.Returns steady t s₁ (.ok response) s₂) :
      GcPasses now t s (responses ++ [response]) s₂

/-- The blob has no live reference and its deadline has passed. -/
def Db.due (db : Db) (nowSeq : ℤ) (r : BlobRow) : Bool :=
  !db.hasLiveReference r.id && r.eligible nowSeq

section Passes

variable {nowSeq : ℤ} {now : OffsetDateTime} {t : TaskId} {s s' s₁ : Shared}
  {responses : List BlobGcResponse} {removed : List BlobRow}

/-- What is left of the rows. -/
theorem foldl_sweep_db (rows : List BlobRow) (s : Shared) : (rows.foldl sweep s).db =
    { s.db with blobs := s.db.blobs.filter fun b => decide (b.id ∉ rows.map BlobRow.id) } := by
  induction rows generalizing s with
  | nil =>
    have hall : s.db.blobs.filter (fun b => decide (b.id ∉ [].map BlobRow.id)) = s.db.blobs :=
      List.filter_eq_self.mpr fun b _ => decide_eq_true List.not_mem_nil
    rw [hall]
    rfl
  | cons r rest ih =>
    rw [List.foldl_cons, ih]
    unfold sweep
    dsimp only
    rw [List.filter_filter]
    congr 1
    refine List.filter_congr fun b _ => ?_
    rw [List.map_cons, ← Bool.decide_and, decide_eq_decide, List.mem_cons, not_or]
    exact And.comm

/-- What is left of the files. -/
theorem foldl_sweep_lookup (rows : List BlobRow) (s : Shared) (path : FilePath) :
    (rows.foldl sweep s).fs.lookup path =
      if path ∈ rows.map fun r => blobPath r.storedSha256 then none else s.fs.lookup path := by
  induction rows generalizing s with
  | nil => rfl
  | cons r rest ih =>
    rw [List.foldl_cons, ih, List.map_cons]
    show (if _ then none else (s.fs.removeWhere _).lookup path) = _
    rw [FileStore.lookup_removeWhere]
    by_cases hrest : path ∈ rest.map fun r => blobPath r.storedSha256
    · rw [if_pos hrest, if_pos (List.mem_cons_of_mem _ hrest)]
    · rw [if_neg hrest]
      by_cases hr : path = blobPath r.storedSha256
      · rw [if_pos (decide_eq_true hr), if_pos (hr ▸ List.mem_cons_self)]
      · rw [if_neg (by rwa [decide_eq_true_eq]), if_neg]
        intro hmem
        rcases List.mem_cons.mp hmem with heq | hmem
        · exact hr heq
        · exact hrest hmem

theorem Drainable.sweepAll (h : Drainable nowSeq s) (rows : List BlobRow) :
    Drainable nowSeq (rows.foldl sweep s) := by
  induction rows generalizing s with
  | nil => exact h
  | cons r rest ih => exact ih (h.sweepOne r)

/-- **`Swept`** — what some passes have removed, and what they have counted. -/
structure Swept (nowSeq : ℤ) (s : Shared) (responses : List BlobGcResponse)
    (removed : List BlobRow) : Prop where
  rows : ∀ r ∈ removed, r ∈ s.db.blobs ∧ r.eligible nowSeq = true
  ids : (removed.map BlobRow.id).Nodup
  deleted : (responses.map BlobGcResponse.deletedBlobs).sum = removed.length
  busy : (responses.filter fun r => decide (r.inspectedBlobs ≠ 0)).length ≤ removed.length

/-- One more pass removes its batch. -/
theorem Swept.pass {response : BlobGcResponse} (h : Swept nowSeq s responses removed)
    (hs : Drainable nowSeq s)
    (hinspected : response.inspectedBlobs =
      ((removed.foldl sweep s).db.gcCandidates nowSeq).length)
    (hdeleted : response.deletedBlobs =
      ((removed.foldl sweep s).db.gcCandidates nowSeq).length) :
    Swept nowSeq s (responses ++ [response])
      (removed ++ (removed.foldl sweep s).db.gcCandidates nowSeq) := by
  have hbatch : ∀ r ∈ (removed.foldl sweep s).db.gcCandidates nowSeq,
      (r ∈ s.db.blobs ∧ r.eligible nowSeq = true) ∧ r.id ∉ removed.map BlobRow.id := by
    intro r hr
    obtain ⟨hmem, hdue⟩ := mem_gcCandidates hr
    rw [foldl_sweep_db] at hmem
    obtain ⟨hmem, hnew⟩ := List.mem_filter.mp hmem
    exact ⟨⟨hmem, hdue⟩, of_decide_eq_true hnew⟩
  have hids : (((removed.foldl sweep s).db.gcCandidates nowSeq).map BlobRow.id).Nodup :=
    gcCandidates_nodup (hs.sweepAll removed).ids
  constructor
  · intro r hr
    rcases List.mem_append.mp hr with hold | hnew
    · exact h.rows r hold
    · exact (hbatch r hnew).1
  · rw [List.map_append, List.nodup_append']
    refine ⟨h.ids, hids, fun id hold hnew => ?_⟩
    obtain ⟨r, hr, rfl⟩ := List.mem_map.mp hnew
    exact (hbatch r hr).2 hold
  · rw [List.map_append, List.sum_append, h.deleted, List.length_append, ← hdeleted]
    simp
  · rw [List.filter_append, List.length_append, List.length_append]
    refine Nat.add_le_add h.busy ?_
    by_cases hzero : response.inspectedBlobs = 0
    · simp [hzero]
    · rw [← hinspected]
      exact (List.length_filter_le _ _).trans (Nat.one_le_iff_ne_zero.mpr hzero)

/-- The run lemma: whatever the number of passes, they have swept some rows. -/
theorem GcPasses.swept (h : GcPasses now t s responses s')
    (hs : Drainable (sortKeyFromTimestamp now) s) :
    ∃ removed, Swept (sortKeyFromTimestamp now) s responses removed ∧
      s' = removed.foldl sweep s := by
  induction h with
  | start =>
    refine ⟨[], ⟨fun r hr => absurd hr List.not_mem_nil, List.nodup_nil, rfl, le_refl _⟩, rfl⟩
  | pass _ hpass ih =>
    obtain ⟨removed, hswept, rfl⟩ := ih
    have hdelivers := delivers_collectOrphanedBlobsAt (t := t) (hs.sweepAll removed)
    obtain ⟨response', heq, hinspected, hdeleted, hstate⟩ := hdelivers.returns hpass
    obtain rfl := Except.ok.inj heq
    refine ⟨_, hswept.pass hs hinspected hdeleted, ?_⟩
    rw [List.foldl_append]
    exact hstate

/-- After a pass that had nothing to inspect, nothing is due. -/
theorem GcPasses.emptied {response : BlobGcResponse}
    (h : GcPasses now t s (responses ++ [response]) s')
    (hs : Drainable (sortKeyFromTimestamp now) s) (hzero : response.inspectedBlobs = 0) :
    ∃ removed, Swept (sortKeyFromTimestamp now) s (responses ++ [response]) removed ∧
      s' = removed.foldl sweep s ∧
      ∀ r ∈ s'.db.blobs, r.eligible (sortKeyFromTimestamp now) = false := by
  generalize hall : responses ++ [response] = all at h
  cases h with
  | start => simp at hall
  | @pass before last s₁ _ hbefore hpass =>
    obtain ⟨rfl, hlast⟩ := List.append_inj' hall rfl
    obtain rfl := List.singleton_injective hlast
    obtain ⟨removed, hswept, rfl⟩ := hbefore.swept hs
    have hdelivers := delivers_collectOrphanedBlobsAt (t := t) (hs.sweepAll removed)
    obtain ⟨response', heq, hinspected, hdeleted, rfl⟩ := hdelivers.returns hpass
    obtain rfl := Except.ok.inj heq
    have hempty := List.eq_nil_of_length_eq_zero (hinspected.symm.trans hzero)
    have hnext := hswept.pass hs hinspected hdeleted
    rw [hempty, List.append_nil] at hnext
    refine ⟨removed, hnext, ?_, ?_⟩
    · rw [hempty]
      rfl
    · rw [hempty]
      exact gcCandidates_nil hempty

/-- No row is removed twice. -/
theorem Swept.nodup (h : Swept nowSeq s responses removed) : removed.Nodup :=
    List.Nodup.of_map _ h.ids

theorem Swept.length_le (h : Swept nowSeq s responses removed) :
    removed.length ≤ (s.db.blobs.filter (BlobRow.eligible nowSeq)).length :=
  (List.subperm_of_subset h.nodup fun r hr => List.mem_filter.mpr (h.rows r hr)).length_le

/-- A row that is due is a row whose deadline has passed. -/
theorem Drainable.due_iff (h : Drainable nowSeq s) {r : BlobRow} (hr : r ∈ s.db.blobs) :
    s.db.due nowSeq r = true ↔ r.eligible nowSeq = true := by
  unfold Db.due
  rw [Bool.and_eq_true, Bool.not_eq_true']
  refine and_iff_right_of_imp fun hdue => ?_
  rw [Bool.eq_false_iff]
  intro hlive
  obtain ⟨a, ha, hblob, -⟩ := Db.hasLiveReference_iff.mp hlive
  exact h.unreferenced r hr hdue a ha hblob

/-- Once nothing is due any more, exactly the rows that were due have been removed. -/
theorem Swept.exact (h : Swept nowSeq s responses removed) (hs : Drainable nowSeq s)
    (hdone : ∀ r ∈ (removed.foldl sweep s).db.blobs, r.eligible nowSeq = false) :
    ∀ r, r ∈ removed ↔ r ∈ s.db.blobs ∧ s.db.due nowSeq r = true := by
  intro r
  constructor
  · intro hr
    obtain ⟨hmem, hdue⟩ := h.rows r hr
    exact ⟨hmem, (hs.due_iff hmem).mpr hdue⟩
  · rintro ⟨hmem, hdue⟩
    have hdue' := (hs.due_iff hmem).mp hdue
    by_contra hkept
    have hnot : r.id ∉ removed.map BlobRow.id := by
      intro hid
      obtain ⟨x, hx, heq⟩ := List.mem_map.mp hid
      exact hkept (hs.ids.eq_of_mem (h.rows x hx).1 hmem heq ▸ hx)
    have hleft : r ∈ (removed.foldl sweep s).db.blobs := by
      rw [foldl_sweep_db]
      exact List.mem_filter.mpr ⟨hmem, decide_eq_true hnot⟩
    rw [hdone r hleft] at hdue'
    exact Bool.false_ne_true hdue'

end Passes

/-! ## §3 — An archive with nothing in flight. -/

/-- No directory is where a blob file belongs. -/
def NoBlobDirs (s : Shared) : Prop := ∀ d, s.fs.lookup (blobPath d) ≠ some .dir

section Quiescence

variable {c : Crates} {cfg : Config} {sqlite : SqliteChecks} {mode : Mode} {t : TaskId}
  {s s' : Shared} {m : Moment}

/-- A request makes directories elsewhere only. -/
theorem SysStep.noBlobDirs (h : SysStep c cfg mode t s s') (hs : NoBlobDirs s) : NoBlobDirs s' := by
  intro d
  cases h with
  | files hwrite horderly =>
    cases hwrite with
    | upload hfs =>
      rcases hfs (blobPath d) with heq | ⟨hother, -⟩
      · rw [heq]
        exact hs d
      · rw [upload?_blobPath] at hother
        exact absurd hother Bool.false_ne_true
    | blobDirs hfs =>
      rcases hfs (blobPath d) with heq | ⟨-, -, hdir⟩
      · rw [heq]
        exact hs d
      · rcases hdir with hdir | ⟨d', hdir⟩ <;> simp [blobPath] at hdir
    | link d' bytes hlock hnone hdigest hfs =>
      rw [hfs]
      split
      · rintro ⟨⟩
      · exact hs d
    | unlink d' hlock hfs =>
      rw [hfs]
      split
      · rintro ⟨⟩
      · exact hs d
  | _ => exact hs d

theorem Moved.noBlobDirs (h : Moved c cfg s s') (hs : NoBlobDirs s) : NoBlobDirs s' := by
  cases h with
  | stays => exact hs
  | task h => exact h.noBlobDirs hs
  | boot h =>
    cases h with
    | service h => exact h.noBlobDirs hs
    | files hlegacy hblobs =>
      intro d
      rcases hblobs d with heq | hnone
      · exact heq ▸ hs d
      · rw [hnone]
        exact fun h => nomatch h
    | _ => exact hs
  | stop => exact hs

/-- Whatever happens to an archive, there is no directory where a blob file belongs. -/
theorem Life.noBlobDirs (h : Life c cfg sqlite m) : NoBlobDirs m.state := by
  induction h with
  | refl => exact fun d h => nomatch h
  | tail hlife hstep ih => exact (hstep.good (Life.good hlife)).2.noBlobDirs ih

/-- An artifact row belongs to a live snapshot. -/
def Db.ArtifactsLive (db : Db) : Prop :=
  ∀ a ∈ db.artifacts, ∃ r ∈ db.snapshots, r.id = a.snapshotId ∧ r.live = true

theorem Effect.artifactsLive {ids : List String} {db : Db} (h : Effect c cfg mode t s ids db)
    (hs : s.db.ArtifactsLive) : db.ArtifactsLive := by
  cases h with
  | recorded x row manifestRow blobIds hx hattach hblobs hrow hfresh hfree hrows hcontexts =>
    obtain ⟨original, stored, -, -, rfl⟩ := snapshotRow_ok hrow
    intro a ha
    rcases List.mem_append.mp ha with ha | ha
    · obtain ⟨r, hr, hrest⟩ := hs a ha
      exact ⟨r, List.mem_append_left _ hr, hrest⟩
    · exact ⟨_, List.mem_append_right _ List.mem_cons_self,
        ((artifactRows_blob hrows).1 a ha).1.symm,
        rfl⟩
  | deleted x snapshot manifest hx hrow hlive hfresh =>
    rw [foldl_scheduleOrClearBlobCandidate]
    intro a ha
    obtain ⟨hold, hother⟩ := List.mem_filter.mp ha
    obtain ⟨r, hr, hid, hrlive⟩ := hs a hold
    refine ⟨r, Lib.mem_updateWhere_of_not hr ?_, hid, hrlive⟩
    rw [decide_eq_false fun hsame => of_decide_eq_true hother (hid.symm.trans hsame),
      Bool.false_and]
  | _ => exact hs

theorem DbMoved.artifactsLive (h : DbMoved c cfg s s') (hs : s.db.ArtifactsLive) :
    s'.db.ArtifactsLive := by
  cases h with
  | stays hdb hused =>
    rw [hdb]
    exact hs
  | writes hfresh heffect hused => exact heffect.artifactsLive hs
  | collects hcollects hused =>
    obtain ⟨row, -, -, heq⟩ := hcollects
    rw [heq]
    exact hs
  | chunks keep hdb hused =>
    rw [hdb]
    exact hs
  | legacy uploadId artifact chunkSize now expiresAt hactive hdb hused =>
    rw [hdb]
    exact fun a ha => hs a (List.mem_of_mem_filter ha)
  | contexts hdb hused =>
    rw [hdb]
    exact hs

theorem Life.artifactsLive (h : Life c cfg sqlite m) : m.state.db.ArtifactsLive :=
  h.keeps (fun _ ha => absurd ha List.not_mem_nil) fun _ _ hmoved hs => hmoved.artifactsLive hs

/-- **`Life.drainable`** — with nothing in flight, an archive is ready for a pass of garbage
collection, whatever happened to it before. -/
theorem Life.drainable {p : Server} (h : Life c cfg sqlite (.serving p))
    (hidle : ∀ t, p.tasks t = none) (nowSeq : ℤ) : Drainable nowSeq p.state := by
  have hs : Archive c p.state := (Life.good h).archive
  have howned : p.Idle (discipline c cfg .any) := Life.owned h
  constructor
  · refine List.eq_nil_iff_forall_not_mem.mpr fun lock hlock => ?_
    exact (howned lock.2 (hidle _)).1 lock.1 hlock
  · rw [Option.eq_none_iff_forall_ne_some]
    rintro ⟨t, db⟩ hwriter
    exact (howned t (hidle t)).2 db hwriter
  · exact hs.inv.unique.blobs
  · intro r hr hdue a ha hblob
    obtain ⟨snapshot, hsnapshot, hid, hlive⟩ := h.artifactsLive a ha
    have hreferenced : p.state.db.hasLiveReference r.id = true :=
      Db.hasLiveReference_iff.mpr ⟨a, ha, hblob, snapshot, hsnapshot, hid, hlive⟩
    have hmark := ((hs.candidates.iff hr).1).mp hreferenced
    unfold BlobRow.eligible at hdue
    rw [hmark.2.2] at hdue
    exact Bool.false_ne_true hdue
  · exact Life.noBlobDirs h

end Quiescence

/-- **`gcDrains`** — the passes at one time of the clock, on an archive with nothing in flight: each
comes to its end and succeeds; among more passes than there were blobs due, one inspects nothing;
and after such a one exactly the blobs that were due have lost their row and their file, every other
row and file is as it was, and the passes have counted what is gone. -/
theorem gcDrains {c : Crates} {cfg : Config} {sqlite : SqliteChecks} {p : Server}
    (hlife : Life c cfg sqlite (.serving p)) (hidle : ∀ t, p.tasks t = none)
    (now : OffsetDateTime) (t : TaskId) :
    (∀ responses s, GcPasses now t p.state responses s →
      (∃ response s', GcPasses now t p.state (responses ++ [response]) s') ∧
        ∀ result s', (collectOrphanedBlobsAt now).run.Returns steady t s result s' →
          ∃ response, result = .ok response) ∧
    (∀ responses s, GcPasses now t p.state responses s →
      (p.state.db.blobs.filter (p.state.db.due (sortKeyFromTimestamp now))).length <
        responses.length → ∃ response ∈ responses, response.inspectedBlobs = 0) ∧
    ∀ responses response s, GcPasses now t p.state (responses ++ [response]) s →
      response.inspectedBlobs = 0 →
      s.db = { p.state.db with blobs :=
        p.state.db.blobs.filter fun r => !p.state.db.due (sortKeyFromTimestamp now) r } ∧
      (∀ path, s.fs.lookup path =
        if ∃ r ∈ p.state.db.blobs, p.state.db.due (sortKeyFromTimestamp now) r = true ∧
          path = blobPath r.storedSha256 then none else p.state.fs.lookup path) ∧
      ((responses ++ [response]).map BlobGcResponse.deletedBlobs).sum =
        (p.state.db.blobs.filter (p.state.db.due (sortKeyFromTimestamp now))).length := by
  have hs := Life.drainable hlife hidle (sortKeyFromTimestamp now)
  have hsupplied : ∀ s, ∃ e, steady.envOk e s := fun _ => ⟨⟨0, "", none⟩, rfl⟩
  refine ⟨fun responses s hpasses => ?_, fun responses s hpasses hmany => ?_,
    fun responses response s hpasses hzero => ?_⟩
  · obtain ⟨removed, -, rfl⟩ := hpasses.swept hs
    have hdelivers := delivers_collectOrphanedBlobsAt (t := t) (hs.sweepAll removed)
    refine ⟨?_, fun result s' hreturns => ?_⟩
    · obtain ⟨result, s', hreturns⟩ := Delivers.exists_returns hdelivers hsupplied
      obtain ⟨response, rfl, -⟩ := hdelivers.returns hreturns
      exact ⟨response, s', .pass hpasses hreturns⟩
    · obtain ⟨response, rfl, -⟩ := hdelivers.returns hreturns
      exact ⟨response, rfl⟩
  · obtain ⟨removed, hswept, -⟩ := hpasses.swept hs
    by_contra hnone
    push Not at hnone
    have hbusy := hswept.busy
    rw [List.filter_eq_self.mpr fun r hr => decide_eq_true (hnone r hr)] at hbusy
    have hle := hswept.length_le
    have hsame : p.state.db.blobs.filter (p.state.db.due (sortKeyFromTimestamp now)) =
        p.state.db.blobs.filter (BlobRow.eligible (sortKeyFromTimestamp now)) :=
      List.filter_congr fun r hr => Bool.eq_iff_iff.mpr (hs.due_iff hr)
    rw [hsame] at hmany
    omega
  · obtain ⟨removed, hswept, rfl, hdone⟩ := hpasses.emptied hs hzero
    have hexact := hswept.exact hs hdone
    refine ⟨?_, fun path => ?_, ?_⟩
    · rw [foldl_sweep_db]
      refine congrArg (fun blobs => { p.state.db with blobs := blobs }) ?_
      refine List.filter_congr fun r hr => ?_
      rw [Bool.eq_iff_iff, decide_eq_true_eq, Bool.not_eq_true', Bool.eq_false_iff, ne_eq,
        not_iff_not, List.mem_map]
      constructor
      · rintro ⟨x, hx, hid⟩
        obtain rfl := hs.ids.eq_of_mem ((hexact x).mp hx).1 hr hid
        exact ((hexact x).mp hx).2
      · exact fun hdue => ⟨r, (hexact r).mpr ⟨hr, hdue⟩, rfl⟩
    · rw [foldl_sweep_lookup]
      refine if_congr ?_ rfl rfl
      rw [List.mem_map]
      refine exists_congr fun r => ?_
      rw [hexact r, and_assoc]
      exact and_congr_right' (and_congr_right' eq_comm)
    · rw [hswept.deleted]
      have hrows : p.state.db.blobs.Nodup := List.Nodup.of_map _ hs.ids
      refine List.Perm.length_eq ((List.perm_ext_iff_of_nodup hswept.nodup (hrows.filter _)).mpr ?_)
      intro r
      rw [hexact r, List.mem_filter]

/-- The passes before one of some passes were passes as well. -/
theorem GcPasses.before {now : OffsetDateTime} {t : TaskId} {s₀ s : Shared}
    {responses all : List BlobGcResponse} (h : GcPasses now t s₀ all s)
    (hinit : responses <+: all) : ∃ s', GcPasses now t s₀ responses s' := by
  induction h with
  | start =>
    obtain rfl := List.prefix_nil.mp hinit
    exact ⟨_, .start⟩
  | pass h hreturns ih =>
    rcases List.prefix_concat_iff.mp hinit with rfl | hinit
    · exact ⟨_, .pass h hreturns⟩
    · exact ih hinit

/-- Passes that go on, and of which enough do not all find something, come to one that finds
nothing. -/
theorem GcPasses.exists_empty {now : OffsetDateTime} {t : TaskId} {s₀ : Shared} {bound : ℕ}
    (hnext : ∀ responses s, GcPasses now t s₀ responses s →
      ∃ response s', GcPasses now t s₀ (responses ++ [response]) s')
    (hends : ∀ responses s, GcPasses now t s₀ responses s → bound < responses.length →
      ∃ response ∈ responses, response.inspectedBlobs = 0) :
    ∃ responses response s, GcPasses now t s₀ (responses ++ [response]) s ∧
      response.inspectedBlobs = 0 := by
  have hmany (n : ℕ) : ∃ responses s, GcPasses now t s₀ responses s ∧ responses.length = n := by
    induction n with
    | zero => exact ⟨[], s₀, .start, rfl⟩
    | succ n ih =>
      obtain ⟨responses, s, hpasses, hlength⟩ := ih
      obtain ⟨response, s', hpass⟩ := hnext responses s hpasses
      exact ⟨_, s', hpass, by simp [hlength]⟩
  obtain ⟨all, s, hall, hlength⟩ := hmany (bound + 1)
  obtain ⟨response, hmem, hzero⟩ := hends all s hall (by omega)
  obtain ⟨before, after, rfl⟩ := List.append_of_mem hmem
  have hinit : before ++ [response] <+: before ++ response :: after := ⟨after, by simp⟩
  obtain ⟨s', hpasses⟩ := hall.before hinit
  exact ⟨before, response, s', hpasses, hzero⟩

/-! ### Two deleted snapshots and their blobs. -/

/-- A server none of whose tasks so far is in flight any more. -/
theorem Life.nothing_inFlight {p : Server} (h : Life c cfg sqlite (.serving p))
    (htasks : ∀ t < p.fresh, (p.tasks t).isNone = true) : ∀ t, p.tasks t = none := by
  obtain ⟨s, -, hrun⟩ := h.started
  intro t
  by_cases ht : t < p.fresh
  · exact Option.isNone_iff_eq_none.mp (htasks t ht)
  · obtain ⟨seen, hfollows⟩ := Pool.Follows.of_run hrun
    exact (hfollows.along_of_init.1 (not_lt.mp ht)).2

def aDigest : String := "ca978112ca1bbdcafac231b39a23dc4da786eff8147c4e72b9807785afee48bb"

def bDigest : String := "3e23e8160039594a33894f6564e1b1348bbd7a0088d42c4acb73eeaed59c009d"

/-- A manifest of two artifacts, of the byte `a` and of the byte `b`. -/
def pairManifest : ManifestInput :=
  { sampleManifest with
    session := ⟨"pair", "session"⟩
    artifacts := some
      [⟨"a.txt", none, 1, "sha256:" ++ aDigest, 1, "sha256:" ++ aDigest, .identity⟩,
        ⟨"b.txt", none, 1, "sha256:" ++ bDigest, 1, "sha256:" ++ bDigest, .identity⟩] }

def pairStored : Manifest :=
  ⟨1, pairManifest.session, pairManifest.capture, pairManifest.artifacts.getD []⟩

/-- The real digests of its canonical JSON and of its fingerprint document. -/
def pairManifestDigest : String :=
  "083d4f83089d6e15b878abbc409ccc652fa3b45a8238d33b66060a74d482f615"

def pairFingerprint : String :=
  "16857a714442b4f5bb1fb0ef16c7f218ac44de73a63c4e141337afa1561bdcc3"

/-- The crates as they answer on an archive of the two manifests, whose documents are told apart by
the name of the agent. -/
def pairCrates : Crates :=
  { Crates.sample [] with
    sha256Hex := fun bytes =>
      match bytes with
      | [] => emptyDigest
      | [byte] => if byte = 97 then aDigest else bDigest
      | bytes =>
        if bytes[2]? = some 118 then
          if bytes[59]? = some 97 then sampleFingerprint else pairFingerprint
        else if bytes[47]? = some 97 then sampleManifestDigest
        else pairManifestDigest
    jsonFromSlice := fun bytes =>
      if bytes[1]? = some 125 then some (.obj [])
      else if bytes[47]? = some 97 then some sampleManifestJson
      else some pairStored.toJson }

/-- The chunk of one of the two artifacts. -/
def pairPut (index : String) (byte : UInt8) (digest : String) : PutChunkRequest where
  uploadId := sampleUuid 62
  artifactIndex := index
  chunkIndex := "0"
  contentType := some (some "application/octet-stream")
  chunkSha256 := some (some ("sha256:" ++ digest))
  chunkLength := some (some "1")
  body := [.data [byte]]

/-- Both manifests are archived. The snapshot of two artifacts is deleted a second later, the other
one two seconds after that. -/
def pairEvents : List (Event Env Request) :=
  archivedEvents ++
    (served 3 (.createUpload ⟨sampleClientId, some "pair", none, pairManifest⟩) 0 59 10 ++
    (served 4 (.putArtifactChunk (pairPut "0" 97 aDigest)) 0 69 19 ++
    (served 5 (.putArtifactChunk (pairPut "1" 98 bDigest)) 0 88 19 ++
    (served 6 (.completeUpload (sampleUuid 62)) 0 107 48 ++
    (served 7 (.deleteSnapshot ⟨sampleUuid 145, none,
      some ("delete-snapshot:" ++ sampleUuid 145 ++ ":sha256:" ++ pairFingerprint),
      none⟩) 1 155 12 ++
    served 8 (.deleteSnapshot (sampleDeletion (sampleUuid 50))) 3 167 11)))))

theorem sampled_pairEvents : ∀ ev ∈ pairEvents, ∀ e ∈ ev.input?, Sampled e := by
  intro ev hev
  simp only [pairEvents, List.mem_append] at hev
  rcases hev with hev | hev | hev | hev | hev | hev | hev
  · exact sampled_archivedEvents ev hev
  all_goals exact sampled_served (by norm_num) ev hev

/-- Nothing is in flight then, and three seconds after the start two of the three blobs are due. -/
theorem pairArchive : ∃ p : Server, Life pairCrates sampleConfig sampleSqlite (.serving p) ∧
    (∀ t, p.tasks t = none) ∧
    p.state.db.blobs.map (p.state.db.due (sortKeyFromTimestamp (.utc 1767225603000000000))) =
      [false, true, true] := by
  have hserver : (lifeReplay pairCrates sampleConfig pairEvents).any (fun p =>
      (List.range p.fresh).all (fun t => (p.tasks t).isNone) &&
        decide (p.state.db.blobs.map (p.state.db.due
          (sortKeyFromTimestamp (.utc 1767225603000000000))) = [false, true, true])) = true := by
    decide +kernel
  obtain ⟨p, hp, hok⟩ := (Option.any_eq_true _ _).mp hserver
  obtain ⟨htasks, hflags⟩ := Bool.and_eq_true_iff.mp hok
  have hlife := life_of_lifeReplay sampled_pairEvents hp
  refine ⟨p, hlife, ?_, of_decide_eq_true hflags⟩
  exact hlife.nothing_inFlight fun t ht => List.all_eq_true.mp htasks t (List.mem_range.mpr ht)

/-- Two of the three blobs are deleted: the passes end with one that finds nothing, and the third
blob is left. -/
theorem gcDrains_sample : ∃ (p : Server) (responses : List BlobGcResponse)
    (response : BlobGcResponse) (s : Shared),
    Life pairCrates sampleConfig sampleSqlite (.serving p) ∧ p.state.db.blobs.length = 3 ∧
    GcPasses (.utc 1767225603000000000) 0 p.state (responses ++ [response]) s ∧
    response.inspectedBlobs = 0 ∧
    ((responses ++ [response]).map BlobGcResponse.deletedBlobs).sum = 2 ∧
    s.db.blobs.length = 1 := by
  obtain ⟨p, hlife, hidle, hflags⟩ := pairArchive
  obtain ⟨hnext, hends, hdone⟩ := gcDrains hlife hidle (.utc 1767225603000000000) 0
  obtain ⟨responses, response, s, hpasses, hzero⟩ :=
    GcPasses.exists_empty (fun responses s h => (hnext responses s h).1) hends
  obtain ⟨hdb, -, hsum⟩ := hdone responses response s hpasses hzero
  have hcount : p.state.db.blobs.length = 3 := by
    simpa using congrArg List.length hflags
  have hdue (b : Bool) : (p.state.db.blobs.filter fun r => p.state.db.due
      (sortKeyFromTimestamp (.utc 1767225603000000000)) r == b).length =
      [false, true, true].count b := by
    rw [← hflags, List.count_eq_countP, List.countP_map, List.countP_eq_length_filter]
    rfl
  refine ⟨p, responses, response, s, hlife, hcount, hpasses, hzero, ?_, ?_⟩
  · rw [hsum]
    simpa using hdue true
  · rw [hdb]
    simpa using hdue false

end Patwari
