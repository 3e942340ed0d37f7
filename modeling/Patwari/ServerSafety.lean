/-
# Patwari.ServerSafety — every request of a running server keeps the discipline.

§1 is deletion and garbage collection, the one place where a write transaction stays open while a
file is removed. §2 puts the requests together: whatever request a task serves, whatever the other
tasks do and wherever a task fails or is dropped, every step of a run is a step of the discipline.
What holds of all runs is proved from there on by a case analysis of those steps.
-/
import Patwari.CompletionSafety

namespace Patwari

open Lib (Prog Pool Event TaskId Discipline UniqueOn)
open Lib.Discipline
open Lib.Prog (KeepsE Keeps)

variable {c : Crates} {cfg : Config} {mode : Mode} {t : TaskId} {s : Shared}

/-! ## §1 — Deletion and garbage collection. -/

theorem always_tombstoneResponse (snapshotId : String) :
    (discipline c cfg mode).AlwaysE (tombstoneResponse cfg snapshotId) := by
  refine AlwaysE.bind always_query fun row => ?_
  iterate 3 refine AlwaysE.bind always_check fun _ => ?_
  exact AlwaysE.pure _

theorem always_deleteUnderLock (request : DeleteSnapshotRequest) (snapshotId : String)
    (reason : Option String) :
    (discipline c cfg mode).AlwaysE (deleteUnderLock c cfg request snapshotId reason) := by
  refine AlwaysE.bind always_query fun current => AlwaysE.bind always_check fun _ => ?_
  split
  · exact always_tombstoneResponse snapshotId
  refine AlwaysE.bind always_query fun blobs => ?_
  refine AlwaysE.bind (always_lift (always_acquireAll _)) fun _ => ?_
  refine SafeE.always (Q := fun _ _ _ => True) (R := fun _ _ _ => True) fun t s hinv => ?_
  refine SafeE.bind (SafeE.lift safe_nowUtc hinv) hinv fun now s₁ hinv₁ _ hnow => ?_
  obtain ⟨n, rfl, -⟩ := hnow
  refine safe_check_bind (fun deletedAt hformat => ?_) fun _ _ => trivial
  have hdeleted : c.formatRfc3339 (.utc n) = some deletedAt := okOr_eq_ok.mp hformat
  refine safe_check_bind (fun eligibleAfter hformat => ?_) fun _ _ => trivial
  have heligible : c.formatRfc3339 (expirationTime (.utc n) cfg.blobGcGrace) =
    some eligibleAfter := okOr_eq_ok.mp hformat
  refine SafeE.bind (SafeE.lift (safe_freshId Fresh.nil) hinv₁) hinv₁
    fun tombstoneId s₂ hinv₂ _ htombstone => ?_
  refine SafeE.bind (SafeE.lift (safe_freshId htombstone.2.1) hinv₂) hinv₂
    fun auditId s₃ hinv₃ _ haudit => ?_
  refine SafeE.bind (safe_transaction (Q := fun _ _ => True) (Stable.true t) trivial
    (haudit.2.1.perm (List.Perm.swap _ _ _)) (fun s' _ db _ _ _ h => ⟨?_, trivial⟩)
    fun _ _ => trivial) hinv₃ fun _ s₄ hinv₄ _ _ => ?_
  · exact .recordDeletion _ ⟨n, hdeleted, rfl, heligible, rfl⟩ h
  · refine SafeE.of_always ?_ hinv₄
    exact AlwaysE.bind (always_lift (always_release _)) fun _ => always_tombstoneResponse snapshotId

theorem always_deleteSnapshot (request : DeleteSnapshotRequest) :
    (discipline c cfg mode).AlwaysE (deleteSnapshot c cfg request) := by
  refine AlwaysE.bind always_check fun _ => AlwaysE.bind always_check fun snapshotId => ?_
  refine AlwaysE.bind always_check fun reason => AlwaysE.bind always_query fun initial => ?_
  refine AlwaysE.bind always_check fun _ => ?_
  split
  · exact always_tombstoneResponse snapshotId
  · refine AlwaysE.bind (always_lift (always_acquire _)) fun _ => ?_
    exact always_deleteUnderLock request snapshotId reason

/-- A blob row that was read is known from then on. -/
theorem known_of_blob (hinv : s.Inv c) {r : BlobRow} (hr : r ∈ s.db.blobs) :
    BlobKnown r.id r.storedSha256 s := by
  refine ⟨hinv.issued.blobs r hr, fun r' hr' hid => ?_⟩
  rw [hinv.unique.blobs.eq_of_mem hr' hr hid]

/-- The open transaction of a collection, which leaves no row of the digest. -/
def Collected (t : TaskId) (d : String) (s : Shared) : Prop :=
  ∃ pending, s.writer = some (t, pending) ∧ ∀ r ∈ pending.blobs, r.storedSha256 ≠ d

theorem Collected.stable (d : String) : (discipline c cfg mode).Stable t (Collected t d) := by
  rintro s s' t' hne hinv hstep ⟨pending, hwriter, hfree⟩
  exact ⟨pending, writer_stable pending s s' t' hne hinv hstep hwriter, hfree⟩

/-- One candidate's transaction up to its file removal, under the lock of its digest. -/
theorem safe_beginCollect {candidate : BlobRow} {locks : List Lock} {nowSeq : ℤ}
    (hcollects : mode.Collects t nowSeq)
    (hlock : blobLock candidate.storedSha256 ∈ locks)
    (hs : BlobKnown candidate.id candidate.storedSha256 s ∧ HoldsAll t locks s) :
    (discipline c cfg mode).SafeE t (beginCollect candidate.id nowSeq)
      (fun step s => step = .deleting → Collected t candidate.storedSha256 s)
      (fun _ _ => True) s := by
  have hstable : (discipline c cfg mode).Stable t fun s =>
      BlobKnown candidate.id candidate.storedSha256 s ∧ HoldsAll t locks s :=
    ((BlobKnown.persistent _ _).stable t).and (HoldsAll.stable locks)
  refine Safe.atomic hstable hs (fun s' e hinv _ _ hs' => ?_)
    fun hdet => by simp [system, Label.detachable] at hdet
  obtain ⟨hknown, hlocks⟩ := hs'
  cases e.fault with
  | some fault => exact ⟨.refl, trivial⟩
  | none =>
    by_cases hwriter : s'.writer.isSome
    · simp only [hwriter, if_true]
      exact ⟨.refl, trivial⟩
    simp only [hwriter, Bool.false_eq_true, if_false]
    have hnone : s'.writer = none := by simpa using hwriter
    cases hcollect : collectBlobRow candidate.id nowSeq s'.db with
    | error err => exact ⟨.refl, trivial⟩
    | ok r =>
      obtain ⟨step, db⟩ := r
      cases step with
      | skipped =>
        exact ⟨.write hnone Fresh.nil (.collectBlobRow candidate.id nowSeq (by simp) hcollect),
          fun h => by simp at h⟩
      | cleared =>
        exact ⟨.write hnone Fresh.nil (.collectBlobRow candidate.id nowSeq (by simp) hcollect),
          fun h => by simp at h⟩
      | deleting =>
        refine ⟨.beginCollect candidate.id nowSeq hnone (fun r hr hid => ?_) hcollect hcollects,
          fun _ => ⟨db, rfl, fun r hr hsha => ?_⟩⟩
        · rw [hknown.2 r hr hid]
          exact hlocks _ hlock
        · rcases collectBlobRow_ok hcollect with ⟨hstep, -⟩ | ⟨row, hrow, hid, -, hcase⟩
          · simp at hstep
          rcases hcase with ⟨hstep, -⟩ | ⟨-, -, rfl⟩
          · simp at hstep
          -- the digest has one row only, the one that goes
          obtain ⟨hr, hne⟩ := List.mem_filter.mp hr
          have hsame : r = row := by
            refine hinv.unique.digests.eq_of_mem hr hrow (Prod.ext ?_ ?_)
            · exact (hinv.owned r hr).trans (hinv.owned row hrow).symm
            · exact hsha.trans (hknown.2 row hrow hid).symm
          rw [hsame] at hne
          simp at hne

/-- The commit of a collection is that of the task's own open transaction, or its rollback. -/
theorem safe_commitCollect {d : String} (hkeeper : mode.keepers t) (hs : Collected t d s) :
    (discipline c cfg mode).SafeE t commitCollect (fun _ _ => True) (fun _ _ => True) s := by
  refine Safe.atomic (Collected.stable d) hs (fun s' e hinv _ _ hs' => ?_)
    fun hdet => by simp [system, Label.detachable] at hdet
  obtain ⟨pending, hwriter, -⟩ := hs'
  simp only [hwriter, if_true]
  cases e.fault with
  | some fault => exact ⟨.rollback hwriter, trivial⟩
  | none => exact ⟨.commitCollect hwriter hkeeper, trivial⟩

theorem safe_collectCandidates {nowSeq : ℤ} (hkeeper : mode.keepers t)
    (hcollects : mode.Collects t nowSeq) (candidates : List BlobRow) (deleted : ℕ) (hinv : s.Inv c)
    (hs : ∀ r ∈ candidates, BlobKnown r.id r.storedSha256 s) :
    (discipline c cfg mode).SafeE t (collectCandidates nowSeq candidates deleted)
      (fun _ _ => True) (fun _ _ => True) s := by
  induction candidates generalizing deleted s with
  | nil => exact SafeE.pure trivial
  | cons candidate rest ih =>
    have hknown := hs candidate List.mem_cons_self
    have hrest (s' : Shared) (hr : (discipline c cfg mode).Reach s s') :
        ∀ r ∈ rest, BlobKnown r.id r.storedSha256 s' :=
      fun r hmem => (BlobKnown.persistent _ _).of_reach hr (hs r (List.mem_cons_of_mem _ hmem))
    have hlock : blobLock candidate.storedSha256 ∈
        blobLocksForDigests [candidate.storedSha256] :=
      blobLock_mem_blobLocksForDigests (List.mem_singleton_self _)
    rw [collectCandidates]
    refine SafeE.bind (SafeE.lift (safe_acquireAll _ hinv) hinv) hinv
      fun _ s₁ hinv₁ hr₁ hlocks => ?_
    refine SafeE.bind_frame (safe_beginCollect hcollects hlock
      ⟨(BlobKnown.persistent _ _).of_reach hr₁ hknown, hlocks⟩) hinv₁ ?_ (HoldsAll.stable _) hlocks
      fun step s₂ hinv₂ hr₂ hstep hlocks₂ => ?_
    · refine Keeps.atomic fun e s hs => ?_
      cases e.fault with
      | some fault => exact hs
      | none =>
        dsimp only
        split
        · exact hs
        · split <;> exact hs
    have hskip : (discipline c cfg mode).SafeE t (do
        release (blobLocksForDigests [candidate.storedSha256])
        collectCandidates nowSeq rest deleted) (fun _ _ => True) (fun _ _ => True) s₂ := by
      refine SafeE.bind (SafeE.of_always (always_lift (always_release _)) hinv₂) hinv₂
        fun _ s₃ hinv₃ hr₃ _ => ?_
      exact ih deleted hinv₃ (hrest s₃ (hr₁.trans (hr₂.trans hr₃)))
    cases step with
    | skipped => exact hskip
    | cleared => exact hskip
    | deleting =>
      have hcollected := hstep rfl
      have hlock₂ : Holds t (blobLock candidate.storedSha256) s₂ := hlocks₂ _ hlock
      refine SafeE.bind_frame (SafeE.lift (safe_removeBlobFile hkeeper
        ((Holds.stable (blobLock candidate.storedSha256)).and
          (Collected.stable candidate.storedSha256)) ⟨hlock₂, hcollected⟩
        fun _ s' _ hs' => ⟨hs'.1, Or.inr hs'.2⟩) hinv₂) hinv₂
        (keeps_lift (keeps_removeBlobFile _ fun s fs _ hs => hs))
        (Collected.stable candidate.storedSha256) hcollected fun r s₃ hinv₃ hr₃ _ hcollected₃ => ?_
      refine safe_orFail_bind (fun _ _ => ?_) trivial
      refine SafeE.bind (safe_commitCollect hkeeper hcollected₃) hinv₃ fun _ s₄ hinv₄ hr₄ _ => ?_
      refine SafeE.bind (SafeE.of_always (always_lift (always_release _)) hinv₄) hinv₄
        fun _ s₅ hinv₅ hr₅ _ => ?_
      exact ih (deleted + 1) hinv₅
        (hrest s₅ (hr₁.trans (hr₂.trans (hr₃.trans (hr₄.trans hr₅)))))

theorem safe_collectOrphanedBlobsAt {n : ℤ} (hkeeper : mode.keepers t)
    (hcollector : mode.collectors t) (hreading : mode.readings t n) (hinv : s.Inv c) :
    (discipline c cfg mode).SafeE t (collectOrphanedBlobsAt (.utc n)) (fun _ _ => True)
      (fun _ _ => True) s := by
  refine SafeE.bind (safe_query (Q := fun candidates s =>
    ∀ r ∈ candidates, BlobKnown r.id r.storedSha256 s) (fun s' candidates hinv' _ h r hr => ?_)
    fun _ _ => trivial) hinv fun candidates s₁ hinv₁ _ hcandidates => ?_
  · obtain rfl := pure_eq_ok.mp h
    have hmem := List.mem_of_mem_take hr
    rw [List.mem_insertionSort] at hmem
    exact known_of_blob hinv' (List.mem_of_mem_filter hmem)
  · refine SafeE.bind (safe_collectCandidates hkeeper ⟨hcollector, n, hreading, rfl⟩ candidates 0
      hinv₁ hcandidates) hinv₁ fun _ _ _ _ _ => ?_
    exact SafeE.pure trivial

theorem safe_runBlobGc (hkeeper : mode.keepers t) (hcollector : mode.collectors t)
    (hinv : s.Inv c) :
    (discipline c cfg mode).SafeE t (runBlobGc cfg) (fun _ _ => True) (fun _ _ => True) s := by
  refine safe_check_bind (fun _ _ => ?_) fun _ _ => trivial
  refine SafeE.bind (SafeE.lift safe_nowUtc hinv) hinv fun now s₁ hinv₁ _ hnow => ?_
  obtain ⟨n, rfl, hreading⟩ := hnow
  exact safe_mapErr (safe_collectOrphanedBlobsAt hkeeper hcollector hreading hinv₁) hinv₁
    fun _ _ _ => trivial

/-! ## §2 — The server. -/

theorem always_respond {κ α : Type} (failure : κ → Failure) (response : α → Response)
    {p : Handler κ α} (h : (discipline c cfg mode).AlwaysE p) :
    (discipline c cfg mode).Always (respond failure response p) := by
  refine Always.bind h fun r => ?_
  cases r with
  | ok a => exact Always.done _
  | error e => exact Always.done _

theorem safe_respond {κ α : Type} (failure : κ → Failure) (response : α → Response)
    {p : Handler κ α}
    (h : (discipline c cfg mode).SafeE t p (fun _ _ => True) (fun _ _ => True) s)
    (hinv : s.Inv c) :
    (discipline c cfg mode).Safe t (respond failure response p) (fun _ _ => True) s := by
  refine Safe.bind h hinv fun r _ _ _ => ?_
  cases r with
  | ok a => exact trivial
  | error e => exact trivial

/-- The requests that link canonical blob files or remove them. -/
def Request.keepsBlobs : Request → Bool
  | .completeUpload _ | .runBlobGc | .collectBlobGarbage => true
  | _ => false

/-- The requests that collect blobs. -/
def Request.collectsBlobs : Request → Bool
  | .runBlobGc | .collectBlobGarbage => true
  | _ => false

/-- A task may serve the request: only keepers touch canonical blob files, and only collectors
collect. -/
def Mode.Serves (mode : Mode) (request : Request) (t : TaskId) : Prop :=
  (request.keepsBlobs = true → mode.keepers t) ∧
    (request.collectsBlobs = true → mode.collectors t)

/-- **`safe_handle`** — whatever request a task serves, it takes only guaranteed steps. -/
theorem safe_handle (sqlite : SqliteChecks) {request : Request} (hserves : mode.Serves request t)
    (hinv : s.Inv c) :
    (discipline c cfg mode).Safe t (handle c cfg sqlite request) (fun _ _ => True) s := by
  have of_always {p : Program Outcome} (h : (discipline c cfg mode).Always p) :
      (discipline c cfg mode).Safe t p (fun _ _ => True) s := h t s hinv
  cases request with
  | registerClient clientId request =>
    exact of_always (always_respond _ _ (always_registerClient _ _))
  | createUpload request => exact of_always (always_respond _ _ (always_createUpload request))
  | getUploadStatus uploadId =>
    exact of_always (always_respond _ _ (always_getUploadStatus uploadId))
  | putArtifactChunk request =>
    exact of_always (always_respond _ _ (always_putArtifactChunk request))
  | abandonUpload uploadId => exact of_always (always_respond _ _ (always_abandonUpload uploadId))
  | completeUpload uploadId =>
    exact safe_respond _ _ (safe_completeUpload (hserves.1 rfl) uploadId hinv) hinv
  | deleteSnapshot request =>
    exact of_always (always_respond _ _ (always_deleteSnapshot request))
  | getTombstone snapshotId =>
    refine of_always (always_respond _ _ ?_)
    refine AlwaysE.bind always_check fun _ => AlwaysE.bind always_check fun snapshotId => ?_
    exact always_tombstoneResponse snapshotId
  | runBlobGc => exact safe_respond _ _ (safe_runBlobGc (hserves.1 rfl) (hserves.2 rfl) hinv) hinv
  | listSnapshots query => exact of_always (always_respond _ _ (always_listSnapshots query))
  | listSessionSnapshots sessionId limit cursor =>
    exact of_always (always_respond _ _ (always_listSessionSnapshots sessionId limit cursor))
  | listSessions query => exact of_always (always_respond _ _ (always_listSessions query))
  | downloadArtifact artifactId =>
    exact of_always (always_respond _ _ (always_downloadArtifact artifactId))
  | getSnapshot snapshotId =>
    exact of_always (always_respond _ _ (always_getSnapshot snapshotId))
  | expireUploads =>
    exact of_always (always_respond _ _
      (AlwaysE.bind (always_lift always_nowUtc) always_expireUploadsAt))
  | collectBlobGarbage =>
    refine safe_respond _ _ (SafeE.bind (SafeE.lift safe_nowUtc hinv) hinv
      fun now s₁ hinv₁ _ hnow => ?_) hinv
    obtain ⟨n, rfl, hreading⟩ := hnow
    exact safe_collectOrphanedBlobsAt (hserves.1 rfl) (hserves.2 rfl) hreading hinv₁
  | verifyIntegrity fuel => exact of_always (always_respond _ _ (always_scanArchive sqlite fuel))

/-- The same with what every request of the discipline returns. -/
theorem safe_request (sqlite : SqliteChecks) (request : Request) (t : TaskId) (s : Shared)
    (hserves : mode.Serves request t) (hinv : s.Inv c) :
    (discipline c cfg mode).Safe t (handle c cfg sqlite request)
      (fun _ s => True ∧ (discipline c cfg mode).exitOk t s) s :=
  (safe_handle sqlite hserves hinv).mono (fun _ _ _ _ => ⟨trivial, trivial⟩) hinv

/-- **`ServerRun.reach`** — in every run whose events meet the mode, the state of the server moves
by steps of the discipline, and every task in flight stays safe. -/
theorem ServerRun.reach {sqlite : SqliteChecks} {allowed : Server → Event Env Request → Prop}
    {p p' : Server} (hmeets : ∀ p ev, allowed p ev → p.Meets (discipline c cfg mode) mode.Serves ev)
    (hp : p.Good (discipline c cfg mode) fun _ _ => True)
    (hrun : ServerRun c cfg sqlite allowed p p') :
    (discipline c cfg mode).Reach p.state p'.state :=
  Pool.Good.run_steps (safe_request sqlite) hmeets hp hrun

/-- Every event meets the mode in which any action may outlive its task. -/
theorem meets_any (p : Server) (ev : Event Env Request) :
    p.Meets (discipline c cfg .any) Mode.any.Serves ev := by
  cases ev with
  | spawn request => exact ⟨fun _ => trivial, fun _ => trivial⟩
  | act t e => exact fun _ _ _ _ _ _ _ _ _ => trivial
  | finish t => exact trivial
  | drop t => exact fun _ => trivial
  | detach t => exact fun _ _ _ _ _ _ => ⟨⟨False.elim, False.elim⟩, trivial⟩
  | late i e => exact fun _ _ _ _ => trivial

/-- The states any run of a server reaches. -/
def ServerReach (c : Crates) (cfg : Config) : Shared → Shared → Prop :=
  (discipline c cfg .any).Reach

/-- **`server_reach`** — whatever happens to a server with nothing in flight, its state moves by
the steps of tasks. -/
theorem server_reach {sqlite : SqliteChecks} {allowed : Server → Event Env Request → Prop}
    {s : Shared} {p : Server} (hs : s.Inv c)
    (hrun : ServerRun c cfg sqlite allowed (Pool.init s) p) :
    ServerReach c cfg s p.state :=
  ServerRun.reach (fun p ev _ => meets_any p ev) (Pool.Good.init _ _ hs) hrun

/-- The same between any two moments of a run. -/
theorem server_reach_between {sqlite : SqliteChecks}
    {allowed : Server → Event Env Request → Prop} {s : Shared} {p p' : Server} (hs : s.Inv c)
    (hrun : ServerRun c cfg sqlite allowed (Pool.init s) p)
    (hrun' : ServerRun c cfg sqlite allowed p p') : ServerReach c cfg p.state p'.state := by
  have hmeets : ∀ p ev, allowed p ev → p.Meets (discipline c cfg .any) Mode.any.Serves ev :=
    fun p ev _ => meets_any p ev
  have hgood : p.Good (discipline c cfg .any) fun _ _ => True :=
    Pool.Good.run (safe_request sqlite) hmeets
      (Pool.Good.init _ _ hs) hrun
  exact ServerRun.reach hmeets hgood hrun'

/-- The invariant holds of a server at any time. -/
theorem server_inv {sqlite : SqliteChecks} {allowed : Server → Event Env Request → Prop}
    {s : Shared} {p : Server} (hs : s.Inv c)
    (hrun : ServerRun c cfg sqlite allowed (Pool.init s) p) : p.state.Inv c :=
  Persistent.of_reach (D := discipline c cfg .any)
    (fun _ _ _ hinv hstep _ => hinv.step hstep) (server_reach hs hrun) hs

end Patwari
