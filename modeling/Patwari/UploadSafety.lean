/-
# Patwari.UploadSafety — the requests on uploads take only guaranteed steps.

§1 is what a read of the upload tables tells a task for the rest of its life, and which file
operations stay inside the directory of an upload. §2 is the end of an upload, §3 its creation, §4
its chunks. A request learns the columns of an upload that never change from one read; nothing it
does later depends on the upload still being there.
-/
import Patwari.Safety

namespace Patwari

open Lib (Prog TaskId Discipline UniqueOn updateWhere)
open Lib.Discipline

variable {c : Crates} {cfg : Config} {mode : Mode} {t : TaskId} {s : Shared}

/-! ## §1 — What a read tells, and where it writes. -/

/-- The row an upload's identifier reads. -/
theorem Db.upload_some {db : Db} {id : String} {u : UploadRow} (h : db.upload id = some u) :
    u ∈ db.uploads ∧ u.id = id :=
  ⟨List.mem_of_find?_eq_some h, by simpa using List.find?_some h⟩

/-- An upload that was read is known from then on. -/
theorem known_of_upload (hinv : s.Inv c) {id : String} {u : UploadRow}
    (h : s.db.upload id = some u) : UploadKnown u s ∧ u.id = id := by
  obtain ⟨hmem, hid⟩ := Db.upload_some h
  refine ⟨⟨hinv.issued.uploads u hmem, fun r hr hrid => ?_⟩, hid⟩
  rw [hinv.unique.uploads.eq_of_mem hr hmem hrid]

/-- So is an artifact it negotiated. -/
theorem known_of_uploadArtifact {id : String} {i : ℤ} {a : UploadArtifactRow} (hid : id ∈ s.used)
    (ha : s.db.uploadArtifact id i = some a) : ArtifactKnown id i s :=
  ⟨hid, fun _ _ _ => ⟨a, List.mem_of_find?_eq_some ha, by simpa using List.find?_some ha⟩⟩

theorem UploadKnown.of_reach {u : UploadRow} {s' : Shared} (h : UploadKnown u s)
    (hr : (discipline c cfg mode).Reach s s') : UploadKnown u s' :=
  (UploadKnown.persistent u).of_reach hr h

theorem ArtifactKnown.of_reach {id : String} {i : ℤ} {s' : Shared} (h : ArtifactKnown id i s)
    (hr : (discipline c cfg mode).Reach s s') : ArtifactKnown id i s' :=
  (ArtifactKnown.persistent id i).of_reach hr h

/-- A change to one path of an upload's directory. -/
theorem FileWrite.of_path {fs : FileStore} (path : FilePath) (hpath : path.upload?.isSome)
    (h : fs.lookup path = none ∨ Creatable t s path)
    (hframe : ∀ q, q ≠ path → fs.lookup q = s.fs.lookup q) : FileWrite c mode t s fs := by
  refine .upload fun q => ?_
  by_cases hq : q = path
  · subst hq
    exact Or.inr ⟨hpath, h⟩
  · exact Or.inl (hframe q hq)

/-- Removing the directory of an upload. -/
theorem FileWrite.removeUploadDir (uploadId : String) :
    FileWrite c mode t s (s.fs.removeUploadDir uploadId) := by
  refine .upload fun q => ?_
  rw [FileStore.removeUploadDir, FileStore.lookup_removeWhere]
  by_cases hq : q.upload? = some uploadId
  · exact Or.inr ⟨by simp [hq], Or.inl (by simp [hq])⟩
  · exact Or.inl (by simp [hq])

/-- A file operation that needs only what no step breaks. -/
theorem safe_fileOp_of_persistent {P : Shared → Prop} {f : FileStore → Except IoError FileStore}
    (hP : (discipline c cfg mode).Persistent P) (hs : P s)
    (h : ∀ s' fs, P s' → f s'.fs = .ok fs →
      FileWrite c mode t s' fs ∧ s'.fs.Orderly fs) :
    (discipline c cfg mode).Safe t (fileOp f) (fun _ _ => True) s :=
  safe_fileOp (hP.stable t) (fun _ hinv hs => persistent_cleanup hP hinv hs) hs
    (fun s' fs _ => h s' fs) (fun _ _ _ _ _ => trivial) fun _ _ _ _ => trivial

/-- A file operation that needs nothing. -/
theorem always_fileOp {f : FileStore → Except IoError FileStore}
    (h : ∀ t s fs, f s.fs = .ok fs →
      FileWrite c mode t s fs ∧ s.fs.Orderly fs) :
    (discipline c cfg mode).Always (fileOp f) :=
  Always.of_safe fun t _ _ => safe_fileOp_of_persistent (Persistent.const True) trivial
    fun s' fs _ => h t s' fs

theorem always_removeUploadDir (uploadId : String) :
    (discipline c cfg mode).Always (removeUploadDir uploadId) := by
  refine always_fileOp fun t s fs h => ?_
  obtain rfl := Except.ok.inj h
  exact ⟨.removeUploadDir uploadId, FileStore.Orderly.removeUploadDir uploadId⟩

/-- The removal of a file in the directory of an upload. -/
theorem FileWrite.removeFile {path : FilePath} (hpath : path.upload?.isSome) {fs : FileStore}
    (h : s.fs.removeFile path = .ok fs) : FileWrite c mode t s fs := by
  rw [FileStore.removeFile_ok h]
  refine .of_path path hpath (Or.inl (by simp)) fun q hq => ?_
  simp [hq]

/-- `let _ = remove_file(..)` in the directory of an upload. -/
theorem always_discardFile {path : FilePath} (hpath : path.upload?.isSome) :
    (discipline c cfg mode).Always (discardFile path) :=
  always_fileOp fun _ _ _ h => ⟨.removeFile hpath h, .removeFile h⟩

theorem always_discardChunkFile {path : FilePath} (hpath : path.upload?.isSome) :
    (discipline c cfg mode).Always (discardChunkFile path) :=
  Always.of_safe fun t _ _ => safe_fileStep (P := fun _ => True) (Q := fun _ _ => True)
    (Lib.Discipline.Stable.const t True) (Lib.Discipline.Stable.const t True) (fun _ _ => trivial)
    (fun _ _ _ _ => trivial) trivial (fun _ _ _ _ h => ⟨.removeFile hpath h, .removeFile h⟩)
    (fun _ _ _ _ _ => trivial) fun _ _ _ _ => trivial

/-- An operation that only waits for earlier writes to reach the disk. -/
theorem always_sync {f : FileStore → Except IoError FileStore} (hf : FileStore.Syncs f) :
    (discipline c cfg mode).Always (fileOp f) :=
  always_fileOp fun _ _ _ h =>
    ⟨.upload fun p => Or.inl (hf.lookup h p), .sync hf h⟩

/-! ## §2 — The end of an upload. -/

theorem safe_getActiveUpload (uploadId : String) :
    (discipline c cfg mode).SafeE t (getActiveUpload uploadId)
      (fun r s => ∀ u, r = some u → UploadKnown u s ∧ u.id = uploadId) (fun _ _ => True) s := by
  refine safe_query (fun s' r hinv _ h u hu => ?_) fun _ _ => trivial
  obtain rfl := pure_eq_ok.mp h
  exact known_of_upload hinv hu

theorem safe_terminalizeUploadLocked {upload : UploadRow} (reason : TerminalReason)
    (hinv : s.Inv c) (hupload : UploadKnown upload s) :
    (discipline c cfg mode).SafeE t (terminalizeUploadLocked c upload reason) (fun _ _ => True)
      (fun _ _ => True) s := by
  refine SafeE.bind (SafeE.of_always always_nowRfc3339 hinv) hinv
    fun terminalAt s₁ hinv₁ hr₁ _ => ?_
  refine SafeE.bind (safe_transaction (Q := fun _ _ => True)
    ((UploadKnown.persistent upload).stable t) (hupload.of_reach hr₁) Fresh.nil
    (fun s' a db _ _ hknown h => ⟨.terminalizeUpload upload reason terminalAt hknown h, trivial⟩)
    fun _ _ => trivial) hinv₁ fun ended s₂ hinv₂ _ _ => ?_
  refine SafeE.of_always ?_ hinv₂
  cases ended with
  | false => exact AlwaysE.pure _
  | true =>
    refine AlwaysE.bind (always_lift (always_removeUploadDir upload.id)) fun _ => ?_
    exact always_orFail

/-- The pass over the candidates of an expiry. -/
theorem always_expireCandidates (now : OffsetDateTime) (candidates : List String) (expired : ℕ) :
    (discipline c cfg mode).AlwaysE (expireCandidates c now candidates expired) := by
  induction candidates generalizing expired with
  | nil => exact AlwaysE.pure _
  | cons uploadId rest ih =>
    have hrest (ended : Bool) : (discipline c cfg mode).AlwaysE (do
        release [uploadLock uploadId]
        expireCandidates c now rest (if ended then expired + 1 else expired)) :=
      AlwaysE.bind (always_lift (always_release _)) fun _ => ih _
    refine AlwaysE.bind (always_lift (always_acquire _)) fun _ => ?_
    refine SafeE.always (Q := fun _ _ _ => True) (R := fun _ _ _ => True) fun t s hinv => ?_
    refine SafeE.bind (safe_getActiveUpload uploadId) hinv fun r s₁ hinv₁ _ hknown => ?_
    cases r with
    | none => exact SafeE.of_always (hrest false) hinv₁
    | some upload =>
      dsimp only
      split
      · exact SafeE.of_always (hrest false) hinv₁
      · refine SafeE.bind (SafeE.of_always always_check hinv₁) hinv₁ fun past s₂ hinv₂ hr₂ _ => ?_
        cases past with
        | false => exact SafeE.of_always (hrest false) hinv₂
        | true =>
          refine SafeE.bind (safe_terminalizeUploadLocked .expired hinv₂
            ((hknown upload rfl).1.of_reach hr₂)) hinv₂ fun _ s₃ hinv₃ _ _ => ?_
          exact SafeE.of_always (hrest true) hinv₃

theorem always_expireUploadsAt (now : OffsetDateTime) :
    (discipline c cfg mode).AlwaysE (expireUploadsAt c now) := by
  refine AlwaysE.bind always_check fun _ => ?_
  exact AlwaysE.bind always_query fun _ => always_expireCandidates now _ _

/-- What `require_active_upload` returns is known under its identifier. -/
theorem safe_requireActiveUpload (uploadId : String) (hinv : s.Inv c) :
    (discipline c cfg mode).SafeE t (requireActiveUpload c uploadId)
      (fun u s => UploadKnown u s ∧ u.id = uploadId) (fun _ _ => True) s := by
  refine SafeE.bind (safe_getActiveUpload uploadId) hinv fun r s₁ hinv₁ _ hknown => ?_
  cases r with
  | none => exact SafeE.throw trivial
  | some upload =>
    obtain ⟨hupload, hid⟩ := hknown upload rfl
    dsimp only
    split
    · exact SafeE.pure ⟨hupload, hid⟩
    · refine SafeE.bind (SafeE.of_always (always_lift always_nowUtc) hinv₁) hinv₁
        fun now s₂ hinv₂ hr₂ _ => ?_
      refine SafeE.bind (SafeE.of_always always_check hinv₂) hinv₂ fun past s₃ hinv₃ hr₃ _ => ?_
      have hupload₃ := hupload.of_reach (hr₂.trans hr₃)
      cases past with
      | false => exact SafeE.pure ⟨hupload₃, hid⟩
      | true =>
        refine SafeE.bind (safe_terminalizeUploadLocked .expired hinv₃ hupload₃) hinv₃
          fun _ _ _ _ _ => ?_
        exact SafeE.throw trivial

theorem always_getUploadStatus (uploadId : String) :
    (discipline c cfg mode).AlwaysE (getUploadStatus c uploadId) := by
  refine AlwaysE.bind always_check fun uploadId => ?_
  refine AlwaysE.bind (always_lift (always_acquire _)) fun _ => ?_
  refine SafeE.always (Q := fun _ _ _ => True) (R := fun _ _ _ => True) fun t s hinv => ?_
  refine SafeE.bind (safe_getActiveUpload uploadId) hinv fun r s₁ hinv₁ _ hknown => ?_
  cases r with
  | none => exact SafeE.of_always (always_auditUploadResponse uploadId) hinv₁
  | some upload =>
    dsimp only
    split
    · exact SafeE.of_always (always_activeUploadStatusResponse upload) hinv₁
    · refine SafeE.bind (SafeE.of_always (always_lift always_nowUtc) hinv₁) hinv₁
        fun now s₂ hinv₂ hr₂ _ => ?_
      refine SafeE.bind (SafeE.of_always always_check hinv₂) hinv₂ fun past s₃ hinv₃ hr₃ _ => ?_
      cases past with
      | false => exact SafeE.of_always (always_activeUploadStatusResponse upload) hinv₃
      | true =>
        refine SafeE.bind (safe_terminalizeUploadLocked .expired hinv₃
          ((hknown upload rfl).1.of_reach (hr₂.trans hr₃))) hinv₃ fun _ s₄ hinv₄ _ _ => ?_
        exact SafeE.of_always (always_auditUploadResponse uploadId) hinv₄

theorem always_abandonUpload (uploadId : String) :
    (discipline c cfg mode).AlwaysE (abandonUpload c uploadId) := by
  refine AlwaysE.bind always_check fun uploadId => ?_
  refine AlwaysE.bind (always_lift (always_acquire _)) fun _ => ?_
  refine SafeE.always (Q := fun _ _ _ => True) (R := fun _ _ _ => True) fun t s hinv => ?_
  refine SafeE.bind (safe_getActiveUpload uploadId) hinv fun r s₁ hinv₁ _ hknown => ?_
  cases r with
  | none => exact SafeE.of_always (always_auditUploadResponse uploadId) hinv₁
  | some upload =>
    dsimp only
    split
    · exact SafeE.throw trivial
    · refine SafeE.bind (SafeE.of_always (always_lift always_nowUtc) hinv₁) hinv₁
        fun now s₂ hinv₂ hr₂ _ => ?_
      refine SafeE.bind (SafeE.of_always always_check hinv₂) hinv₂ fun past s₃ hinv₃ hr₃ _ => ?_
      refine SafeE.bind (safe_terminalizeUploadLocked _ hinv₃
        ((hknown upload rfl).1.of_reach (hr₂.trans hr₃))) hinv₃ fun _ s₄ hinv₄ _ _ => ?_
      exact SafeE.of_always (always_auditUploadResponse uploadId) hinv₄

/-! ## §3 — The creation of an upload. -/

/-- What `create_upload` hands to its transaction is checked, under new identifiers. -/
theorem safe_prepareUpload (request : CreateUploadRequest) (hinv : s.Inv c) :
    (discipline c cfg mode).SafeE t (prepareUpload c cfg request)
      (fun new s => NewUploadOk c cfg new ∧
        Fresh t [new.sessionId, new.uploadId, new.manifestId] s) (fun _ _ => True) s := by
  refine SafeE.bind (SafeE.of_always always_check hinv) hinv fun clientId s₁ hinv₁ _ _ => ?_
  refine SafeE.bind (SafeE.of_always always_check hinv₁) hinv₁ fun captureId s₂ hinv₂ _ _ => ?_
  refine SafeE.bind (safe_check (Q := fun manifest _ =>
    normalizeManifest c request.manifest cfg.manifestLimits = .ok manifest) (fun _ h => h)
    fun _ _ => trivial) hinv₂ fun manifest s₃ hinv₃ _ hmanifest => ?_
  refine SafeE.bind (safe_check (Q := fun layout _ =>
    uploadLayout manifest cfg.chunkSizeBytes = .ok layout) (fun _ h => h) fun _ _ => trivial)
    hinv₃ fun layout s₄ hinv₄ _ hlayout => ?_
  refine SafeE.bind (SafeE.lift safe_nowUtc hinv₄) hinv₄ fun now s₅ hinv₅ _ hnow => ?_
  refine SafeE.bind (safe_check (Q := fun text _ => c.formatRfc3339 now = some text)
    (fun _ h => okOr_eq_ok.mp h) fun _ _ => trivial) hinv₅ fun nowText s₆ hinv₆ _ hnowText => ?_
  refine SafeE.bind (safe_check (Q := fun text _ =>
    c.formatRfc3339 (expirationTime now cfg.uploadExpiry) = some text)
    (fun _ h => okOr_eq_ok.mp h) fun _ _ => trivial) hinv₆ fun expiresAt s₇ hinv₇ _ hexpires => ?_
  refine SafeE.bind (SafeE.of_always (always_mapErr (always_expireUploadsAt now)) hinv₇) hinv₇
    fun _ s₈ hinv₈ _ _ => ?_
  refine SafeE.bind (SafeE.lift (safe_freshId Fresh.nil) hinv₈) hinv₈
    fun sessionId s₉ hinv₉ _ hsession => ?_
  refine SafeE.bind (SafeE.lift (safe_freshId hsession.2.1) hinv₉) hinv₉
    fun uploadId s₁₀ hinv₁₀ _ hupload => ?_
  refine SafeE.bind (SafeE.lift (safe_freshId hupload.2.1) hinv₁₀) hinv₁₀
    fun manifestId s₁₁ hinv₁₁ _ hids => ?_
  refine SafeE.pure ⟨⟨⟨_, hmanifest⟩, hlayout, now, ?_, hnowText, hexpires⟩, ?_⟩
  · obtain ⟨n, rfl, -⟩ := hnow
    rfl
  · exact hids.2.1.perm (List.reverse_perm [sessionId, uploadId, manifestId])

theorem always_createUpload (request : CreateUploadRequest) :
    (discipline c cfg mode).AlwaysE (createUpload c cfg request) := by
  refine SafeE.always (Q := fun _ _ _ => True) (R := fun _ _ _ => True) fun t s hinv => ?_
  refine SafeE.bind (safe_prepareUpload request hinv) hinv fun new s₁ hinv₁ _ hnew => ?_
  refine SafeE.bind (safe_transaction (Q := fun _ _ => True) (Stable.true t) trivial hnew.2
    (fun s' created db _ _ _ h => ⟨.persistUpload new hnew.1 h, trivial⟩) fun _ _ => trivial)
    hinv₁ fun created s₂ hinv₂ _ _ => ?_
  refine SafeE.of_always ?_ hinv₂
  exact AlwaysE.bind (always_activeUploadResponse _) fun _ => AlwaysE.pure _

/-! ## §4 — Chunks. -/

/-- What a task that stages a chunk knows, whatever happens. -/
def Staging (t : TaskId) (uploadId : String) (artifactIndex : ℕ) (uuid : String) (s : Shared) :
    Prop :=
  ArtifactKnown uploadId artifactIndex s ∧ (uuid, t) ∈ s.issued

theorem Staging.persistent (uploadId : String) (artifactIndex : ℕ) (uuid : String) :
    (discipline c cfg mode).Persistent (Staging t uploadId artifactIndex uuid) :=
  (ArtifactKnown.persistent uploadId artifactIndex).and (issued_persistent uuid t)

theorem Staging.of_reach {uploadId : String} {artifactIndex : ℕ} {uuid : String} {s' : Shared}
    (h : Staging t uploadId artifactIndex uuid s) (hr : (discipline c cfg mode).Reach s s') :
    Staging t uploadId artifactIndex uuid s' :=
  (Staging.persistent uploadId artifactIndex uuid).of_reach hr h

/-- The frame loop appends the bytes it has seen. -/
theorem safe_writeFrames {uploadId : String} {artifactIndex : ℕ} {uuid : String} (maximum : ℕ)
    (frames : List BodyFrame) (received : Bytes) (hinv : s.Inv c)
    (hs : Staging t uploadId artifactIndex uuid s) :
    (discipline c cfg mode).SafeE t
      (writeFrames (.stagedChunk uploadId artifactIndex uuid) maximum frames received)
      (fun all _ => all = received ++ bodyBytes frames) (fun _ _ => True) s := by
  induction frames generalizing received s with
  | nil => exact SafeE.pure (by simp [bodyBytes])
  | cons frame rest ih =>
    cases frame with
    | failed => exact SafeE.throw trivial
    | trailers => exact ih received hinv hs
    | data bytes =>
      rw [writeFrames]
      refine SafeE.guard (fun _ => trivial) fun _ => ?_
      refine SafeE.bind (SafeE.lift (safe_fileOp_of_persistent (Staging.persistent _ _ _) hs
        fun s' fs hs' h => ?_) hinv) hinv fun r s₁ hinv₁ hr₁ _ => ?_
      · obtain rfl := Except.ok.inj h
        refine ⟨.of_path (.stagedChunk uploadId artifactIndex uuid) rfl (Or.inr hs')
          fun q hq => ?_, .append rfl _⟩
        rw [FileStore.lookup_append, if_neg hq]
      · refine SafeE.bind (SafeE.of_always always_orFail hinv₁) hinv₁ fun _ s₂ hinv₂ hr₂ _ => ?_
        have hrest := ih (received ++ bytes) hinv₂ (hs.of_reach (hr₁.trans hr₂))
        rw [List.append_assoc] at hrest
        exact hrest

/-- A body that was written has the length and the digest its headers declare. -/
theorem safe_writeChunkBody {uploadId : String} {artifactIndex : ℕ} {uuid : String}
    (body : List BodyFrame) (expected : ChunkRequest) (hinv : s.Inv c)
    (hs : Staging t uploadId artifactIndex uuid s) :
    (discipline c cfg mode).SafeE t
      (writeChunkBody c body (.stagedChunk uploadId artifactIndex uuid) expected)
      (fun _ _ => (bodyBytes body).length = expected.byteLength ∧
        c.sha256Hex (bodyBytes body) = digestStorageValue expected.sha256)
      (fun _ _ => True) s := by
  refine SafeE.bind (SafeE.lift (safe_fileOp_of_persistent (Staging.persistent _ _ _) hs
    fun s' fs hs' h => ?_) hinv) hinv fun r s₁ hinv₁ hr₁ _ => ?_
  · obtain ⟨-, rfl⟩ := FileStore.createNew_ok h
    refine ⟨.of_path (.stagedChunk uploadId artifactIndex uuid) rfl (Or.inr hs')
      fun q hq => ?_, .createNew h⟩
    rw [FileStore.lookup_set, if_neg hq]
  refine SafeE.bind (SafeE.of_always always_orFail hinv₁) hinv₁ fun _ s₂ hinv₂ hr₂ _ => ?_
  refine SafeE.bind (safe_writeFrames expected.byteLength body [] hinv₂
    (hs.of_reach (hr₁.trans hr₂))) hinv₂ fun received s₃ hinv₃ _ hreceived => ?_
  refine SafeE.bind (SafeE.of_always (always_lift (always_sync (FileStore.syncs_syncFile _))) hinv₃)
    hinv₃
    fun r s₄ hinv₄ _ _ => ?_
  refine SafeE.bind (SafeE.of_always always_orFail hinv₄) hinv₄ fun _ s₅ hinv₅ _ _ => ?_
  obtain rfl : received = bodyBytes body := hreceived
  split
  · exact SafeE.throw trivial
  · next hok =>
    rw [not_or, not_not, not_not] at hok
    exact SafeE.pure hok

/-- A step that fails leaves a file to be discarded, then the request fails. -/
theorem safe_discardAndThrow {κ α : Type} {Q : α → Shared → Prop} {path : FilePath}
    (hpath : path.upload?.isSome) (e : κ) (hinv : s.Inv c) :
    (discipline c cfg mode).SafeE t (do
      let _ ← discardFile path
      throw e : Handler κ α) Q (fun _ _ => True) s :=
  SafeE.bind (SafeE.of_always (always_lift (always_discardFile hpath)) hinv) hinv
    fun _ _ _ _ _ => SafeE.throw trivial

/-- A chunk file that is in place stands for a body as long and with the digest declared, and what
is returned is a private name of it. -/
theorem safe_storeChunkFile {uploadId : String} (artifactIndex chunkIndex : ℕ)
    (body : List BodyFrame) (expected : ChunkRequest) (hinv : s.Inv c)
    (hs : ArtifactKnown uploadId artifactIndex s) :
    (discipline c cfg mode).SafeE t
      (storeChunkFile c uploadId artifactIndex chunkIndex body expected)
      (fun path _ => path.upload?.isSome ∧ (bodyBytes body).length = expected.byteLength ∧
        c.sha256Hex (bodyBytes body) = digestStorageValue expected.sha256)
      (fun _ _ => True) s := by
  refine SafeE.bind (SafeE.lift (safe_fileOp_of_persistent (ArtifactKnown.persistent _ _) hs
    fun s' fs hs' h => ⟨.upload fun q => ?_, .createDirAll ?_ ?_ h⟩) hinv)
    hinv fun r s₁ hinv₁ hr₁ _ => ?_
  · rcases FileStore.lookup_createDirAll h q with heq | ⟨hmem, -, -⟩
    · exact Or.inl heq
    · rcases List.mem_pair.mp hmem with rfl | rfl
      · exact Or.inr ⟨rfl, Or.inr trivial⟩
      · exact Or.inr ⟨rfl, Or.inr hs'⟩
  · exact List.isChain_pair.mpr rfl
  · rintro q hq
    obtain rfl : FilePath.uploadDir uploadId = q := by simpa using hq
    rfl
  refine SafeE.bind (SafeE.of_always always_orFail hinv₁) hinv₁ fun _ s₂ hinv₂ hr₂ _ => ?_
  have hs₂ := hs.of_reach (hr₁.trans hr₂)
  refine SafeE.bind (SafeE.lift (safe_freshId Fresh.nil) hinv₂) hinv₂
    fun uuid s₃ hinv₃ hr₃ huuid => ?_
  have hs₃ : Staging t uploadId artifactIndex uuid s₃ :=
    ⟨hs₂.of_reach hr₃, (huuid.2.1.2 uuid List.mem_cons_self).1⟩
  refine SafeE.bind (safe_attempt (safe_writeChunkBody body expected hinv₃ hs₃) hinv₃) hinv₃
    fun written s₄ hinv₄ hr₄ hwritten => ?_
  cases written with
  | error e =>
    exact safe_discardAndThrow rfl e hinv₄
  | ok _ =>
    have hpath : (FilePath.stagedChunk uploadId artifactIndex uuid).upload?.isSome := rfl
    refine SafeE.bind (SafeE.lift (safe_fileOp_of_persistent (ArtifactKnown.persistent _ _)
      (hs₃.1.of_reach hr₄) fun s' fs hs' h => ?_) hinv₄) hinv₄ fun linked s₅ hinv₅ _ _ => ?_
    · obtain ⟨node, -, -, -, rfl⟩ := FileStore.hardLink_ok h
      refine ⟨.of_path (.artifactChunk uploadId artifactIndex chunkIndex) rfl (Or.inr hs')
        fun q hq => ?_, .hardLink h⟩
      rw [FileStore.lookup_link, if_neg hq]
    rcases linked with (_ | _ | _) | _
    · exact safe_discardAndThrow hpath _ hinv₅
    · -- a chunk with this index is already there: it must hold the same bytes
      refine SafeE.bind (SafeE.of_always (always_attempt always_fileRead) hinv₅) hinv₅
        fun same s₆ hinv₆ _ _ => ?_
      cases same with
      | ok _ => exact SafeE.pure ⟨hpath, hwritten⟩
      | error e => exact safe_discardAndThrow hpath _ hinv₆
    · exact safe_discardAndThrow hpath _ hinv₅
    · refine SafeE.bind (SafeE.of_always (always_lift (always_sync
        (FileStore.syncs_syncDirectory _))) hinv₅) hinv₅
        fun synced s₆ hinv₆ _ _ => ?_
      cases synced with
      | ok _ => exact SafeE.pure ⟨hpath, hwritten⟩
      | error e =>
        refine SafeE.bind (SafeE.of_always (always_lift (always_discardFile hpath)) hinv₆) hinv₆
          fun _ s₇ hinv₇ _ _ => ?_
        have hfinal : (discipline c cfg mode).Always
            (discardChunkFile (.artifactChunk uploadId artifactIndex chunkIndex)) :=
          always_discardChunkFile rfl
        exact SafeE.bind (SafeE.of_always (always_lift hfinal) hinv₇) hinv₇
          fun _ _ _ _ _ => SafeE.throw trivial

theorem always_artifactsComplete (uploadId : String) (artifacts : List UploadArtifactRow) :
    (discipline c cfg mode).AlwaysE (artifactsComplete uploadId artifacts) := by
  induction artifacts with
  | nil => exact AlwaysE.pure _
  | cons artifact rest ih =>
    refine AlwaysE.bind always_query fun _ => ?_
    split
    · exact ih
    · exact AlwaysE.pure _

theorem always_uploadIsComplete (uploadId : String) :
    (discipline c cfg mode).AlwaysE (uploadIsComplete uploadId) := by
  refine AlwaysE.bind always_query fun _ => ?_
  exact AlwaysE.guard (always_artifactsComplete uploadId _)

theorem always_refreshUploadStatus (uploadId : String) :
    (discipline c cfg mode).AlwaysE (refreshUploadStatus uploadId) := by
  refine AlwaysE.bind (always_uploadIsComplete uploadId) fun complete => ?_
  exact always_transaction fun t s a db h => .setUploadStatus uploadId complete h

theorem safe_acceptChunk {upload : UploadRow} (artifact : UploadArtifactRow)
    (artifactIndex chunkIndex : ℕ) (body : List BodyFrame) (expected : ChunkRequest)
    (hinv : s.Inv c) (hs : ArtifactKnown upload.id artifactIndex s) :
    (discipline c cfg mode).SafeE t
      (acceptChunk c upload artifact artifactIndex chunkIndex body expected) (fun _ _ => True)
      (fun _ _ => True) s := by
  refine SafeE.bind (SafeE.of_always always_check hinv) hinv fun length s₁ hinv₁ hr₁ _ => ?_
  refine SafeE.guard (fun _ => trivial) fun _ => ?_
  refine SafeE.bind (safe_storeChunkFile artifactIndex chunkIndex body expected hinv₁
    (hs.of_reach hr₁)) hinv₁ fun path s₂ hinv₂ hr₂ hstored => ?_
  obtain ⟨hpath, hlength, hdigest⟩ := hstored
  refine SafeE.bind (SafeE.of_always always_nowRfc3339 hinv₂) hinv₂ fun now s₃ hinv₃ hr₃ _ => ?_
  refine SafeE.bind (safe_attempt (safe_transaction (Q := fun _ _ => True)
    (R := fun _ _ => True) ((ArtifactKnown.persistent upload.id artifactIndex).stable t)
    (hs.of_reach (hr₁.trans (hr₂.trans hr₃))) Fresh.nil (fun s' _ db _ _ hs' h => ⟨?_, trivial⟩)
    fun _ _ => trivial) hinv₃) hinv₃ fun accepted s₄ hinv₄ _ _ => ?_
  · rw [← hlength] at h
    exact .persistChunkRecord upload.id artifactIndex chunkIndex expected.sha256 now
      (bodyBytes body) hs' hdigest h
  refine SafeE.of_always ?_ hinv₄
  refine AlwaysE.bind (always_lift (always_discardFile hpath)) fun cleanup => ?_
  cases accepted with
  | error e => exact AlwaysE.throw e
  | ok _ =>
    cases cleanup with
    | error e => exact AlwaysE.throw _
    | ok _ => exact always_refreshUploadStatus upload.id

/-- `put_artifact_chunk` from the question whether the chunk has a row on. -/
def answerPut (c : Crates) (uploadId : String) (upload : UploadRow) (artifact : UploadArtifactRow)
    (artifactIndex chunkIndex : ℕ) (body : List BodyFrame) (expected : ChunkRequest) :
    Handler ApiError Unit := do
  match ← query .database fun db => pure (db.chunk uploadId artifactIndex chunkIndex) with
  | some existing => do
    let byteLength ← check (toSqliteI64 expected.byteLength)
    if existing.byteLength ≠ byteLength ∨
        existing.sha256 ≠ digestStorageValue expected.sha256 then
      throw chunkConflict
    fileRead .storage (verifyStoredFile c (.artifactChunk uploadId artifactIndex chunkIndex)
      expected.byteLength expected.sha256)
  | none => acceptChunk c upload artifact artifactIndex chunkIndex body expected

theorem always_putArtifactChunk (request : PutChunkRequest) :
    (discipline c cfg mode).AlwaysE (putArtifactChunk c request) := by
  refine AlwaysE.bind always_check fun uploadId => ?_
  refine AlwaysE.bind always_check fun artifactIndex => ?_
  refine AlwaysE.bind always_check fun chunkIndex => ?_
  refine AlwaysE.bind always_check fun _ => ?_
  refine AlwaysE.bind (always_lift (always_acquire _)) fun _ => ?_
  refine SafeE.always (Q := fun _ _ _ => True) (R := fun _ _ _ => True) fun t s hinv => ?_
  refine SafeE.bind (safe_requireActiveUpload uploadId hinv) hinv fun upload s₁ hinv₁ _ hknown => ?_
  obtain ⟨hupload, rfl⟩ := hknown
  refine SafeE.guard (fun _ => trivial) fun _ => ?_
  refine SafeE.bind (safe_query (Q := fun a s => ArtifactKnown upload.id artifactIndex s)
    (fun s' a hinv' hr h => ?_) fun _ _ => trivial) hinv₁ fun artifact s₂ hinv₂ _ hartifact => ?_
  · obtain ⟨hused, -⟩ := hupload.of_reach hr
    exact known_of_uploadArtifact hused (okOr_eq_ok.mp h)
  have hrest (expected : ChunkRequest) (s : Shared) (hinv : s.Inv c)
      (hr : (discipline c cfg mode).Reach s₂ s) :
      (discipline c cfg mode).SafeE t
        (answerPut c upload.id upload artifact artifactIndex chunkIndex request.body expected)
        (fun _ _ => True) (fun _ _ => True) s := by
    refine SafeE.bind (SafeE.of_always always_query hinv) hinv fun existing s₃ hinv₃ hr₃ _ => ?_
    cases existing with
    | none =>
      exact safe_acceptChunk artifact artifactIndex chunkIndex request.body expected hinv₃
        (hartifact.of_reach (hr.trans hr₃))
    | some existing =>
      refine SafeE.of_always ?_ hinv₃
      refine AlwaysE.bind always_check fun _ => ?_
      exact AlwaysE.guard always_fileRead
  refine SafeE.bind (SafeE.of_always always_check hinv₂) hinv₂ fun headers s₃ hinv₃ hr₃ _ => ?_
  cases headers with
  | some expected => exact hrest expected s₃ hinv₃ hr₃
  | none =>
    refine SafeE.bind (SafeE.of_always always_check hinv₃) hinv₃ fun expected s₄ hinv₄ hr₄ _ => ?_
    exact hrest expected s₄ hinv₄ (hr₃.trans hr₄)

end Patwari
