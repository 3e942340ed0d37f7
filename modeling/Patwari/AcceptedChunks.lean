/-
# Patwari.AcceptedChunks — what has been accepted of an upload stays as it is.

The row of a chunk and its file are written in separate steps: the bytes get a private name, the
final name is linked to them, the directory is synced, and only then is the row committed. §1 is
what these steps keep of an upload that has not ended: a task may take away a final file only while
it holds the lock of the upload, and only while there is no row for it. §2 shows that a request
keeps to that however the others interleave, §3 follows whole runs. The removal of a final file that
is left behind by a dropped request is not kept by any lock, and is left out.
-/
import Patwari.Lib.Outcome
import Patwari.UploadStatus

namespace Patwari

open Lib (Prog TaskId UniqueOn Discipline Pool Event System)
open Lib.Discipline (Safe SafeE Stable Persistent)

/-! ## §1 — What is kept. -/

/-- The upload is terminal or completed. -/
def UploadEnded (uploadId : String) (s : Shared) : Prop :=
  ∀ upload, s.db.upload uploadId = some upload → upload.status = .completed

/-- The name a row and the file of its chunk have in common. -/
def UploadChunkRow.key (row : UploadChunkRow) : ℤ × ℤ := (row.artifactIndex, row.chunkIndex)

/-- **`RowBacked`** — an accepted chunk: as long as the layout has it at its index, the length and
the digest of a body that was sent for it, and in its place a regular file with exactly these. -/
structure RowBacked (c : Crates) (uploadId : String) (s : Shared) (row : UploadChunkRow) :
    Prop where
  layout : ∃ upload artifact length, s.db.upload uploadId = some upload ∧
    artifact ∈ s.db.uploadArtifactsOf uploadId ∧ artifact.artifactIndex = row.artifactIndex ∧
    expectedChunkLength upload artifact row.chunkIndex.toNat = .ok length ∧
    row.byteLength = (length : ℤ)
  body : ∃ e ∈ s.accepted, row.Accepts c e
  file : ∃ (i k : ℕ) (bytes : Bytes), row.key = ((i : ℤ), (k : ℤ)) ∧
    s.fs.lookup (.artifactChunk uploadId i k) = some (.file bytes) ∧
    row.byteLength = bytes.length ∧ row.sha256 = c.sha256Hex bytes

/-- **`KeepsChunks`** — a step of task `t` that leaves an upload in being: its layout, the private
files of the other tasks and the accepted chunks are kept. Only a task that holds the lock of the
upload takes a final file away, one without a row, or adds a row, one that is backed. -/
structure KeepsChunks (c : Crates) (uploadId : String) (t : TaskId) (s s' : Shared) : Prop where
  chunkSize : (s'.db.upload uploadId).map UploadRow.chunkSizeBytes =
    (s.db.upload uploadId).map UploadRow.chunkSizeBytes
  artifacts : s'.db.uploadArtifactsOf uploadId = s.db.uploadArtifactsOf uploadId
  accepted : ∀ e ∈ s.accepted, e ∈ s'.accepted
  staged : ∀ i uuid t', (uuid, t') ∈ s.issued → t' ≠ t →
    s'.fs.lookup (.stagedChunk uploadId i uuid) = s.fs.lookup (.stagedChunk uploadId i uuid)
  files : ∀ (i k : ℕ) node, s.fs.lookup (.artifactChunk uploadId i k) = some node →
    s'.fs.lookup (.artifactChunk uploadId i k) = some node ∨
      Holds t (uploadLock uploadId) s ∧
        ∀ r ∈ (s.db.rowsOf uploadId).chunks, r.key ≠ ((i : ℤ), (k : ℤ))
  rows : (s'.db.rowsOf uploadId).chunks = (s.db.rowsOf uploadId).chunks ∨
    Holds t (uploadLock uploadId) s ∧ ∃ row, (s'.db.rowsOf uploadId).chunks =
      (s.db.rowsOf uploadId).chunks ++ [row] ∧ RowBacked c uploadId s' row

/-- **`ChunkStep`** — a step of task `t`: it leaves the locks of the others alone, and it keeps the
chunks of the upload or ends it. -/
structure ChunkStep (c : Crates) (uploadId : String) (t : TaskId) (s s' : Shared) : Prop where
  locks : ∀ t', t' ≠ t → ∀ l, (l, t') ∈ s'.locks ↔ (l, t') ∈ s.locks
  locksOnce : UniqueOn Prod.fst s.locks → UniqueOn Prod.fst s'.locks
  issued : ∀ x ∈ s.issued, x ∈ s'.issued
  issuedOnce : UniqueOn Prod.fst s.issued → UniqueOn Prod.fst s'.issued
  ended : UploadEnded uploadId s → UploadEnded uploadId s'
  active : UploadEnded uploadId s' ∨ KeepsChunks c uploadId t s s'

/-- The state at any time: one holder a lock, one task an identifier, and the chunks backed. -/
structure ChunkInv (c : Crates) (uploadId : String) (s : Shared) : Prop where
  locksOnce : UniqueOn Prod.fst s.locks
  issuedOnce : UniqueOn Prod.fst s.issued
  backed : UploadEnded uploadId s ∨ ∀ row ∈ (s.db.rowsOf uploadId).chunks, RowBacked c uploadId s
    row

section Steps

variable {c : Crates} {uploadId : String} {t : TaskId} {s s' : Shared}

/-- A row stays backed by a step that keeps the chunks. -/
theorem KeepsChunks.backed (h : KeepsChunks c uploadId t s s') {row : UploadChunkRow}
    (hmem : row ∈ (s.db.rowsOf uploadId).chunks) (hrow : RowBacked c uploadId s row) :
    RowBacked c uploadId s' row := by
  obtain ⟨upload, artifact, length, hupload, hartifact, hindex, hlength, heq⟩ := hrow.layout
  obtain ⟨e, he, haccepts⟩ := hrow.body
  obtain ⟨i, k, bytes, hkey, hfile, hbytes, hdigest⟩ := hrow.file
  refine ⟨?_, ⟨e, h.accepted e he, haccepts⟩, ⟨i, k, bytes, hkey, ?_, hbytes, hdigest⟩⟩
  · have hsize := h.chunkSize
    rw [hupload, Option.map_some] at hsize
    obtain ⟨upload', hupload', hsame⟩ := Option.map_eq_some_iff.mp hsize
    refine ⟨upload', artifact, length, hupload', h.artifacts ▸ hartifact, hindex, ?_, heq⟩
    -- of the upload the length depends on its chunk size only
    unfold expectedChunkLength at hlength ⊢
    rw [hsame]
    exact hlength
  · rcases h.files i k _ hfile with hkept | ⟨-, hnone⟩
    · exact hkept
    · exact absurd hkey (hnone row hmem)

/-- So are all rows after such a step. -/
theorem KeepsChunks.all_backed (h : KeepsChunks c uploadId t s s')
    (hs : ∀ row ∈ (s.db.rowsOf uploadId).chunks, RowBacked c uploadId s row) :
    ∀ row ∈ (s'.db.rowsOf uploadId).chunks, RowBacked c uploadId s' row := by
  intro row hrow
  rcases h.rows with heq | ⟨-, new, heq, hnew⟩
  · rw [heq] at hrow
    exact h.backed hrow (hs row hrow)
  · rw [heq] at hrow
    rcases List.mem_append.mp hrow with hold | hlast
    · exact h.backed hold (hs row hold)
    · obtain rfl := List.mem_singleton.mp hlast
      exact hnew

theorem ChunkStep.inv (hs : ChunkInv c uploadId s) (h : ChunkStep c uploadId t s s') :
    ChunkInv c uploadId s' where
  locksOnce := h.locksOnce hs.locksOnce
  issuedOnce := h.issuedOnce hs.issuedOnce
  backed := by
    rcases h.active with hended | hkeeps
    · exact Or.inl hended
    · rcases hs.backed with hended | hbacked
      · exact Or.inl (h.ended hended)
      · exact Or.inr (hkeeps.all_backed hbacked)

/-- A step that touches neither the rows of the upload nor a file of it. -/
theorem KeepsChunks.of_same (hrows : s'.db.rowsOf uploadId = s.db.rowsOf uploadId)
    (haccepted : ∀ e ∈ s.accepted, e ∈ s'.accepted)
    (hfiles : ∀ p, p.upload? = some uploadId → s'.fs.lookup p = s.fs.lookup p ∨
      s.fs.lookup p = none ∧ ∀ i uuid, p ≠ .stagedChunk uploadId i uuid) :
    KeepsChunks c uploadId t s s' where
  chunkSize := congrArg (fun r : UploadRows => r.upload.map UploadRow.chunkSizeBytes) hrows
  artifacts := congrArg UploadRows.artifacts hrows
  accepted := haccepted
  staged i uuid t' _ _ := by
    rcases hfiles (.stagedChunk uploadId i uuid) rfl with heq | ⟨-, hother⟩
    · exact heq
    · exact absurd rfl (hother i uuid)
  files i k node hnode := by
    rcases hfiles (.artifactChunk uploadId i k) rfl with heq | ⟨hnone, -⟩
    · exact Or.inl (heq.trans hnode)
    · rw [hnone] at hnode
      exact nomatch hnode
  rows := Or.inl (congrArg UploadRows.chunks hrows)

/-- A step that moves nothing but the locks of its task. -/
theorem ChunkStep.of_locks {locks : List (Lock × TaskId)} {writer : Option (TaskId × Db)}
    {reconciling : List (String × TaskId)}
    (hlocks : ∀ t', t' ≠ t → ∀ l, (l, t') ∈ locks ↔ (l, t') ∈ s.locks)
    (honce : UniqueOn Prod.fst s.locks → UniqueOn Prod.fst locks) :
    ChunkStep c uploadId t s
      { s with locks := locks, writer := writer, reconciling := reconciling } where
  locks := hlocks
  locksOnce := honce
  issued _ hx := hx
  issuedOnce h := h
  ended h := h
  active := Or.inr (.of_same rfl (fun _ he => he) fun _ _ => Or.inl rfl)

theorem ChunkStep.refl : ChunkStep c uploadId t s s :=
  .of_locks (fun _ _ _ => Iff.rfl) id

/-- A file operation. -/
theorem ChunkStep.of_files {fs : FileStore}
    (h : UploadEnded uploadId s ∨ KeepsChunks c uploadId t s { s with fs := fs }) :
    ChunkStep c uploadId t s { s with fs := fs } where
  locks _ _ _ := Iff.rfl
  locksOnce h := h
  issued _ hx := hx
  issuedOnce h := h
  ended h := h
  active := h

/-- A file operation that changes at most one path, which is no final file that was there. -/
theorem ChunkStep.of_path {fs : FileStore} (path : FilePath)
    (hothers : ∀ p, p ≠ path → fs.lookup p = s.fs.lookup p)
    (hstaged : ∀ i uuid, path = .stagedChunk uploadId i uuid → ∀ t', (uuid, t') ∈ s.issued → t' = t)
    (hfinal : ∀ i k, path = .artifactChunk uploadId i k → s.fs.lookup path = none) :
    ChunkStep c uploadId t s { s with fs := fs } := by
  refine .of_files (Or.inr ?_)
  constructor
  · rfl
  · rfl
  · exact fun _ he => he
  · intro i uuid t' hissued hne
    refine hothers _ fun heq => hne ?_
    exact hstaged i uuid heq.symm t' hissued
  · intro i k node hnode
    left
    by_cases heq : .artifactChunk uploadId i k = path
    · have hnone := hfinal i k heq.symm
      rw [← heq, hnode] at hnone
      exact nomatch hnone
    · exact (hothers _ heq).trans hnode
  · exact Or.inl rfl

/-- A transaction. -/
theorem ChunkStep.of_write {db : Db} {used : List String} {accepted : List AcceptedChunk}
    (hended : UploadEnded uploadId s →
      UploadEnded uploadId { s with db := db, used := used, accepted := accepted })
    (h : UploadEnded uploadId { s with db := db, used := used, accepted := accepted } ∨
      KeepsChunks c uploadId t s { s with db := db, used := used, accepted := accepted }) :
    ChunkStep c uploadId t s { s with db := db, used := used, accepted := accepted } where
  locks _ _ _ := Iff.rfl
  locksOnce h := h
  issued _ hx := hx
  issuedOnce h := h
  ended := hended
  active := h

theorem ChunkStep.cleanup : ChunkStep c uploadId t s (s.cleanup t) := by
  refine .of_locks (fun t' hne l => ?_) fun h => h.filter _
  rw [List.mem_filter, decide_eq_true_eq]
  exact and_iff_left hne

/-- The discipline of the requests for one upload: final files are not removed by actions left
behind. -/
def chunkDiscipline (c : Crates) (uploadId : String) : Discipline system where
  inv := ChunkInv c uploadId
  guar := ChunkStep c uploadId
  detachOk label := label ≠ .removeChunkFile
  inv_step := ChunkStep.inv
  guar_cleanup _ _ := .cleanup

end Steps

/-! ## §2 — A request. -/

section Rules

variable {c : Crates} {uploadId : String} {t : TaskId} {s : Shared} {κ κ' α β : Type}
  {P : Shared → Prop} {Q : α → Shared → Prop}

/-- A read of the database. -/
theorem chunk_query {onFault : κ} {f : Db → Except κ α}
    (hP : (chunkDiscipline c uploadId).Stable t P) (hs : P s)
    (hok : ∀ s' a, ChunkInv c uploadId s' → P s' → f s'.db = .ok a → Q a s') :
    (chunkDiscipline c uploadId).SafeE t (query onFault f) Q (fun _ _ => True) s := by
  refine Safe.atomic hP hs (fun s' e hinv _ _ hp => ?_) fun hdet => ?_
  · cases e.fault with
    | some fault => exact ⟨.refl, trivial⟩
    | none =>
      refine ⟨.refl, ?_⟩
      show Discipline.outcome Q _ (f s'.db) s'
      cases hf : f s'.db with
      | ok a => exact hok s' a hinv hp hf
      | error err => trivial
  · exact absurd hdet Bool.false_ne_true

/-- A reading pass over files, which may be left behind: it changes nothing. -/
theorem chunk_fileRead {onFault : κ} {f : FileStore → Except κ α}
    (hP : (chunkDiscipline c uploadId).Stable t P) (hs : P s)
    (hok : ∀ s' a, ChunkInv c uploadId s' → P s' → f s'.fs = .ok a → Q a s') :
    (chunkDiscipline c uploadId).SafeE t (fileRead onFault f) Q (fun _ s => P s) s := by
  refine Safe.atomic hP hs (fun s' e hinv _ _ hp => ?_) fun _ _ s' _ _ => ?_
  · cases e.fault with
    | some fault => exact ⟨.refl, hp⟩
    | none =>
      refine ⟨.refl, ?_⟩
      show Discipline.outcome Q _ (f s'.fs) s'
      cases hf : f s'.fs with
      | ok a => exact hok s' a hinv hp hf
      | error err => exact hp
  · refine Safe.late (Stable.true t) trivial fun s'' e _ _ _ _ => ?_
    cases e.fault with
    | some fault => exact ⟨.refl, fun h => h⟩
    | none => exact ⟨.refl, fun h => h⟩

/-- A write transaction. -/
theorem chunk_transaction {w : Write} {onFault : Fault → κ} {ids : List String}
    {accepted : List AcceptedChunk} {f : Db → Except κ (α × Db)} {R : κ → Shared → Prop}
    (hP : (chunkDiscipline c uploadId).Stable t P) (hs : P s)
    (hok : ∀ s' a db, ChunkInv c uploadId s' → P s' → f s'.db = .ok (a, db) →
      ChunkStep c uploadId t s'
        { s' with db := db, used := ids ++ s'.used, accepted := accepted ++ s'.accepted } ∧
      Q a { s' with db := db, used := ids ++ s'.used, accepted := accepted ++ s'.accepted })
    (herr : ∀ e s', P s' → R e s') :
    (chunkDiscipline c uploadId).SafeE t (transaction w onFault ids accepted f) Q R s := by
  refine Safe.atomic hP hs (fun s' e hinv _ _ hp => ?_) fun hdet => ?_
  · cases e.fault with
    | some fault => exact ⟨.refl, herr _ s' hp⟩
    | none =>
      by_cases hwriter : s'.writer.isSome
      · simp only [hwriter, if_true]
        exact ⟨.refl, herr _ s' hp⟩
      · simp only [hwriter, Bool.false_eq_true, if_false]
        cases hf : f s'.db with
        | error err => exact ⟨.refl, herr _ s' hp⟩
        | ok r => exact hok s' r.1 r.2 hinv hp hf
  · exact absurd hdet Bool.false_ne_true

/-- What one operation on the data directory does. -/
def fileMove (f : FileStore → Except IoError FileStore) (e : Env) (s : Shared) :
    Except IoError Unit × Shared :=
  match e.fault with
  | some _ => (.error .other, s)
  | none =>
    match f s.fs with
    | .error err => (.error err, s)
    | .ok fs => (.ok (), { s with fs := fs })

/-- A file operation: it may be left behind if what it needs outlives its task. -/
theorem chunk_fileStep {label : Label} {f : FileStore → Except IoError FileStore}
    {Q : Except IoError Unit → Shared → Prop} {L : Shared → Prop}
    (hP : (chunkDiscipline c uploadId).Stable t P) (hs : P s)
    (hL : label ≠ .removeChunkFile → (chunkDiscipline c uploadId).Persistent L)
    (hPL : ∀ s, P s → L s)
    (hstep : ∀ s' fs, ChunkInv c uploadId s' → L s' → f s'.fs = .ok fs →
      ChunkStep c uploadId t s' { s' with fs := fs })
    (hok : ∀ s' fs, ChunkInv c uploadId s' → P s' → f s'.fs = .ok fs →
      Q (.ok ()) { s' with fs := fs })
    (herr : ∀ s' e, P s' → Q (.error e) s') :
    (chunkDiscipline c uploadId).Safe t (fileStep label f) Q s := by
  have hmoves : ∀ (e : Env) (s' : Shared), ChunkInv c uploadId s' → L s' →
      ChunkStep c uploadId t s' (fileMove f e s').2 := by
    intro e s' hinv hl
    unfold fileMove
    cases e.fault with
    | some fault => exact .refl
    | none =>
      cases hf : f s'.fs with
      | error err => exact .refl
      | ok fs => exact hstep s' fs hinv hl hf
  refine Safe.atomic hP hs (fun s' e hinv _ _ hp => ⟨hmoves e s' hinv (hPL s' hp), ?_⟩)
    fun _ hdetach s' hinv hp => ?_
  · cases e.fault with
    | some fault => exact herr s' _ hp
    | none =>
      cases hf : f s'.fs with
      | error err => exact herr s' err hp
      | ok fs => exact hok s' fs hinv hp hf
  · refine Safe.late ((hL hdetach).stable t)
      (hL hdetach t s' (s'.cleanup t) hinv .cleanup (hPL s' hp)) fun s'' e hinv'' _ _ hl => ?_
    exact ⟨hmoves e s'' hinv'' hl, fun h => h⟩

theorem chunk_nowUtc (hP : (chunkDiscipline c uploadId).Stable t P) (hs : P s) :
    (chunkDiscipline c uploadId).Safe t nowUtc (fun _ s => P s) s :=
  Safe.atomic hP hs (fun _ _ _ _ _ hp => ⟨.refl, hp⟩) fun hdet => absurd hdet Bool.false_ne_true

theorem chunk_check_bind {R : κ → Shared → Prop} {x : Except κ α} {f : α → Handler κ β}
    {Q : β → Shared → Prop} (hR : ∀ e, R e s)
    (hf : ∀ a, x = .ok a → (chunkDiscipline c uploadId).SafeE t (f a) Q R s) :
    (chunkDiscipline c uploadId).SafeE t (check x >>= f) Q R s := by
  cases x with
  | ok a => exact hf a rfl
  | error e => exact hR e

theorem chunk_orFail_bind {R : κ → Shared → Prop} {e : κ} {x : Except IoError α}
    {f : α → Handler κ β} {Q : β → Shared → Prop} (hR : ∀ err, x = .error err → R e s)
    (hf : ∀ a, x = .ok a → (chunkDiscipline c uploadId).SafeE t (f a) Q R s) :
    (chunkDiscipline c uploadId).SafeE t (orFail e x >>= f) Q R s := by
  cases x with
  | ok a => exact hf a rfl
  | error err => exact hR err rfl

theorem chunk_nowRfc3339 (hP : (chunkDiscipline c uploadId).Stable t P) (hs : P s)
    (hinv : ChunkInv c uploadId s) :
    (chunkDiscipline c uploadId).SafeE t (nowRfc3339 c) (fun _ s => P s) (fun _ _ => True) s := by
  refine SafeE.bind (SafeE.lift (chunk_nowUtc hP hs) hinv) hinv fun now s' hinv' _ hp => ?_
  exact SafeE.ofExcept (fun _ _ => hp) fun _ _ => trivial

/-- A new identifier is this task's. -/
theorem chunk_freshId (hP : (chunkDiscipline c uploadId).Stable t P) (hs : P s)
    (hkeeps : ∀ s' id, P s' → P { s' with issued := (id, t) :: s'.issued }) :
    (chunkDiscipline c uploadId).Safe t freshId
      (fun id s => P s ∧ (id, t) ∈ s.issued) s := by
  refine Safe.atomic hP hs (fun s' e _ he _ hp => ⟨?_, hkeeps s' e.uuid hp, List.mem_cons_self⟩)
    fun hdet => absurd hdet Bool.false_ne_true
  constructor
  · exact fun _ _ _ => Iff.rfl
  · exact fun h => h
  · exact fun _ hx => List.mem_cons_of_mem _ hx
  · intro honce
    exact List.nodup_cons.mpr ⟨he.2, honce⟩
  · exact fun h => h
  · exact Or.inr (.of_same rfl (fun _ hx => hx) fun _ _ => Or.inl rfl)

theorem chunk_acquire (l : Lock) : (chunkDiscipline c uploadId).Safe t (acquire l)
    (fun _ s => Holds t l s) s := by
  refine Safe.await (Stable.true t) trivial (fun s' hinv hfree _ => ⟨?_, List.mem_cons_self⟩) rfl
  refine .of_locks (fun t' hne l' => ?_) fun h => List.nodup_cons.mpr ⟨fun hmem => ?_, h⟩
  · rw [List.mem_cons, Prod.mk.injEq]
    exact or_iff_right fun heq => hne heq.2
  · obtain ⟨held, hheld, heq⟩ := List.mem_map.mp hmem
    exact of_decide_eq_true (List.all_eq_true.mp hfree held hheld) heq

theorem chunk_attempt {p : Handler κ α} {R : κ → Shared → Prop} {R' : κ' → Shared → Prop}
    (h : (chunkDiscipline c uploadId).SafeE t p Q R s) (hinv : ChunkInv c uploadId s) :
    (chunkDiscipline c uploadId).SafeE t (attempt p : Handler κ' (Except κ α))
      (Discipline.outcome Q R) R' s :=
  Safe.bind h hinv fun _ _ _ hr => hr

/-- The files of this task under the name it was given. -/
theorem issued_kept (uuid : String) (t' : TaskId) :
    (chunkDiscipline c uploadId).Persistent fun s => (uuid, t') ∈ s.issued :=
  fun _ _ _ _ hstep h => hstep.issued _ h

theorem ended_kept : (chunkDiscipline c uploadId).Persistent (UploadEnded uploadId) :=
  fun _ _ _ _ hstep h => hstep.ended h

/-- **`Locked`** — the task holds the lock of the upload, and `X` holds while the upload is in
being. -/
def Locked (uploadId : String) (t : TaskId) (X : Shared → Prop) (s : Shared) : Prop :=
  Holds t (uploadLock uploadId) s ∧ (UploadEnded uploadId s ∨ X s)

/-- What is kept by the steps of tasks that do not hold the lock, the task that holds it can rely
on. -/
theorem Locked.stable {X : Shared → Prop}
    (hX : ∀ s s' t', t' ≠ t → ¬ Holds t' (uploadLock uploadId) s →
      ChunkStep c uploadId t' s s' → KeepsChunks c uploadId t' s s' → X s → X s') :
    (chunkDiscipline c uploadId).Stable t (Locked uploadId t X) := by
  intro s s' t' hne hinv hstep ⟨hholds, hx⟩
  refine ⟨(hstep.locks t hne.symm _).mpr hholds, ?_⟩
  rcases hx with hended | hx
  · exact Or.inl (hstep.ended hended)
  · refine hstep.active.imp_right fun hkeeps =>
      hX s s' t' hne (fun hother => hne ?_) hstep hkeeps hx
    exact congrArg Prod.snd (hinv.locksOnce.eq_of_mem hother hholds rfl)

theorem Locked.map {X X' : Shared → Prop} {s' : Shared} (h : Locked uploadId t X s)
    (hlocks : s'.locks = s.locks) (hdb : s'.db = s.db) (hX : X s → X' s') :
    Locked uploadId t X' s' := by
  refine ⟨?_, h.2.imp (fun hended => ?_) hX⟩
  · show _ ∈ s'.locks
    rw [hlocks]
    exact h.1
  · unfold UploadEnded
    rw [hdb]
    exact hended

end Rules

section Put

variable {c : Crates} {uploadId : String} {t : TaskId} {s s' : Shared} {upload : UploadRow}
  {artifact : UploadArtifactRow} {i k : ℕ} {uuid : String} {body : List BodyFrame}
  {requestChunk : ChunkRequest}

/-- What a request knows about the upload once it has found no row for its index. -/
structure Putting (uploadId : String) (upload : UploadRow) (artifact : UploadArtifactRow) (i k : ℕ)
    (s : Shared) : Prop where
  chunkSize : (s.db.upload uploadId).map UploadRow.chunkSizeBytes = some upload.chunkSizeBytes
  artifact : artifact ∈ s.db.uploadArtifactsOf uploadId
  absent : ∀ r ∈ (s.db.rowsOf uploadId).chunks, r.key ≠ ((i : ℤ), (k : ℤ))

/-- Rows are added by the holder of the lock only. -/
theorem Putting.kept {t' : TaskId} (h : Putting uploadId upload artifact i k s)
    (hfree : ¬ Holds t' (uploadLock uploadId) s) (hkeeps : KeepsChunks c uploadId t' s s') :
    Putting uploadId upload artifact i k s' where
  chunkSize := hkeeps.chunkSize.trans h.chunkSize
  artifact := hkeeps.artifacts ▸ h.artifact
  absent := by
    rcases hkeeps.rows with heq | ⟨hholds, -⟩
    · rw [heq]
      exact h.absent
    · exact absurd hholds hfree

/-- While it writes, the bytes are under a name of its own. -/
def Writing (uploadId : String) (upload : UploadRow) (artifact : UploadArtifactRow) (i k : ℕ)
    (uuid : String) (t : TaskId) (node : Option Node) (s : Shared) : Prop :=
  (uuid, t) ∈ s.issued ∧ Locked uploadId t (fun s => Putting uploadId upload artifact i k s ∧
    (node ≠ none → s.fs.lookup (.stagedChunk uploadId i uuid) = node) ∧ (uuid, t) ∈ s.issued) s

theorem Writing.stable (node : Option Node) : (chunkDiscipline c uploadId).Stable t
    (Writing uploadId upload artifact i k uuid t node) := by
  refine Stable.and ((issued_kept uuid t).stable t) (Locked.stable fun s s' t' hne hfree hstep
    hkeeps hx => ⟨hx.1.kept hfree hkeeps, fun hnode => ?_, hstep.issued _ hx.2.2⟩)
  exact (hkeeps.staged i uuid t hx.2.2 hne.symm).trans (hx.2.1 hnode)

/-- An operation on the private file. -/
theorem chunk_staged {f : FileStore → Except IoError FileStore} {node : Option Node}
    (node' : Option Node) (hs : Writing uploadId upload artifact i k uuid t node s)
    (hothers : ∀ fs fs', f fs = .ok fs' → ∀ p, p ≠ .stagedChunk uploadId i uuid →
      fs'.lookup p = fs.lookup p)
    (hnode : ∀ fs fs', f fs = .ok fs' → (node ≠ none →
      fs.lookup (.stagedChunk uploadId i uuid) = node) → node' ≠ none →
        fs'.lookup (.stagedChunk uploadId i uuid) = node') :
    (chunkDiscipline c uploadId).Safe t (fileOp f) (fun r s => match r with
      | .ok _ => Writing uploadId upload artifact i k uuid t node' s
      | .error _ => Writing uploadId upload artifact i k uuid t node s) s := by
  refine chunk_fileStep (L := fun s => (uuid, t) ∈ s.issued) (Writing.stable node) hs
    (fun _ => issued_kept uuid t) (fun _ h => h.1) (fun s' fs hinv hissued h => ?_)
    (fun s' fs _ hw h => ?_) fun _ _ hw => hw
  · refine .of_path (.stagedChunk uploadId i uuid) (hothers _ _ h) ?_ ?_
    · intro i' uuid' heq t' hissued'
      obtain ⟨-, -, rfl⟩ := FilePath.stagedChunk.inj heq
      exact congrArg Prod.snd (hinv.issuedOnce.eq_of_mem hissued' hissued rfl)
    · intro i' k' heq
      exact nomatch heq
  · refine ⟨hw.1, hw.2.map rfl rfl fun hx => ⟨⟨hx.1.chunkSize, hx.1.artifact, hx.1.absent⟩, ?_,
      hx.2.2⟩⟩
    exact hnode _ _ h hx.2.1

/-- The frame loop appends the bytes it has seen. -/
theorem chunk_writeFrames (maximum : ℕ) (frames : List BodyFrame) (received : Bytes)
    (hinv : ChunkInv c uploadId s)
    (hs : Writing uploadId upload artifact i k uuid t (some (.file received)) s) :
    (chunkDiscipline c uploadId).SafeE t
      (writeFrames (.stagedChunk uploadId i uuid) maximum frames received)
      (fun all s => all = received ++ bodyBytes frames ∧
        Writing uploadId upload artifact i k uuid t (some (.file all)) s)
      (fun _ s => Writing uploadId upload artifact i k uuid t none s) s := by
  have hforget {node : Option Node} {s : Shared}
      (h : Writing uploadId upload artifact i k uuid t node s) :
      Writing uploadId upload artifact i k uuid t none s :=
    ⟨h.1, h.2.map rfl rfl fun hx => ⟨hx.1, fun hne => absurd rfl hne, hx.2.2⟩⟩
  induction frames generalizing received s with
  | nil => exact SafeE.pure ⟨by simp [bodyBytes], hs⟩
  | cons frame rest ih =>
    cases frame with
    | failed => exact SafeE.throw (hforget hs)
    | trailers => exact ih received hinv hs
    | data bytes =>
      rw [writeFrames]
      refine SafeE.guard (fun _ => hforget hs) fun _ => ?_
      refine SafeE.bind (SafeE.lift (chunk_staged (some (.file (received ++ bytes))) hs
        (fun fs fs' h p hp => ?_) fun fs fs' h hold _ => ?_) hinv) hinv fun r s' hinv' _ hr => ?_
      · rw [← Except.ok.inj h, FileStore.lookup_append, if_neg hp]
      · rw [← Except.ok.inj h, FileStore.lookup_append, if_pos rfl, hold (Option.some_ne_none _)]
      · cases r with
        | error err => exact hforget hr
        | ok _ =>
          refine (ih (received ++ bytes) hinv' hr).mono hinv' (fun all s _ h => ⟨?_, h.2⟩)
            fun _ _ _ h => h
          rw [h.1, List.append_assoc]
          rfl

/-- A body that was written has the length and the digest declared, and is what its private file
holds. -/
theorem chunk_writeChunkBody (hinv : ChunkInv c uploadId s)
    (hs : Writing uploadId upload artifact i k uuid t none s) :
    (chunkDiscipline c uploadId).SafeE t
      (writeChunkBody c body (.stagedChunk uploadId i uuid) requestChunk)
      (fun _ s => ((bodyBytes body).length = requestChunk.byteLength ∧
        c.sha256Hex (bodyBytes body) = digestStorageValue requestChunk.sha256) ∧
        Writing uploadId upload artifact i k uuid t (some (.file (bodyBytes body))) s)
      (fun _ s => Writing uploadId upload artifact i k uuid t none s) s := by
  refine SafeE.bind (SafeE.lift (chunk_staged (some (.file [])) hs
    (fun fs fs' h p hp => ?_) fun fs fs' h _ _ => ?_) hinv) hinv fun r s₁ hinv₁ _ hr => ?_
  · obtain ⟨-, rfl⟩ := FileStore.createNew_ok h
    rw [FileStore.lookup_set, if_neg hp]
  · obtain ⟨-, rfl⟩ := FileStore.createNew_ok h
    rw [FileStore.lookup_set, if_pos rfl]
  cases r with
  | error err => exact hr
  | ok _ =>
    refine chunk_orFail_bind (fun _ herr => nomatch herr) fun _ _ => ?_
    refine SafeE.bind (chunk_writeFrames requestChunk.byteLength body [] hinv₁ hr) hinv₁
      fun received s₂ hinv₂ _ hreceived => ?_
    obtain ⟨rfl, hwriting⟩ := hreceived
    refine SafeE.bind (SafeE.lift (chunk_staged (some (.file ([] ++ bodyBytes body)))
      hwriting (fun fs fs' h p _ => ?_) fun fs fs' h hold hne => ?_) hinv₂) hinv₂
      fun r s₃ hinv₃ _ hr => ?_
    · rw [← Except.ok.inj h]
      rfl
    · rw [← Except.ok.inj h]
      exact hold hne
    have hforget {node : Option Node} (h : Writing uploadId upload artifact i k uuid t node s₃) :
        Writing uploadId upload artifact i k uuid t none s₃ :=
      ⟨h.1, h.2.map rfl rfl fun hx => ⟨hx.1, fun hne => absurd rfl hne, hx.2.2⟩⟩
    cases r with
    | error err => exact hforget hr
    | ok _ =>
      refine chunk_orFail_bind (fun _ herr => nomatch herr) fun _ _ => ?_
      split
      · exact SafeE.throw (hforget hr)
      · next hok =>
        rw [not_or, not_not, not_not] at hok
        exact SafeE.pure ⟨hok, hr⟩

/-! ### The final file. -/

/-- The final file of the chunk is there, with the length and the digest declared. -/
def Placed (c : Crates) (uploadId : String) (upload : UploadRow) (artifact : UploadArtifactRow)
    (i k : ℕ) (requestChunk : ChunkRequest) : TaskId → Shared → Prop :=
  fun t => Locked uploadId t fun s => Putting uploadId upload artifact i k s ∧
    ∃ bytes, s.fs.lookup (.artifactChunk uploadId i k) = some (.file bytes) ∧
      bytes.length = requestChunk.byteLength ∧
      c.sha256Hex bytes = digestStorageValue requestChunk.sha256

theorem Placed.stable : (chunkDiscipline c uploadId).Stable t
    (Placed c uploadId upload artifact i k requestChunk t) := by
  refine Locked.stable fun s s' t' _ hfree _ hkeeps ⟨hputting, bytes, hfile, hbytes⟩ => ?_
  refine ⟨hputting.kept hfree hkeeps, bytes, ?_, hbytes⟩
  rcases hkeeps.files i k _ hfile with hkept | ⟨hholds, -⟩
  · exact hkept
  · exact absurd hholds hfree

theorem putting_stable : (chunkDiscipline c uploadId).Stable t
    (Locked uploadId t (Putting uploadId upload artifact i k)) :=
  Locked.stable fun _ _ _ _ hfree _ hkeeps hx => hx.kept hfree hkeeps

/-- What file operations leave alone. -/
theorem Locked.putting_files {fs : FileStore}
    (h : Locked uploadId t (Putting uploadId upload artifact i k) s) :
    Locked uploadId t (Putting uploadId upload artifact i k) { s with fs := fs } :=
  h.map rfl rfl fun hx => ⟨hx.chunkSize, hx.artifact, hx.absent⟩

/-- Directories may appear at any time. -/
theorem chunk_createDirs (hs : Locked uploadId t (Putting uploadId upload artifact i k) s) :
    (chunkDiscipline c uploadId).Safe t
      (fileOp fun fs => fs.createDirAll [.uploadDir uploadId, .artifactChunkDir uploadId i])
      (fun _ s => Locked uploadId t (Putting uploadId upload artifact i k) s) s := by
  refine chunk_fileStep (L := fun _ => True) putting_stable hs (fun _ => Persistent.const True)
    (fun _ _ => trivial) (fun s' fs _ _ h => ?_) (fun _ _ _ hp _ => hp.putting_files)
    fun _ _ hp => hp
  refine .of_files (Or.inr (.of_same rfl (fun _ he => he) fun p _ => ?_))
  refine (FileStore.lookup_createDirAll h p).imp_right fun hnew => ⟨hnew.2.1, fun i' uuid' => ?_⟩
  rintro rfl
  simp at hnew

/-- The private name is given up. -/
theorem chunk_discardFile {P : Shared → Prop} (hP : (chunkDiscipline c uploadId).Stable t P)
    (hissued : ∀ s, P s → (uuid, t) ∈ s.issued)
    (hkeeps : ∀ s fs, P s → (∀ p, p ≠ .stagedChunk uploadId i uuid → fs.lookup p = s.fs.lookup p) →
      P { s with fs := fs }) (hs : P s) :
    (chunkDiscipline c uploadId).Safe t (discardFile (.stagedChunk uploadId i uuid))
      (fun _ s => P s) s := by
  have hothers : ∀ {fs fs' : FileStore}, fs.removeFile (.stagedChunk uploadId i uuid) = .ok fs' →
      ∀ p, p ≠ .stagedChunk uploadId i uuid → fs'.lookup p = fs.lookup p := by
    intro fs fs' h p hp
    rw [FileStore.removeFile_ok h, FileStore.lookup_removeWhere, decide_eq_false hp]
    rfl
  refine chunk_fileStep (L := fun s => (uuid, t) ∈ s.issued) (Q := fun _ s => P s)
    (f := fun fs => fs.removeFile (.stagedChunk uploadId i uuid)) hP hs
    (fun _ => issued_kept uuid t)
    hissued (fun s' fs hinv hown h => ?_)
    (fun s' fs _ hp h => hkeeps s' fs hp (hothers h)) fun _ _ hp => hp
  refine .of_path (.stagedChunk uploadId i uuid) (hothers h) ?_ fun i' k' heq => nomatch heq
  intro i' uuid' heq t' hissued'
  obtain ⟨-, -, rfl⟩ := FilePath.stagedChunk.inj heq
  exact congrArg Prod.snd (hinv.issuedOnce.eq_of_mem hissued' hown rfl)

/-- Under the lock and without a row, the final file may be taken away; an action left behind may
not. -/
theorem chunk_discardChunkFile (hs : Locked uploadId t (Putting uploadId upload artifact i k) s) :
    (chunkDiscipline c uploadId).Safe t (discardChunkFile (.artifactChunk uploadId i k))
      (fun _ _ => True) s := by
  refine chunk_fileStep putting_stable hs (fun h => absurd rfl h) (fun _ hp => hp)
    (fun s' fs hinv hp h => ?_) (fun _ _ _ _ _ => trivial) fun _ _ _ => trivial
  have hothers : ∀ p, p ≠ .artifactChunk uploadId i k → fs.lookup p = s'.fs.lookup p := by
    intro p hne
    rw [FileStore.removeFile_ok h, FileStore.lookup_removeWhere, decide_eq_false hne]
    rfl
  obtain ⟨hholds, hx⟩ := hp
  refine .of_files (hx.imp_right fun hputting => ?_)
  constructor
  · rfl
  · rfl
  · exact fun _ he => he
  · exact fun i' uuid' _ _ _ => hothers _ nofun
  · intro i' k' node hnode
    by_cases heq : FilePath.artifactChunk uploadId i' k' = .artifactChunk uploadId i k
    · obtain ⟨-, rfl, rfl⟩ := FilePath.artifactChunk.inj heq
      exact Or.inr ⟨hholds, hputting.absent⟩
    · exact Or.inl ((hothers _ heq).trans hnode)
  · exact Or.inl rfl

/-- Where a request fails, its private name is given up first. -/
theorem chunk_discard_throw {α : Type} {error : ApiError} {Q : α → Shared → Prop}
    (hinv : ChunkInv c uploadId s) (hs : (uuid, t) ∈ s.issued) :
    (chunkDiscipline c uploadId).SafeE t
      (do let _ ← discardFile (.stagedChunk uploadId i uuid); throw error : Handler ApiError α) Q
      (fun _ _ => True) s := by
  refine SafeE.bind (SafeE.lift (chunk_discardFile ((issued_kept uuid t).stable t)
    (fun _ h => h) (fun _ _ h _ => h) hs) hinv) hinv fun _ _ _ _ _ => ?_
  exact SafeE.throw trivial

/-- The link appears only where there was no file; then it is to the bytes of this request. -/
theorem chunk_hardLink {bytes : Bytes} (hlength : bytes.length = requestChunk.byteLength)
    (hdigest : c.sha256Hex bytes = digestStorageValue requestChunk.sha256)
    (hs : Writing uploadId upload artifact i k uuid t (some (.file bytes)) s) :
    (chunkDiscipline c uploadId).Safe t
      (fileOp fun fs => fs.hardLink (.stagedChunk uploadId i uuid) (.artifactChunk uploadId i k))
      (fun r s => (uuid, t) ∈ s.issued ∧ Locked uploadId t (Putting uploadId upload artifact i k)
        s ∧
        (r = .ok () → Placed c uploadId upload artifact i k requestChunk t s)) s := by
  refine chunk_fileStep (L := fun _ => True) (Writing.stable _) hs (fun _ => Persistent.const True)
    (fun _ _ => trivial) (fun s' fs _ _ h => ?_) (fun s' fs _ hw h => ?_) fun s' err hw => ?_
  · obtain ⟨node, -, -, hnone, rfl⟩ := FileStore.hardLink_ok h
    refine .of_path (.artifactChunk uploadId i k) (fun p hp => ?_) (fun _ _ heq => nomatch heq)
      fun _ _ _ => hnone
    rw [FileStore.lookup_link, if_neg hp]
  · obtain ⟨node, hnode, -, -, rfl⟩ := FileStore.hardLink_ok h
    have hputting : Locked uploadId t (Putting uploadId upload artifact i k) s' :=
      hw.2.map rfl rfl fun hx => hx.1
    refine ⟨hw.1, hputting.putting_files, fun _ => hw.2.map rfl rfl fun hx => ?_⟩
    refine ⟨⟨hx.1.chunkSize, hx.1.artifact, hx.1.absent⟩, bytes, ?_, hlength, hdigest⟩
    have hbytes := hx.2.1 (Option.some_ne_none _)
    rw [hnode] at hbytes
    rw [FileStore.lookup_link, if_pos rfl]
    exact hbytes
  · exact ⟨hw.1, hw.2.map rfl rfl fun hx => hx.1, nofun⟩

/-- The sync of the directory moves no file. -/
theorem chunk_syncDirectory
    (hs : (uuid, t) ∈ s.issued ∧ Locked uploadId t (Putting uploadId upload artifact i k) s ∧
      Placed c uploadId upload artifact i k requestChunk t s) :
    (chunkDiscipline c uploadId).Safe t
      (fileOp fun fs => fs.syncDirectory (.artifactChunkDir uploadId i))
      (fun _ s => (uuid, t) ∈ s.issued ∧
        Locked uploadId t (Putting uploadId upload artifact i k) s ∧
        Placed c uploadId upload artifact i k requestChunk t s) s := by
  have hsame {fs fs' : FileStore} (h : fs.syncDirectory (.artifactChunkDir uploadId i) = .ok fs')
      (p : FilePath) : fs'.lookup p = fs.lookup p := FileStore.lookup_syncDirectory h p
  refine chunk_fileStep (L := fun _ => True)
    (((issued_kept uuid t).stable t).and (putting_stable.and Placed.stable)) hs
    (fun _ => Persistent.const True) (fun _ _ => trivial) (fun s' fs _ _ h => ?_)
    (fun s' fs _ ⟨hissued, hputting, hplaced⟩ h => ?_) fun _ _ hp => hp
  · exact .of_files (Or.inr (.of_same rfl (fun _ he => he) fun p _ => Or.inl (hsame h p)))
  · refine ⟨hissued, hputting.putting_files, hplaced.map rfl rfl fun ⟨hx, bytes, hfile, hbytes⟩ =>
      ?_⟩
    exact ⟨⟨hx.chunkSize, hx.artifact, hx.absent⟩, bytes, (hsame h _).trans hfile, hbytes⟩

/-- A file that was there is verified first. -/
theorem chunk_verify
    (hs : (uuid, t) ∈ s.issued ∧ Locked uploadId t (Putting uploadId upload artifact i k) s) :
    (chunkDiscipline c uploadId).SafeE t
      (fileRead ApiError.storage (verifyStoredFile c (.artifactChunk uploadId i k)
        requestChunk.byteLength requestChunk.sha256))
      (fun _ s => (uuid, t) ∈ s.issued ∧ Placed c uploadId upload artifact i k requestChunk t s)
      (fun _ s => (uuid, t) ∈ s.issued ∧
        Locked uploadId t (Putting uploadId upload artifact i k) s) s := by
  refine chunk_fileRead (((issued_kept uuid t).stable t).and putting_stable) hs
    fun s' _ _ hp hverify => ⟨hp.1, hp.2.map rfl rfl fun hx => ⟨hx, ?_⟩⟩
  exact verifyStoredFile_ok hverify

/-- **`chunk_storeChunkFile`** — when the bytes are stored, the final file is in place, and what is
returned is a name of the task's own. -/
theorem chunk_storeChunkFile (hinv : ChunkInv c uploadId s)
    (hs : Locked uploadId t (Putting uploadId upload artifact i k) s) :
    (chunkDiscipline c uploadId).SafeE t (storeChunkFile c uploadId i k body requestChunk)
      (fun path s => ∃ uuid, path = .stagedChunk uploadId i uuid ∧ (uuid, t) ∈ s.issued ∧
        Placed c uploadId upload artifact i k requestChunk t s ∧
        (bodyBytes body).length = requestChunk.byteLength ∧
        c.sha256Hex (bodyBytes body) = digestStorageValue requestChunk.sha256)
      (fun _ _ => True) s := by
  refine SafeE.bind (SafeE.lift (chunk_createDirs hs) hinv) hinv fun r s₁ hinv₁ _ hs₁ => ?_
  refine chunk_orFail_bind (fun _ _ => trivial) fun _ _ => ?_
  refine SafeE.bind (SafeE.lift (chunk_freshId putting_stable hs₁ fun s' id hp =>
    hp.map rfl rfl fun hx => ⟨hx.chunkSize, hx.artifact, hx.absent⟩) hinv₁) hinv₁
    fun uuid s₂ hinv₂ _ hs₂ => ?_
  have hwriting : Writing uploadId upload artifact i k uuid t none s₂ :=
    ⟨hs₂.2, hs₂.1.map rfl rfl fun hx => ⟨hx, fun hne => absurd rfl hne, hs₂.2⟩⟩
  refine SafeE.bind (chunk_attempt (chunk_writeChunkBody hinv₂ hwriting) hinv₂) hinv₂
    fun r s₃ hinv₃ _ hr => ?_
  cases r with
  | error err => exact chunk_discard_throw hinv₃ hr.1
  | ok _ =>
    obtain ⟨⟨hlength, hdigest⟩, hwritten⟩ := hr
    refine SafeE.bind (SafeE.lift (chunk_hardLink hlength hdigest hwritten) hinv₃) hinv₃
      fun r s₄ hinv₄ _ hr => ?_
    obtain ⟨hissued, hputting, hplaced⟩ := hr
    rcases r with (_ | _ | _) | _
    · exact chunk_discard_throw hinv₄ hissued
    · -- a file of an earlier attempt
      refine SafeE.bind (chunk_attempt (chunk_verify ⟨hissued, hputting⟩) hinv₄) hinv₄
        fun r s₅ hinv₅ _ hr => ?_
      cases r with
      | error err => exact chunk_discard_throw hinv₅ hr.1
      | ok _ => exact SafeE.pure ⟨uuid, rfl, hr.1, hr.2, hlength, hdigest⟩
    · exact chunk_discard_throw hinv₄ hissued
    · refine SafeE.bind (SafeE.lift (chunk_syncDirectory ⟨hissued, hputting, hplaced rfl⟩) hinv₄)
        hinv₄ fun r s₅ hinv₅ _ hr => ?_
      obtain ⟨hissued, hputting, hplaced⟩ := hr
      cases r with
      | ok _ => exact SafeE.pure ⟨uuid, rfl, hissued, hplaced, hlength, hdigest⟩
      | error err =>
        refine SafeE.bind (SafeE.lift (chunk_discardFile
          (((issued_kept uuid t).stable t).and putting_stable) (fun _ h => h.1)
          (fun _ _ h _ => ⟨h.1, h.2.putting_files⟩) ⟨hissued, hputting⟩) hinv₅) hinv₅
          fun _ s₆ hinv₆ _ hr => ?_
        refine SafeE.bind (SafeE.lift (chunk_discardChunkFile hr.2) hinv₆) hinv₆
          fun _ _ _ _ _ => ?_
        exact SafeE.throw trivial

/-! ### The row. -/

/-- **`Recorded`** — the chunk has a row with the length and the digest declared. -/
def Recorded (uploadId : String) (i k : ℕ) (requestChunk : ChunkRequest) (s : Shared) : Prop :=
  UploadEnded uploadId s ∨ ∃ row ∈ (s.db.rowsOf uploadId).chunks,
    row.key = ((i : ℤ), (k : ℤ)) ∧ row.byteLength = requestChunk.byteLength ∧
      row.sha256 = digestStorageValue requestChunk.sha256

/-- Rows stay as long as the upload does. -/
theorem rows_kept {row : UploadChunkRow} : (chunkDiscipline c uploadId).Persistent fun s =>
    UploadEnded uploadId s ∨ row ∈ (s.db.rowsOf uploadId).chunks := by
  intro t s s' _ hstep h
  rcases h with hended | hrow
  · exact Or.inl (hstep.ended hended)
  · refine hstep.active.imp_right fun hkeeps => ?_
    rcases hkeeps.rows with heq | ⟨-, new, heq, -⟩
    · rwa [heq]
    · rw [heq]
      exact List.mem_append_left _ hrow

theorem recorded_kept : (chunkDiscipline c uploadId).Persistent
    (Recorded uploadId i k requestChunk) := by
  intro t s s' hinv hstep h
  rcases h with hended | ⟨row, hrow, hkey⟩
  · exact Or.inl (hstep.ended hended)
  · exact (rows_kept t s s' hinv hstep (Or.inr hrow)).imp_right fun hkept => ⟨row, hkept, hkey⟩

/-- The transaction that accepts the chunk: there is a file for the row it adds. -/
theorem chunkStep_persistChunkRecord {db : Db} {now : String}
    (hs : Placed c uploadId upload artifact i k requestChunk t s)
    (hindex : artifact.artifactIndex = i)
    (hlength : expectedChunkLength upload artifact k = .ok requestChunk.byteLength)
    (hbody : (bodyBytes body).length = requestChunk.byteLength ∧
      c.sha256Hex (bodyBytes body) = digestStorageValue requestChunk.sha256)
    (h : persistChunkRecord uploadId i k requestChunk.byteLength requestChunk.sha256 now s.db =
      .ok ((), db)) :
    ChunkStep c uploadId t s { s with
      db := db
      used := [] ++ s.used
      accepted := [⟨uploadId, i, k, bodyBytes body⟩] ++ s.accepted } ∧
    Recorded uploadId i k requestChunk { s with
      db := db
      used := [] ++ s.used
      accepted := [⟨uploadId, i, k, bodyBytes body⟩] ++ s.accepted } := by
  obtain ⟨hholds, hx⟩ := hs
  obtain ⟨⟨current, hcurrent, hactive⟩, hcase⟩ := persistChunkRecord_ok h
  rcases hx with hended | ⟨hputting, bytes, hfile, hbytes, hdigest⟩
  · -- an upload that has ended takes no rows
    rw [hended current hcurrent] at hactive
    exact absurd hactive Bool.false_ne_true
  rcases hcase with ⟨-, rfl⟩ | ⟨existing, hexisting, -, -, -⟩
  · set row : UploadChunkRow := ⟨uploadId, i, k, requestChunk.byteLength,
      digestStorageValue requestChunk.sha256, now⟩ with hrow
    have hrows : (s.db.uploadChunks ++ [row]).filter (fun r => decide (r.uploadId = uploadId)) =
        (s.db.rowsOf uploadId).chunks ++ [row] := by
      rw [List.filter_append]
      exact congrArg _ (List.filter_cons_of_pos (decide_eq_true rfl))
    refine ⟨.of_write (fun hended => hended) (Or.inr ?_), Or.inr ⟨row, ?_, rfl, rfl, rfl⟩⟩
    · constructor
      · rfl
      · rfl
      · exact fun _ he => List.mem_cons_of_mem _ he
      · exact fun _ _ _ _ _ => rfl
      · exact fun _ _ _ hnode => Or.inl hnode
      · refine Or.inr ⟨hholds, row, hrows, ⟨?_, ⟨_, List.mem_cons_self, ?_⟩, ?_⟩⟩
        · have hsize := hputting.chunkSize
          rw [hcurrent, Option.map_some, Option.some.injEq] at hsize
          refine ⟨current, artifact, requestChunk.byteLength, hcurrent, hputting.artifact, hindex,
            ?_, rfl⟩
          unfold expectedChunkLength at hlength ⊢
          rw [hsize]
          exact hlength
        · exact ⟨rfl, rfl, rfl, congrArg Nat.cast hbody.1, hbody.2⟩
        · exact ⟨i, k, bytes, rfl, hfile, congrArg Nat.cast hbytes.symm, hdigest.symm⟩
    · show row ∈ (s.db.uploadChunks ++ [row]).filter _
      rw [hrows]
      exact List.mem_append_right _ List.mem_cons_self
  · -- a row would have been found before
    obtain ⟨hmem, hkey⟩ := (Db.chunk_rowsOf _ _ _ _).1 existing hexisting
    exact absurd hkey (hputting.absent existing hmem)

/-- The status is no part of what is kept. -/
theorem chunkStep_setUploadStatus {complete : Bool} {db : Db}
    (h : setUploadStatus uploadId complete s.db = .ok ((), db)) :
    ChunkStep c uploadId t s
      { s with db := db, used := [] ++ s.used, accepted := [] ++ s.accepted } := by
  obtain ⟨-, rfl⟩ := Prod.mk.inj (pure_eq_ok.mp h)
  have hfound : ((Lib.updateWhere (fun r => decide (r.id = uploadId) && r.status.active)
      (fun r => { r with status := if complete then .artifactUploaded else .created })
      s.db.uploads).find? fun r => decide (r.id = uploadId)) = _ :=
    Lib.find?_updateWhere fun _ _ => rfl
  refine .of_write (fun hended u hu => ?_) (Or.inr ?_)
  · obtain ⟨r, hr, rfl⟩ := Option.map_eq_some_iff.mp (hfound.symm.trans hu)
    have hcompleted := hended r hr
    have hinactive : (decide (r.id = uploadId) && r.status.active) = false := by
      rw [hcompleted]
      exact Bool.and_false _
    rw [hinactive]
    exact hcompleted
  · constructor
    · refine (congrArg (Option.map UploadRow.chunkSizeBytes) hfound).trans ?_
      rw [Option.map_map]
      refine congrArg (fun f => Option.map f (s.db.upload uploadId)) (funext fun r => ?_)
      show UploadRow.chunkSizeBytes (if _ then _ else _) = _
      split <;> rfl
    · rfl
    · exact fun _ he => he
    · exact fun _ _ _ _ _ => rfl
    · exact fun _ _ _ hnode => Or.inl hnode
    · exact Or.inl rfl

theorem chunk_artifactsComplete {P : Shared → Prop} (hP : (chunkDiscipline c uploadId).Stable t P)
    (artifacts : List UploadArtifactRow) (hinv : ChunkInv c uploadId s) (hs : P s) :
    (chunkDiscipline c uploadId).SafeE t (artifactsComplete uploadId artifacts) (fun _ s => P s)
      (fun _ _ => True) s := by
  induction artifacts generalizing s with
  | nil => exact SafeE.pure hs
  | cons artifact rest ih =>
    refine SafeE.bind (chunk_query hP hs fun _ _ _ hp _ => hp) hinv fun chunks s' hinv' _ hp => ?_
    split
    · exact ih hinv' hp
    · exact SafeE.pure hp

theorem chunk_refreshUploadStatus (hinv : ChunkInv c uploadId s)
    (hs : Recorded uploadId i k requestChunk s) :
    (chunkDiscipline c uploadId).SafeE t (refreshUploadStatus uploadId)
      (fun _ s => Recorded uploadId i k requestChunk s) (fun _ _ => True) s := by
  have hkept : (chunkDiscipline c uploadId).Stable t (Recorded uploadId i k requestChunk) :=
    recorded_kept.stable t
  have hcomplete : (chunkDiscipline c uploadId).SafeE t (uploadIsComplete uploadId)
      (fun _ s => Recorded uploadId i k requestChunk s) (fun _ _ => True) s := by
    refine SafeE.bind (chunk_query hkept hs fun _ _ _ hp _ => hp) hinv
      fun artifacts s' hinv' _ hp => ?_
    exact SafeE.guard (fun _ => trivial) fun _ => chunk_artifactsComplete hkept artifacts hinv' hp
  refine SafeE.bind hcomplete hinv fun complete s' hinv' _ hp => ?_
  refine chunk_transaction hkept hp (fun s'' _ db hinv'' hp h => ?_) fun _ _ _ => trivial
  have hstep : ChunkStep c uploadId t s'' _ := chunkStep_setUploadStatus h
  exact ⟨hstep, recorded_kept t _ _ hinv'' hstep hp⟩

/-- **`chunk_acceptChunk`** — a chunk without a row that is accepted has one. -/
theorem chunk_acceptChunk (hinv : ChunkInv c uploadId s) (hid : upload.id = uploadId)
    (hindex : artifact.artifactIndex = i)
    (hs : Locked uploadId t (Putting uploadId upload artifact i k) s) :
    (chunkDiscipline c uploadId).SafeE t (acceptChunk c upload artifact i k body requestChunk)
      (fun _ s => Recorded uploadId i k requestChunk s) (fun _ _ => True) s := by
  subst hid
  refine chunk_check_bind (fun _ => trivial) fun expectedLength hlength => ?_
  refine SafeE.guard (fun _ => trivial) fun heq => ?_
  rw [not_not] at heq
  rw [← heq] at hlength
  refine SafeE.bind (chunk_storeChunkFile hinv hs) hinv fun path s₁ hinv₁ _ hstored => ?_
  obtain ⟨uuid, rfl, hissued, hplaced, hbody⟩ := hstored
  have hown : (chunkDiscipline c upload.id).Stable t fun s => (uuid, t) ∈ s.issued :=
    (issued_kept uuid t).stable t
  refine SafeE.bind (chunk_nowRfc3339 (hown.and Placed.stable) ⟨hissued, hplaced⟩ hinv₁) hinv₁
    fun now s₂ hinv₂ _ hp => ?_
  refine SafeE.bind (chunk_attempt (chunk_transaction (R := fun _ s => (uuid, t) ∈ s.issued)
    (Q := fun _ s => (uuid, t) ∈ s.issued ∧ Recorded upload.id i k requestChunk s)
    (hown.and Placed.stable) hp (fun s' _ db _ hp h => ?_) fun _ _ hp => hp.1) hinv₂) hinv₂
    fun accepted s₃ hinv₃ _ haccepted => ?_
  · obtain ⟨hstep, hrecorded⟩ := chunkStep_persistChunkRecord hp.2 hindex hlength hbody h
    exact ⟨hstep, hp.1, hrecorded⟩
  cases accepted with
  | error error =>
    refine SafeE.bind (SafeE.lift (chunk_discardFile hown (fun _ h => h) (fun _ _ h _ => h)
      haccepted) hinv₃) hinv₃ fun cleanup _ _ _ _ => ?_
    exact SafeE.throw trivial
  | ok _ =>
    refine SafeE.bind (SafeE.lift (chunk_discardFile (hown.and (recorded_kept.stable t))
      (fun _ h => h.1) (fun _ _ h _ => h) haccepted) hinv₃) hinv₃ fun cleanup s₄ hinv₄ _ hp => ?_
    cases cleanup with
    | error _ => exact SafeE.throw trivial
    | ok _ => exact chunk_refreshUploadStatus hinv₄ hp.2

/-! ### The request. -/

/-- Ending an upload takes its rows first, then its files. -/
theorem chunk_terminalizeUploadLocked {reason : TerminalReason} (hinv : ChunkInv c uploadId s)
    (hid : upload.id = uploadId) :
    (chunkDiscipline c uploadId).SafeE t (terminalizeUploadLocked c upload reason)
      (fun _ _ => True) (fun _ _ => True) s := by
  refine SafeE.bind (chunk_nowRfc3339 (Stable.true t) trivial hinv) hinv
    fun terminalAt s₁ hinv₁ _ _ => ?_
  refine SafeE.bind (chunk_transaction (Q := fun ended s => ended = true → UploadEnded uploadId s)
    (Stable.true t) trivial (fun s' ended db _ _ h => ?_) fun _ _ _ => trivial) hinv₁
    fun ended s₂ hinv₂ _ hended => ?_
  · rcases terminalizeUpload_ok h with ⟨-, rfl, rfl⟩ | ⟨current, -, -, -, rfl, rfl⟩
    · refine ⟨.of_write (fun hended => hended) (Or.inr ?_), fun h => absurd h Bool.false_ne_true⟩
      exact .of_same rfl (fun _ he => he) fun _ _ => Or.inl rfl
    · have hgone : ∀ u, (endUpload upload reason terminalAt s'.db).upload uploadId ≠ some u := by
        intro u hu
        obtain ⟨hmem, hfound⟩ := Db.upload_some hu
        exact of_decide_eq_true (List.mem_filter.mp hmem).2 (hfound.trans hid.symm)
      have hended : ∀ used accepted, UploadEnded uploadId { s' with
          db := endUpload upload reason terminalAt s'.db, used := used, accepted := accepted } :=
        fun _ _ u hu => absurd hu (hgone u)
      exact ⟨.of_write (fun _ => hended _ _) (Or.inl (hended _ _)), fun _ => hended _ _⟩
  · split
    · next hended' =>
      refine SafeE.bind (SafeE.lift (chunk_fileStep (L := UploadEnded uploadId)
        (Q := fun _ _ => True) (f := fun fs => .ok (fs.removeUploadDir upload.id))
        (ended_kept.stable t) (hended hended') (fun _ => ended_kept)
        (fun _ h => h) (fun s' fs _ hl _ => .of_files (Or.inl hl)) (fun _ _ _ _ _ => trivial)
        fun _ _ _ => trivial) hinv₂) hinv₂ fun r _ _ _ _ => ?_
      cases r with
      | ok _ => exact SafeE.pure trivial
      | error _ => exact SafeE.throw trivial
    · exact SafeE.pure trivial

theorem holds_kept (l : Lock) : (chunkDiscipline c uploadId).Stable t (Holds t l) :=
  fun _ _ _ hne _ hstep h => (hstep.locks t hne.symm l).mpr h

/-- The upload, as it was found, and its layout from then on. -/
theorem chunk_requireActiveUpload (hinv : ChunkInv c uploadId s)
    (hs : Holds t (uploadLock uploadId) s) :
    (chunkDiscipline c uploadId).SafeE t (requireActiveUpload c uploadId)
      (fun upload s => upload.id = uploadId ∧ Locked uploadId t (fun s =>
        (s.db.upload uploadId).map UploadRow.chunkSizeBytes = some upload.chunkSizeBytes) s)
      (fun _ _ => True) s := by
  have hsized (upload : UploadRow) : (chunkDiscipline c uploadId).Stable t (Locked uploadId t
      fun s => (s.db.upload uploadId).map UploadRow.chunkSizeBytes = some upload.chunkSizeBytes) :=
    Locked.stable fun _ _ _ _ _ _ hkeeps hx => hkeeps.chunkSize.trans hx
  refine SafeE.bind (chunk_query (Q := fun found s => ∀ upload, found = some upload →
    upload.id = uploadId ∧ Locked uploadId t (fun s =>
      (s.db.upload uploadId).map UploadRow.chunkSizeBytes = some upload.chunkSizeBytes) s)
    (holds_kept _) hs fun s' found _ hp h upload hfound => ?_) hinv fun found s₁ hinv₁ _ hfound =>
      ?_
  · rw [← pure_eq_ok.mp h] at hfound
    refine ⟨(Db.upload_some hfound).2, hp, Or.inr ?_⟩
    show Option.map _ (s'.db.upload uploadId) = _
    rw [hfound]
    rfl
  · cases found with
    | none => exact SafeE.throw trivial
    | some upload =>
      obtain ⟨hid, hlocked⟩ := hfound upload rfl
      show (chunkDiscipline c uploadId).SafeE t (if _ then _ else _) _ _ _
      split
      · exact SafeE.pure ⟨hid, hlocked⟩
      · refine SafeE.bind (SafeE.lift (chunk_nowUtc (hsized upload) hlocked) hinv₁) hinv₁
          fun now s₂ hinv₂ _ hlocked => ?_
        refine chunk_check_bind (fun _ => trivial) fun expired _ => ?_
        split
        · refine SafeE.bind (chunk_terminalizeUploadLocked hinv₂ hid) hinv₂ fun _ _ _ _ _ => ?_
          exact SafeE.throw trivial
        · exact SafeE.pure ⟨hid, hlocked⟩

/-- The length and the digest the request declares: in its headers, or, without any, those of the
whole artifact. -/
def PutChunkRequest.Declares (request : PutChunkRequest) (uploadId : String) (i : ℕ)
    (requestChunk : ChunkRequest) (s : Shared) : Prop :=
  parseChunkHeaders request = .ok (some requestChunk) ∨
    parseChunkHeaders request = .ok none ∧ ∃ artifact ∈ s.db.uploadArtifactsOf uploadId,
      artifact.artifactIndex = i ∧ requestChunk =
        ⟨artifact.storedSizeBytes.toNat, digestDocumentValue artifact.storedSha256⟩

/-- **`AnsweredPut`** — what an answer without an error stands for: the chunk has a row, of the
length and the digest the request declares. -/
def AnsweredPut (uploadId : String) (request : PutChunkRequest) (s : Shared) : Prop :=
  UploadEnded uploadId s ∨ ∃ i k requestChunk, parseUnsigned 32 request.artifactIndex = some i ∧
    parseUnsigned 64 request.chunkIndex = some k ∧ request.Declares uploadId i requestChunk s ∧
      Recorded uploadId i k requestChunk s

theorem declares_kept {request : PutChunkRequest} (i : ℕ) (requestChunk : ChunkRequest) :
    (chunkDiscipline c uploadId).Persistent fun s =>
      UploadEnded uploadId s ∨ request.Declares uploadId i requestChunk s := by
  intro t s s' hinv hstep h
  rcases h with hended | hdeclares
  · exact Or.inl (hstep.ended hended)
  · refine hstep.active.imp_right fun hkeeps => hdeclares.imp_right ?_
    rintro ⟨hnone, artifact, hmem, hlegacy⟩
    exact ⟨hnone, artifact, hkeeps.artifacts ▸ hmem, hlegacy⟩

theorem answeredPut_kept {request : PutChunkRequest} : (chunkDiscipline c uploadId).Persistent
    (AnsweredPut uploadId request) := by
  intro t s s' hinv hstep h
  rcases h with hended | ⟨i, k, requestChunk, hi, hk, hdeclares, hrecorded⟩
  · exact Or.inl (hstep.ended hended)
  · refine (declares_kept i requestChunk t s s' hinv hstep (Or.inr hdeclares)).imp_right
      fun hdeclares' => ?_
    exact ⟨i, k, requestChunk, hi, hk, hdeclares', recorded_kept t s s' hinv hstep hrecorded⟩

/-- The layout the request was checked against. -/
def OfLayout (uploadId : String) (upload : UploadRow) (artifact : UploadArtifactRow) (s : Shared) :
    Prop :=
  (s.db.upload uploadId).map UploadRow.chunkSizeBytes = some upload.chunkSizeBytes ∧
    artifact ∈ s.db.uploadArtifactsOf uploadId

theorem ofLayout_stable : (chunkDiscipline c uploadId).Stable t
    (Locked uploadId t (OfLayout uploadId upload artifact)) :=
  Locked.stable fun _ _ _ _ _ _ hkeeps hx =>
    ⟨hkeeps.chunkSize.trans hx.1, hkeeps.artifacts ▸ hx.2⟩

/-- A chunk that has a row is answered from the row and its file, any other is accepted. -/
theorem chunk_answerPut {expected : ChunkRequest} (hinv : ChunkInv c uploadId s)
    (hid : upload.id = uploadId) (hindex : artifact.artifactIndex = i)
    (hs : Locked uploadId t (OfLayout uploadId upload artifact) s) :
    (chunkDiscipline c uploadId).SafeE t (answerPut c uploadId upload artifact i k body expected)
      (fun _ s => Recorded uploadId i k expected s) (fun _ _ => True) s := by
  refine SafeE.bind (chunk_query (Q := fun found s =>
    (found = none → Locked uploadId t (Putting uploadId upload artifact i k) s) ∧
      ∀ existing, found = some existing → existing.key = ((i : ℤ), (k : ℤ)) ∧
        (UploadEnded uploadId s ∨ existing ∈ (s.db.rowsOf uploadId).chunks))
    ofLayout_stable hs fun s' found _ hp h => ?_) hinv fun found s₁ hinv₁ _ hfound => ?_
  · obtain rfl := pure_eq_ok.mp h
    obtain ⟨hsome, hnone⟩ := s'.db.chunk_rowsOf uploadId i k
    refine ⟨fun h => hp.map rfl rfl fun hx => ⟨hx.1, hx.2, hnone h⟩, fun existing h => ?_⟩
    obtain ⟨hmem, hkey⟩ := hsome existing h
    exact ⟨hkey, Or.inr hmem⟩
  · cases found with
    | none => exact chunk_acceptChunk hinv₁ hid hindex (hfound.1 rfl)
    | some existing =>
      obtain ⟨hkey, hrow⟩ := hfound.2 existing rfl
      refine chunk_check_bind (fun _ => trivial) fun byteLength hlength => ?_
      refine SafeE.guard (fun _ => trivial) fun heq => ?_
      rw [not_or, not_not, not_not] at heq
      refine (chunk_fileRead (rows_kept.stable t) hrow fun _ _ _ hp _ => hp).mono hinv₁
        (fun _ s₂ _ hrow => ?_) fun _ _ _ _ => trivial
      refine hrow.imp_right fun hmem => ⟨existing, hmem, hkey, ?_, heq.2⟩
      unfold toSqliteI64 at hlength
      split_ifs at hlength
      rw [heq.1, pure_eq_ok.mp hlength]

/-- **`chunk_putArtifactChunk`** — a request that is answered without an error has its row. -/
theorem chunk_putArtifactChunk {request : PutChunkRequest} (hinv : ChunkInv c uploadId s)
    (htarget : parseUuidText request.uploadId "upload identifier is not a UUID" = .ok uploadId) :
    (chunkDiscipline c uploadId).SafeE t (putArtifactChunk c request)
      (fun _ s => AnsweredPut uploadId request s) (fun _ _ => True) s := by
  unfold putArtifactChunk
  rw [htarget]
  refine chunk_check_bind (fun _ => trivial) fun given hgiven => ?_
  obtain rfl := Except.ok.inj hgiven
  refine chunk_check_bind (fun _ => trivial) fun i hi => ?_
  refine chunk_check_bind (fun _ => trivial) fun k hk => ?_
  refine chunk_check_bind (fun _ => trivial) fun _ _ => ?_
  refine SafeE.bind (SafeE.lift (chunk_acquire _) hinv) hinv fun _ s₁ hinv₁ _ hholds => ?_
  refine SafeE.bind (chunk_requireActiveUpload hinv₁ hholds) hinv₁
    fun upload s₂ hinv₂ _ hupload => ?_
  obtain ⟨hid, hlocked⟩ := hupload
  refine SafeE.guard (fun _ => trivial) fun _ => ?_
  refine SafeE.bind (chunk_query (Q := fun (artifact : UploadArtifactRow) s =>
    artifact.artifactIndex = (i : ℤ) ∧ Locked uploadId t (OfLayout uploadId upload artifact) s)
    (Locked.stable fun _ _ _ _ _ _ hkeeps hx => hkeeps.chunkSize.trans hx) hlocked
    fun s' artifact _ hp h => ?_) hinv₂ fun artifact s₃ hinv₃ _ hartifact => ?_
  · have hfound : s'.db.uploadArtifact uploadId i = some artifact := okOr_eq_ok.mp h
    unfold Db.uploadArtifact at hfound
    have hmem := List.mem_of_find?_eq_some hfound
    have hkey := List.find?_some hfound
    obtain ⟨hof, hindex⟩ := of_decide_eq_true hkey
    refine ⟨hindex, hp.map rfl rfl fun hx => ⟨hx, ?_⟩⟩
    exact (List.mem_insertionSort _).mpr (List.mem_filter.mpr ⟨hmem, decide_eq_true hof⟩)
  · obtain ⟨hindex, hlayout⟩ := hartifact
    have hi' : parseUnsigned 32 request.artifactIndex = some i := okOr_eq_ok.mp hi
    have hk' : parseUnsigned 64 request.chunkIndex = some k := okOr_eq_ok.mp hk
    have hrest (expected : ChunkRequest)
        (hdeclares : UploadEnded uploadId s₃ ∨ request.Declares uploadId i expected s₃) :
        (chunkDiscipline c uploadId).SafeE t
          (answerPut c uploadId upload artifact i k request.body expected)
          (fun _ s => AnsweredPut uploadId request s) (fun _ _ => True) s₃ := by
      refine ((chunk_answerPut hinv₃ hid hindex hlayout).reach hinv₃).mono hinv₃
        (fun _ s₄ _ hdone => ?_) fun _ _ _ _ => trivial
      rcases (declares_kept i expected).of_reach hdone.2 hdeclares with hended | hdeclares
      · exact Or.inl hended
      · exact Or.inr ⟨i, k, expected, hi', hk', hdeclares, hdone.1⟩
    refine chunk_check_bind (fun _ => trivial) fun headers hheaders => ?_
    cases headers with
    | some expected => exact hrest expected (Or.inr (Or.inl hheaders))
    | none =>
      refine chunk_check_bind (fun _ => trivial) fun expected hlegacy => hrest expected ?_
      refine hlayout.2.imp_right fun hx => Or.inr ⟨hheaders, artifact, hx.2, hindex, ?_⟩
      unfold legacySingleChunkRequest at hlegacy
      simp only [throw_bind, ite_throw_eq_ok, bind_eq_ok, pure_eq_ok] at hlegacy
      obtain ⟨-, length, hlength, rfl⟩ := hlegacy
      unfold unsignedColumn at hlength
      split_ifs at hlength
      rw [pure_eq_ok.mp hlength]

end Put

/-! ## §3 — Runs. -/

/-- What may go on while chunks are put: requests for the upload, and any other step that keeps its
chunks or ends it. -/
inductive ChunkCall (c : Crates) (uploadId : String) where
  | put (request : PutChunkRequest)
      (htarget : parseUuidText request.uploadId "upload identifier is not a UUID" = .ok uploadId)
  | other (step : TaskId → Env → Shared → Shared)
      (hstep : ∀ t e s, ChunkInv c uploadId s → ChunkStep c uploadId t s (step t e s))

def ChunkCall.program {c : Crates} {uploadId : String} :
    ChunkCall c uploadId → Program (Except ApiError Unit)
  | .put request _ => (putArtifactChunk c request).run
  | .other step _ => Prog.atomic .query fun t e s => (.ok (), step t e s)

/-- Requests may be dropped anywhere, and actions of theirs left behind, but not the removal of the
final file of a chunk. -/
def Undetached {c : Crates} {uploadId : String}
    (p : Pool Label Env Shared (ChunkCall c uploadId) (Except ApiError Unit)) :
    Event Env (ChunkCall c uploadId) → Prop
  | .detach t => ∀ call label enabled run next,
    p.tasks t = some (call, .act label enabled run next) → label ≠ .removeChunkFile
  | _ => True

abbrev ChunkPool (c : Crates) (uploadId : String) :=
  Pool Label Env Shared (ChunkCall c uploadId) (Except ApiError Unit)

section Runs

variable {c : Crates} {uploadId : String} {s₀ : Shared} {p p' : ChunkPool c uploadId}

/-- What holds where a call returns. -/
def ChunkCall.Returned : ChunkCall c uploadId → Except ApiError Unit → Shared → Prop
  | .put request _, .ok (), s => AnsweredPut uploadId request s
  | _, _, _ => True

theorem ChunkCall.returned_kept (call : ChunkCall c uploadId) (result : Except ApiError Unit)
    (t : TaskId) : (chunkDiscipline c uploadId).Stable t (call.Returned result) := by
  cases call with
  | put request htarget =>
    cases result with
    | ok _ => exact answeredPut_kept.stable t
    | error _ => exact Stable.true t
  | other step hstep => cases result <;> exact Stable.true t

theorem ChunkCall.safe (call : ChunkCall c uploadId) (t : TaskId) (s : Shared)
    (hinv : ChunkInv c uploadId s) :
    (chunkDiscipline c uploadId).Safe t call.program call.Returned s := by
  cases call with
  | put request htarget =>
    refine Safe.mono (chunk_putArtifactChunk hinv htarget) (fun result s' _ hr => ?_) hinv
    cases result with
    | ok _ => exact hr
    | error _ => trivial
  | other step hstep =>
    refine Safe.atomic (Stable.true t) trivial (fun s' e hinv' _ _ _ =>
      ⟨hstep t e s' hinv', trivial⟩)
      fun hdet => absurd hdet Bool.false_ne_true

/-- An accepted chunk and its file stay as they are as long as the upload does. -/
theorem row_file_kept (row : UploadChunkRow) (fs : FileStore) :
    (chunkDiscipline c uploadId).Persistent fun s => UploadEnded uploadId s ∨
      row ∈ (s.db.rowsOf uploadId).chunks ∧ ∀ (i k : ℕ) bytes, row.key = ((i : ℤ), (k : ℤ)) →
        fs.lookup (.artifactChunk uploadId i k) = some (.file bytes) →
          s.fs.lookup (.artifactChunk uploadId i k) = some (.file bytes) := by
  intro t s s' hinv hstep h
  rcases h with hended | ⟨hrow, hfiles⟩
  · exact Or.inl (hstep.ended hended)
  · rcases rows_kept t s s' hinv hstep (Or.inr hrow) with hended | hrow'
    · exact Or.inl hended
    · refine hstep.active.imp_right fun hkeeps => ⟨hrow', fun i k bytes hkey hfile => ?_⟩
      rcases hkeeps.files i k _ (hfiles i k bytes hkey hfile) with hkept | ⟨-, hnone⟩
      · exact hkept
      · exact absurd hkey (hnone row hrow)

theorem meets_undetached {p : ChunkPool c uploadId} {ev : Event Env (ChunkCall c uploadId)}
    (h : Undetached p ev) :
    p.Meets (chunkDiscipline c uploadId) (fun _ _ => True) ev := by
  cases ev with
  | detach t => exact fun call label enabled run next htask =>
      ⟨h call label enabled run next htask, trivial⟩
  | act t e => exact fun _ _ _ _ _ _ _ _ => trivial
  | drop t => exact fun _ => trivial
  | late i e => exact fun _ _ _ => trivial
  | _ => trivial

/-- Nothing is asked of what the calls have returned but where they return. -/
theorem ChunkCall.safe_unit (call : ChunkCall c uploadId) (t : TaskId) (s : Shared)
    (hinv : ChunkInv c uploadId s) :
    (chunkDiscipline c uploadId).Safe t call.program (fun _ s => True ∧
      (chunkDiscipline c uploadId).exitOk t s) s :=
  (call.safe t s hinv).mono (fun _ _ _ _ => ⟨trivial, trivial⟩) hinv

/-- **`acceptedChunks`** — in every state that is reached while requests for an upload come in any
order, fail, or are dropped: each accepted chunk has the length of the layout and a file with
exactly its bytes, as long as the upload is in being; from then on it and its file stay as they are;
and a request answered without an error has a row for its chunk, of the length and the digest it
declares. -/
theorem acceptedChunks (hstart : ChunkInv c uploadId s₀)
    (hrun : Pool.Run system ChunkCall.program Undetached (Pool.init s₀) p)
    (hlater : Pool.Run system ChunkCall.program Undetached p p') :
    (UploadEnded uploadId p.state ∨
      ∀ row ∈ (p.state.db.rowsOf uploadId).chunks, RowBacked c uploadId p.state row) ∧
    (UploadEnded uploadId p'.state ∨ ∀ row ∈ (p.state.db.rowsOf uploadId).chunks,
      row ∈ (p'.state.db.rowsOf uploadId).chunks ∧
        ∀ (i k : ℕ) bytes, row.key = ((i : ℤ), (k : ℤ)) →
          p.state.fs.lookup (.artifactChunk uploadId i k) = some (.file bytes) →
            p'.state.fs.lookup (.artifactChunk uploadId i k) = some (.file bytes)) ∧
    ∀ t request htarget, p.tasks t = some (.put request htarget, .done (.ok ())) →
      AnsweredPut uploadId request p.state ∧ AnsweredPut uploadId request p'.state := by
  have hgood := Pool.Good.run (fun call t s _ hinv => call.safe_unit t s hinv)
    (fun _ _ => meets_undetached)
    (Pool.Good.init (chunkDiscipline c uploadId) _ hstart) hrun
  have hreach : (chunkDiscipline c uploadId).Reach p.state p'.state :=
    Pool.Good.run_steps (fun call t s _ hinv => call.safe_unit t s hinv)
      (fun _ _ => meets_undetached) hgood hlater
  refine ⟨hgood.inv.backed, ?_, fun t request htarget htask => ?_⟩
  · rw [or_iff_not_imp_left]
    intro hended row hrow
    have hkept := (row_file_kept row p.state.fs).of_reach hreach
      (Or.inr ⟨hrow, fun _ _ _ _ hfile => hfile⟩)
    exact hkept.resolve_left hended
  · have hcarries : p.Carries (chunkDiscipline c uploadId) ChunkCall.Returned :=
      Pool.Carries.run (fun call r t => call.returned_kept r t)
        (fun call t s _ hinv => call.safe_unit t s hinv)
        (fun call t s _ hinv => call.safe t s hinv) (fun _ _ => meets_undetached)
        (Pool.Good.init (chunkDiscipline c uploadId) _ hstart)
        (fun _ _ _ h => by simp [Pool.init] at h) hrun
    have hanswered : AnsweredPut uploadId request p.state := hcarries t _ _ htask
    exact ⟨hanswered, answeredPut_kept.of_reach hreach hanswered⟩

end Runs

/-! ### A chunk, and a retry with another body. -/

/-- The archive once the upload is created. -/
def acceptedStart : Shared := { statusArchive with db := statusDb }

theorem acceptedStart_inv : ChunkInv statusCrates statusNew.uploadId acceptedStart := by
  have hnone : (acceptedStart.db.rowsOf statusNew.uploadId).chunks = [] := by decide +kernel
  refine ⟨UniqueOn.nil, UniqueOn.nil, Or.inr fun row hrow => ?_⟩
  rw [hnone] at hrow
  exact absurd hrow List.not_mem_nil

/-- A request with the headers of the first one and two other bytes. -/
def retryRequest : PutChunkRequest := { statusRequest with body := [.data [0, 0]] }

/-- Some actions of a task, under the sample identifiers from `first` on. -/
def putActions (t first actions : ℕ) :
    List (Event Env (ChunkCall statusCrates statusNew.uploadId)) :=
  (List.range actions).map fun k => .act t (sampleEnv 0 (first + k))

/-- A request, and its first actions. -/
def putEvents (t first actions : ℕ) (request : PutChunkRequest)
    (htarget : parseUuidText request.uploadId "upload identifier is not a UUID" =
      .ok statusNew.uploadId) : List (Event Env (ChunkCall statusCrates statusNew.uploadId)) :=
  .spawn (.put request htarget) :: putActions t first actions

/-- Those events on that archive. -/
def acceptedReplay (events : List (Event Env (ChunkCall statusCrates statusNew.uploadId))) :
    Option (ChunkPool statusCrates statusNew.uploadId) :=
  Pool.replay system ChunkCall.program freshEnv events (Pool.init acceptedStart)

/-- The event is one of a run without detached requests, on sample identifiers. -/
def Played (ev : Event Env (ChunkCall statusCrates statusNew.uploadId)) : Prop :=
  (∀ e ∈ ev.input?, ∀ s, freshEnv e s = true → system.envOk e s) ∧ ∀ p, Undetached p ev

theorem played_drop (t : ℕ) : Played (.drop t) :=
  ⟨fun e he => by simp [Event.input?] at he, fun _ => trivial⟩

theorem played_finish (t : ℕ) : Played (.finish t) :=
  ⟨fun e he => by simp [Event.input?] at he, fun _ => trivial⟩

theorem played_putActions {t first actions : ℕ} (hids : first + actions ≤ 256) :
    ∀ ev ∈ putActions t first actions, Played ev := by
  intro ev hev
  obtain ⟨k, hk, rfl⟩ := List.mem_map.mp hev
  refine ⟨fun e he s hfresh => ?_, fun _ => trivial⟩
  obtain rfl : sampleEnv 0 (first + k) = e := Option.some.inj he
  have hlt := List.mem_range.mp hk
  exact ⟨isUuidV7_sampleUuid (by omega), of_decide_eq_true hfresh⟩

theorem played_putEvents {t first actions : ℕ} {request : PutChunkRequest} {htarget}
    (hids : first + actions ≤ 256) :
    ∀ ev ∈ putEvents t first actions request htarget, Played ev := by
  intro ev hev
  rcases List.mem_cons.mp hev with rfl | hev
  · exact ⟨fun e he => by simp [Event.input?] at he, fun _ => trivial⟩
  · exact played_putActions hids ev hev

/-- Events that can be replayed are a run. -/
theorem run_of_played {events : List (Event Env (ChunkCall statusCrates statusNew.uploadId))}
    (hevents : ∀ ev ∈ events, Played ev) {p p' : ChunkPool statusCrates statusNew.uploadId}
    (h : p.replay system ChunkCall.program freshEnv events = some p') :
    Pool.Run system ChunkCall.program Undetached p p' :=
  Pool.Run.of_replay (fun ev hev => (hevents ev hev).1) (fun ev hev => (hevents ev hev).2) h

/-- What task `t` was asked for, if it was a request that has been answered well. -/
def answeredPut? (t : TaskId) (p : ChunkPool statusCrates statusNew.uploadId) :
    Option PutChunkRequest :=
  match p.tasks t with
  | some (.put request _, .done (.ok ())) => some request
  | _ => none

theorem answeredPut?_some {t : TaskId} {p : ChunkPool statusCrates statusNew.uploadId}
    {request : PutChunkRequest} (h : answeredPut? t p = some request) :
    ∃ htarget, p.tasks t = some (.put request htarget, .done (.ok ())) := by
  unfold answeredPut? at h
  split at h
  · next htask =>
    obtain rfl := Option.some.inj h
    exact ⟨_, htask⟩
  · simp at h

/-- A request for the chunk waits while another is cut off in the middle of the same chunk, and is
answered then. -/
def waitedEvents : List (Event Env (ChunkCall statusCrates statusNew.uploadId)) :=
  putEvents 0 20 13 statusRequest rfl ++ (putEvents 1 40 0 statusRequest rfl ++
    .drop 0 :: putActions 1 40 18)

/-- It ends, and the chunk is put again with another body. -/
def retriedPut : List (Event Env (ChunkCall statusCrates statusNew.uploadId)) :=
  .finish 1 :: putEvents 2 60 6 retryRequest rfl

theorem played_waitedEvents : ∀ ev ∈ waitedEvents, Played ev := by
  intro ev hev
  rcases List.mem_append.mp hev with hev | hev
  · exact played_putEvents (by norm_num) ev hev
  rcases List.mem_append.mp hev with hev | hev
  · exact played_putEvents (by norm_num) ev hev
  rcases List.mem_cons.mp hev with rfl | hev
  · exact played_drop 0
  · exact played_putActions (by norm_num) ev hev

theorem played_retriedPut : ∀ ev ∈ retriedPut, Played ev := by
  intro ev hev
  rcases List.mem_cons.mp hev with rfl | hev
  · exact played_finish 1
  · exact played_putEvents (by norm_num) ev hev

/-- What a replay shows: the chunk of `t` was answered well and has its row in an upload that goes
on. -/
def acceptedPut (t : TaskId) (p : ChunkPool statusCrates statusNew.uploadId) : Bool :=
  (answeredPut? t p).isSome && (!(p.state.db.rowsOf statusNew.uploadId).chunks.isEmpty &&
    (p.state.db.upload statusNew.uploadId).any fun u => decide (u.status ≠ .completed))

theorem acceptedPut_iff {t : TaskId} {p : ChunkPool statusCrates statusNew.uploadId} :
    acceptedPut t p = true ↔ (∃ request, answeredPut? t p = some request) ∧
      (p.state.db.rowsOf statusNew.uploadId).chunks ≠ [] ∧
      ∃ u, p.state.db.upload statusNew.uploadId = some u ∧ u.status ≠ .completed := by
  simp [acceptedPut, Option.isSome_iff_exists, Option.any_eq_true]

/-- The chunk of a request that had to wait for one that was dropped, and another body put after it:
row and file stay. -/
theorem acceptedChunks_sample : ∃ (p p' : ChunkPool statusCrates statusNew.uploadId) (request : _),
    answeredPut? 1 p = some request ∧ (p.state.db.rowsOf statusNew.uploadId).chunks ≠ [] ∧
      ¬ UploadEnded statusNew.uploadId p'.state ∧
      (∀ row ∈ (p.state.db.rowsOf statusNew.uploadId).chunks,
        RowBacked statusCrates statusNew.uploadId p.state row ∧
          row ∈ (p'.state.db.rowsOf statusNew.uploadId).chunks) ∧
      AnsweredPut statusNew.uploadId request p.state ∧
      AnsweredPut statusNew.uploadId request p'.state := by
  have hput : (acceptedReplay waitedEvents).any (fun p => acceptedPut 1 p &&
      (p.replay system ChunkCall.program freshEnv retriedPut).any (acceptedPut 2)) = true := by
    decide +kernel
  obtain ⟨p, hreplay, hok⟩ := (Option.any_eq_true _ _).mp hput
  obtain ⟨hfirst, hagain⟩ := Bool.and_eq_true_iff.mp hok
  obtain ⟨p', hreplay', hsecond⟩ := (Option.any_eq_true _ _).mp hagain
  obtain ⟨⟨request, hrequest⟩, hrows, u, hu, hactive⟩ := acceptedPut_iff.mp hfirst
  obtain ⟨-, -, u', hu', hactive'⟩ := acceptedPut_iff.mp hsecond
  obtain ⟨htarget, htask⟩ := answeredPut?_some hrequest
  obtain ⟨hbacked, hkept, hanswered⟩ := acceptedChunks acceptedStart_inv
    (run_of_played played_waitedEvents hreplay) (run_of_played played_retriedPut hreplay')
  have hended : ¬ UploadEnded statusNew.uploadId p.state := fun hended => hactive (hended u hu)
  have hended' : ¬ UploadEnded statusNew.uploadId p'.state :=
    fun hended => hactive' (hended u' hu')
  refine ⟨p, p', request, hrequest, hrows, hended', fun row hrow => ⟨?_, ?_⟩,
    hanswered 1 request htarget htask⟩
  · exact hbacked.resolve_left hended row hrow
  · exact (hkept.resolve_left hended' row hrow).1

/-- Put again with the same headers and two other bytes, the chunk is answered well, and its row
does not hold these bytes. -/
theorem acceptedChunks_retry : ∃ (p : ChunkPool statusCrates statusNew.uploadId) (request : _),
    Pool.Run system ChunkCall.program Undetached (Pool.init acceptedStart) p ∧
      (∃ htarget, p.tasks 1 = some (.put request htarget, .done (.ok ()))) ∧
      ¬ UploadEnded statusNew.uploadId p.state ∧
      ∀ row ∈ (p.state.db.rowsOf statusNew.uploadId).chunks,
        row.sha256 ≠ statusCrates.sha256Hex (bodyBytes request.body) := by
  have hput : (acceptedReplay (putEvents 0 20 18 statusRequest rfl ++ .finish 0 ::
      putEvents 1 40 6 retryRequest rfl)).any (fun p => (answeredPut? 1 p).any fun request =>
        ((p.state.db.upload statusNew.uploadId).any fun u => decide (u.status ≠ .completed)) &&
        (p.state.db.rowsOf statusNew.uploadId).chunks.all fun row =>
          decide (row.sha256 ≠ statusCrates.sha256Hex (bodyBytes request.body))) = true := by
    decide +kernel
  obtain ⟨p, hreplay, hok⟩ := (Option.any_eq_true _ _).mp hput
  obtain ⟨request, hrequest, hok⟩ := (Option.any_eq_true _ _).mp hok
  obtain ⟨hactive, hrows⟩ := Bool.and_eq_true_iff.mp hok
  obtain ⟨upload, hupload, hstatus⟩ := (Option.any_eq_true _ _).mp hactive
  have hevents : ∀ ev ∈ putEvents 0 20 18 statusRequest rfl ++
      .finish 0 :: putEvents 1 40 6 retryRequest rfl, Played ev := by
    intro ev hev
    rcases List.mem_append.mp hev with hev | hev
    · exact played_putEvents (by norm_num) ev hev
    · rcases List.mem_cons.mp hev with rfl | hev
      · exact played_finish 0
      · exact played_putEvents (by norm_num) ev hev
  refine ⟨p, request, run_of_played hevents hreplay, answeredPut?_some hrequest, fun hended => ?_,
    fun row hrow => of_decide_eq_true (List.all_eq_true.mp hrows row hrow)⟩
  exact of_decide_eq_true hstatus (hended upload hupload)

end Patwari
