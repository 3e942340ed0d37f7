/-
# Patwari.Service — the state the requests share, and the atomic steps they take.

A request is a program of `Patwari.Lib.Prog` over `Shared`: the committed database, the data
directory, the held lock stripes and the one write transaction that may be open across steps. Its
actions are the source's await points: a clock reading, a fresh identifier, a lock, a read of the
database, a whole write transaction, one file operation. Any of them may be made to fail by the
environment, and a failing action has no effect.

A dropped request gives up its locks and its open transaction at once. A file operation it had
already handed to the blocking threads still happens later; a database statement does not, since a
transaction whose handle is dropped is rolled back.
-/
import Patwari.Database
import Patwari.Storage
import Patwari.Lib.Prog

namespace Patwari

open Lib (Prog TaskId System)

/-! ## §1 — Configuration and locks. -/

/-- `std::time::Duration`. -/
structure Duration where
  secs : ℕ
  nanos : ℕ
  nanos_lt : nanos < 1000000000

namespace Duration

def fromSecs (secs : ℕ) : Duration := ⟨secs, 0, by norm_num⟩

def fromMins (mins : ℕ) : Duration := fromSecs (60 * mins)

def fromHours (hours : ℕ) : Duration := fromSecs (3600 * hours)

def asNanos (d : Duration) : ℕ := 1000000000 * d.secs + d.nanos

def isZero (d : Duration) : Bool := d.secs = 0 ∧ d.nanos = 0

instance : LT Duration := ⟨fun a b => a.asNanos < b.asNanos⟩

instance : DecidableLT Duration := fun a b => inferInstanceAs (Decidable (a.asNanos < b.asNanos))

theorem lt_iff {a b : Duration} : a < b ↔ a.asNanos < b.asNanos := Iff.rfl

@[simp] theorem asNanos_fromSecs (secs : ℕ) : (fromSecs secs).asNanos = 1000000000 * secs := rfl

end Duration

/-- The configured values a request reads. -/
structure Config where
  archiveInstanceId : String
  maxRequestBodyBytes : ℕ
  chunkSizeBytes : ℕ
  maxArtifactStoredBytes : ℕ
  maxArtifactOriginalBytes : ℕ
  maxArtifactCount : ℕ
  maxSnapshotStoredBytes : ℕ
  maxSnapshotOriginalBytes : ℕ
  uploadExpiry : Duration
  adminDeletionEnabled : Bool
  blobGcGrace : Duration

def Config.manifestLimits (cfg : Config) : ManifestLimits :=
  ⟨cfg.maxArtifactCount, cfg.maxArtifactStoredBytes, cfg.maxArtifactOriginalBytes,
    cfg.maxSnapshotStoredBytes, cfg.maxSnapshotOriginalBytes⟩

inductive LockFamily where
  | upload
  | snapshot
  | blob
  deriving DecidableEq

/-- One striped lock. -/
structure Lock where
  family : LockFamily
  stripe : ℕ
  deriving DecidableEq

/-- `stable_lock_stripe`: FNV-1a onto 256 stripes. -/
def stableLockStripe (bytes : Bytes) : ℕ :=
  (bytes.foldl (fun hash byte => (hash ^^^ byte.toUInt64) * 0x100000001b3)
    (0xcbf29ce484222325 : UInt64)).toNat % 256

def uploadLock (uploadId : String) : Lock := ⟨.upload, stableLockStripe (utf8 uploadId)⟩

def snapshotLock (sessionId fingerprintSha256 : String) : Lock :=
  ⟨.snapshot, stableLockStripe (utf8 sessionId ++ 0 :: utf8 fingerprintSha256)⟩

def blobLockStripe (storedSha256 : String) : ℕ :=
  stableLockStripe (utf8 ownerNamespace ++ 0 :: utf8 storedSha256)

def blobLock (storedSha256 : String) : Lock := ⟨.blob, blobLockStripe storedSha256⟩

/-- `blob_locks_for_digests`: every stripe of the digests once, in ascending order. -/
def blobLocksForDigests (digests : List String) : List Lock :=
  ((digests.map blobLockStripe).insertionSort (· ≤ ·)).dedup.map (Lock.mk .blob)

theorem blobLock_mem_blobLocksForDigests {digests : List String} {d : String} (h : d ∈ digests) :
    blobLock d ∈ blobLocksForDigests digests := by
  unfold blobLocksForDigests
  refine List.mem_map_of_mem (List.mem_dedup.mpr ?_)
  exact (List.mem_insertionSort _).mpr (List.mem_map_of_mem h)

/-! ## §2 — Shared state and environment. -/

/-- How an operation of the database or the data directory fails. -/
inductive Fault where
  | failed
  /-- SQLite reports that another connection holds the write lock. -/
  | contended
  deriving DecidableEq

/-- What the environment supplies to one action. -/
structure Env where
  /-- The clock, in nanoseconds since the Unix epoch. -/
  now : ℤ
  uuid : String
  fault : Option Fault

/-- A chunk body whose row was committed. -/
structure AcceptedChunk where
  uploadId : String
  artifactIndex : ℤ
  chunkIndex : ℤ
  body : Bytes

structure Shared where
  db : Db
  fs : FileStore
  /-- Held locks with their holders. -/
  locks : List (Lock × TaskId)
  /-- The task whose write transaction is open between two of its actions, and what it will
  commit. -/
  writer : Option (TaskId × Db)
  /-- Every identifier generated so far, with the task it was generated for. No action reads it. -/
  issued : List (String × TaskId)
  /-- Every identifier that has become the key of a row. No action reads it. -/
  used : List String
  /-- Every chunk body accepted so far. No action reads it. -/
  accepted : List AcceptedChunk
  /-- The snapshots between the two reads of a reconciliation, with its task. No action reads it. -/
  reconciling : List (String × TaskId)

/-- An empty archive with nothing in flight. -/
def Shared.init : Shared := ⟨Db.empty, FileStore.empty, [], none, [], [], [], []⟩

/-- The write transactions of the service. -/
inductive Write where
  | registerClient
  | persistUpload
  | terminalizeUpload
  | persistChunkRecord
  | refreshUploadStatus
  | finalizeUpload
  | recordCompletedUpload
  | deleteSnapshot
  | clearBlobCandidate
  | recover
  | recordIntegrity
  deriving DecidableEq

/-- What kind of action comes next. -/
inductive Label where
  | clock
  | freshId
  | acquire
  | release
  | query
  | write (w : Write)
  /-- Garbage collection's transaction up to its uncommitted delete. -/
  | beginCollect
  | commitCollect
  | file
  /-- The hard link of a canonical blob file. -/
  | linkBlobFile
  /-- The removal of a canonical blob file. -/
  | removeBlobFile
  /-- The removal of the final file of a chunk. -/
  | removeChunkFile
  deriving DecidableEq

/-- File operations run on threads that outlive a dropped request. -/
def Label.detachable : Label → Bool
  | .file | .linkBlobFile | .removeBlobFile | .removeChunkFile => true
  | _ => false

/-- What a task gives up when it ends: its locks, its open transaction and its reconciliation. -/
def Shared.cleanup (t : TaskId) (s : Shared) : Shared :=
  { s with
    locks := s.locks.filter fun h => decide (h.2 ≠ t)
    writer := s.writer.filter fun w => decide (w.1 ≠ t)
    reconciling := s.reconciling.filter fun r => decide (r.2 ≠ t) }

/-- Identifiers are generated once. -/
def system : System Label Env Shared where
  envOk e s := IsUuidV7 e.uuid ∧ e.uuid ∉ s.issued.map Prod.fst
  detachable := Label.detachable
  cleanup := Shared.cleanup

abbrev Program (α : Type) := Prog Label Env Shared α

/-- A program that may fail with an error of type `κ`. -/
abbrev Handler (κ α : Type) := ExceptT κ (Prog Label Env Shared) α

inductive MaintenanceError where
  | clock
  | operation
  deriving DecidableEq

/-! ## §3 — Actions. -/

/-- `OffsetDateTime::now_utc()`. -/
def nowUtc : Program OffsetDateTime := Prog.atomic .clock fun _ e s => (.utc e.now, s)

/-- `Uuid::now_v7().to_string()`. -/
def freshId : Program String :=
  Prog.atomic .freshId fun t e s => (e.uuid, { s with issued := (e.uuid, t) :: s.issued })

def freshIds : ℕ → Program (List String)
  | 0 => pure []
  | n + 1 => do
    let id ← freshId
    let ids ← freshIds n
    pure (id :: ids)

def Shared.free (s : Shared) (l : Lock) : Bool := s.locks.all fun h => decide (h.1 ≠ l)

/-- `lock().await`. -/
def acquire (l : Lock) : Program Unit :=
  Prog.await .acquire (fun _ s => s.free l) fun t s => { s with locks := (l, t) :: s.locks }

/-- Locks taken one after another. -/
def acquireAll : List Lock → Program Unit
  | [] => pure ()
  | l :: ls => do
    acquire l
    acquireAll ls

/-- Guards dropped before the request ends. -/
def release (ls : List Lock) : Program Unit :=
  Prog.atomic .release fun t _ s =>
    ((), { s with locks := s.locks.filter fun h => !(decide (h.2 = t) && decide (h.1 ∈ ls)) })

variable {κ α : Type}

/-- `?` on a computation without actions. -/
def check (x : Except κ α) : Handler κ α := ExceptT.mk (pure x)

variable {κ' : Type}

/-- The outcome of a program as a value, for a caller that looks at it before it goes on or
fails. -/
def attempt (p : Handler κ α) : Handler κ' (Except κ α) := ExceptT.mk (do pure (.ok (← p.run)))

/-- `map_err(f)`. -/
def mapErr (f : κ → κ') (p : Handler κ α) : Handler κ' α :=
  ExceptT.mk (do pure ((← p.run).mapError f))

/-- One read of the committed database. -/
def query (onFault : κ) (f : Db → Except κ α) : Handler κ α :=
  ExceptT.mk <| Prog.atomic .query fun _ e s =>
    match e.fault with
    | some _ => (.error onFault, s)
    | none => (f s.db, s)

/-- One whole write transaction: `f` gives what it returns and the database it commits, or the
error it rolls back with. While another transaction is open it finds the database busy. -/
def transaction (w : Write) (onFault : Fault → κ) (ids : List String)
    (accepted : List AcceptedChunk) (f : Db → Except κ (α × Db)) : Handler κ α :=
  ExceptT.mk <| Prog.atomic (.write w) fun _ e s =>
    match e.fault with
    | some fault => (.error (onFault fault), s)
    | none =>
      if s.writer.isSome then (.error (onFault .contended), s)
      else
        match f s.db with
        | .error err => (.error err, s)
        | .ok (a, db) =>
          (.ok a, { s with db := db, used := ids ++ s.used, accepted := accepted ++ s.accepted })

/-- One operation on the data directory, under a label. -/
def fileStep (label : Label) (f : FileStore → Except IoError FileStore) :
    Program (Except IoError Unit) :=
  Prog.atomic label fun _ e s =>
    match e.fault with
    | some _ => (.error .other, s)
    | none =>
      match f s.fs with
      | .error err => (.error err, s)
      | .ok fs => (.ok (), { s with fs := fs })

/-- One operation on the data directory. -/
def fileOp (f : FileStore → Except IoError FileStore) : Program (Except IoError Unit) :=
  fileStep .file f

/-- One reading pass over the data directory. -/
def fileRead (onFault : κ) (f : FileStore → Except κ α) : Handler κ α :=
  ExceptT.mk <| Prog.atomic .file fun _ e s =>
    match e.fault with
    | some _ => (.error onFault, s)
    | none => (f s.fs, s)

/-- `hard_link(source, &blob_path(..))`. -/
def linkBlobFile (source : FilePath) (storedSha256 : String) : Program (Except IoError Unit) :=
  fileStep .linkBlobFile fun fs => fs.hardLink source (blobPath storedSha256)

/-- `StorageLayout::remove_file(&blob_path(..))`. -/
def removeBlobFile (storedSha256 : String) : Program (Except IoError Unit) :=
  fileStep .removeBlobFile fun fs => fs.removeFile (blobPath storedSha256)

/-- `map_err(|_| e)?` on an I/O result. -/
def orFail (e : κ) : Except IoError α → Handler κ α
  | .ok a => pure a
  | .error _ => throw e

/-- `ApiError::database()` whatever the database reports. -/
def databaseError : Fault → ApiError := fun _ => .database

/-- `classify_database_error`. -/
def classifyDatabaseError : Fault → ApiError
  | .failed => .database
  | .contended => .busy

/-! ## §4 — Time. -/

/-- `expiration_time`, which adds the whole seconds of the duration. -/
def expirationTime (now : OffsetDateTime) (duration : Duration) : OffsetDateTime :=
  ⟨now.nanos + 1000000000 * duration.secs, now.offsetSeconds⟩

/-- `format_time(..)` with the error to report. -/
def formatTime (c : Crates) (e : κ) (t : OffsetDateTime) : Except κ String :=
  okOr (c.formatRfc3339 t) e

/-- `now_rfc3339()`. -/
def nowRfc3339 (c : Crates) : Handler ApiError String := do
  let now ← nowUtc
  check (formatTime c .internal now)

end Patwari
