/-
# Patwari.Server — every request the server runs, as one program each.

The routes of the HTTP API that the development covers and the maintenance calls that may run
beside them, each with its arguments, and the program that serves it. A pool of these programs over
one shared state is a running server; `Patwari.Lib.Prog` says what may happen to it. The shared
maintenance permit every one of them holds excludes only offline tools, so it is left out.
-/
import Patwari.Recovery
import Patwari.Integrity

namespace Patwari

open Lib (Prog Pool Event TaskId)

/-! ## §1 — Requests. -/

inductive Request where
  | registerClient (clientId : String) (request : RegisterClientRequest)
  | createUpload (request : CreateUploadRequest)
  | getUploadStatus (uploadId : String)
  | putArtifactChunk (request : PutChunkRequest)
  | abandonUpload (uploadId : String)
  | completeUpload (uploadId : String)
  | deleteSnapshot (request : DeleteSnapshotRequest)
  | getTombstone (snapshotId : String)
  | runBlobGc
  | listSnapshots (query : SnapshotListQuery)
  | listSessionSnapshots (sessionId : String) (limit : Option ℕ) (cursor : Option String)
  | listSessions (query : ListQuery)
  | downloadArtifact (artifactId : String)
  | getSnapshot (snapshotId : String)
  /-- `Service::expire_uploads` -/
  | expireUploads
  /-- `Service::collect_blob_garbage` -/
  | collectBlobGarbage
  /-- `Service::verify_integrity` -/
  | verifyIntegrity (fuel : ℕ)

inductive Response where
  | client (response : ClientResponse)
  | created (wasCreated : Bool) (response : UploadResponse)
  | upload (response : UploadResponse)
  | accepted
  | completion (response : CompletionResponse)
  | tombstone (response : TombstoneResponse)
  | blobGc (response : BlobGcResponse)
  | snapshots (page : PaginatedResponse SnapshotSummary)
  | sessions (page : PaginatedResponse SessionResponse)
  | download (response : DownloadResponse)
  | snapshot (response : SnapshotResponse)
  | expired (count : ℕ)
  | integrity (report : IntegrityReport)

inductive Failure where
  | api (error : ApiError)
  | maintenance (error : MaintenanceError)
  | integrity (error : IntegrityScanError)

/-- What a served request returns. -/
abbrev Outcome := Except Failure Response

/-! ## §2 — Serving. -/

/-- A handler as the program of a request. -/
def respond {κ α : Type} (failure : κ → Failure) (response : α → Response) (p : Handler κ α) :
    Program Outcome := do
  match ← p.run with
  | .ok a => pure (.ok (response a))
  | .error e => pure (.error (failure e))

variable (c : Crates) (cfg : Config) (sqlite : SqliteChecks)

def handle : Request → Program Outcome
  | .registerClient clientId request => respond .api .client (registerClient c clientId request)
  | .createUpload request =>
    respond .api (fun r => .created r.1 r.2) (createUpload c cfg request)
  | .getUploadStatus uploadId => respond .api .upload (getUploadStatus c uploadId)
  | .putArtifactChunk request => respond .api (fun _ => .accepted) (putArtifactChunk c request)
  | .abandonUpload uploadId => respond .api .upload (abandonUpload c uploadId)
  | .completeUpload uploadId => respond .api .completion (completeUpload c cfg uploadId)
  | .deleteSnapshot request => respond .api .tombstone (deleteSnapshot c cfg request)
  | .getTombstone snapshotId => respond .api .tombstone (getTombstone cfg snapshotId)
  | .runBlobGc => respond .api .blobGc (runBlobGc cfg)
  | .listSnapshots query => respond .api .snapshots (listSnapshots c query)
  | .listSessionSnapshots sessionId limit cursor =>
    respond .api .snapshots (listSessionSnapshots c sessionId limit cursor)
  | .listSessions query => respond .api .sessions (listSessions c query)
  | .downloadArtifact artifactId => respond .api .download (downloadArtifact c artifactId)
  | .getSnapshot snapshotId => respond .api .snapshot (getSnapshot c snapshotId)
  | .expireUploads => respond .api .expired do
    let now ← nowUtc
    expireUploadsAt c now
  | .collectBlobGarbage => respond .maintenance .blobGc do
    let now ← nowUtc
    collectOrphanedBlobsAt now
  | .verifyIntegrity fuel => respond .integrity .integrity (scanArchive c cfg sqlite fuel)

/-- A running server. -/
abbrev Server := Pool Label Env Shared Request Outcome

/-- The runs of a server whose events are all `allowed`. -/
def ServerRun (allowed : Server → Event Env Request → Prop) : Server → Server → Prop :=
  Pool.Run system (handle c cfg sqlite) allowed

/-- A server that has just been started on an empty archive. -/
def Server.init : Server := Pool.init Shared.init

/-! ## §3 — A sample archive. -/

/-- The text of a sample identifier: its number in two digits, and a version 7 UUID's rest. -/
def sampleUuidDigits (n : ℕ) : List Char :=
  Nat.digitChar (n / 16) :: Nat.digitChar (n % 16) :: "000000-0000-7000-8000-000000000000".toList

def sampleUuid (n : ℕ) : String := String.ofList (sampleUuidDigits n)

theorem isUuidV7_sampleUuid {n : ℕ} (h : n < 256) : IsUuidV7 (sampleUuid n) := by
  have hall : ∀ n < 256, (sampleUuidDigits n).length = 36 ∧
      parseHyphenated (sampleUuidDigits n) = some (sampleUuidDigits n) ∧
      Lib.Json.hexVal ((sampleUuidDigits n).getD 14 '0') = 7 := by decide +kernel
  obtain ⟨hlength, hparse, hversion⟩ := hall n h
  constructor
  · unfold parseUuid sampleUuid
    rw [Lib.chars_eq, String.toList_ofList]
    simp [hlength, hparse]
  · unfold uuidVersionNum sampleUuid
    rw [Lib.chars_eq, String.toList_ofList]
    exact hversion

def sampleConfig : Config where
  archiveInstanceId := sampleUuid 255
  maxRequestBodyBytes := 65536
  chunkSizeBytes := 4
  maxArtifactStoredBytes := 1024
  maxArtifactOriginalBytes := 1024
  maxArtifactCount := 8
  maxSnapshotStoredBytes := 4096
  maxSnapshotOriginalBytes := 4096
  uploadExpiry := .fromSecs 2
  adminDeletionEnabled := true
  blobGcGrace := .fromSecs 1

/-- SQLite finds nothing wrong. -/
def sampleSqlite : SqliteChecks := ⟨fun _ => true, fun _ => true⟩

/-- What the environment supplies `seconds` after the first sample time. -/
def sampleEnv (seconds k : ℕ) : Env :=
  ⟨1767225600000000000 + 1000000000 * seconds, sampleUuid k, none⟩

def sampleClientId : String := sampleUuid 254

/-- The real digest of no bytes. -/
def emptyDigest : String := "e3b0c44298fc1c149afbf4c8996fb92427ae41e4649b934ca495991b7852b855"

/-- A manifest of one empty artifact. -/
def sampleManifest : ManifestInput where
  schemaVersion := 1
  session := ⟨"agent", "session"⟩
  capture := ⟨"2026-01-01T00:00:00Z", none, none, Lib.StringMap.empty, none, none, none, none, 1,
    none⟩
  artifacts := some [⟨"notes.txt", none, 0, "sha256:" ++ emptyDigest, 0, "sha256:" ++ emptyDigest,
    .identity⟩]
  artifact := none

/-- The real digest of its canonical JSON. -/
def sampleManifestDigest : String :=
  "0ad1a68740deaa698d24480746c8875226773430d4bc74fca798aee2358f6bba"

/-- The real digest of its fingerprint document. -/
def sampleFingerprint : String :=
  "ca2b758fc1448b3f9f430a4ee61002489b1840a45bd6de2a0a9135c5aabab7b5"

def sampleManifestJson : Lib.Json :=
  .obj
    [("schema_version", .num 1),
      ("session", .obj [("source_agent", .str "agent"), ("source_session_id", .str "session")]),
      ("capture", .obj
        [("captured_at", .str "2026-01-01T00:00:00Z"), ("source_cursor", .null),
          ("source_state_hash", .null), ("source_metadata", .obj []), ("project", .null),
          ("repository", .null), ("branch", .null), ("source_agent_version", .null),
          ("artifact_set_version", .num 1), ("munshi_version", .null)]),
      ("artifacts", .arr [.obj
        [("logical_path", .str "notes.txt"), ("media_type", .null),
          ("original_size_bytes", .num 0), ("original_sha256", .str ("sha256:" ++ emptyDigest)),
          ("stored_size_bytes", .num 0), ("stored_sha256", .str ("sha256:" ++ emptyDigest)),
          ("compression", .str "identity")]])]

/-- The crates as they answer on an archive of sample manifests: no bytes, the manifest, its
fingerprint document and the empty object are told apart by one byte. -/
def sampleCrates : Crates :=
  { Crates.sample [] with
    sha256Hex := fun bytes =>
      match bytes with
      | [] => emptyDigest
      | _ :: _ :: byte :: _ => if byte = 118 then sampleFingerprint else sampleManifestDigest
      | _ => sampleManifestDigest
    jsonFromSlice := fun bytes =>
      match bytes with
      | _ :: byte :: _ => if byte = 125 then some (.obj []) else some sampleManifestJson
      | _ => none }

/-- A request served alone, in `actions` actions under the sample identifiers from `first` on. -/
def served (t : TaskId) (request : Request) (seconds first actions : ℕ) :
    List (Event Env Request) :=
  .spawn request ::
    ((List.range actions).map fun k => .act t (sampleEnv seconds (first + k))) ++ [.finish t]

/-- The identifier supplied has not been generated before. -/
def freshEnv (e : Env) (s : Shared) : Bool := decide (e.uuid ∉ s.issued.map Prod.fst)

/-- The environment supplies a sample identifier. -/
def Sampled (e : Env) : Prop := ∃ n < 256, e.uuid = sampleUuid n

theorem Sampled.envOk {e : Env} {s : Shared} (h : Sampled e) (hfresh : freshEnv e s = true) :
    system.envOk e s := by
  obtain ⟨n, hn, huuid⟩ := h
  exact ⟨huuid ▸ isUuidV7_sampleUuid hn, of_decide_eq_true hfresh⟩

theorem sampled_served {t : TaskId} {request : Request} {seconds first actions : ℕ}
    (h : first + actions ≤ 256) :
    ∀ ev ∈ served t request seconds first actions, ∀ e ∈ ev.input?, Sampled e := by
  intro ev hev e he
  simp only [served, List.cons_append, List.mem_cons, List.mem_append, List.mem_map,
    List.mem_range, List.not_mem_nil, or_false] at hev
  rcases hev with rfl | ⟨k, hk, rfl⟩ | rfl
  · simp [Event.input?] at he
  · obtain rfl : sampleEnv seconds (first + k) = e := by simpa [Event.input?] using he
    exact ⟨first + k, by omega, rfl⟩
  · simp [Event.input?] at he

/-- Events with sample identifiers that can be replayed are a run of the server. -/
theorem serverRun_of_replay {c : Crates} {cfg : Config} {sqlite : SqliteChecks}
    {events : List (Event Env Request)} (hevents : ∀ ev ∈ events, ∀ e ∈ ev.input?, Sampled e)
    {p p' : Server} (h : p.replay system (handle c cfg sqlite) freshEnv events = some p') :
    ServerRun c cfg sqlite (fun _ _ => True) p p' := by
  exact Pool.Run.of_replay (fun ev hev e he s hfresh => (hevents ev hev e he).envOk hfresh)
    (fun _ _ _ => trivial) h

end Patwari
