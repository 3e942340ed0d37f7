/-
# Patwari.Retrieval — the read side: lists, downloads and snapshots.

§1 is the normalization of list filters. §2 and §3 are `list_snapshots` and `list_sessions`: one
query each over a join of the committed database, cut to a page by the protocol of
`Patwari.Pagination`. §4 is `download_artifact`: the metadata row, its comparison with the
manifest, the reconciliation of the whole snapshot, the check of the file's bytes before the first
of them is sent, and the headers. §5 is `get_snapshot`, four reads one after the other.
-/
import Patwari.Completion

namespace Patwari

open Lib (Json Prog)

variable (c : Crates)

/-! ## §1 — Filters. -/

def maxContextFilterBytes : ℕ := 512
def maxSourceAgentFilterBytes : ℕ := 128

def normalizeOptionalFilter (value : Option String) (maximum : ℕ) (message : String) :
    Except ApiError (Option String) := do
  match value with
  | some text =>
    if maximum < text.utf8ByteSize ∨ text.toList.any isAsciiControl then throw (.invalid message)
  | none => pure ()
  pure value

def normalizeOptionalNonemptyFilter (value : Option String) (maximum : ℕ) (message : String) :
    Except ApiError (Option String) := do
  let value ← normalizeOptionalFilter value maximum message
  if value = some "" then throw (.invalid message)
  pure value

def activitySortKey (value message : String) : Except ApiError ℤ :=
  okOr (sortKeyFromRfc3339 c value) (.invalid message)

/-- `map(f).transpose()?`. -/
def transposed {α β : Type} (f : α → Except ApiError β) : Option α → Except ApiError (Option β)
  | none => pure none
  | some a => some <$> f a

def normalizeActivityRange (activityFrom activityTo : Option String) :
    Except ApiError (Option ℤ × Option ℤ) := do
  let lower ← transposed (activitySortKey c · "activity timestamp must be RFC 3339") activityFrom
  let upper ← transposed (activitySortKey c · "activity timestamp must be RFC 3339") activityTo
  match lower, upper with
  | some lo, some hi =>
    if hi < lo then throw (.invalid "activity_from must not be later than activity_to")
  | _, _ => pure ()
  pure (lower, upper)

/-- `normalize_client_id` and `normalize_resource_id`. -/
def normalizeResourceId (value : Option String) (message : String) :
    Except ApiError (Option String) :=
  transposed (parseUuidText · message) value

def normalizeArtifactSetVersion (value : Option UInt16) : Except ApiError (Option UInt16) :=
  if value = some 0 then
    throw (.invalid "artifact set version must be a non-zero adapter contract version")
  else pure value

/-- The query parameters the two lists share. -/
structure ListQuery where
  limit : Option ℕ
  cursor : Option String
  sourceAgent : Option String
  repository : Option String
  project : Option String
  branch : Option String
  sourceAgentVersion : Option String
  artifactSetVersion : Option UInt16
  clientId : Option String
  activityFrom : Option String
  activityTo : Option String

/-- `SessionFilters`, and what `SnapshotFilters` adds a session to. -/
structure SessionFilters where
  sourceAgent : Option String
  repository : Option String
  project : Option String
  branch : Option String
  sourceAgentVersion : Option String
  artifactSetVersion : Option UInt16
  clientId : Option String
  activityFrom : Option ℤ
  activityTo : Option ℤ

structure SnapshotFilters extends SessionFilters where
  sessionId : Option String

/-- A column equals the filter's value, when there is one. -/
def passes {α : Type} [DecidableEq α] (filter : Option α) (column : α) : Bool :=
  decide (filter = none ∨ filter = some column)

/-- The same for a nullable column: `NULL` equals nothing. -/
def passesNullable {α : Type} [DecidableEq α] (filter column : Option α) : Bool :=
  decide (filter = none ∨ filter = column)

def SessionFilters.activity (f : SessionFilters) (seq : ℤ) : Bool :=
  f.activityFrom.all (fun lo => decide (lo ≤ seq)) && f.activityTo.all fun hi => decide (seq ≤ hi)

def optionNumJson : Option ℤ → Json
  | none => .null
  | some n => .num n

def SessionFilters.jsonFields (f : SessionFilters) : List (String × Json) :=
  [("source_agent", optionJson f.sourceAgent), ("repository", optionJson f.repository),
    ("project", optionJson f.project), ("branch", optionJson f.branch),
    ("source_agent_version", optionJson f.sourceAgentVersion),
    ("artifact_set_version", optionNumJson (f.artifactSetVersion.map fun v => (v.toNat : ℤ))),
    ("client_id", optionJson f.clientId), ("activity_from", optionNumJson f.activityFrom),
    ("activity_to", optionNumJson f.activityTo)]

/-- `filter_hash`, given the fields of the filters. -/
def filterHash (kind : String) (fields : List (String × Json)) : String :=
  c.sha256Hex (jsonToVec (.arr [.str kind, .obj fields]))

def sessionFilters (query : ListQuery) : Except ApiError SessionFilters := do
  let (activityFrom, activityTo) ← normalizeActivityRange c query.activityFrom query.activityTo
  pure
    { sourceAgent := ← normalizeOptionalNonemptyFilter query.sourceAgent maxSourceAgentFilterBytes
        "source agent filter is invalid"
      repository := ← normalizeOptionalFilter query.repository maxContextFilterBytes
        "repository filter is invalid"
      project := ← normalizeOptionalFilter query.project maxContextFilterBytes
        "project filter is invalid"
      branch := ← normalizeOptionalFilter query.branch maxContextFilterBytes
        "branch filter is invalid"
      sourceAgentVersion := ← normalizeOptionalFilter query.sourceAgentVersion
        maxContextFilterBytes "source agent version filter is invalid"
      artifactSetVersion := ← normalizeArtifactSetVersion query.artifactSetVersion
      clientId := ← normalizeResourceId query.clientId "client identifier is not a UUID"
      activityFrom := activityFrom
      activityTo := activityTo }

/-! ## §2 — `list_snapshots`. -/

structure SnapshotListQuery extends ListQuery where
  sessionId : Option String

/-- `snapshot_filters`: an unreadable activity range is reported before the session identifier,
and that before the rest. -/
def snapshotFilters (query : SnapshotListQuery) : Except ApiError SnapshotFilters := do
  let _ ← normalizeActivityRange c query.activityFrom query.activityTo
  let sessionId ← normalizeResourceId query.sessionId "session identifier is not a UUID"
  let filters ← sessionFilters c query.toListQuery
  pure { filters with sessionId := sessionId }

def SnapshotFilters.jsonFields (f : SnapshotFilters) : List (String × Json) :=
  ("session_id", optionJson f.sessionId) :: f.toSessionFilters.jsonFields

/-- The conditions on one capture of a snapshot. -/
def SessionFilters.capturePasses (f : SessionFilters) (capture : CaptureRow) : Bool :=
  passesNullable f.repository capture.repository && passesNullable f.project capture.project &&
    passesNullable f.branch capture.branch &&
    passesNullable f.sourceAgentVersion capture.sourceAgentVersion &&
    passes (f.artifactSetVersion.map fun v => (v.toNat : ℤ)) capture.artifactSetVersion &&
    passes f.clientId capture.clientId

/-- `has_capture_context`. -/
def SessionFilters.hasCaptureContext (f : SessionFilters) : Bool :=
  f.repository.isSome || f.project.isSome || f.branch.isSome || f.sourceAgentVersion.isSome ||
    f.artifactSetVersion.isSome || f.clientId.isSome

structure SnapshotListRow where
  snapshot : SnapshotRow
  manifest : ManifestRow
  captureCount : ℕ

/-- The rows `query_snapshot_rows` selects, before the page's bounds, order and limit. -/
def Db.snapshotListRows (db : Db) (f : SnapshotFilters) : List SnapshotListRow :=
  (db.snapshots.filter fun s =>
    s.live && passes f.sessionId s.sessionId && f.activity s.completedAtSeq &&
      (!f.hasCaptureContext ||
        db.captures.any fun r => decide (r.snapshotId = s.id) && f.capturePasses r)).filterMap
    fun s => do
      let manifest ← db.manifest s.manifestId
      let session ← db.session s.sessionId
      if passes f.sourceAgent session.sourceAgent then
        some ⟨s, manifest, (db.captures.filter fun r => decide (r.snapshotId = s.id)).length⟩
      else none

def SnapshotListRow.boundary (row : SnapshotListRow) : SortBoundary :=
  ⟨row.snapshot.completedAtSeq, row.snapshot.completedAt, row.snapshot.id⟩

structure SnapshotSummary where
  snapshotId : String
  sessionId : String
  snapshotFingerprint : String
  manifestId : String
  manifestSha256 : String
  completedAt : String
  artifactCount : ℕ
  totalOriginalBytes : ℕ
  totalStoredBytes : ℕ
  captureCount : ℕ
  snapshotUrl : String
  capturesUrl : String
  manifestUrl : String

/-- `u32::try_from` of a column. -/
def unsigned32Column (value : ℤ) : Except ApiError ℕ :=
  if 0 ≤ value ∧ value < 2 ^ 32 then pure value.toNat else throw .internal

def snapshotSummary (row : SnapshotListRow) : Except ApiError SnapshotSummary := do
  let artifactCount ← unsigned32Column row.snapshot.artifactCount
  let totalOriginalBytes ← unsignedColumn row.snapshot.totalOriginalSizeBytes
  let totalStoredBytes ← unsignedColumn row.snapshot.totalStoredSizeBytes
  pure
    { snapshotId := row.snapshot.id
      sessionId := row.snapshot.sessionId
      snapshotFingerprint := digestDocumentValue row.snapshot.fingerprintSha256
      manifestId := row.manifest.id
      manifestSha256 := digestDocumentValue row.manifest.sha256
      completedAt := row.snapshot.completedAt
      artifactCount := artifactCount
      totalOriginalBytes := totalOriginalBytes
      totalStoredBytes := totalStoredBytes
      captureCount := row.captureCount
      snapshotUrl := "/api/v1/snapshots/" ++ row.snapshot.id
      capturesUrl := "/api/v1/snapshots/" ++ row.snapshot.id ++ "/captures"
      manifestUrl := "/api/v1/manifests/" ++ row.manifest.id }

/-- What the list requests share: one query for the page's rows, then the response of each. -/
def listRows {ρ τ : Type} (kind hash : String) (page : PageRequest) (rows : Db → List ρ)
    (boundary : ρ → SortBoundary) (respond : ρ → Except ApiError τ) :
    Handler ApiError (PaginatedResponse τ) := do
  let fetched ← query .database fun db =>
    pure (fetchRows page ((rows db).map fun row => (row, boundary row)))
  let responses ← check (fetched.mapM fun r => do pure (← respond r.1, r.2))
  check (pageFromRows responses page kind hash)

def listSnapshots (request : SnapshotListQuery) :
    Handler ApiError (PaginatedResponse SnapshotSummary) := do
  let filters ← check (snapshotFilters c request)
  let hash := filterHash c "snapshots" filters.jsonFields
  let page ← check (parsePage c request.limit request.cursor "snapshots" hash)
  listRows "snapshots" hash page (·.snapshotListRows filters) SnapshotListRow.boundary
    snapshotSummary

/-- `list_session_snapshots`: the same rows under a cursor kind of their own. -/
def listSessionSnapshots (sessionId : String) (limit : Option ℕ) (cursor : Option String) :
    Handler ApiError (PaginatedResponse SnapshotSummary) := do
  let sessionId ← check (parseUuidText sessionId "session identifier is not a UUID")
  let filters : SnapshotFilters := ⟨⟨none, none, none, none, none, none, none, none, none⟩,
    some sessionId⟩
  let hash := filterHash c "session_snapshots" filters.jsonFields
  let page ← check (parsePage c limit cursor "session_snapshots" hash)
  listRows "session_snapshots" hash page (·.snapshotListRows filters) SnapshotListRow.boundary
    snapshotSummary

/-! ## §3 — `list_sessions`. -/

structure SessionListRow where
  context : SessionLatestContextRow
  session : SessionRow

/-- The conditions of `list_sessions` on a session's projected context. -/
def SessionFilters.contextPasses (f : SessionFilters) (p : SessionLatestContextRow) : Bool :=
  passes f.sourceAgent p.sourceAgent && passesNullable f.repository p.repository &&
    passesNullable f.project p.project && passesNullable f.branch p.branch &&
    passesNullable f.sourceAgentVersion p.sourceAgentVersion &&
    passes (f.artifactSetVersion.map fun v => (v.toNat : ℤ)) p.artifactSetVersion &&
    f.activity p.completedAtSeq

/-- The rows `list_sessions` selects, before the page's bounds, order and limit. -/
def Db.sessionListRows (db : Db) (f : SessionFilters) : List SessionListRow :=
  (db.sessionLatestContext.filter fun p =>
    f.contextPasses p &&
      (f.clientId.isNone || db.captures.any fun r =>
        decide (r.snapshotId = p.snapshotId) && passes f.clientId r.clientId)).filterMap
    fun p => do
      let session ← db.session p.sessionId
      let snapshot ← db.snapshot p.snapshotId
      if snapshot.live then some ⟨p, session⟩ else none

def SessionListRow.boundary (row : SessionListRow) : SortBoundary :=
  ⟨row.context.completedAtSeq, row.context.completedAt, row.context.sessionId⟩

structure SessionLatestSnapshot where
  snapshotId : String
  completedAt : String
  project : Option String
  repository : Option String
  branch : Option String
  sourceAgentVersion : Option String
  artifactSetVersion : ℕ
  snapshotUrl : String
  manifestUrl : String

structure SessionResponse where
  sessionId : String
  sourceAgent : String
  sourceSessionId : String
  createdAt : String
  updatedAt : String
  latestSnapshot : SessionLatestSnapshot
  capturesUrl : String
  snapshotsUrl : String

/-- `u16::try_from` of a column. -/
def unsigned16Column (value : ℤ) : Except ApiError ℕ :=
  if 0 ≤ value ∧ value < 2 ^ 16 then pure value.toNat else throw .internal

def sessionResponse (row : SessionListRow) : Except ApiError SessionResponse := do
  let artifactSetVersion ← unsigned16Column row.context.artifactSetVersion
  pure
    { sessionId := row.session.id
      sourceAgent := row.session.sourceAgent
      sourceSessionId := row.session.sourceSessionId
      createdAt := row.session.createdAt
      updatedAt := row.session.updatedAt
      latestSnapshot :=
        { snapshotId := row.context.snapshotId
          completedAt := row.context.completedAt
          project := row.context.project
          repository := row.context.repository
          branch := row.context.branch
          sourceAgentVersion := row.context.sourceAgentVersion
          artifactSetVersion := artifactSetVersion
          snapshotUrl := "/api/v1/snapshots/" ++ row.context.snapshotId
          manifestUrl := "/api/v1/snapshots/" ++ row.context.snapshotId ++ "/manifest" }
      capturesUrl := "/api/v1/sessions/" ++ row.session.id ++ "/captures"
      snapshotsUrl := "/api/v1/sessions/" ++ row.session.id ++ "/snapshots" }

def listSessions (request : ListQuery) :
    Handler ApiError (PaginatedResponse SessionResponse) := do
  let filters ← check (sessionFilters c request)
  let hash := filterHash c "sessions" filters.jsonFields
  let page ← check (parsePage c request.limit request.cursor "sessions" hash)
  listRows "sessions" hash page (·.sessionListRows filters) SessionListRow.boundary
    sessionResponse

/-! ## §4 — `download_artifact`. -/

/-- `storage_digest`: 64 lowercase hexadecimal digits. -/
def storageDigest (value : String) : Option String :=
  if value.utf8ByteSize = 64 ∧ (Lib.chars value).all (fun ch => decide (lowerHex ch = some ch)) then
    some value
  else none

def canonicalDigest (value : String) : Option String :=
  (stripPrefix "sha256:" value).bind storageDigest

structure DownloadRow where
  artifact : ArtifactRow
  manifest : ManifestRow
  blob : BlobRow

/-- The join of `verified_download_metadata`. -/
def Db.downloadRow (db : Db) (artifactId : String) : Option DownloadRow := do
  let artifact ← db.artifacts.find? fun r => decide (r.id = artifactId)
  let snapshot ← db.snapshot artifact.snapshotId
  let manifest ← db.manifest snapshot.manifestId
  let blob ← db.blob artifact.blobId
  if snapshot.live then some ⟨artifact, manifest, blob⟩ else none

structure DownloadMetadata where
  logicalPath : String
  mediaType : Option String
  originalSizeBytes : ℕ
  originalSha256 : String
  storedSizeBytes : ℕ
  storedSha256 : String
  compression : Compression
  deriving DecidableEq

def downloadMetadataFromRow (row : DownloadRow) : Except ApiError DownloadMetadata := do
  if c.sha256Hex (utf8 row.manifest.canonicalJson) ≠ row.manifest.sha256 then
    throw .artifactIntegrity
  let manifest ← okOr (parseManifest c row.manifest.canonicalJson) .artifactIntegrity
  if row.artifact.artifactIndex < 0 then throw .artifactIntegrity
  let artifact ← okOr manifest.artifacts[row.artifact.artifactIndex.toNat]? .artifactIntegrity
  let originalSha256 ← okOr (canonicalDigest artifact.originalSha256) .artifactIntegrity
  let storedSha256 ← okOr (canonicalDigest artifact.storedSha256) .artifactIntegrity
  if row.artifact.originalSizeBytes < 0 ∨ row.blob.storedSizeBytes < 0 then
    throw .artifactIntegrity
  if row.artifact.logicalPath ≠ artifact.logicalPath ∨
      row.artifact.mediaType ≠ artifact.mediaType ∨
      row.artifact.originalSizeBytes ≠ artifact.originalSizeBytes.toNat ∨
      storageDigest row.artifact.originalSha256 ≠ some originalSha256 ∨
      row.blob.storedSizeBytes ≠ artifact.storedSizeBytes.toNat ∨
      storageDigest row.blob.storedSha256 ≠ some storedSha256 ∨
      row.blob.compression ≠ artifact.compression then
    throw .artifactIntegrity
  pure ⟨artifact.logicalPath, artifact.mediaType, artifact.originalSizeBytes.toNat,
    digestDocumentValue originalSha256, artifact.storedSizeBytes.toNat, storedSha256,
    artifact.compression⟩

/-- The first read of `reconcile_snapshot`. -/
def reconcileFirstRead (snapshotId : String) :
    Handler ReconciliationError (SnapshotRow × ManifestRow) :=
  ExceptT.mk <| Prog.atomic .query fun t e s =>
    match e.fault with
    | some _ => (.error .metadata, s)
    | none =>
      match s.db.reconcileRow snapshotId with
      | some row => (.ok row, { s with reconciling := (snapshotId, t) :: s.reconciling })
      | none => (.error .notFound, s)

/-- The second read of `reconcile_snapshot`. -/
def reconcileSecondRead (snapshotId : String) :
    Handler ReconciliationError (List (ArtifactRow × BlobRow)) :=
  ExceptT.mk <| Prog.atomic .query fun t e s =>
    let s' := { s with
      reconciling := s.reconciling.filter fun r => decide (r ≠ (snapshotId, t)) }
    match e.fault with
    | some _ => (.error .metadata, s')
    | none => (.ok (s.db.reconcileArtifacts snapshotId), s')

/-- `reconcile_snapshot`, its two reads apart. -/
def reconcileSnapshotReads (snapshotId : String) : Handler ReconciliationError Unit := do
  let (snapshot, manifest) ← reconcileFirstRead snapshotId
  let rows ← reconcileSecondRead snapshotId
  check (reconcile c snapshot manifest rows)

def ReconciliationError.toApiError : ReconciliationError → ApiError
  | .metadata => .database
  | .notFound | .drift => .artifactIntegrity

def verifiedDownloadMetadata (artifactId : String) :
    Handler ApiError (Option DownloadMetadata) := do
  match ← query .database fun db => pure (db.downloadRow artifactId) with
  | none => pure none
  | some row => do
    let metadata ← check (downloadMetadataFromRow c row)
    mapErr ReconciliationError.toApiError (reconcileSnapshotReads c row.artifact.snapshotId)
    pure (some metadata)

/-- `preflight_blob`, given what the opened file holds. -/
def preflightBytes (expectedSize : ℕ) (expectedSha256 : String) (bytes : Bytes) :
    Except ApiError Bytes :=
  if bytes.length = expectedSize ∧ c.sha256Hex bytes = expectedSha256 then pure bytes
  else throw .artifactIntegrity

/-- `preflight_blob`: the bytes of the file it leaves open. -/
def preflightBlob (path : FilePath) (expectedSize : ℕ) (expectedSha256 : String) :
    Handler ApiError Bytes := do
  if (storageDigest expectedSha256).isNone then throw .artifactIntegrity
  let regular ← fileRead .artifactIntegrity fun fs => pure ((fs.lookup path).any Node.isFile)
  if ¬ regular then throw .artifactIntegrity
  fileRead .artifactIntegrity fun fs =>
    match fs.read path with
    | .ok bytes => preflightBytes c expectedSize expectedSha256 bytes
    | .error _ => throw .artifactIntegrity

/-- `header_value`, the value as the text it holds. -/
def headerValue (value : String) : Except ApiError String :=
  if c.headerValueParses value then pure value else throw .artifactIntegrity

/-- `STANDARD.encode`: base64 with its two standard letters, padded to groups of four. -/
def standardBase64 (bytes : Bytes) : String :=
  let letters := (Lib.Base64.encodeList bytes).map fun ch =>
    if ch = '-' then '+' else if ch = '_' then '/' else ch
  String.ofList (letters ++ List.replicate ((4 - letters.length % 4) % 4) '=')

/-- The bytes of a digest in hexadecimal text. -/
def digestBytes : List Char → Bytes
  | high :: low :: rest => UInt8.ofNat (16 * Json.hexVal high + Json.hexVal low) :: digestBytes rest
  | _ => []

/-- `add_download_headers`, in the order the headers are inserted. -/
def addDownloadHeaders (metadata : DownloadMetadata) (storedDigestBase64 : String) :
    Except ApiError (List (String × String)) := do
  if ¬ metadata.mediaType.all c.mimeParses then throw .artifactIntegrity
  let contentType ← headerValue c (metadata.mediaType.getD "application/octet-stream")
  let contentLength ← headerValue c (toString metadata.storedSizeBytes)
  let digest ← headerValue c ("SHA-256=" ++ storedDigestBase64)
  let contentDigest ← headerValue c ("sha-256=:" ++ storedDigestBase64 ++ ":")
  let logicalPath ← headerValue c (Lib.Base64.encode (utf8 metadata.logicalPath))
  let mediaType ←
    match metadata.mediaType with
    | none => pure []
    | some text => do
      let value ← headerValue c text
      pure [("x-patwari-media-type", value)]
  let originalSize ← headerValue c (toString metadata.originalSizeBytes)
  let originalSha256 ← headerValue c metadata.originalSha256
  let storedSize ← headerValue c (toString metadata.storedSizeBytes)
  let storedSha256 ← headerValue c (digestDocumentValue metadata.storedSha256)
  pure ([("content-type", contentType), ("content-length", contentLength),
      ("cache-control", "no-transform")] ++
    (if metadata.compression = .zstd then [("content-encoding", "zstd")] else []) ++
    [("digest", digest), ("content-digest", contentDigest),
      ("x-patwari-logical-path", logicalPath),
      ("x-patwari-logical-path-encoding", "base64url")] ++
    mediaType ++
    [("x-patwari-compression", compressionName metadata.compression),
      ("x-patwari-original-size-bytes", originalSize),
      ("x-patwari-original-sha256", originalSha256),
      ("x-patwari-stored-size-bytes", storedSize),
      ("x-patwari-stored-sha256", storedSha256)])

/-- A download: its headers and the body they describe. -/
structure DownloadResponse where
  headers : List (String × String)
  body : Bytes

def downloadArtifact (artifactId : String) : Handler ApiError DownloadResponse := do
  let artifactId ← check (parseUuidText artifactId "artifact identifier is not a UUID")
  match ← verifiedDownloadMetadata c artifactId with
  | none => throw (.notFound "artifact_not_found" "artifact was not found")
  | some metadata => do
    let body ← preflightBlob c (blobPath metadata.storedSha256) metadata.storedSizeBytes
      metadata.storedSha256
    let storedDigestBase64 := standardBase64 (digestBytes (c.sha256Hex body).toList)
    let headers ← check (addDownloadHeaders c metadata storedDigestBase64)
    pure ⟨headers, body⟩

/-! ## §5 — `get_snapshot`. -/

/-- The join `snapshot_response` reads first. -/
def Db.snapshotResponseRow (db : Db) (snapshotId : String) : Option SnapshotListRow := do
  let snapshot ← db.snapshot snapshotId
  let manifest ← db.manifest snapshot.manifestId
  if snapshot.live then
    some ⟨snapshot, manifest,
      (db.captures.filter fun r => decide (r.snapshotId = snapshot.id)).length⟩
  else none

structure ArtifactResponse where
  contentUrl : String
  metadataUrl : String
  artifactId : String
  artifactIndex : ℕ
  logicalPath : String
  mediaType : Option String
  originalSizeBytes : ℕ
  originalSha256 : String
  storedSizeBytes : ℕ
  storedSha256 : String
  compression : Compression

def artifactResponse (artifact : ArtifactRow) (blob : BlobRow) : Except ApiError ArtifactResponse :=
    do
  let artifactIndex ← unsigned32Column artifact.artifactIndex
  let originalSizeBytes ← unsignedColumn artifact.originalSizeBytes
  let storedSizeBytes ← unsignedColumn blob.storedSizeBytes
  pure
    { contentUrl := "/api/v1/artifacts/" ++ artifact.id ++ "/content"
      metadataUrl := "/api/v1/artifacts/" ++ artifact.id
      artifactId := artifact.id
      artifactIndex := artifactIndex
      logicalPath := artifact.logicalPath
      mediaType := artifact.mediaType
      originalSizeBytes := originalSizeBytes
      originalSha256 := digestDocumentValue artifact.originalSha256
      storedSizeBytes := storedSizeBytes
      storedSha256 := digestDocumentValue blob.storedSha256
      compression := blob.compression }

structure SnapshotResponse where
  capturesUrl : String
  manifestUrl : String
  snapshotId : String
  sessionId : String
  snapshotFingerprint : String
  manifestId : String
  manifestSha256 : String
  completedAt : String
  artifactCount : ℕ
  totalOriginalBytes : ℕ
  totalStoredBytes : ℕ
  captureCount : ℕ
  manifest : Manifest
  artifacts : List ArtifactResponse

/-- The document of `snapshot_response`, given what it read. -/
def snapshotDocument (row : SnapshotListRow) (manifest : Manifest)
    (artifacts : List ArtifactResponse) : Except ApiError SnapshotResponse := do
  let artifactCount ← unsigned32Column row.snapshot.artifactCount
  let totalOriginalBytes ← unsignedColumn row.snapshot.totalOriginalSizeBytes
  let totalStoredBytes ← unsignedColumn row.snapshot.totalStoredSizeBytes
  pure
    { capturesUrl := "/api/v1/snapshots/" ++ row.snapshot.id ++ "/captures"
      manifestUrl := "/api/v1/manifests/" ++ row.manifest.id
      snapshotId := row.snapshot.id
      sessionId := row.snapshot.sessionId
      snapshotFingerprint := digestDocumentValue row.snapshot.fingerprintSha256
      manifestId := row.manifest.id
      manifestSha256 := digestDocumentValue row.manifest.sha256
      completedAt := row.snapshot.completedAt
      artifactCount := artifactCount
      totalOriginalBytes := totalOriginalBytes
      totalStoredBytes := totalStoredBytes
      captureCount := row.captureCount
      manifest := manifest
      artifacts := artifacts }

def snapshotNotFound : ApiError := .notFound "snapshot_not_found" "snapshot was not found"

/-- How `snapshot_response` reports a reconciliation. -/
def ReconciliationError.toSnapshotError : ReconciliationError → ApiError
  | .notFound => snapshotNotFound
  | .drift | .metadata => .internal

def snapshotResponse (snapshotId : String) : Handler ApiError SnapshotResponse := do
  let row ← query .database fun db => okOr (db.snapshotResponseRow snapshotId) snapshotNotFound
  mapErr ReconciliationError.toSnapshotError (reconcileSnapshotReads c snapshotId)
  let manifest ← check (okOr (parseManifest c row.manifest.canonicalJson) .internal)
  let rows ← query .database fun db => pure (db.reconcileArtifacts snapshotId)
  let artifacts ← check (rows.mapM fun r => artifactResponse r.1 r.2)
  check (snapshotDocument row manifest artifacts)

def getSnapshot (snapshotId : String) : Handler ApiError SnapshotResponse := do
  let snapshotId ← check (parseUuidText snapshotId "snapshot identifier is not a UUID")
  snapshotResponse c snapshotId

end Patwari
