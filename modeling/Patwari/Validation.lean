/-
# Patwari.Validation — what a manifest must satisfy before anything is stored.

`normalizeManifest` is the gate every new manifest passes: text bounds, portable and mutually
compatible logical paths, digest syntax, declared sizes within the configured limits, one size and
compression per stored digest, and the artifacts put in path order. Every check is one function, so
that a refused request names the first rule it breaks.
-/
import Patwari.Contract
import Patwari.Pagination

namespace Patwari

open Lib (Json StringMap)

/-! ## §1 — Text. -/

def maxLogicalPathBytes : ℕ := 1024
def maxMetadataEntries : ℕ := 64
def maxMetadataKeyBytes : ℕ := 128
def maxMetadataValueBytes : ℕ := 1024
def maxIdempotencyKeyBytes : ℕ := 128
def maxSourceAgentBytes : ℕ := 128
def maxSourceSessionIdBytes : ℕ := 512
def maxContextValueBytes : ℕ := 512

def windowsReservedNames : List String :=
  ["CON", "PRN", "AUX", "NUL", "COM1", "COM2", "COM3", "COM4", "COM5", "COM6", "COM7", "COM8",
    "COM9", "LPT1", "LPT2", "LPT3", "LPT4", "LPT5", "LPT6", "LPT7", "LPT8", "LPT9"]

/-- `is_ascii_control` of some byte: only ASCII characters have bytes in that range. -/
def isAsciiControl (ch : Char) : Bool := decide (ch.toNat < 32) || decide (ch.toNat = 127)

/-- `strip_prefix`. -/
def stripPrefix (pre s : String) : Option String :=
  if (Lib.chars pre).isPrefixOf (Lib.chars s) then
    some (String.ofList ((Lib.chars s).drop (Lib.chars pre).length))
  else none

def validateText (value : String) (maximum : ℕ) (message : String) : Except ApiError Unit :=
  if maximum < value.utf8ByteSize ∨ (Lib.chars value).any isAsciiControl then throw
    (.invalid message)
  else pure ()

def validateNonemptyText (value : String) (maximum : ℕ) (message : String) :
    Except ApiError Unit := do
  if value = "" then throw (.invalid message)
  validateText value maximum message

def validateOptionalText (value : Option String) (maximum : ℕ) : Except ApiError Unit :=
  match value with
  | none => pure ()
  | some value => validateText value maximum "text value is invalid"

def validateOptionalMediaType (c : Crates) (value : Option String) : Except ApiError Unit :=
  match value with
  | none => pure ()
  | some value => do
    validateText value maxContextValueBytes "media type is invalid"
    if c.mimeParses value then pure () else throw (.invalid "media type is invalid")

/-! ## §2 — Digests, sizes and paths. -/

/-- 64 lowercase hexadecimal digits. -/
def validateContentHash (value message : String) : Except ApiError Unit :=
  if value.utf8ByteSize ≠ 64 ∨ ¬ (Lib.chars value).all
    (fun ch => decide (lowerHex ch = some ch)) then
    throw (.invalid message)
  else pure ()

def validateDigest (value : String) : Except ApiError Unit :=
  match stripPrefix "sha256:" value with
  | none => throw (.invalid "hash must be a lowercase sha256 digest")
  | some hex => validateContentHash hex "hash must be a lowercase sha256 digest"

/-- `digest_storage_value`: the digest without its algorithm prefix. -/
def digestStorageValue (value : String) : String := (stripPrefix "sha256:" value).getD value

/-- `digest_document_value`. -/
def digestDocumentValue (value : String) : String := "sha256:" ++ digestStorageValue value

/-- The largest value of a signed 64-bit column. -/
def maxSqliteI64 : ℕ := 2 ^ 63 - 1

def toSqliteI64 (value : ℕ) : Except ApiError ℤ :=
  if value ≤ maxSqliteI64 then pure value
  else throw (.invalid "artifact size exceeds configured bounds")

/-- `checked_add` on `u64`. -/
def checkedAdd (a b : ℕ) (message : String) : Except ApiError ℕ :=
  if a + b < 2 ^ 64 then pure (a + b) else throw (.invalid message)

def validateSize (size maximum : ℕ) (message : String) : Except ApiError Unit :=
  if maximum < size ∨ maxSqliteI64 < size then throw (.invalid message) else pure ()

/-- `to_ascii_lowercase`. -/
def toAsciiLowercase (s : String) : String := String.ofList (s.toList.map Char.toLower)

def isWindowsReservedComponent (component : List Char) : Bool :=
  windowsReservedNames.contains
    (String.ofList (((component.splitOn '.').headD component).map Char.toUpper))

/-- One path component of a portable relative path. -/
def validComponent (part : List Char) : Bool :=
  !(part.isEmpty || part = ['.'] || part = ['.', '.'] || part.getLast? = some '.' ||
    part.getLast? = some ' ' || isWindowsReservedComponent part) &&
  part.all fun ch => ch.isAlphanum || ch = '.' || ch = '_' || ch = '-'

def validateLogicalPath (path : String) : Except ApiError Unit :=
  if path = "" ∨ maxLogicalPathBytes < path.utf8ByteSize ∨ path.toList.head? = some '/' ∨
      '\\' ∈ path.toList ∨ ':' ∈ path.toList ∨
        ¬ path.toList.all (fun ch => decide (ch.toNat < 128)) ∨
      path.toList.any isAsciiControl ∨ ¬ (path.toList.splitOn '/').all validComponent then
    throw (.invalid "logical path must be a portable normalized relative regular-file path")
  else pure ()

/-- The proper ancestors of a path: every prefix that ends before a slash. -/
def properParents (path : String) : List String :=
  ((List.range path.toList.length).filter fun i => path.toList[i]? = some '/').map
    fun i => String.ofList (path.toList.take i)

/-! ## §3 — `normalize_manifest`. -/

structure ManifestLimits where
  artifactCount : ℕ
  artifactStoredBytes : ℕ
  artifactOriginalBytes : ℕ
  snapshotStoredBytes : ℕ
  snapshotOriginalBytes : ℕ
  deriving DecidableEq, Repr

/-- The running totals and sets of the artifact loop. -/
structure NormalizeState where
  originalTotal : ℕ
  storedTotal : ℕ
  portablePaths : List String
  representations : List (String × UInt64 × Compression)
  normalized : List Artifact

variable (c : Crates)

def normalizeArtifact (limits : ManifestLimits) (st : NormalizeState) (input : ArtifactInput) :
    Except ApiError NormalizeState := do
  validateLogicalPath input.logicalPath
  let portablePath := toAsciiLowercase input.logicalPath
  if portablePath ∈ st.portablePaths then
    throw (.invalid "manifest contains duplicate normalized logical paths")
  validateOptionalMediaType c input.mediaType
  validateDigest input.originalSha256
  validateDigest input.storedSha256
  validateSize input.originalSizeBytes.toNat limits.artifactOriginalBytes
    "artifact original size exceeds the configured bounded limit"
  validateSize input.storedSizeBytes.toNat limits.artifactStoredBytes
    "artifact stored size exceeds the configured bounded limit"
  let originalTotal ← checkedAdd st.originalTotal input.originalSizeBytes.toNat
    "snapshot original size is invalid"
  if limits.snapshotOriginalBytes < originalTotal then
    throw (.invalid "snapshot original size exceeds the configured bounded limit")
  let storedTotal ← checkedAdd st.storedTotal input.storedSizeBytes.toNat
    "snapshot stored size is invalid"
  if limits.snapshotStoredBytes < storedTotal then
    throw (.invalid "snapshot stored size exceeds the configured bounded limit")
  let storedDigest := digestStorageValue input.storedSha256
  let representations ←
    match st.representations.lookup storedDigest with
    | some (size, compression) =>
      if size ≠ input.storedSizeBytes ∨ compression ≠ input.compression then
        throw (.conflict "blob_integrity_conflict"
          "stored digest conflicts with immutable blob size or compression metadata")
      else pure st.representations
    | none =>
      pure ((storedDigest, input.storedSizeBytes, input.compression) :: st.representations)
  pure ⟨originalTotal, storedTotal, portablePath :: st.portablePaths, representations,
    st.normalized ++ [input]⟩

def normalizeCapture (input : CaptureInput) : Except ApiError Capture := do
  let instant ← okOr (c.parseRfc3339 input.capturedAt)
    (.invalid "capture timestamp must be RFC 3339")
  let capturedAt ← okOr (c.formatRfc3339 instant) .internal
  for value in [input.sourceCursor, input.sourceStateHash, input.project, input.repository,
      input.branch, input.sourceAgentVersion, input.munshiVersion] do
    validateOptionalText value maxContextValueBytes
  if input.artifactSetVersion = 0 then
    throw (.invalid "artifact set version must be a non-zero adapter contract version")
  if maxMetadataEntries < input.sourceMetadata.entries.length then
    throw (.invalid "source metadata has too many entries")
  for entry in input.sourceMetadata.entries do
    validateNonemptyText entry.1 maxMetadataKeyBytes "source metadata key is invalid"
    validateText entry.2 maxMetadataValueBytes "source metadata value is invalid"
  pure { input with capturedAt := capturedAt }

/-- `sort_unstable_by` on the logical path. -/
def sortByPath (artifacts : List Artifact) : List Artifact :=
  artifacts.insertionSort fun a b => a.logicalPath ≤ b.logicalPath

def normalizeManifest (input : ManifestInput) (limits : ManifestLimits) :
    Except ApiError Manifest := do
  if input.schemaVersion ≠ 1 then
    throw (.invalid "manifest schema version is not supported")
  validateNonemptyText input.session.sourceAgent maxSourceAgentBytes "source agent is invalid"
  validateNonemptyText input.session.sourceSessionId maxSourceSessionIdBytes
    "source session identifier is invalid"
  let capture ← normalizeCapture c input.capture
  let artifacts ←
    match input.artifacts, input.artifact with
    | some artifacts, none => pure artifacts
    | none, some artifact => pure [artifact]
    | _, _ =>
      throw (.invalid "manifest must declare exactly one artifacts array or legacy artifact")
  if artifacts = [] ∨ limits.artifactCount < artifacts.length then
    throw (.invalid "manifest artifact count exceeds the configured bounded limit")
  let st ← artifacts.foldlM (normalizeArtifact c limits) ⟨0, 0, [], [], []⟩
  if st.portablePaths.any fun path =>
      (properParents path).any fun parent => st.portablePaths.contains parent then
    throw (.invalid "manifest contains conflicting regular-file logical paths")
  pure ⟨input.schemaVersion, input.session, capture, sortByPath st.normalized⟩

/-- The declared totals, with the overflow checks of `u64` addition. -/
def manifestTotals (manifest : Manifest) : Except ApiError (ℕ × ℕ) :=
  manifest.artifacts.foldlM (fun totals artifact => do
    let original ← checkedAdd totals.1 artifact.originalSizeBytes.toNat
      "snapshot original size is invalid"
    let stored ← checkedAdd totals.2 artifact.storedSizeBytes.toNat
      "snapshot stored size is invalid"
    pure (original, stored)) (0, 0)

/-! ## §4 — Identifiers of a request. -/

structure CreateUploadRequest where
  clientId : String
  captureId : Option String
  idempotencyKey : Option String
  manifest : ManifestInput

/-- `capture_id`: the identifier or its deprecated alias, equal when both are given. -/
def captureId (request : CreateUploadRequest) : Except ApiError String := do
  let captureId ←
    match request.captureId, request.idempotencyKey with
    | some captureId, _ => pure captureId
    | none, some idempotencyKey => pure idempotencyKey
    | none, none => throw (.invalid "capture identifier is required")
  match request.captureId, request.idempotencyKey with
  | some a, some b =>
    if a ≠ b then
      throw (.invalid "capture_id and idempotency_key must be identical when both are supplied")
  | _, _ => pure ()
  validateNonemptyText captureId maxIdempotencyKeyBytes "capture identifier is invalid"
  pure captureId

/-- `parse_uuid(..)?.to_string()`. -/
def parseUuidText (value message : String) : Except ApiError String :=
  okOr (parseUuid value) (.invalid message)

end Patwari
