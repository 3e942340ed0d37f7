/-
# Patwari.Contract — the documents of the archive API and their JSON.

The manifest a client declares, in the shape the server stores it, with the JSON the server writes
for it and the reading back a derived deserializer does: unknown and repeated fields are refused,
a missing optional field reads as absent, and a stored manifest may carry either the `artifacts`
array or the legacy `artifact` object. The fingerprint and the pre-provenance shapes of a manifest
are two further documents built from the same data.

Machine integers keep their width as a type, so a manifest's numbers always fit what is written.
-/
import Patwari.Crates
import Patwari.Lib.StringMap

namespace Patwari

open Lib (Json StringMap)

/-! ## §1 — Manifests. -/

inductive Compression where
  | identity
  | zstd
  deriving DecidableEq, Repr

/-- `compression_name`, and the name serde writes. -/
def compressionName : Compression → String
  | .identity => "identity"
  | .zstd => "zstd"

def parseCompression : String → Option Compression
  | "identity" => some .identity
  | "zstd" => some .zstd
  | _ => none

inductive UploadStatus where
  | created
  | artifactUploaded
  | completed
  | abandoned
  | expired
  deriving DecidableEq, Repr

structure SessionInput where
  sourceAgent : String
  sourceSessionId : String
  deriving DecidableEq

structure Capture where
  capturedAt : String
  sourceCursor : Option String
  sourceStateHash : Option String
  sourceMetadata : StringMap String
  project : Option String
  repository : Option String
  branch : Option String
  sourceAgentVersion : Option String
  artifactSetVersion : UInt16
  munshiVersion : Option String
  deriving DecidableEq

/-- The request's capture has the fields of the stored one. -/
abbrev CaptureInput := Capture

structure Artifact where
  logicalPath : String
  mediaType : Option String
  originalSizeBytes : UInt64
  originalSha256 : String
  storedSizeBytes : UInt64
  storedSha256 : String
  compression : Compression
  deriving DecidableEq

/-- The request's artifact has the fields of the stored one. -/
abbrev ArtifactInput := Artifact

/-- Canonical v1 manifest: always the ordered multi-artifact form. -/
structure Manifest where
  schemaVersion : UInt16
  session : SessionInput
  capture : Capture
  artifacts : List Artifact
  deriving DecidableEq

structure ManifestInput where
  schemaVersion : UInt16
  session : SessionInput
  capture : CaptureInput
  artifacts : Option (List ArtifactInput)
  artifact : Option ArtifactInput
  deriving DecidableEq

/-- `LEGACY_ARTIFACT_SET_VERSION`. -/
def legacyArtifactSetVersion : UInt16 := 1

/-! ## §2 — Writing JSON. -/

/-- An optional text field is written as `null` when absent. -/
def optionJson : Option String → Json
  | none => .null
  | some s => .str s

def stringMapJson (m : StringMap String) : Json := .obj (m.entries.map fun e => (e.1, .str e.2))

def SessionInput.toJson (s : SessionInput) : Json :=
  .obj [("source_agent", .str s.sourceAgent), ("source_session_id", .str s.sourceSessionId)]

def Capture.toJson (c : Capture) : Json :=
  .obj [("captured_at", .str c.capturedAt), ("source_cursor", optionJson c.sourceCursor),
    ("source_state_hash", optionJson c.sourceStateHash),
    ("source_metadata", stringMapJson c.sourceMetadata), ("project", optionJson c.project),
    ("repository", optionJson c.repository), ("branch", optionJson c.branch),
    ("source_agent_version", optionJson c.sourceAgentVersion),
    ("artifact_set_version", .num c.artifactSetVersion.toNat),
    ("munshi_version", optionJson c.munshiVersion)]

def Artifact.toJson (a : Artifact) : Json :=
  .obj [("logical_path", .str a.logicalPath), ("media_type", optionJson a.mediaType),
    ("original_size_bytes", .num a.originalSizeBytes.toNat),
    ("original_sha256", .str a.originalSha256),
    ("stored_size_bytes", .num a.storedSizeBytes.toNat), ("stored_sha256", .str a.storedSha256),
    ("compression", .str (compressionName a.compression))]

def Manifest.toJson (m : Manifest) : Json :=
  .obj [("schema_version", .num m.schemaVersion.toNat), ("session", m.session.toJson),
    ("capture", m.capture.toJson), ("artifacts", .arr (m.artifacts.map Artifact.toJson))]

/-- `serde_json::to_string(&manifest)`. -/
def Manifest.canonicalJson (m : Manifest) : String := Json.compact m.toJson

/-- `LegacyCaptureV1`: the capture before provenance fields existed. -/
def Capture.toLegacyJson (c : Capture) : Json :=
  .obj [("captured_at", .str c.capturedAt), ("source_cursor", optionJson c.sourceCursor),
    ("project", optionJson c.project), ("repository", optionJson c.repository),
    ("branch", optionJson c.branch), ("source_agent_version", optionJson c.sourceAgentVersion),
    ("munshi_version", optionJson c.munshiVersion)]

/-- `LegacyManifestV1`. -/
def Manifest.toLegacyJson (m : Manifest) : Json :=
  .obj [("schema_version", .num m.schemaVersion.toNat), ("session", m.session.toJson),
    ("capture", m.capture.toLegacyJson), ("artifacts", .arr (m.artifacts.map Artifact.toJson))]

/-! ## §3 — Reading JSON. -/

def asUInt16 (j : Json) : Option UInt16 := (j.asUnsigned 16).map UInt16.ofNat

def asUInt64 (j : Json) : Option UInt64 := (j.asUnsigned 64).map UInt64.ofNat

/-- A unit variant is written as its name; a one-field object with a null value reads too. -/
def Compression.fromJson : Json → Option Compression
  | .str s => parseCompression s
  | .obj [(s, .null)] => parseCompression s
  | _ => none

def stringMapFromJson : Json → Option (StringMap String)
  | .obj fields => do
    let entries ← fields.mapM fun f => f.2.asString.map fun s => (f.1, s)
    some (StringMap.ofEntries entries)
  | _ => none

def listFromJson {α : Type} (read : Json → Option α) : Json → Option (List α)
  | .arr elems => elems.mapM read
  | _ => none

def SessionInput.fromJson (j : Json) : Option SessionInput := do
  match ← j.structFields [("source_agent", false), ("source_session_id", false)] with
  | [some agent, some id] => some ⟨← agent.asString, ← id.asString⟩
  | _ => none

def Capture.fromJson (j : Json) : Option Capture := do
  match ← j.structFields [("captured_at", false), ("source_cursor", false),
      ("source_state_hash", false), ("source_metadata", true), ("project", false),
      ("repository", false), ("branch", false), ("source_agent_version", false),
      ("artifact_set_version", true), ("munshi_version", false)] with
  | [some capturedAt, sourceCursor, sourceStateHash, sourceMetadata, project, repository, branch,
      sourceAgentVersion, artifactSetVersion, munshiVersion] =>
    some
      { capturedAt := ← capturedAt.asString
        sourceCursor := ← Json.asOption Json.asString sourceCursor
        sourceStateHash := ← Json.asOption Json.asString sourceStateHash
        sourceMetadata := ← match sourceMetadata with
          | none => some StringMap.empty
          | some j => stringMapFromJson j
        project := ← Json.asOption Json.asString project
        repository := ← Json.asOption Json.asString repository
        branch := ← Json.asOption Json.asString branch
        sourceAgentVersion := ← Json.asOption Json.asString sourceAgentVersion
        artifactSetVersion := ← match artifactSetVersion with
          | none => some legacyArtifactSetVersion
          | some j => asUInt16 j
        munshiVersion := ← Json.asOption Json.asString munshiVersion }
  | _ => none

def Artifact.fromJson (j : Json) : Option Artifact := do
  match ← j.structFields [("logical_path", false), ("media_type", false),
      ("original_size_bytes", false), ("original_sha256", false), ("stored_size_bytes", false),
      ("stored_sha256", false), ("compression", false)] with
  | [some logicalPath, mediaType, some originalSize, some originalSha256, some storedSize,
      some storedSha256, some compression] =>
    some
      { logicalPath := ← logicalPath.asString
        mediaType := ← Json.asOption Json.asString mediaType
        originalSizeBytes := ← asUInt64 originalSize
        originalSha256 := ← originalSha256.asString
        storedSizeBytes := ← asUInt64 storedSize
        storedSha256 := ← storedSha256.asString
        compression := ← Compression.fromJson compression }
  | _ => none

/-- `ManifestWire`: exactly one of the artifact array and the legacy artifact. -/
def Manifest.fromJson (j : Json) : Option Manifest := do
  match ← j.structFields [("schema_version", false), ("session", false), ("capture", false),
      ("artifacts", true), ("artifact", true)] with
  | [some schemaVersion, some session, some capture, artifacts, artifact] =>
    let schemaVersion ← asUInt16 schemaVersion
    let session ← SessionInput.fromJson session
    let capture ← Capture.fromJson capture
    let artifacts ← Json.asOption (listFromJson Artifact.fromJson) artifacts
    let artifact ← Json.asOption Artifact.fromJson artifact
    match artifacts, artifact with
    | some artifacts, none => some ⟨schemaVersion, session, capture, artifacts⟩
    | none, some artifact => some ⟨schemaVersion, session, capture, [artifact]⟩
    | _, _ => none
  | _ => none

/-- `serde_json::from_str::<Manifest>`. -/
def parseManifest (c : Crates) (text : String) : Option Manifest :=
  (c.jsonFromStr text).bind Manifest.fromJson

/-! ## §4 — A written manifest reads back. -/

@[simp] theorem asUInt16_toNat (n : UInt16) : asUInt16 (.num n.toNat) = some n := by
  simp [asUInt16, Json.asUnsigned_num n.toNat_lt]

@[simp] theorem asUInt64_toNat (n : UInt64) : asUInt64 (.num n.toNat) = some n := by
  simp [asUInt64, Json.asUnsigned_num n.toNat_lt]

@[simp] theorem asOption_optionJson (s : Option String) :
    Json.asOption Json.asString (some (optionJson s)) = some s := by
  cases s <;> rfl

@[simp] theorem Compression.fromJson_name (x : Compression) :
    Compression.fromJson (.str (compressionName x)) = some x := by
  cases x <;> rfl

theorem mapM_map_some {α β : Type} {f : α → β} {g : β → Option α} {l : List α}
    (h : ∀ a ∈ l, g (f a) = some a) : (l.map f).mapM g = some l := by
  induction l with
  | nil => rfl
  | cons a l ih =>
    rw [List.map_cons, List.mapM_cons, h a List.mem_cons_self,
      ih fun x hx => h x (List.mem_cons_of_mem _ hx)]
    rfl

@[simp] theorem stringMapFromJson_toJson (m : StringMap String) :
    stringMapFromJson (stringMapJson m) = some m := by
  have hentries : (m.entries.map fun e => (e.1, Json.str e.2)).mapM
      (fun f => f.2.asString.map fun s => (f.1, s)) = some m.entries :=
    mapM_map_some fun e _ => rfl
  simp [stringMapFromJson, stringMapJson, hentries]

@[simp] theorem SessionInput.fromJson_toJson (s : SessionInput) :
    SessionInput.fromJson s.toJson = some s := by
  simp [SessionInput.fromJson, SessionInput.toJson, Json.structFields, List.lookup_cons]

@[simp] theorem Capture.fromJson_toJson (c : Capture) : Capture.fromJson c.toJson = some c := by
  simp [Capture.fromJson, Capture.toJson, Json.structFields, List.lookup_cons]

@[simp] theorem Artifact.fromJson_toJson (a : Artifact) : Artifact.fromJson a.toJson = some a := by
  simp [Artifact.fromJson, Artifact.toJson, Json.structFields, List.lookup_cons]

/-- **`Manifest.fromJson_toJson`** — the tree a manifest is written as reads back as it. -/
@[simp] theorem Manifest.fromJson_toJson (m : Manifest) : Manifest.fromJson m.toJson = some m := by
  have hartifacts : listFromJson Artifact.fromJson (.arr (m.artifacts.map Artifact.toJson)) =
      some m.artifacts := mapM_map_some fun a _ => a.fromJson_toJson
  simp [Manifest.fromJson, Manifest.toJson, Json.structFields, List.lookup_cons, Json.asOption,
    hartifacts]

/-! ## §5 — A written manifest is not nested too deep. -/

section Readable

variable {depth : ℕ}

theorem readable_optionJson (s : Option String) : Readable depth (optionJson s) := by
  cases s with
  | none => exact .null
  | some s => exact .str s

theorem readable_uint16 (n : UInt16) : Readable depth (.num n.toNat) := by
  have hlt : n.toNat < 2 ^ 16 := n.toNat_lt
  exact .num (by omega) (by omega)

theorem readable_uint64 (n : UInt64) : Readable depth (.num n.toNat) := by
  have hlt : n.toNat < 2 ^ 64 := n.toNat_lt
  exact .num (by omega) (by omega)

theorem stringMapJson_readable (m : StringMap String) : Readable (depth + 1) (stringMapJson m) := by
  refine .obj fun f hf => ?_
  obtain ⟨e, -, rfl⟩ := List.mem_map.mp hf
  exact .str e.2

theorem SessionInput.toJson_readable (s : SessionInput) : Readable (depth + 1) s.toJson := by
  refine .obj ?_
  simp only [List.forall_mem_cons]
  exact ⟨.str _, .str _, by simp⟩

theorem Capture.toJson_readable (c : Capture) : Readable (depth + 2) c.toJson := by
  refine .obj ?_
  simp only [List.forall_mem_cons]
  exact ⟨.str _, readable_optionJson _, readable_optionJson _, stringMapJson_readable _,
    readable_optionJson _, readable_optionJson _, readable_optionJson _, readable_optionJson _,
    readable_uint16 _, readable_optionJson _, by simp⟩

theorem Capture.toLegacyJson_readable (c : Capture) : Readable (depth + 1) c.toLegacyJson := by
  refine .obj ?_
  simp only [List.forall_mem_cons]
  exact ⟨.str _, readable_optionJson _, readable_optionJson _, readable_optionJson _,
    readable_optionJson _, readable_optionJson _, readable_optionJson _, by simp⟩

theorem Artifact.toJson_readable (a : Artifact) : Readable (depth + 1) a.toJson := by
  refine .obj ?_
  simp only [List.forall_mem_cons]
  exact ⟨.str _, readable_optionJson _, readable_uint64 _, .str _, readable_uint64 _, .str _,
    .str _,
    by simp⟩

theorem artifacts_readable (artifacts : List Artifact) :
    Readable (depth + 2) (.arr (artifacts.map Artifact.toJson)) := by
  refine .arr fun j hj => ?_
  obtain ⟨a, -, rfl⟩ := List.mem_map.mp hj
  exact a.toJson_readable

theorem Manifest.toJson_readable (m : Manifest) : Readable (depth + 3) m.toJson := by
  refine .obj ?_
  simp only [List.forall_mem_cons]
  exact ⟨readable_uint16 _, m.session.toJson_readable, m.capture.toJson_readable,
    artifacts_readable _, by simp⟩

theorem Manifest.toLegacyJson_readable (m : Manifest) : Readable (depth + 3) m.toLegacyJson := by
  refine .obj ?_
  simp only [List.forall_mem_cons]
  exact ⟨readable_uint16 _, m.session.toJson_readable, m.capture.toLegacyJson_readable,
    artifacts_readable _, by simp⟩

end Readable

/-- A stored canonical manifest parses to the manifest it was written from. -/
theorem parseManifest_canonicalJson {c : Crates} (hc : c.JsonReads) (m : Manifest) :
    parseManifest c m.canonicalJson = some m := by
  have hread : c.jsonFromStr m.canonicalJson = some m.toJson :=
    hc.fromSlice m.toJson m.toJson_readable
  rw [parseManifest, hread, Option.bind_some, Manifest.fromJson_toJson]

theorem Manifest.canonicalJson_injective : Function.Injective Manifest.canonicalJson := by
  intro m n h
  have htree := congrArg Manifest.fromJson (Json.compact_injective h)
  rw [Manifest.fromJson_toJson, Manifest.fromJson_toJson] at htree
  exact Option.some.inj htree

end Patwari
