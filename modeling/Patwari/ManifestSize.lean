/-
# Patwari.ManifestSize — the request limit as a limit of the scan.

A request body may have as many bytes as the limit allows, and a scan refuses to read a stored
manifest longer than the same limit. The two measure different texts: what the client spelled, and
what the server wrote out again, without the envelope of the request and with every optional field
the client left out. §1 adds up the bytes of the text the server writes from the fields of the
request, §2 shows what a scan makes of it, §3 is a body within the limit whose manifest is not.
-/
import Patwari.Lib.JsonSize
import Patwari.Layout

namespace Patwari

open Lib (Json StringMap)
open Lib.Json (textSize natSize size sizeElems sizeFields)

variable {c : Crates} {cfg : Config}

/-! ## §1 — The bytes of a canonical manifest. -/

/-- An optional field is written out, if only as `null`. -/
def optionSize : Option String → ℕ
  | none => 4
  | some text => textSize text

def metadataSize (metadata : StringMap String) : ℕ :=
  if metadata.entries = [] then 2
  else 1 + (metadata.entries.map fun e => textSize e.1 + textSize e.2 + 2).sum

/-- The bytes of an artifact: 126 for its field names and punctuation, 73 for each digest. -/
def Artifact.canonicalSize (a : Artifact) : ℕ :=
  126 + textSize a.logicalPath + optionSize a.mediaType + natSize a.originalSizeBytes.toNat + 73 +
    natSize a.storedSizeBytes.toNat + 73 + textSize (compressionName a.compression)

/-- The bytes of a capture without its field names. -/
def Capture.valuesSize (capture : Capture) : ℕ :=
  textSize capture.capturedAt + optionSize capture.sourceCursor +
    optionSize capture.sourceStateHash + metadataSize capture.sourceMetadata +
    optionSize capture.project + optionSize capture.repository + optionSize capture.branch +
    optionSize capture.sourceAgentVersion + natSize capture.artifactSetVersion.toNat +
    optionSize capture.munshiVersion

/-- **`ManifestInput.canonicalSize`** — the bytes a request's manifest takes when it is written out:
266 for field names and punctuation, the values, and the artifacts each with a comma or the closing
bracket. -/
def ManifestInput.canonicalSize (c : Crates) (input : ManifestInput) : ℕ :=
  266 + natSize input.schemaVersion.toNat + textSize input.session.sourceAgent +
    textSize input.session.sourceSessionId + (canonicalCapture c input.capture).valuesSize + 1 +
    ((input.declared.getD []).map fun a => a.canonicalSize + 1).sum

theorem size_optionJson (text : Option String) : size (optionJson text) = optionSize text := by
  cases text <;> rfl

theorem sizeFields_texts (entries : List (String × String)) :
    sizeFields (entries.map fun e => (e.1, Json.str e.2)) =
      1 + (entries.map fun e => textSize e.1 + textSize e.2 + 2).sum := by
  induction entries with
  | nil => rfl
  | cons e rest ih =>
    show textSize e.1 + textSize e.2 + sizeFields (rest.map fun e => (e.1, Json.str e.2)) + 2 = _
    rw [ih, List.map_cons, List.sum_cons]
    omega

theorem size_stringMapJson (metadata : StringMap String) :
    size (stringMapJson metadata) = metadataSize metadata := by
  unfold stringMapJson metadataSize
  cases metadata.entries with
  | nil => rfl
  | cons e rest =>
    rw [if_neg (List.cons_ne_nil e rest)]
    show textSize e.1 + textSize e.2 + sizeFields (rest.map fun e => (e.1, Json.str e.2)) + 2 = _
    rw [sizeFields_texts, List.map_cons, List.sum_cons]
    omega

theorem sizeElems_map {α : Type} (write : α → Json) (l : List α) :
    sizeElems (l.map write) = 1 + (l.map fun a => size (write a) + 1).sum := by
  induction l with
  | nil => rfl
  | cons a rest ih =>
    show size (write a) + sizeElems (rest.map write) + 1 = _
    rw [ih, List.map_cons, List.sum_cons]
    omega

theorem size_arr_map {α : Type} (write : α → Json) {l : List α} (h : l ≠ []) :
    size (.arr (l.map write)) = 1 + (l.map fun a => size (write a) + 1).sum := by
  cases l with
  | nil => exact absurd rfl h
  | cons a rest =>
    show size (write a) + sizeElems (rest.map write) + 1 = _
    rw [sizeElems_map, List.map_cons, List.sum_cons]
    omega

theorem toList_of_stripPrefix {pre s rest : String} (h : stripPrefix pre s = some rest) :
    s.toList = pre.toList ++ rest.toList := by
  unfold stripPrefix at h
  split_ifs at h with hprefix
  obtain ⟨suffix, hsuffix⟩ := List.isPrefixOf_iff_prefix.mp hprefix
  obtain rfl := Option.some.inj h
  rw [String.toList_ofList, ← hsuffix, List.drop_left, ← Lib.chars_eq s, ← hsuffix, Lib.chars_eq]

/-- The text of a digest is its algorithm and 64 digits, none of them escaped. -/
theorem DocumentDigest.textSize_eq {value : String} (h : DocumentDigest value) :
    textSize value = 73 := by
  obtain ⟨hex, hstrip, hbytes, hlower⟩ := h
  have hplain (ch : Char) (hch : ch ∈ hex.toList) : Json.PlainChar ch :=
    lowerHex_plain (hlower ch hch)
  have hlength : hex.toList.length = 64 := by
    have hascii := Json.utf8Len_ascii fun ch hch => (hplain ch hch).2.1.trans (by omega)
    rw [← String.utf8ByteSize_ofList, String.ofList_toList, hbytes] at hascii
    exact hascii.symm
  have hvalue := toList_of_stripPrefix hstrip
  have hsha : (("sha256:".toList).map Json.charSize).sum = 7 := by decide
  unfold textSize
  rw [hvalue, List.map_append, List.sum_append, hsha, Json.sum_charSize_plain hplain, hlength]

theorem Artifact.size_toJson {a : Artifact} (horiginal : DocumentDigest a.originalSha256)
    (hstored : DocumentDigest a.storedSha256) : size a.toJson = a.canonicalSize := by
  have hnames : textSize "logical_path" = 14 ∧ textSize "media_type" = 12 ∧
      textSize "original_size_bytes" = 21 ∧ textSize "original_sha256" = 17 ∧
      textSize "stored_size_bytes" = 19 ∧ textSize "stored_sha256" = 15 ∧
      textSize "compression" = 13 := by decide
  unfold Artifact.toJson Artifact.canonicalSize
  simp only [size, sizeFields, size_optionJson, horiginal.textSize_eq, hstored.textSize_eq,
    Json.intSize_natCast]
  omega

theorem SessionInput.size_toJson (session : SessionInput) : size session.toJson =
    38 + textSize session.sourceAgent + textSize session.sourceSessionId := by
  have hnames : textSize "source_agent" = 14 ∧ textSize "source_session_id" = 19 := by
    decide
  unfold SessionInput.toJson
  simp only [size, sizeFields]
  omega

theorem Capture.size_toJson (capture : Capture) : size capture.toJson =
    174 + capture.valuesSize := by
  have hnames : textSize "captured_at" = 13 ∧ textSize "source_cursor" = 15 ∧
      textSize "source_state_hash" = 19 ∧ textSize "source_metadata" = 17 ∧
      textSize "project" = 9 ∧ textSize "repository" = 12 ∧ textSize "branch" = 8 ∧
      textSize "source_agent_version" = 22 ∧ textSize "artifact_set_version" = 22 ∧
      textSize "munshi_version" = 16 := by decide
  unfold Capture.toJson Capture.valuesSize
  simp only [size, sizeFields, size_optionJson, size_stringMapJson, Json.intSize_natCast]
  omega

/-- The document an accepted manifest is stored as has the bytes its request says. -/
theorem utf8ByteSize_canonicalJson {limits : ManifestLimits} {input : ManifestInput}
    {manifest : Manifest} (h : normalizeManifest c input limits = .ok manifest) :
    manifest.canonicalJson.utf8ByteSize = input.canonicalSize c := by
  obtain ⟨artifacts, hdeclared, hrules, rfl⟩ := normalizeManifest_ok.mp h
  have hperm := sortByPath_perm artifacts
  have hnonempty : sortByPath artifacts ≠ [] := fun hnil =>
    hrules.count.1 (hnil ▸ hperm).nil_eq.symm
  have hartifacts : size (.arr ((sortByPath artifacts).map Artifact.toJson)) =
      1 + (artifacts.map fun a => a.canonicalSize + 1).sum := by
    have hsizes : artifacts.map (fun a => size a.toJson + 1) =
        artifacts.map fun a => a.canonicalSize + 1 := by
      refine List.map_congr_left fun a ha => ?_
      have haccepted := hrules.admissible.each a ha
      rw [Artifact.size_toJson haccepted.originalSha256 haccepted.storedSha256]
    rw [size_arr_map Artifact.toJson hnonempty, (hperm.map _).sum_eq, hsizes]
  have hnames : textSize "schema_version" = 16 ∧ textSize "session" = 9 ∧ textSize "capture" = 9 ∧
      textSize "artifacts" = 11 := by decide
  rw [Manifest.canonicalJson, Json.utf8ByteSize_compact]
  unfold Manifest.toJson ManifestInput.canonicalSize
  simp only [size, sizeFields, Json.intSize_natCast, SessionInput.size_toJson, Capture.size_toJson,
    hartifacts, hdeclared, Option.getD_some]
  omega

/-! ## §2 — What a scan makes of it. -/

/-- The part of `scan_snapshot` before it looks at the manifest. -/
def recordTombstoned (c : Crates) (r : ScanRecorder) (row : SnapshotScanRow) : Scan ScanRecorder :=
  if ¬ row.deleted then pure r
  else if row.tombstoned then
    r.record c (snapshotFinding .tombstonedSnapshot .info row.id "snapshot_tombstoned")
  else r.record c (snapshotFinding .tombstonedSnapshot .error row.id "tombstone_record_missing")

/-- The part of `scan_snapshot` that reads a manifest within the limit. -/
def scanWithinLimit (c : Crates) (cfg : Config) (r : ScanRecorder) (row : SnapshotScanRow) :
    Scan ScanRecorder := do
  match ← scanQuery r (·.manifestDocument row.id cfg.maxRequestBodyBytes) with
  | none =>
    r.record c (snapshotFinding .transientChange .info row.id "snapshot_changed_during_scan")
  | some document => scanDocument c cfg r row document

/-- **`manifestSize_exact`** — the canonical JSON of an accepted manifest is within the request
limit exactly when the fields of its request add up to no more, and a scan under the same
configuration reports the snapshot as exceeding its limit exactly otherwise. -/
theorem manifestSize_exact (c : Crates) (cfg : Config) (request : CreateUploadRequest)
    (manifest : Manifest)
    (h : normalizeManifest c request.manifest cfg.manifestLimits = .ok manifest) :
    (manifest.canonicalJson.utf8ByteSize ≤ cfg.maxRequestBodyBytes ↔
      request.manifest.canonicalSize c ≤ cfg.maxRequestBodyBytes) ∧
    ∀ (r : ScanRecorder) (row : SnapshotScanRow) (stored : ManifestRow),
      row.manifest = some stored → stored.canonicalJson = manifest.canonicalJson →
      scanSnapshot c cfg r row = recordTombstoned c r row >>= fun r =>
        if request.manifest.canonicalSize c ≤ cfg.maxRequestBodyBytes then
          scanWithinLimit c cfg r row
        else
          r.record c (snapshotFinding .manifestUnparseable .error row.id
            "canonical_manifest_exceeds_scan_limit") := by
  have hsize := utf8ByteSize_canonicalJson h
  refine ⟨by rw [hsize], fun r row stored hrow hstored => ?_⟩
  have hlong : (cfg.maxRequestBodyBytes < stored.canonicalJson.utf8ByteSize) ↔
      ¬ request.manifest.canonicalSize c ≤ cfg.maxRequestBodyBytes := by
    rw [hstored, hsize, not_le]
  unfold scanSnapshot recordTombstoned scanWithinLimit
  rw [hrow]
  by_cases hfits : request.manifest.canonicalSize c ≤ cfg.maxRequestBodyBytes
  · simp only [if_pos hfits, if_neg (hlong.not.mpr (not_not_intro hfits))]
    split_ifs <;> rfl
  · simp only [if_neg hfits, if_pos (hlong.mpr hfits)]
    split_ifs <;> rfl

/-- The sample manifest is within the default limit. -/
theorem manifestSize_exact_sample : ∃ manifest,
    normalizeManifest (Crates.sample []) sampleManifest defaultConfig.manifestLimits =
      .ok manifest ∧
    manifest.canonicalJson.utf8ByteSize ≤ defaultConfig.maxRequestBodyBytes := by
  have haccepted : normalizeManifest (Crates.sample []) sampleManifest
      defaultConfig.manifestLimits = .ok ⟨1, sampleManifest.session, sampleManifest.capture,
        sampleManifest.artifacts.getD []⟩ := rfl
  refine ⟨_, haccepted, ((manifestSize_exact (Crates.sample []) defaultConfig.toConfig
    ⟨sampleUuid 1, some "capture", none, sampleManifest⟩ _ haccepted).1).mpr ?_⟩
  decide +kernel

/-! ## §3 — A sparse request. -/

/-- `CreateUploadRequest` as the derived deserializer reads it. -/
def CreateUploadRequest.fromJson (j : Json) : Option CreateUploadRequest := do
  match ← j.structFields [("client_id", false), ("capture_id", true), ("idempotency_key", true),
      ("manifest", false)] with
  | [some clientId, captureId, idempotencyKey, some manifest] =>
    some
      { clientId := ← clientId.asString
        captureId := ← Json.asOption Json.asString captureId
        idempotencyKey := ← Json.asOption Json.asString idempotencyKey
        manifest := ← ManifestInput.fromJson manifest }
  | _ => none

/-- The least request limit. -/
def tightConfig : ServerConfig :=
  { defaultConfig with
    maxRequestBodyBytes := 1024, chunkSizeBytes := 1024, maxArtifactStoredBytes := 1024 }

/-- A session identifier of 460 letters. -/
def longSessionId : String := String.ofList (List.replicate 460 's')

/-- A request that leaves out every field it may. -/
def sparseRequest : Json :=
  .obj
    [("client_id", .str "00000000-0000-0000-0000-000000000001"), ("capture_id", .str "capture"),
      ("manifest", .obj
        [("schema_version", .num 1),
          ("session", .obj [("source_agent", .str "agent"),
            ("source_session_id", .str longSessionId)]),
          ("capture", .obj [("captured_at", .str "2026-01-01T00:00:00Z"),
            ("artifact_set_version", .num 1)]),
          ("artifacts", .arr [.obj
            [("logical_path", .str "notes.txt"), ("original_size_bytes", .num 0),
              ("original_sha256", .str ("sha256:" ++ emptyDigest)), ("stored_size_bytes", .num 0),
              ("stored_sha256", .str ("sha256:" ++ emptyDigest)),
              ("compression", .str "identity")]])])]

/-- The manifest it declares. -/
def sparseManifest : ManifestInput :=
  { sampleManifest with session := ⟨"agent", longSessionId⟩ }

/-- What is said of this text is proved for any text of its kind: evaluated, it is long. -/
theorem textSize_ofList {cs : List Char} (h : ∀ ch ∈ cs, Json.PlainChar ch) :
    textSize (String.ofList cs) = cs.length + 2 := by
  unfold textSize
  rw [String.toList_ofList, Json.sum_charSize_plain h]

theorem plain_replicate (n : ℕ) : ∀ ch ∈ List.replicate n 's', Json.PlainChar ch := by
  intro ch hch
  obtain rfl := List.eq_of_mem_replicate hch
  decide

theorem plainText_ofList {cs : List Char} {maximum : ℕ} (h : ∀ ch ∈ cs, ch.toNat < 128)
    (hcontrol : ∀ ch ∈ cs, isAsciiControl ch = false) (hlength : cs.length ≤ maximum) :
    PlainText maximum (String.ofList cs) := by
  constructor
  · rw [String.utf8ByteSize_ofList, Json.utf8Len_ascii h]
    exact hlength
  · rw [String.toList_ofList]
    exact hcontrol

theorem textSize_longSessionId : textSize longSessionId = 462 := by
  have hsize := textSize_ofList (plain_replicate 460)
  rw [List.length_replicate] at hsize
  exact hsize

theorem plainText_replicate {n maximum : ℕ} (h : n ≤ maximum) :
    PlainText maximum (String.ofList (List.replicate n 's')) := by
  refine plainText_ofList (fun ch hch => ?_) (fun ch hch => ?_) ?_
  · obtain rfl := List.eq_of_mem_replicate hch
    decide
  · obtain rfl := List.eq_of_mem_replicate hch
    decide
  · rwa [List.length_replicate]

theorem longSessionId_ne : longSessionId ≠ "" := by
  intro hempty
  have hsize := textSize_longSessionId
  rw [hempty] at hsize
  exact absurd hsize (by decide)

theorem validate_longSessionId (message : String) :
    validateNonemptyText longSessionId maxSourceSessionIdBytes message = .ok () :=
  validateNonemptyText_ok.mpr ⟨longSessionId_ne, plainText_replicate (by decide)⟩

theorem sparseManifest_accepted : normalizeManifest (Crates.sample []) sparseManifest
    tightConfig.manifestLimits =
      .ok ⟨1, sparseManifest.session, sparseManifest.capture, sparseManifest.artifacts.getD
        []⟩ := by
  unfold normalizeManifest
  have hagent : validateNonemptyText sparseManifest.session.sourceAgent maxSourceAgentBytes
      "source agent is invalid" = .ok () := by decide
  have hsession : validateNonemptyText sparseManifest.session.sourceSessionId
      maxSourceSessionIdBytes "source session identifier is invalid" = .ok () :=
    validate_longSessionId _
  rw [hagent, hsession]
  rfl

theorem size_sparse {sessionId digest : String} (hsession : textSize sessionId = 462)
    (hdigest : textSize digest = 73) :
    size (.obj
      [("client_id", .str "00000000-0000-0000-0000-000000000001"), ("capture_id", .str "capture"),
        ("manifest", .obj
          [("schema_version", .num 1),
            ("session", .obj [("source_agent", .str "agent"),
              ("source_session_id", .str sessionId)]),
            ("capture", .obj [("captured_at", .str "2026-01-01T00:00:00Z"),
              ("artifact_set_version", .num 1)]),
            ("artifacts", .arr [.obj
              [("logical_path", .str "notes.txt"), ("original_size_bytes", .num 0),
                ("original_sha256", .str digest), ("stored_size_bytes", .num 0),
                ("stored_sha256", .str digest), ("compression", .str "identity")]])])]) ≤ 1024 := by
  simp only [size, sizeFields, sizeElems, hsession, hdigest]
  decide

theorem canonicalSize_sparse {sessionId : String} (hsession : textSize sessionId = 462) :
    1024 < ManifestInput.canonicalSize (Crates.sample [])
      { sampleManifest with session := ⟨"agent", sessionId⟩ } := by
  have hfixed : 1024 < 266 + natSize sampleManifest.schemaVersion.toNat + textSize "agent" + 462 +
      (canonicalCapture (Crates.sample []) sampleManifest.capture).valuesSize + 1 +
      ((sampleManifest.declared.getD []).map fun a => a.canonicalSize + 1).sum := by decide
  unfold ManifestInput.canonicalSize
  rw [hsession]
  exact hfixed

/-- The request fits the limit and is accepted, and the manifest stored for it exceeds the limit. -/
theorem manifestSize_sparse : tightConfig.validate = .ok () ∧
    (jsonToVec sparseRequest).length ≤ tightConfig.maxRequestBodyBytes ∧
    ((Crates.sample []).jsonFromSlice (jsonToVec sparseRequest)).bind CreateUploadRequest.fromJson =
      some ⟨"00000000-0000-0000-0000-000000000001", some "capture", none, sparseManifest⟩ ∧
    ∃ manifest, normalizeManifest (Crates.sample []) sparseManifest tightConfig.manifestLimits =
        .ok manifest ∧
      uploadLayout manifest tightConfig.chunkSizeBytes = .ok ⟨[0], 0, 0⟩ ∧
      tightConfig.maxRequestBodyBytes < manifest.canonicalJson.utf8ByteSize := by
  have hbody : (jsonToVec sparseRequest).length = size sparseRequest := by
    rw [jsonToVec, length_utf8, Json.utf8ByteSize_compact]
  refine ⟨by decide +kernel, ?_, ?_, _, sparseManifest_accepted, ?_, ?_⟩
  · have hdigest : textSize ("sha256:" ++ emptyDigest) = 73 := by decide +kernel
    exact hbody.trans_le (size_sparse textSize_longSessionId hdigest)
  · rw [Crates.sample_jsonFromSlice, Option.bind_some]
    generalize hsession : longSessionId = sessionId
    unfold sparseRequest sparseManifest
    rw [hsession]
    rfl
  · rfl
  · rw [utf8ByteSize_canonicalJson sparseManifest_accepted]
    exact canonicalSize_sparse textSize_longSessionId

end Patwari
