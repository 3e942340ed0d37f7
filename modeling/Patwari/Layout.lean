/-
# Patwari.Layout — how an artifact is cut into chunks.

What keeps the arithmetic of the chunk layout in bounds is spread over the program: validating the
configuration bounds the chunk size and ties the artifact limit to it, normalization bounds each
artifact and both totals, and the layout itself rejects what needs too many chunks. §1 is the
configuration with its validation, §2 the columns these bounds leave room for, §3 the chunks of one
artifact: they are the pieces of `Patwari.Lib.Tiling`.
-/
import Patwari.Lib.Tiling
import Patwari.Normalization

namespace Patwari

open Lib (pieceCount pieceLength)

variable {c : Crates}

/-! ## §1 — A valid configuration. -/

inductive ConfigError where
  | emptyDataDir
  | invalidRequestBodyLimit
  | invalidConcurrencyLimit
  | invalidDownloadConcurrencyLimit
  | invalidRequestTimeout
  | invalidChunkSize
  | chunkExceedsRequestBody
  | invalidStoredArtifactLimit
  | invalidOriginalArtifactLimit
  | invalidArtifactCountLimit
  | invalidStoredSnapshotLimit
  | invalidOriginalSnapshotLimit
  | tooManyChunks
  | invalidUploadExpiry
  | invalidBlobGcGrace
  | invalidIntegrityScanConcurrency
  | invalidIntegrityScanBuffer
  deriving DecidableEq

/-- The configuration with what only the process around the requests reads. -/
structure ServerConfig extends Config where
  dataDir : String
  maxConcurrency : ℕ
  maxDownloadConcurrency : ℕ
  requestTimeout : Duration
  integrityScanConcurrency : ℕ
  integrityScanBufferBytes : ℕ

namespace ConfigBound

def minRequestBodyBytes : ℕ := 1024
def maxRequestBodyBytes : ℕ := 64 * 1024 * 1024
def maxConcurrency : ℕ := 256
def maxDownloadConcurrency : ℕ := 64
def maxRequestTimeout : Duration := .fromMins 5
def minChunkSizeBytes : ℕ := 1024
def maxChunkSizeBytes : ℕ := 32 * 1024 * 1024
def maxArtifactBytes : ℕ := 8 * 1024 * 1024 * 1024
def maxArtifactCount : ℕ := 1024
def maxSnapshotBytes : ℕ := 64 * 1024 * 1024 * 1024
def minUploadExpiry : Duration := .fromMins 1
def maxUploadExpiry : Duration := .fromHours 720
def minBlobGcGrace : Duration := .fromMins 1
def maxBlobGcGrace : Duration := .fromHours (365 * 24)
def maxIntegrityScanConcurrency : ℕ := 32
def minIntegrityScanBufferBytes : ℕ := 4 * 1024
def maxIntegrityScanBufferBytes : ℕ := 1024 * 1024

end ConfigBound

/-- `max_stored_bytes_for_chunk_size`, with the overflow check of `u64` multiplication. -/
def maxStoredBytesForChunkSize (chunkSizeBytes : ℕ) : Except ConfigError ℕ :=
  if chunkSizeBytes * maxChunkCount < 2 ^ 64 then pure (chunkSizeBytes * maxChunkCount)
  else throw .tooManyChunks

def ServerConfig.validate (config : ServerConfig) : Except ConfigError Unit := do
  if config.dataDir = "" then throw .emptyDataDir
  if ¬ (ConfigBound.minRequestBodyBytes ≤ config.maxRequestBodyBytes ∧
      config.maxRequestBodyBytes ≤ ConfigBound.maxRequestBodyBytes) then
    throw .invalidRequestBodyLimit
  if ¬ (1 ≤ config.maxConcurrency ∧ config.maxConcurrency ≤ ConfigBound.maxConcurrency) then
    throw .invalidConcurrencyLimit
  if ¬ (1 ≤ config.maxDownloadConcurrency ∧
      config.maxDownloadConcurrency ≤ ConfigBound.maxDownloadConcurrency) then
    throw .invalidDownloadConcurrencyLimit
  if config.requestTimeout.isZero = true ∨
      ConfigBound.maxRequestTimeout < config.requestTimeout then
    throw .invalidRequestTimeout
  if ¬ (ConfigBound.minChunkSizeBytes ≤ config.chunkSizeBytes ∧
      config.chunkSizeBytes ≤ ConfigBound.maxChunkSizeBytes) then
    throw .invalidChunkSize
  if config.maxRequestBodyBytes < config.chunkSizeBytes then throw .chunkExceedsRequestBody
  if config.maxArtifactStoredBytes = 0 ∨
      ConfigBound.maxArtifactBytes < config.maxArtifactStoredBytes then
    throw .invalidStoredArtifactLimit
  if config.maxArtifactOriginalBytes = 0 ∨
      ConfigBound.maxArtifactBytes < config.maxArtifactOriginalBytes then
    throw .invalidOriginalArtifactLimit
  if ¬ (1 ≤ config.maxArtifactCount ∧ config.maxArtifactCount ≤ ConfigBound.maxArtifactCount) then
    throw .invalidArtifactCountLimit
  if config.maxSnapshotStoredBytes = 0 ∨
      ConfigBound.maxSnapshotBytes < config.maxSnapshotStoredBytes then
    throw .invalidStoredSnapshotLimit
  if config.maxSnapshotOriginalBytes = 0 ∨
      ConfigBound.maxSnapshotBytes < config.maxSnapshotOriginalBytes then
    throw .invalidOriginalSnapshotLimit
  let maximum ← maxStoredBytesForChunkSize config.chunkSizeBytes
  if maximum < config.maxArtifactStoredBytes then throw .tooManyChunks
  if config.uploadExpiry < ConfigBound.minUploadExpiry ∨
      ConfigBound.maxUploadExpiry < config.uploadExpiry then
    throw .invalidUploadExpiry
  if config.blobGcGrace < ConfigBound.minBlobGcGrace ∨
      ConfigBound.maxBlobGcGrace < config.blobGcGrace then throw .invalidBlobGcGrace
  if ¬ (1 ≤ config.integrityScanConcurrency ∧
      config.integrityScanConcurrency ≤ ConfigBound.maxIntegrityScanConcurrency) then
    throw .invalidIntegrityScanConcurrency
  if ¬ (ConfigBound.minIntegrityScanBufferBytes ≤ config.integrityScanBufferBytes ∧
      config.integrityScanBufferBytes ≤ ConfigBound.maxIntegrityScanBufferBytes) then
    throw .invalidIntegrityScanBuffer
  pure ()

/-- `Config::default`. -/
def defaultConfig : ServerConfig where
  archiveInstanceId := sampleUuid 255
  dataDir := "data"
  maxRequestBodyBytes := 32 * 1024 * 1024
  maxConcurrency := 64
  maxDownloadConcurrency := 8
  requestTimeout := .fromSecs 30
  chunkSizeBytes := 4 * 1024 * 1024
  maxArtifactStoredBytes := 1024 * 1024 * 1024
  maxArtifactOriginalBytes := 4 * 1024 * 1024 * 1024
  maxArtifactCount := 128
  maxSnapshotStoredBytes := 4 * 1024 * 1024 * 1024
  maxSnapshotOriginalBytes := 16 * 1024 * 1024 * 1024
  uploadExpiry := .fromHours 24
  adminDeletionEnabled := false
  blobGcGrace := .fromHours (90 * 24)
  integrityScanConcurrency := 4
  integrityScanBufferBytes := 64 * 1024

/-- The defaults pass their own check. -/
theorem defaultConfig_valid : defaultConfig.validate = .ok () := by
  simp [ServerConfig.validate, maxStoredBytesForChunkSize, maxChunkCount, defaultConfig,
    Duration.lt_iff, Duration.isZero, Duration.fromMins, Duration.fromHours, Duration.fromSecs,
    Duration.asNanos,
    ConfigBound.minRequestBodyBytes, ConfigBound.maxRequestBodyBytes, ConfigBound.maxConcurrency,
    ConfigBound.maxDownloadConcurrency, ConfigBound.maxRequestTimeout,
    ConfigBound.minChunkSizeBytes, ConfigBound.maxChunkSizeBytes, ConfigBound.maxArtifactBytes,
    ConfigBound.maxArtifactCount, ConfigBound.maxSnapshotBytes, ConfigBound.minUploadExpiry,
    ConfigBound.maxUploadExpiry, ConfigBound.minBlobGcGrace,
    ConfigBound.maxBlobGcGrace, ConfigBound.maxIntegrityScanConcurrency,
    ConfigBound.minIntegrityScanBufferBytes, ConfigBound.maxIntegrityScanBufferBytes]

/-- The bounds of a valid configuration that the layout rests on. -/
structure Config.Bounded (cfg : Config) : Prop where
  body : cfg.maxRequestBodyBytes ≤ ConfigBound.maxRequestBodyBytes
  chunkSize : ConfigBound.minChunkSizeBytes ≤ cfg.chunkSizeBytes ∧
    cfg.chunkSizeBytes ≤ ConfigBound.maxChunkSizeBytes
  chunkBody : cfg.chunkSizeBytes ≤ cfg.maxRequestBodyBytes
  artifactCount : cfg.maxArtifactCount ≤ ConfigBound.maxArtifactCount
  artifactStored : cfg.maxArtifactStoredBytes ≤ cfg.chunkSizeBytes * maxChunkCount
  snapshotStored : cfg.maxSnapshotStoredBytes ≤ ConfigBound.maxSnapshotBytes
  snapshotOriginal : cfg.maxSnapshotOriginalBytes ≤ ConfigBound.maxSnapshotBytes

theorem ServerConfig.bounded {config : ServerConfig} (h : config.validate = .ok ()) :
    config.toConfig.Bounded := by
  unfold ServerConfig.validate maxStoredBytesForChunkSize at h
  simp only [throw_bind, ite_throw_eq_ok, not_not, not_or, not_lt] at h
  obtain ⟨-, hbody, -, -, -, hchunk, hchunkBody, -, -, hcount, hsnapshotStored, hsnapshotOriginal,
    h⟩ := h
  rw [bind_eq_ok] at h
  obtain ⟨maximum, hmaximum, h⟩ := h
  simp only [ite_throw_eq_ok, not_lt] at h
  have hstored : config.maxArtifactStoredBytes ≤ config.chunkSizeBytes * maxChunkCount := by
    split_ifs at hmaximum
    rw [pure_eq_ok] at hmaximum
    exact hmaximum ▸ h.1
  exact ⟨hbody.2, hchunk, hchunkBody, hcount.2, hstored, hsnapshotStored.2, hsnapshotOriginal.2⟩

/-! ## §2 — Room in the columns. -/

/-- What an accepted manifest declares stays within the limits it was accepted under. -/
structure Manifest.Within (cfg : Config) (m : Manifest) : Prop where
  nonempty : m.artifacts ≠ []
  count : m.artifacts.length ≤ cfg.maxArtifactCount
  stored : ∀ a ∈ m.artifacts, a.storedSizeBytes.toNat ≤ cfg.maxArtifactStoredBytes
  columns : ∀ a ∈ m.artifacts, a.originalSizeBytes.toNat ≤ maxSqliteI64 ∧
    a.storedSizeBytes.toNat ≤ maxSqliteI64
  originalTotal : originalTotal m.artifacts ≤ cfg.maxSnapshotOriginalBytes
  storedTotal : storedTotal m.artifacts ≤ cfg.maxSnapshotStoredBytes

theorem Manifest.within {cfg : Config} {input : ManifestInput} {m : Manifest}
    (h : normalizeManifest c input cfg.manifestLimits = .ok m) : m.Within cfg := by
  obtain ⟨artifacts, -, hrules, rfl⟩ := normalizeManifest_ok.mp h
  have hperm := sortByPath_perm artifacts
  have hadmissible := hrules.admissible.perm hperm.symm
  have hnonempty : sortByPath artifacts ≠ [] :=
    fun hnil => hrules.count.1 (hnil ▸ hperm).nil_eq.symm
  exact
    { nonempty := hnonempty
      count := hperm.length_eq ▸ hrules.count.2
      stored := fun a ha => (hadmissible.each a ha).storedSize.1
      columns := fun a ha => ⟨(hadmissible.each a ha).originalSize.2,
        (hadmissible.each a ha).storedSize.2⟩
      originalTotal := hadmissible.originalTotal.1
      storedTotal := hadmissible.storedTotal.1 }

/-- The number of chunks of an artifact that fits. -/
theorem chunkCount_ok {cfg : Config} (hcfg : cfg.Bounded) {size : ℕ}
    (h : size ≤ cfg.maxArtifactStoredBytes) :
    chunkCount size cfg.chunkSizeBytes = .ok (pieceCount size cfg.chunkSizeBytes) ∧
      pieceCount size cfg.chunkSizeBytes ≤ maxChunkCount := by
  have hpos : 0 < cfg.chunkSizeBytes := lt_of_lt_of_le (by decide) hcfg.chunkSize.1
  have hsize : size ≤ maxChunkCount * cfg.chunkSizeBytes := by
    rw [mul_comm]
    exact h.trans hcfg.artifactStored
  have hcount := Lib.pieceCount_le hpos hsize
  refine ⟨?_, hcount⟩
  unfold chunkCount
  rw [if_neg hpos.ne']
  show (if maxChunkCount < pieceCount size cfg.chunkSizeBytes then _ else _) = _
  rw [if_neg (not_lt.mpr hcount)]
  rfl

/-- The additions over a list of sizes whose sum is in bounds. -/
theorem manifestTotals_ok {m : Manifest} (horiginal : originalTotal m.artifacts < 2 ^ 64)
    (hstored : storedTotal m.artifacts < 2 ^ 64) :
    manifestTotals m = .ok (originalTotal m.artifacts, storedTotal m.artifacts) := by
  unfold manifestTotals
  suffices hgen : ∀ (artifacts : List Artifact) (original stored : ℕ),
      original + originalTotal artifacts < 2 ^ 64 → stored + storedTotal artifacts < 2 ^ 64 →
      artifacts.foldlM (fun totals artifact => do
        let original ← checkedAdd totals.1 artifact.originalSizeBytes.toNat
          "snapshot original size is invalid"
        let stored ← checkedAdd totals.2 artifact.storedSizeBytes.toNat
          "snapshot stored size is invalid"
        pure (original, stored)) (original, stored) =
        (.ok (original + originalTotal artifacts, stored + storedTotal artifacts) :
          Except ApiError (ℕ × ℕ)) by
    simpa using hgen m.artifacts 0 0 (by simpa using horiginal) (by simpa using hstored)
  intro artifacts
  induction artifacts with
  | nil =>
    intro original stored _ _
    rfl
  | cons a rest ih =>
    intro original stored ho hs
    have hconsO : originalTotal (a :: rest) = a.originalSizeBytes.toNat + originalTotal rest := rfl
    have hconsS : storedTotal (a :: rest) = a.storedSizeBytes.toNat + storedTotal rest := rfl
    rw [hconsO, ← add_assoc] at ho ⊢
    rw [hconsS, ← add_assoc] at hs ⊢
    rw [List.foldlM_cons]
    have hfirst : checkedAdd original a.originalSizeBytes.toNat
      "snapshot original size is invalid" =
        .ok (original + a.originalSizeBytes.toNat) := checkedAdd_ok.mpr ⟨by omega, rfl⟩
    have hsecond : checkedAdd stored a.storedSizeBytes.toNat "snapshot stored size is invalid" =
        .ok (stored + a.storedSizeBytes.toNat) := checkedAdd_ok.mpr ⟨by omega, rfl⟩
    simp only [hfirst, hsecond]
    exact ih _ _ ho hs

/-- The loop over the chunk counts adds up without overflow: it counts the chunks of every artifact
or finds that the bound on all of them is passed. -/
theorem layoutChunkCounts_ok {cfg : Config} (hcfg : cfg.Bounded) {artifacts : List Artifact}
    (h : ∀ a ∈ artifacts, a.storedSizeBytes.toNat ≤ cfg.maxArtifactStoredBytes) {total : ℕ}
    (htotal : total ≤ maxSnapshotChunkCount) :
    layoutChunkCounts cfg.chunkSizeBytes artifacts total =
        .ok (artifacts.map fun a => pieceCount a.storedSizeBytes.toNat cfg.chunkSizeBytes) ∨
      layoutChunkCounts cfg.chunkSizeBytes artifacts total =
        .error (.invalid "snapshot requires more chunks than the bounded upload limit") := by
  induction artifacts generalizing total with
  | nil => exact Or.inl rfl
  | cons a rest ih =>
    obtain ⟨hcount, hle⟩ := chunkCount_ok hcfg (h a List.mem_cons_self)
    have hbounds : maxSnapshotChunkCount + maxChunkCount < 2 ^ 64 := by decide
    have hadd : checkedAdd total (pieceCount a.storedSizeBytes.toNat cfg.chunkSizeBytes)
        "snapshot chunk count is invalid" =
        .ok (total + pieceCount a.storedSizeBytes.toNat cfg.chunkSizeBytes) :=
      checkedAdd_ok.mpr ⟨by omega, rfl⟩
    have hstep : layoutChunkCounts cfg.chunkSizeBytes (a :: rest) total =
        (if maxSnapshotChunkCount < total + pieceCount a.storedSizeBytes.toNat cfg.chunkSizeBytes
        then throw (.invalid "snapshot requires more chunks than the bounded upload limit")
        else do
          let counts ← layoutChunkCounts cfg.chunkSizeBytes rest
            (total + pieceCount a.storedSizeBytes.toNat cfg.chunkSizeBytes)
          pure (pieceCount a.storedSizeBytes.toNat cfg.chunkSizeBytes :: counts)) := by
      show (do
        let count ← chunkCount a.storedSizeBytes.toNat cfg.chunkSizeBytes
        let total ← checkedAdd total count "snapshot chunk count is invalid"
        if maxSnapshotChunkCount < total then
          throw (.invalid "snapshot requires more chunks than the bounded upload limit")
        let counts ← layoutChunkCounts cfg.chunkSizeBytes rest total
        pure (count :: counts) : Except ApiError (List ℕ)) = _
      simp only [hcount]
      show (do
        let total ← checkedAdd total _ "snapshot chunk count is invalid"
        if maxSnapshotChunkCount < total then
          throw (.invalid "snapshot requires more chunks than the bounded upload limit")
        let counts ← layoutChunkCounts cfg.chunkSizeBytes rest total
        pure (_ :: counts) : Except ApiError (List ℕ)) = _
      simp only [hadd]
      rfl
    rw [hstep]
    split_ifs with hmore
    · exact Or.inr rfl
    · rcases ih (fun x hx => h x (List.mem_cons_of_mem _ hx)) (not_lt.mp hmore) with hrest | hrest
      · rw [hrest]
        exact Or.inl rfl
      · rw [hrest]
        exact Or.inr rfl

theorem toSqliteI64_total {n : ℕ} (h : n ≤ maxSqliteI64) : toSqliteI64 n = .ok (n : ℤ) := by
  unfold toSqliteI64
  rw [if_pos h]
  rfl

/-- The row of an artifact fits its columns. -/
theorem uploadArtifactRow_total {artifact : Artifact} {count : ℕ}
    (hsizes : artifact.originalSizeBytes.toNat ≤ maxSqliteI64 ∧
      artifact.storedSizeBytes.toNat ≤ maxSqliteI64) (hcount : count ≤ maxChunkCount)
    (uploadId : String) (index : ℕ) :
    uploadArtifactRow uploadId index artifact count =
      .ok ⟨uploadId, index, artifact.logicalPath, artifact.mediaType,
        artifact.originalSizeBytes.toNat, digestStorageValue artifact.originalSha256,
        artifact.storedSizeBytes.toNat, digestStorageValue artifact.storedSha256,
        artifact.compression, count⟩ := by
  have hbound : maxChunkCount ≤ maxSqliteI64 := by decide
  unfold uploadArtifactRow
  simp only [toSqliteI64_total hsizes.1, toSqliteI64_total hsizes.2,
    toSqliteI64_total (hcount.trans hbound)]
  rfl

/-- So do the rows of all artifacts. -/
theorem uploadArtifactRows_total (uploadId : String) {pairs : List (Artifact × ℕ)}
    (h : ∀ pair ∈ pairs, (pair.1.originalSizeBytes.toNat ≤ maxSqliteI64 ∧
      pair.1.storedSizeBytes.toNat ≤ maxSqliteI64) ∧ pair.2 ≤ maxChunkCount) (index : ℕ) :
    ∃ rows, uploadArtifactRows uploadId pairs index = .ok rows ∧ rows.length = pairs.length := by
  induction pairs generalizing index with
  | nil => exact ⟨[], rfl, rfl⟩
  | cons pair rest ih =>
    obtain ⟨artifact, count⟩ := pair
    obtain ⟨hsizes, hcount⟩ := h _ List.mem_cons_self
    obtain ⟨rows, hrows, hlength⟩ := ih (fun x hx => h x (List.mem_cons_of_mem _ hx)) (index + 1)
    obtain ⟨row, hrow⟩ : ∃ row, uploadArtifactRow uploadId index artifact count = .ok row :=
      ⟨_, uploadArtifactRow_total hsizes hcount uploadId index⟩
    refine ⟨row :: rows, ?_, congrArg Nat.succ hlength⟩
    unfold uploadArtifactRows
    rw [hrow, hrows]
    rfl

/-- The row of an upload fits its columns. -/
theorem newUploadRow_total {cfg : Config} (hcfg : cfg.Bounded) {new : NewUpload}
    (hwithin : new.manifest.Within cfg)
    (hcounts : new.layout.chunkCounts =
      new.manifest.artifacts.map fun a => pieceCount a.storedSizeBytes.toNat cfg.chunkSizeBytes)
    (htotals : new.layout.totalOriginalBytes = originalTotal new.manifest.artifacts ∧
      new.layout.totalStoredBytes = storedTotal new.manifest.artifacts) (sessionId : String) :
    ∃ row, newUploadRow c cfg new sessionId = .ok row ∧
      row.chunkSizeBytes = cfg.chunkSizeBytes := by
  obtain ⟨first, rest, hartifacts⟩ := List.exists_cons_of_ne_nil hwithin.nonempty
  have hmem : first ∈ new.manifest.artifacts := by
    rw [hartifacts]
    exact List.mem_cons_self
  have hfirst : new.manifest.artifacts.head? = some first := by
    rw [hartifacts]
    rfl
  have hfirstCount : (new.manifest.artifacts.map fun a =>
      pieceCount a.storedSizeBytes.toNat cfg.chunkSizeBytes).head? =
      some (pieceCount first.storedSizeBytes.toNat cfg.chunkSizeBytes) := by
    rw [hartifacts]
    rfl
  have hcolumns := hwithin.columns first hmem
  have hcount := (chunkCount_ok hcfg (hwithin.stored first hmem)).2
  have hbounds : ConfigBound.maxChunkSizeBytes ≤ maxSqliteI64 ∧ maxChunkCount ≤ maxSqliteI64 ∧
      ConfigBound.maxArtifactCount ≤ maxSqliteI64 ∧ ConfigBound.maxSnapshotBytes ≤
        maxSqliteI64 := by
    decide
  have hchunk := toSqliteI64_total (hcfg.chunkSize.2.trans hbounds.1)
  have hartifactCount := toSqliteI64_total
    ((hwithin.count.trans hcfg.artifactCount).trans hbounds.2.2.1)
  have hstored := toSqliteI64_total
    ((hwithin.storedTotal.trans hcfg.snapshotStored).trans hbounds.2.2.2)
  have horiginal := toSqliteI64_total
    ((hwithin.originalTotal.trans hcfg.snapshotOriginal).trans hbounds.2.2.2)
  unfold newUploadRow
  rw [hcounts, htotals.1, htotals.2]
  simp only [hfirst, hfirstCount, okOr_some, ok_bind, hchunk,
    toSqliteI64_total (hcount.trans hbounds.2.1), toSqliteI64_total hcolumns.1,
    toSqliteI64_total hcolumns.2, hartifactCount, hstored, horiginal]
  exact ⟨_, rfl, rfl⟩

/-- A manifest within the limits has a layout, one number of chunks an artifact, unless there are
too many chunks. -/
theorem uploadLayout_within {cfg : Config} (hcfg : cfg.Bounded) {m : Manifest} (h : m.Within cfg) :
    uploadLayout m cfg.chunkSizeBytes = .ok ⟨m.artifacts.map fun a =>
        pieceCount a.storedSizeBytes.toNat cfg.chunkSizeBytes, originalTotal m.artifacts,
        storedTotal m.artifacts⟩ ∨
      uploadLayout m cfg.chunkSizeBytes =
        .error (.invalid "snapshot requires more chunks than the bounded upload limit") := by
  have hbound : ConfigBound.maxSnapshotBytes < 2 ^ 64 := by decide
  have htotals : manifestTotals m = .ok (originalTotal m.artifacts, storedTotal m.artifacts) :=
    manifestTotals_ok ((h.originalTotal.trans hcfg.snapshotOriginal).trans_lt hbound)
      ((h.storedTotal.trans hcfg.snapshotStored).trans_lt hbound)
  have hlayout : uploadLayout m cfg.chunkSizeBytes = (do
      let counts ← layoutChunkCounts cfg.chunkSizeBytes m.artifacts 0
      pure ⟨counts, originalTotal m.artifacts, storedTotal m.artifacts⟩) := by
    unfold uploadLayout
    rw [htotals]
    rfl
  rw [hlayout]
  rcases layoutChunkCounts_ok hcfg h.stored (Nat.zero_le maxSnapshotChunkCount) with hcounts |
    hcounts
  · left
    rw [hcounts]
    rfl
  · right
    rw [hcounts]
    rfl

/-- A new upload whose layout was found fits the columns of its rows. -/
theorem newUpload_fits {cfg : Config} (hcfg : cfg.Bounded) {new : NewUpload}
    (hwithin : new.manifest.Within cfg)
    (hlayout : uploadLayout new.manifest cfg.chunkSizeBytes = .ok new.layout) :
    (∀ sessionId, ∃ row, newUploadRow c cfg new sessionId = .ok row ∧
      row.chunkSizeBytes = cfg.chunkSizeBytes) ∧
    ∃ rows, uploadArtifactRows new.uploadId (new.manifest.artifacts.zip new.layout.chunkCounts) 0 =
      .ok rows ∧ rows.length = new.manifest.artifacts.length := by
  have hfound : (⟨new.manifest.artifacts.map fun a =>
      pieceCount a.storedSizeBytes.toNat cfg.chunkSizeBytes, originalTotal new.manifest.artifacts,
      storedTotal new.manifest.artifacts⟩ : UploadLayout) = new.layout := by
    rcases uploadLayout_within hcfg hwithin with h | h <;> rw [hlayout] at h
    · exact (Except.ok.inj h).symm
    · contradiction
  refine ⟨fun sessionId => newUploadRow_total hcfg hwithin ?_ ?_ sessionId, ?_⟩
  · rw [← hfound]
  · rw [← hfound]
    exact ⟨rfl, rfl⟩
  · rw [← hfound]
    have hfit : ∀ pair ∈ new.manifest.artifacts.zip (new.manifest.artifacts.map fun a =>
        pieceCount a.storedSizeBytes.toNat cfg.chunkSizeBytes),
        (pair.1.originalSizeBytes.toNat ≤ maxSqliteI64 ∧
          pair.1.storedSizeBytes.toNat ≤ maxSqliteI64) ∧ pair.2 ≤ maxChunkCount := by
      rintro ⟨a, count⟩ hpair
      obtain ⟨ha, hcount⟩ := List.of_mem_zip hpair
      obtain ⟨b, hb, rfl⟩ := List.mem_map.mp hcount
      exact ⟨hwithin.columns a ha, (chunkCount_ok hcfg (hwithin.stored b hb)).2⟩
    obtain ⟨rows, hrows, hlength⟩ := uploadArtifactRows_total new.uploadId hfit 0
    refine ⟨rows, hrows, ?_⟩
    rw [hlength, List.length_zip, List.length_map, min_self]

/-! ## §3 — The chunks of an artifact. -/

/-- The error of a chunk number an artifact does not have. -/
def chunkOutsideRange : ApiError := .invalid "chunk index is outside the negotiated artifact range"

/-- The length of a chunk is the length of its piece, and its start is in range. -/
theorem expectedChunkLength_ok {upload : UploadRow} {row : UploadArtifactRow} {size chunkSize : ℕ}
    (hpos : 0 < chunkSize) (hsize : size < 2 ^ 64) (hchunk : upload.chunkSizeBytes = chunkSize)
    (hstored : row.storedSizeBytes = size) (hcount : row.chunkCount = pieceCount size chunkSize)
    {k : ℕ} (hk : k < pieceCount size chunkSize) :
    expectedChunkLength upload row k = .ok (pieceLength size chunkSize k) := by
  have hstart := (Lib.lt_pieceCount hpos).mp hk
  unfold expectedChunkLength
  rw [hcount, hchunk, hstored, Lib.pieceLength_eq hpos hk]
  have hcolumn : ∀ n : ℕ, unsignedColumn (n : ℤ) = .ok n := by
    intro n
    unfold unsignedColumn
    rw [if_pos (Int.natCast_nonneg n), Int.toNat_natCast]
    rfl
  simp only [hcolumn]
  show (if pieceCount size chunkSize ≤ k then _ else _) = _
  rw [if_neg (not_le.mpr hk)]
  show (if 2 ^ 64 ≤ k * chunkSize then _ else _) = _
  rw [if_neg (by omega)]
  show (if k + 1 = pieceCount size chunkSize then
    if k * chunkSize ≤ size then _ else _ else _) = _
  split_ifs
  · rfl
  · omega
  · rfl

theorem expectedChunkLength_beyond {upload : UploadRow} {row : UploadArtifactRow} {count k : ℕ}
    (hcount : row.chunkCount = count) (hk : count ≤ k) :
    expectedChunkLength upload row k = .error chunkOutsideRange := by
  unfold expectedChunkLength unsignedColumn
  rw [hcount, if_pos (Int.natCast_nonneg count), Int.toNat_natCast]
  show (if count ≤ k then _ else _) = _
  rw [if_pos hk]
  rfl

/-- The chunks of an artifact of `size` bytes, as an upload with chunks of `chunkSize` bytes is
asked for them: as many as the row says, each with a length it is asked for and a start that is in
range, each starting where those before it end, all of them together the artifact, and none beyond.
-/
def Tiles (row : UploadArtifactRow) (size chunkSize : ℕ) : Prop :=
  ∃ (count : ℕ) (length : ℕ → ℕ), row.chunkCount = count ∧ count ≤ maxChunkCount ∧
    (∀ upload : UploadRow, upload.chunkSizeBytes = chunkSize →
      (∀ k < count, expectedChunkLength upload row k = .ok (length k)) ∧
      ∀ k, count ≤ k → expectedChunkLength upload row k = .error chunkOutsideRange) ∧
    (∀ k < count, 1 ≤ length k ∧ length k ≤ chunkSize ∧ k * chunkSize < 2 ^ 64 ∧
      ∑ j ∈ Finset.range k, length j = k * chunkSize) ∧
    ∑ j ∈ Finset.range count, length j = size

/-- **`chunkLayout_tiles`** — under a valid configuration the chunks of an accepted manifest tile
its artifacts. Every artifact within the limit has a number of chunks, at most `maxChunkCount`; the
layout of the whole manifest overflows nowhere, it is found or has too many chunks; its rows fit
their columns; and each artifact is tiled by chunks a request can carry. -/
theorem chunkLayout_tiles (c : Crates) (config : ServerConfig) (hconfig : config.validate = .ok ())
    (input : ManifestInput) (manifest : Manifest)
    (h : normalizeManifest c input config.manifestLimits = .ok manifest) :
    (∀ size ≤ config.maxArtifactStoredBytes, ∃ count ≤ maxChunkCount,
      chunkCount size config.chunkSizeBytes = .ok count) ∧
    ((∃ layout, uploadLayout manifest config.chunkSizeBytes = .ok layout) ∨
      uploadLayout manifest config.chunkSizeBytes =
        .error (.invalid "snapshot requires more chunks than the bounded upload limit")) ∧
    (∀ new : NewUpload, new.manifest = manifest →
      uploadLayout manifest config.chunkSizeBytes = .ok new.layout →
      (∀ sessionId, ∃ row, newUploadRow c config.toConfig new sessionId = .ok row ∧
        row.chunkSizeBytes = config.chunkSizeBytes) ∧
      ∃ rows, uploadArtifactRows new.uploadId (manifest.artifacts.zip new.layout.chunkCounts) 0 =
        .ok rows ∧ rows.length = manifest.artifacts.length) ∧
    config.chunkSizeBytes ≤ config.maxRequestBodyBytes ∧
    ∀ artifact ∈ manifest.artifacts, ∃ count,
      chunkCount artifact.storedSizeBytes.toNat config.chunkSizeBytes = .ok count ∧
      ∀ uploadId index, ∃ row, uploadArtifactRow uploadId index artifact count = .ok row ∧
        Tiles row artifact.storedSizeBytes.toNat config.chunkSizeBytes := by
  have hcfg := ServerConfig.bounded hconfig
  have hwithin : manifest.Within config.toConfig := Manifest.within h
  have hpos : 0 < config.chunkSizeBytes := lt_of_lt_of_le (by decide) hcfg.chunkSize.1
  refine ⟨fun size hsize => ?_, ?_, ?_, hcfg.chunkBody, fun artifact hartifact => ?_⟩
  · obtain ⟨hcount, hle⟩ := chunkCount_ok hcfg hsize
    exact ⟨_, hle, hcount⟩
  · exact (uploadLayout_within hcfg hwithin).imp_left fun hlayout => ⟨_, hlayout⟩
  · rintro new rfl hnew
    exact newUpload_fits hcfg hwithin hnew
  · obtain ⟨hcount, hle⟩ := chunkCount_ok hcfg (hwithin.stored artifact hartifact)
    have hcolumns := hwithin.columns artifact hartifact
    refine ⟨_, hcount, fun uploadId index =>
      ⟨_, uploadArtifactRow_total hcolumns hle uploadId index,
      pieceCount artifact.storedSizeBytes.toNat config.chunkSizeBytes,
      pieceLength artifact.storedSizeBytes.toNat config.chunkSizeBytes, rfl, hle, ?_, ?_,
      Lib.sum_pieceLength_all hpos _⟩⟩
    · intro upload hchunk
      refine ⟨fun k hk => ?_, fun k hk => expectedChunkLength_beyond rfl hk⟩
      exact expectedChunkLength_ok hpos artifact.storedSizeBytes.toNat_lt hchunk rfl rfl hk
    · intro k hk
      have hstart := (Lib.lt_pieceCount hpos).mp hk
      have hsize : artifact.storedSizeBytes.toNat < 2 ^ 64 := artifact.storedSizeBytes.toNat_lt
      exact ⟨Lib.pieceLength_pos hpos hk, Lib.pieceLength_le _ _ _, by omega,
        Lib.sum_pieceLength_start hpos hk⟩

/-- A manifest of one artifact of 5,000,000 bytes. -/
def sampleLargeManifest : ManifestInput :=
  { sampleManifest with
    artifacts := some [⟨"notes.txt", none, 5000000, "sha256:" ++ emptyDigest, 5000000,
      "sha256:" ++ emptyDigest, .identity⟩] }

/-- Two chunks of the default size tile it. -/
theorem chunkLayout_tiles_sample :
    ∃ count, chunkCount 5000000 defaultConfig.chunkSizeBytes = .ok count ∧
      ∀ uploadId index, ∃ row, uploadArtifactRow uploadId index ⟨"notes.txt", none, 5000000,
          "sha256:" ++ emptyDigest, 5000000, "sha256:" ++ emptyDigest, .identity⟩ count = .ok row ∧
        Tiles row 5000000 defaultConfig.chunkSizeBytes :=
  (chunkLayout_tiles (Crates.sample []) defaultConfig defaultConfig_valid sampleLargeManifest
    ⟨1, sampleManifest.session, sampleManifest.capture, [⟨"notes.txt", none, 5000000,
      "sha256:" ++ emptyDigest, 5000000, "sha256:" ++ emptyDigest, .identity⟩]⟩
    (by rfl)).2.2.2.2 _ List.mem_cons_self

end Patwari
