/-
# Patwari.Verification — the gate a completion passes before it promotes anything.

Between the manifest a client declared and a verified file stand four checks: the rows of the upload
against the manifest, the accepted chunks against their layout, every chunk file against its row,
and the assembled bytes and what they decode to against the declaration. §1 is the source's loops
read by read: however a file is cut into reads, they compute what the model computes of its bytes.
§2 says what each pure check accepts. §3 is what the gate may assume of the tasks beside it, §4
follows the gate over one artifact and over all of them, §5 puts them together: the gate lets
through exactly what is complete and intact, and leaves no file where it does not.
-/
import Patwari.Lib.Beside
import Patwari.Layout
import Patwari.CompletionSafety

namespace Patwari

open Lib (Prog TaskId System Discipline pieceCount pieceLength)
open Lib.Discipline
open Lib.Prog (Immediate ImmediateE KeepsE)

variable {c : Crates}

/-! ## §1 — Reading in pieces. -/

/-- `COPY_BUFFER_BYTES`: the most one read returns. -/
def copyBufferBytes : ℕ := 64 * 1024

/-- What a reader returns, read after read, until it returns nothing. -/
structure Reads (bytes : Bytes) where
  pieces : List Bytes
  nonempty : ∀ piece ∈ pieces, piece ≠ []
  bounded : ∀ piece ∈ pieces, piece.length ≤ copyBufferBytes
  whole : pieces.flatten = bytes

/-- The loop of `hash_reader`, with the size and the bytes hashed so far. -/
def hashReads (c : Crates) (maximumSize : ℕ) : List Bytes → ℕ → Bytes → Except ApiError (ℕ × String)
  | [], total, hashed => pure (total, c.sha256Hex hashed)
  | read :: rest, total, hashed => do
    let total ← checkedAdd total read.length "artifact size is invalid"
    if maximumSize < total then throw (.invalid "artifact size exceeds its declared bound")
    hashReads c maximumSize rest total (hashed ++ read)

/-- The loop of `assemble_artifact` over one chunk file, with the sizes and the bytes of the chunk
and of the artifact so far. The bytes of the artifact are also those written. -/
def copyReads (expectedLength storedSize : ℕ) :
    List Bytes → ℕ → Bytes → ℕ → Bytes → Except ApiError (Bytes × Bytes)
  | [], _, chunk, _, copied => pure (chunk, copied)
  | read :: rest, chunkSize, chunk, artifactSize, copied => do
    let chunkSize ← checkedAdd chunkSize read.length "chunk size is invalid"
    if expectedLength < chunkSize then throw chunkChecksumError
    let artifactSize ← checkedAdd artifactSize read.length "artifact size is invalid"
    if storedSize < artifactSize then
      throw (storedChecksumError "assembled artifact exceeds its declared stored size")
    copyReads expectedLength storedSize rest chunkSize (chunk ++ read) artifactSize (copied ++ read)

theorem checkedAdd_total {a b : ℕ} {message : String} (h : a + b < 2 ^ 64) :
    checkedAdd a b message = .ok (a + b) := checkedAdd_ok.mpr ⟨h, rfl⟩

/-- However a file is cut into reads, the loop of `hash_reader` finds its size and digest, or stops
where the bound is passed. -/
theorem hashReads_eq {bytes : Bytes} (reads : Reads bytes) {maximumSize : ℕ}
    (hmaximum : maximumSize ≤ maxSqliteI64) :
    hashReads c maximumSize reads.pieces 0 [] = hashReader c bytes maximumSize := by
  obtain ⟨pieces, -, hbounded, rfl⟩ := reads
  suffices hgen : ∀ (pieces : List Bytes) (hashed : Bytes),
      (∀ piece ∈ pieces, piece.length ≤ copyBufferBytes) → hashed.length ≤ maximumSize →
      hashReads c maximumSize pieces hashed.length hashed =
        hashReader c (hashed ++ pieces.flatten) maximumSize from
    hgen pieces [] hbounded (Nat.zero_le _)
  intro pieces
  induction pieces with
  | nil =>
    intro hashed _ hsize
    rw [hashReads, hashReader, List.flatten_nil, List.append_nil, if_neg (not_lt.mpr hsize)]
  | cons read rest ih =>
    intro hashed hpieces hsize
    have hread := hpieces read List.mem_cons_self
    have hroom : maxSqliteI64 + copyBufferBytes < 2 ^ 64 := by decide
    rw [hashReads, checkedAdd_total (by omega), ok_bind]
    by_cases hlong : maximumSize < hashed.length + read.length
    · -- the bound is passed here, and no later read brings the size back under it
      have hall : maximumSize < (hashed ++ (read :: rest).flatten).length := by
        rw [List.flatten_cons, List.length_append, List.length_append]
        omega
      rw [if_pos hlong, hashReader, if_pos hall]
      rfl
    · rw [if_neg hlong, List.flatten_cons, ← List.append_assoc, ← List.length_append]
      refine ih (hashed ++ read) (fun piece h => hpieces piece (List.mem_cons_of_mem _ h)) ?_
      rw [List.length_append]
      exact not_lt.mp hlong

/-- However a chunk file is cut into reads, the copying loop appends its bytes, or stops where the
chunk grows past the length of its row. The layout leaves room for every chunk, so the artifact is
never the first to grow too long. -/
theorem copyReads_eq {bytes : Bytes} (reads : Reads bytes) {expectedLength storedSize : ℕ}
    {copied : Bytes} (hstored : storedSize ≤ maxSqliteI64)
    (hroom : copied.length + expectedLength ≤ storedSize) :
    copyReads expectedLength storedSize reads.pieces 0 [] copied.length copied =
      if expectedLength < bytes.length then throw chunkChecksumError
      else pure (bytes, copied ++ bytes) := by
  obtain ⟨pieces, -, hbounded, rfl⟩ := reads
  suffices hgen : ∀ (pieces : List Bytes) (chunk : Bytes),
      (∀ piece ∈ pieces, piece.length ≤ copyBufferBytes) → chunk.length ≤ expectedLength →
      copyReads expectedLength storedSize pieces chunk.length chunk (copied ++ chunk).length
        (copied ++ chunk) =
        if expectedLength < (chunk ++ pieces.flatten).length then throw chunkChecksumError
        else pure (chunk ++ pieces.flatten, copied ++ (chunk ++ pieces.flatten)) by
    simpa using hgen pieces [] hbounded (Nat.zero_le _)
  intro pieces
  induction pieces with
  | nil =>
    intro chunk _ hsize
    rw [copyReads, List.flatten_nil, List.append_nil, if_neg (not_lt.mpr hsize)]
  | cons read rest ih =>
    intro chunk hpieces hsize
    have hread := hpieces read List.mem_cons_self
    have hfit : maxSqliteI64 + copyBufferBytes < 2 ^ 64 := by decide
    rw [copyReads, checkedAdd_total (by omega), ok_bind]
    by_cases hlong : expectedLength < chunk.length + read.length
    · have hall : expectedLength < (chunk ++ (read :: rest).flatten).length := by
        rw [List.flatten_cons, List.length_append, List.length_append]
        omega
      rw [if_pos hlong, if_pos hall]
      rfl
    · have hwritten : (copied ++ chunk).length + read.length ≤ storedSize := by
        rw [List.length_append]
        omega
      rw [if_neg hlong, checkedAdd_total (by omega), ok_bind, if_neg (not_lt.mpr hwritten),
        List.flatten_cons, ← List.append_assoc, ← List.length_append, ← List.length_append,
        List.append_assoc copied]
      refine ih (chunk ++ read) (fun piece h => hpieces piece (List.mem_cons_of_mem _ h)) ?_
      rw [List.length_append]
      exact not_lt.mp hlong

/-! ## §2 — What the checks accept. -/

/-- A SHA-256 digest is written as 64 lowercase hexadecimal digits. -/
def Crates.HexDigests (c : Crates) : Prop :=
  ∀ bytes, (c.sha256Hex bytes).utf8ByteSize = 64 ∧
    ∀ ch ∈ (c.sha256Hex bytes).toList, lowerHex ch = some ch

/-- A digest that is stored as it is written has no algorithm prefix to lose. -/
theorem digestDocumentValue_of_hex {hex : String} (hlower : ∀ ch ∈ hex.toList, lowerHex ch =
    some ch) :
    digestDocumentValue hex = "sha256:" ++ hex := by
  have hbare : stripPrefix "sha256:" hex = none := by
    rw [stripPrefix, Lib.chars_eq, Lib.chars_eq, if_neg]
    intro hprefix
    -- no digest starts with an s
    have hs : 's' ∈ hex.toList :=
      (List.isPrefixOf_iff_prefix.mp hprefix).subset (by decide)
    exact absurd (hlower 's' hs) (by decide)
  rw [digestDocumentValue, digestStorageValue, hbare, Option.getD_none]

theorem DocumentDigest.of_hex {hex : String} (hsize : hex.utf8ByteSize = 64)
    (hlower : ∀ ch ∈ hex.toList, lowerHex ch = some ch) :
    DocumentDigest (digestDocumentValue hex) := by
  refine ⟨hex, ?_, hsize, hlower⟩
  rw [digestDocumentValue_of_hex hlower, stripPrefix, Lib.chars_eq, Lib.chars_eq,
    String.toList_append,
    if_pos (List.isPrefixOf_iff_prefix.mpr (List.prefix_append _ _)), List.drop_left,
    String.ofList_toList]

/-- The row of an artifact is the one creating the upload writes for it. -/
def IsProjection (chunkSize index : ℕ) (artifact : Artifact) (row : UploadArtifactRow) : Prop :=
  ∃ count, chunkCount artifact.storedSizeBytes.toNat chunkSize = .ok count ∧
    uploadArtifactRow row.uploadId index artifact count = .ok row

/-- **`ProjectsTo manifest rows upload`** — the rows of an upload are its manifest's projection: as
many as the upload's row counts, each the row of its artifact. -/
def ProjectsTo (manifest : Manifest) (rows : List UploadArtifactRow) (upload : UploadRow) : Prop :=
  rows.length = manifest.artifacts.length ∧ upload.artifactCount = manifest.artifacts.length ∧
    0 ≤ upload.chunkSizeBytes ∧ ∀ (k : ℕ) (artifact : Artifact) (row : UploadArtifactRow),
      manifest.artifacts[k]? = some artifact → rows[k]? = some row →
        IsProjection upload.chunkSizeBytes.toNat k artifact row

theorem toSqliteI64_eq_ok {n : ℕ} {value : ℤ} :
    toSqliteI64 n = .ok value ↔ n ≤ maxSqliteI64 ∧ (n : ℤ) = value := by
  unfold toSqliteI64
  by_cases h : n ≤ maxSqliteI64
  · rw [if_pos h, pure_eq_ok, and_iff_right h]
  · rw [if_neg h, throw_eq_ok, false_iff]
    exact fun hfit => h hfit.1

theorem unsignedColumn_eq_ok {value : ℤ} {n : ℕ} :
    unsignedColumn value = .ok n ↔ value = n := by
  refine ⟨unsignedColumn_ok, ?_⟩
  rintro rfl
  rw [unsignedColumn, if_pos (Int.natCast_nonneg n), Int.toNat_natCast]
  rfl

/-- One row passes the projection check when it is the row of its artifact. -/
theorem validateProjectionRows_cons {chunkSize index : ℕ} {artifact : Artifact}
    {row : UploadArtifactRow} {rest : List (Artifact × UploadArtifactRow)} :
    validateProjectionRows chunkSize ((artifact, row) :: rest) index = .ok () ↔
      IsProjection chunkSize index artifact row ∧
        validateProjectionRows chunkSize rest (index + 1) = .ok () := by
  rw [validateProjectionRows]
  simp only [bind_eq_ok, throw_bind, ite_throw_eq_ok, not_or, not_not]
  constructor
  · rintro ⟨originalSize, ho, storedSize, hs, count, hcount, column, hcolumn, hrow, hrest⟩
    obtain ⟨hindex, hpath, hmedia, horiginal, horiginalSha, hstored, hstoredSha, hcompression,
      hchunks⟩ := hrow
    refine ⟨⟨count, hcount, ?_⟩, hrest⟩
    unfold uploadArtifactRow
    rw [ho, hs, hcolumn, ← hindex, ← hpath, ← hmedia, ← horiginal, ← horiginalSha, ← hstored,
      ← hstoredSha, ← hcompression, ← hchunks]
    rfl
  · rintro ⟨⟨count, hcount, hrow⟩, hrest⟩
    unfold uploadArtifactRow at hrow
    simp only [bind_eq_ok, pure_eq_ok] at hrow
    obtain ⟨originalSize, ho, storedSize, hs, column, hcolumn, hrow⟩ := hrow
    refine ⟨originalSize, ho, storedSize, hs, count, hcount, column, hcolumn, ?_, hrest⟩
    rw [← hrow]
    exact ⟨rfl, rfl, rfl, rfl, rfl, rfl, rfl, rfl, rfl⟩

theorem validateProjectionRows_iff {chunkSize : ℕ} {artifacts : List Artifact}
    {rows : List UploadArtifactRow} (hlength : artifacts.length = rows.length) (index : ℕ) :
    validateProjectionRows chunkSize (artifacts.zip rows) index = .ok () ↔
      ∀ (k : ℕ) (artifact : Artifact) (row : UploadArtifactRow),
        artifacts[k]? = some artifact → rows[k]? = some row →
          IsProjection chunkSize (index + k) artifact row := by
  induction artifacts generalizing rows index with
  | nil => simp [validateProjectionRows]
  | cons a artifacts ih =>
    have hpos : 0 < rows.length := by
      rw [← hlength]
      exact Nat.succ_pos _
    obtain ⟨r, rows, rfl⟩ := List.exists_cons_of_length_pos hpos
    have hrest : artifacts.length = rows.length := Nat.succ.inj hlength
    rw [List.zip_cons_cons, validateProjectionRows_cons, ih hrest]
    constructor
    · rintro ⟨hhead, htail⟩ k artifact row ha hr
      cases k with
      | zero =>
        obtain rfl : a = artifact := by simpa using ha
        obtain rfl : r = row := by simpa using hr
        exact hhead
      | succ k =>
        rw [← Nat.add_assoc, Nat.add_right_comm]
        exact htail k artifact row (by simpa using ha) (by simpa using hr)
    · refine fun h => ⟨h 0 a r rfl rfl, fun k artifact row ha hr => ?_⟩
      rw [Nat.add_assoc, Nat.add_comm 1]
      exact h (k + 1) artifact row (by simpa using ha) (by simpa using hr)

/-- `validate_upload_projection` accepts the projection of the manifest and nothing else. -/
theorem validateUploadProjection_iff {manifest : Manifest} {rows : List UploadArtifactRow}
    {upload : UploadRow} :
    validateUploadProjection manifest rows upload = .ok () ↔ ProjectsTo manifest rows upload := by
  unfold validateUploadProjection ProjectsTo
  simp only [throw_bind, ite_throw_eq_ok, bind_eq_ok, not_or, not_not, unsignedColumn_eq_ok]
  constructor
  · rintro ⟨⟨hlength, hcount⟩, chunkSize, hchunk, hrows⟩
    rw [validateProjectionRows_iff hlength] at hrows
    refine ⟨hlength.symm, by rw [← hcount, hlength], by omega, fun k artifact row ha hr => ?_⟩
    have hrow := hrows k artifact row ha hr
    rwa [Nat.zero_add, ← Int.toNat_natCast chunkSize, ← hchunk] at hrow
  · rintro ⟨hlength, hcount, hnonneg, hrows⟩
    refine ⟨⟨hlength.symm, by rw [hcount, hlength]⟩, upload.chunkSizeBytes.toNat, by omega, ?_⟩
    rw [validateProjectionRows_iff hlength.symm]
    intro k artifact row ha hr
    rw [Nat.zero_add]
    exact hrows k artifact row ha hr

/-- The accepted chunks of an artifact are all chunks of its layout, each once and in order. -/
def AllChunks (size chunkSize : ℕ) (chunks : List UploadChunkRow) : Prop :=
  chunks.map (fun r => (r.chunkIndex, r.byteLength)) =
    (List.range (pieceCount size chunkSize)).map fun k : ℕ =>
      ((k : ℤ), (pieceLength size chunkSize k : ℤ))

/-- An artifact that has its row, with chunks that are not empty and a size a column holds. -/
structure Laid (upload : UploadRow) (row : UploadArtifactRow) (size chunkSize : ℕ) : Prop where
  positive : 0 < chunkSize
  fits : size ≤ maxSqliteI64
  chunk : upload.chunkSizeBytes = chunkSize
  stored : row.storedSizeBytes = size
  count : row.chunkCount = pieceCount size chunkSize

theorem IsProjection.laid {upload : UploadRow} {k : ℕ} {artifact : Artifact}
    {row : UploadArtifactRow} (hnonneg : 0 ≤ upload.chunkSizeBytes)
    (h : IsProjection upload.chunkSizeBytes.toNat k artifact row) :
    Laid upload row artifact.storedSizeBytes.toNat upload.chunkSizeBytes.toNat := by
  obtain ⟨count, hcount, hrow⟩ := h
  unfold uploadArtifactRow at hrow
  simp only [bind_eq_ok, pure_eq_ok, toSqliteI64_eq_ok] at hrow
  obtain ⟨_, -, _, ⟨hsize, rfl⟩, _, ⟨-, rfl⟩, hrow⟩ := hrow
  have hstored := congrArg UploadArtifactRow.storedSizeBytes hrow
  have hchunks := congrArg UploadArtifactRow.chunkCount hrow
  have hzero : upload.chunkSizeBytes.toNat ≠ 0 := by
    intro hzero
    rw [chunkCount, if_pos hzero, throw_eq_ok] at hcount
    exact hcount
  rw [chunkCount, if_neg hzero, ite_throw_eq_ok, pure_eq_ok] at hcount
  obtain ⟨-, rfl⟩ := hcount
  exact ⟨Nat.pos_of_ne_zero hzero, hsize, (Int.toNat_of_nonneg hnonneg).symm, hstored.symm,
    hchunks.symm⟩

theorem IsProjection.artifactIndex {chunkSize k : ℕ} {artifact : Artifact}
    {row : UploadArtifactRow} (h : IsProjection chunkSize k artifact row) :
    row.artifactIndex = k := by
  obtain ⟨count, -, hrow⟩ := h
  unfold uploadArtifactRow at hrow
  simp only [bind_eq_ok, pure_eq_ok] at hrow
  obtain ⟨_, -, _, -, _, -, hrow⟩ := hrow
  exact (congrArg UploadArtifactRow.artifactIndex hrow).symm

/-- The row loop of `accepted_chunk_layout` accepts rows that are at their places, have the lengths
of the layout and digests that are digests. -/
theorem checkChunkRows_iff {upload : UploadRow} {row : UploadArtifactRow} {size chunkSize : ℕ}
    (hlaid : Laid upload row size chunkSize) (chunks : List UploadChunkRow) (index : ℕ)
    (hroom : index + chunks.length ≤ pieceCount size chunkSize) :
    checkChunkRows upload row chunks index = .ok () ↔
      ∀ (k : ℕ) (chunk : UploadChunkRow), chunks[k]? = some chunk →
        chunk.chunkIndex = (index + k : ℕ) ∧
          chunk.byteLength = pieceLength size chunkSize (index + k) ∧
          DocumentDigest (digestDocumentValue chunk.sha256) := by
  induction chunks generalizing index with
  | nil => simp [checkChunkRows]
  | cons chunk rest ih =>
    have hindex : index < pieceCount size chunkSize := by
      rw [List.length_cons] at hroom
      omega
    have hbound : maxSqliteI64 < 2 ^ 64 := by decide
    have hpiece : pieceLength size chunkSize index ≤ maxSqliteI64 := by
      have hsize := hlaid.fits
      unfold pieceLength
      omega
    have hexpected := expectedChunkLength_ok hlaid.positive (hlaid.fits.trans_lt hbound)
      hlaid.chunk hlaid.stored hlaid.count hindex
    have hrest : index + 1 + rest.length ≤ pieceCount size chunkSize := by
      rw [List.length_cons] at hroom
      omega
    have hstep : checkChunkRows upload row (chunk :: rest) index = .ok () ↔
        chunk.chunkIndex = index ∧ chunk.byteLength = pieceLength size chunkSize index ∧
          DocumentDigest (digestDocumentValue chunk.sha256) ∧
          checkChunkRows upload row rest (index + 1) = .ok () := by
      rw [checkChunkRows, hexpected]
      simp only [throw_bind, ite_throw_eq_ok, not_not, ok_bind, toSqliteI64_total hpiece,
        ← validateDigest_ok]
      refine and_congr_right fun _ => and_congr_right fun _ => ?_
      split
      · next e he => simp [he]
      · next hok => simp [hok]
    rw [hstep, ih _ hrest]
    constructor
    · rintro ⟨hplace, hlength, hdigest, htail⟩ k chunk' hk
      cases k with
      | zero =>
        obtain rfl : chunk = chunk' := by simpa using hk
        exact ⟨hplace, hlength, hdigest⟩
      | succ k =>
        have hnext := htail k chunk' (by simpa using hk)
        rwa [Nat.add_assoc, Nat.add_comm 1] at hnext
    · refine fun h => ⟨(h 0 chunk rfl).1, (h 0 chunk rfl).2.1, (h 0 chunk rfl).2.2, ?_⟩
      intro k chunk' hk
      rw [Nat.add_assoc, Nat.add_comm 1]
      exact h (k + 1) chunk' (by simpa using hk)

/-- The chunk rows a layout has room for, read off one by one. -/
theorem allChunks_iff {size chunkSize : ℕ} {chunks : List UploadChunkRow} :
    AllChunks size chunkSize chunks ↔ chunks.length = pieceCount size chunkSize ∧
      ∀ (k : ℕ) (chunk : UploadChunkRow), chunks[k]? = some chunk →
        chunk.chunkIndex = k ∧ chunk.byteLength = pieceLength size chunkSize k := by
  unfold AllChunks
  constructor
  · intro h
    have hlength := congrArg List.length h
    rw [List.length_map, List.length_map, List.length_range] at hlength
    refine ⟨hlength, fun k chunk hk => ?_⟩
    have hlt : k < pieceCount size chunkSize := by
      rw [← hlength]
      exact (List.getElem?_eq_some_iff.mp hk).1
    have hpair := congrArg (fun l => l[k]?) h
    simp only [List.getElem?_map, hk, Option.map_some, List.getElem?_range hlt, Option.some.injEq,
      Prod.mk.injEq] at hpair
    exact hpair
  · rintro ⟨hlength, hchunks⟩
    refine List.ext_getElem? fun k => ?_
    rw [List.getElem?_map, List.getElem?_map]
    rcases lt_or_ge k chunks.length with hlt | hge
    · obtain ⟨hindex, hbytes⟩ := hchunks k chunks[k] (List.getElem?_eq_getElem hlt)
      rw [List.getElem?_eq_getElem hlt, List.getElem?_range (hlength ▸ hlt), Option.map_some,
        Option.map_some, hindex, hbytes]
    · rw [List.getElem?_eq_none hge, List.getElem?_eq_none (by simpa [← hlength] using hge)]
      rfl

/-- What the stored bytes of an artifact must be: of the declared stored size and digest, with a
decoding of the declared original size and digest. -/
def Intact (c : Crates) (artifact : Artifact) (bytes : Bytes) : Prop :=
  bytes.length = artifact.storedSizeBytes.toNat ∧
    c.sha256Hex bytes = digestStorageValue artifact.storedSha256 ∧
    ∃ original, decode c artifact.compression bytes = .ok original ∧
      original.length = artifact.originalSizeBytes.toNat ∧
      c.sha256Hex original = digestStorageValue artifact.originalSha256

theorem hashReader_eq_ok {bytes : Bytes} {maximumSize size : ℕ} {digest : String} :
    hashReader c bytes maximumSize = .ok (size, digest) ↔
      bytes.length ≤ maximumSize ∧ bytes.length = size ∧ c.sha256Hex bytes = digest := by
  unfold hashReader
  rw [ite_throw_eq_ok, pure_eq_ok, not_lt, Prod.mk.injEq]

/-- `verify_artifact_blocking` accepts intact bytes and nothing else. -/
theorem verifyArtifactBytes_iff {artifact : Artifact} {bytes : Bytes} :
    verifyArtifactBytes c artifact bytes = .ok () ↔ Intact c artifact bytes := by
  unfold verifyArtifactBytes Intact
  simp only [bind_eq_ok, throw_bind, ite_throw_eq_ok, not_or, not_not, Prod.exists,
    hashReader_eq_ok]
  constructor
  · rintro ⟨_, _, ⟨-, rfl, rfl⟩, ⟨hsize, hdigest⟩, original, hdecoded, _, _, ⟨-, rfl, rfl⟩, h⟩
    exact ⟨hsize, hdigest, original, hdecoded, h.1⟩
  · rintro ⟨hsize, hdigest, original, hdecoded, horiginal, hsha⟩
    refine ⟨_, _, ⟨hsize.le, rfl, rfl⟩, ⟨hsize, hdigest⟩, original, hdecoded, _, _,
      ⟨horiginal.le, rfl, rfl⟩, ⟨horiginal, hsha⟩, rfl⟩

/-! ## §3 — The gate beside other tasks. -/

/-- The service while neither the operating system nor the database reports an error. -/
def faultless : System Label Env Shared :=
  { system with envOk := fun e s => system.envOk e s ∧ e.fault = none }

/-- What a task without the lock of an upload does to the upload: nothing. -/
structure LeavesUpload (uploadId : String) (s s' : Shared) : Prop where
  chunks : ∀ i, s'.db.chunksOf uploadId i = s.db.chunksOf uploadId i
  files : ∀ p : FilePath, p.upload? = some uploadId → s'.fs.lookup p = s.fs.lookup p
  issued : ∀ id ∈ s.issued, id ∈ s'.issued

/-- The directory of an upload is no file, and what was assembled in it has generated names. -/
structure UploadDirOk (uploadId : String) (s : Shared) : Prop where
  dir : s.fs.lookup (.uploadDir uploadId) = none ∨ s.fs.lookup (.uploadDir uploadId) = some .dir
  names : ∀ i uuid, s.fs.lookup (.assembledArtifact uploadId i uuid) ≠ none →
    uuid ∈ s.issued.map Prod.fst

/-- What holds at the gate from state `s₀` on: the chunks are those of `s₀`. -/
structure AtGate (uploadId : String) (s₀ s : Shared) : Prop extends UploadDirOk uploadId s where
  chunks : ∀ i, s.db.chunksOf uploadId i = s₀.db.chunksOf uploadId i
  files : ∀ i k, s.fs.lookup (.artifactChunk uploadId i k) =
    s₀.fs.lookup (.artifactChunk uploadId i k)

variable {u : String} {t : TaskId} {s₀ s : Shared}

theorem AtGate.leaves {s' : Shared} (h : AtGate u s₀ s) (hstep : LeavesUpload u s s') :
    AtGate u s₀ s' where
  dir := by
    rw [hstep.files _ rfl]
    exact h.dir
  names i uuid hthere := by
    rw [hstep.files _ rfl] at hthere
    obtain ⟨entry, hentry, hid⟩ := List.mem_map.mp (h.names i uuid hthere)
    exact List.mem_map.mpr ⟨entry, hstep.issued entry hentry, hid⟩
  chunks i := (hstep.chunks i).trans (h.chunks i)
  files i k := (hstep.files _ rfl).trans (h.files i k)

/-- The completion of task `t` at the gate, from state `s₀` on. -/
def gate (uploadId : String) (t : TaskId) (s₀ : Shared) : Discipline faultless where
  inv := AtGate uploadId s₀
  guar t' s s' := (t' = t → AtGate uploadId s₀ s') ∧ (t' ≠ t → LeavesUpload uploadId s s')
  detachOk _ := False
  inv_step {t' s s'} h hstep := by
    by_cases ht : t' = t
    · exact hstep.1 ht
    · exact h.leaves (hstep.2 ht)
  guar_cleanup {t' s} h _ := ⟨fun _ => h.leaves ⟨fun _ => rfl, fun _ _ => rfl, fun _ hid => hid⟩,
    fun _ => ⟨fun _ => rfl, fun _ _ => rfl, fun _ hid => hid⟩⟩

theorem gate_step {s' : Shared} (h : AtGate u s₀ s') : (gate u t s₀).guar t s s' :=
  ⟨fun _ => h, fun hne => absurd rfl hne⟩

/-- Other tasks leave the files of the upload alone. -/
theorem gate_stable {p : FilePath} (hp : p.upload? = some u) (node : Option Node) :
    (gate u t s₀).Stable t fun s => s.fs.lookup p = node :=
  fun _ _ _ hne _ hstep h => ((hstep.2 hne).files p hp).trans h

/-- The assembled files of the upload are those of `s₀`, except at the listed names, which were
free. -/
structure Scratch (uploadId : String) (s₀ : Shared) (names : List (ℕ × String)) (s : Shared) :
    Prop where
  free : ∀ i uuid, (i, uuid) ∈ names → s₀.fs.lookup (.assembledArtifact uploadId i uuid) = none
  files : ∀ i uuid, (i, uuid) ∈ names →
    s.fs.lookup (.assembledArtifact uploadId i uuid) ≠ some .dir
  others : ∀ i uuid, (i, uuid) ∉ names → s.fs.lookup (.assembledArtifact uploadId i uuid) =
    s₀.fs.lookup (.assembledArtifact uploadId i uuid)

theorem Scratch.stable (names : List (ℕ × String)) :
    (gate u t s₀).Stable t (Scratch u s₀ names) := by
  intro s s' t' hne _ hstep h
  have hsame : ∀ i uuid, s'.fs.lookup (.assembledArtifact u i uuid) =
      s.fs.lookup (.assembledArtifact u i uuid) := fun i uuid => (hstep.2 hne).files _ rfl
  refine ⟨h.free, fun i uuid hname => ?_, fun i uuid hname => ?_⟩
  · rw [hsame]
    exact h.files i uuid hname
  · rw [hsame]
    exact h.others i uuid hname

/-- Writing under a listed name, or anywhere else than under the upload's names. -/
theorem Scratch.write {names : List (ℕ × String)} {path : FilePath} {fs : FileStore}
    (h : Scratch u s₀ names s)
    (hpath : ∀ i uuid, path = .assembledArtifact u i uuid → (i, uuid) ∈ names)
    (hfile : fs.lookup path ≠ some .dir ∨ path.private? = none)
    (hfs : ∀ p, p ≠ path → fs.lookup p = s.fs.lookup p) :
    Scratch u s₀ names { s with fs := fs } where
  free := h.free
  files i uuid hname := by
    by_cases heq : path = .assembledArtifact u i uuid
    · subst heq
      exact hfile.resolve_right (by simp [FilePath.private?])
    · exact hfs _ (Ne.symm heq) ▸ h.files i uuid hname
  others i uuid hname :=
    (hfs _ fun heq => hname (hpath i uuid heq.symm)).trans (h.others i uuid hname)

section Actions

variable {κ κ' α β : Type} {P : Shared → Prop} {Q : α → Shared → Prop} {E : κ → Shared → Prop}

theorem gate_query {onFault : κ} {f : Db → Except κ α} (hP : (gate u t s₀).Stable t P) (hs : P s)
    (h : ∀ s', AtGate u s₀ s' → P s' → Discipline.outcome Q E (f s'.db) s') :
    (gate u t s₀).SafeE t (query onFault f) Q E s := by
  refine Safe.atomic hP hs (fun s' e hinv he _ hs' => ?_) fun _ hdetach => hdetach.elim
  simp only [he.2]
  exact ⟨gate_step hinv, h s' hinv hs'⟩

theorem gate_fileRead {onFault : κ} {f : FileStore → Except κ α} (hP : (gate u t s₀).Stable t P)
    (hs : P s) (h : ∀ s', AtGate u s₀ s' → P s' → Discipline.outcome Q E (f s'.fs) s') :
    (gate u t s₀).SafeE t (fileRead onFault f) Q E s := by
  refine Safe.atomic hP hs (fun s' e hinv he _ hs' => ?_) fun _ hdetach => hdetach.elim
  simp only [he.2]
  exact ⟨gate_step hinv, h s' hinv hs'⟩

/-- A file operation that succeeds. -/
theorem gate_fileOp {f : FileStore → Except IoError FileStore} {R : Shared → Prop}
    (hP : (gate u t s₀).Stable t P) (hs : P s)
    (h : ∀ s', AtGate u s₀ s' → P s' →
      ∃ fs, f s'.fs = .ok fs ∧ AtGate u s₀ { s' with fs := fs } ∧ R { s' with fs := fs }) :
    (gate u t s₀).Safe t (fileOp f) (fun r s => r = .ok () ∧ R s) s := by
  refine Safe.atomic hP hs (fun s' e hinv he _ hs' => ?_) fun _ hdetach => hdetach.elim
  obtain ⟨fs, hf, hgate, hR⟩ := h s' hinv hs'
  simp only [he.2, hf]
  exact ⟨gate_step hgate, trivial, hR⟩

/-- So does what follows it. -/
theorem gate_fileOp_bind {f : FileStore → Except IoError FileStore} {R : Shared → Prop} {e : κ}
    {g : Unit → Handler κ α} (hP : (gate u t s₀).Stable t P) (hinv : AtGate u s₀ s) (hs : P s)
    (h : ∀ s', AtGate u s₀ s' → P s' →
      ∃ fs, f s'.fs = .ok fs ∧ AtGate u s₀ { s' with fs := fs } ∧ R { s' with fs := fs })
    (hg : ∀ s', AtGate u s₀ s' → R s' → (gate u t s₀).SafeE t (g ()) Q E s') :
    (gate u t s₀).SafeE t ((liftM (fileOp f) : Handler κ (Except IoError Unit)) >>= fun r =>
      orFail e r >>= g) Q E s := by
  refine SafeE.bind (SafeE.lift (gate_fileOp (R := R) hP hs h) hinv) hinv fun r s₁ hinv₁ _ hr => ?_
  obtain ⟨rfl, hR⟩ := hr
  exact hg s₁ hinv₁ hR

theorem gate_freshId {R : String → Shared → Prop} (hP : (gate u t s₀).Stable t P) (hs : P s)
    (h : ∀ s' id, AtGate u s₀ s' → P s' → id ∉ s'.issued.map Prod.fst →
      R id { s' with issued := (id, t) :: s'.issued }) :
    (gate u t s₀).Safe t freshId R s := by
  refine Safe.atomic hP hs (fun s' e hinv he _ hs' => ?_) fun _ hdetach => hdetach.elim
  refine ⟨gate_step (hinv.leaves ⟨fun _ => rfl, fun _ _ => rfl, fun _ hid => ?_⟩),
    h s' e.uuid hinv hs' he.1.2⟩
  exact List.mem_cons_of_mem _ hid

theorem gate_check_bind {x : Except κ α} {f : α → Handler κ β} {Q : β → Shared → Prop}
    (hok : ∀ a, x = .ok a → (gate u t s₀).SafeE t (f a) Q E s)
    (herr : ∀ e, x = .error e → E e s) : (gate u t s₀).SafeE t (check x >>= f) Q E s := by
  cases x with
  | ok a => exact hok a rfl
  | error e => exact herr e rfl

end Actions

/-- A file operation that changes at most one assembled file of the upload. -/
theorem AtGate.assembled {i : ℕ} {uuid : String} {fs : FileStore} (h : AtGate u s₀ s)
    (hissued : fs.lookup (.assembledArtifact u i uuid) ≠ none → uuid ∈ s.issued.map Prod.fst)
    (hfs : ∀ p, p ≠ .assembledArtifact u i uuid → fs.lookup p = s.fs.lookup p) :
    AtGate u s₀ { s with fs := fs } where
  dir := by
    show fs.lookup _ = none ∨ fs.lookup _ = some .dir
    rw [hfs _ (by simp)]
    exact h.dir
  names j id hthere := by
    by_cases heq : FilePath.assembledArtifact u j id = .assembledArtifact u i uuid
    · obtain ⟨-, rfl, rfl⟩ := FilePath.assembledArtifact.inj heq
      exact hissued hthere
    · exact h.names j id (hfs _ heq ▸ hthere)
  chunks := h.chunks
  files j k := (hfs _ (by simp)).trans (h.files j k)

/-! ## §4 — Through the gate. -/

/-- The file of an accepted chunk: a regular file of the length and digest its row records. -/
def ChunkFile (c : Crates) (fs : FileStore) (uploadId : String) (artifactIndex : ℕ)
    (chunk : UploadChunkRow) (body : Bytes) : Prop :=
  fs.lookup (.artifactChunk uploadId artifactIndex chunk.chunkIndex.toNat) = some (.file body) ∧
    (body.length : ℤ) = chunk.byteLength ∧ c.sha256Hex body = chunk.sha256

/-- What is assembled under a name, with everything else under the upload's names as it was. -/
def Assembling (u : String) (s₀ : Shared) (names : List (ℕ × String)) (i : ℕ) (uuid : String)
    (bytes : Bytes) (s : Shared) : Prop :=
  (Scratch u s₀ names s ∧ uuid ∈ s.issued.map Prod.fst) ∧
    s.fs.lookup (.assembledArtifact u i uuid) = some (.file bytes)

theorem issued_stable (uuid : String) :
    (gate u t s₀).Stable t fun s => uuid ∈ s.issued.map Prod.fst := by
  intro s s' t' hne _ hstep h
  obtain ⟨entry, hentry, hid⟩ := List.mem_map.mp h
  exact List.mem_map.mpr ⟨entry, (hstep.2 hne).issued entry hentry, hid⟩

theorem Assembling.stable (names : List (ℕ × String)) (i : ℕ) (uuid : String) (bytes : Bytes) :
    (gate u t s₀).Stable t (Assembling u s₀ names i uuid bytes) :=
  ((Scratch.stable names).and (issued_stable uuid)).and (gate_stable rfl _)

/-- The chunk loop of `assemble_artifact` ends with the bytes of all chunk files one after another,
or it has met a file that is not as its row says, or too many bytes. -/
theorem gate_copyChunks {names : List (ℕ × String)} {i : ℕ} {uuid : String} (artifact : Artifact)
    (hname : (i, uuid) ∈ names) (chunks : List UploadChunkRow) {copied : Bytes}
    (hinv : AtGate u s₀ s) (hs : Assembling u s₀ names i uuid copied s) :
    (gate u t s₀).SafeE t
      (copyChunks c u i artifact (.assembledArtifact u i uuid) chunks copied)
      (fun all s => (∃ bodies, List.Forall₂ (ChunkFile c s₀.fs u i) chunks bodies ∧
        all = copied ++ bodies.flatten) ∧ Assembling u s₀ names i uuid all s)
      (fun _ s => (∀ bodies, List.Forall₂ (ChunkFile c s₀.fs u i) chunks bodies →
        artifact.storedSizeBytes.toNat < (copied ++ bodies.flatten).length) ∧ Scratch u s₀ names s)
      s := by
  induction chunks generalizing copied s with
  | nil => exact SafeE.pure ⟨⟨[], .nil, by simp⟩, hs⟩
  | cons chunk rest ih =>
    rw [copyChunks]
    refine SafeE.bind (gate_fileRead (Q := fun bytes s =>
        s₀.fs.lookup (.artifactChunk u i chunk.chunkIndex.toNat) = some (.file bytes) ∧
          Assembling u s₀ names i uuid copied s) (Assembling.stable _ _ _ _) hs
      fun s' hinv' hs' => ?_) hinv fun bytes s₁ hinv₁ _ hread => ?_
    · cases hread : s'.fs.read (.artifactChunk u i chunk.chunkIndex.toNat) with
      | ok bytes => exact ⟨hinv'.files _ _ ▸ FileStore.read_ok hread, hs'⟩
      | error e =>
        refine ⟨fun bodies hbodies => ?_, hs'.1.1⟩
        obtain ⟨body, _, hbody, -, -⟩ := List.forall₂_cons_left_iff.mp hbodies
        rw [FileStore.read, hinv'.files, hbody.1] at hread
        simp at hread
    obtain ⟨hfile, hs₁⟩ := hread
    -- the body of a chunk whose file is as its row says is what was read
    have hbody : ∀ {body}, ChunkFile c s₀.fs u i chunk body → body = bytes := by
      rintro body ⟨hlookup, -⟩
      rw [hfile] at hlookup
      simpa using hlookup.symm
    refine SafeE.guard (fun hlong => ⟨fun bodies hbodies => ?_, hs₁.1.1⟩) fun hlong => ?_
    · obtain ⟨body, _, hchunk, -, -⟩ := List.forall₂_cons_left_iff.mp hbodies
      obtain rfl := hbody hchunk
      have hlength := hchunk.2.1
      omega
    refine SafeE.guard (fun hmany => ⟨fun bodies hbodies => ?_, hs₁.1.1⟩) fun hmany => ?_
    · obtain ⟨body, more, hchunk, -, rfl⟩ := List.forall₂_cons_left_iff.mp hbodies
      obtain rfl := hbody hchunk
      rw [List.flatten_cons, List.length_append, List.length_append]
      omega
    refine gate_fileOp_bind (R := Assembling u s₀ names i uuid (copied ++ bytes))
      (Assembling.stable _ _ _ _) hinv₁ hs₁ (fun s' hinv' hs' => ?_) fun s₂ hinv₂ hs₂ => ?_
    · have hother : ∀ p, p ≠ .assembledArtifact u i uuid →
          (s'.fs.append (.assembledArtifact u i uuid) bytes).lookup p = s'.fs.lookup p := by
        intro p hp
        rw [FileStore.lookup_append, if_neg hp]
      have hwritten : (s'.fs.append (.assembledArtifact u i uuid) bytes).lookup
          (.assembledArtifact u i uuid) = some (.file (copied ++ bytes)) := by
        rw [FileStore.lookup_append, if_pos rfl, hs'.2]
      refine ⟨_, rfl, hinv'.assembled (fun _ => hs'.1.2) hother, ⟨hs'.1.1.write (fun j id heq => ?_)
        (Or.inl (by simp [hwritten])) hother, hs'.1.2⟩, hwritten⟩
      obtain ⟨-, rfl, rfl⟩ := FilePath.assembledArtifact.inj heq
      exact hname
    refine SafeE.guard (fun hbad => ⟨fun bodies hbodies => ?_, hs₂.1.1⟩) fun hgood => ?_
    · obtain ⟨body, _, hchunk, -, -⟩ := List.forall₂_cons_left_iff.mp hbodies
      obtain rfl := hbody hchunk
      exact absurd hchunk.2 (by tauto)
    rw [not_or, not_not, not_not] at hgood
    refine SafeE.mono (ih hinv₂ hs₂) hinv₂ (fun all s' _ hall => ?_) fun _ s' _ hfail => ?_
    · obtain ⟨⟨bodies, hbodies, rfl⟩, hassembling⟩ := hall
      exact ⟨⟨bytes :: bodies, .cons ⟨hfile, hgood⟩ hbodies, by simp⟩, hassembling⟩
    · refine ⟨fun bodies hbodies => ?_, hfail.2⟩
      obtain ⟨body, more, hchunk, hmore, rfl⟩ := List.forall₂_cons_left_iff.mp hbodies
      obtain rfl := hbody hchunk
      rw [List.flatten_cons, ← List.append_assoc]
      exact hfail.1 more hmore

/-- The accepted chunks of an artifact, all there and with a file each; `bytes` is what they add up
to. -/
def ChunksHold (c : Crates) (s : Shared) (uploadId : String) (artifactIndex size chunkSize : ℕ)
    (bytes : Bytes) : Prop :=
  AllChunks size chunkSize (s.db.chunksOf uploadId artifactIndex) ∧
    ∃ bodies, List.Forall₂ (ChunkFile c s.fs uploadId artifactIndex)
      (s.db.chunksOf uploadId artifactIndex) bodies ∧ bytes = bodies.flatten

/-- `accepted_chunk_layout` finds the accepted chunks, when they are all there with digests that are
digests. -/
theorem gate_acceptedChunkLayout {upload : UploadRow} {row : UploadArtifactRow}
    {names : List (ℕ × String)} {i size chunkSize : ℕ} (hlaid : Laid upload row size chunkSize)
    (hindex : row.artifactIndex = i) (hinv : AtGate upload.id s₀ s)
    (hs : Scratch upload.id s₀ names s) :
    (gate upload.id t s₀).SafeE t (acceptedChunkLayout upload row)
      (fun chunks s => chunks = s₀.db.chunksOf upload.id i ∧ AllChunks size chunkSize chunks ∧
        Scratch upload.id s₀ names s)
      (fun _ s => ¬ (AllChunks size chunkSize (s₀.db.chunksOf upload.id i) ∧
        ∀ chunk ∈ s₀.db.chunksOf upload.id i, DocumentDigest (digestDocumentValue chunk.sha256)) ∧
        Scratch upload.id s₀ names s) s := by
  refine SafeE.bind (gate_query (Q := fun chunks s => chunks = s₀.db.chunksOf upload.id i ∧
      Scratch upload.id s₀ names s) (Scratch.stable _) hs fun s' hinv' hs' => ?_) hinv
    fun chunks s₁ hinv₁ _ hread => ?_
  · refine ⟨?_, hs'⟩
    rw [hindex]
    exact hinv'.chunks i
  obtain ⟨rfl, hs₁⟩ := hread
  have hcount : unsignedColumn row.chunkCount = .ok (pieceCount size chunkSize) :=
    unsignedColumn_eq_ok.mpr hlaid.count
  rw [hcount]
  refine gate_check_bind (fun count hok => ?_) fun _ hfail => absurd hfail (by simp)
  obtain rfl : pieceCount size chunkSize = count := Except.ok.inj hok
  refine SafeE.guard (fun hmissing => ⟨fun hall => ?_, hs₁⟩) fun hlength => ?_
  · exact hmissing (allChunks_iff.mp hall.1).1
  rw [not_not] at hlength
  have hrows := checkChunkRows_iff hlaid (s₀.db.chunksOf upload.id i) 0 (by omega)
  simp only [Nat.zero_add] at hrows
  refine gate_check_bind (fun _ hok => ?_) fun e hfail => ⟨fun hall => ?_, hs₁⟩
  · have hchecked := hrows.mp hok
    refine SafeE.pure ⟨rfl, allChunks_iff.mpr ⟨hlength, fun k chunk hk => ?_⟩, hs₁⟩
    exact ⟨(hchecked k chunk hk).1, (hchecked k chunk hk).2.1⟩
  · have hplaces := (allChunks_iff.mp hall.1).2
    have hok := hrows.mpr fun k chunk hk => ⟨(hplaces k chunk hk).1, (hplaces k chunk hk).2,
      hall.2 chunk (List.mem_of_getElem? hk)⟩
    rw [hok] at hfail
    simp at hfail

/-- Rows with files are rows with digests. -/
theorem ChunkFile.digests (hdigests : c.HexDigests) {fs : FileStore} {i : ℕ}
    {chunks : List UploadChunkRow} {bodies : List Bytes}
    (h : List.Forall₂ (ChunkFile c fs u i) chunks bodies) :
    ∀ chunk ∈ chunks, DocumentDigest (digestDocumentValue chunk.sha256) := by
  induction h with
  | nil => simp
  | cons hfile _ ih =>
    refine List.forall_mem_cons.mpr ⟨?_, ih⟩
    rw [← hfile.2.2]
    exact DocumentDigest.of_hex (hdigests _).1 (hdigests _).2

/-- Chunk files have one content. -/
theorem ChunkFile.unique {fs : FileStore} {i : ℕ} {chunks : List UploadChunkRow}
    {bodies bodies' : List Bytes} (h : List.Forall₂ (ChunkFile c fs u i) chunks bodies)
    (h' : List.Forall₂ (ChunkFile c fs u i) chunks bodies') : bodies = bodies' := by
  induction h generalizing bodies' with
  | nil => exact (List.forall₂_nil_left_iff.mp h').symm
  | cons hfile _ ih =>
    obtain ⟨body, rest, hbody, hrest, rfl⟩ := List.forall₂_cons_left_iff.mp h'
    obtain rfl := Node.file.inj (Option.some.inj (hfile.1.symm.trans hbody.1))
    rw [ih hrest]

/-- The directory of the upload is made where it is missing. -/
theorem AtGate.createDir (h : AtGate u s₀ s) :
    ∃ fs, s.fs.createDirAll [.uploadDir u] = .ok fs ∧ AtGate u s₀ { s with fs := fs } ∧
      fs.lookup (.uploadDir u) = some .dir ∧
      ∀ p, p ≠ .uploadDir u → fs.lookup p = s.fs.lookup p := by
  rcases h.dir with hnone | hdir
  · have hother : ∀ p, p ≠ .uploadDir u →
        (s.fs.set (.uploadDir u) .dir).lookup p = s.fs.lookup p := by
      intro p hp
      rw [FileStore.lookup_set, if_neg hp]
    have hmade : (s.fs.set (.uploadDir u) .dir).lookup (.uploadDir u) = some .dir := by
      rw [FileStore.lookup_set, if_pos rfl]
    refine ⟨_, by simp [FileStore.createDirAll, hnone], ?_, hmade, hother⟩
    exact
      { dir := Or.inr hmade
        names := fun i uuid hthere => h.names i uuid fun hnone =>
          hthere ((hother _ (by simp)).trans hnone)
        chunks := h.chunks
        files := fun i k => (hother _ (by simp)).trans (h.files i k) }
  · exact ⟨s.fs, by simp [FileStore.createDirAll, hdir], h, hdir, fun _ _ => rfl⟩

/-- `assemble_artifact` writes what the accepted chunks add up to, when they are all there and add
up to the declared stored size and digest. -/
theorem gate_assembleArtifact (hdigests : c.HexDigests) {upload : UploadRow}
    {row : UploadArtifactRow} {artifact : Artifact} {names : List (ℕ × String)} {i chunkSize : ℕ}
    {uuid : String} (hlaid : Laid upload row artifact.storedSizeBytes.toNat chunkSize)
    (hindex : row.artifactIndex = i) (hname : (i, uuid) ∈ names) (hinv : AtGate upload.id s₀ s)
    (hs : (Scratch upload.id s₀ names s ∧ uuid ∈ s.issued.map Prod.fst) ∧
      s.fs.lookup (.assembledArtifact upload.id i uuid) = none) :
    (gate upload.id t s₀).SafeE t
      (assembleArtifact c upload row artifact i (.assembledArtifact upload.id i uuid))
      (fun all s => ChunksHold c s₀ upload.id i artifact.storedSizeBytes.toNat chunkSize all ∧
        Assembling upload.id s₀ names i uuid all s)
      (fun _ s => (∀ bytes, ChunksHold c s₀ upload.id i artifact.storedSizeBytes.toNat chunkSize
        bytes → ¬ Intact c artifact bytes) ∧ Scratch upload.id s₀ names s) s := by
  have hnew : (gate upload.id t s₀).Stable t fun s => uuid ∈ s.issued.map Prod.fst ∧
      s.fs.lookup (.assembledArtifact upload.id i uuid) = none :=
    (issued_stable uuid).and (gate_stable rfl _)
  have hchunks : (gate upload.id t s₀).SafeE t (acceptedChunkLayout upload row)
      (fun chunks s => (chunks = s₀.db.chunksOf upload.id i ∧
        AllChunks artifact.storedSizeBytes.toNat chunkSize chunks) ∧ Scratch upload.id s₀ names s)
      (fun _ s => (∀ bytes, ChunksHold c s₀ upload.id i artifact.storedSizeBytes.toNat chunkSize
        bytes → ¬ Intact c artifact bytes) ∧ Scratch upload.id s₀ names s) s := by
    refine SafeE.mono (gate_acceptedChunkLayout hlaid hindex hinv hs.1.1) hinv
      (fun _ _ _ h => ⟨⟨h.1, h.2.1⟩, h.2.2⟩) fun _ _ _ h => ⟨fun bytes hhold _ => ?_, h.2⟩
    obtain ⟨hall, bodies, hfiles, -⟩ := hhold
    exact h.1 ⟨hall, ChunkFile.digests hdigests hfiles⟩
  refine SafeE.bind_frame hchunks hinv (KeepsE.bind keeps_query fun _ => KeepsE.bind keeps_check
    fun _ => KeepsE.guard (KeepsE.bind keeps_check fun _ => KeepsE.pure _)) hnew ⟨hs.1.2, hs.2⟩
    fun chunks s₁ hinv₁ _ hread hnew₁ => ?_
  obtain ⟨⟨rfl, hall⟩, hscratch₁⟩ := hread
  refine gate_fileOp_bind (R := fun s => (Scratch upload.id s₀ names s ∧
      uuid ∈ s.issued.map Prod.fst ∧ s.fs.lookup (.assembledArtifact upload.id i uuid) = none) ∧
      s.fs.lookup (.uploadDir upload.id) = some .dir) ((Scratch.stable names).and hnew) hinv₁
    ⟨hscratch₁, hnew₁⟩ (fun s' hinv' hs' => ?_) fun s₂ hinv₂ hs₂ => ?_
  · obtain ⟨fs, hmade, hgate, hdir, hother⟩ := hinv'.createDir
    refine ⟨fs, hmade, hgate, ⟨hs'.1.write (by simp) (Or.inr rfl) hother, hs'.2.1, ?_⟩, hdir⟩
    exact (hother _ (by simp)).trans hs'.2.2
  refine gate_fileOp_bind (R := Assembling upload.id s₀ names i uuid [])
    (((Scratch.stable names).and hnew).and (gate_stable rfl _)) hinv₂ hs₂
    (fun s' hinv' hs' => ?_) fun s₃ hinv₃ hs₃ => ?_
  · obtain ⟨⟨hscratch, hissued, hnone⟩, hdir⟩ := hs'
    have hother : ∀ p, p ≠ .assembledArtifact upload.id i uuid →
        (s'.fs.set (.assembledArtifact upload.id i uuid) (.file [])).lookup p =
          s'.fs.lookup p := by
      intro p hp
      rw [FileStore.lookup_set, if_neg hp]
    have hmade : (s'.fs.set (.assembledArtifact upload.id i uuid) (.file [])).lookup
        (.assembledArtifact upload.id i uuid) = some (.file []) := by
      rw [FileStore.lookup_set, if_pos rfl]
    have hparent : s'.fs.parentExists (.assembledArtifact upload.id i uuid) = true := by
      refine FileStore.parentExists_iff.mpr fun q hq => ?_
      obtain rfl : FilePath.uploadDir upload.id = q := by simpa [FilePath.parent] using hq
      exact hdir
    refine ⟨s'.fs.set (.assembledArtifact upload.id i uuid) (.file []), ?_, ?_, ⟨?_, hissued⟩,
      hmade⟩
    · simp only [FileStore.createNew, hnone, if_pos hparent]
    · exact hinv'.assembled (fun _ => hissued) hother
    · refine hscratch.write (fun j id heq => ?_) (Or.inl (by simp [hmade])) hother
      obtain ⟨-, rfl, rfl⟩ := FilePath.assembledArtifact.inj heq
      exact hname
  have hcopy := gate_copyChunks (c := c) (t := t) artifact hname (s₀.db.chunksOf upload.id i) hinv₃
    hs₃
  refine SafeE.bind (SafeE.mono hcopy hinv₃ (fun _ _ _ h => h) fun _ _ _ h => ⟨?_, h.2⟩) hinv₃
    fun copied s₄ hinv₄ _ hcopied => ?_
  · rintro bytes ⟨-, bodies, hfiles, rfl⟩ hintact
    have hlong := h.1 bodies hfiles
    rw [List.nil_append, hintact.1] at hlong
    exact lt_irrefl _ hlong
  obtain ⟨⟨bodies, hfiles, rfl⟩, hs₄⟩ := hcopied
  rw [List.nil_append] at hs₄ ⊢
  refine gate_fileOp_bind (R := Assembling upload.id s₀ names i uuid bodies.flatten)
    (Assembling.stable _ _ _ _) hinv₄ hs₄ (fun s' hinv' hs' =>
      ⟨_, rfl, hinv'.assembled (i := i) (fun _ => hs'.1.2) fun _ _ => rfl,
        ⟨⟨hs'.1.1.free, hs'.1.1.files, hs'.1.1.others⟩, hs'.1.2⟩, hs'.2⟩)
    fun s₅ hinv₅ hs₅ => ?_
  refine SafeE.guard (fun hbad => ⟨?_, hs₅.1.1⟩) fun _ => SafeE.pure
    ⟨⟨hall, bodies, hfiles, rfl⟩, hs₅⟩
  rintro bytes ⟨-, bodies', hfiles', rfl⟩ hintact
  obtain rfl := ChunkFile.unique hfiles hfiles'
  rcases hbad with hsize | hdigest
  · exact hsize hintact.1
  · exact hdigest hintact.2.1

/-- **`ArtifactVerified`** — an artifact a completion may promote: its accepted chunks are all
there, each with its file, and they add up to intact bytes. -/
def ArtifactVerified (c : Crates) (s : Shared) (uploadId : String) (artifactIndex chunkSize : ℕ)
    (artifact : Artifact) : Prop :=
  ∃ bytes, ChunksHold c s uploadId artifactIndex artifact.storedSizeBytes.toNat chunkSize bytes ∧
    Intact c artifact bytes

/-- One artifact passes exactly when it is verified. -/
theorem gate_prepareArtifact (hdigests : c.HexDigests) {upload : UploadRow}
    {row : UploadArtifactRow} {artifact : Artifact} {names : List (ℕ × String)} {i chunkSize : ℕ}
    {uuid : String} (hlaid : Laid upload row artifact.storedSizeBytes.toNat chunkSize)
    (hindex : row.artifactIndex = i) (hname : (i, uuid) ∈ names) (hinv : AtGate upload.id s₀ s)
    (hs : (Scratch upload.id s₀ names s ∧ uuid ∈ s.issued.map Prod.fst) ∧
      s.fs.lookup (.assembledArtifact upload.id i uuid) = none) :
    (gate upload.id t s₀).SafeE t
      (prepareArtifact c upload row artifact i (.assembledArtifact upload.id i uuid))
      (fun _ s => ArtifactVerified c s₀ upload.id i chunkSize artifact ∧
        Scratch upload.id s₀ names s)
      (fun _ s => ¬ ArtifactVerified c s₀ upload.id i chunkSize artifact ∧
        Scratch upload.id s₀ names s)
      s := by
  refine SafeE.bind (SafeE.mono (gate_assembleArtifact hdigests hlaid hindex hname hinv hs) hinv
    (fun _ _ _ h => h) fun _ _ _ h => ⟨fun ⟨bytes, hhold, hintact⟩ => h.1 bytes hhold hintact, h.2⟩)
    hinv fun all s₁ hinv₁ _ hassembled => ?_
  obtain ⟨hhold, hs₁⟩ := hassembled
  refine gate_fileRead (Assembling.stable names i uuid all) hs₁ fun s' _ hs' => ?_
  have hread : s'.fs.read (.assembledArtifact upload.id i uuid) = .ok all := by
    simp only [FileStore.read, hs'.2]
  rw [hread]
  show Discipline.outcome _ _ (verifyArtifactBytes c artifact all) s'
  cases hverify : verifyArtifactBytes c artifact all with
  | ok _ => exact ⟨⟨all, hhold, verifyArtifactBytes_iff.mp hverify⟩, hs'.1.1⟩
  | error e =>
    refine ⟨?_, hs'.1.1⟩
    rintro ⟨bytes, ⟨-, bodies, hfiles, rfl⟩, hintact⟩
    obtain ⟨-, bodies', hfiles', rfl⟩ := hhold
    obtain rfl := ChunkFile.unique hfiles hfiles'
    rw [verifyArtifactBytes_iff.mpr hintact] at hverify
    simp at hverify

/-- A free name joins the listed ones. -/
theorem Scratch.add {names : List (ℕ × String)} {i : ℕ} {uuid : String}
    (h : Scratch u s₀ names s) (hnone : s.fs.lookup (.assembledArtifact u i uuid) = none) :
    Scratch u s₀ (names ++ [(i, uuid)]) s where
  free j id hmem := by
    by_cases hold : (j, id) ∈ names
    · exact h.free j id hold
    · obtain ⟨rfl, rfl⟩ : j = i ∧ id = uuid := by simpa [hold] using hmem
      exact (h.others j id hold).symm.trans hnone
  files j id hmem := by
    by_cases hold : (j, id) ∈ names
    · exact h.files j id hold
    · obtain ⟨rfl, rfl⟩ : j = i ∧ id = uuid := by simpa [hold] using hmem
      simp [hnone]
  others j id hmem := h.others j id fun hold => hmem (List.mem_append_left _ hold)

/-- Discarding an assembled file takes its name off the list. -/
theorem gate_discardFile {names : List (ℕ × String)} (rest : List (ℕ × String)) {i : ℕ}
    {uuid : String}
    (hname : (i, uuid) ∈ names) (hrest : ∀ n ∈ rest, n ∈ names)
    (hnames : ∀ n ∈ names, n = (i, uuid) ∨ n ∈ rest) (hs : Scratch u s₀ names s) :
    (gate u t s₀).Safe t (discardFile (.assembledArtifact u i uuid))
      (fun r s => r = .ok () ∧ Scratch u s₀ rest s) s := by
  refine gate_fileOp (Scratch.stable names) hs fun s' hinv' hs' => ?_
  have hother : ∀ p, p ≠ .assembledArtifact u i uuid →
      (s'.fs.removeWhere fun q => decide (q = .assembledArtifact u i uuid)).lookup p =
        s'.fs.lookup p := by
    intro p hp
    rw [FileStore.lookup_removeWhere, if_neg (by simpa using hp)]
  have hgone : (s'.fs.removeWhere fun q => decide (q = .assembledArtifact u i uuid)).lookup
      (.assembledArtifact u i uuid) = none := by
    rw [FileStore.lookup_removeWhere, if_pos (by simp)]
  refine ⟨s'.fs.removeWhere fun q => decide (q = .assembledArtifact u i uuid), ?_,
    hinv'.assembled (fun hthere => absurd hgone hthere) hother, ?_⟩
  · have hdir : s'.fs.isDir (.assembledArtifact u i uuid) = false := by
      simpa [FileStore.isDir] using hs'.files i uuid hname
    rw [FileStore.removeFile, hdir]
    rfl
  refine ⟨fun j id hmem => hs'.free j id (hrest _ hmem), fun j id hmem => ?_, fun j id hmem => ?_⟩
  · by_cases heq : FilePath.assembledArtifact u j id = .assembledArtifact u i uuid
    · rw [heq, hgone]
      simp
    · rw [hother _ heq]
      exact hs'.files j id (hrest _ hmem)
  · by_cases heq : FilePath.assembledArtifact u j id = .assembledArtifact u i uuid
    · obtain ⟨-, rfl, rfl⟩ := FilePath.assembledArtifact.inj heq
      exact hgone.trans (hs'.free j id hname).symm
    · rw [hother _ heq]
      refine hs'.others j id fun hold => ?_
      rcases hnames _ hold with hsame | hkept
      · obtain ⟨rfl, rfl⟩ := Prod.mk.inj hsame
        exact heq rfl
      · exact hmem hkept

/-- `cleanup_prepared` leaves no listed name. -/
theorem gate_cleanupPrepared {prepared : List PreparedArtifact} {names : List (ℕ × String)}
    (hpaths : prepared.map PreparedArtifact.assembledPath =
      names.map fun n => .assembledArtifact u n.1 n.2) (hinv : AtGate u s₀ s)
    (hs : Scratch u s₀ names s) :
    (gate u t s₀).Safe t (cleanupPrepared prepared) (fun _ s => Scratch u s₀ [] s) s := by
  induction prepared generalizing names s with
  | nil =>
    obtain rfl : names = [] := by simpa using hpaths.symm
    exact hs
  | cons p rest ih =>
    cases names with
    | nil => simp at hpaths
    | cons n names =>
      obtain ⟨hpath, hpaths⟩ := List.cons.inj hpaths
      rw [cleanupPrepared, hpath]
      refine Safe.bind (gate_discardFile names List.mem_cons_self
        (fun m hm => List.mem_cons_of_mem _ hm) (fun m hm => List.mem_cons.mp hm) hs) hinv
        fun _ s₁ hinv₁ hs₁ => ih hpaths hinv₁ hs₁.2

/-- The artifacts of a checked upload pass exactly when all are verified, and leave nothing behind
when one is not. -/
theorem gate_prepareArtifacts (hdigests : c.HexDigests) {upload : UploadRow}
    (hnonneg : 0 ≤ upload.chunkSizeBytes) (pairs : List (Artifact × UploadArtifactRow))
    (prepared : List PreparedArtifact) (names : List (ℕ × String)) (hinv : AtGate upload.id s₀ s)
    (hpairs : ∀ (k : ℕ) (artifact : Artifact) (row : UploadArtifactRow),
      pairs[k]? = some (artifact, row) →
        IsProjection upload.chunkSizeBytes.toNat (prepared.length + k) artifact row)
    (hpaths : prepared.map PreparedArtifact.assembledPath =
      names.map fun n => .assembledArtifact upload.id n.1 n.2)
    (hs : Scratch upload.id s₀ names s) :
    (gate upload.id t s₀).SafeE t (prepareArtifacts c upload pairs prepared)
      (fun _ _ => ∀ (k : ℕ) (pair : Artifact × UploadArtifactRow), pairs[k]? = some pair →
        ArtifactVerified c s₀ upload.id (prepared.length + k) upload.chunkSizeBytes.toNat pair.1)
      (fun _ s => (∃ (k : ℕ) (pair : Artifact × UploadArtifactRow), pairs[k]? = some pair ∧
        ¬ ArtifactVerified c s₀ upload.id (prepared.length + k) upload.chunkSizeBytes.toNat
          pair.1) ∧ Scratch upload.id s₀ [] s) s := by
  induction pairs generalizing prepared names s with
  | nil => exact SafeE.pure fun k pair hk => by simp at hk
  | cons pair rest ih =>
    obtain ⟨artifact, row⟩ := pair
    have hrow := hpairs 0 artifact row rfl
    rw [Nat.add_zero] at hrow
    have hindex : unsignedColumn row.artifactIndex = .ok prepared.length :=
      unsignedColumn_eq_ok.mpr hrow.artifactIndex
    rw [prepareArtifacts, hindex]
    refine gate_check_bind (fun index hok => ?_) fun _ hfail => absurd hfail (by simp)
    obtain rfl : prepared.length = index := Except.ok.inj hok
    refine SafeE.bind (SafeE.lift (gate_freshId (R := fun uuid s =>
        (Scratch upload.id s₀ (names ++ [(prepared.length, uuid)]) s ∧
          uuid ∈ s.issued.map Prod.fst) ∧
          s.fs.lookup (.assembledArtifact upload.id prepared.length uuid) = none)
        (Scratch.stable names) hs fun s' uuid hinv' hs' hnew => ?_) hinv) hinv
      fun uuid s₁ hinv₁ _ hs₁ => ?_
    · -- whatever lies under a generated name was generated before
      have hnone : s'.fs.lookup (.assembledArtifact upload.id prepared.length uuid) = none := by
        by_contra hthere
        exact hnew (hinv'.names _ _ hthere)
      have hadded := hs'.add hnone
      exact ⟨⟨⟨hadded.free, hadded.files, hadded.others⟩, List.mem_cons_self⟩, hnone⟩
    refine SafeE.bind (Q := fun r s => Discipline.outcome
        (fun _ s => ArtifactVerified c s₀ upload.id prepared.length upload.chunkSizeBytes.toNat
          artifact ∧ Scratch upload.id s₀ (names ++ [(prepared.length, uuid)]) s)
        (fun _ s => ¬ ArtifactVerified c s₀ upload.id prepared.length upload.chunkSizeBytes.toNat
          artifact ∧ Scratch upload.id s₀ (names ++ [(prepared.length, uuid)]) s) r s)
      (Safe.bind (gate_prepareArtifact hdigests (hrow.laid hnonneg) hrow.artifactIndex
        (by simp) hinv₁ hs₁) hinv₁ fun _ _ _ hr => hr) hinv₁ fun result s₂ hinv₂ _ hresult => ?_
    cases result with
    | error e =>
      obtain ⟨hbad, hs₂⟩ := hresult
      refine SafeE.bind (SafeE.lift (gate_discardFile names (by simp)
        (fun n hn => List.mem_append_left _ hn) (fun n hn => ?_) hs₂) hinv₂) hinv₂
        fun _ s₃ hinv₃ _ hs₃ => ?_
      · rcases List.mem_append.mp hn with hold | hlast
        · exact Or.inr hold
        · exact Or.inl (List.mem_singleton.mp hlast)
      refine SafeE.bind (SafeE.lift (gate_cleanupPrepared hpaths hinv₃ hs₃.2) hinv₃) hinv₃
        fun _ s₄ _ _ hs₄ => SafeE.throw ⟨⟨0, (artifact, row), rfl, hbad⟩, hs₄⟩
    | ok _ =>
      obtain ⟨hverified, hs₂⟩ := hresult
      refine SafeE.mono (ih (prepared ++ [⟨prepared.length, artifact,
        .assembledArtifact upload.id prepared.length uuid⟩])
        (names ++ [(prepared.length, uuid)]) hinv₂ (fun k a r hk => ?_) ?_ hs₂) hinv₂
        (fun _ _ _ hall => ?_) fun _ _ _ hfail => ⟨?_, hfail.2⟩
      · rw [List.length_append, List.length_singleton, Nat.add_assoc, Nat.add_comm 1]
        exact hpairs (k + 1) a r (by simpa using hk)
      · rw [List.map_append, List.map_append, hpaths]
        rfl
      · rintro k pair hk
        cases k with
        | zero =>
          obtain rfl : (artifact, row) = pair := by simpa using hk
          exact hverified
        | succ k =>
          have hnext := hall k pair (by simpa using hk)
          rwa [List.length_append, List.length_singleton, Nat.add_assoc, Nat.add_comm 1] at hnext
      · obtain ⟨k, pair, hk, hbad⟩ := hfail.1
        rw [List.length_append, List.length_singleton, Nat.add_assoc, Nat.add_comm 1] at hbad
        exact ⟨k + 1, pair, by simpa using hk, hbad⟩

/-! ## §5 — The gate. -/

/-- `validate_upload_projection` and `prepare_artifacts`, as `complete_upload` runs them. -/
def verificationGate (c : Crates) (upload : UploadRow) (manifest : Manifest)
    (rows : List UploadArtifactRow) : Handler ApiError (List PreparedArtifact) := do
  check (validateUploadProjection manifest rows upload)
  prepareArtifacts c upload (manifest.artifacts.zip rows) []

/-- **`GateOpen`** — what the gate is for: the rows are the manifest's projection and every artifact
is complete and intact. -/
structure GateOpen (c : Crates) (s : Shared) (upload : UploadRow) (manifest : Manifest)
    (rows : List UploadArtifactRow) : Prop where
  projection : ProjectsTo manifest rows upload
  artifacts : ∀ (k : ℕ) (artifact : Artifact), manifest.artifacts[k]? = some artifact →
    ArtifactVerified c s upload.id k upload.chunkSizeBytes.toNat artifact

theorem getElem?_zip {manifest : Manifest} {rows : List UploadArtifactRow} {k : ℕ}
    {artifact : Artifact} {row : UploadArtifactRow} :
    (manifest.artifacts.zip rows)[k]? = some (artifact, row) ↔
      manifest.artifacts[k]? = some artifact ∧ rows[k]? = some row :=
  List.getElem?_zip_eq_some

theorem safe_verificationGate (hdigests : c.HexDigests) (upload : UploadRow) (manifest : Manifest)
    (rows : List UploadArtifactRow) (hdir : UploadDirOk upload.id s) :
    (gate upload.id t s).SafeE t (verificationGate c upload manifest rows)
      (fun _ _ => GateOpen c s upload manifest rows)
      (fun _ s' => ¬ GateOpen c s upload manifest rows ∧ Scratch upload.id s [] s') s := by
  have hinv : AtGate upload.id s s := ⟨hdir, fun _ => rfl, fun _ _ => rfl⟩
  have hscratch : Scratch upload.id s [] s := ⟨by simp, by simp, fun _ _ _ => rfl⟩
  refine gate_check_bind (fun _ hok => ?_) fun e hfail => ⟨fun hopen => ?_, hscratch⟩
  · have hprojection := validateUploadProjection_iff.mp hok
    obtain ⟨hlength, -, hnonneg, hrows⟩ := id hprojection
    refine SafeE.mono (gate_prepareArtifacts hdigests hnonneg (manifest.artifacts.zip rows) []
      [] hinv (fun k artifact row hk => ?_) rfl hscratch) hinv
      (fun _ _ _ hall => ⟨hprojection, fun k artifact hk => ?_⟩)
      fun _ _ _ hfail => ⟨fun hopen => ?_, hfail.2⟩
    · obtain ⟨ha, hr⟩ := getElem?_zip.mp hk
      rw [List.length_nil, Nat.zero_add]
      exact hrows k artifact row ha hr
    · have hlt : k < rows.length := by
        rw [hlength]
        exact (List.getElem?_eq_some_iff.mp hk).1
      have hverified := hall k (artifact, rows[k])
        (getElem?_zip.mpr ⟨hk, List.getElem?_eq_getElem hlt⟩)
      rwa [List.length_nil, Nat.zero_add] at hverified
    · obtain ⟨⟨k, ⟨artifact, row⟩, hk, hbad⟩, -⟩ := hfail
      rw [List.length_nil, Nat.zero_add] at hbad
      exact hbad (hopen.artifacts k artifact (getElem?_zip.mp hk).1)
  · rw [validateUploadProjection_iff.mpr hopen.projection] at hfail
    simp at hfail

/-- The gate waits for nothing. -/
theorem immediate_verificationGate (upload : UploadRow) (manifest : Manifest)
    (rows : List UploadArtifactRow) : ImmediateE (verificationGate c upload manifest rows) := by
  have hfile {f : FileStore → Except IoError FileStore} {e : ApiError} {α : Type}
      {g : Unit → Handler ApiError α} (hg : ImmediateE (g ())) :
      ImmediateE ((liftM (fileOp f) : Handler ApiError (Except IoError Unit)) >>= fun r =>
        orFail e r >>= g) := by
    refine ImmediateE.bind (ImmediateE.lift (Immediate.atomic _ _)) fun r => ?_
    cases r with
    | ok a => exact hg
    | error err => exact Immediate.done _
  have hcopy (uploadId : String) (i : ℕ) (artifact : Artifact) (path : FilePath)
      (chunks : List UploadChunkRow) (copied : Bytes) :
      ImmediateE (copyChunks c uploadId i artifact path chunks copied) := by
    induction chunks generalizing copied with
    | nil => exact ImmediateE.pure _
    | cons chunk rest ih =>
      rw [copyChunks]
      refine ImmediateE.bind (Immediate.atomic _ _) fun bytes => ?_
      exact ImmediateE.guard (ImmediateE.guard (hfile (ImmediateE.guard (ih _))))
  have hartifact (row : UploadArtifactRow) (artifact : Artifact) (i : ℕ) (path : FilePath) :
      ImmediateE (prepareArtifact c upload row artifact i path) := by
    refine ImmediateE.bind ?_ fun _ => Immediate.atomic _ _
    refine ImmediateE.bind (ImmediateE.bind (Immediate.atomic _ _) fun _ => ?_) fun chunks => ?_
    · refine ImmediateE.bind (Immediate.done _) fun _ => ImmediateE.guard ?_
      exact ImmediateE.bind (Immediate.done _) fun _ => ImmediateE.pure _
    · refine hfile (hfile (ImmediateE.bind (hcopy _ _ _ _ _ _) fun _ => ?_))
      exact hfile (ImmediateE.guard (ImmediateE.pure _))
  have hcleanup (prepared : List PreparedArtifact) : (cleanupPrepared prepared).Immediate := by
    induction prepared with
    | nil => exact Immediate.done _
    | cons p rest ih => exact Immediate.bind (Immediate.atomic _ _) fun _ => ih
  have hloop (pairs : List (Artifact × UploadArtifactRow)) (prepared : List PreparedArtifact) :
      ImmediateE (prepareArtifacts c upload pairs prepared) := by
    induction pairs generalizing prepared with
    | nil => exact ImmediateE.pure _
    | cons pair rest ih =>
      obtain ⟨artifact, row⟩ := pair
      refine ImmediateE.bind (Immediate.done _) fun i => ?_
      refine ImmediateE.bind (ImmediateE.lift (Immediate.atomic _ _)) fun uuid => ?_
      refine ImmediateE.bind (Immediate.bind (hartifact row artifact i _) fun _ =>
        Immediate.done _) fun result => ?_
      cases result with
      | error e =>
        refine ImmediateE.bind (ImmediateE.lift (Immediate.atomic _ _)) fun _ => ?_
        exact ImmediateE.bind (ImmediateE.lift (hcleanup _)) fun _ => ImmediateE.throw _
      | ok _ => exact ih _
  exact ImmediateE.bind (Immediate.done _) fun _ => hloop _ _

/-- **`verificationGate_exact`** — the gate is exact. It waits for nothing, so it always returns;
and without I/O faults, whatever the tasks without the upload's lock do meanwhile, it succeeds
exactly when the rows are the projection of the manifest and every artifact has all its chunks, each
with its file, adding up to intact bytes. Where it fails, no file it has assembled is left. -/
theorem verificationGate_exact (c : Crates) (hdigests : c.HexDigests) (t : TaskId)
    (upload : UploadRow) (manifest : Manifest) (rows : List UploadArtifactRow) (s : Shared)
    (hdir : UploadDirOk upload.id s) :
    ImmediateE (verificationGate c upload manifest rows) ∧
      ∀ (r : Except ApiError (List PreparedArtifact)) (s' : Shared),
        (verificationGate c upload manifest rows).run.Ends faultless (LeavesUpload upload.id) t s
          r s' →
        ((∃ prepared, r = .ok prepared) ↔ GateOpen c s upload manifest rows) ∧
          ∀ e, r = .error e → ∀ i uuid,
            s'.fs.lookup (.assembledArtifact upload.id i uuid) =
              s.fs.lookup (.assembledArtifact upload.id i uuid) := by
  refine ⟨immediate_verificationGate upload manifest rows, fun r s' hends => ?_⟩
  have hinv : AtGate upload.id s s := ⟨hdir, fun _ => rfl, fun _ _ => rfl⟩
  have hothers : ∀ s₁ s₂, LeavesUpload upload.id s₁ s₂ →
      ∃ t', t' ≠ t ∧ (gate upload.id t s).guar t' s₁ s₂ := by
    intro s₁ s₂ hstep
    have hne : t + 1 ≠ t := Nat.succ_ne_self t
    exact ⟨t + 1, hne, fun heq => absurd heq hne, fun _ => hstep⟩
  have hout := (safe_verificationGate hdigests upload manifest rows hdir).ends hothers
    (fun _ _ _ _ => trivial) (fun r => ?_) hinv hends
  · cases r with
    | ok prepared => exact ⟨⟨fun _ => hout, fun _ => ⟨prepared, rfl⟩⟩, fun _ h => by simp at h⟩
    | error e =>
      refine ⟨⟨fun ⟨_, h⟩ => by simp at h, fun hopen => absurd hopen hout.1⟩, fun _ _ i uuid => ?_⟩
      exact hout.2.others i uuid (by simp)
  · cases r with
    | ok prepared => exact Stable.const t _
    | error e => exact (Stable.const t _).and (Scratch.stable _)

/-- The digests of the texts `abc`, `ab` and `c`. -/
def sampleDigests : List (Bytes × String) :=
  [([97, 98, 99], "ba7816bf8f01cfea414140de5dae2223b00361a396177a9cb410ff61f20015ad"),
    ([97, 98], "fb8e20fc2e4c3f248c60c39bd652f3c1347298bb977b8b4d5903b85055620603"),
    ([99], "2e7d2c03a9507ae265ecf5b5356885a53393a2029d241394997265a1a25aefc6")]

/-- Crates that know these digests and answer with that of no bytes elsewhere. -/
def hexCrates : Crates :=
  { Crates.sample [] with sha256Hex := fun bytes => (sampleDigests.lookup bytes).getD emptyDigest }

theorem hexCrates_hexDigests : hexCrates.HexDigests := by
  have hall : ∀ digest ∈ emptyDigest :: sampleDigests.map Prod.snd, digest.utf8ByteSize = 64 ∧
      ∀ ch ∈ digest.toList, lowerHex ch = some ch := by decide +kernel
  intro bytes
  refine hall _ ?_
  show (sampleDigests.lookup bytes).getD emptyDigest ∈ _
  cases hfound : sampleDigests.lookup bytes with
  | none => exact List.mem_cons_self
  | some digest =>
    exact List.mem_cons_of_mem _ (List.mem_map_of_mem (Crates.mem_of_lookup hfound))

/-- The text `abc`, uploaded in chunks of two bytes. -/
def chunkedArtifact : Artifact :=
  ⟨"notes.txt", none, 3, "sha256:ba7816bf8f01cfea414140de5dae2223b00361a396177a9cb410ff61f20015ad",
    3, "sha256:ba7816bf8f01cfea414140de5dae2223b00361a396177a9cb410ff61f20015ad", .identity⟩

def chunkedManifest : Manifest :=
    ⟨1, sampleManifest.session, sampleManifest.capture, [chunkedArtifact]⟩

def chunkedUpload : UploadRow where
  id := "upload"
  ownerNamespace := ownerNamespace
  sessionId := "session"
  clientId := "client"
  captureId := "capture"
  manifestSha256 := emptyDigest
  status := .artifactUploaded
  snapshotId := none
  createdAt := "now"
  completedAt := none
  chunkSizeBytes := 2
  chunkCount := 2
  declaredStoredSizeBytes := 3
  declaredOriginalSizeBytes := 3
  expiresAt := "later"
  artifactCount := 1
  totalStoredSizeBytes := 3
  totalOriginalSizeBytes := 3
  transferBytes := 0
  newlyPersistedBytes := 0

def chunkedRow : UploadArtifactRow :=
  ⟨"upload", 0, "notes.txt", none, 3,
    "ba7816bf8f01cfea414140de5dae2223b00361a396177a9cb410ff61f20015ad", 3,
    "ba7816bf8f01cfea414140de5dae2223b00361a396177a9cb410ff61f20015ad", .identity, 2⟩

/-- Both chunks are accepted, with their files. -/
def chunkedState : Shared :=
  { Shared.init with
    db := { Db.empty with
      uploadChunks :=
        [⟨"upload", 0, 1, 1, "2e7d2c03a9507ae265ecf5b5356885a53393a2029d241394997265a1a25aefc6",
            "now"⟩,
          ⟨"upload", 0, 0, 2, "fb8e20fc2e4c3f248c60c39bd652f3c1347298bb977b8b4d5903b85055620603",
            "now"⟩] }
    fs := ⟨[(.uploadDir "upload", .dir), (.artifactChunkDir "upload" 0, .dir),
      (.artifactChunk "upload" 0 0, .file [97, 98]), (.artifactChunk "upload" 0 1, .file [99])],
      [], []⟩ }

/-- The gate on that state, alone, up to what it returns. -/
def chunkedGate : Option (List PreparedArtifact × Shared) :=
  ((verificationGate hexCrates chunkedUpload chunkedManifest [chunkedRow]).run.replay 0 freshEnv
    ((List.range 10).map (sampleEnv 0)) chunkedState).bind fun
    | (.done (.ok prepared), s) => some (prepared, s)
    | _ => none

/-- It lets the artifact through, so the artifact is complete and intact. -/
theorem verificationGate_exact_chunked :
    (∃ prepared s', (verificationGate hexCrates chunkedUpload chunkedManifest [chunkedRow]).run.Ends
      faultless (LeavesUpload "upload") 0 chunkedState (.ok prepared) s') ∧
      GateOpen hexCrates chunkedState chunkedUpload chunkedManifest [chunkedRow] := by
  have hruns : chunkedGate.isSome = true := by decide +kernel
  obtain ⟨⟨prepared, s'⟩, hgate⟩ := Option.isSome_iff_exists.mp hruns
  obtain ⟨⟨rest, s''⟩, hreplay, hdone⟩ := Option.bind_eq_some_iff.mp hgate
  have hrest : rest = .done (.ok prepared) ∧ s'' = s' := by
    split at hdone
    · next heq =>
      obtain ⟨rfl, rfl⟩ := Prod.mk.inj heq
      obtain ⟨rfl, rfl⟩ := Prod.mk.inj (Option.some.inj hdone)
      exact ⟨rfl, rfl⟩
    · simp at hdone
  obtain ⟨rfl, rfl⟩ := hrest
  have henv : ∀ e ∈ (List.range 10).map (sampleEnv 0), ∀ s, freshEnv e s = true →
      faultless.envOk e s := by
    intro e he s hfresh
    obtain ⟨k, hk, rfl⟩ := List.mem_map.mp he
    have hlt : k < 256 := lt_trans (List.mem_range.mp hk) (by norm_num)
    exact ⟨⟨isUuidV7_sampleUuid hlt, of_decide_eq_true hfresh⟩, rfl⟩
  have hends : (verificationGate hexCrates chunkedUpload chunkedManifest [chunkedRow]).run.Ends
      faultless (LeavesUpload "upload") 0 chunkedState (.ok prepared) s'' :=
    (Prog.steps_of_replay henv hreplay).lift id fun _ _ hstep => .own hstep
  have hdir : UploadDirOk "upload" chunkedState :=
    ⟨Or.inr (by decide +kernel), fun i uuid hthere => absurd rfl hthere⟩
  exact ⟨⟨prepared, s'', hends⟩, ((verificationGate_exact hexCrates hexCrates_hexDigests 0
    chunkedUpload chunkedManifest [chunkedRow] chunkedState hdir).2 _ _ hends).1.mp ⟨prepared, rfl⟩⟩

end Patwari
