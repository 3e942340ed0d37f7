/-
# Patwari.Downloads — whether what was accepted can be served.

The ingest validator and the encoder of the download headers read the same strings by different
grammars: text without control characters there, the bytes of a header value here. §1 says what a
header carries and that every generated part of the headers is carried, §2 reads the metadata of a
download off an accepted manifest, §3 compares the grammars. A header takes every byte of a text
without control characters, so whatever was accepted has its headers.
-/
import Patwari.Normalization

namespace Patwari

open Lib (Json)

variable {c : Crates}

/-! ## §1 — Header text. -/

/-- **`HeaderText value`** — the text has no control characters but tabs. -/
def HeaderText (value : String) : Prop :=
  ∀ ch ∈ value.toList, ch = '\t' ∨ isAsciiControl ch = false

/-- The bytes of such a text are those a header value takes. -/
theorem HeaderText.bytes {value : String} (h : HeaderText value) :
    ∀ b ∈ utf8 value, b = 9 ∨ 32 ≤ b ∧ b ≠ 127 := by
  intro b hb
  rw [← String.ofList_toList (s := value), utf8_ofList, List.mem_flatMap] at hb
  obtain ⟨ch, hch, hb⟩ := hb
  rw [← UInt8.toNat_inj, UInt8.le_iff_toNat_le, ne_eq, ← UInt8.toNat_inj]
  by_cases hascii : ch.toNat < 128
  · rw [Lib.utf8EncodeChar_ascii hascii, List.mem_singleton] at hb
    have hbyte : b.toNat = ch.toNat := by
      rw [hb]
      exact UInt8.toNat_ofNat_of_lt' (hascii.trans (by norm_num))
    rcases h ch hch with rfl | hplain
    · exact Or.inl hbyte
    · simp only [isAsciiControl, Bool.or_eq_false_iff, decide_eq_false_iff_not] at hplain
      rw [hbyte]
      exact Or.inr ⟨Nat.not_lt.mp hplain.1, hplain.2⟩
  · have hhigh := (Lib.utf8EncodeChar_high (Nat.not_lt.mp hascii)).2 b hb
    exact Or.inr ⟨le_trans (by decide) hhigh, fun heq => absurd (heq ▸ hhigh) (by decide)⟩

theorem headerValue_of_headerText (hh : c.HeaderValues) {value : String} (h : HeaderText value) :
    headerValue c value = .ok value := by
  unfold headerValue
  rw [if_pos ((hh.fromStr value).mpr h.bytes)]
  rfl

/-- Printable ASCII is no control character. -/
theorem not_isAsciiControl {ch : Char} (h : 32 ≤ ch.toNat ∧ ch.toNat < 127) :
    isAsciiControl ch = false := by
  simp only [isAsciiControl, Bool.or_eq_false_iff, decide_eq_false_iff_not]
  omega

theorem HeaderText.append {a b : String} (ha : HeaderText a) (hb : HeaderText b) :
    HeaderText (a ++ b) := by
  intro ch hch
  rw [String.toList_append, List.mem_append] at hch
  rcases hch with hch | hch
  · exact ha ch hch
  · exact hb ch hch

theorem headerText_toString (n : ℕ) : HeaderText (toString n) := by
  intro ch hch
  have hdigits : (toString n).toList = Nat.toDigits 10 n := String.toList_ofList
  rw [hdigits] at hch
  have hdigit : ch.isDigit = true := Nat.isDigit_of_mem_toDigits (by omega) (by omega) hch
  simp only [Char.isDigit, Bool.and_eq_true, decide_eq_true_eq, UInt32.le_iff_toNat_le, ge_iff_le]
    at hdigit
  have hvalue : ch.toNat = ch.val.toNat := rfl
  have hlow : '0'.val.toNat = 48 := rfl
  have hhigh : '9'.val.toNat = 57 := rfl
  exact Or.inr (not_isAsciiControl (by omega))

theorem encodeSextet_visible : ∀ n < 64,
    32 ≤ (Lib.Base64.encodeSextet n).toNat ∧ (Lib.Base64.encodeSextet n).toNat < 127 := by
  decide +kernel

theorem encodeList_visible (bytes : Bytes) :
    ∀ ch ∈ Lib.Base64.encodeList bytes, 32 ≤ ch.toNat ∧ ch.toNat < 127 := by
  intro ch hch
  rw [Lib.Base64.encodeList_eq_map] at hch
  obtain ⟨n, hn, rfl⟩ := List.mem_map.mp hch
  exact encodeSextet_visible n (Lib.Base64.sextets_lt bytes n hn)

theorem headerText_encode (bytes : Bytes) : HeaderText (Lib.Base64.encode bytes) := by
  intro ch hch
  rw [Lib.Base64.encode, String.toList_ofList] at hch
  exact Or.inr (not_isAsciiControl (encodeList_visible bytes ch hch))

theorem headerText_standardBase64 (bytes : Bytes) : HeaderText (standardBase64 bytes) := by
  intro ch hch
  simp only [standardBase64, String.toList_ofList, List.mem_append, List.mem_map] at hch
  rcases hch with ⟨letter, hletter, rfl⟩ | hch
  · have hvisible := encodeList_visible bytes letter hletter
    split_ifs
    · exact Or.inr (by decide)
    · exact Or.inr (by decide)
    · exact Or.inr (not_isAsciiControl hvisible)
  · rw [(List.mem_replicate.mp hch).2]
    exact Or.inr (by decide)

/-- A digest without its algorithm is part of the text it was taken from. -/
theorem HeaderText.digestDocumentValue {value : String} (h : HeaderText value) :
    HeaderText (digestDocumentValue value) := by
  have hprefix : HeaderText "sha256:" := by
    unfold HeaderText
    decide
  refine hprefix.append ?_
  unfold digestStorageValue stripPrefix
  split_ifs
  · intro ch hch
    rw [Option.getD_some, String.toList_ofList, Lib.chars_eq value] at hch
    exact h ch (List.mem_of_mem_drop hch)
  · exact h

/-- Text that was validated is header text. -/
theorem PlainText.headerText {maximum : ℕ} {value : String} (h : PlainText maximum value) :
    HeaderText value := fun ch hch => Or.inr (h.2 ch hch)

/-! ## §2 — The metadata of a download. -/

/-- What `download_metadata_from_row` returns for an artifact with these digests. -/
def Artifact.downloadMetadata (artifact : Artifact) (originalSha256 storedSha256 : String) :
    DownloadMetadata where
  logicalPath := artifact.logicalPath
  mediaType := artifact.mediaType
  originalSizeBytes := artifact.originalSizeBytes.toNat
  originalSha256 := digestDocumentValue originalSha256
  storedSizeBytes := artifact.storedSizeBytes.toNat
  storedSha256 := storedSha256
  compression := artifact.compression

theorem DocumentDigest.storage {value : String} (h : DocumentDigest value) :
    canonicalDigest value = some (digestStorageValue value) ∧
      storageDigest (digestStorageValue value) = some (digestStorageValue value) ∧
      HeaderText (digestStorageValue value) := by
  obtain ⟨hex, hstrip, hsize, hlower⟩ := h
  have hvalue : digestStorageValue value = hex := by
    rw [digestStorageValue, hstrip, Option.getD_some]
  have hstored : storageDigest hex = some hex := by
    unfold storageDigest
    rw [if_pos ⟨hsize, List.all_eq_true.mpr fun ch hch =>
      decide_eq_true (hlower ch (Lib.chars_eq hex ▸ hch))⟩]
  refine ⟨?_, ?_, ?_⟩
  · rw [canonicalDigest, hstrip, Option.bind_some, hvalue]
    exact hstored
  · rw [hvalue]
    exact hstored
  · rw [hvalue]
    intro ch hch
    obtain ⟨hlow, hhigh, -⟩ := lowerHex_plain (hlower ch hch)
    exact Or.inr (not_isAsciiControl ⟨hlow, hhigh⟩)

/-- Rows written from an accepted manifest have download metadata. -/
theorem downloadMetadataFromRow_accepted (hJson : c.JsonReads) {manifest : Manifest} {index : ℕ}
    {artifact : Artifact} {row : DownloadRow} (hartifact : manifest.artifacts[index]? =
      some artifact)
    (horiginal : DocumentDigest artifact.originalSha256)
    (hstored : DocumentDigest artifact.storedSha256)
    (htext : row.manifest.canonicalJson = manifest.canonicalJson)
    (hsha : row.manifest.sha256 = c.sha256Hex (utf8 manifest.canonicalJson))
    (hrow : rowMatches index artifact row.artifact row.blob = true) :
    downloadMetadataFromRow c row = .ok (artifact.downloadMetadata
      (digestStorageValue artifact.originalSha256) (digestStorageValue artifact.storedSha256)) := by
  obtain ⟨horiginal, horiginal', -⟩ := horiginal.storage
  obtain ⟨hstored, hstored', -⟩ := hstored.storage
  obtain ⟨hindex, hpath, hmedia, hosize, hosha, hssize, hssha, hcompression⟩ :=
    of_decide_eq_true hrow
  have hread := parseManifest_canonicalJson hJson manifest
  have hnonneg (n : ℕ) : ¬ (n : ℤ) < 0 := by omega
  unfold downloadMetadataFromRow
  rw [htext, hsha, hread, hindex, hpath, hmedia, hosize, hosha, hssize, hssha, hcompression]
  simp only [throw_bind, ite_throw_eq_ok, okOr_bind_ok, Int.toNat_natCast]
  refine ⟨not_not_intro rfl, manifest, rfl, hnonneg _, artifact, hartifact, _, horiginal, _,
    hstored,
    ?_, ?_, rfl⟩
  · rintro (h | h)
    · exact hnonneg _ h
    · exact hnonneg _ h
  · simp only [ne_eq, not_true_eq_false, or_self, not_false_eq_true, horiginal', hstored']

/-! ## §3 — The two grammars. -/

/-- An artifact whose texts a header carries has its headers. -/
theorem addDownloadHeaders_total (hh : c.HeaderValues) (metadata : DownloadMetadata)
    {storedDigestBase64 : String} (hmime : metadata.mediaType.all c.mimeParses = true)
    (hmedia : ∀ text ∈ metadata.mediaType, HeaderText text)
    (hdigest : HeaderText storedDigestBase64) (horiginal : HeaderText metadata.originalSha256)
    (hstored : HeaderText metadata.storedSha256) :
    ∃ headers, addDownloadHeaders c metadata storedDigestBase64 = .ok headers := by
  have hvalue {value : String} (h : HeaderText value) := headerValue_of_headerText hh h
  have hsize (n : ℕ) := hvalue (headerText_toString n)
  have hlabels : HeaderText "application/octet-stream" ∧ HeaderText "SHA-256=" ∧
      HeaderText "sha-256=:" ∧ HeaderText ":" := by
    unfold HeaderText
    decide
  obtain ⟨hdefault, hsha, hcontent, hcolon⟩ := hlabels
  have hdigest' := hvalue (hsha.append hdigest)
  have hcontent' := hvalue ((hcontent.append hdigest).append hcolon)
  have hpath := hvalue (headerText_encode (utf8 metadata.logicalPath))
  unfold addDownloadHeaders
  rw [if_neg (not_not_intro hmime)]
  simp only [hsize, hdigest', hcontent', hpath, hvalue horiginal,
    hvalue hstored.digestDocumentValue,
    ok_bind]
  cases hkind : metadata.mediaType with
  | none =>
    simp only [Option.getD_none, hvalue hdefault, ok_bind]
    exact ⟨_, rfl⟩
  | some text =>
    simp only [Option.getD_some, hvalue (hmedia text hkind), ok_bind]
    exact ⟨_, rfl⟩

/-- Rows that match an artifact of an accepted manifest have download metadata and headers. -/
theorem downloadHeaders_total (hJson : c.JsonReads) (hh : c.HeaderValues) {limits : ManifestLimits}
    {input : ManifestInput} {manifest : Manifest} (h : normalizeManifest c input limits =
      .ok manifest)
    {index : ℕ} {artifact : Artifact} (hartifact : manifest.artifacts[index]? = some artifact)
    (row : DownloadRow) (htext : row.manifest.canonicalJson = manifest.canonicalJson)
    (hsha : row.manifest.sha256 = c.sha256Hex (utf8 manifest.canonicalJson))
    (hrow : rowMatches index artifact row.artifact row.blob = true) (storedDigest : Bytes) :
    ∃ metadata, downloadMetadataFromRow c row = .ok metadata ∧
      ∃ headers, addDownloadHeaders c metadata (standardBase64 storedDigest) = .ok headers := by
  obtain ⟨artifacts, -, hrules, rfl⟩ := normalizeManifest_ok.mp h
  have hmem : artifact ∈ artifacts :=
    (sortByPath_perm artifacts).mem_iff.mp (List.mem_of_getElem? hartifact)
  have haccepted := hrules.admissible.each artifact hmem
  have horiginal := haccepted.originalSha256.storage.2.2
  have hstored := haccepted.storedSha256.storage.2.2
  have hmetadata := downloadMetadataFromRow_accepted hJson hartifact haccepted.originalSha256
    haccepted.storedSha256 htext hsha hrow
  have hmime : artifact.mediaType.all c.mimeParses = true := by
    cases hmedia : artifact.mediaType with
    | none => rfl
    | some text => exact (haccepted.mediaType text hmedia).2
  refine ⟨_, hmetadata, addDownloadHeaders_total hh _ hmime (fun text htext => ?_)
    (headerText_standardBase64 storedDigest) horiginal.digestDocumentValue hstored⟩
  exact (haccepted.mediaType text htext).1.headerText

/-- **`downloadHeaders_accepted`** — rows written for an artifact of an accepted manifest have
download metadata, and its headers are written, whatever the stored digest. -/
theorem downloadHeaders_accepted (c : Crates) (hJson : c.JsonReads) (hh : c.HeaderValues)
    (limits : ManifestLimits) (input : ManifestInput) (manifest : Manifest)
    (h : normalizeManifest c input limits = .ok manifest) (index : ℕ) (artifact : Artifact)
    (hartifact : manifest.artifacts[index]? = some artifact) (row : DownloadRow)
    (htext : row.manifest.canonicalJson = manifest.canonicalJson)
    (hsha : row.manifest.sha256 = c.sha256Hex (utf8 manifest.canonicalJson))
    (hrow : rowMatches index artifact row.artifact row.blob = true) (storedDigest : Bytes) :
    ∃ metadata, downloadMetadataFromRow c row = .ok metadata ∧
      ∃ headers, addDownloadHeaders c metadata (standardBase64 storedDigest) = .ok headers :=
  downloadHeaders_total hJson hh h hartifact row htext hsha hrow storedDigest

/-! ### A media type beyond ASCII. -/

/-- A quoted parameter with a letter beyond ASCII. -/
def quotedMediaType : String := "text/plain; name=\"\u00e9\""

def quotedArtifact : Artifact :=
  ⟨"notes.txt", some quotedMediaType, 0, "sha256:" ++ emptyDigest, 0, "sha256:" ++ emptyDigest,
    .identity⟩

def quotedInput : ManifestInput := { sampleManifest with artifacts := some [quotedArtifact] }

def quotedManifest : Manifest :=
  ⟨1, sampleManifest.session, sampleManifest.capture, [quotedArtifact]⟩

def quotedManifestDigest : String :=
  "b929cabafd4f88dafea246f3df6cfe628c38a0e728ed610d5ed830210929da20"

/-- Crates that know the media type and the digest of the manifest. -/
def quotedCrates : Crates :=
  { Crates.sample [(utf8 quotedManifest.canonicalJson, quotedManifestDigest)] with
    mimeParses := fun text => decide (text = quotedMediaType) }

theorem quotedCrates_sha256Hex {bytes : Bytes} {digest : String}
    (h : [(utf8 quotedManifest.canonicalJson, quotedManifestDigest)].lookup bytes = some digest) :
    quotedCrates.sha256Hex bytes = digest :=
  Crates.sample_sha256Hex h

/-- The rows a completion writes for the artifact. -/
def quotedRow : DownloadRow where
  artifact := ⟨"artifact", "snapshot", "blob", "notes.txt", some quotedMediaType, 0, emptyDigest,
    "2026-01-01T00:00:00Z", 0, 0⟩
  manifest := ⟨"manifest", "upload", quotedManifest.canonicalJson, quotedManifestDigest,
    "2026-01-01T00:00:00Z"⟩
  blob := ⟨"blob", ownerNamespace, emptyDigest, 0, .identity, "2026-01-01T00:00:00Z", none, none,
    none⟩

theorem quotedRow_matches : rowMatches 0 quotedArtifact quotedRow.artifact quotedRow.blob =
    true := by
  have hvalue : emptyDigest = digestStorageValue ("sha256:" ++ emptyDigest) := by decide +kernel
  exact decide_eq_true ⟨rfl, rfl, rfl, rfl, hvalue, rfl, hvalue, rfl⟩

/-- An artifact of this media type is accepted, written and served. -/
theorem downloadHeaders_accepted_quoted :
    normalizeManifest quotedCrates quotedInput sampleConfig.manifestLimits = .ok quotedManifest ∧
    ∃ metadata, downloadMetadataFromRow quotedCrates quotedRow = .ok metadata ∧
      ∃ headers, addDownloadHeaders quotedCrates metadata (standardBase64 []) = .ok headers := by
  have haccepted : normalizeManifest quotedCrates quotedInput sampleConfig.manifestLimits =
      .ok quotedManifest := rfl
  have hreads : quotedCrates.JsonReads := ⟨(Crates.sample_jsonReads []).fromSlice⟩
  have hheaders : quotedCrates.HeaderValues := ⟨(Crates.sample_headerValues []).fromStr⟩
  have hsha : quotedRow.manifest.sha256 =
      quotedCrates.sha256Hex (utf8 quotedManifest.canonicalJson) :=
    (quotedCrates_sha256Hex List.lookup_cons_self).symm
  exact ⟨haccepted, downloadHeaders_accepted _ hreads hheaders _ _ _ haccepted 0 _ rfl quotedRow rfl
    hsha quotedRow_matches []⟩

end Patwari
