/-
# Patwari.Normalization — which manifests are accepted, and as what.

Normalization decides in one pass over the artifacts, with running totals, a set of the paths seen
and a map of the representations seen. §1 states the rules one by one, without any order. §2 follows
the pass: after every artifact its state describes exactly the artifacts passed so far, and it goes
on as long as these keep the rules. §3 is the result, that acceptance is the rules and the outcome
is the declared artifacts in path order, so neither depends on the order they were declared in. §4
reads off what the rules are for: an accepted set can be unpacked where letter case does not count.
§5 is the way back: a stored manifest is read, normalized and written as itself.
-/
import Patwari.Server

namespace Patwari

open Lib (Json StringMap)

variable {c : Crates} {limits : ManifestLimits}

/-- A check and what follows it. -/
theorem check_bind_ok {ε α : Type} {x : Except ε Unit} {f : Unit → Except ε α} {r : α} :
    (x >>= f) = .ok r ↔ x = .ok () ∧ f () = .ok r := by
  rw [bind_eq_ok]
  exact ⟨fun ⟨(), hx, hf⟩ => ⟨hx, hf⟩, fun ⟨hx, hf⟩ => ⟨(), hx, hf⟩⟩

theorem ok_bind {ε α β : Type} (a : α) (f : α → Except ε β) : (Except.ok a >>= f) = f a := rfl

theorem okOr_bind_ok {ε α β : Type} {x : Option α} {e : ε} {f : α → Except ε β} {r : β} :
    (okOr x e >>= f) = .ok r ↔ ∃ a, x = some a ∧ f a = .ok r := by
  rw [bind_eq_ok]
  simp only [okOr_eq_ok]

/-! ## §1 — The rules. -/

/-- Text of at most `maximum` bytes without control characters. -/
def PlainText (maximum : ℕ) (value : String) : Prop :=
  value.utf8ByteSize ≤ maximum ∧ ∀ ch ∈ value.toList, isAsciiControl ch = false

theorem validateText_ok {value : String} {maximum : ℕ} {message : String} :
    validateText value maximum message = .ok () ↔ PlainText maximum value := by
  unfold validateText PlainText
  rw [ite_throw_eq_ok]
  simp

theorem validateNonemptyText_ok {value : String} {maximum : ℕ} {message : String} :
    validateNonemptyText value maximum message = .ok () ↔
      value ≠ "" ∧ PlainText maximum value := by
  unfold validateNonemptyText
  simp only [throw_bind, ite_throw_eq_ok, validateText_ok, ne_eq]

theorem validateOptionalText_ok {value : Option String} {maximum : ℕ} :
    validateOptionalText value maximum = .ok () ↔ ∀ text ∈ value, PlainText maximum text := by
  cases value with
  | none => simp [validateOptionalText]
  | some text => simp [validateOptionalText, validateText_ok]

/-- A component of a portable path: letters, digits, `.`, `_` and `-`, no dot at the end, and not a
name Windows reserves. -/
structure PortableComponent (part : List Char) : Prop where
  nonempty : part ≠ []
  chars : ∀ ch ∈ part, ch.isAlphanum = true ∨ ch = '.' ∨ ch = '_' ∨ ch = '-'
  ending : part.getLast? ≠ some '.'
  unreserved : isWindowsReservedComponent part = false

/-- A portable relative path: portable components joined by slashes. -/
def PortablePath (path : String) : Prop :=
  path.utf8ByteSize ≤ maxLogicalPathBytes ∧
    ∀ part ∈ path.toList.splitOn '/', PortableComponent part

theorem validComponent_iff {part : List Char} :
    validComponent part = true ↔ PortableComponent part := by
  unfold validComponent
  simp only [Bool.and_eq_true, Bool.not_eq_true', Bool.or_eq_false_iff, List.isEmpty_eq_false_iff,
    decide_eq_false_iff_not, List.all_eq_true, Bool.or_eq_true, decide_eq_true_eq, or_assoc]
  constructor
  · rintro ⟨⟨⟨⟨⟨⟨hne, -⟩, -⟩, hending⟩, -⟩, hreserved⟩, hchars⟩
    exact ⟨hne, hchars, hending, hreserved⟩
  · rintro ⟨hne, hchars, hending, hreserved⟩
    refine ⟨⟨⟨⟨⟨⟨hne, ?_⟩, ?_⟩, hending⟩, ?_⟩, hreserved⟩, hchars⟩
    · -- a lone dot, like two of them, ends in one
      rintro rfl
      exact hending rfl
    · rintro rfl
      exact hending rfl
    · intro hspace
      have hmem : ' ' ∈ part := List.mem_of_getLast? hspace
      exact absurd (hchars ' ' hmem) (by decide)

/-- Every character of a list is the separator or in one of the parts. -/
theorem mem_splitOn {x ch : Char} {cs : List Char} (h : ch ∈ cs) :
    ch = x ∨ ∃ part ∈ cs.splitOn x, ch ∈ part := by
  have hjoin : [x].intercalate (cs.splitOn x) = cs := List.intercalate_splitOn x
  rw [← hjoin] at h
  generalize cs.splitOn x = parts at h ⊢
  induction parts with
  | nil => simp at h
  | cons part rest ih =>
    cases rest with
    | nil =>
      rw [List.intercalate_singleton] at h
      exact Or.inr ⟨part, List.mem_cons_self, h⟩
    | cons next rest =>
      rw [List.intercalate_cons_cons, List.append_assoc, List.mem_append, List.mem_append,
        List.mem_singleton] at h
      rcases h with h | h | h
      · exact Or.inr ⟨part, List.mem_cons_self, h⟩
      · exact Or.inl h
      · exact (ih h).imp id fun ⟨p, hp, hch⟩ => ⟨p, List.mem_cons_of_mem _ hp, hch⟩

/-- The characters of a portable path. -/
theorem PortablePath.char {path : String} (h : PortablePath path) {ch : Char}
    (hch : ch ∈ path.toList) :
    ch.isAlphanum = true ∨ ch = '.' ∨ ch = '_' ∨ ch = '-' ∨ ch = '/' := by
  rcases mem_splitOn (x := '/') hch with rfl | ⟨part, hpart, hmem⟩
  · simp
  · rcases (h.2 part hpart).chars ch hmem with h | h | h | h <;> simp [h]

theorem PortablePath.head {path : String} (h : PortablePath path) :
    path ≠ "" ∧ path.toList.head? ≠ some '/' := by
  constructor
  · rintro rfl
    exact (h.2 [] (by simp)).nonempty rfl
  · intro hhead
    obtain ⟨rest, hrest⟩ : ∃ rest, path.toList = '/' :: rest := List.head?_eq_some_iff.mp hhead
    have hmem : [] ∈ path.toList.splitOn '/' := by
      rw [hrest, List.splitOn_cons_eq_if_modifyHead]
      simp
    exact (h.2 [] hmem).nonempty rfl

/-- The characters of a portable path are below 128 and none of those the path check names. -/
theorem portableChar {ch : Char}
    (h : ch.isAlphanum = true ∨ ch = '.' ∨ ch = '_' ∨ ch = '-' ∨ ch = '/') :
    ch.toNat < 128 ∧ isAsciiControl ch = false ∧ ch ≠ '\\' ∧ ch ≠ ':' := by
  rcases h with h | rfl | rfl | rfl | rfl
  · replace h : (decide (ch.val ≥ 'A'.val ∧ ch.val ≤ 'Z'.val) ||
        (decide (ch.val ≥ 'a'.val) && decide (ch.val ≤ 'z'.val)) ||
        (decide (ch.val ≥ '0'.val) && decide (ch.val ≤ '9'.val))) = true := h
    simp only [Bool.or_eq_true, Bool.and_eq_true, decide_eq_true_eq, ge_iff_le,
      UInt32.le_iff_toNat_le] at h
    have hnat : ch.toNat = ch.val.toNat := rfl
    refine ⟨by simp at h; omega, ?_, ?_, ?_⟩
    · simp only [isAsciiControl, Bool.or_eq_false_iff, decide_eq_false_iff_not]
      simp at h
      omega
    · rintro rfl
      simp at h
    · rintro rfl
      simp at h
  all_goals decide

theorem validateLogicalPath_ok {path : String} :
    validateLogicalPath path = .ok () ↔ PortablePath path := by
  unfold validateLogicalPath
  rw [ite_throw_eq_ok]
  simp only [not_or, not_lt, not_not, List.all_eq_true, validComponent_iff, pure_eq_ok,
    and_true]
  constructor
  · rintro ⟨-, hlength, -, -, -, -, -, hparts⟩
    exact ⟨hlength, hparts⟩
  · intro h
    refine ⟨h.head.1, h.1, h.head.2, ?_, ?_, ?_, ?_, h.2⟩
    · exact fun hmem => (portableChar (h.char hmem)).2.2.1 rfl
    · exact fun hmem => (portableChar (h.char hmem)).2.2.2 rfl
    · exact fun ch hch => decide_eq_true (portableChar (h.char hch)).1
    · rw [Bool.not_eq_true, List.any_eq_false]
      exact fun ch hch => by simp [(portableChar (h.char hch)).2.1]

/-- A digest as documents write it: the algorithm and 64 lowercase hexadecimal digits. -/
def DocumentDigest (value : String) : Prop :=
  ∃ hex, stripPrefix "sha256:" value = some hex ∧ hex.utf8ByteSize = 64 ∧
    ∀ ch ∈ hex.toList, lowerHex ch = some ch

theorem validateDigest_ok {value : String} :
    validateDigest value = .ok () ↔ DocumentDigest value := by
  unfold validateDigest DocumentDigest validateContentHash
  cases stripPrefix "sha256:" value <;> simp

/-- What one artifact must satisfy whatever else is declared. -/
structure ArtifactRules (c : Crates) (limits : ManifestLimits) (a : ArtifactInput) : Prop where
  path : PortablePath a.logicalPath
  mediaType : ∀ text ∈ a.mediaType, PlainText maxContextValueBytes text ∧ c.mimeParses text = true
  originalSha256 : DocumentDigest a.originalSha256
  storedSha256 : DocumentDigest a.storedSha256
  originalSize : a.originalSizeBytes.toNat ≤ limits.artifactOriginalBytes ∧
    a.originalSizeBytes.toNat ≤ maxSqliteI64
  storedSize : a.storedSizeBytes.toNat ≤ limits.artifactStoredBytes ∧
    a.storedSizeBytes.toNat ≤ maxSqliteI64

/-- Artifacts with one stored digest are declared with one size and one compression. -/
def OneRepresentation (artifacts : List Artifact) : Prop :=
  ∀ a ∈ artifacts, ∀ b ∈ artifacts,
    digestStorageValue a.storedSha256 = digestStorageValue b.storedSha256 →
      a.storedSizeBytes = b.storedSizeBytes ∧ a.compression = b.compression

/-- A path as it is compared: without letter case. -/
def foldedPath (a : Artifact) : String := toAsciiLowercase a.logicalPath

def originalTotal (artifacts : List Artifact) : ℕ :=
  (artifacts.map fun a => a.originalSizeBytes.toNat).sum

def storedTotal (artifacts : List Artifact) : ℕ :=
  (artifacts.map fun a => a.storedSizeBytes.toNat).sum

/-- What a set of artifacts must satisfy apart from the nesting of its paths. -/
structure Admissible (c : Crates) (limits : ManifestLimits) (artifacts : List ArtifactInput) :
    Prop where
  each : ∀ a ∈ artifacts, ArtifactRules c limits a
  distinct : (artifacts.map foldedPath).Nodup
  representation : OneRepresentation artifacts
  originalTotal : originalTotal artifacts ≤ limits.snapshotOriginalBytes ∧
    originalTotal artifacts < 2 ^ 64
  storedTotal : storedTotal artifacts ≤ limits.snapshotStoredBytes ∧ storedTotal artifacts < 2 ^ 64

/-- `parent` is a proper directory prefix of `path`. -/
def DirectoryPrefix (parent path : String) : Prop :=
  ∃ rest, path.toList = parent.toList ++ '/' :: rest

/-- What the context of a capture must satisfy. -/
structure CaptureRules (c : Crates) (capture : CaptureInput) : Prop where
  timestamp : ∃ instant text, c.parseRfc3339 capture.capturedAt = some instant ∧
    c.formatRfc3339 instant = some text
  texts : ∀ value ∈ [capture.sourceCursor, capture.sourceStateHash, capture.project,
    capture.repository, capture.branch, capture.sourceAgentVersion, capture.munshiVersion],
    ∀ text ∈ value, PlainText maxContextValueBytes text
  version : capture.artifactSetVersion ≠ 0
  entries : capture.sourceMetadata.entries.length ≤ maxMetadataEntries
  metadata : ∀ e ∈ capture.sourceMetadata.entries,
    (e.1 ≠ "" ∧ PlainText maxMetadataKeyBytes e.1) ∧ PlainText maxMetadataValueBytes e.2

/-- The artifacts of a request: the array or the legacy artifact, exactly one of the two. -/
def ManifestInput.declared (input : ManifestInput) : Option (List ArtifactInput) :=
  match input.artifacts, input.artifact with
  | some artifacts, none => some artifacts
  | none, some artifact => some [artifact]
  | _, _ => none

/-- The rules of a manifest that declares these artifacts. -/
structure PortableManifest (c : Crates) (limits : ManifestLimits) (input : ManifestInput)
    (artifacts : List ArtifactInput) : Prop where
  schema : input.schemaVersion = 1
  sourceAgent : input.session.sourceAgent ≠ "" ∧
    PlainText maxSourceAgentBytes input.session.sourceAgent
  sourceSessionId : input.session.sourceSessionId ≠ "" ∧
    PlainText maxSourceSessionIdBytes input.session.sourceSessionId
  capture : CaptureRules c input.capture
  count : artifacts ≠ [] ∧ artifacts.length ≤ limits.artifactCount
  admissible : Admissible c limits artifacts
  unnested : ∀ a ∈ artifacts, ∀ b ∈ artifacts, ¬ DirectoryPrefix (foldedPath a) (foldedPath b)

/-! ## §2 — The pass over the artifacts. -/

/-- The state of the pass describes the artifacts it has passed. -/
structure Gathered (artifacts : List ArtifactInput) (st : NormalizeState) : Prop where
  originalTotal : st.originalTotal = originalTotal artifacts
  storedTotal : st.storedTotal = storedTotal artifacts
  paths : st.portablePaths = (artifacts.map foldedPath).reverse
  known : ∀ a ∈ artifacts, st.representations.lookup (digestStorageValue a.storedSha256) =
    some (a.storedSizeBytes, a.compression)
  noOthers : ∀ d r, st.representations.lookup d = some r →
    ∃ a ∈ artifacts, digestStorageValue a.storedSha256 = d
  normalized : st.normalized = artifacts

theorem Gathered.empty : Gathered [] ⟨0, 0, [], [], []⟩ :=
  ⟨rfl, rfl, rfl, by simp, by simp, rfl⟩

@[simp] theorem originalTotal_singleton (a : Artifact) :
    originalTotal [a] = a.originalSizeBytes.toNat := by
  simp [originalTotal]

@[simp] theorem storedTotal_singleton (a : Artifact) :
    storedTotal [a] = a.storedSizeBytes.toNat := by
  simp [storedTotal]

@[simp] theorem originalTotal_append (as bs : List Artifact) :
    originalTotal (as ++ bs) = originalTotal as + originalTotal bs := by
  simp [originalTotal]

@[simp] theorem storedTotal_append (as bs : List Artifact) :
    storedTotal (as ++ bs) = storedTotal as + storedTotal bs := by
  simp [storedTotal]

theorem Admissible.nil : Admissible c limits [] where
  each := by simp
  distinct := by simp
  representation := by simp [OneRepresentation]
  originalTotal := ⟨Nat.zero_le _, by decide⟩
  storedTotal := ⟨Nat.zero_le _, by decide⟩

/-- Fewer artifacts keep the rules. -/
theorem Admissible.front {as bs : List ArtifactInput} (h : Admissible c limits (as ++ bs)) :
    Admissible c limits as := by
  have horiginal := h.originalTotal
  have hstored := h.storedTotal
  rw [originalTotal_append] at horiginal
  rw [storedTotal_append] at hstored
  have hmem : ∀ a ∈ as, a ∈ as ++ bs := fun a ha => List.mem_append_left _ ha
  refine ⟨fun a ha => h.each a (hmem a ha), ?_, ?_, ⟨by omega, by omega⟩, ⟨by omega, by omega⟩⟩
  · have hdistinct := h.distinct
    rw [List.map_append] at hdistinct
    exact hdistinct.of_append_left
  · exact fun a ha b hb => h.representation a (hmem a ha) b (hmem b hb)

theorem validateOptionalMediaType_ok {value : Option String} :
    validateOptionalMediaType c value = .ok () ↔
      ∀ text ∈ value, PlainText maxContextValueBytes text ∧ c.mimeParses text = true := by
  cases value with
  | none => simp [validateOptionalMediaType]
  | some text =>
    simp only [validateOptionalMediaType, check_bind_ok, validateText_ok, Option.mem_some_iff,
      forall_eq']
    by_cases hmime : c.mimeParses text = true <;> simp [hmime]

theorem validateSize_ok {size maximum : ℕ} {message : String} :
    validateSize size maximum message = .ok () ↔ size ≤ maximum ∧ size ≤ maxSqliteI64 := by
  unfold validateSize
  rw [ite_throw_eq_ok]
  simp

theorem checkedAdd_ok {a b n : ℕ} {message : String} :
    checkedAdd a b message = .ok n ↔ a + b < 2 ^ 64 ∧ a + b = n := by
  unfold checkedAdd
  by_cases h : a + b < 2 ^ 64
  · rw [if_pos h, pure_eq_ok, and_iff_right h]
  · rw [if_neg h, throw_eq_ok, false_iff]
    exact fun hsum => h hsum.1

/-- What one artifact adds to the rules of those before it. -/
theorem admissible_append {as : List ArtifactInput} {a : ArtifactInput}
    (has : Admissible c limits as) :
    Admissible c limits (as ++ [a]) ↔
      ArtifactRules c limits a ∧ foldedPath a ∉ as.map foldedPath ∧
      (∀ b ∈ as, digestStorageValue b.storedSha256 = digestStorageValue a.storedSha256 →
        b.storedSizeBytes = a.storedSizeBytes ∧ b.compression = a.compression) ∧
      (originalTotal as + a.originalSizeBytes.toNat ≤ limits.snapshotOriginalBytes ∧
        originalTotal as + a.originalSizeBytes.toNat < 2 ^ 64) ∧
      storedTotal as + a.storedSizeBytes.toNat ≤ limits.snapshotStoredBytes ∧
        storedTotal as + a.storedSizeBytes.toNat < 2 ^ 64 := by
  have hlast : a ∈ as ++ [a] := by simp
  constructor
  · intro h
    have htotal := h.originalTotal
    have htotal' := h.storedTotal
    rw [originalTotal_append, originalTotal_singleton] at htotal
    rw [storedTotal_append, storedTotal_singleton] at htotal'
    refine ⟨h.each a hlast, ?_, fun b hb => ?_, htotal, htotal'⟩
    · have hdistinct := h.distinct
      rw [List.map_append, List.nodup_append] at hdistinct
      exact fun hmem => hdistinct.2.2 _ hmem (foldedPath a) (by simp) rfl
    · exact h.representation b (List.mem_append_left _ hb) a hlast
  · rintro ⟨hrules, hpath, hrepresentation, htotal, htotal'⟩
    refine ⟨?_, ?_, ?_, ?_, ?_⟩
    · intro b hb
      rcases List.mem_append.mp hb with hb | hb
      · exact has.each b hb
      · exact List.mem_singleton.mp hb ▸ hrules
    · rw [List.map_append, List.nodup_append]
      refine ⟨has.distinct, by simp, fun p hp q hq hpq => hpath ?_⟩
      rw [List.map_singleton, List.mem_singleton] at hq
      exact hq ▸ hpq ▸ hp
    · intro x hx y hy hdigest
      rw [List.mem_append, List.mem_singleton] at hx hy
      rcases hx with hx | rfl <;> rcases hy with hy | rfl
      · exact has.representation x hx y hy hdigest
      · exact hrepresentation x hx hdigest
      · obtain ⟨hsize, hcompression⟩ := hrepresentation y hy hdigest.symm
        exact ⟨hsize.symm, hcompression.symm⟩
      · exact ⟨rfl, rfl⟩
    · rw [originalTotal_append, originalTotal_singleton]
      exact htotal
    · rw [storedTotal_append, storedTotal_singleton]
      exact htotal'

/-- The representation an artifact must agree with is the one its digest was declared with. -/
theorem Gathered.lookup_iff {as : List ArtifactInput} {st : NormalizeState} (hst : Gathered as st)
    (a : ArtifactInput) :
    (∀ b ∈ as, digestStorageValue b.storedSha256 = digestStorageValue a.storedSha256 →
        b.storedSizeBytes = a.storedSizeBytes ∧ b.compression = a.compression) ↔
      ∀ r ∈ st.representations.lookup (digestStorageValue a.storedSha256),
        r = (a.storedSizeBytes, a.compression) := by
  constructor
  · intro h r hr
    obtain ⟨b, hb, hdigest⟩ := hst.noOthers _ r hr
    have hknown := hst.known b hb
    rw [hdigest, Option.mem_def.mp hr, Option.some.injEq] at hknown
    obtain ⟨hsize, hcompression⟩ := h b hb hdigest
    rw [hknown, hsize, hcompression]
  · intro h b hb hdigest
    have hknown := hst.known b hb
    rw [hdigest] at hknown
    exact Prod.mk.inj (h _ hknown)

/-- The state after one more artifact. -/
def NormalizeState.accept (st : NormalizeState) (a : ArtifactInput) : NormalizeState :=
  ⟨st.originalTotal + a.originalSizeBytes.toNat, st.storedTotal + a.storedSizeBytes.toNat,
    foldedPath a :: st.portablePaths,
    if (st.representations.lookup (digestStorageValue a.storedSha256)).isSome then
      st.representations
    else (digestStorageValue a.storedSha256, a.storedSizeBytes, a.compression) ::
      st.representations,
    st.normalized ++ [a]⟩

/-- **`normalizeArtifact_ok`** — one artifact passes exactly when it and those before it keep the
rules. -/
theorem normalizeArtifact_ok {as : List ArtifactInput} {st st' : NormalizeState}
    (has : Admissible c limits as) (hst : Gathered as st) (a : ArtifactInput) :
    normalizeArtifact c limits st a = .ok st' ↔
      Admissible c limits (as ++ [a]) ∧ st' = st.accept a := by
  have hpaths : toAsciiLowercase a.logicalPath ∈ st.portablePaths ↔
      foldedPath a ∈ as.map foldedPath := by
    rw [hst.paths, List.mem_reverse]
    exact Iff.rfl
  rw [admissible_append has, hst.lookup_iff a]
  unfold normalizeArtifact
  simp only [check_bind_ok, throw_bind, ite_throw_eq_ok, validateLogicalPath_ok,
    validateOptionalMediaType_ok, validateDigest_ok, validateSize_ok, hpaths]
  simp only [bind_eq_ok, checkedAdd_ok, ite_throw_eq_ok, hst.originalTotal, hst.storedTotal,
    not_lt]
  -- a digest that is known already must come with the representation it is known with
  cases hlookup : st.representations.lookup (digestStorageValue a.storedSha256) with
  | none =>
    have haccept : st.accept a = ⟨originalTotal as + a.originalSizeBytes.toNat,
        storedTotal as + a.storedSizeBytes.toNat, toAsciiLowercase a.logicalPath ::
          st.portablePaths,
        (digestStorageValue a.storedSha256, a.storedSizeBytes, a.compression) ::
          st.representations, st.normalized ++ [a]⟩ := by
      simp [NormalizeState.accept, hlookup, hst.originalTotal, hst.storedTotal, foldedPath]
    rw [haccept]
    constructor
    · rintro ⟨hpath, hnew, hmedia, horiginal, hstored, hsize, hsize', _, ⟨hlt, rfl⟩, hle, _,
        ⟨hlt', rfl⟩, hle', h⟩
      exact ⟨⟨⟨hpath, hmedia, horiginal, hstored, hsize, hsize'⟩, hnew, by simp, ⟨hle, hlt⟩, hle',
        hlt'⟩, (pure_eq_ok.mp h).symm⟩
    · rintro ⟨⟨hrules, hnew, -, ⟨hle, hlt⟩, hle', hlt'⟩, rfl⟩
      exact ⟨hrules.path, hnew, hrules.mediaType, hrules.originalSha256, hrules.storedSha256,
        hrules.originalSize, hrules.storedSize, _, ⟨hlt, rfl⟩, hle, _, ⟨hlt', rfl⟩, hle', by simp⟩
  | some r =>
    obtain ⟨size, compression⟩ := r
    have haccept : st.accept a = ⟨originalTotal as + a.originalSizeBytes.toNat,
        storedTotal as + a.storedSizeBytes.toNat, toAsciiLowercase a.logicalPath ::
          st.portablePaths,
        st.representations, st.normalized ++ [a]⟩ := by
      simp [NormalizeState.accept, hlookup, hst.originalTotal, hst.storedTotal, foldedPath]
    rw [haccept]
    simp only [ite_throw_eq_ok, not_or, not_not, Option.mem_some_iff, forall_eq',
      Prod.mk.injEq]
    constructor
    · rintro ⟨hpath, hnew, hmedia, horiginal, hstored, hsize, hsize', _, ⟨hlt, rfl⟩, hle, _,
        ⟨hlt', rfl⟩, hle', hsame, h⟩
      exact ⟨⟨⟨hpath, hmedia, horiginal, hstored, hsize, hsize'⟩, hnew, hsame, ⟨hle, hlt⟩, hle',
        hlt'⟩, (pure_eq_ok.mp h).symm⟩
    · rintro ⟨⟨hrules, hnew, hsame, ⟨hle, hlt⟩, hle', hlt'⟩, rfl⟩
      exact ⟨hrules.path, hnew, hrules.mediaType, hrules.originalSha256, hrules.storedSha256,
        hrules.originalSize, hrules.storedSize, _, ⟨hlt, rfl⟩, hle, _, ⟨hlt', rfl⟩, hle', hsame,
        by simp⟩

/-- The state after an accepted artifact describes it with the others. -/
theorem Gathered.accept {as : List ArtifactInput} {st : NormalizeState} (hst : Gathered as st)
    {a : ArtifactInput} (h : Admissible c limits (as ++ [a])) :
    Gathered (as ++ [a]) (st.accept a) where
  originalTotal := by
    rw [originalTotal_append, originalTotal_singleton, ← hst.originalTotal]
    rfl
  storedTotal := by
    rw [storedTotal_append, storedTotal_singleton, ← hst.storedTotal]
    rfl
  paths := by simp [NormalizeState.accept, hst.paths]
  known := by
    have hagree := (hst.lookup_iff a).mp ((admissible_append h.front).mp h).2.2.1
    intro b hb
    unfold NormalizeState.accept
    rw [List.mem_append, List.mem_singleton] at hb
    cases hlookup : st.representations.lookup (digestStorageValue a.storedSha256) with
    | none =>
      rw [Option.isSome_none, if_neg Bool.false_ne_true, List.lookup_cons]
      rcases hb with hb | rfl
      · have hne : digestStorageValue b.storedSha256 ≠ digestStorageValue a.storedSha256 := by
          intro heq
          have hknown := hst.known b hb
          rw [heq, hlookup] at hknown
          exact absurd hknown (by simp)
        rw [beq_false_of_ne hne]
        exact hst.known b hb
      · rw [beq_self_eq_true]
    | some r =>
      rw [Option.isSome_some, if_pos rfl]
      rcases hb with hb | rfl
      · exact hst.known b hb
      · rw [hlookup, hagree r hlookup]
  noOthers := by
    intro d r hr
    unfold NormalizeState.accept at hr
    have hold : (∃ b ∈ as, digestStorageValue b.storedSha256 = d) →
        ∃ b ∈ as ++ [a], digestStorageValue b.storedSha256 = d :=
      fun ⟨b, hb, hd⟩ => ⟨b, List.mem_append_left _ hb, hd⟩
    split_ifs at hr with hsome
    · exact hold (hst.noOthers d r hr)
    · rw [List.lookup_cons] at hr
      split at hr
      · next heq => exact ⟨a, by simp, (beq_iff_eq.mp heq).symm⟩
      · exact hold (hst.noOthers d r hr)
  normalized := by simp [NormalizeState.accept, hst.normalized]

/-- **`foldlM_normalizeArtifact`** — the pass goes through exactly when all artifacts together keep
the rules, and then describes them all. -/
theorem foldlM_normalizeArtifact {as : List ArtifactInput} {st : NormalizeState}
    (has : Admissible c limits as) (hst : Gathered as st) (bs : List ArtifactInput) :
    ((∃ st', bs.foldlM (normalizeArtifact c limits) st = .ok st') ↔
        Admissible c limits (as ++ bs)) ∧
      ∀ st', bs.foldlM (normalizeArtifact c limits) st = .ok st' → Gathered (as ++ bs) st' := by
  induction bs generalizing as st with
  | nil =>
    rw [List.append_nil]
    refine ⟨iff_of_true ⟨st, rfl⟩ has, fun st' h => ?_⟩
    obtain rfl := pure_eq_ok.mp h
    exact hst
  | cons b rest ih =>
    have hassoc : as ++ b :: rest = (as ++ [b]) ++ rest := by simp
    rw [hassoc]
    simp only [List.foldlM_cons, bind_eq_ok, normalizeArtifact_ok has hst]
    constructor
    · constructor
      · rintro ⟨st', next, ⟨hnext, rfl⟩, hrest⟩
        exact (ih hnext (hst.accept hnext)).1.mp ⟨st', hrest⟩
      · intro h
        obtain ⟨st', hst'⟩ := (ih h.front (hst.accept h.front)).1.mpr h
        exact ⟨st', _, ⟨h.front, rfl⟩, hst'⟩
    · rintro st' ⟨next, ⟨hnext, rfl⟩, hrest⟩
      exact (ih hnext (hst.accept hnext)).2 st' hrest

/-! ## §3 — Acceptance. -/

/-- A loop of checks succeeds when every check does. -/
theorem forIn_check_ok {ε α : Type} {P : α → Prop} {g : α → Except ε (ForInStep Unit)}
    (h : ∀ a step, g a = .ok step ↔ P a ∧ step = .yield ()) {l : List α} :
    forIn l () (fun a _ => g a) = .ok () ↔ ∀ a ∈ l, P a := by
  induction l with
  | nil => exact iff_of_true rfl (by simp)
  | cons a rest ih =>
    rw [List.forIn_cons, bind_eq_ok, List.forall_mem_cons, ← ih]
    simp only [h, and_assoc, exists_and_left, exists_eq_left]

/-- The capture as it is stored: its timestamp in the server's spelling. -/
def canonicalCapture (c : Crates) (capture : CaptureInput) : Capture :=
  { capture with
    capturedAt := ((c.parseRfc3339 capture.capturedAt).bind c.formatRfc3339).getD
      capture.capturedAt }

theorem normalizeCapture_ok {input : CaptureInput} {capture : Capture} :
    normalizeCapture c input = .ok capture ↔
      CaptureRules c input ∧ capture = canonicalCapture c input := by
  have htexts := forIn_check_ok (l := [input.sourceCursor, input.sourceStateHash, input.project,
    input.repository, input.branch, input.sourceAgentVersion, input.munshiVersion])
    (g := fun value => do
      validateOptionalText value maxContextValueBytes
      pure (ForInStep.yield PUnit.unit))
    fun value step => by
      rw [check_bind_ok, validateOptionalText_ok, pure_eq_ok, eq_comm (b := step)]
  have hmetadata := forIn_check_ok (P := fun e =>
    (e.1 ≠ "" ∧ PlainText maxMetadataKeyBytes e.1) ∧ PlainText maxMetadataValueBytes e.2)
    (l := input.sourceMetadata.entries)
    (g := fun entry => do
      validateNonemptyText entry.1 maxMetadataKeyBytes "source metadata key is invalid"
      validateText entry.2 maxMetadataValueBytes "source metadata value is invalid"
      pure (ForInStep.yield PUnit.unit))
    fun entry step => by
      rw [check_bind_ok, check_bind_ok, validateNonemptyText_ok, validateText_ok, pure_eq_ok,
        eq_comm (b := step), and_assoc (c := step = _)]
  unfold normalizeCapture
  simp only [okOr_bind_ok, check_bind_ok, throw_bind, ite_throw_eq_ok, htexts, hmetadata, not_lt,
    pure_eq_ok]
  constructor
  · rintro ⟨instant, hparse, text, hformat, htexts, hversion, hentries, hmetadata, rfl⟩
    refine ⟨⟨⟨instant, text, hparse, hformat⟩, htexts, hversion, hentries, hmetadata⟩, ?_⟩
    simp [canonicalCapture, hparse, hformat]
  · rintro ⟨⟨⟨instant, text, hparse, hformat⟩, htexts, hversion, hentries, hmetadata⟩, rfl⟩
    refine ⟨instant, hparse, text, hformat, htexts, hversion, hentries, hmetadata, ?_⟩
    simp [canonicalCapture, hparse, hformat]

/-- The directories of a path. -/
theorem mem_properParents {parent path : String} :
    parent ∈ properParents path ↔ DirectoryPrefix parent path := by
  unfold properParents DirectoryPrefix
  simp only [List.mem_map, List.mem_filter, List.mem_range, decide_eq_true_eq]
  constructor
  · rintro ⟨i, ⟨hlt, hslash⟩, rfl⟩
    refine ⟨path.toList.drop (i + 1), ?_⟩
    obtain ⟨hi, hget⟩ := List.getElem?_eq_some_iff.mp hslash
    rw [String.toList_ofList, ← hget, ← List.drop_eq_getElem_cons hi, List.take_append_drop]
  · rintro ⟨rest, hrest⟩
    refine ⟨parent.toList.length, ⟨?_, ?_⟩, ?_⟩
    · rw [hrest]
      simp
    · rw [hrest]
      simp
    · rw [hrest, List.take_left, String.ofList_toList]

/-- The whole pass. -/
theorem normalizeArtifacts_ok {artifacts : List ArtifactInput} :
    ((∃ st, artifacts.foldlM (normalizeArtifact c limits) ⟨0, 0, [], [], []⟩ = .ok st) ↔
        Admissible c limits artifacts) ∧
      ∀ st, artifacts.foldlM (normalizeArtifact c limits) ⟨0, 0, [], [], []⟩ = .ok st →
        Gathered artifacts st := by
  have h := foldlM_normalizeArtifact (Admissible.nil : Admissible c limits []) Gathered.empty
    artifacts
  rwa [List.nil_append] at h

/-- The search for a path that is also a directory. -/
theorem Gathered.unnested {artifacts : List ArtifactInput} {st : NormalizeState}
    (hst : Gathered artifacts st) :
    (¬ (st.portablePaths.any fun path =>
        (properParents path).any fun parent => st.portablePaths.contains parent) = true) ↔
      ∀ a ∈ artifacts, ∀ b ∈ artifacts, ¬ DirectoryPrefix (foldedPath a) (foldedPath b) := by
  rw [hst.paths, Bool.not_eq_true, List.any_eq_false]
  constructor
  · intro h a ha b hb hprefix
    have hpath := h (foldedPath b) (List.mem_reverse.mpr (List.mem_map_of_mem hb))
    rw [Bool.not_eq_true, List.any_eq_false] at hpath
    refine hpath (foldedPath a) (mem_properParents.mpr hprefix) ?_
    exact List.contains_iff_mem.mpr (List.mem_reverse.mpr (List.mem_map_of_mem ha))
  · intro h path hpath
    obtain ⟨b, hb, rfl⟩ := List.mem_map.mp (List.mem_reverse.mp hpath)
    rw [Bool.not_eq_true, List.any_eq_false]
    intro parent hparent hcontains
    have hmem := List.mem_reverse.mp (List.contains_iff_mem.mp hcontains)
    obtain ⟨a, ha, rfl⟩ := List.mem_map.mp hmem
    exact h a ha b hb (mem_properParents.mp hparent)

/-- What follows once the artifacts are known. -/
theorem normalizeDeclared_ok {schemaVersion : UInt16} {session : SessionInput} {capture : Capture}
    {artifacts : List ArtifactInput} {manifest : Manifest} :
    (if artifacts = [] ∨ limits.artifactCount < artifacts.length then
        throw (.invalid "manifest artifact count exceeds the configured bounded limit")
      else do
        let st ← artifacts.foldlM (normalizeArtifact c limits) ⟨0, 0, [], [], []⟩
        if st.portablePaths.any fun path =>
            (properParents path).any fun parent => st.portablePaths.contains parent then
          throw (.invalid "manifest contains conflicting regular-file logical paths")
        else pure ⟨schemaVersion, session, capture, sortByPath st.normalized⟩ :
      Except ApiError Manifest) = .ok manifest ↔
      (artifacts ≠ [] ∧ artifacts.length ≤ limits.artifactCount) ∧
        Admissible c limits artifacts ∧
        (∀ a ∈ artifacts, ∀ b ∈ artifacts, ¬ DirectoryPrefix (foldedPath a) (foldedPath b)) ∧
        manifest = ⟨schemaVersion, session, capture, sortByPath artifacts⟩ := by
  rw [ite_throw_eq_ok]
  simp only [bind_eq_ok, ite_throw_eq_ok, pure_eq_ok, not_or, not_lt]
  refine and_congr_right fun _ => ?_
  constructor
  · rintro ⟨st, hst, hunnested, rfl⟩
    have hgathered := normalizeArtifacts_ok.2 st hst
    refine ⟨normalizeArtifacts_ok.1.mp ⟨st, hst⟩, hgathered.unnested.mp hunnested, ?_⟩
    rw [hgathered.normalized]
  · rintro ⟨hadmissible, hunnested, rfl⟩
    obtain ⟨st, hst⟩ := normalizeArtifacts_ok.1.mpr hadmissible
    have hgathered := normalizeArtifacts_ok.2 st hst
    refine ⟨st, hst, hgathered.unnested.mpr hunnested, ?_⟩
    rw [hgathered.normalized]

/-- **`normalizeManifest_ok`** — a manifest is accepted exactly when it keeps the rules, and then
stored with its artifacts in path order. -/
theorem normalizeManifest_ok {input : ManifestInput} {manifest : Manifest} :
    normalizeManifest c input limits = .ok manifest ↔
      ∃ artifacts, input.declared = some artifacts ∧ PortableManifest c limits input artifacts ∧
        manifest = ⟨input.schemaVersion, input.session, canonicalCapture c input.capture,
          sortByPath artifacts⟩ := by
  have hparts : normalizeManifest c input limits = .ok manifest ↔ input.schemaVersion = 1 ∧
      (input.session.sourceAgent ≠ "" ∧
        PlainText maxSourceAgentBytes input.session.sourceAgent) ∧
      (input.session.sourceSessionId ≠ "" ∧
        PlainText maxSourceSessionIdBytes input.session.sourceSessionId) ∧
      CaptureRules c input.capture ∧ ∃ artifacts, input.declared = some artifacts ∧
        (artifacts ≠ [] ∧ artifacts.length ≤ limits.artifactCount) ∧
        Admissible c limits artifacts ∧
        (∀ a ∈ artifacts, ∀ b ∈ artifacts, ¬ DirectoryPrefix (foldedPath a) (foldedPath b)) ∧
        manifest = ⟨input.schemaVersion, input.session, canonicalCapture c input.capture,
          sortByPath artifacts⟩ := by
    unfold normalizeManifest
    simp only [throw_bind, pure_bind, ite_throw_eq_ok, check_bind_ok, validateNonemptyText_ok,
      not_not]
    refine and_congr_right fun _ => and_congr_right fun _ => and_congr_right fun _ => ?_
    rw [bind_eq_ok]
    simp only [normalizeCapture_ok, and_assoc, exists_and_left, exists_eq_left]
    refine and_congr_right fun _ => ?_
    obtain ⟨schemaVersion, session, capture, _ | artifacts, _ | artifact⟩ := input
    · simp [ManifestInput.declared]
    · simp only [normalizeDeclared_ok, ManifestInput.declared, Option.some.injEq, exists_eq_left']
      exact and_assoc
    · simp only [normalizeDeclared_ok, ManifestInput.declared, Option.some.injEq, exists_eq_left']
      exact and_assoc
    · simp [ManifestInput.declared]
  rw [hparts]
  constructor
  · rintro ⟨hschema, hagent, hsession, hcapture, artifacts, hartifacts, hcount, hadmissible,
      hunnested, rfl⟩
    exact ⟨artifacts, hartifacts, ⟨hschema, hagent, hsession, hcapture, hcount, hadmissible,
      hunnested⟩, rfl⟩
  · rintro ⟨artifacts, hartifacts, h, rfl⟩
    exact ⟨h.schema, h.sourceAgent, h.sourceSessionId, h.capture, artifacts, hartifacts, h.count,
      h.admissible, h.unnested, rfl⟩

/-- **`normalizeManifest_oneRepresentation`** — a manifest that is accepted declares each stored
digest with one size and one compression. -/
theorem normalizeManifest_oneRepresentation {input : ManifestInput} {manifest : Manifest}
    (h : normalizeManifest c input limits = .ok manifest) :
    OneRepresentation manifest.artifacts := by
  obtain ⟨artifacts, -, hrules, rfl⟩ := normalizeManifest_ok.mp h
  intro a ha b hb
  exact hrules.admissible.representation a ((List.mem_insertionSort _).mp ha) b
    ((List.mem_insertionSort _).mp hb)

/-! ## §4 — Any order, any filesystem. -/

theorem Admissible.perm {as bs : List ArtifactInput} (h : as.Perm bs)
    (has : Admissible c limits as) : Admissible c limits bs where
  each := fun b hb => has.each b (h.mem_iff.mpr hb)
  distinct := (h.map foldedPath).nodup_iff.mp has.distinct
  representation := fun a ha b hb => has.representation a (h.mem_iff.mpr ha) b (h.mem_iff.mpr hb)
  originalTotal := by
    have hsum : Patwari.originalTotal as = Patwari.originalTotal bs := (h.map _).sum_eq
    exact hsum ▸ has.originalTotal
  storedTotal := by
    have hsum : Patwari.storedTotal as = Patwari.storedTotal bs := (h.map _).sum_eq
    exact hsum ▸ has.storedTotal

/-- The rules see the artifacts as a set. -/
theorem PortableManifest.perm {input input' : ManifestInput} {as bs : List ArtifactInput}
    (has : PortableManifest c limits input as) (h : as.Perm bs)
    (hschema : input'.schemaVersion = input.schemaVersion)
    (hsession : input'.session = input.session) (hcapture : input'.capture = input.capture) :
    PortableManifest c limits input' bs where
  schema := hschema ▸ has.schema
  sourceAgent := hsession ▸ has.sourceAgent
  sourceSessionId := hsession ▸ has.sourceSessionId
  capture := hcapture ▸ has.capture
  count := ⟨fun hbs => has.count.1 (hbs ▸ h).eq_nil, h.length_eq ▸ has.count.2⟩
  admissible := has.admissible.perm h
  unnested := fun a ha b hb => has.unnested a (h.mem_iff.mpr ha) b (h.mem_iff.mpr hb)

theorem sortByPath_perm (artifacts : List Artifact) : (sortByPath artifacts).Perm artifacts :=
  List.perm_insertionSort _ _

theorem sortByPath_sorted (artifacts : List Artifact) :
    (sortByPath artifacts).Pairwise fun a b => a.logicalPath ≤ b.logicalPath := by
  have : Std.Total fun a b : Artifact => a.logicalPath ≤ b.logicalPath :=
    ⟨fun a b => le_total a.logicalPath b.logicalPath⟩
  have : IsTrans Artifact fun a b => a.logicalPath ≤ b.logicalPath :=
    ⟨fun _ _ _ hab hbc => le_trans hab hbc⟩
  exact List.pairwise_insertionSort _ _

/-- Artifacts of different paths have one order. -/
theorem sortByPath_eq_of_perm {as bs : List Artifact} (h : as.Perm bs)
    (hdistinct : (as.map foldedPath).Nodup) : sortByPath as = sortByPath bs := by
  refine List.Perm.eq_of_pairwise (fun a b ha hb hab hba => ?_) (sortByPath_sorted as)
    (sortByPath_sorted bs) (((sortByPath_perm as).trans h).trans (sortByPath_perm bs).symm)
  have hpath : foldedPath a = foldedPath b := congrArg toAsciiLowercase (le_antisymm hab hba)
  have hb' : b ∈ as := h.mem_iff.mpr ((sortByPath_perm bs).mem_iff.mp hb)
  exact List.inj_on_of_nodup_map hdistinct ((sortByPath_perm as).mem_iff.mp ha) hb' hpath

/-- Where a filesystem that ignores letter case puts a path. -/
def location (path : String) : List (List Char) := (path.toList.map Char.toLower).splitOn '/'

/-- The directories on the way to a location. -/
def directories (location : List (List Char)) : List (List (List Char)) :=
  (List.range location.length).map fun k => location.take k

theorem intercalate_location (path : String) :
    ['/'].intercalate (location path) = (toAsciiLowercase path).toList := by
  rw [location, List.intercalate_splitOn, toAsciiLowercase, String.toList_ofList]

theorem intercalate_append {x : Char} {as bs : List (List Char)} (has : as ≠ []) (hbs : bs ≠ []) :
    [x].intercalate (as ++ bs) = [x].intercalate as ++ x :: [x].intercalate bs := by
  induction as with
  | nil => exact absurd rfl has
  | cons a rest ih =>
    cases rest with
    | nil =>
      obtain ⟨b, bs, rfl⟩ := List.exists_cons_of_ne_nil hbs
      rw [List.intercalate_singleton, List.singleton_append, List.intercalate_cons_cons,
        List.append_assoc, List.singleton_append]
    | cons next rest =>
      have htail := ih (List.cons_ne_nil _ _)
      rw [List.cons_append] at htail
      rw [List.cons_append, List.cons_append, List.intercalate_cons_cons, htail,
        List.intercalate_cons_cons]
      simp

/-- A location that is a directory of another is the location of a directory prefix. -/
theorem directoryPrefix_of_mem {a b : Artifact}
    (h : location a.logicalPath ∈ directories (location b.logicalPath)) :
    DirectoryPrefix (foldedPath a) (foldedPath b) := by
  obtain ⟨k, hk, htake⟩ := List.mem_map.mp h
  have hsplit := List.take_append_drop k (location b.logicalPath)
  have htail : (location b.logicalPath).drop k ≠ [] := by
    rw [ne_eq, List.drop_eq_nil_iff]
    have := List.mem_range.mp hk
    omega
  refine ⟨['/'].intercalate ((location b.logicalPath).drop k), ?_⟩
  have hne : location a.logicalPath ≠ [] := List.splitOn_ne_nil _ _
  show (toAsciiLowercase b.logicalPath).toList = (toAsciiLowercase a.logicalPath).toList ++ _
  rw [← intercalate_location, ← intercalate_location, ← intercalate_append hne htail, ← htake,
    hsplit]

/-- **`Admissible.locations`** — no two artifacts of an accepted set have one location. -/
theorem Admissible.locations {artifacts : List ArtifactInput} (h : Admissible c limits artifacts) :
    (artifacts.map fun a => location a.logicalPath).Nodup := by
  refine List.Nodup.of_map (fun parts => String.ofList (['/'].intercalate parts)) ?_
  rw [List.map_map]
  have hfolded : (artifacts.map ((fun parts => String.ofList (['/'].intercalate parts)) ∘
      fun a => location a.logicalPath)) = artifacts.map foldedPath := by
    refine List.map_congr_left fun a _ => ?_
    rw [Function.comp_apply, intercalate_location, String.ofList_toList, foldedPath]
  rw [hfolded]
  exact h.distinct

/-- **`normalizeManifest_exact`** — what is accepted, and as what: the rules and nothing else; the
declared artifacts, each once, in path order; the same for every order they are declared in; and
every artifact at a place of its own where letter case does not count, none of them a directory of
another. -/
theorem normalizeManifest_exact (c : Crates) (limits : ManifestLimits) (input : ManifestInput) :
    (∀ manifest, normalizeManifest c input limits = .ok manifest ↔
      ∃ artifacts, input.declared = some artifacts ∧ PortableManifest c limits input artifacts ∧
        manifest = ⟨input.schemaVersion, input.session, canonicalCapture c input.capture,
          sortByPath artifacts⟩) ∧
    (∀ artifacts, (sortByPath artifacts).Perm artifacts ∧
      (sortByPath artifacts).Pairwise fun a b => a.logicalPath ≤ b.logicalPath) ∧
    (∀ (artifacts artifacts' : List ArtifactInput) (manifest : Manifest),
      artifacts.Perm artifacts' →
      (normalizeManifest c { input with artifacts := some artifacts } limits = .ok manifest ↔
        normalizeManifest c { input with artifacts := some artifacts' } limits = .ok manifest)) ∧
    ∀ manifest, normalizeManifest c input limits = .ok manifest →
      (manifest.artifacts.map fun a => location a.logicalPath).Nodup ∧
      ∀ a ∈ manifest.artifacts, ∀ b ∈ manifest.artifacts,
        location a.logicalPath ∉ directories (location b.logicalPath) := by
  refine ⟨fun _ => normalizeManifest_ok, fun artifacts => ⟨sortByPath_perm artifacts,
    sortByPath_sorted artifacts⟩, ?_, ?_⟩
  · have hforward : ∀ (as bs : List ArtifactInput) (manifest : Manifest), as.Perm bs →
        normalizeManifest c { input with artifacts := some as } limits = .ok manifest →
        normalizeManifest c { input with artifacts := some bs } limits = .ok manifest := by
      intro as bs manifest hperm h
      obtain ⟨artifacts, hdeclared, hrules, rfl⟩ := normalizeManifest_ok.mp h
      -- the legacy field is absent, since the array is there
      obtain ⟨rfl, hnone⟩ : as = artifacts ∧ input.artifact = none := by
        unfold ManifestInput.declared at hdeclared
        cases hlegacy : input.artifact <;> simp [hlegacy] at hdeclared
        exact ⟨hdeclared, rfl⟩
      have hrules' : PortableManifest c limits { input with artifacts := some bs } bs :=
        hrules.perm hperm rfl rfl rfl
      refine normalizeManifest_ok.mpr ⟨bs, ?_, hrules', ?_⟩
      · simp [ManifestInput.declared, hnone]
      · rw [sortByPath_eq_of_perm hperm hrules.admissible.distinct]
    exact fun as bs manifest hperm =>
      ⟨hforward as bs manifest hperm, hforward bs as manifest hperm.symm⟩
  · intro manifest h
    obtain ⟨artifacts, -, hrules, rfl⟩ := normalizeManifest_ok.mp h
    have hperm := sortByPath_perm artifacts
    refine ⟨(hrules.admissible.perm hperm.symm).locations, fun a ha b hb hdirectory => ?_⟩
    exact hrules.unnested a (hperm.mem_iff.mp ha) b (hperm.mem_iff.mp hb)
      (directoryPrefix_of_mem hdirectory)

/-- The real digest of the bytes of `abc`. -/
def abcDigest : String := "ba7816bf8f01cfea414140de5dae2223b00361a396177a9cb410ff61f20015ad"

/-- A manifest of two artifacts out of order, with some of its optional fields and a timestamp the
server spells without the zeros. -/
def spelledManifest : ManifestInput where
  schemaVersion := 1
  session := ⟨"agent", "session"⟩
  capture := ⟨"2026-01-01T00:00:00.000Z", some "cursor", none,
    ⟨[("host", "a")], List.pairwise_singleton _ _⟩, some "project", none, some "main", none, 1,
      none⟩
  artifacts := some
    [⟨"src/main.txt", some "text/plain", 3, "sha256:" ++ abcDigest, 3, "sha256:" ++ abcDigest,
      .identity⟩,
    ⟨"notes.txt", none, 0, "sha256:" ++ emptyDigest, 0, "sha256:" ++ emptyDigest, .identity⟩]
  artifact := none

/-- As it is stored. -/
def storedManifest : Manifest where
  schemaVersion := 1
  session := ⟨"agent", "session"⟩
  capture := { spelledManifest.capture with capturedAt := "2026-01-01T00:00:00Z" }
  artifacts :=
    [⟨"notes.txt", none, 0, "sha256:" ++ emptyDigest, 0, "sha256:" ++ emptyDigest, .identity⟩,
    ⟨"src/main.txt", some "text/plain", 3, "sha256:" ++ abcDigest, 3, "sha256:" ++ abcDigest,
      .identity⟩]

/-- The real digest of its JSON. -/
def storedManifestDigest : String :=
  "6915da8b9370f1a25cbbf744567bc9463932ee9bfc0b9404fdd7bc99abe59a8e"

/-- Crates that know this digest and read that timestamp. -/
def spellingCrates : Crates :=
  { Crates.sample [(jsonToVec storedManifest.toJson, storedManifestDigest)] with
    parseRfc3339 := fun text =>
      if text = spelledManifest.capture.capturedAt then some (.utc 1767225600000000000)
      else (Crates.sample []).parseRfc3339 text }

/-- The manifest is accepted in path order and with the server's spelling. -/
theorem spelledManifest_accepted :
    normalizeManifest spellingCrates spelledManifest sampleConfig.manifestLimits =
      .ok storedManifest := by
  rfl

/-- The same manifest is accepted with its artifacts in order, which lie apart. -/
theorem normalizeManifest_exact_sample :
    normalizeManifest spellingCrates
        { spelledManifest with artifacts := some storedManifest.artifacts }
        sampleConfig.manifestLimits = .ok storedManifest ∧
      (storedManifest.artifacts.map fun a => location a.logicalPath).Nodup ∧
      ∀ a ∈ storedManifest.artifacts, ∀ b ∈ storedManifest.artifacts,
        location a.logicalPath ∉ directories (location b.logicalPath) := by
  obtain ⟨-, -, hperm, happart⟩ :=
    normalizeManifest_exact spellingCrates sampleConfig.manifestLimits spelledManifest
  have hswap := hperm (spelledManifest.artifacts.getD []) storedManifest.artifacts storedManifest
    (List.Perm.swap _ _ _)
  exact ⟨hswap.mp spelledManifest_accepted, happart _ spelledManifest_accepted⟩

/-! ## §5 — The way back. -/

/-- `CaptureInput` as a derived deserializer reads it: the version of the artifact set is
required. -/
def captureInputFromJson (j : Json) : Option CaptureInput := do
  match ← j.structFields [("captured_at", false), ("source_cursor", false),
      ("source_state_hash", false), ("source_metadata", true), ("project", false),
      ("repository", false), ("branch", false), ("source_agent_version", false),
      ("artifact_set_version", false), ("munshi_version", false)] with
  | [some capturedAt, sourceCursor, sourceStateHash, sourceMetadata, project, repository, branch,
      sourceAgentVersion, some artifactSetVersion, munshiVersion] =>
    some
      { capturedAt := ← capturedAt.asString
        sourceCursor := ← Json.asOption Json.asString sourceCursor
        sourceStateHash := ← Json.asOption Json.asString sourceStateHash
        sourceMetadata := ← match sourceMetadata with
          | none => some StringMap.empty
          | some j => stringMapFromJson j
        project := ← Json.asOption Json.asString project
        repository := ← Json.asOption Json.asString repository
        branch := ← Json.asOption Json.asString branch
        sourceAgentVersion := ← Json.asOption Json.asString sourceAgentVersion
        artifactSetVersion := ← asUInt16 artifactSetVersion
        munshiVersion := ← Json.asOption Json.asString munshiVersion }
  | _ => none

/-- `ManifestInput`: both forms of the artifacts are optional. -/
def ManifestInput.fromJson (j : Json) : Option ManifestInput := do
  match ← j.structFields [("schema_version", false), ("session", false), ("capture", false),
      ("artifacts", true), ("artifact", true)] with
  | [some schemaVersion, some session, some capture, artifacts, artifact] =>
    some
      { schemaVersion := ← asUInt16 schemaVersion
        session := ← SessionInput.fromJson session
        capture := ← captureInputFromJson capture
        artifacts := ← Json.asOption (listFromJson Artifact.fromJson) artifacts
        artifact := ← Json.asOption Artifact.fromJson artifact }
  | _ => none

@[simp] theorem captureInputFromJson_toJson (capture : Capture) :
    captureInputFromJson capture.toJson = some capture := by
  simp [captureInputFromJson, Capture.toJson, Json.structFields, List.lookup_cons]

/-- A stored manifest written out reads as the request that declares its artifacts. -/
theorem ManifestInput.fromJson_toJson (m : Manifest) :
    ManifestInput.fromJson m.toJson =
      some ⟨m.schemaVersion, m.session, m.capture, some m.artifacts, none⟩ := by
  have hartifacts : listFromJson Artifact.fromJson (.arr (m.artifacts.map Artifact.toJson)) =
      some m.artifacts := mapM_map_some fun a _ => a.fromJson_toJson
  simp [ManifestInput.fromJson, Manifest.toJson, Json.structFields, List.lookup_cons, Json.asOption,
    hartifacts]

/-- **`validateManifestSchema_eq`** — the check of the scanner, by way of the JSON value it goes
through. -/
theorem validateManifestSchema_eq (manifest : Manifest) (limits : ManifestLimits) :
    validateManifestSchema c manifest limits =
      (ManifestInput.fromJson manifest.toJson).bind fun input =>
        (normalizeManifest c input limits).toOption := by
  rw [ManifestInput.fromJson_toJson, Option.bind_some, validateManifestSchema]

/-- A canonical timestamp is spelled as the server spells it. -/
theorem canonicalCapture_idem (htime : ∀ t s, c.formatRfc3339 t = some s → c.parseRfc3339 s =
    some t)
    {capture : CaptureInput} (h : CaptureRules c capture) :
    CaptureRules c (canonicalCapture c capture) ∧
      canonicalCapture c (canonicalCapture c capture) = canonicalCapture c capture := by
  obtain ⟨instant, text, hparse, hformat⟩ := h.timestamp
  have hcanonical : canonicalCapture c capture = { capture with capturedAt := text } := by
    simp [canonicalCapture, hparse, hformat]
  have hagain := htime instant text hformat
  rw [hcanonical]
  refine ⟨⟨⟨instant, text, hagain, hformat⟩, h.texts, h.version, h.entries, h.metadata⟩, ?_⟩
  simp [canonicalCapture, hagain, hformat]

/-- **`canonicalManifest_fixpoint`** — a manifest that was accepted is read back as itself from the
JSON it is stored as, written again as the same text with the same digest, and accepted by the
scanner under the same limits as the same manifest. -/
theorem canonicalManifest_fixpoint (c : Crates) (hjson : c.JsonReads)
    (htime : ∀ t s, c.formatRfc3339 t = some s → c.parseRfc3339 s = some t) (input : ManifestInput)
    (limits : ManifestLimits) (manifest : Manifest)
    (h : normalizeManifest c input limits = .ok manifest) :
    parseManifest c manifest.canonicalJson = some manifest ∧
      (∀ again, parseManifest c manifest.canonicalJson = some again →
        again.canonicalJson = manifest.canonicalJson ∧
        manifestDigest c again = manifestDigest c manifest) ∧
      (ManifestInput.fromJson manifest.toJson).bind (fun input =>
        (normalizeManifest c input limits).toOption) = some manifest ∧
      validateManifestSchema c manifest limits = some manifest := by
  have hread := parseManifest_canonicalJson hjson manifest
  have hagain : ∀ again, parseManifest c manifest.canonicalJson = some again → again =
    manifest := by
    intro again hparse
    rw [hread] at hparse
    exact (Option.some.inj hparse).symm
  have hschema : validateManifestSchema c manifest limits = some manifest := by
    obtain ⟨artifacts, -, hrules, rfl⟩ := normalizeManifest_ok.mp h
    obtain ⟨hcapture, hsame⟩ := canonicalCapture_idem htime hrules.capture
    have hperm := sortByPath_perm artifacts
    have hsorted : sortByPath (sortByPath artifacts) = sortByPath artifacts :=
      sortByPath_eq_of_perm hperm (hrules.admissible.perm hperm.symm).distinct
    have hcount : sortByPath artifacts ≠ [] ∧
        (sortByPath artifacts).length ≤ limits.artifactCount :=
      ⟨fun hnil => hrules.count.1 (hnil ▸ hperm).nil_eq.symm, hperm.length_eq ▸ hrules.count.2⟩
    have hagain : normalizeManifest c ⟨input.schemaVersion, input.session,
        canonicalCapture c input.capture, some (sortByPath artifacts), none⟩ limits =
        .ok ⟨input.schemaVersion, input.session, canonicalCapture c input.capture,
          sortByPath artifacts⟩ := by
      refine normalizeManifest_ok.mpr ⟨sortByPath artifacts, rfl, ⟨hrules.schema,
        hrules.sourceAgent, hrules.sourceSessionId, hcapture, hcount,
        hrules.admissible.perm hperm.symm, ?_⟩, ?_⟩
      · exact fun a ha b hb => hrules.unnested a (hperm.mem_iff.mp ha) b (hperm.mem_iff.mp hb)
      · rw [hsorted, hsame]
    exact congrArg Except.toOption hagain
  refine ⟨hread, fun again hparse => ?_, ?_, hschema⟩
  · rw [hagain again hparse]
    exact ⟨rfl, rfl⟩
  · rw [← validateManifestSchema_eq]
    exact hschema

/-- A timestamp is read back from the spelling it is written with. -/
theorem spellingCrates_parse_format (t : OffsetDateTime) (text : String)
    (h : spellingCrates.formatRfc3339 t = some text) :
    spellingCrates.parseRfc3339 text = some t := by
  have hparse := (Crates.sample_rfc3339Reads []).parse_format t text h
  show (if text = spelledManifest.capture.capturedAt then some (.utc 1767225600000000000)
    else (Crates.sample []).parseRfc3339 text) = some t
  by_cases htext : text = spelledManifest.capture.capturedAt
  · have hunknown : (Crates.sample []).parseRfc3339 spelledManifest.capture.capturedAt = none := by
      decide +kernel
    rw [htext, hunknown] at hparse
    contradiction
  · rw [if_neg htext, hparse]

theorem spellingCrates_jsonReads : spellingCrates.JsonReads :=
  ⟨(Crates.sample_jsonReads []).fromSlice⟩

/-- The way back of that manifest, with its digest. -/
theorem canonicalManifest_fixpoint_sample :
    normalizeManifest spellingCrates spelledManifest sampleConfig.manifestLimits =
        .ok storedManifest ∧
      (∃ again, parseManifest spellingCrates storedManifest.canonicalJson = some again ∧
        manifestDigest spellingCrates again = manifestDigest spellingCrates storedManifest) ∧
      validateManifestSchema spellingCrates storedManifest sampleConfig.manifestLimits =
        some storedManifest := by
  obtain ⟨hread, hsame, -, hschema⟩ := canonicalManifest_fixpoint spellingCrates
    spellingCrates_jsonReads spellingCrates_parse_format spelledManifest _ _
      spelledManifest_accepted
  exact ⟨spelledManifest_accepted, ⟨storedManifest, hread, (hsame _ hread).2⟩, hschema⟩

end Patwari
