/-
# Patwari.Fingerprint — what the fingerprint of a snapshot identifies.

A fingerprint is the digest of a JSON document, so where the digest tells the documents compared
apart it says what the document says. §1 reads the document back: its scalar fields one by one, and
its artifacts, which are in the order of their paths, as a set. §2 applies this to accepted
manifests, whose paths differ.
-/
import Patwari.Normalization

namespace Patwari

open Lib (UniqueOn)

variable {c : Crates}

/-! ## §1 — The fingerprinted document. -/

/-- What the fingerprint says of an artifact: `OriginalArtifact`. -/
def Artifact.original (artifact : Artifact) : String × UInt64 × String :=
  (artifact.logicalPath, artifact.originalSizeBytes, artifact.originalSha256)

/-- **`SameContent input input'`** — the manifests agree in the session, in the stable fields of the
capture and in the set of original artifacts. -/
structure SameContent (input input' : ManifestInput) : Prop where
  schemaVersion : input.schemaVersion = input'.schemaVersion
  sourceAgent : input.session.sourceAgent = input'.session.sourceAgent
  sourceSessionId : input.session.sourceSessionId = input'.session.sourceSessionId
  project : input.capture.project = input'.capture.project
  repository : input.capture.repository = input'.capture.repository
  branch : input.capture.branch = input'.capture.branch
  sourceAgentVersion : input.capture.sourceAgentVersion = input'.capture.sourceAgentVersion
  artifactSetVersion : input.capture.artifactSetVersion = input'.capture.artifactSetVersion
  artifacts : ∀ original, (∃ a ∈ input.declared.getD [], a.original = original) ↔
    ∃ a ∈ input'.declared.getD [], a.original = original

/-- The document whose digest is the fingerprint of the manifest. -/
def Manifest.fingerprinted (manifest : Manifest) : Bytes := jsonToVec (fingerprintJson manifest)

theorem optionJson_injective : Function.Injective optionJson := by
  intro a b h
  cases a <;> cases b <;> simp_all [optionJson]

theorem Artifact.originalJson_eq_iff {a b : Artifact} :
    a.originalJson = b.originalJson ↔ a.original = b.original := by
  unfold Artifact.originalJson Artifact.original
  simp only [Lib.Json.obj.injEq, List.cons.injEq, Prod.mk.injEq, Lib.Json.str.injEq,
    Lib.Json.num.injEq, Nat.cast_inj, UInt64.toNat_inj, true_and, and_true]

theorem map_originalJson_eq_iff {as bs : List Artifact} :
    as.map Artifact.originalJson = bs.map Artifact.originalJson ↔
      as.map Artifact.original = bs.map Artifact.original := by
  induction as generalizing bs with
  | nil => cases bs <;> simp
  | cons a rest ih =>
    cases bs with
    | nil => simp
    | cons b rest' =>
      simp only [List.map_cons, List.cons.injEq, ih, Artifact.originalJson_eq_iff]

theorem SessionInput.toJson_eq_iff {s s' : SessionInput} : s.toJson = s'.toJson ↔
    s.sourceAgent = s'.sourceAgent ∧ s.sourceSessionId = s'.sourceSessionId := by
  unfold SessionInput.toJson
  simp only [Lib.Json.obj.injEq, List.cons.injEq, Prod.mk.injEq, Lib.Json.str.injEq, true_and,
    and_true]

theorem Capture.stableJson_eq_iff {s s' : Capture} : s.stableJson = s'.stableJson ↔
    s.project = s'.project ∧ s.repository = s'.repository ∧ s.branch = s'.branch ∧
      s.sourceAgentVersion = s'.sourceAgentVersion ∧
      s.artifactSetVersion = s'.artifactSetVersion := by
  unfold Capture.stableJson
  simp only [Lib.Json.obj.injEq, List.cons.injEq, Prod.mk.injEq, Lib.Json.num.injEq,
    Nat.cast_inj, optionJson_injective.eq_iff, UInt16.toNat_inj, true_and, and_true]

/-- Where their documents do not collide, fingerprints agree as the documents do. -/
theorem snapshotFingerprint_eq_iff {docs : Set Bytes} (hc : c.CollisionFree docs)
    {manifest manifest' : Manifest} (hmem : manifest.fingerprinted ∈ docs)
    (hmem' : manifest'.fingerprinted ∈ docs) :
    snapshotFingerprint c manifest = snapshotFingerprint c manifest' ↔
      manifest.schemaVersion = manifest'.schemaVersion ∧
      manifest.session.toJson = manifest'.session.toJson ∧
      manifest.capture.stableJson = manifest'.capture.stableJson ∧
      (sortByPath manifest.artifacts).map Artifact.original =
        (sortByPath manifest'.artifacts).map Artifact.original := by
  have hjson : snapshotFingerprint c manifest = snapshotFingerprint c manifest' ↔
      fingerprintJson manifest = fingerprintJson manifest' :=
    (hc.eq_iff hmem hmem').trans jsonToVec_injective.eq_iff
  rw [hjson]
  unfold fingerprintJson
  simp only [Lib.Json.obj.injEq, List.cons.injEq, Prod.mk.injEq, Lib.Json.num.injEq,
    Nat.cast_inj, Lib.Json.arr.injEq, map_originalJson_eq_iff, UInt16.toNat_inj, true_and, and_true]

/-- Artifacts of different paths are in one order, whatever else they carry. -/
theorem map_original_sortByPath_eq_iff {as bs : List Artifact}
    (has : UniqueOn Artifact.logicalPath as) (hbs : UniqueOn Artifact.logicalPath bs) :
    (sortByPath as).map Artifact.original = (sortByPath bs).map Artifact.original ↔
      ∀ original, (∃ a ∈ as, a.original = original) ↔ ∃ b ∈ bs, b.original = original := by
  have hmem (xs : List Artifact) (original : String × UInt64 × String) :
      original ∈ (sortByPath xs).map Artifact.original ↔ ∃ x ∈ xs, x.original = original := by
    simp only [List.mem_map, (sortByPath_perm xs).mem_iff]
  have hpaths {xs : List Artifact} (hxs : UniqueOn Artifact.logicalPath xs) :
      (((sortByPath xs).map Artifact.original).map Prod.fst).Nodup := by
    rw [List.map_map]
    exact (((sortByPath_perm xs).map Artifact.logicalPath).nodup_iff).mpr hxs
  have hsorted (xs : List Artifact) : ((sortByPath xs).map Artifact.original).Pairwise
      fun x y => x.1 ≤ y.1 := List.pairwise_map.mpr (sortByPath_sorted xs)
  constructor
  · intro h original
    rw [← hmem as, ← hmem bs, h]
  · intro h
    -- the same members without repetition, in an order that is strict on what the lists hold
    have hperm : ((sortByPath as).map Artifact.original).Perm
        ((sortByPath bs).map Artifact.original) := by
      rw [List.perm_ext_iff_of_nodup (hpaths has).of_map (hpaths hbs).of_map]
      intro original
      rw [hmem as, hmem bs]
      exact h original
    refine List.Perm.eq_of_pairwise (fun x y hx hy hxy hyx => ?_) (hsorted as) (hsorted bs) hperm
    exact List.inj_on_of_nodup_map (hpaths has) hx (hperm.mem_iff.mpr hy) (le_antisymm hxy hyx)

/-! ## §2 — Accepted manifests. -/

theorem Admissible.uniquePaths {limits : ManifestLimits} {artifacts : List ArtifactInput}
    (h : Admissible c limits artifacts) : UniqueOn Artifact.logicalPath artifacts := by
  have hfolded : (artifacts.map foldedPath) =
      (artifacts.map Artifact.logicalPath).map toAsciiLowercase := by
    rw [List.map_map]
    rfl
  have hdistinct := h.distinct
  rw [hfolded] at hdistinct
  exact hdistinct.of_map

/-- **`snapshotFingerprint_exact`** — two accepted manifests whose documents do not collide have one
fingerprint exactly when they agree in schema version, session, stable capture fields and the set of
original artifacts. Nothing else in them is read: not the capture's time, cursor, state hash,
metadata or munshi version, not the artifacts' media types, stored forms, compression or order. -/
theorem snapshotFingerprint_exact (c : Crates) (limits limits' : ManifestLimits)
    (input input' : ManifestInput) (manifest manifest' : Manifest)
    (hc : c.CollisionFree {manifest.fingerprinted, manifest'.fingerprinted})
    (h : normalizeManifest c input limits = .ok manifest)
    (h' : normalizeManifest c input' limits' = .ok manifest') :
    snapshotFingerprint c manifest = snapshotFingerprint c manifest' ↔
      SameContent input input' := by
  obtain ⟨artifacts, hdeclared, hrules, rfl⟩ := normalizeManifest_ok.mp h
  obtain ⟨artifacts', hdeclared', hrules', rfl⟩ := normalizeManifest_ok.mp h'
  have hunique := hrules.admissible.uniquePaths
  have hunique' := hrules'.admissible.uniquePaths
  -- normalizing has sorted the artifacts already, fingerprinting sorts them once more
  have hpaths {xs : List Artifact} (hxs : UniqueOn Artifact.logicalPath xs) :
      UniqueOn Artifact.logicalPath (sortByPath xs) :=
    (((sortByPath_perm xs).map Artifact.logicalPath).nodup_iff).mpr hxs
  rw [snapshotFingerprint_eq_iff hc (Set.mem_insert _ _) (Set.mem_insert_of_mem _ rfl),
    SessionInput.toJson_eq_iff, Capture.stableJson_eq_iff,
    map_original_sortByPath_eq_iff (hpaths hunique) (hpaths hunique')]
  simp only [(sortByPath_perm artifacts).mem_iff, (sortByPath_perm artifacts').mem_iff]
  unfold canonicalCapture
  constructor
  · rintro ⟨hschema, ⟨hagent, hid⟩, ⟨hproject, hrepository, hbranch, hversion, hset⟩, hartifacts⟩
    refine ⟨hschema, hagent, hid, hproject, hrepository, hbranch, hversion, hset, ?_⟩
    rw [hdeclared, hdeclared']
    exact hartifacts
  · intro hsame
    have hartifacts := hsame.artifacts
    rw [hdeclared, hdeclared'] at hartifacts
    exact ⟨hsame.schemaVersion, ⟨hsame.sourceAgent, hsame.sourceSessionId⟩, ⟨hsame.project,
      hsame.repository, hsame.branch, hsame.sourceAgentVersion, hsame.artifactSetVersion⟩,
      hartifacts⟩

/-! ## §3 — A manifest sent twice. -/

/-- The crates of a table of distinct digests, none of which looks like an encoding, tell all inputs
apart. -/
theorem sample_injective {digests : List (Bytes × String)} (hvalues : UniqueOn Prod.snd digests)
    (hplain : ∀ e ∈ digests, e.2.toList.head? ≠ some 'b') :
    Function.Injective (Crates.sample digests).sha256Hex := by
  have hencoded (bytes : Bytes) {d : String} (e : Bytes) (hd : (e, d) ∈ digests) :
      "base64:" ++ Lib.Base64.encode bytes ≠ d := by
    rintro rfl
    exact hplain _ hd (by simp)
  intro a b h
  cases ha : digests.lookup a with
  | none =>
    cases hb : digests.lookup b with
    | none =>
      rw [Crates.sample_sha256Hex_unlisted ha, Crates.sample_sha256Hex_unlisted hb] at h
      have hencode : Lib.Base64.encode a = Lib.Base64.encode b := by simpa using h
      have hdecode := congrArg Lib.Base64.decode hencode
      rw [Lib.Base64.decode_encode, Lib.Base64.decode_encode] at hdecode
      exact Option.some.inj hdecode
    | some d =>
      rw [Crates.sample_sha256Hex_unlisted ha, Crates.sample_sha256Hex hb] at h
      exact absurd h (hencoded a b (Crates.mem_of_lookup hb))
  | some d =>
    have hmem := Crates.mem_of_lookup ha
    cases hb : digests.lookup b with
    | none =>
      rw [Crates.sample_sha256Hex ha, Crates.sample_sha256Hex_unlisted hb] at h
      exact absurd h.symm (hencoded b a hmem)
    | some d' =>
      rw [Crates.sample_sha256Hex ha, Crates.sample_sha256Hex hb] at h
      exact congrArg Prod.fst (hvalues.eq_of_mem hmem (Crates.mem_of_lookup hb) h)

/-- The sample manifest as another agent run could send it: later, with a version of its own and a
media type for its artifact. -/
def respelledManifest : ManifestInput :=
  { sampleManifest with
    capture := { sampleManifest.capture with
      capturedAt := "2026-01-01T00:00:03Z", munshiVersion := some "2" }
    artifacts := some [⟨"notes.txt", some "text/plain", 0, "sha256:" ++ emptyDigest, 0,
      "sha256:" ++ emptyDigest, .identity⟩] }

/-- The sample manifest as it is accepted, and as another branch of the project would send it. -/
def branchManifest (branch : Option String) : Manifest :=
  ⟨1, sampleManifest.session, { sampleManifest.capture with branch := branch },
    sampleManifest.artifacts.getD []⟩

def branchInput (branch : Option String) : ManifestInput :=
  { sampleManifest with capture := { sampleManifest.capture with branch := branch } }

def mainBranchFingerprint : String :=
  "71a5101fbcf0802a784e87c96820aed7aa94bd5e7f776bf68b7ad4bb3a3ca5a9"

/-- The digests of the documents of the two branches. -/
def branchDigests : List (Bytes × String) :=
  [((branchManifest none).fingerprinted, sampleFingerprint),
    ((branchManifest (some "main")).fingerprinted, mainBranchFingerprint)]

theorem branchDigests_injective : Function.Injective (Crates.sample branchDigests).sha256Hex := by
  have hvalues : ([sampleFingerprint, mainBranchFingerprint] : List String).Nodup ∧
      ∀ digest ∈ [sampleFingerprint, mainBranchFingerprint], digest.toList.head? ≠ some 'b' := by
    decide +kernel
  refine sample_injective hvalues.1 fun e he => hvalues.2 e.2 ?_
  have hmem : e.2 ∈ branchDigests.map Prod.snd := List.mem_map_of_mem he
  exact hmem

/-- The sample manifest and its other spelling have one fingerprint, another branch has another. -/
theorem snapshotFingerprint_exact_sample :
    let c := Crates.sample branchDigests
    ∃ manifest manifest' other,
      normalizeManifest c sampleManifest sampleConfig.manifestLimits = .ok manifest ∧
      normalizeManifest c respelledManifest sampleConfig.manifestLimits = .ok manifest' ∧
      normalizeManifest c (branchInput (some "main")) sampleConfig.manifestLimits = .ok other ∧
      manifest ≠ manifest' ∧ snapshotFingerprint c manifest = snapshotFingerprint c manifest' ∧
      snapshotFingerprint c manifest ≠ snapshotFingerprint c other := by
  intro c
  have haccepted : normalizeManifest c sampleManifest sampleConfig.manifestLimits =
      .ok (branchManifest none) := rfl
  have hrespelled : normalizeManifest c respelledManifest sampleConfig.manifestLimits =
      .ok ⟨1, respelledManifest.session, respelledManifest.capture,
        respelledManifest.artifacts.getD []⟩ := rfl
  have hother : normalizeManifest c (branchInput (some "main")) sampleConfig.manifestLimits =
      .ok (branchManifest (some "main")) := rfl
  have hsame : SameContent sampleManifest respelledManifest := by
    refine ⟨rfl, rfl, rfl, rfl, rfl, rfl, rfl, rfl, fun original => ?_⟩
    show (∃ a ∈ sampleManifest.artifacts.getD [], a.original = original) ↔
      ∃ a ∈ respelledManifest.artifacts.getD [], a.original = original
    simp [sampleManifest, respelledManifest, Artifact.original]
  refine ⟨_, _, _, haccepted, hrespelled, hother, ?_, ?_, fun h => ?_⟩
  · simp [branchManifest, sampleManifest, respelledManifest]
  · exact (snapshotFingerprint_exact c _ _ _ _ _ _ (branchDigests_injective.injOn) haccepted
      hrespelled).mpr hsame
  · have hbranch := ((snapshotFingerprint_exact c _ _ _ _ _ _ (branchDigests_injective.injOn)
      haccepted hother).mp h).branch
    simp [sampleManifest, branchInput] at hbranch

end Patwari
