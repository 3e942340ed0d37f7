/-
# Patwari.CaptureReuse — when a capture identity may be used again.

A capture identity stands for one manifest. While the upload of its first attempt is active, a
second attempt is compared with the manifest that was stored, read again and written in today's
shape. Once that upload has ended only the digest of what was stored is left, and the second attempt
is compared with the shapes a server may have stored it in. §1 says which texts those are, §2 that
nothing else in the transaction stands in the way, §3 when the two comparisons agree.
-/
import Patwari.Expiry
import Patwari.Fingerprint

namespace Patwari

open Lib (Json UniqueOn updateWhere)

variable {c : Crates} {cfg : Config} {db db' : Db} {new : NewUpload} {json : String}

/-! ## §1 — Shapes. -/

/-- A capture that says nothing the first servers could not say. -/
def Capture.Plain (capture : Capture) : Prop :=
  capture.sourceStateHash = none ∧ capture.sourceMetadata.entries = [] ∧
    capture.artifactSetVersion = legacyArtifactSetVersion

/-- **`Manifest.WrittenAs m json`** — the text is what today's server writes for the manifest, or
what the first servers with an artifact list wrote for it. -/
def Manifest.WrittenAs (m : Manifest) (json : String) : Prop :=
  json = m.canonicalJson ∨ m.capture.Plain ∧ json = Json.compact m.toLegacyJson

/-- The capture the first servers wrote is read with the values that came later. -/
theorem Capture.fromJson_toLegacyJson {capture : Capture} (h : capture.Plain) :
    Capture.fromJson capture.toLegacyJson = some capture := by
  obtain ⟨hhash, hmetadata, hversion⟩ := h
  have hempty : Lib.StringMap.empty = capture.sourceMetadata :=
    Lib.StringMap.ext hmetadata.symm
  cases capture
  simp only at hhash hempty hversion
  subst hhash hempty hversion
  have habsent : Json.asOption Json.asString none = some none := rfl
  simp [Capture.fromJson, Capture.toLegacyJson, Json.structFields, List.lookup_cons, habsent]

theorem Manifest.fromJson_toLegacyJson {m : Manifest} (h : m.capture.Plain) :
    Manifest.fromJson m.toLegacyJson = some m := by
  have hartifacts : listFromJson Artifact.fromJson (.arr (m.artifacts.map Artifact.toJson)) =
      some m.artifacts := mapM_map_some fun a _ => a.fromJson_toJson
  simp [Manifest.fromJson, Manifest.toLegacyJson, Json.structFields, List.lookup_cons,
    Json.asOption,
    hartifacts, Capture.fromJson_toLegacyJson h]

/-- A text in one of the shapes reads as the manifest. -/
theorem Manifest.WrittenAs.parse (hJson : c.JsonReads) {m : Manifest} (h : m.WrittenAs json) :
    parseManifest c json = some m := by
  rcases h with rfl | ⟨hplain, rfl⟩
  · exact parseManifest_canonicalJson hJson m
  · have hread : c.jsonFromStr (Json.compact m.toLegacyJson) = some m.toLegacyJson :=
      hJson.fromSlice m.toLegacyJson m.toLegacyJson_readable
    rw [parseManifest, hread, Option.bind_some, Manifest.fromJson_toLegacyJson hplain]

/-- **`comparedTexts c json m`** — the texts whose digests tell a stored text from a manifest: the
stored text, what today's server writes for the manifest it reads as, and the two shapes of `m`. -/
def comparedTexts (c : Crates) (json : String) (m : Manifest) : Set Bytes :=
  {bytes | bytes = utf8 json ∨
    (∃ stored, parseManifest c json = some stored ∧ bytes = utf8 stored.canonicalJson) ∨
    bytes = utf8 m.canonicalJson ∨ bytes = utf8 (Json.compact m.toLegacyJson)}

/-- Texts with one digest are one text, where they do not collide. -/
theorem text_of_digest {docs : Set Bytes} (hc : c.CollisionFree docs) {a b : String}
    (ha : utf8 a ∈ docs) (hb : utf8 b ∈ docs)
    (h : c.sha256Hex (utf8 a) = c.sha256Hex (utf8 b)) : a = b :=
  utf8_injective (hc ha hb h)

/-- The digests a second attempt may have left an audit with are those of the two shapes. -/
theorem digest_recognized_iff {m : Manifest} (hc : c.CollisionFree (comparedTexts c json m)) :
    c.sha256Hex (utf8 json) = manifestDigest c m ∨
        c.sha256Hex (utf8 json) ∈ legacyManifestDigests c m ↔ m.WrittenAs json := by
  have hjson : utf8 json ∈ comparedTexts c json m := Or.inl rfl
  have hcanonical : utf8 m.canonicalJson ∈ comparedTexts c json m := Or.inr (Or.inr (Or.inl rfl))
  have hlegacy : utf8 (Json.compact m.toLegacyJson) ∈ comparedTexts c json m :=
    Or.inr (Or.inr (Or.inr rfl))
  unfold legacyManifestDigests Manifest.WrittenAs
  refine or_congr ⟨text_of_digest hc hjson hcanonical, fun h => h ▸ rfl⟩ ?_
  split_ifs with hplain
  · rw [List.mem_singleton]
    exact ⟨fun h => ⟨hplain, text_of_digest hc hjson hlegacy h⟩, fun h => h.2 ▸ rfl⟩
  · exact iff_of_false List.not_mem_nil fun h => hplain h.1

/-! ## §2 — The transaction. -/

/-- Nothing but the capture identity can stand in the way of a new upload: its client is registered
and its identifiers are new. -/
structure NewUpload.Ready (new : NewUpload) (db : Db) : Prop where
  client : ∃ r ∈ db.clients, r.id = new.clientId ∧ r.ownerNamespace = ownerNamespace
  session : db.session new.sessionId = none
  upload : ∀ r ∈ db.uploads, r.id ≠ new.uploadId
  manifest : ∀ m ∈ db.manifests, m.id ≠ new.manifestId ∧ m.uploadId ≠ new.uploadId
  artifacts : ∀ r ∈ db.uploadArtifacts, r.uploadId ≠ new.uploadId

/-- The transaction of `create_upload` commits. -/
def NewUpload.Accepted (c : Crates) (cfg : Config) (new : NewUpload) (db : Db) : Prop :=
  ∃ created db', persistUpload c cfg new db = .ok (created, db')

theorem getOrCreateSession_total (h : new.Ready db) : ∃ sessionId sessions,
    getOrCreateSession new db = .ok (sessionId, { db with sessions := sessions }) := by
  have hclient : db.clients.any (fun r => decide (r.id = new.clientId ∧
      r.ownerNamespace = ownerNamespace)) = true := by
    simpa using h.client
  unfold getOrCreateSession
  rw [if_neg (not_not_intro hclient)]
  cases hsource : db.sessionOfSource new.manifest.session with
  | some row => exact ⟨_, _, rfl⟩
  | none =>
    rw [h.session]
    exact ⟨_, _, rfl⟩

/-- The numbers and paths of an upload's artifact rows. -/
theorem uploadArtifactRows_keys {uploadId : String} {entries : List (Artifact × ℕ)} {index : ℕ}
    {rows : List UploadArtifactRow} (h : uploadArtifactRows uploadId entries index = .ok rows) :
    rows.map UploadArtifactRow.logicalPath = entries.map (fun e => e.1.logicalPath) ∧
      rows.map UploadArtifactRow.artifactIndex =
        (List.range' index entries.length).map fun k : ℕ => (k : ℤ) := by
  induction entries generalizing index rows with
  | nil =>
    obtain rfl := pure_eq_ok.mp h
    exact ⟨rfl, rfl⟩
  | cons entry rest ih =>
    unfold uploadArtifactRows uploadArtifactRow at h
    simp only [bind_eq_ok, pure_eq_ok] at h
    obtain ⟨row, ⟨original, -, stored, -, count, -, rfl⟩, rows', hrows', rfl⟩ := h
    obtain ⟨hpaths, hindexes⟩ := ih hrows'
    constructor
    · rw [List.map_cons, List.map_cons, hpaths]
    · rw [List.map_cons, hindexes, List.length_cons, List.range'_succ, List.map_cons]

/-- Rows of a new upload with distinct numbers and paths can be inserted. -/
theorem foldlM_insertUploadArtifact_total {rows : List UploadArtifactRow} {uploadId : String}
    (hids : ∀ r ∈ rows, r.uploadId = uploadId)
    (hdistinct : rows.Pairwise fun a b =>
      a.artifactIndex ≠ b.artifactIndex ∧ a.logicalPath ≠ b.logicalPath)
    (hnew : ∀ r ∈ db.uploadArtifacts, r.uploadId = uploadId → ∀ x ∈ rows,
      r.artifactIndex ≠ x.artifactIndex ∧ r.logicalPath ≠ x.logicalPath) :
    ∃ db', rows.foldlM insertUploadArtifact db = .ok db' := by
  induction rows generalizing db with
  | nil => exact ⟨db, rfl⟩
  | cons row rest ih =>
    obtain ⟨hhead, htail⟩ := List.pairwise_cons.mp hdistinct
    have hfree : (db.uploadArtifacts.any fun r => decide (r.uploadId = row.uploadId ∧
        (r.artifactIndex = row.artifactIndex ∨ r.logicalPath = row.logicalPath))) = false := by
      rw [List.any_eq_false]
      intro r hr hclash
      obtain ⟨hid, hkey⟩ := of_decide_eq_true hclash
      have hfresh := hnew r hr (hid.trans (hids row List.mem_cons_self)) row List.mem_cons_self
      exact hkey.elim hfresh.1 hfresh.2
    have hinsert : insertUploadArtifact db row =
        .ok { db with uploadArtifacts := db.uploadArtifacts ++ [row] } := by
      unfold insertUploadArtifact
      rw [hfree]
      rfl
    rw [List.foldlM_cons, hinsert, ok_bind]
    refine ih (fun r hr => hids r (List.mem_cons_of_mem _ hr)) htail fun r hr hid x hx => ?_
    rcases List.mem_append.mp hr with hr | hr
    · exact hnew r hr hid x (List.mem_cons_of_mem _ hx)
    · obtain rfl := List.mem_singleton.mp hr
      exact hhead x hx

/-- The detail of a new upload can be written. -/
theorem persistNewUploadDetail_total (hcfg : cfg.Bounded) (hok : NewUploadOk c cfg new)
    (hmanifest : ∀ m ∈ db.manifests, m.id ≠ new.manifestId ∧ m.uploadId ≠ new.uploadId)
    (hartifacts : ∀ r ∈ db.uploadArtifacts, r.uploadId ≠ new.uploadId) :
    ∃ db', persistNewUploadDetail c new db = .ok db' := by
  obtain ⟨input, hinput⟩ := hok.manifest
  obtain ⟨rows, hrows, hlength⟩ := (newUpload_fits (c := c) hcfg (Manifest.within hinput)
    hok.layout).2
  have hfree : (db.manifests.any fun r => decide (r.id = new.manifestId ∨
      r.uploadId = new.uploadId)) = false := by
    rw [List.any_eq_false]
    intro m hm hclash
    exact (of_decide_eq_true hclash).elim (hmanifest m hm).1 (hmanifest m hm).2
  obtain ⟨hrowsLength, hids⟩ := uploadArtifactRows_ok hrows
  obtain ⟨hpaths, hindexes⟩ := uploadArtifactRows_keys hrows
  have hzip : (new.manifest.artifacts.zip new.layout.chunkCounts).map Prod.fst =
      new.manifest.artifacts := by
    refine List.map_fst_zip ?_
    rw [hlength, List.length_zip] at hrowsLength
    omega
  have hpathsOnce : (rows.map UploadArtifactRow.logicalPath).Nodup := by
    obtain ⟨artifacts, -, hrules, heq⟩ := normalizeManifest_ok.mp hinput
    have hfolded := (hrules.admissible.perm (sortByPath_perm artifacts).symm).distinct
    have hsorted : new.manifest.artifacts = sortByPath artifacts := by rw [heq]
    have hpathsEq : rows.map UploadArtifactRow.logicalPath =
        new.manifest.artifacts.map Artifact.logicalPath := by
      rw [hpaths, ← hzip, List.map_map, hzip]
      rfl
    rw [hpathsEq, hsorted]
    refine List.Nodup.of_map toAsciiLowercase ?_
    rwa [List.map_map]
  have hindexesOnce : (rows.map UploadArtifactRow.artifactIndex).Nodup := by
    rw [hindexes]
    exact List.Nodup.map Nat.cast_injective (List.nodup_range' 1)
  have hdistinct : rows.Pairwise fun a b =>
      a.artifactIndex ≠ b.artifactIndex ∧ a.logicalPath ≠ b.logicalPath :=
    (List.pairwise_map.mp hindexesOnce).and (List.pairwise_map.mp hpathsOnce)
  unfold persistNewUploadDetail
  rw [hfree]
  show ∃ db', (uploadArtifactRows new.uploadId _ 0 >>= fun rows => _) = Except.ok db'
  rw [hrows, ok_bind]
  exact foldlM_insertUploadArtifact_total hids hdistinct fun r hr hid =>
    absurd hid (hartifacts r hr)

/-- What a second attempt is compared with while an upload holds the identity. -/
theorem accepted_bound (hcfg : cfg.Bounded) (hok : NewUploadOk c cfg new) (hready : new.Ready db)
    {existing : UploadRow}
    (hbound : db.uploadByCapture new.clientId new.captureId = some existing) :
    new.Accepted c cfg db ↔ ensureTerminalCaptureReuseIsEquivalent c new db = .ok () ∧
      (existing.manifestSha256 = manifestDigest c new.manifest ∨
        legacyManifestEquivalent c existing.id (manifestDigest c new.manifest) db = .ok true) := by
  obtain ⟨sessionId, sessions, hsession⟩ := getOrCreateSession_total hready
  obtain ⟨input, hinput⟩ := hok.manifest
  obtain ⟨row, hrow, -⟩ := (newUpload_fits (c := c) hcfg (Manifest.within hinput) hok.layout).1
    sessionId
  constructor
  · rintro ⟨created, db', h⟩
    obtain ⟨sessionId', db₁, hsession', hensure, hcase⟩ := persistUpload_ok h
    obtain ⟨-, rfl⟩ := Prod.mk.inj (Except.ok.inj (hsession'.symm.trans hsession))
    refine ⟨hensure, ?_⟩
    rcases hcase with ⟨found, hfound, hsame, -⟩ | ⟨hnone, -⟩
    · obtain rfl : found = existing := Option.some.inj (hfound.symm.trans hbound)
      exact hsame
    · exact absurd (hnone.symm.trans hbound) (by simp)
  · rintro ⟨hensure, hsame⟩
    have hensure' : ensureTerminalCaptureReuseIsEquivalent c new { db with sessions := sessions } =
        .ok () := hensure
    have hbound' : Db.uploadByCapture { db with sessions := sessions } new.clientId new.captureId =
        some existing := hbound
    refine ⟨⟨existing.id, false⟩, { db with sessions := sessions }, ?_⟩
    unfold persistUpload
    rw [hsession, ok_bind]
    simp only [hensure', ok_bind, hrow, hbound']
    by_cases hdigest : existing.manifestSha256 = manifestDigest c new.manifest
    · rw [if_neg (not_not_intro hdigest)]
      rfl
    · have hlegacy : legacyManifestEquivalent c existing.id (manifestDigest c new.manifest)
          { db with sessions := sessions } = .ok true := hsame.resolve_left hdigest
      rw [if_pos hdigest, hlegacy]
      rfl

/-- What it is compared with once no upload holds the identity. -/
theorem accepted_free (hcfg : cfg.Bounded) (hok : NewUploadOk c cfg new) (hready : new.Ready db)
    (hfree : db.uploadByCapture new.clientId new.captureId = none) :
    new.Accepted c cfg db ↔ ensureTerminalCaptureReuseIsEquivalent c new db = .ok () := by
  obtain ⟨sessionId, sessions, hsession⟩ := getOrCreateSession_total hready
  obtain ⟨input, hinput⟩ := hok.manifest
  obtain ⟨row, hrow, -⟩ := (newUpload_fits (c := c) hcfg (Manifest.within hinput) hok.layout).1
    sessionId
  constructor
  · rintro ⟨created, db', h⟩
    obtain ⟨sessionId', db₁, hsession', hensure, -⟩ := persistUpload_ok h
    obtain ⟨-, rfl⟩ := Prod.mk.inj (Except.ok.inj (hsession'.symm.trans hsession))
    exact hensure
  · intro hensure
    have hensure' : ensureTerminalCaptureReuseIsEquivalent c new { db with sessions := sessions } =
        .ok () := hensure
    have hfree' : Db.uploadByCapture { db with sessions := sessions } new.clientId new.captureId =
        none := hfree
    have hnone : Db.upload { db with sessions := sessions } new.uploadId = none :=
      List.find?_eq_none.mpr fun r hr hid => hready.upload r hr (of_decide_eq_true hid)
    obtain ⟨db', hdetail⟩ : ∃ db', persistNewUploadDetail c new
        { db with sessions := sessions, uploads := db.uploads ++ [row] } = .ok db' :=
      persistNewUploadDetail_total hcfg hok hready.manifest hready.artifacts
    refine ⟨⟨new.uploadId, true⟩, db', ?_⟩
    unfold persistUpload
    rw [hsession, ok_bind]
    simp only [hensure', ok_bind, hrow, hfree', hnone]
    show (persistNewUploadDetail c new _ >>= _) = _
    rw [hdetail]
    rfl

/-! ## §3 — Two comparisons. -/

/-- **`Attempt c new json u db`** — the capture identity of the new upload is held by an active
upload whose manifest was stored as this text, with its digest, whatever server wrote it. -/
structure Attempt (c : Crates) (new : NewUpload) (json : String) (u : UploadRow) (db : Db) :
    Prop where
  mem : u ∈ db.uploads
  owner : u.ownerNamespace = ownerNamespace
  client : u.clientId = new.clientId
  capture : u.captureId = new.captureId
  active : u.status ≠ .completed
  digest : u.manifestSha256 = c.sha256Hex (utf8 json)
  manifest : ∃ m ∈ db.manifests, m.uploadId = u.id ∧ m.canonicalJson = json

/-- While the upload is active its stored manifest is read again. -/
theorem Attempt.accepted_iff (hJson : c.JsonReads)
    (hc : c.CollisionFree (comparedTexts c json new.manifest)) (hcfg : cfg.Bounded)
    (hunique : db.Unique) (hok : NewUploadOk c cfg new) (hready : new.Ready db) {u : UploadRow}
    (h : Attempt c new json u db) {manifest : Manifest}
    (hparsed : parseManifest c json = some manifest)
    (hprior : ensureTerminalCaptureReuseIsEquivalent c new db = .ok ()) :
    new.Accepted c cfg db ↔ manifest = new.manifest := by
  have hbound : db.uploadByCapture new.clientId new.captureId = some u := by
    cases hfound : db.uploadByCapture new.clientId new.captureId with
    | none =>
      have hmiss := List.find?_eq_none.mp hfound u h.mem
      simp [h.owner, h.client, h.capture] at hmiss
    | some r =>
      have hkey := List.find?_some hfound
      simp only [decide_eq_true_eq] at hkey
      refine congrArg some (hunique.captureIds.eq_of_mem (List.mem_of_find?_eq_some hfound) h.mem
        ?_)
      simp only [hkey, h.owner, h.client, h.capture]
  obtain ⟨m, hm, hid, htext⟩ := h.manifest
  have hstored : db.manifestOfUpload u.id = some m := by
    rw [← hid]
    exact Lib.find?_unique hunique.manifests hm
  have hread : legacyManifestEquivalent c u.id (manifestDigest c new.manifest) db =
      .ok (decide (manifestDigest c manifest = manifestDigest c new.manifest)) := by
    unfold legacyManifestEquivalent
    rw [hstored]
    dsimp only
    rw [htext, hparsed]
    rfl
  rw [accepted_bound hcfg hok hready hbound, hread, h.digest]
  have hcanonical : utf8 new.manifest.canonicalJson ∈ comparedTexts c json new.manifest :=
    Or.inr (Or.inr (Or.inl rfl))
  have hstoredText : utf8 manifest.canonicalJson ∈ comparedTexts c json new.manifest :=
    Or.inr (Or.inl ⟨manifest, hparsed, rfl⟩)
  constructor
  · rintro ⟨-, hsame | hsame⟩
    · -- the text is the one today's server writes
      obtain rfl := text_of_digest hc (Or.inl rfl) hcanonical hsame
      exact Option.some.inj (hparsed.symm.trans (parseManifest_canonicalJson hJson _))
    · exact Manifest.canonicalJson_injective
        (text_of_digest hc hstoredText hcanonical (of_decide_eq_true (Except.ok.inj hsame)))
  · rintro rfl
    exact ⟨hprior, Or.inr (congrArg Except.ok (decide_eq_true rfl))⟩

/-- Once the upload has ended its digest is compared. -/
theorem Attempt.accepted_ended_iff (hc : c.CollisionFree (comparedTexts c json new.manifest))
    (hcfg : cfg.Bounded) (hunique : db.Unique) (hok : NewUploadOk c cfg new) (hready : new.Ready db)
    {u : UploadRow}
    (h : Attempt c new json u db) {reason : TerminalReason} {terminalAt : String}
    (hlatest : (endUpload u reason terminalAt db).latestAudit new.clientId new.captureId =
      some (uploadAuditRow u reason terminalAt)) :
    new.Accepted c cfg (endUpload u reason terminalAt db) ↔ new.manifest.WrittenAs json := by
  have hready' : new.Ready (endUpload u reason terminalAt db) :=
    { hready with
      upload := fun r hr => hready.upload r (List.mem_of_mem_filter hr)
      manifest := fun m hm => hready.manifest m (List.mem_of_mem_filter hm)
      artifacts := fun r hr => hready.artifacts r (List.mem_of_mem_filter hr) }
  have hfree : (endUpload u reason terminalAt db).uploadByCapture new.clientId new.captureId =
      none := by
    refine List.find?_eq_none.mpr fun r hr hkey => ?_
    obtain ⟨hmem, hne⟩ := List.mem_filter.mp hr
    obtain ⟨howner, hclient, hcapture⟩ := of_decide_eq_true hkey
    refine of_decide_eq_true hne
      (congrArg UploadRow.id (hunique.captureIds.eq_of_mem hmem h.mem ?_))
    simp only [howner, hclient, hcapture, h.owner, h.client, h.capture]
  have hdigest : (uploadAuditRow u reason terminalAt).manifestSha256 =
      some (c.sha256Hex (utf8 json)) := congrArg some h.digest
  rw [accepted_free hcfg hok hready' hfree, ← digest_recognized_iff hc]
  unfold ensureTerminalCaptureReuseIsEquivalent
  rw [hlatest]
  dsimp only
  rw [hdigest]
  dsimp only
  split_ifs with hsame
  · exact iff_of_true rfl hsame
  · exact iff_of_false (fun h => nomatch h) hsame

/-- **`captureReuse_exact`** — for every text a server may have stored and every manifest of a
second attempt, where the texts compared do not collide: the attempt is accepted while the first
upload is active exactly when it is accepted after that upload has ended, and both exactly when the
text reads as the manifest, unless the text reads as the manifest without being what today's server
or the first one with an artifact list writes for it. -/
theorem captureReuse_exact (hJson : c.JsonReads) (config : ServerConfig)
    (hconfig : config.validate = .ok ()) (db : Db) (hunique : db.Unique) (new : NewUpload)
    (hok : NewUploadOk c config.toConfig new) (hready : new.Ready db) (json : String)
    (hc : c.CollisionFree (comparedTexts c json new.manifest))
    (hparses : ∃ manifest, parseManifest c json = some manifest) (u : UploadRow)
    (h : Attempt c new json u db) (reason : TerminalReason) (terminalAt : String)
    (hprior : ensureTerminalCaptureReuseIsEquivalent c new db = .ok ())
    (hlatest : (endUpload u reason terminalAt db).latestAudit new.clientId new.captureId =
      some (uploadAuditRow u reason terminalAt)) :
    ((new.Accepted c config.toConfig db ↔
          new.Accepted c config.toConfig (endUpload u reason terminalAt db)) ∧
        (new.Accepted c config.toConfig db ↔ parseManifest c json = some new.manifest)) ↔
      (parseManifest c json = some new.manifest → new.manifest.WrittenAs json) := by
  have hcfg := ServerConfig.bounded hconfig
  obtain ⟨manifest, hparsed⟩ := hparses
  rw [h.accepted_iff hJson hc hcfg hunique hok hready hparsed hprior,
    h.accepted_ended_iff hc hcfg hunique hok hready hlatest, hparsed, Option.some.injEq]
  have hwritten : new.manifest.WrittenAs json → manifest = new.manifest := fun hw =>
    Option.some.inj (hparsed.symm.trans (hw.parse hJson))
  exact ⟨fun hboth hsame => hboth.1.mp hsame, fun himp => ⟨⟨himp, hwritten⟩, Iff.rfl⟩⟩

/-! ### One manifest stored by two servers. -/

/-- The sample manifest as it is accepted. -/
def reuseManifest : Manifest :=
  ⟨1, sampleManifest.session, sampleManifest.capture,
    [⟨"notes.txt", none, 0, "sha256:" ++ emptyDigest, 0, "sha256:" ++ emptyDigest, .identity⟩]⟩

/-- As a server stored it that knew one artifact only. -/
def singletonJson : Json :=
  .obj [("schema_version", .num 1), ("session", reuseManifest.session.toJson),
    ("capture", reuseManifest.capture.toLegacyJson),
    ("artifact", Artifact.toJson ⟨"notes.txt", none, 0, "sha256:" ++ emptyDigest, 0,
      "sha256:" ++ emptyDigest, .identity⟩)]

/-- The digests of the manifest in the three shapes: as it is stored today, by the first servers
with an artifact list, and before those. -/
def reuseDigests : List (Bytes × String) :=
  [(utf8 reuseManifest.canonicalJson, sampleManifestDigest),
    (utf8 (Json.compact reuseManifest.toLegacyJson),
      "ce4d86fde28db736bd892cfbc4b009077424f4589a4c3bfee5a55546d0f346b1"),
    (utf8 (Json.compact singletonJson),
      "6c983e43d4b6a24479f7b6360caad6ecd61e2be16c3388aa93ab71acc589400a")]

/-- Crates with these digests that know the minute. -/
def reuseCrates : Crates :=
  { Crates.sample reuseDigests with
    parseRfc3339 := minuteCrates.parseRfc3339
    formatRfc3339 := minuteCrates.formatRfc3339 }

theorem reuseCrates_jsonReads : reuseCrates.JsonReads where
  fromSlice := (Crates.sample_jsonReads reuseDigests).fromSlice

/-- They read every document. -/
theorem reuseCrates_jsonFromStr (j : Json) : reuseCrates.jsonFromStr (Json.compact j) = some j :=
  Crates.sample_jsonFromSlice reuseDigests j

theorem reuseCrates_injective : Function.Injective reuseCrates.sha256Hex := by
  have hvalues : (reuseDigests.map Prod.snd).Nodup ∧
      ∀ digest ∈ reuseDigests.map Prod.snd, digest.toList.head? ≠ some 'b' := by decide +kernel
  exact sample_injective hvalues.1 fun e he => hvalues.2 e.2 (List.mem_map_of_mem he)

/-- A second attempt. -/
def reuseNew : NewUpload where
  clientId := sampleClientId
  captureId := "capture"
  manifest := reuseManifest
  layout := ⟨[0], 0, 0⟩
  now := "2026-01-01T00:00:00Z"
  expiresAt := "2026-01-01T00:01:00Z"
  sessionId := sampleUuid 10
  uploadId := sampleUuid 11
  manifestId := sampleUuid 12

/-- The upload of the first, whose manifest was stored as this text. -/
def reuseUpload (json : String) : UploadRow :=
  { minuteUpload with manifestSha256 := reuseCrates.sha256Hex (utf8 json) }

def reuseDb (json : String) : Db :=
  { Db.empty with
    clients := minuteState.db.clients
    uploads := [reuseUpload json]
    manifests := [⟨sampleUuid 3, sampleUuid 1, json, reuseCrates.sha256Hex (utf8 json),
      "2026-01-01T00:00:00Z"⟩] }

theorem reuseNew_ok : NewUploadOk reuseCrates minuteConfig.toConfig reuseNew where
  manifest := ⟨sampleManifest, rfl⟩
  layout := rfl
  times := ⟨.utc 1767225600000000000, rfl, by decide +kernel, by decide +kernel⟩

theorem reuseNew_ready (json : String) : reuseNew.Ready (reuseDb json) where
  client := ⟨_, List.mem_cons_self, rfl, rfl⟩
  session := rfl
  upload := fun r hr => by
    obtain rfl := List.mem_singleton.mp hr
    show sampleUuid 1 ≠ sampleUuid 11
    decide +kernel
  manifest := fun m hm => by
    obtain rfl := List.mem_singleton.mp hm
    show sampleUuid 3 ≠ sampleUuid 12 ∧ sampleUuid 1 ≠ sampleUuid 11
    decide +kernel
  artifacts := fun r hr => absurd hr List.not_mem_nil

theorem reuseDb_unique (json : String) : (reuseDb json).Unique := by
  -- no table has more than one row
  constructor <;> first | exact List.nodup_nil | exact List.nodup_singleton _

theorem reuseAttempt (json : String) :
    Attempt reuseCrates reuseNew json (reuseUpload json) (reuseDb json) where
  mem := List.mem_singleton_self _
  owner := rfl
  client := rfl
  capture := rfl
  active := by
    show UploadRowStatus.created ≠ .completed
    decide
  digest := rfl
  manifest := ⟨_, List.mem_singleton_self _, rfl, rfl⟩

theorem reusePrior (json : String) :
    ensureTerminalCaptureReuseIsEquivalent reuseCrates reuseNew (reuseDb json) = .ok () := rfl

theorem reuseLatest (json : String) (reason : TerminalReason) (terminalAt : String) :
    (endUpload (reuseUpload json) reason terminalAt (reuseDb json)).latestAudit reuseNew.clientId
      reuseNew.captureId = some (uploadAuditRow (reuseUpload json) reason terminalAt) := by
  rfl

/-- A manifest stored by the first server with an artifact list is recognized both times. -/
theorem captureReuse_exact_legacy :
    let json := Json.compact reuseManifest.toLegacyJson
    (reuseNew.Accepted reuseCrates minuteConfig.toConfig (reuseDb json) ↔
      reuseNew.Accepted reuseCrates minuteConfig.toConfig
        (endUpload (reuseUpload json) .abandoned "2026-01-01T00:00:30Z" (reuseDb json))) ∧
    (reuseNew.Accepted reuseCrates minuteConfig.toConfig (reuseDb json) ↔
      parseManifest reuseCrates json = some reuseManifest) := by
  intro json
  have hwritten : reuseManifest.WrittenAs json := Or.inr ⟨⟨rfl, rfl, rfl⟩, rfl⟩
  exact (captureReuse_exact reuseCrates_jsonReads minuteConfig (by decide +kernel) _
    (reuseDb_unique json) reuseNew reuseNew_ok (reuseNew_ready json) json
    reuseCrates_injective.injOn ⟨_, hwritten.parse reuseCrates_jsonReads⟩ _ (reuseAttempt json)
      .abandoned _ (reusePrior json)
    (reuseLatest json _ _)).mpr fun _ => hwritten

/-- **`captureReuse_singleton`** — a manifest stored with its one artifact is recognized while its
upload is active, and no longer once that was abandoned. -/
theorem captureReuse_singleton :
    let json := Json.compact singletonJson
    parseManifest reuseCrates json = some reuseManifest ∧
    reuseNew.Accepted reuseCrates minuteConfig.toConfig (reuseDb json) ∧
    ¬ reuseNew.Accepted reuseCrates minuteConfig.toConfig
      (endUpload (reuseUpload json) .abandoned "2026-01-01T00:00:30Z" (reuseDb json)) := by
  intro json
  have hcfg : minuteConfig.toConfig.Bounded := ServerConfig.bounded (by decide +kernel)
  have hparsed : parseManifest reuseCrates json = some reuseManifest := by
    rw [parseManifest, reuseCrates_jsonFromStr]
    rfl
  refine ⟨hparsed, ((reuseAttempt json).accepted_iff reuseCrates_jsonReads
    reuseCrates_injective.injOn hcfg (reuseDb_unique json) reuseNew_ok (reuseNew_ready json) hparsed
    (reusePrior json)).mpr rfl, fun h => ?_⟩
  have hwritten := ((reuseAttempt json).accepted_ended_iff reuseCrates_injective.injOn hcfg
    (reuseDb_unique json) reuseNew_ok (reuseNew_ready json) (reuseLatest json _ _)).mp h
  rcases hwritten with htext | ⟨-, htext⟩
  · have htree := Json.compact_injective htext
    simp [singletonJson, reuseNew, Manifest.toJson] at htree
  · have htree := Json.compact_injective htext
    simp [singletonJson, reuseNew, Manifest.toLegacyJson] at htree

end Patwari
