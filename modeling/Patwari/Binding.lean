/-
# Patwari.Binding — a capture identity stands for one manifest.

A client names each capture, and may try again under the same name. While its upload is there the
database holds one row for the name. When the upload ends, the row goes and an audit stays, which
remembers the digest of the manifest, and the next attempt is compared with the latest of them. §1
is the bookkeeping between uploads and audits over a whole life, §2 what a step does to the
bindings, and §3 that a name once bound is bound to the same manifest for ever, in a life whose
manifests do not collide.
-/
import Patwari.CaptureReuse
import Patwari.Lifecycle
import Patwari.Snapshots

namespace Patwari

open Lib (TaskId UniqueOn updateWhere mem_updateWhere)

variable {c : Crates} {cfg : Config} {mode : Mode} {t : TaskId} {s s' : Shared} {ids : List String}
  {db db' : Db} {sqlite : SqliteChecks} {m m' : Moment} {docs : Set Bytes}

/-! ## §1 — Uploads and audits over a life. -/

/-- An upload of an early version is upgraded in place. -/
theorem Db.UploadTables.legacy {used : List String} (h : db.UploadTables used)
    {uploadId : String} (hactive : ∀ u ∈ db.uploads, u.id = uploadId → u.status ≠ .completed)
    (artifact : Artifact) (chunkSize : ℕ) (now expiresAt : String) :
    (upgradeLegacyRows uploadId artifact chunkSize false now expiresAt db).UploadTables used := by
  have hupdated := h.update (p := fun r => decide (r.id = uploadId))
    (f := fun r => { r with
      chunkSizeBytes := chunkSize
      chunkCount := if artifact.storedSizeBytes.toNat = 0 then 0 else 1
      declaredStoredSizeBytes := artifact.storedSizeBytes.toNat
      declaredOriginalSizeBytes := artifact.originalSizeBytes.toNat
      expiresAt := expiresAt
      status := if artifact.storedSizeBytes.toNat = 0 ∨ false then .artifactUploaded else .created
      artifactCount := 1
      totalStoredSizeBytes := artifact.storedSizeBytes.toNat
      totalOriginalSizeBytes := artifact.originalSizeBytes.toNat })
    (fun _ => rfl) fun u hu hid => ?_
  · refine { hupdated with
      chunks := fun r hr => hupdated.chunks r ?_
      artifacts := fun r hr => ?_ }
    · simpa [upgradeLegacyRows] using hr
    · obtain ⟨a, ha, rfl⟩ := mem_updateWhere.mp hr
      obtain ⟨u, hu, hid⟩ := hupdated.artifacts a ha
      refine ⟨u, hu, hid.trans ?_⟩
      split <;> rfl
  · -- an active upload has no snapshot, and stays active
    have hnone : u.snapshotId.isSome = false := by
      simpa using fun hsome => hactive u hu (of_decide_eq_true hid) ((h.status u hu).mpr hsome)
    rw [hnone]
    split <;> simp

theorem LifeInvariant.uploadTables : LifeInvariant c cfg Db.UploadTables where
  toDbInvariant := DbInvariant.uploadTables
  chunks := fun _ _ hs => { hs with chunks := fun r hr => hs.chunks r (List.mem_of_mem_filter hr) }
  legacy := fun _ _ _ _ _ _ hactive hs => hs.legacy hactive _ _ _ _
  contexts := fun _ hs => { hs with }

theorem Life.uploadTables (h : Life c cfg sqlite m) : m.state.db.UploadTables m.state.used :=
  LifeInvariant.uploadTables.life Db.UploadTables.empty h

/-! ## §2 — Bindings. -/

/-- The name of a capture, as the client gave it. -/
def UploadRow.captureKey (r : UploadRow) : String × String × String :=
  (r.ownerNamespace, r.clientId, r.captureId)

def UploadAuditRow.captureKey (r : UploadAuditRow) : String × String × String :=
  (r.ownerNamespace, r.clientId, r.captureId)

def NewUpload.captureKey (new : NewUpload) : String × String × String :=
  (ownerNamespace, new.clientId, new.captureId)

/-- **`db.Binds key digest`** — an upload of this name is there, or has ended, and its manifest has
this digest, `none` when an audit does not say. -/
def Db.Binds (db : Db) (key : String × String × String) (digest : Option String) : Prop :=
  (∃ u ∈ db.uploads, u.captureKey = key ∧ some u.manifestSha256 = digest) ∨
    ∃ a ∈ db.uploadAudits, a.captureKey = key ∧ a.manifestSha256 = digest

/-- A manifest in today's shape and in the one before. -/
def Manifest.shapes (m : Manifest) : Set Bytes :=
  {utf8 m.canonicalJson, utf8 (Lib.Json.compact m.toLegacyJson)}

/-- The shapes of the manifests on record. -/
def Db.manifestTexts (c : Crates) (db : Db) : Set Bytes :=
  {bytes | ∃ row ∈ db.manifests, ∃ m : Manifest,
    parseManifest c row.canonicalJson = some m ∧ bytes ∈ m.shapes}

/-- **`Db.Bound`** — every name is bound to the digest of one manifest in today's shape, whose texts
are among `docs`. -/
structure Db.Bound (c : Crates) (docs : Set Bytes) (db : Db) : Prop where
  digests : ∀ key digest, db.Binds key digest →
    ∃ m : Manifest, m.shapes ⊆ docs ∧ digest = some (manifestDigest c m)
  once : ∀ key d d', db.Binds key d → db.Binds key d' → d = d'

theorem Db.Bound.empty : Db.empty.Bound c docs := by
  constructor <;> simp [Db.Binds, Db.empty]

/-- What a step does to the bindings. -/
inductive BindingStep (c : Crates) (db db' : Db) : Prop
  | same (h : ∀ key d, db'.Binds key d ↔ db.Binds key d)
  /-- An upload under a name that no upload there has, accepted by the audits. -/
  | created (new : NewUpload) (hfree : ∀ u ∈ db.uploads, u.captureKey ≠ new.captureKey)
      (hreuse : ensureTerminalCaptureReuseIsEquivalent c new db = .ok ())
      (hrow : ∃ row ∈ db'.manifests, row.canonicalJson = new.manifest.canonicalJson)
      (h : ∀ key d, db'.Binds key d ↔
        db.Binds key d ∨ key = new.captureKey ∧ d = some (manifestDigest c new.manifest))

theorem BindingStep.frame (hu : db'.uploads = db.uploads)
    (ha : db'.uploadAudits = db.uploadAudits) : BindingStep c db db' := by
  apply BindingStep.same
  intro key d
  unfold Db.Binds
  rw [hu, ha]

theorem BindingStep.kept (h : BindingStep c db db') {key : String × String × String}
    {d : Option String} (hd : db.Binds key d) : db'.Binds key d := by
  cases h with
  | same h => exact (h key d).mpr hd
  | created new hfree hreuse hrow h => exact (h key d).mpr (Or.inl hd)

/-- Rows that keep the name and the digest bind what they bound. -/
theorem BindingStep.update {p : UploadRow → Bool} {f : UploadRow → UploadRow}
    (hu : db'.uploads = updateWhere p f db.uploads) (ha : db'.uploadAudits = db.uploadAudits)
    (hf : ∀ r, (f r).captureKey = r.captureKey ∧ (f r).manifestSha256 = r.manifestSha256) :
    BindingStep c db db' := by
  have hrow (r : UploadRow) : (if p r then f r else r).captureKey = r.captureKey ∧
      (if p r then f r else r).manifestSha256 = r.manifestSha256 := by
    split
    · exact hf r
    · exact ⟨rfl, rfl⟩
  apply BindingStep.same
  intro key d
  unfold Db.Binds
  rw [ha, hu]
  refine or_congr_left ⟨?_, ?_⟩
  · rintro ⟨u, hu, hkey, hd⟩
    obtain ⟨r, hr, rfl⟩ := mem_updateWhere.mp hu
    rw [(hrow r).1] at hkey
    rw [(hrow r).2] at hd
    exact ⟨r, hr, hkey, hd⟩
  · rintro ⟨r, hr, hkey, hd⟩
    refine ⟨_, mem_updateWhere.mpr ⟨r, hr, rfl⟩, (hrow r).1.trans hkey, ?_⟩
    rw [(hrow r).2]
    exact hd

/-- An upload that ends hands its binding to its audit. -/
theorem BindingStep.ended {used : List String} (htables : db.UploadTables used)
    (hunique : UniqueOn UploadRow.id db.uploads) {upload current : UploadRow}
    (hmem : current ∈ db.uploads) (hfixed : current.fixed = upload.fixed) (reason : TerminalReason)
    (terminalAt : String) : BindingStep c db (endUpload upload reason terminalAt db) := by
  have hid : current.id = upload.id := UploadRow.id_of_fixed hfixed
  have hsame : current.captureKey = upload.captureKey ∧
      current.manifestSha256 = upload.manifestSha256 := by
    have hkey : current.fixed.captureKey = upload.fixed.captureKey := by rw [hfixed]
    have hdigest : current.fixed.manifestSha256 = upload.fixed.manifestSha256 := by rw [hfixed]
    exact ⟨hkey, hdigest⟩
  have hnone : ¬ db.uploadAudits.any (fun r => decide (r.uploadId = upload.id)) = true := by
    simp only [List.any_eq_true, decide_eq_true_eq, not_exists, not_and]
    intro a ha heq
    exact htables.apart current hmem a ha (heq.trans hid.symm)
  apply BindingStep.same
  intro key d
  unfold Db.Binds Patwari.endUpload
  rw [if_neg hnone]
  constructor
  · rintro (⟨u, hu, hbinds⟩ | ⟨a, ha, hkey, hd⟩)
    · exact Or.inl ⟨u, List.mem_of_mem_filter hu, hbinds⟩
    · rcases List.mem_append.mp ha with ha | ha
      · exact Or.inr ⟨a, ha, hkey, hd⟩
      · rw [List.mem_singleton.mp ha] at hkey hd
        refine Or.inl ⟨current, hmem, hsame.1.trans hkey, ?_⟩
        rw [hsame.2]
        exact hd
  · rintro (⟨u, hu, hkey, hd⟩ | ⟨a, ha, hbinds⟩)
    · by_cases hends : u.id = upload.id
      · obtain rfl := hunique.eq_of_mem hu hmem (hends.trans hid.symm)
        refine Or.inr ⟨_, List.mem_append_right _ List.mem_cons_self, hsame.1.symm.trans hkey, ?_⟩
        rw [← hd, hsame.2]
        rfl
      · exact Or.inl ⟨u, List.mem_filter.mpr ⟨hu, decide_eq_true hends⟩, hkey, hd⟩
    · exact Or.inr ⟨a, List.mem_append_left _ ha, hbinds⟩

theorem uploadByCapture_none {clientId captureId : String}
    (h : db.uploadByCapture clientId captureId = none) :
    ∀ u ∈ db.uploads, u.captureKey ≠ (ownerNamespace, clientId, captureId) := by
  intro u hu hkey
  obtain ⟨hnamespace, hrest⟩ := Prod.mk.inj hkey
  obtain ⟨hclient, hcapture⟩ := Prod.mk.inj hrest
  have hnone := List.find?_eq_none.mp h u hu
  exact hnone (decide_eq_true ⟨hnamespace, hclient, hcapture⟩)

theorem uploadByCapture_some {clientId captureId : String} {u : UploadRow}
    (h : db.uploadByCapture clientId captureId = some u) :
    u ∈ db.uploads ∧ u.captureKey = (ownerNamespace, clientId, captureId) := by
  unfold Db.uploadByCapture at h
  have hnames : u.ownerNamespace = ownerNamespace ∧ u.clientId = clientId ∧ u.captureId =
    captureId :=
    by simpa using List.find?_some h
  obtain ⟨hnamespace, hclient, hcapture⟩ := hnames
  refine ⟨List.mem_of_find?_eq_some h, ?_⟩
  unfold UploadRow.captureKey
  rw [hnamespace, hclient, hcapture]

theorem Effect.bindingStep (h : Effect c cfg mode t s ids db) (hunique : s.db.Unique)
    (htables : s.db.UploadTables s.used) : BindingStep c s.db db := by
  cases h with
  | created new row hnew hsession hreuse hfree hfresh hrow hrows =>
    obtain ⟨-, hnamespace, -, hclient, hcapture, hdigest, -⟩ := newUploadRow_ok hrow
    have hkey : row.captureKey = new.captureKey := by
      unfold UploadRow.captureKey NewUpload.captureKey
      rw [hnamespace, hclient, hcapture]
    refine .created new (uploadByCapture_none hfree) hreuse
      ⟨_, List.mem_append_right _ List.mem_cons_self, rfl⟩ fun key d => ?_
    constructor
    · rintro (⟨u, hu, hukey, hd⟩ | haudit)
      · rcases List.mem_append.mp hu with hu | hu
        · exact Or.inl (Or.inl ⟨u, hu, hukey, hd⟩)
        · rw [List.mem_singleton.mp hu] at hukey hd
          exact Or.inr ⟨hukey.symm.trans hkey, by rw [← hd, hdigest]⟩
      · exact Or.inl (Or.inr haudit)
    · rintro ((⟨u, hu, hbinds⟩ | haudit) | ⟨rfl, rfl⟩)
      · exact Or.inl ⟨u, List.mem_append_left _ hu, hbinds⟩
      · exact Or.inr haudit
      · exact Or.inl ⟨row, List.mem_append_right _ List.mem_cons_self, hkey, by rw [hdigest]⟩
  | ended upload current reason terminalAt hmem hfixed hactive hfree =>
    exact .ended htables hunique.uploads hmem hfixed reason terminalAt
  | status uploadId complete => exact .update rfl rfl fun _ => ⟨rfl, rfl⟩
  | attached x snapshot manifestRow hx hattach hsnapshot hlive hsession hfingerprint hseq
      hcontextSeq hcontexts => exact .update rfl rfl fun _ => ⟨rfl, rfl⟩
  | recorded x row manifestRow blobIds hx hattach hblobs hrow hfresh hfree hrows hcontexts =>
    exact .update rfl rfl fun _ => ⟨rfl, rfl⟩
  | deleted x snapshot manifest hx hrow hlive hfresh =>
    rw [foldl_scheduleOrClearBlobCandidate]
    exact .frame rfl rfl
  | _ => exact .frame rfl rfl

theorem DbMoved.bindingStep (h : DbMoved c cfg s s') (hs : Archive c s)
    (htables : s.db.UploadTables s.used) : BindingStep c s.db s'.db := by
  cases h with
  | stays hdb hused =>
    rw [hdb]
    exact .frame rfl rfl
  | writes hids heffect hused => exact heffect.bindingStep hs.inv.unique htables
  | collects hcollects hused =>
    obtain ⟨row, -, -, heq⟩ := hcollects
    rw [heq]
    exact .frame rfl rfl
  | chunks keep hdb hused =>
    rw [hdb]
    exact .frame rfl rfl
  | legacy uploadId artifact chunkSize now expiresAt hactive hdb hused =>
    rw [hdb]
    exact .update rfl rfl fun _ => ⟨rfl, rfl⟩
  | contexts hdb hused =>
    rw [hdb]
    exact .frame rfl rfl

/-! ## §3 — One manifest for ever. -/

/-- A digest that is recognized as an earlier shape of a manifest is that of a manifest in today's
shape only if the two are one. -/
theorem manifestDigest_recognized (hJson : c.JsonReads) (hc : c.CollisionFree docs)
    {m m' : Manifest} (hm : m.shapes ⊆ docs) (hm' : m'.shapes ⊆ docs)
    (h : manifestDigest c m = manifestDigest c m' ∨
      manifestDigest c m ∈ legacyManifestDigests c m') :
    manifestDigest c m = manifestDigest c m' := by
  have hread := parseManifest_canonicalJson hJson m
  have hcompared : comparedTexts c m.canonicalJson m' ⊆ docs := by
    rintro bytes (rfl | ⟨stored, hstored, rfl⟩ | rfl | rfl)
    · exact hm (Or.inl rfl)
    · obtain rfl := Option.some.inj (hread.symm.trans hstored)
      exact hm (Or.inl rfl)
    · exact hm' (Or.inl rfl)
    · exact hm' (Or.inr rfl)
  have hwritten : m'.WrittenAs m.canonicalJson := (digest_recognized_iff (hc.mono hcompared)).mp h
  have hparsed := hwritten.parse hJson
  rw [hread] at hparsed
  rw [Option.some.inj hparsed]

/-- A manifest that the audits of its name let pass is the one the name is bound to. -/
theorem Db.Bound.reused (hJson : c.JsonReads) (hc : c.CollisionFree docs) (hb : db.Bound c docs)
    {new : NewUpload} (hnew : new.manifest.shapes ⊆ docs)
    (hfree : ∀ u ∈ db.uploads, u.captureKey ≠ new.captureKey)
    (hreuse : ensureTerminalCaptureReuseIsEquivalent c new db = .ok ()) {d : Option String}
    (hd : db.Binds new.captureKey d) : d = some (manifestDigest c new.manifest) := by
  rcases hd with ⟨u, hu, hkey, -⟩ | ⟨a, ha, hkey, hd⟩
  · exact absurd hkey (hfree u hu)
  have hmem : a ∈ db.uploadAudits.filter fun r => decide (r.ownerNamespace = ownerNamespace ∧
      r.clientId = new.clientId ∧ r.captureId = new.captureId) := by
    obtain ⟨hnamespace, hrest⟩ := Prod.mk.inj hkey
    obtain ⟨hclient, hcapture⟩ := Prod.mk.inj hrest
    exact List.mem_filter.mpr ⟨ha, decide_eq_true ⟨hnamespace, hclient, hcapture⟩⟩
  unfold ensureTerminalCaptureReuseIsEquivalent at hreuse
  cases hlatest : db.latestAudit new.clientId new.captureId with
  | none =>
    rw [Db.latestAudit, List.argmax_eq_none] at hlatest
    rw [hlatest] at hmem
    exact absurd hmem List.not_mem_nil
  | some latest =>
    rw [hlatest] at hreuse
    obtain ⟨hlatestMem, hlatestKey⟩ := List.mem_filter.mp (List.argmax_mem hlatest)
    obtain ⟨hnamespace, hclient, hcapture⟩ := of_decide_eq_true hlatestKey
    have hbinds : db.Binds new.captureKey latest.manifestSha256 := by
      refine Or.inr ⟨latest, hlatestMem, ?_, rfl⟩
      unfold UploadAuditRow.captureKey NewUpload.captureKey
      rw [hnamespace, hclient, hcapture]
    -- the audits of one name agree, so the latest speaks for all of them
    obtain ⟨m, hshapes, hm⟩ := hb.digests _ _ hbinds
    have hsame := hb.once _ _ _ (Or.inr ⟨a, ha, hkey, hd⟩) hbinds
    rw [hm] at hsame
    dsimp only at hreuse
    rw [hm] at hreuse
    dsimp only at hreuse
    split at hreuse
    · next hrecognized => rw [hsame, manifestDigest_recognized hJson hc hshapes hnew hrecognized]
    · simp [throw, throwThe, MonadExceptOf.throw] at hreuse

theorem BindingStep.bound (hJson : c.JsonReads) (hc : c.CollisionFree docs)
    (h : BindingStep c db db') (hdocs : db'.manifestTexts c ⊆ docs) (hb : db.Bound c docs) :
    db'.Bound c docs := by
  cases h with
  | same h =>
    refine ⟨fun key d hd => hb.digests key d ((h key d).mp hd), fun key d d' hd hd' => ?_⟩
    exact hb.once key d d' ((h key d).mp hd) ((h key d').mp hd')
  | created new hfree hreuse hrow h =>
    have hnew : new.manifest.shapes ⊆ docs := by
      obtain ⟨row, hrow, htext⟩ := hrow
      refine fun bytes hbytes => hdocs ⟨row, hrow, new.manifest, ?_, hbytes⟩
      rw [htext]
      exact parseManifest_canonicalJson hJson new.manifest
    refine ⟨fun key d hd => ?_, fun key d d' hd hd' => ?_⟩
    · rcases (h key d).mp hd with hd | ⟨-, rfl⟩
      · exact hb.digests key d hd
      · exact ⟨new.manifest, hnew, rfl⟩
    · rcases (h key d).mp hd with hd | ⟨rfl, rfl⟩
      · rcases (h key d').mp hd' with hd' | ⟨rfl, rfl⟩
        · exact hb.once key d d' hd hd'
        · exact hb.reused hJson hc hnew hfree hreuse hd
      · rcases (h _ d').mp hd' with hd' | ⟨-, rfl⟩
        · exact (hb.reused hJson hc hnew hfree hreuse hd').symm
        · rfl

/-- The manifest row of an upload is what its digest says. -/
def Db.Described (c : Crates) (db : Db) : Prop :=
  ∀ u ∈ db.uploads, ∀ row ∈ db.manifests, row.uploadId = u.id →
    ∃ m : Manifest, row.canonicalJson = m.canonicalJson ∧ u.manifestSha256 = manifestDigest c m

theorem Db.Described.of_rows (h : db.Described c)
    (hu : ∀ u' ∈ db'.uploads, ∃ u ∈ db.uploads, u'.id = u.id ∧ u'.manifestSha256 = u.manifestSha256)
    (hm : ∀ row ∈ db'.manifests, row ∈ db.manifests) : db'.Described c := by
  intro u' hu' row hrow hid
  obtain ⟨u, hmem, hsame, hdigest⟩ := hu u' hu'
  obtain ⟨m, hjson, hsha⟩ := h u hmem row (hm row hrow) (hid.trans hsame)
  exact ⟨m, hjson, hdigest.trans hsha⟩

theorem Db.Described.update (h : db.Described c) {p : UploadRow → Bool} {f : UploadRow → UploadRow}
    (hu : db'.uploads = updateWhere p f db.uploads) (hm : db'.manifests = db.manifests)
    (hf : ∀ r, (f r).id = r.id ∧ (f r).manifestSha256 = r.manifestSha256) : db'.Described c := by
  refine h.of_rows (fun u' hu' => ?_) fun row hrow => hm ▸ hrow
  rw [hu] at hu'
  obtain ⟨u, hmem, rfl⟩ := mem_updateWhere.mp hu'
  refine ⟨u, hmem, ?_⟩
  split
  · exact hf u
  · exact ⟨rfl, rfl⟩

theorem Effect.described (h : Effect c cfg mode t s ids db) (htables : s.db.UploadTables s.used)
    (hs : s.db.Described c) : db.Described c := by
  cases h with
  | created new row hnew hsession hreuse hfree hfresh hrow hrows =>
    obtain ⟨hid, -, -, -, -, hdigest, -⟩ := newUploadRow_ok hrow
    have hnone : ∀ u ∈ s.db.uploads, u.id ≠ new.uploadId := by
      intro u hu heq
      exact List.find?_eq_none.mp hfresh u hu (decide_eq_true heq)
    intro u hu manifestRow hmanifest howner
    rcases List.mem_append.mp hu with hu | hu
    · rcases List.mem_append.mp hmanifest with hmanifest | hmanifest
      · exact hs u hu manifestRow hmanifest howner
      · rw [List.mem_singleton.mp hmanifest] at howner
        exact absurd howner.symm (hnone u hu)
    · obtain rfl := List.mem_singleton.mp hu
      rcases List.mem_append.mp hmanifest with hmanifest | hmanifest
      · -- a manifest row that is there has its upload there
        obtain ⟨v, hv, hvid⟩ := htables.manifests manifestRow hmanifest
        exact absurd (hvid.trans (howner.trans hid)) (hnone v hv)
      · rw [List.mem_singleton.mp hmanifest]
        exact ⟨new.manifest, rfl, hdigest⟩
  | ended upload current reason terminalAt hmem hfixed hactive hfree =>
    refine hs.of_rows (fun u hu => ⟨u, List.mem_of_mem_filter hu, rfl, rfl⟩) fun row hrow => ?_
    exact List.mem_of_mem_filter hrow
  | status uploadId complete => exact hs.update rfl rfl fun _ => ⟨rfl, rfl⟩
  | attached x snapshot manifestRow hx hattach hsnapshot hlive hsession hfingerprint hseq
      hcontextSeq hcontexts => exact hs.update rfl rfl fun _ => ⟨rfl, rfl⟩
  | recorded x row manifestRow blobIds hx hattach hblobs hrow hfresh hfree hrows hcontexts =>
    exact hs.update rfl rfl fun _ => ⟨rfl, rfl⟩
  | deleted x snapshot manifest hx hrow hlive hfresh =>
    rw [foldl_scheduleOrClearBlobCandidate]
    exact hs
  | _ => exact hs

theorem DbMoved.described (h : DbMoved c cfg s s') (htables : s.db.UploadTables s.used)
    (hs : s.db.Described c) : s'.db.Described c := by
  cases h with
  | stays hdb hused => exact hdb ▸ hs
  | writes hids heffect hused => exact heffect.described htables hs
  | collects hcollects hused =>
    obtain ⟨row, -, -, heq⟩ := hcollects
    exact heq ▸ hs
  | chunks keep hdb hused => exact hdb ▸ hs
  | legacy uploadId artifact chunkSize now expiresAt hactive hdb hused =>
    rw [hdb]
    exact hs.update rfl rfl fun _ => ⟨rfl, rfl⟩
  | contexts hdb hused => exact hdb ▸ hs

theorem Life.described (h : Life c cfg sqlite m) : m.state.db.Described c := by
  induction h with
  | refl => exact fun u hu => absurd hu List.not_mem_nil
  | tail hlife hstep ih =>
    have hgood := Life.good hlife
    have hmoved := (hstep.good hgood).2.dbMoved hgood.archive
    exact hmoved.described (Life.uploadTables hlife) ih

theorem Life.bindingStep (h : Life c cfg sqlite m) (hstep : LifeStep c cfg sqlite m m') :
    BindingStep c m.state.db m'.state.db := by
  have hgood := Life.good h
  exact ((hstep.good hgood).2.dbMoved hgood.archive).bindingStep hgood.archive (Life.uploadTables h)

variable (c cfg sqlite docs) in
/-- A step after which the texts of the manifests on record are among `docs`. -/
def StepWithin (m m' : Moment) : Prop :=
  LifeStep c cfg sqlite m m' ∧ m'.state.db.manifestTexts c ⊆ docs

variable (c cfg sqlite docs) in
/-- **`LifeWithin c cfg sqlite docs m`** — a life in which the texts of the manifests on record are
among `docs` throughout. -/
def LifeWithin (m : Moment) : Prop :=
  Relation.ReflTransGen (StepWithin c cfg sqlite docs)
    (.starting (bootstrapArchive c cfg).run Shared.init) m

theorem LifeWithin.life (h : LifeWithin c cfg sqlite docs m) : Life c cfg sqlite m :=
  h.lift id fun _ _ hstep => hstep.1

theorem LifeWithin.bound (hJson : c.JsonReads) (hc : c.CollisionFree docs)
    (h : LifeWithin c cfg sqlite docs m) : m.state.db.Bound c docs := by
  induction h with
  | refl => exact Db.Bound.empty
  | tail hlife hstep ih =>
    exact (Life.bindingStep (LifeWithin.life hlife) hstep.1).bound hJson hc hstep.2 ih

/-- Nothing that happens to an archive lets go of a binding. -/
theorem Life.keepsBinding (h : Life c cfg sqlite m)
    (hlater : Relation.ReflTransGen (LifeStep c cfg sqlite) m m') {key : String × String × String}
    {d : Option String} (hd : m.state.db.Binds key d) : m'.state.db.Binds key d := by
  induction hlater with
  | refl => exact hd
  | tail hsteps hnext ih => exact (Life.bindingStep (h.trans hsteps) hnext).kept ih

/-- Manifests of one digest are one manifest. -/
theorem manifest_of_digest (hJson : c.JsonReads) (hc : c.CollisionFree docs) {m m' : Manifest}
    (hm : m.shapes ⊆ docs) (hm' : m'.shapes ⊆ docs)
    (h : manifestDigest c m = manifestDigest c m') : m = m' := by
  have hparsed := parseManifest_canonicalJson hJson m
  rw [text_of_digest hc (hm (Or.inl rfl)) (hm' (Or.inl rfl)) h,
    parseManifest_canonicalJson hJson m'] at hparsed
  exact (Option.some.inj hparsed).symm

/-- A request to create an upload commits only for the manifest its capture identity is bound to. -/
theorem LifeWithin.commits_bound (hJson : c.JsonReads) (hc : c.CollisionFree docs)
    (h : LifeWithin c cfg sqlite docs m) {new : NewUpload} (hnew : new.manifest.shapes ⊆ docs)
    {created : CreatedUpload} {d : Option String} (hd : m.state.db.Binds new.captureKey d)
    (hok : persistUpload c cfg new m.state.db = .ok (created, db')) :
    d = some (manifestDigest c new.manifest) := by
  have hbound := h.bound hJson hc
  obtain ⟨sessionId, db₁, hsession, hreuse, hcase⟩ := persistUpload_ok hok
  rw [(sessionFor_of_ok hsession).2] at hreuse hcase
  rcases hcase with ⟨existing, hexisting, hsame, -⟩ | ⟨hfree, -⟩
  rotate_left
  · exact hbound.reused hJson hc hnew (uploadByCapture_none hfree) hreuse hd
  -- the upload that is there is bound to the digest its manifest row has
  obtain ⟨hmem, hkey⟩ := uploadByCapture_some hexisting
  have hmem : existing ∈ m.state.db.uploads := hmem
  have hkey : existing.captureKey = new.captureKey := hkey
  rw [hbound.once _ _ _ hd (Or.inl ⟨existing, hmem, hkey, rfl⟩)]
  rcases hsame with hsame | hsame
  · rw [hsame]
  · unfold legacyManifestEquivalent at hsame
    have hread : { m.state.db with sessions := db₁.sessions }.manifestOfUpload existing.id =
        m.state.db.manifestOfUpload existing.id := rfl
    rw [hread] at hsame
    cases hrow : m.state.db.manifestOfUpload existing.id with
    | none => simp [hrow, pure, Except.pure] at hsame
    | some row =>
      have howner : row.uploadId = existing.id := by simpa using List.find?_some hrow
      obtain ⟨stored, hjson, hdigest⟩ := Life.described h.life existing hmem row
        (List.mem_of_find?_eq_some hrow) howner
      have hparsed := parseManifest_canonicalJson hJson stored
      rw [hrow] at hsame
      dsimp only at hsame
      rw [hjson, hparsed] at hsame
      have hequal : manifestDigest c stored = manifestDigest c new.manifest :=
        of_decide_eq_true (Except.ok.inj hsame)
      rw [hdigest, hequal]

/-- **`captureBinding`** — in a life whose manifests do not collide, a capture identity stands for
one manifest for ever: once an upload of a name was there, then at every later moment there is at
most one upload of it, every upload and every audit of it says the digest of one manifest, and a
request to create an upload of that name commits only for that manifest. -/
theorem captureBinding (hJson : c.JsonReads) (hc : c.CollisionFree docs)
    (h : LifeWithin c cfg sqlite docs m)
    (hlater : Relation.ReflTransGen (StepWithin c cfg sqlite docs) m m')
    {key : String × String × String} {d : Option String} (hd : m.state.db.Binds key d) :
    (m'.state.db.uploads.filter fun u => decide (u.captureKey = key)).length ≤ 1 ∧
      ∃ manifest : Manifest, d = some (manifestDigest c manifest) ∧ m'.state.db.Binds key d ∧
        (∀ d', m'.state.db.Binds key d' → d' = d) ∧
        ∀ new created db', new.captureKey = key → new.manifest.shapes ⊆ docs →
          persistUpload c cfg new m'.state.db = .ok (created, db') → new.manifest = manifest := by
  have hlife' : LifeWithin c cfg sqlite docs m' := h.trans hlater
  have hbound := hlife'.bound hJson hc
  have hkept := Life.keepsBinding h.life (hlater.lift id fun _ _ hstep => hstep.1) hd
  obtain ⟨manifest, hshapes, rfl⟩ := hbound.digests key d hkept
  refine ⟨length_filter_key_le (Life.good hlife'.life).archive.inv.unique.captureIds key, manifest,
    rfl, hkept, fun d' hd' => hbound.once key d' _ hd' hkept, fun new created db' hkey hnew hok =>
      ?_⟩
  subst hkey
  have hdigest := hlife'.commits_bound hJson hc hnew hkept hok
  exact (manifest_of_digest hJson hc hshapes hnew (Option.some.inj hdigest)).symm

/-- The live snapshot of the sample archive is captured by an upload, whose name is bound. -/
theorem captureBinding_sample : ∃ p : Server, p.state.db.snapshots.map SnapshotRow.live = [true] ∧
    ∃ u ∈ p.state.db.uploads, ∃ manifest : Manifest,
      some u.manifestSha256 = some (manifestDigest lawfulCrates manifest) ∧
        ∀ new created db', new.captureKey = u.captureKey →
          persistUpload lawfulCrates sampleConfig new p.state.db = .ok (created, db') →
            new.manifest = manifest := by
  obtain ⟨p, hlife, hlive⟩ := lawfulArchive
  refine ⟨p, hlive, ?_⟩
  have hidentities := Life.identities lawfulCrates_jsonReads hlife
  have hsnapshot : ∃ r ∈ p.state.db.snapshots, r.live = true := by
    have hmem : true ∈ p.state.db.snapshots.map SnapshotRow.live := by rw [hlive]; simp
    exact List.mem_map.mp hmem
  obtain ⟨r, hr, hup⟩ := hsnapshot
  obtain ⟨capture, hcapture, -⟩ := hidentities.captured r hr hup
  obtain ⟨u, hu, -⟩ := hidentities.captures capture hcapture
  have hwithin : LifeWithin lawfulCrates sampleConfig sampleSqlite Set.univ (.serving p) :=
    hlife.lift id fun _ _ hstep => ⟨hstep, Set.subset_univ _⟩
  obtain ⟨-, manifest, hdigest, -, -, hcommits⟩ := captureBinding lawfulCrates_jsonReads
    lawfulCrates_injective.injOn hwithin Relation.ReflTransGen.refl (Or.inl ⟨u, hu, rfl, rfl⟩)
  exact ⟨u, hu, manifest, hdigest, fun new created db' hkey hok =>
    hcommits new created db' hkey (Set.subset_univ _) hok⟩

end Patwari
