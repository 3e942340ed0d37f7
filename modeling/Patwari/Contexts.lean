/-
# Patwari.Contexts — the latest context of every session.

Browsing shows a session as the newest of its live snapshots left it. The table behind it is derived
data with three maintainers: a completion moves a session's row up, a deletion queries one session
again, a bootstrap queries them all. §1 says what the table should hold, as the greatest context of
every session. §2 shows what the two queries answer, §3 that every step keeps the table, §4 that the
three maintainers agree at any moment of an archive's life.
-/
import Patwari.Snapshots
import Patwari.Lib.Latest

namespace Patwari

open Lib (Event TaskId UniqueOn Greatest Latest Top Raised updateWhere mem_updateWhere)

variable {c : Crates} {cfg : Config} {t : TaskId} {s s' : Shared} {ids : List String} {db db' : Db}

/-! ## §1 — Contexts of live snapshots. -/

/-- A context's place in the order of its session. -/
def SessionLatestContextRow.rank (r : SessionLatestContextRow) : ℤ ×ₗ String :=
  toLex (r.completedAtSeq, r.snapshotId)

/-- The context a capture gives its snapshot. -/
def contextOf (session : SessionRow) (snapshot : SnapshotRow) (capture : CaptureRow) :
    SessionLatestContextRow where
  sessionId := snapshot.sessionId
  snapshotId := snapshot.id
  completedAt := snapshot.completedAt
  completedAtSeq := snapshot.completedAtSeq
  sourceAgent := session.sourceAgent
  project := capture.project
  repository := capture.repository
  branch := capture.branch
  sourceAgentVersion := capture.sourceAgentVersion
  artifactSetVersion := capture.artifactSetVersion

/-- The contexts of all live snapshots. -/
def Db.liveContexts (db : Db) : Set SessionLatestContextRow :=
  {row | ∃ session ∈ db.sessions, ∃ snapshot ∈ db.snapshots, ∃ capture ∈ db.captures,
    snapshot.live = true ∧ session.id = snapshot.sessionId ∧ capture.snapshotId = snapshot.id ∧
      contextOf session snapshot capture = row}

/-- The table names the greatest context of every session. -/
abbrev Db.LatestContexts (db : Db) (table : List SessionLatestContextRow) : Prop :=
  Latest SessionLatestContextRow.sessionId SessionLatestContextRow.rank db.liveContexts table

/-- What a capture repeats of the fields its snapshot's fingerprint covers. -/
def CaptureRow.stable (r : CaptureRow) :
    Option String × Option String × Option String × Option String × ℤ :=
  (r.project, r.repository, r.branch, r.sourceAgentVersion, r.artifactSetVersion)

def Capture.stable (capture : Capture) :
    Option String × Option String × Option String × Option String × ℤ :=
  (capture.project, capture.repository, capture.branch, capture.sourceAgentVersion,
    capture.artifactSetVersion.toNat)

/-- The fingerprint of a snapshot fixes the stable fields of its captures. -/
theorem stable_of_snapshotFingerprint {docs : Set Bytes} (hc : c.CollisionFree docs)
    {manifest manifest' : Manifest} (hmem : manifest.fingerprinted ∈ docs)
    (hmem' : manifest'.fingerprinted ∈ docs)
    (h : snapshotFingerprint c manifest = snapshotFingerprint c manifest') :
    manifest.capture.stable = manifest'.capture.stable := by
  obtain ⟨-, -, hstable, -⟩ := (snapshotFingerprint_eq_iff hc hmem hmem').mp h
  obtain ⟨hproject, hrepository, hbranch, hversion, hset⟩ := Capture.stableJson_eq_iff.mp hstable
  unfold Capture.stable
  rw [hproject, hrepository, hbranch, hversion, hset]

/-! ## §2 — The queries. -/

/-- A context's place among those of its session, captures told apart by identifier. -/
theorem contextNotOlder_total (a b : SnapshotRow × CaptureRow) :
    contextNotOlder a b ∨ contextNotOlder b a := by
  unfold contextNotOlder
  rcases lt_trichotomy a.1.completedAtSeq b.1.completedAtSeq with hseq | hseq | hseq
  · exact Or.inr (Or.inl hseq)
  · rcases lt_trichotomy a.1.id b.1.id with hid | hid | hid
    · exact Or.inr (Or.inr ⟨hseq, Or.inl hid⟩)
    · rcases le_total a.2.id b.2.id with hcapture | hcapture
      · exact Or.inl (Or.inr ⟨hseq.symm, Or.inr ⟨hid.symm, hcapture⟩⟩)
      · exact Or.inr (Or.inr ⟨hseq, Or.inr ⟨hid, hcapture⟩⟩)
    · exact Or.inl (Or.inr ⟨hseq.symm, Or.inl hid⟩)
  · exact Or.inl (Or.inl hseq)

theorem contextNotOlder_trans {a b d : SnapshotRow × CaptureRow} (hab : contextNotOlder a b)
    (hbd : contextNotOlder b d) : contextNotOlder a d := by
  unfold contextNotOlder at *
  rcases hab with hab | ⟨hab, hab'⟩
  · rcases hbd with hbd | ⟨hbd, -⟩
    · exact Or.inl (hbd.trans hab)
    · exact Or.inl (hbd ▸ hab)
  · rcases hbd with hbd | ⟨hbd, hbd'⟩
    · exact Or.inl (hab ▸ hbd)
    · refine Or.inr ⟨hbd.trans hab, ?_⟩
      rcases hab' with hab' | ⟨hab', hle⟩
      · rcases hbd' with hbd' | ⟨hbd', -⟩
        · exact Or.inl (hbd'.trans hab')
        · exact Or.inl (hbd' ▸ hab')
      · rcases hbd' with hbd' | ⟨hbd', hle'⟩
        · exact Or.inl (hab' ▸ hbd')
        · exact Or.inr ⟨hbd'.trans hab', hle.trans hle'⟩

/-- A context that is not older ranks at least as high. -/
theorem rank_le_of_contextNotOlder (session session' : SessionRow) {a b : SnapshotRow × CaptureRow}
    (h : contextNotOlder a b) :
    (contextOf session b.1 b.2).rank ≤ (contextOf session' a.1 a.2).rank := by
  show toLex (b.1.completedAtSeq, b.1.id) ≤ toLex (a.1.completedAtSeq, a.1.id)
  rw [Prod.Lex.toLex_le_toLex]
  rcases h with hseq | ⟨hseq, hid | ⟨hid, -⟩⟩
  · exact Or.inl hseq
  · exact Or.inr ⟨hseq, hid.le⟩
  · exact Or.inr ⟨hseq, hid.le⟩

/-- The first entry of a sorted list ranks highest. -/
theorem contextNotOlder_head {entries : List (SnapshotRow × CaptureRow)}
    {top : SnapshotRow × CaptureRow} (h : (entries.insertionSort contextNotOlder).head? =
      some top) :
    ∀ e ∈ entries, contextNotOlder top e := by
  have htotal : Std.Total contextNotOlder := ⟨contextNotOlder_total⟩
  have htrans : IsTrans _ contextNotOlder := ⟨fun _ _ _ => contextNotOlder_trans⟩
  have hsorted := List.pairwise_insertionSort contextNotOlder entries
  obtain ⟨rest, hrest⟩ := List.head?_eq_some_iff.mp h
  intro e he
  rw [← List.mem_insertionSort contextNotOlder, hrest] at he
  rw [hrest] at hsorted
  rcases List.mem_cons.mp he with rfl | he
  · exact (contextNotOlder_total e e).elim id id
  · exact List.rel_of_pairwise_cons hsorted he

theorem mem_sessionContexts {sessionId : String} {e : SnapshotRow × CaptureRow} :
    e ∈ db.sessionContexts sessionId ↔ e.1 ∈ db.snapshots ∧ e.1.sessionId = sessionId ∧
      e.1.live = true ∧ e.2 ∈ db.captures ∧ e.2.snapshotId = e.1.id := by
  obtain ⟨snapshot, capture⟩ := e
  simp only [Db.sessionContexts, List.mem_flatMap, List.mem_filter, List.mem_map, Prod.mk.injEq,
    Bool.and_eq_true, decide_eq_true_eq]
  constructor
  · rintro ⟨r, ⟨hr, hsession, hlive⟩, capture', ⟨hcapture, hid⟩, rfl, rfl⟩
    exact ⟨hr, hsession, hlive, hcapture, hid⟩
  · rintro ⟨hr, hsession, hlive, hcapture, hid⟩
    exact ⟨snapshot, ⟨hr, hsession, hlive⟩, capture, ⟨hcapture, hid⟩, rfl, rfl⟩

/-- **`latestContext_top`** — the query for one session answers with its greatest context. -/
theorem latestContext_top (hu : UniqueOn SessionRow.id db.sessions) (sessionId : String) :
    Top SessionLatestContextRow.sessionId SessionLatestContextRow.rank db.liveContexts sessionId
      (db.latestContext sessionId) where
  absent := by
    intro hnone x hx hsession
    obtain ⟨session, hs, snapshot, hsnapshot, capture, hcapture, hlive, hid, hsid, rfl⟩ := hx
    have hfound : db.session sessionId = some session := by
      rw [← hsession]
      show db.session snapshot.sessionId = some session
      rw [← hid]
      exact Lib.find?_unique hu hs
    have hmem : (snapshot, capture) ∈ db.sessionContexts sessionId :=
      mem_sessionContexts.mpr ⟨hsnapshot, hsession, hlive, hcapture, hsid⟩
    unfold Db.latestContext at hnone
    rw [hfound] at hnone
    cases htop : ((db.sessionContexts sessionId).insertionSort contextNotOlder).head? with
    | none =>
      rw [List.head?_eq_none_iff] at htop
      rw [← List.mem_insertionSort contextNotOlder, htop] at hmem
      exact absurd hmem List.not_mem_nil
    | some top =>
      rw [htop] at hnone
      simp at hnone
  found := by
    intro r hr
    unfold Db.latestContext at hr
    simp only [Option.bind_eq_bind, Option.bind_eq_some_iff, Option.some.injEq] at hr
    obtain ⟨session, hsession, ⟨snapshot, capture⟩, htop, rfl⟩ := hr
    have hmem : (snapshot, capture) ∈ db.sessionContexts sessionId :=
      (List.mem_insertionSort contextNotOlder).mp (List.mem_of_mem_head? htop)
    obtain ⟨hsnapshot, hsid, hlive, hcapture, hcid⟩ := mem_sessionContexts.mp hmem
    have hid : session.id = sessionId := by simpa using List.find?_some hsession
    refine ⟨hsid, ⟨session, List.mem_of_find?_eq_some hsession, snapshot, hsnapshot, capture,
      hcapture, hlive, hid.trans hsid.symm, hcid, rfl⟩, ?_⟩
    rintro x ⟨session', -, snapshot', hsnapshot', capture', hcapture', hlive', -, hcid', rfl⟩ hgroup
    have hmem' : (snapshot', capture') ∈ db.sessionContexts sessionId :=
      mem_sessionContexts.mpr ⟨hsnapshot', hgroup.trans hsid, hlive', hcapture', hcid'⟩
    exact rank_le_of_contextNotOlder session' session (contextNotOlder_head htop _ hmem')

/-- Querying every session gives the table. -/
theorem latestContexts_rebuildAll (hu : UniqueOn SessionRow.id db.sessions) :
    db.LatestContexts (rebuildAllLatestContexts db).sessionLatestContext := by
  have hrebuild := Latest.rebuild hu (fun k _ => latestContext_top hu k) (by
    rintro x ⟨session, hs, snapshot, -, capture, -, -, hid, -, rfl⟩
    show snapshot.sessionId ∈ db.sessions.map SessionRow.id
    rw [← hid]
    exact List.mem_map_of_mem hs)
  rwa [List.flatMap_map] at hrebuild

/-- Querying one session again gives the table, when nothing changed elsewhere. -/
theorem latestContexts_rebuildSession (hu : UniqueOn SessionRow.id db.sessions) {old : Db}
    {sessionId : String} (h : old.LatestContexts db.sessionLatestContext)
    (hother : ∀ row : SessionLatestContextRow, row.sessionId ≠ sessionId →
      (row ∈ db.liveContexts ↔ row ∈ old.liveContexts)) :
    db.LatestContexts (rebuildSessionLatestContext sessionId db).sessionLatestContext :=
  h.regroup hother (latestContext_top hu sessionId)

/-! ## §3 — Every step keeps the table. -/

/-- **`Db.Browsable`** — the table, and what its maintainers rely on: sessions are there with the
source agent their manifests name, and captures repeat what their manifests say. -/
structure Db.Browsable (c : Crates) (db : Db) : Prop where
  uploads : ∀ u ∈ db.uploads, ∃ session ∈ db.sessions, session.id = u.sessionId ∧
    ∀ m ∈ db.manifests, m.uploadId = u.id → ∀ manifest,
      parseManifest c m.canonicalJson = some manifest →
        session.sourceAgent = manifest.session.sourceAgent
  snapshots : ∀ r ∈ db.snapshots, ∃ session ∈ db.sessions, session.id = r.sessionId
  captures : ∀ r ∈ db.captures, ∀ m ∈ db.manifests, m.uploadId = r.uploadId → ∀ manifest,
    parseManifest c m.canonicalJson = some manifest → r.stable = manifest.capture.stable
  contexts : db.LatestContexts db.sessionLatestContext

theorem Db.liveContexts_empty : Db.empty.liveContexts = ∅ := by
  refine Set.eq_empty_of_forall_notMem fun row hrow => ?_
  obtain ⟨session, hsession, -⟩ := hrow
  exact List.not_mem_nil hsession

theorem Db.Browsable.empty : Db.empty.Browsable c where
  uploads := by simp [Db.empty]
  snapshots := by simp [Db.empty]
  captures := by simp [Db.empty]
  contexts := by
    unfold Db.LatestContexts
    rw [Db.liveContexts_empty]
    exact Latest.empty

/-- No session is lost, and none changes its source agent. -/
def SessionsKept (old new : List SessionRow) : Prop :=
  ∀ session ∈ old, ∃ session' ∈ new, session'.id = session.id ∧
    session'.sourceAgent = session.sourceAgent

theorem SessionsKept.refl (sessions : List SessionRow) : SessionsKept sessions sessions :=
  fun session hsession => ⟨session, hsession, rfl, rfl⟩

theorem SessionFor.kept {new : NewUpload} {sessionId : String} {sessions : List SessionRow}
    (h : SessionFor new db sessionId sessions) : SessionsKept db.sessions sessions := by
  cases h with
  | found row h =>
    intro session hsession
    refine ⟨_, mem_updateWhere.mpr ⟨session, hsession, rfl⟩, ?_⟩
    split <;> exact ⟨rfl, rfl⟩
  | added h hfresh =>
    intro session hsession
    exact ⟨session, List.mem_append_left _ hsession, rfl, rfl⟩

/-- The session of a new upload is there, with the source agent of its manifest. -/
theorem SessionFor.agent {new : NewUpload} {sessionId : String} {sessions : List SessionRow}
    (h : SessionFor new db sessionId sessions) : ∃ session ∈ sessions, session.id = sessionId ∧
      session.sourceAgent = new.manifest.session.sourceAgent := by
  cases h with
  | found row h =>
    have hmem : row ∈ db.sessions := List.mem_of_find?_eq_some h
    have hsource := List.find?_some h
    rw [decide_eq_true_iff] at hsource
    refine ⟨_, mem_updateWhere.mpr ⟨row, hmem, rfl⟩, ?_⟩
    rw [if_pos (decide_eq_true rfl)]
    exact ⟨rfl, hsource.2.1⟩
  | added h hfresh => exact ⟨_, List.mem_append_right _ List.mem_cons_self, rfl, rfl⟩

/-- New sessions and touched ones add no context. -/
theorem liveContexts_eq (hb : db.Browsable c) (hunique' : db'.Unique)
    (hsessions : SessionsKept db.sessions db'.sessions) (hs : db'.snapshots = db.snapshots)
    (hc : db'.captures = db.captures) : db'.liveContexts = db.liveContexts := by
  ext row
  constructor
  · rintro ⟨session', hsession', snapshot, hsnapshot, capture, hcapture, hlive, hid, hcid, rfl⟩
    rw [hs] at hsnapshot
    rw [hc] at hcapture
    obtain ⟨session, hsession, hsid⟩ := hb.snapshots snapshot hsnapshot
    obtain ⟨session'', hsession'', hsid'', hagent⟩ := hsessions session hsession
    obtain rfl : session'' = session' := hunique'.sessions.eq_of_mem hsession'' hsession'
      (hsid''.trans (hsid.trans hid.symm))
    refine ⟨session, hsession, snapshot, hsnapshot, capture, hcapture, hlive, hsid, hcid, ?_⟩
    unfold contextOf
    rw [hagent]
  · rintro ⟨session, hsession, snapshot, hsnapshot, capture, hcapture, hlive, hid, hcid, rfl⟩
    obtain ⟨session', hsession', hsid', hagent⟩ := hsessions session hsession
    refine ⟨session', hsession', snapshot, hs ▸ hsnapshot, capture, hc ▸ hcapture, hlive,
      hsid'.trans hid, hcid, ?_⟩
    unfold contextOf
    rw [hagent]

/-- An upload that was there finds its session kept. -/
theorem Db.Browsable.upload_kept (hb : db.Browsable c) {sessions : List SessionRow}
    {manifests : List ManifestRow} (hsessions : SessionsKept db.sessions sessions) {u v : UploadRow}
    (hv : v ∈ db.uploads) (hid : u.id = v.id) (hsession : u.sessionId = v.sessionId)
    (hm : ∀ m ∈ manifests, m.uploadId = u.id → m ∈ db.manifests) :
    ∃ session ∈ sessions, session.id = u.sessionId ∧
      ∀ m ∈ manifests, m.uploadId = u.id → ∀ manifest,
        parseManifest c m.canonicalJson = some manifest →
          session.sourceAgent = manifest.session.sourceAgent := by
  obtain ⟨session, hmem, hsid, hagent⟩ := hb.uploads v hv
  obtain ⟨session', hmem', hsid', hagent'⟩ := hsessions session hmem
  refine ⟨session', hmem', hsid'.trans (hsid.trans hsession.symm), ?_⟩
  intro m hmem huid manifest hparsed
  rw [hagent']
  exact hagent m (hm m hmem huid) (huid.trans hid) manifest hparsed

/-- A change that leaves snapshots, captures and the table alone. -/
theorem Db.Browsable.spared (hb : db.Browsable c) (hunique' : db'.Unique)
    (hsessions : SessionsKept db.sessions db'.sessions) (hs : db'.snapshots = db.snapshots)
    (hc : db'.captures = db.captures) (ht : db'.sessionLatestContext = db.sessionLatestContext)
    (hm : ∀ r ∈ db.captures, ∀ m ∈ db'.manifests, m.uploadId = r.uploadId → m ∈ db.manifests)
    (huploads : ∀ u ∈ db'.uploads, ∃ session ∈ db'.sessions, session.id = u.sessionId ∧
      ∀ m ∈ db'.manifests, m.uploadId = u.id → ∀ manifest,
        parseManifest c m.canonicalJson = some manifest →
          session.sourceAgent = manifest.session.sourceAgent) : db'.Browsable c where
  uploads := huploads
  snapshots := by
    intro r hr
    rw [hs] at hr
    obtain ⟨session, hmem, hid⟩ := hb.snapshots r hr
    obtain ⟨session', hmem', hid', -⟩ := hsessions session hmem
    exact ⟨session', hmem', hid'.trans hid⟩
  captures := by
    rw [hc]
    exact fun r hr m hmem hid => hb.captures r hr m (hm r hr m hmem hid) hid
  contexts := by
    show Latest _ _ db'.liveContexts _
    rw [liveContexts_eq hb hunique' hsessions hs hc, ht]
    exact hb.contexts

/-- The upsert of a completion moves a session's row up only. -/
theorem ContextMaintained.raised {row : SessionLatestContextRow}
    {old new : List SessionLatestContextRow} (h : ContextMaintained row old new) :
    Raised SessionLatestContextRow.sessionId SessionLatestContextRow.rank row old new := by
  have hrank (current : SessionLatestContextRow) : current.rank < row.rank ↔
      current.completedAtSeq < row.completedAtSeq ∨
        current.completedAtSeq = row.completedAtSeq ∧ current.snapshotId < row.snapshotId :=
    Prod.Lex.toLex_lt_toLex
  cases h with
  | added hnone hsnapshot => exact .added hnone
  | moved current hmem hsession hup hsnapshot =>
    exact .moved current hmem hsession ((hrank current).mpr hup)
  | stays current hmem hsession hnotUp =>
    exact .stays current hmem hsession (mt (hrank current).mp hnotUp)

/-- **`Db.Browsable.attach`** — a completion adds one context, its own. -/
theorem Db.Browsable.attach {x : Completing} {snapshot : SnapshotRow} {manifestRow : ManifestRow}
    {manifestId : String} {seq newlyPersistedBytes : ℤ} (hb : db.Browsable c)
    (hids : db.Identities c) (hunique : db.Unique) (hunique' : db'.Unique)
    (hattach : Attaching c x manifestRow db) (hlive : snapshot.live = true)
    (hsession : snapshot.sessionId = x.upload.sessionId)
    (hsnapshots : ∀ r, r ∈ db'.snapshots ↔ r ∈ db.snapshots ∨ r = snapshot)
    (hu : db'.uploads = completedUploads x snapshot.id newlyPersistedBytes db.uploads)
    (hc : db'.captures = db.captures ++
      [captureRow x.captureId x.upload x.manifest manifestId snapshot.id x.now seq])
    (hm : db'.manifests = db.manifests) (hss : db'.sessions = db.sessions)
    (hcontexts : ContextMaintained (contextRow x.upload.sessionId snapshot.id snapshot.completedAt
      snapshot.completedAtSeq x.manifest) db.sessionLatestContext db'.sessionLatestContext) :
    db'.Browsable c := by
  have hmem : snapshot ∈ db'.snapshots := (hsnapshots snapshot).mpr (Or.inr rfl)
  -- the session of the upload, with the source agent of its manifest
  obtain ⟨u, humem, -, hfixed⟩ := hattach.upload
  have husession : u.fixed.sessionId = x.upload.fixed.sessionId := by rw [hfixed]
  obtain ⟨session, hsmem, hsid, hagent⟩ := hb.uploads u humem
  replace hsid : session.id = snapshot.sessionId := hsid.trans (husession.trans hsession.symm)
  replace hagent := hagent manifestRow hattach.manifest
    (hattach.manifestUpload.trans (UploadRow.id_of_fixed hfixed).symm) x.manifest hattach.parsed
  -- an old capture belongs to an old snapshot
  have hold : ∀ r ∈ db.captures, ∀ r' ∈ db'.snapshots, r'.id = r.snapshotId → r' ∈
    db.snapshots := by
    intro r hr r' hr' hid
    obtain ⟨v, -, -, -, r₀, hr₀, hid₀, -⟩ := hids.captures r hr
    rwa [hunique'.snapshots.eq_of_mem hr' ((hsnapshots r₀).mpr (Or.inl hr₀)) (hid.trans hid₀.symm)]
  refine ⟨fun u hu' => ?_, fun r hr => ?_, fun r hr => ?_, ?_⟩
  · rw [hu] at hu'
    have hkept : SessionsKept db.sessions db'.sessions := by
      rw [hss]
      exact SessionsKept.refl _
    have hmanifests : ∀ m ∈ db'.manifests, m.uploadId = u.id → m ∈ db.manifests := fun m hm' _ =>
      hm ▸ hm'
    rcases of_mem_completedUploads hu' with ⟨hv, -⟩ | ⟨v, hv, -, -, rfl⟩
    · exact hb.upload_kept hkept hv rfl rfl hmanifests
    · exact hb.upload_kept hkept hv rfl rfl hmanifests
  · rw [hss]
    rcases (hsnapshots r).mp hr with hr | rfl
    · exact hb.snapshots r hr
    · exact ⟨session, hsmem, hsid⟩
  · rw [hc] at hr
    rw [hm]
    rcases List.mem_append.mp hr with hr | hr
    · exact hb.captures r hr
    · obtain rfl := List.mem_singleton.mp hr
      intro m' hm' hid manifest hparsed
      -- the manifest of the upload is the one the completion read
      obtain rfl : m' = manifestRow := hunique.manifests.eq_of_mem hm' hattach.manifest
        (hid.trans hattach.manifestUpload.symm)
      rw [← Option.some.inj (hattach.parsed.symm.trans hparsed)]
      rfl
  · have hinsert : db'.liveContexts = insert (contextRow x.upload.sessionId snapshot.id
        snapshot.completedAt snapshot.completedAtSeq x.manifest) db.liveContexts := by
      have hrow : contextOf session snapshot (captureRow x.captureId x.upload x.manifest manifestId
          snapshot.id x.now seq) = contextRow x.upload.sessionId snapshot.id snapshot.completedAt
            snapshot.completedAtSeq x.manifest := by
        unfold contextOf contextRow
        rw [hsession, hagent]
        rfl
      ext row
      constructor
      · rintro ⟨session', hs', r, hr, capture, hcapture, hlive', hid, hcid, rfl⟩
        rw [hc] at hcapture
        rw [hss] at hs'
        rcases List.mem_append.mp hcapture with hcapture | hcapture
        · exact Or.inr ⟨session', hs', r, hold capture hcapture r hr hcid.symm, capture, hcapture,
            hlive', hid, hcid, rfl⟩
        · obtain rfl := List.mem_singleton.mp hcapture
          obtain rfl : r = snapshot := hunique'.snapshots.eq_of_mem hr hmem hcid.symm
          obtain rfl : session' = session := hunique.sessions.eq_of_mem hs' hsmem
            (hid.trans hsid.symm)
          exact Or.inl hrow
      · rintro (rfl | ⟨session', hs', r, hr, capture, hcapture, hrest⟩)
        · refine ⟨session, hss ▸ hsmem, snapshot, hmem, _, ?_, hlive, hsid, rfl, hrow⟩
          rw [hc]
          exact List.mem_append_right _ List.mem_cons_self
        · refine ⟨session', hss ▸ hs', r, (hsnapshots r).mpr (Or.inl hr), capture, ?_, hrest⟩
          rw [hc]
          exact List.mem_append_left _ hcapture
    show Latest _ _ db'.liveContexts _
    rw [hinsert]
    exact hb.contexts.raised hcontexts.raised

/-- A deletion takes the contexts of one snapshot away, and queries its session again. -/
theorem Db.Browsable.deleted (deletedAt : String) (snapshot : SnapshotRow) (hb : db.Browsable c)
    (hunique : db.Unique) (hmem : snapshot ∈ db.snapshots) {db₁ : Db}
    (hs : db₁.snapshots = updateWhere (fun r => decide (r.id = snapshot.id) && r.live)
      (fun r => { r with deletedAt := some deletedAt }) db.snapshots)
    (hu : db₁.uploads = db.uploads) (hc : db₁.captures = db.captures)
    (hm : db₁.manifests = db.manifests) (hss : db₁.sessions = db.sessions)
    (ht : db₁.sessionLatestContext = db.sessionLatestContext) :
    (rebuildSessionLatestContext snapshot.sessionId db₁).Browsable c := by
  -- a snapshot after the deletion has the session it had
  have hold : ∀ r' ∈ db₁.snapshots, ∃ r ∈ db.snapshots, r'.sessionId = r.sessionId := by
    intro r' hr'
    rw [hs] at hr'
    obtain ⟨r, hr, rfl⟩ := mem_updateWhere.mp hr'
    refine ⟨r, hr, ?_⟩
    split <;> rfl
  refine ⟨?_, fun r' hr' => ?_, fun r hr => ?_, ?_⟩
  · show ∀ u ∈ db₁.uploads, ∃ session ∈ db₁.sessions, session.id = u.sessionId ∧
      ∀ m ∈ db₁.manifests, _
    rw [hu, hss, hm]
    exact hb.uploads
  · obtain ⟨r, hr, hsession⟩ := hold r' hr'
    rw [hsession]
    show ∃ session ∈ db₁.sessions, _
    rw [hss]
    exact hb.snapshots r hr
  · show ∀ m ∈ db₁.manifests, _
    rw [hm]
    exact hb.captures r (hc ▸ hr)
  · refine latestContexts_rebuildSession (hss ▸ hunique.sessions) (ht ▸ hb.contexts) ?_
    intro row hne
    unfold Db.liveContexts
    rw [hss, hc]
    constructor
    · rintro ⟨session, hsession, r, hr, capture, hcapture, hlive, hrest⟩
      rw [hs] at hr
      exact ⟨session, hsession, r, (of_live_deleted hr hlive).1, capture, hcapture, hlive, hrest⟩
    · rintro ⟨session, hsession, r, hr, capture, hcapture, hlive, hid, hcid, rfl⟩
      refine ⟨session, hsession, r, ?_, capture, hcapture, hlive, hid, hcid, rfl⟩
      rw [hs]
      refine Lib.mem_updateWhere_of_not hr ?_
      -- a snapshot of another session is another snapshot
      have hother : r.id ≠ snapshot.id := fun hsame =>
        hne (congrArg SnapshotRow.sessionId (hunique.snapshots.eq_of_mem hr hmem hsame))
      rw [decide_eq_false hother, Bool.false_and]

/-- **`Effect.browsable`** — every effect keeps the table. -/
theorem Effect.browsable {mode : Mode} (hJson : c.JsonReads) (h : Effect c cfg mode t s ids db)
    (hinv : s.Inv c) (hcurrent : s.db.Current c) (hunique' : db.Unique) (hids : s.db.Identities c)
    (hb : s.db.Browsable c) : db.Browsable c := by
  have hunique := hinv.unique
  have hrefl := SessionsKept.refl s.db.sessions
  cases h with
  | unchanged ids => exact hb
  | repeated new existing hnew hsession hexisting hsame =>
    exact hb.spared hunique' hsession.kept rfl rfl rfl (fun _ _ _ hm _ => hm) fun u hu =>
      hb.upload_kept hsession.kept hu rfl rfl fun m hm _ => hm
  | created new row hnew hsession hreuse hfree hfresh hrow hrows =>
    obtain ⟨hrid, -, hrsession, -⟩ := newUploadRow_ok hrow
    have hnewManifest : ∀ m ∈ s.db.manifests ++ [newManifestRow c new], m.uploadId ≠ new.uploadId →
        m ∈ s.db.manifests := by
      intro m hm hne
      rcases List.mem_append.mp hm with hm | hm
      · exact hm
      · obtain rfl := List.mem_singleton.mp hm
        exact absurd rfl hne
    have hother : ∀ u ∈ s.db.uploads, ∀ m ∈ s.db.manifests ++ [newManifestRow c new],
        m.uploadId = u.id → m ∈ s.db.manifests := by
      refine fun u hu m hm huid => hnewManifest m hm fun hsame => ?_
      have hmiss := List.find?_eq_none.mp hfresh u hu
      rw [huid] at hsame
      simp [hsame] at hmiss
    have hcaptured : ∀ r ∈ s.db.captures, ∀ m ∈ s.db.manifests ++ [newManifestRow c new],
        m.uploadId = r.uploadId → m ∈ s.db.manifests := by
      intro r hr m hm huid
      obtain ⟨u, hu, hid, -⟩ := hids.captures r hr
      exact hother u hu m hm (huid.trans hid.symm)
    refine hb.spared hunique' hsession.kept rfl rfl rfl hcaptured fun u hu => ?_
    rcases List.mem_append.mp hu with hu | hu
    · exact hb.upload_kept hsession.kept hu rfl rfl (hother u hu)
    · obtain rfl := List.mem_singleton.mp hu
      obtain ⟨session, hmem, hsid, hagent⟩ := hsession.agent
      refine ⟨session, hmem, hsid.trans hrsession.symm, fun m hm huid manifest hparsed => ?_⟩
      -- the only manifest of the new upload is the one it came with
      obtain rfl : m = newManifestRow c new := hunique'.manifests.eq_of_mem hm
        (List.mem_append_right _ List.mem_cons_self) (huid.trans hrid)
      have hread : parseManifest c (newManifestRow c new).canonicalJson = some new.manifest :=
        parseManifest_canonicalJson hJson new.manifest
      rw [hagent, ← Option.some.inj (hparsed.symm.trans hread)]
  | ended upload current reason terminalAt hmem hfixed hactive hfree =>
    exact hb.spared hunique' hrefl rfl rfl rfl (fun _ _ _ hm _ => List.mem_of_mem_filter hm)
      fun u hu => hb.upload_kept hrefl (List.mem_of_mem_filter hu) rfl rfl
        fun m hm _ => List.mem_of_mem_filter hm
  | status uploadId complete =>
    refine hb.spared hunique' hrefl rfl rfl rfl (fun _ _ _ hm _ => hm) fun u hu => ?_
    obtain ⟨v, hv, rfl⟩ := mem_updateWhere.mp hu
    refine hb.upload_kept hrefl hv ?_ ?_ fun m hm _ => hm
    · split <;> rfl
    · split <;> rfl
  | attached x snapshot manifestRow hx hattach hsnapshot hlive hsession hfingerprint hseq
      hcontextSeq hcontexts =>
    obtain rfl :=
      Option.some.inj (hcontextSeq.symm.trans (hcurrent.snapshotKeys snapshot hsnapshot))
    refine hb.attach hids hunique hunique' hattach hlive hsession (fun r => ?_) rfl rfl rfl rfl
      hcontexts
    constructor
    · exact Or.inl
    · rintro (hr | rfl)
      · exact hr
      · exact hsnapshot
  | recorded x row manifestRow blobIds hx hattach hblobs hrow hfresh hfree hrows hcontexts =>
    have hsnapshots : ∀ r, r ∈ s.db.snapshots ++ [row] ↔ r ∈ s.db.snapshots ∨ r = row := fun r => by
      rw [List.mem_append, List.mem_singleton]
    obtain ⟨original, stored, -, -, rfl⟩ := snapshotRow_ok hrow
    exact hb.attach (x := x.toCompleting) hids hunique hunique' hattach rfl rfl hsnapshots rfl rfl
      rfl
      rfl hcontexts
  | deleted x snapshot manifest hx hrow hlive hfresh =>
    rw [foldl_scheduleOrClearBlobCandidate]
    obtain ⟨hmem, -⟩ := Db.snapshotDeletionRow_some hrow
    exact hb.deleted x.deletedAt snapshot hunique hmem rfl rfl rfl rfl rfl rfl
  | _ =>
    exact hb.spared hunique' hrefl rfl rfl rfl (fun _ _ _ hm _ => hm) fun u hu =>
      hb.upload_kept hrefl hu rfl rfl fun m hm _ => hm

/-- Whatever happens to an archive keeps the table. -/
theorem DbMoved.browsable (hJson : c.JsonReads) (h : DbMoved c cfg s s') (hs : Archive c s)
    (hs' : Archive c s') (hids : s.db.Identities c) (hb : s.db.Browsable c) :
      s'.db.Browsable c := by
  have hunique' := hs'.inv.unique
  have hrefl := SessionsKept.refl s.db.sessions
  cases h with
  | stays hdb hused =>
    rw [hdb]
    exact hb
  | writes hfresh heffect hused =>
    exact heffect.browsable hJson hs.inv hs.current hunique' hids hb
  | collects hcollects hused =>
    obtain ⟨row, -, -, heq⟩ := hcollects
    rw [heq]
    exact ⟨hb.uploads, hb.snapshots, hb.captures, hb.contexts⟩
  | chunks keep hdb hused =>
    rw [hdb]
    exact ⟨hb.uploads, hb.snapshots, hb.captures, hb.contexts⟩
  | legacy uploadId artifact chunkSize now expiresAt hactive hdb hused =>
    rw [hdb] at hunique' ⊢
    refine hb.spared hunique' hrefl rfl rfl rfl (fun _ _ _ hm _ => hm) fun u hu => ?_
    obtain ⟨v, hv, rfl⟩ := mem_updateWhere.mp hu
    refine hb.upload_kept hrefl hv ?_ ?_ fun m hm _ => hm
    · split <;> rfl
    · split <;> rfl
  | contexts hdb hused =>
    rw [hdb]
    exact ⟨hb.uploads, hb.snapshots, hb.captures, latestContexts_rebuildAll hs.inv.unique.sessions⟩

/-! ## §4 — At any moment. -/

variable {sqlite : SqliteChecks} {m : Moment}

theorem Life.browsable (hJson : c.JsonReads) (h : Life c cfg sqlite m) :
    m.state.db.Identities c ∧ m.state.db.Browsable c :=
  h.keeps (P := fun db => db.Identities c ∧ db.Browsable c)
    ⟨Db.Identities.empty, Db.Browsable.empty⟩ fun hs hs' hmoved hp =>
      ⟨hmoved.identities hJson hs hs' hp.1, hmoved.browsable hJson hs hs' hp.1 hp.2⟩

/-- A capture repeats what a manifest on record says that has its snapshot's fingerprint. -/
theorem Db.Browsable.recorded (hb : db.Browsable c) (hids : db.Identities c) (hunique : db.Unique)
    {snapshot : SnapshotRow} {r : CaptureRow} (hsnapshot : snapshot ∈ db.snapshots)
    (hr : r ∈ db.captures) (hid : r.snapshotId = snapshot.id) : ∃ manifest : Manifest,
      r.stable = manifest.capture.stable ∧ manifest.fingerprinted ∈ db.fingerprinted c ∧
        snapshot.fingerprintSha256 = snapshotFingerprint c manifest := by
  obtain ⟨u, -, huid, -, snapshot', hsnapshot', hid', -, m, hm, hmid, manifest, hparsed,
    hfingerprint⟩ := hids.captures r hr
  obtain rfl := hunique.snapshots.eq_of_mem hsnapshot' hsnapshot (hid'.trans hid)
  exact ⟨manifest, hb.captures r hr m hm (hmid.trans huid) manifest hparsed,
    ⟨m, hm, manifest, hparsed, rfl⟩, hfingerprint⟩

/-- Two captures of one snapshot repeat the same fields. -/
theorem Db.Browsable.contextOf_eq (hc : c.CollisionFree (db.fingerprinted c)) (hb : db.Browsable c)
    (hids : db.Identities c) (hunique : db.Unique)
    {session : SessionRow} {snapshot : SnapshotRow} {r r' : CaptureRow}
    (hsnapshot : snapshot ∈ db.snapshots) (hr : r ∈ db.captures) (hr' : r' ∈ db.captures)
    (hid : r.snapshotId = snapshot.id) (hid' : r'.snapshotId = snapshot.id) :
    contextOf session snapshot r = contextOf session snapshot r' := by
  obtain ⟨manifest, hstable, hmem, hfingerprint⟩ := hb.recorded hids hunique hsnapshot hr hid
  obtain ⟨manifest', hstable', hmem', hfingerprint'⟩ := hb.recorded hids hunique hsnapshot hr' hid'
  have hsame : r.stable = r'.stable := by
    rw [hstable, hstable']
    exact stable_of_snapshotFingerprint hc hmem hmem' (hfingerprint.symm.trans hfingerprint')
  unfold CaptureRow.stable at hsame
  simp only [Prod.mk.injEq] at hsame
  obtain ⟨hproject, hrepository, hbranch, hversion, hset⟩ := hsame
  unfold contextOf
  rw [hproject, hrepository, hbranch, hversion, hset]

/-- A live snapshot has one context. -/
theorem Db.Browsable.context_injective (hc : c.CollisionFree (db.fingerprinted c))
    (hb : db.Browsable c) (hids : db.Identities c) (hunique : db.Unique) : ∀ x ∈ db.liveContexts,
      ∀ y ∈ db.liveContexts,
      x.sessionId = y.sessionId → x.rank = y.rank → x = y := by
  rintro x ⟨session, hsession, r, hr, capture, hcapture, -, hsid, hcid, rfl⟩
    y ⟨session', hsession', r', hr', capture', hcapture', -, hsid', hcid', rfl⟩ - hrank
  have hid : r.id = r'.id := (Prod.mk.inj (toLex.injective hrank)).2
  obtain rfl : r = r' := hunique.snapshots.eq_of_mem hr hr' hid
  obtain rfl : session = session' :=
    hunique.sessions.eq_of_mem hsession hsession' (hsid.trans hsid'.symm)
  exact hb.contextOf_eq hc hids hunique hr hcapture hcapture' hcid hcid'

/-- The row shows the snapshot: its columns, the source agent of its session, and the fields that
all its captures repeat. -/
def Shows (db : Db) (row : SessionLatestContextRow) (snapshot : SnapshotRow) : Prop :=
  ∃ session ∈ db.sessions, session.id = snapshot.sessionId ∧
    (∃ capture ∈ db.captures, capture.snapshotId = snapshot.id) ∧
      ∀ capture ∈ db.captures, capture.snapshotId = snapshot.id →
        row = contextOf session snapshot capture

/-- The greatest live snapshot of its session by `(completed_at_seq, id)`. -/
def Newest (db : Db) (snapshot : SnapshotRow) : Prop :=
  snapshot ∈ db.snapshots ∧ snapshot.live = true ∧
    ∀ r ∈ db.snapshots, r.live = true → r.sessionId = snapshot.sessionId →
      r.completedAtSeq < snapshot.completedAtSeq ∨
        r.completedAtSeq = snapshot.completedAtSeq ∧ r.id ≤ snapshot.id

/-- **`latestContexts_exact`** — at every moment of an archive's life whose fingerprints do not
collide, the table has exactly one row for each session with a live snapshot and none for the
others. The row shows the newest live snapshot of the session. Querying all sessions, or any one of
them, gives the same rows again. -/
theorem latestContexts_exact (hJson : c.JsonReads) (h : Life c cfg sqlite m)
    (hc : c.CollisionFree (m.state.db.fingerprinted c)) :
    (∀ r ∈ m.state.db.snapshots, r.live = true → ∃ row snapshot,
        (m.state.db.sessionLatestContext.filter fun x => decide (x.sessionId = r.sessionId)) =
          [row] ∧
          snapshot.sessionId = r.sessionId ∧ Newest m.state.db snapshot ∧
            Shows m.state.db row snapshot) ∧
      (∀ row ∈ m.state.db.sessionLatestContext, ∃ r ∈ m.state.db.snapshots, r.live = true ∧
        r.sessionId = row.sessionId) ∧
      m.state.db.sessionLatestContext.Perm
        (rebuildAllLatestContexts m.state.db).sessionLatestContext ∧
      ∀ sessionId, m.state.db.sessionLatestContext.Perm
        (rebuildSessionLatestContext sessionId m.state.db).sessionLatestContext := by
  obtain ⟨hids, hb⟩ := h.browsable hJson
  have hunique := (Life.good h).archive.inv.unique
  have hinj := hb.context_injective hc hids hunique
  refine ⟨fun r hr hlive => ?_, fun row hrow => ?_, ?_, fun sessionId => ?_⟩
  · -- the snapshot has a context, so its session has a row
    have hcontext {r : SnapshotRow} (hr : r ∈ m.state.db.snapshots) (hlive : r.live = true) :
        ∃ session capture, contextOf session r capture ∈ m.state.db.liveContexts := by
      obtain ⟨capture, hcapture, hcid⟩ := hids.captured r hr hlive
      obtain ⟨session, hsession, hsid⟩ := hb.snapshots r hr
      exact ⟨session, capture, session, hsession, r, hr, capture, hcapture, hlive, hsid, hcid, rfl⟩
    obtain ⟨session₀, capture₀, hcontext₀⟩ := hcontext hr hlive
    obtain ⟨row, hrow, hgroup⟩ := hb.contexts.covers _ hcontext₀
    have hgreatest := hb.contexts.greatest row hrow
    obtain ⟨⟨session, hsession, snapshot, hsnapshot, capture, hcapture, hslive, hsid, hcid, rfl⟩,
      hmax⟩ :=
      hgreatest
    replace hgroup : snapshot.sessionId = r.sessionId := hgroup
    refine ⟨contextOf session snapshot capture, snapshot, ?_, hgroup,
      ⟨hsnapshot, hslive, fun r' hr' hlive' hsame => ?_⟩, session,
      hsession, hsid, ⟨capture, hcapture, hcid⟩, fun capture' hcapture' hcid' => ?_⟩
    · have hone := filter_key_eq_singleton hunique.contexts hrow
      rw [← hgroup]
      exact hone
    · obtain ⟨session', capture', hcontext'⟩ := hcontext hr' hlive'
      exact Prod.Lex.toLex_le_toLex.mp (hmax _ hcontext' hsame)
    · exact hb.contextOf_eq hc hids hunique hsnapshot hcapture hcapture' hcid hcid'
  · obtain ⟨-, -, r, hr, -, -, hlive, -, -, rfl⟩ := (hb.contexts.greatest row hrow).1
    exact ⟨r, hr, hlive, rfl⟩
  · exact hb.contexts.perm (latestContexts_rebuildAll hunique.sessions) hinj
  · refine hb.contexts.perm (latestContexts_rebuildSession hunique.sessions hb.contexts ?_) hinj
    intro row _
    exact Iff.rfl

/-! ### Two snapshots of a session. -/

/-- The sample manifest, captured in a project. -/
def projectManifest : ManifestInput :=
  { sampleManifest with capture := { sampleManifest.capture with project := some "project" } }

def projectManifestJson : Lib.Json :=
  .obj
    [("schema_version", .num 1),
      ("session", .obj [("source_agent", .str "agent"), ("source_session_id", .str "session")]),
      ("capture", .obj
        [("captured_at", .str "2026-01-01T00:00:00Z"), ("source_cursor", .null),
          ("source_state_hash", .null), ("source_metadata", .obj []), ("project", .str "project"),
          ("repository", .null), ("branch", .null), ("source_agent_version", .null),
          ("artifact_set_version", .num 1), ("munshi_version", .null)]),
      ("artifacts", .arr [.obj
        [("logical_path", .str "notes.txt"), ("media_type", .null),
          ("original_size_bytes", .num 0), ("original_sha256", .str ("sha256:" ++ emptyDigest)),
          ("stored_size_bytes", .num 0), ("stored_sha256", .str ("sha256:" ++ emptyDigest)),
          ("compression", .str "identity")]])]

def projectFingerprintJson : Lib.Json :=
  .obj
    [("version", .num 1), ("schema_version", .num 1),
      ("session", .obj [("source_agent", .str "agent"), ("source_session_id", .str "session")]),
      ("capture", .obj
        [("project", .str "project"), ("repository", .null), ("branch", .null),
          ("source_agent_version", .null), ("artifact_set_version", .num 1)]),
      ("artifacts", .arr [.obj
        [("logical_path", .str "notes.txt"), ("original_size_bytes", .num 0),
          ("original_sha256", .str ("sha256:" ++ emptyDigest))]])]

/-- The real digests of its canonical JSON and of its fingerprint document. -/
def projectManifestDigest : String :=
  "1abe29a9f99847ff0f8f80c7c8763a64c9aded2c4375005142185439baad02b7"

def projectFingerprint : String :=
  "06d4d948b9bb832b45a2cb93f8d8096bd57914ebc39a4c9fc90a4830bdf3bec7"

/-- Crates with the real digests of what an archive of both manifests hashes. -/
def projectCrates : Crates :=
  listedCrates
    [(sampleFingerprintJson, sampleFingerprint), (sampleManifestJson, sampleManifestDigest),
      (projectFingerprintJson, projectFingerprint), (projectManifestJson, projectManifestDigest)]
    [.obj [], sampleManifestJson, projectManifestJson]

theorem projectCrates_jsonReads : projectCrates.JsonReads := listedCrates_jsonReads _ _

theorem projectCrates_injective : Function.Injective projectCrates.sha256Hex :=
  listedCrates_injective (by decide +kernel) (by decide +kernel)

/-- Both manifests are archived, the one of the project a second later. -/
def projectEvents : List (Event Env Request) :=
  archivedEvents ++
    (served 3 (.createUpload ⟨sampleClientId, some "project", none, projectManifest⟩) 1 59 9 ++
    served 4 (.completeUpload (sampleUuid 62)) 1 68 30)

/-- The snapshot of the project is deleted. -/
def projectDeleted : List (Event Env Request) :=
  served 5 (.deleteSnapshot ⟨sampleUuid 89, none,
    some ("delete-snapshot:" ++ sampleUuid 89 ++ ":sha256:" ++ projectFingerprint), none⟩) 2 98 11

theorem sampled_projectEvents : ∀ ev ∈ projectEvents, ∀ e ∈ ev.input?, Sampled e := by
  intro ev hev
  simp only [projectEvents, List.mem_append] at hev
  rcases hev with hev | hev | hev
  · exact sampled_archivedEvents ev hev
  · exact sampled_served (by norm_num) ev hev
  · exact sampled_served (by norm_num) ev hev

/-- Several filters at once, which only the snapshot of the project meets. -/
def projectFilters : SnapshotFilters where
  sourceAgent := some "agent"
  repository := none
  project := some "project"
  branch := none
  sourceAgentVersion := none
  artifactSetVersion := some 1
  clientId := some sampleClientId
  activityFrom := some 1767225600000000
  activityTo := none
  sessionId := none

/-- The first page of a list. -/
def firstPage : PageRequest := ⟨10, none⟩

/-- The page after the snapshot of the project. -/
def secondPage : PageRequest where
  limit := 10
  cursor := some
    { version := 1
      kind := "snapshots"
      filterHash := emptyDigest
      highWatermark := ⟨1767225601000000, "2026-01-01T00:00:01Z", sampleUuid 89⟩
      after := ⟨1767225601000000, "2026-01-01T00:00:01Z", sampleUuid 89⟩ }

/-- The snapshots of a page of the list. -/
def listedIds (db : Db) (f : SnapshotFilters) (page : PageRequest) : List String :=
  ((db.snapshotListRows f).filter fun row =>
    descendingBounds page row.boundary.sortKey row.boundary.id).map fun row => row.snapshot.id

/-- Which snapshots are live, which of them the table shows, and which two pages list. -/
structure ContextReport where
  live : List Bool
  shown : List String
  first : List String
  second : List String
  deriving DecidableEq

def contextReport (db : Db) : ContextReport where
  live := db.snapshots.map SnapshotRow.live
  shown := db.sessionLatestContext.map SessionLatestContextRow.snapshotId
  first := listedIds db projectFilters firstPage
  second := listedIds db { projectFilters with project := none } secondPage

/-- The later snapshot is shown, and after its deletion the other one. -/
theorem contextReports : (lifeReplay projectCrates sampleConfig projectEvents).bind (fun p =>
      (p.replay system (handle projectCrates sampleConfig sampleSqlite) freshEnv projectDeleted).map
        fun p' => [contextReport p.state.db, contextReport p'.state.db]) =
    some
      [⟨[true, true], [sampleUuid 89], [sampleUuid 89], [sampleUuid 50]⟩,
        ⟨[true, false], [sampleUuid 50], [], [sampleUuid 50]⟩] := by
  decide +kernel

/-- The archive before and after the deletion. -/
theorem projectArchive : ∃ p p' : Server,
    Life projectCrates sampleConfig sampleSqlite (.serving p) ∧
    Life projectCrates sampleConfig sampleSqlite (.serving p') ∧
    contextReport p.state.db =
      ⟨[true, true], [sampleUuid 89], [sampleUuid 89], [sampleUuid 50]⟩ ∧
    contextReport p'.state.db = ⟨[true, false], [sampleUuid 50], [], [sampleUuid 50]⟩ := by
  obtain ⟨p, hp, hrest⟩ := Option.bind_eq_some_iff.mp contextReports
  obtain ⟨p', hp', hreports⟩ := Option.map_eq_some_iff.mp hrest
  obtain ⟨hbefore, hafter⟩ := List.cons_eq_cons.mp hreports
  have hlife := life_of_lifeReplay sampled_projectEvents hp
  have hevents : ∀ ev ∈ projectDeleted, ∀ e ∈ ev.input?, Sampled e := sampled_served (by norm_num)
  have hrun := serverRun_of_replay hevents hp'
  exact ⟨p, p', hlife, Life.run hlife hrun, hbefore, (List.cons_eq_cons.mp hafter).1⟩

/-- The table shows the newer of two live snapshots of a session, and the other one when the newer
is deleted. -/
theorem latestContexts_exact_sample : ∃ p p' : Server,
    p.state.db.snapshots.map SnapshotRow.live = [true, true] ∧
      p.state.db.sessionLatestContext.map SessionLatestContextRow.snapshotId = [sampleUuid 89] ∧
      (∀ r ∈ p.state.db.snapshots, r.live = true → ∃ row snapshot,
        (p.state.db.sessionLatestContext.filter fun x => decide (x.sessionId = r.sessionId)) =
          [row] ∧
          snapshot.sessionId = r.sessionId ∧ Newest p.state.db snapshot ∧
            Shows p.state.db row snapshot) ∧
      p'.state.db.snapshots.map SnapshotRow.live = [true, false] ∧
      p'.state.db.sessionLatestContext.map SessionLatestContextRow.snapshotId = [sampleUuid 50] ∧
      ∀ r ∈ p'.state.db.snapshots, r.live = true → ∃ row snapshot,
        (p'.state.db.sessionLatestContext.filter fun x => decide (x.sessionId = r.sessionId)) =
          [row] ∧
          snapshot.sessionId = r.sessionId ∧ Newest p'.state.db snapshot ∧
            Shows p'.state.db row snapshot := by
  obtain ⟨p, p', hlife, hlife', hbefore, hafter⟩ := projectArchive
  obtain ⟨hlive, hshown, -⟩ := ContextReport.mk.inj hbefore
  obtain ⟨hlive', hshown', -⟩ := ContextReport.mk.inj hafter
  exact ⟨p, p', hlive, hshown, (latestContexts_exact projectCrates_jsonReads hlife
    projectCrates_injective.injOn).1, hlive', hshown', (latestContexts_exact
      projectCrates_jsonReads hlife' projectCrates_injective.injOn).1⟩

end Patwari
