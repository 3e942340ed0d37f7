/-
# Patwari.Lifecycle — an upload ends once.

§1 is what the tables of uploads, their detail and their audits have to do with each other, kept by
every effect. §2 is the outcome of an upload, completed with a snapshot or ended with an audit, and
that no step takes it back or adds another. §3 states both for the runs of a server.
-/
import Patwari.Effects

namespace Patwari

open Lib (TaskId Event Pool UniqueOn updateWhere mem_updateWhere)

variable {c : Crates} {cfg : Config} {mode : Mode} {t : TaskId} {s : Shared} {ids : List String}
  {db : Db}

/-! ## §1 — Uploads, their detail and their audits. -/

/-- What the tables of an upload have to do with each other. -/
structure Db.UploadTables (db : Db) (used : List String) : Prop where
  /-- No upload is both there and ended. -/
  apart : ∀ u ∈ db.uploads, ∀ a ∈ db.uploadAudits, a.uploadId ≠ u.id
  auditOnce : UniqueOn UploadAuditRow.uploadId db.uploadAudits
  audits : ∀ a ∈ db.uploadAudits, a.uploadId ∈ used
  /-- Detail is kept for uploads that are there. -/
  chunks : ∀ r ∈ db.uploadChunks, ∃ u ∈ db.uploads, u.id = r.uploadId
  manifests : ∀ r ∈ db.manifests, ∃ u ∈ db.uploads, u.id = r.uploadId
  artifacts : ∀ r ∈ db.uploadArtifacts, ∃ u ∈ db.uploads, u.id = r.uploadId
  /-- Exactly the completed uploads have a snapshot. -/
  status : ∀ u ∈ db.uploads, u.status = .completed ↔ u.snapshotId.isSome

theorem Db.UploadTables.empty : Db.empty.UploadTables [] := by
  constructor <;> simp [Db.empty, UniqueOn]

/-- More identifiers in use, and the tables as they were. -/
theorem Db.UploadTables.mono {used used' : List String} (h : db.UploadTables used)
    (hsub : used ⊆ used') : db.UploadTables used' :=
  { h with audits := fun a ha => hsub (h.audits a ha) }

/-- An update of the state columns that leaves the snapshot to the completed uploads. -/
theorem Db.UploadTables.update {used : List String} (h : db.UploadTables used)
    {p : UploadRow → Bool} {f : UploadRow → UploadRow} (hid : ∀ r, (f r).id = r.id)
    (hstatus : ∀ r ∈ db.uploads, p r = true →
      ((f r).status = .completed ↔ (f r).snapshotId.isSome)) :
    Db.UploadTables { db with uploads := updateWhere p f db.uploads } used := by
  have howner {id : String} (hold : ∃ u ∈ db.uploads, u.id = id) :
      ∃ u ∈ updateWhere p f db.uploads, u.id = id := by
    obtain ⟨u, hu, rfl⟩ := hold
    refine ⟨_, mem_updateWhere.mpr ⟨u, hu, rfl⟩, ?_⟩
    split
    · exact hid u
    · rfl
  refine
    { h with
      apart := fun u hu a ha => ?_
      chunks := fun r hr => howner (h.chunks r hr)
      manifests := fun r hr => howner (h.manifests r hr)
      artifacts := fun r hr => howner (h.artifacts r hr)
      status := fun u hu => ?_ }
  · obtain ⟨v, hv, rfl⟩ := mem_updateWhere.mp hu
    split
    · rw [hid]
      exact h.apart v hv a ha
    · exact h.apart v hv a ha
  · obtain ⟨v, hv, rfl⟩ := mem_updateWhere.mp hu
    split
    · next hp => exact hstatus v hv hp
    · exact h.status v hv

/-- Completing an upload gives it its snapshot. -/
theorem Db.UploadTables.complete {used : List String} (h : db.UploadTables used) (x : Completing)
    (snapshotId : String) (newlyPersistedBytes : ℤ) :
    Db.UploadTables
      { db with uploads := completedUploads x snapshotId newlyPersistedBytes db.uploads } used :=
  h.update (fun _ => rfl) fun _ _ _ => by simp [UploadRow.complete]

/-- Ending an upload that is there moves it to the audits. -/
theorem Db.UploadTables.endUpload {used : List String} (h : db.UploadTables used)
    {upload current : UploadRow} (hmem : current ∈ db.uploads) (hid : current.id = upload.id)
    (hused : upload.id ∈ used) (reason : TerminalReason) (terminalAt : String) :
    (endUpload upload reason terminalAt db).UploadTables used := by
  have hnone : ¬ db.uploadAudits.any (fun r => decide (r.uploadId = upload.id)) = true := by
    simp only [List.any_eq_true, decide_eq_true_eq, not_exists, not_and]
    intro a ha heq
    exact h.apart current hmem a ha (heq.trans hid.symm)
  have hfresh : ∀ a ∈ db.uploadAudits, a.uploadId ≠ upload.id := by simpa using hnone
  have howner {id : String} (hne : id ≠ upload.id) (hold : ∃ u ∈ db.uploads, u.id = id) :
      ∃ u ∈ db.uploads.filter fun r => decide (r.id ≠ upload.id), u.id = id := by
    obtain ⟨u, hu, rfl⟩ := hold
    exact ⟨u, List.mem_filter.mpr ⟨hu, by simpa using hne⟩, rfl⟩
  unfold Patwari.endUpload
  rw [if_neg hnone]
  constructor
  · intro u hu a ha
    obtain ⟨hu, hne⟩ := List.mem_filter.mp hu
    rcases List.mem_append.mp ha with ha | ha
    · exact h.apart u hu a ha
    · rw [List.mem_singleton.mp ha]
      exact fun heq => (of_decide_eq_true hne) heq.symm
  · exact h.auditOnce.append hfresh
  · intro a ha
    rcases List.mem_append.mp ha with ha | ha
    · exact h.audits a ha
    · rw [List.mem_singleton.mp ha]
      exact hused
  · intro r hr
    obtain ⟨hr, hne⟩ := List.mem_filter.mp hr
    exact howner (of_decide_eq_true hne) (h.chunks r hr)
  · intro r hr
    obtain ⟨hr, hne⟩ := List.mem_filter.mp hr
    exact howner (of_decide_eq_true hne) (h.manifests r hr)
  · intro r hr
    obtain ⟨hr, hne⟩ := List.mem_filter.mp hr
    exact howner (of_decide_eq_true hne) (h.artifacts r hr)
  · exact fun u hu => h.status u (List.mem_of_mem_filter hu)

/-- Every effect keeps the tables of uploads in order. -/
theorem Effect.uploadTables (h : Effect c cfg mode t s ids db) (hinv : s.Inv c)
    (hids : Fresh t ids s) (hs : s.db.UploadTables s.used) : db.UploadTables (ids ++ s.used) := by
  have hmono : s.db.UploadTables (ids ++ s.used) := hs.mono (List.subset_append_right _ _)
  cases h with
  | unchanged ids => exact hmono
  | clients clients => exact { hmono with }
  | integrity ids runs findings => exact { hmono with }
  | repeated new existing hnew hsession hexisting hsame => exact { hmono with }
  | created new row hnew hsession hreuse hfree hfresh hrow hrows =>
    obtain ⟨hid, -, -, -, -, -, hactive, hnone, -⟩ := newUploadRow_ok hrow
    have hkeep {id : String} (hold : ∃ u ∈ s.db.uploads, u.id = id) :
        ∃ u ∈ s.db.uploads ++ [row], u.id = id := by
      obtain ⟨u, hu, huid⟩ := hold
      exact ⟨u, List.mem_append_left _ hu, huid⟩
    have hown : ∃ u ∈ s.db.uploads ++ [row], u.id = new.uploadId :=
      ⟨row, List.mem_append_right _ List.mem_cons_self, hid⟩
    refine
      { hmono with
        apart := fun u hu a ha => ?_
        chunks := fun r hr => hkeep (hs.chunks r hr)
        manifests := fun r hr => ?_
        artifacts := fun r hr => ?_
        status := fun u hu => ?_ }
    · rcases List.mem_append.mp hu with hu | hu
      · exact hs.apart u hu a ha
      · -- the audits name identifiers in use, the new upload's is fresh
        rw [List.mem_singleton.mp hu, hid]
        intro heq
        exact hids.not_used (by simp) (heq ▸ hs.audits a ha)
    · rcases List.mem_append.mp hr with hr | hr
      · exact hkeep (hs.manifests r hr)
      · rw [List.mem_singleton.mp hr]
        exact hown
    · rcases List.mem_append.mp hr with hr | hr
      · exact hkeep (hs.artifacts r hr)
      · rw [(uploadArtifactRows_ok hrows).2 r hr]
        exact hown
    · rcases List.mem_append.mp hu with hu | hu
      · exact hs.status u hu
      · rw [List.mem_singleton.mp hu, hnone]
        simp [hactive]
  | ended upload current reason terminalAt hmem hfixed hactive hfree =>
    have hid := UploadRow.id_of_fixed hfixed
    exact hmono.endUpload hmem hid (hid ▸ hinv.issued.uploads current hmem) reason terminalAt
  | chunk row current hmem hid hactive =>
    refine { hmono with chunks := fun r hr => ?_ }
    rcases List.mem_append.mp hr with hr | hr
    · exact hs.chunks r hr
    · rw [List.mem_singleton.mp hr]
      exact ⟨current, hmem, hid⟩
  | status uploadId complete =>
    refine hmono.update (fun _ => rfl) fun u hu hp => ?_
    have hactive : u.status ≠ .completed := by
      simp only [Bool.and_eq_true] at hp
      exact UploadRowStatus.active_iff.mp hp.2
    have hnone : u.snapshotId.isSome = false := by
      simpa using fun hsome => hactive ((hs.status u hu).mpr hsome)
    rw [hnone]
    cases complete <;> simp
  | attached x snapshot manifestRow hx hattach hsnapshot hlive hsession hfingerprint hseq
      hcontextSeq hcontexts =>
    exact { hmono.complete x snapshot.id 0 with }
  | recorded x row manifestRow blobIds hx hattach hblobs hrow hfresh hfree hrows hcontexts =>
    exact { hmono.complete x.toCompleting x.snapshotId x.newlyPersistedBytes with }
  | deleted x snapshot manifest hx hrow hlive hfresh =>
    rw [foldl_scheduleOrClearBlobCandidate]
    exact { hmono with }
  | cleared row nowSeq hmem heligible hlive => exact { hmono with }

theorem DbInvariant.uploadTables : DbInvariant c cfg Db.UploadTables where
  effect := fun hinv _ hids h hs => h.uploadTables hinv hids hs
  collect := fun _ _ h hs => by
    obtain ⟨row, -, -, rfl⟩ := h
    exact { hs with }

/-! ## §2 — Outcomes. -/

/-- How an upload can have ended. -/
inductive UploadOutcome where
  | completed (snapshotId : String)
  /-- Abandoned or expired, as its audit says. -/
  | ended (audit : UploadAuditRow)

/-- The upload has ended this way: its row is completed with the snapshot, or the audit is the only
one it has. -/
def Db.HasOutcome (db : Db) (uploadId : String) : UploadOutcome → Prop
  | .completed snapshotId => ∃ u ∈ db.uploads, u.id = uploadId ∧ u.status = .completed ∧
      u.snapshotId = some snapshotId
  | .ended audit => (db.uploadAudits.filter fun a => decide (a.uploadId = uploadId)) = [audit]

theorem Db.HasOutcome.mem {uploadId : String} {audit : UploadAuditRow}
    (h : db.HasOutcome uploadId (.ended audit)) :
    audit ∈ db.uploadAudits ∧ audit.uploadId = uploadId := by
  have hmem : audit ∈ db.uploadAudits.filter fun a => decide (a.uploadId = uploadId) := by
    rw [h]
    exact List.mem_singleton_self _
  obtain ⟨hmem, hid⟩ := List.mem_filter.mp hmem
  exact ⟨hmem, of_decide_eq_true hid⟩

/-- An upload has one outcome at most. -/
theorem Db.UploadTables.outcome_unique {used : List String} (h : db.UploadTables used)
    (hunique : db.Unique) {uploadId : String} {o o' : UploadOutcome}
    (ho : db.HasOutcome uploadId o) (ho' : db.HasOutcome uploadId o') : o' = o := by
  cases o with
  | completed snapshotId =>
    obtain ⟨u, hu, huid, -, hsnapshot⟩ := ho
    cases o' with
    | completed snapshotId' =>
      obtain ⟨v, hv, hvid, -, hsnapshot'⟩ := ho'
      obtain rfl := hunique.uploads.eq_of_mem hu hv (huid.trans hvid.symm)
      rw [hsnapshot] at hsnapshot'
      rw [Option.some.inj hsnapshot']
    | ended audit =>
      obtain ⟨ha, haid⟩ := ho'.mem
      exact absurd (haid.trans huid.symm) (h.apart u hu audit ha)
  | ended audit =>
    obtain ⟨ha, haid⟩ := ho.mem
    cases o' with
    | completed snapshotId =>
      obtain ⟨u, hu, huid, -, -⟩ := ho'
      exact absurd (haid.trans huid.symm) (h.apart u hu audit ha)
    | ended audit' =>
      have hsame : [audit'] = [audit] := ho'.symm.trans ho
      rw [List.singleton_inj.mp hsame]

/-- An audit is the only one of its upload. -/
theorem Db.UploadTables.outcome_of_audit {used : List String} (h : db.UploadTables used)
    {audit : UploadAuditRow} (ha : audit ∈ db.uploadAudits) :
    db.HasOutcome audit.uploadId (.ended audit) := by
  have hnodup : (db.uploadAudits.filter fun a =>
      decide (a.uploadId = audit.uploadId)).Nodup :=
    (List.Nodup.of_map _ h.auditOnce).filter _
  show db.uploadAudits.filter _ = [audit]
  refine List.perm_singleton.mp ((List.perm_ext_iff_of_nodup hnodup (List.nodup_singleton _)).mpr
    ?_)
  intro a
  rw [List.mem_filter, decide_eq_true_eq, List.mem_singleton]
  constructor
  · rintro ⟨hmem, hid⟩
    exact h.auditOnce.eq_of_mem hmem ha hid
  · rintro rfl
    exact ⟨ha, rfl⟩

/-- A completed upload has the outcome of its snapshot. -/
theorem Db.UploadTables.outcome_of_completed {used : List String} (h : db.UploadTables used)
    {u : UploadRow} (hu : u ∈ db.uploads) (hdone : u.status = .completed) :
    ∃ snapshotId, db.HasOutcome u.id (.completed snapshotId) := by
  obtain ⟨snapshotId, hsnapshot⟩ := Option.isSome_iff_exists.mp ((h.status u hu).mp hdone)
  exact ⟨snapshotId, u, hu, rfl, hdone, hsnapshot⟩

/-- An outcome stays where completed uploads and audits do. -/
theorem Db.HasOutcome.keep {db' : Db} {uploadId : String} {o : UploadOutcome}
    (h : db.HasOutcome uploadId o)
    (huploads : ∀ u ∈ db.uploads, u.status = .completed → u ∈ db'.uploads)
    (haudits : db'.uploadAudits = db.uploadAudits) : db'.HasOutcome uploadId o := by
  cases o with
  | completed snapshotId =>
    obtain ⟨u, hu, huid, hdone, hsnapshot⟩ := h
    exact ⟨u, huploads u hu hdone, huid, hdone, hsnapshot⟩
  | ended audit =>
    show db'.uploadAudits.filter _ = _
    rw [haudits]
    exact h

/-- **`Effect.outcome`** — no effect takes an outcome back. -/
theorem Effect.outcome (h : Effect c cfg mode t s ids db) (hinv : s.Inv c)
    (hs : s.db.UploadTables s.used) {uploadId : String} {o : UploadOutcome}
    (ho : s.db.HasOutcome uploadId o) : db.HasOutcome uploadId o := by
  cases h with
  | created new row hnew hsession hreuse hfree hfresh hrow hrows =>
    exact ho.keep (fun u hu _ => List.mem_append_left _ hu) rfl
  | ended upload current reason terminalAt hmem hfixed hactive hfree =>
    have hid := UploadRow.id_of_fixed hfixed
    cases o with
    | completed snapshotId =>
      obtain ⟨u, hu, huid, hdone, hsnapshot⟩ := ho
      -- a completed upload is not the active one that ends
      have hne : u.id ≠ upload.id := by
        intro heq
        rw [← hinv.unique.uploads.eq_of_mem hu hmem (heq.trans hid.symm)] at hactive
        exact hactive hdone
      exact ⟨u, List.mem_filter.mpr ⟨hu, decide_eq_true hne⟩, huid, hdone, hsnapshot⟩
    | ended audit =>
      obtain ⟨ha, haid⟩ := ho.mem
      have hne : upload.id ≠ uploadId := by
        rintro rfl
        exact hs.apart current hmem audit ha (haid.trans hid.symm)
      show (if _ then _ else _ : List UploadAuditRow).filter _ = _
      split_ifs
      · exact ho
      · rw [List.filter_append, ho]
        simpa [uploadAuditRow] using hne
  | status id complete =>
    refine ho.keep (fun u hu hdone => Lib.mem_updateWhere_of_not hu ?_) rfl
    simp [UploadRowStatus.active, hdone]
  | attached x snapshot manifestRow hx hattach hsnapshot hlive hsession hfingerprint hseq
      hcontextSeq hcontexts =>
    exact ho.keep (fun u hu hdone => mem_completedUploads hu hdone) rfl
  | recorded x row manifestRow blobIds hx hattach hblobs hrow hfresh hfree hrows hcontexts =>
    exact ho.keep (fun u hu hdone => mem_completedUploads hu hdone) rfl
  | deleted x snapshot manifest hx hrow hlive hfresh =>
    rw [foldl_scheduleOrClearBlobCandidate]
    exact ho.keep (fun u hu _ => hu) rfl
  | _ => exact ho.keep (fun u hu _ => hu) rfl

/-! ## §3 — Runs. -/

/-- The tables of uploads stay in order, and an outcome once reached stays. -/
theorem DbInvariant.outcome (uploadId : String) (o : UploadOutcome) :
    DbInvariant c cfg fun db used => db.UploadTables used ∧ db.HasOutcome uploadId o := by
  refine DbInvariant.uploadTables.and
    (fun hinv _ htables _ h ho => h.outcome hinv htables ho) fun _ _ h ho => ?_
  obtain ⟨row, -, -, rfl⟩ := h
  exact ho.keep (fun u hu _ => hu) rfl

/-- **`uploadLifecycle`** — between any two moments of a run, whatever the requests do and however
they fail or are dropped: an outcome an upload has is its only one from then on, an upload that is
there is not ended, completed exactly when it has the outcome of a snapshot, and an upload with an
audit has that outcome and no row of its own or of its detail ever again. -/
theorem uploadLifecycle {sqlite : SqliteChecks} {allowed : Server → Event Env Request → Prop}
    {p p' : Server} (hrun : ServerRun c cfg sqlite allowed Server.init p)
    (hrun' : ServerRun c cfg sqlite allowed p p') (uploadId : String) :
    (∀ o, p.state.db.HasOutcome uploadId o →
      ∀ o', p'.state.db.HasOutcome uploadId o' ↔ o' = o) ∧
    (∀ u ∈ p.state.db.uploads, u.id = uploadId →
      (u.status = .completed ↔
        ∃ snapshotId, p.state.db.HasOutcome uploadId (.completed snapshotId)) ∧
      ∀ a ∈ p.state.db.uploadAudits, a.uploadId ≠ uploadId) ∧
    (∀ a ∈ p.state.db.uploadAudits, a.uploadId = uploadId →
      p.state.db.HasOutcome uploadId (.ended a) ∧
      (∀ u ∈ p'.state.db.uploads, u.id ≠ uploadId) ∧
      (∀ r ∈ p'.state.db.uploadChunks, r.uploadId ≠ uploadId) ∧
      (∀ r ∈ p'.state.db.manifests, r.uploadId ≠ uploadId) ∧
      ∀ r ∈ p'.state.db.uploadArtifacts, r.uploadId ≠ uploadId) := by
  have hinit := Shared.Inv.init c
  have htables : p.state.db.UploadTables p.state.used :=
    DbInvariant.uploadTables.run Db.UploadTables.empty hrun
  have hcompleted : p.state.db.Completed p.state.used :=
    DbInvariant.completed.run Db.Completed.empty hrun
  have hunique : p.state.db.Unique := (server_inv hinit hrun).unique
  have hunique' : p'.state.db.Unique := (server_inv hinit (hrun.trans hrun')).unique
  have hstays (o : UploadOutcome) (ho : p.state.db.HasOutcome uploadId o) :
      p'.state.db.UploadTables p'.state.used ∧ p'.state.db.HasOutcome uploadId o :=
    ((DbInvariant.outcome uploadId o).reach hcompleted ⟨htables, ho⟩
      (server_reach_between hinit hrun hrun')).2
  refine ⟨fun o ho o' => ?_, fun u hu hid => ⟨⟨fun hdone => ?_, ?_⟩, fun a ha heq => ?_⟩,
    fun a ha hid => ?_⟩
  · obtain ⟨htables', ho'⟩ := hstays o ho
    constructor
    · exact htables'.outcome_unique hunique' ho'
    · rintro rfl
      exact ho'
  · exact hid ▸ htables.outcome_of_completed hu hdone
  · rintro ⟨snapshotId, v, hv, hvid, hdone, -⟩
    rwa [hunique.uploads.eq_of_mem hu hv (hid.trans hvid.symm)]
  · exact htables.apart u hu a ha (heq.trans hid.symm)
  · have ho : p.state.db.HasOutcome uploadId (.ended a) := hid ▸ htables.outcome_of_audit ha
    obtain ⟨htables', ho'⟩ := hstays _ ho
    obtain ⟨ha', hid'⟩ := ho'.mem
    -- whatever has a row for the upload would bring the upload back beside its audit
    have hgone (u : UploadRow) (hu : u ∈ p'.state.db.uploads) : u.id ≠ uploadId :=
      fun heq => htables'.apart u hu a ha' (hid'.trans heq.symm)
    refine ⟨ho, hgone, fun r hr heq => ?_, fun r hr heq => ?_, fun r hr heq => ?_⟩
    · obtain ⟨u, hu, huid⟩ := htables'.chunks r hr
      exact hgone u hu (huid.trans heq)
    · obtain ⟨u, hu, huid⟩ := htables'.manifests r hr
      exact hgone u hu (huid.trans heq)
    · obtain ⟨u, hu, huid⟩ := htables'.artifacts r hr
      exact hgone u hu (huid.trans heq)

/-- A client registers, creates an upload and abandons it. -/
def abandonedRun : List (Event Env Request) :=
  served 0 (.registerClient sampleClientId ⟨none, none, Lib.StringMap.empty⟩) 0 0 3 ++
  served 1 (.createUpload ⟨sampleClientId, some "capture", none, sampleManifest⟩) 0 0 9 ++
  served 2 (.abandonUpload (sampleUuid 3)) 0 16 7

theorem uploadLifecycle_abandoned :
    ∃ p : Server, ServerRun sampleCrates sampleConfig sampleSqlite (fun _ _ => True) Server.init p ∧
      ∃ a ∈ p.state.db.uploadAudits, a.uploadId = sampleUuid 3 ∧ a.terminalReason = .abandoned ∧
        ∀ o, p.state.db.HasOutcome (sampleUuid 3) o ↔ o = .ended a := by
  have hended : (Pool.replay system (handle sampleCrates sampleConfig sampleSqlite) freshEnv
      abandonedRun Server.init).any (fun p => p.state.db.uploadAudits.any fun a =>
        decide (a.uploadId = sampleUuid 3 ∧ a.terminalReason = .abandoned)) = true := by
    decide +kernel
  obtain ⟨p, hp, haudit⟩ := (Option.any_eq_true _ _).mp hended
  obtain ⟨a, ha, hcheck⟩ := List.any_eq_true.mp haudit
  obtain ⟨hid, hreason⟩ := of_decide_eq_true hcheck
  have hrun := serverRun_of_replay (fun ev hev => ?_) hp
  · obtain ⟨honly, -, hdetail⟩ := uploadLifecycle hrun .refl (sampleUuid 3)
    exact ⟨p, hrun, a, ha, hid, hreason, honly _ (hdetail a ha hid).1⟩
  · simp only [abandonedRun, List.mem_append] at hev
    rcases hev with (hev | hev) | hev
    · exact sampled_served (by norm_num) ev hev
    · exact sampled_served (by norm_num) ev hev
    · exact sampled_served (by norm_num) ev hev

end Patwari
