/-
# Patwari.Collection — a blob is collected only after its grace period.

Garbage collection reads a deadline and never asks since when a blob has been without references.
§1 follows what a step does to the references of one blob and to its deadline, §2 is the history of
one blob: the deletion that took its last reference, up to a moment at which it has none since. §3
follows a pass: a blob row goes only with the transaction of a task that collects blobs, which found
the row due by its own clock reading. §4 puts them together: the deadline of an unreferenced blob is
always that of the deletion which orphaned it last, so a blob that was referenced again waits for
the grace period again. §5 is a grace period with a fraction of a second, which is dropped.
-/
import Patwari.Bootstrap
import Patwari.Expiry

namespace Patwari

open Lib (Pool Prog Event TaskId UniqueOn updateWhere mem_updateWhere)

variable {c : Crates} {cfg : Config} {sqlite : SqliteChecks} {s s' : Shared} {m m' : Moment}
  {blobId : String} {db : Db}

/-! ## §1 — References and deadlines. -/

/-- The deadline of the row is the one a deletion that read the clock where this tombstone says
gives: the configured grace period later. -/
def BlobRow.ScheduledBy (c : Crates) (cfg : Config) (tombstone : TombstoneRow) (r : BlobRow) :
    Prop :=
  ∃ n, c.formatRfc3339 (.utc n) = some tombstone.deletedAt ∧
    tombstone.deletedAtSeq = sortKeyFromTimestamp (.utc n) ∧
    r.orphanedAt = some tombstone.deletedAt ∧
    r.eligibleAfter = c.formatRfc3339 (expirationTime (.utc n) cfg.blobGcGrace) ∧
    r.eligibleAfterSeq =
      some (sortKeyFromTimestamp (expirationTime (.utc n) cfg.blobGcGrace))

/-- What a step did that took the last live reference of a blob. -/
def Orphans (c : Crates) (cfg : Config) (blobId : String) (tombstone : TombstoneRow)
    (db db' : Db) : Prop :=
  db'.tombstones = db.tombstones ++ [tombstone] ∧
    ∀ r ∈ db'.blobs, r.id = blobId → r.ScheduledBy c cfg tombstone

/-- References of a database whose snapshots and artifacts did not change. -/
theorem hasLiveReference_congr {db' : Db} (hsnapshots : db'.snapshots = db.snapshots)
    (hartifacts : db'.artifacts = db.artifacts) (blobId : String) :
    db'.hasLiveReference blobId = db.hasLiveReference blobId := by
  unfold Db.hasLiveReference
  rw [hsnapshots, hartifacts]

/-- A deletion that takes the last reference of a blob schedules it. -/
theorem orphans_deleted {x : DeletionRecord} {snapshot : SnapshotRow} {manifest : ManifestRow}
    (hx : DeletionOk c cfg x) (hrow : db.snapshotDeletionRow x.snapshotId =
      some (snapshot, manifest))
    (hlive : snapshot.live = true) (hbefore : db.hasLiveReference blobId = true)
    (hafter : (markDeleted x snapshot manifest db).hasLiveReference blobId = false) :
    ∀ r ∈ db.blobs.map (fun r =>
      if r.id ∈ (db.artifactBlobs x.snapshotId).map BlobRow.id then
        if (markDeleted x snapshot manifest db).hasLiveReference r.id then r.clearCandidate
        else r.schedule x
      else r), r.id = blobId → r.ScheduledBy c cfg (tombstoneRow x snapshot manifest) := by
  obtain ⟨n, hdeleted, hseq, heligible, heligibleSeq⟩ := hx
  obtain ⟨hmem, hid, -, -⟩ := Db.snapshotDeletionRow_some hrow
  intro r' hr' hblob
  obtain ⟨r, hr, rfl⟩ := List.mem_map.mp hr'
  by_cases hsel : r.id ∈ (db.artifactBlobs x.snapshotId).map BlobRow.id
  · rw [if_pos hsel] at hblob ⊢
    by_cases hstill : (markDeleted x snapshot manifest db).hasLiveReference r.id = true
    · rw [if_pos hstill] at hblob
      have heq : r.id = blobId := hblob
      rw [heq, hafter] at hstill
      exact absurd hstill Bool.false_ne_true
    · rw [if_neg hstill]
      exact ⟨n, hdeleted, hseq, rfl, heligible.symm, congrArg some heligibleSeq⟩
  · rw [if_neg hsel] at hblob
    -- a blob the deletion does not look at keeps its references
    have hkept : (markDeleted x snapshot manifest db).hasLiveReference r.id =
        db.hasLiveReference r.id := hasLiveReference_of_not_artifactBlobs hmem hid hlive hr hsel
    rw [hblob, hbefore, hafter] at hkept
    exact absurd hkept Bool.false_ne_true

theorem Effect.orphans {mode : Mode} {t : TaskId} {ids : List String}
    (h : Effect c cfg mode t s ids db) (hs : s.db.Candidates)
    (hbefore : s.db.hasLiveReference blobId = true) (hafter : db.hasLiveReference blobId = false) :
    ∃ tombstone, Orphans c cfg blobId tombstone s.db db := by
  cases h with
  | recorded x row manifestRow blobIds hx hattach hblobs hrow hfresh hfree hrows hcontexts =>
    refine absurd (hafter.symm.trans (Iff.mpr (hs.recorded_reference hx.artifactIds hblobs hrow
      hfresh hrows ?_ ?_ blobId) (Or.inl hbefore))) Bool.false_ne_true
    · rfl
    · rfl
  | deleted x snapshot manifest hx hrow hlive hfresh =>
    rw [foldl_scheduleOrClearBlobCandidate] at hafter ⊢
    exact ⟨tombstoneRow x snapshot manifest, rfl, orphans_deleted hx hrow hlive hbefore hafter⟩
  | _ => exact absurd (hafter.symm.trans hbefore) Bool.false_ne_true

/-- **`Moved.orphans`** — the last reference of a blob is taken by a deletion, which gives the blob
the deadline of its own clock reading. -/
theorem Moved.orphans (h : Moved c cfg s s') (hs : Archive c s)
    (hbefore : s.db.hasLiveReference blobId = true)
    (hafter : s'.db.hasLiveReference blobId = false) :
    ∃ tombstone, Orphans c cfg blobId tombstone s.db s'.db := by
  have hkept (heq : s'.db.hasLiveReference blobId = s.db.hasLiveReference blobId) :
      ∃ tombstone, Orphans c cfg blobId tombstone s.db s'.db := by
    rw [hafter, hbefore] at heq
    exact absurd heq Bool.false_ne_true
  cases h.dbMoved hs with
  | stays hdb hused => exact hkept (by rw [hdb])
  | writes hids heffect hused => exact heffect.orphans hs.candidates hbefore hafter
  | collects hcollects hused =>
    obtain ⟨row, -, -, hdb⟩ := hcollects
    exact hkept (hasLiveReference_congr (by rw [hdb]) (by rw [hdb]) blobId)
  | chunks keep hdb hused =>
    exact hkept (hasLiveReference_congr (by rw [hdb]) (by rw [hdb]) blobId)
  | legacy uploadId artifact chunkSize now expiresAt hactive hdb hused =>
    refine hkept ?_
    rw [hdb]
    exact hasLiveReference_upgradeLegacyRows hs.inv.unique.snapshots _ _ _ _ _ _
  | contexts hdb hused =>
    refine hkept (hasLiveReference_congr ?_ ?_ blobId)
    · rw [hdb]
      rfl
    · rw [hdb]
      rfl

/-- A blob without references is none of those a deletion looks at. -/
theorem not_artifactBlobs_of_unreferenced {snapshot : SnapshotRow} {snapshotId : String}
    (hmem : snapshot ∈ db.snapshots) (hid : snapshot.id = snapshotId) (hlive : snapshot.live = true)
    (hfree : db.hasLiveReference blobId = false) :
    blobId ∉ (db.artifactBlobs snapshotId).map BlobRow.id := by
  intro hsel
  obtain ⟨r, hr, hrid⟩ := List.mem_map.mp hsel
  rw [Db.artifactBlobs] at hr
  split at hr
  · obtain ⟨a, ha, hcheck⟩ := List.any_eq_true.mp (List.mem_filter.mp hr).2
    obtain ⟨hsnapshot, hrefers⟩ := of_decide_eq_true hcheck
    have hreferenced : db.hasLiveReference blobId = true :=
      Db.hasLiveReference_iff.mpr ⟨a, ha, hrefers.trans hrid, snapshot, hmem,
        hid.trans hsnapshot.symm, hlive⟩
    rw [hfree] at hreferenced
    exact Bool.false_ne_true hreferenced
  · simp at hr

theorem Effect.unreferenced {mode : Mode} {t : TaskId} {ids : List String}
    (h : Effect c cfg mode t s ids db) (hs : s.db.Candidates)
    (hbefore : s.db.hasLiveReference blobId = false) (hafter : db.hasLiveReference blobId = false) :
    ∀ r ∈ db.blobs, r.id = blobId → r ∈ s.db.blobs := by
  intro r' hr' hblob
  cases h with
  | recorded x row manifestRow blobIds hx hattach hblobs hrow hfresh hfree hrows hcontexts =>
    rcases hblobs.origin r' hr' with hold | ⟨hnew, -⟩
    · exact hold
    · rw [hblob] at hnew
      refine absurd (hafter.symm.trans (Iff.mpr (hs.recorded_reference hx.artifactIds hblobs hrow
        hfresh hrows ?_ ?_ blobId) (Or.inr hnew))) Bool.false_ne_true
      · rfl
      · rfl
  | deleted x snapshot manifest hx hrow hlive hfresh =>
    rw [foldl_scheduleOrClearBlobCandidate] at hr'
    obtain ⟨r, hr, rfl⟩ := List.mem_map.mp hr'
    obtain ⟨hmem, hid, -, -⟩ := Db.snapshotDeletionRow_some hrow
    have hnot := not_artifactBlobs_of_unreferenced hmem hid hlive hbefore
    have hsame : r.id = blobId := by
      split at hblob
      · split at hblob <;> exact hblob
      · exact hblob
    rw [if_neg (hsame ▸ hnot)]
    exact hr
  | cleared row nowSeq hmem heligible hlive =>
    obtain ⟨r, hr, rfl⟩ := mem_updateWhere.mp hr'
    split at hblob
    · next hsel =>
      have heq : row.id = blobId := (of_decide_eq_true hsel).symm.trans hblob
      rw [heq, hbefore] at hlive
      exact absurd hlive Bool.false_ne_true
    · next hsel =>
      rw [if_neg hsel]
      exact hr
  | _ => exact hr'

/-- **`Moved.unreferenced`** — a blob that stays without references keeps its row as it is, as long
as it has one. -/
theorem Moved.unreferenced (h : Moved c cfg s s') (hs : Archive c s)
    (hbefore : s.db.hasLiveReference blobId = false)
    (hafter : s'.db.hasLiveReference blobId = false) :
    ∀ r ∈ s'.db.blobs, r.id = blobId → r ∈ s.db.blobs := by
  intro r hr hblob
  cases h.dbMoved hs with
  | stays hdb hused => rwa [hdb] at hr
  | writes hids heffect hused => exact heffect.unreferenced hs.candidates hbefore hafter r hr hblob
  | collects hcollects hused =>
    obtain ⟨row, -, -, hdb⟩ := hcollects
    rw [hdb] at hr
    exact List.mem_of_mem_filter hr
  | chunks keep hdb hused => rwa [hdb] at hr
  | legacy uploadId artifact chunkSize now expiresAt hactive hdb hused => rwa [hdb] at hr
  | contexts hdb hused => rwa [hdb] at hr

/-! ## §2 — The history of a blob. -/

/-- **`OrphanedBy`** — the blob has had no live reference since the deletion that left this
tombstone took its last one. -/
inductive OrphanedBy (c : Crates) (cfg : Config) (sqlite : SqliteChecks) (blobId : String)
    (tombstone : TombstoneRow) : Moment → Prop
  | began {m m' : Moment} (hlife : Life c cfg sqlite m) (hstep : LifeStep c cfg sqlite m m')
      (hbefore : m.state.db.hasLiveReference blobId = true)
      (hafter : m'.state.db.hasLiveReference blobId = false)
      (htombstone : m'.state.db.tombstones = m.state.db.tombstones ++ [tombstone]) :
      OrphanedBy c cfg sqlite blobId tombstone m'
  | stays {m m' : Moment} (h : OrphanedBy c cfg sqlite blobId tombstone m)
      (hstep : LifeStep c cfg sqlite m m') (hafter : m'.state.db.hasLiveReference blobId = false) :
      OrphanedBy c cfg sqlite blobId tombstone m'

variable {tombstone : TombstoneRow}

theorem OrphanedBy.life (h : OrphanedBy c cfg sqlite blobId tombstone m) :
    Life c cfg sqlite m := by
  induction h with
  | began hlife hstep _ _ _ => exact hlife.tail hstep
  | stays _ hstep _ ih => exact ih.tail hstep

theorem OrphanedBy.unreferenced (h : OrphanedBy c cfg sqlite blobId tombstone m) :
    m.state.db.hasLiveReference blobId = false := by
  cases h with
  | began _ _ _ hafter _ => exact hafter
  | stays _ _ hafter => exact hafter

/-- The deadline of an orphaned blob is that of the deletion that orphaned it. -/
theorem OrphanedBy.scheduled (h : OrphanedBy c cfg sqlite blobId tombstone m) :
    ∀ r ∈ m.state.db.blobs, r.id = blobId → r.ScheduledBy c cfg tombstone := by
  induction h with
  | began hlife hstep hbefore hafter htombstone =>
    have hgood := Life.good hlife
    obtain ⟨tombstone', heq, hscheduled⟩ :=
      (hstep.good hgood).2.orphans hgood.archive hbefore hafter
    have hsame : tombstone' = tombstone := by
      rw [htombstone] at heq
      exact (List.singleton_injective (List.append_cancel_left heq)).symm
    exact hsame ▸ hscheduled
  | stays h hstep hafter ih =>
    have hgood := Life.good h.life
    intro r hr hblob
    exact ih r ((hstep.good hgood).2.unreferenced hgood.archive h.unreferenced hafter r hr hblob)
      hblob

/-- Every blob row without a live reference was orphaned by a deletion. -/
theorem Life.orphaned (h : Life c cfg sqlite m) :
    ∀ r ∈ m.state.db.blobs, m.state.db.hasLiveReference r.id = false →
      ∃ tombstone, OrphanedBy c cfg sqlite r.id tombstone m := by
  induction h with
  | refl => simp [Moment.state, Shared.init, Db.empty]
  | @tail m m' hlife hstep ih =>
    intro r hr hafter
    have hgood := Life.good hlife
    have hmoved := (hstep.good hgood).2
    cases hbefore : m.state.db.hasLiveReference r.id with
    | true =>
      obtain ⟨tombstone, heq, -⟩ := hmoved.orphans hgood.archive hbefore hafter
      exact ⟨tombstone, .began hlife hstep hbefore hafter heq⟩
    | false =>
      have hold := hmoved.unreferenced hgood.archive hbefore hafter r hr rfl
      obtain ⟨tombstone, horphaned⟩ := ih r hold hbefore
      exact ⟨tombstone, horphaned.stays hstep hafter⟩

/-! ## §3 — A pass. -/

/-- **`Pass`** — since the server was started, the task was given a request to collect blobs, and it
read the clock at `now`. -/
def Pass (c : Crates) (cfg : Config) (sqlite : SqliteChecks) (p : Server) (t : TaskId) (now : ℤ) :
    Prop :=
  ∃ (s : Shared) (p₁ p₂ : Server) (request : Request) (rest : Program Outcome) (e : Env),
    Life c cfg sqlite (.serving (Pool.init s)) ∧
      ServerRun c cfg sqlite (fun _ _ => True) (Pool.init s) p₁ ∧
      p₁.tasks t = some (request, rest) ∧ request.collectsBlobs = true ∧
      rest.label? = some .clock ∧ e.now = now ∧ p₁.EnvOk system (.act t e : Event Env Request) ∧
      p₁.step system (handle c cfg sqlite) (.act t e) = some p₂ ∧
      ServerRun c cfg sqlite (fun _ _ => True) p₂ p

/-- An open transaction is that of a task that collects blobs, and has deleted a row that was due by
a clock reading of this task. -/
def WriterDue (mode : Mode) (s : Shared) : Prop :=
  ∀ t pending, s.writer = some (t, pending) → ∃ nowSeq blobId, mode.Collects t nowSeq ∧
    collectBlobRow blobId nowSeq s.db = .ok (.deleting, pending)

theorem SysStep.writerDue {mode : Mode} {t : TaskId} (h : SysStep c cfg mode t s s')
    (hs : WriterDue mode s) : WriterDue mode s' := by
  intro t' pending hw
  cases h with
  | cleanup => exact hs t' pending (Option.filter_eq_some_iff.mp hw).1
  | write hwriter hids h => exact absurd (hwriter.symm.trans hw) (by simp)
  | beginCollect blobId nowSeq hwriter hlock h hcollects =>
    obtain ⟨rfl, rfl⟩ := Prod.mk.inj (Option.some.inj hw)
    exact ⟨nowSeq, blobId, hcollects, h⟩
  | commitCollect => exact nomatch hw
  | rollback => exact nomatch hw
  | _ => exact hs t' pending hw

/-- **`Life.writerDue`** — an open transaction has deleted a row that was due by the clock reading
of the pass that opened it. -/
theorem Life.writerDue {p : Server} (h : Life c cfg sqlite (.serving p)) {t : TaskId} {pending : Db}
    (hw : p.state.writer = some (t, pending)) : ∃ now blobId, Pass c cfg sqlite p t now ∧
      collectBlobRow blobId (sortKeyFromTimestamp (.utc now)) p.state.db =
        .ok (.deleting, pending) := by
  obtain ⟨s, hstart, hrun⟩ := h.started
  obtain ⟨request, hrun⟩ := Pool.Run.exists_assigned hrun
  have htrue {allowed : Server → Event Env Request → Prop} {q q' : Server}
      (hq : ServerRun c cfg sqlite allowed q q') :
      ServerRun c cfg sqlite (fun _ _ => True) q q' :=
    Pool.Run.mono hq fun _ _ _ => trivial
  -- the mode in which the tasks of this run are given their requests and read their clocks
  let mode : Mode :=
    { Mode.any with
      collectors := fun t => ∃ r, request t = some r ∧ r.collectsBlobs = true
      readings := fun t n => ∃ (p₁ p₂ : Server) (r : Request) (rest : Program Outcome) (e : Env),
        request t = some r ∧ ServerRun c cfg sqlite (fun _ _ => True) (Pool.init s) p₁ ∧
          p₁.tasks t = some (r, rest) ∧ rest.label? = some .clock ∧ e.now = n ∧
          p₁.EnvOk system (.act t e : Event Env Request) ∧
          p₁.step system (handle c cfg sqlite) (.act t e) = some p₂ ∧
          ServerRun c cfg sqlite (fun _ _ => True) p₂ p }
  -- what holds at every pool of the run
  suffices hgen : ∀ q : Server, Relation.ReflTransGen (fun q q' =>
      Pool.Step system (handle c cfg sqlite) (fun p ev => True ∧ p.Assigned request ev) q q' ∧
        ServerRun c cfg sqlite (fun p ev => True ∧ p.Assigned request ev) (Pool.init s) q ∧
        ServerRun c cfg sqlite (fun p ev => True ∧ p.Assigned request ev) q' p) (Pool.init s) q →
      q.Good (discipline c cfg mode) (fun _ _ => True) ∧ WriterDue mode q.state ∧
        ∀ entry ∈ q.late, system.detachable entry.label = true by
    obtain ⟨nowSeq, blobId, ⟨⟨r, hr, hcollects⟩, n, hreading, rfl⟩, hpending⟩ :=
      (hgen p hrun.between).2.1 t pending hw
    obtain ⟨p₁, p₂, r', rest, e, hr', hbefore, htask, hlabel, hnow, henv, hstep, hafter⟩ := hreading
    obtain rfl := Option.some.inj (hr.symm.trans hr')
    exact ⟨n, blobId, ⟨s, p₁, p₂, r, rest, e, hstart, hbefore, htask, hcollects, hlabel, hnow, henv,
      hstep, hafter⟩, hpending⟩
  intro q hq
  induction hq with
  | refl =>
    have hinv := (Life.good hstart).archive.inv
    refine ⟨Pool.Good.init _ _ hinv, fun t pending hw => ?_, fun _ h => absurd h List.not_mem_nil⟩
    exact absurd hw ((Life.owned hstart t rfl).2 pending)
  | @tail q q' _ hnext ih =>
    obtain ⟨⟨ev, ⟨-, hassigned⟩, henv, hevent⟩, hbefore, hafter⟩ := hnext
    obtain ⟨hgood, hdue, hlate⟩ := ih
    have hmeets : q.Meets (discipline c cfg mode) mode.Serves ev := by
      cases ev with
      | spawn r => exact ⟨fun _ => trivial, fun hcollects => ⟨r, hassigned, hcollects⟩⟩
      | act t e =>
        intro r label enabled run next htask _ _ hlabel
        exact ⟨q, q', r, _, e, Pool.Run.assigned hbefore htask, htrue hbefore, htask,
          congrArg some hlabel, rfl, henv, hevent, htrue hafter⟩
      | finish t => exact trivial
      | drop t => exact fun _ => trivial
      | detach t => exact fun _ _ _ _ _ _ => ⟨⟨False.elim, False.elim⟩, trivial⟩
      | late i e =>
        -- no clock reading is left behind
        intro entry hget _ hlabel
        have hdetachable := hlate entry (List.mem_of_getElem? hget)
        rw [hlabel] at hdetachable
        simp [system, Label.detachable] at hdetachable
    obtain ⟨hgood', hstate⟩ := hgood.step (safe_request sqlite) hmeets henv hevent
    refine ⟨hgood', ?_, Pool.step_late hevent hlate⟩
    rcases hstate with heq | ⟨t', hguar⟩
    · rw [heq]
      exact hdue
    · exact SysStep.writerDue hguar hdue

/-- A step that removes a blob row commits the task's open transaction. -/
theorem SysStep.commits {mode : Mode} {t : TaskId} (h : SysStep c cfg mode t s s') {r : BlobRow}
    (hr : r ∈ s.db.blobs) (hgone : ∀ r' ∈ s'.db.blobs, r'.id ≠ r.id) :
    s.writer = some (t, s'.db) := by
  cases h with
  | write hwriter hids h =>
    obtain ⟨r', hr', hfixed⟩ := h.blob_kept hr
    exact absurd (congrArg BlobRow.id hfixed) (hgone r' hr')
  | commitCollect hwriter => exact hwriter
  | _ => exact absurd rfl (hgone r hr)

/-- **`Life.collected`** — a step of a serving archive that removes a blob row is the commit of a
pass, by whose clock reading the row was due. -/
theorem Life.collected {p p' : Server} (h : Life c cfg sqlite (.serving p))
    (hstep : p.Step system (handle c cfg sqlite) (fun _ _ => True) p') {r : BlobRow}
    (hr : r ∈ p.state.db.blobs) (hgone : ∀ r' ∈ p'.state.db.blobs, r'.id ≠ r.id) :
    ∃ t now, Pass c cfg sqlite p t now ∧ p.state.writer = some (t, p'.state.db) ∧
      p.state.db.hasLiveReference r.id = false ∧
      ∃ row ∈ p.state.db.blobs, row.id = r.id ∧
        row.eligible (sortKeyFromTimestamp (.utc now)) = true := by
  obtain ⟨ev, -, henv, hevent⟩ := hstep
  obtain ⟨-, hstate⟩ := (Life.good h).2.step (safe_request sqlite) (meets_any p ev) henv hevent
  rcases hstate with heq | ⟨t, hguar⟩
  · exact absurd rfl (hgone r (heq ▸ hr))
  have hwriter := SysStep.commits hguar hr hgone
  obtain ⟨now, blobId, hpass, hcollect⟩ := h.writerDue hwriter
  refine ⟨t, now, hpass, hwriter, ?_⟩
  rcases collectBlobRow_ok hcollect with ⟨hstep, -⟩ | ⟨row, hrow, -, heligible, hcase⟩
  · simp at hstep
  rcases hcase with ⟨hstep, -⟩ | ⟨-, hfree, hdb⟩
  · simp at hstep
  -- the row that goes is the one the pass found due
  have hid : row.id = r.id := by
    by_contra hne
    refine hgone r ?_ rfl
    rw [hdb]
    exact List.mem_filter.mpr ⟨hr, decide_eq_true (Ne.symm hne)⟩
  refine ⟨?_, row, hrow, hid, heligible⟩
  rw [Bool.eq_false_iff]
  intro hlive
  obtain ⟨a, ha, hblob, -⟩ := Db.hasLiveReference_iff.mp hlive
  exact hfree a ha (hblob.trans hid.symm)

/-! ## §4 — The candidates and the grace period. -/

/-- After the epoch, seconds later is as many microseconds later in keys. -/
theorem sortKey_expirationTime {n : ℤ} (hn : 0 ≤ n) (duration : Duration) :
    sortKeyFromTimestamp (expirationTime (.utc n) duration) =
      sortKeyFromTimestamp (.utc n) + 1000000 * duration.secs := by
  have hkeys : (n + 1000000000 * duration.secs).tdiv 1000 =
      n.tdiv 1000 + 1000000 * duration.secs := by
    rw [Int.tdiv_eq_ediv_of_nonneg hn, Int.tdiv_eq_ediv_of_nonneg (by positivity)]
    omega
  exact hkeys

/-- **`blobGcGrace`** — at every moment of a serving archive, whatever its requests did and however
often it was restarted, a blob row has a live reference exactly when its three candidate columns
are unset, and none exactly when all three are set. And a step that removes a blob row is that of a
garbage collection pass; some deletion took the blob's last reference and it has had none since, and
that deletion's clock reading lies at least the whole seconds of the grace period before the clock
reading of the pass. -/
theorem blobGcGrace {p : Server} (hlife : Life c cfg sqlite (.serving p)) :
    (∀ r ∈ p.state.db.blobs,
      (p.state.db.hasLiveReference r.id = true ↔ r.Unmarked) ∧
      (p.state.db.hasLiveReference r.id = false ↔ r.Marked)) ∧
    ∀ p', p.Step system (handle c cfg sqlite) (fun _ _ => True) p' →
      ∀ r ∈ p.state.db.blobs, (∀ r' ∈ p'.state.db.blobs, r'.id ≠ r.id) →
        ∃ t now, Pass c cfg sqlite p t now ∧ p.state.writer = some (t, p'.state.db) ∧
          (∃ tombstone, OrphanedBy c cfg sqlite r.id tombstone (.serving p)) ∧
          ∀ tombstone, OrphanedBy c cfg sqlite r.id tombstone (.serving p) →
            ∃ n, c.formatRfc3339 (.utc n) = some tombstone.deletedAt ∧
              tombstone.deletedAtSeq = sortKeyFromTimestamp (.utc n) ∧
              sortKeyFromTimestamp (expirationTime (.utc n) cfg.blobGcGrace) ≤
                sortKeyFromTimestamp (.utc now) ∧
              (0 ≤ n → tombstone.deletedAtSeq + 1000000 * cfg.blobGcGrace.secs ≤
                sortKeyFromTimestamp (.utc now)) := by
  have harchive := hlife.good.archive
  refine ⟨fun r hr => harchive.candidates.iff hr, fun p' hstep r hr hgone => ?_⟩
  obtain ⟨t, now, hpass, hwriter, hfree, row, hrow, hid, heligible⟩ :=
    hlife.collected hstep hr hgone
  refine ⟨t, now, hpass, hwriter, hlife.orphaned r hr hfree, fun tombstone horphaned => ?_⟩
  obtain ⟨n, hformat, hseq, -, -, heligibleSeq⟩ := horphaned.scheduled row hrow hid
  rw [BlobRow.eligible, heligibleSeq] at heligible
  have hkey := of_decide_eq_true heligible
  refine ⟨n, hformat, hseq, hkey, fun hn => ?_⟩
  rw [hseq, ← sortKey_expirationTime hn]
  exact hkey

/-- The sample snapshot is archived and deleted, and a pass is about to begin. -/
def orphanedEvents (seconds : ℕ) : List (Event Env Request) :=
  archivedEvents ++ served 3 (.deleteSnapshot (sampleDeletion (sampleUuid 50))) seconds 59 11 ++
    [.spawn .runBlobGc]

/-- The actions of the pass from one on. -/
def passActions (seconds first count : ℕ) : List (Event Env Request) :=
  (List.range count).map fun k => .act 4 (sampleEnv seconds (first + k))

theorem sampled_orphanedEvents (seconds : ℕ) :
    ∀ ev ∈ orphanedEvents seconds, ∀ e ∈ ev.input?, Sampled e := by
  intro ev hev
  rw [orphanedEvents, List.mem_append, List.mem_append] at hev
  rcases hev with (hev | hev) | hev
  · exact sampled_archivedEvents ev hev
  · exact sampled_served (by norm_num) ev hev
  · obtain rfl := List.mem_singleton.mp hev
    simp [Event.input?]

theorem sampled_passActions {seconds first count : ℕ} (h : first + count ≤ 256) :
    ∀ ev ∈ passActions seconds first count, ∀ e ∈ ev.input?, Sampled e := by
  intro ev hev e he
  obtain ⟨k, hk, rfl⟩ := List.mem_map.mp hev
  have hlt := List.mem_range.mp hk
  obtain rfl : sampleEnv seconds (first + k) = e := by simpa [Event.input?] using he
  exact ⟨first + k, by omega, rfl⟩

/-- The pools before and after the sixth action of the pass, its commit, meet a condition. -/
def passReport (c : Crates) (cfg : Config) (deleted passed : ℕ) (check : Server → Server → Bool) :
    Bool :=
  let replayed := fun (p : Server) first count =>
    p.replay system (handle c cfg sampleSqlite) freshEnv (passActions passed first count)
  (lifeReplay c cfg (orphanedEvents deleted)).any fun p₁ =>
    decide ((p₁.tasks 4).map (fun x => (x.1.collectsBlobs, x.2.label?)) = some (true, some .clock))
      &&
      (replayed p₁ 70 1).any fun p₂ => (replayed p₂ 71 4).any fun p =>
        (replayed p 75 1).any fun p' => check p p'

/-- One action that can be replayed is a step. -/
theorem step_of_replay {p p' : Server} {seconds first : ℕ} (hfirst : first < 256)
    (h : p.replay system (handle c cfg sqlite) freshEnv (passActions seconds first 1) = some p') :
    p.EnvOk system (.act 4 (sampleEnv seconds first) : Event Env Request) ∧
      p.step system (handle c cfg sqlite) (.act 4 (sampleEnv seconds first)) = some p' := by
  rw [show passActions seconds first 1 = [.act 4 (sampleEnv seconds first)] from rfl] at h
  unfold Pool.replay at h
  split_ifs at h with hfresh
  obtain ⟨p₁, hstep, hdone⟩ := Option.bind_eq_some_iff.mp h
  obtain rfl := Option.some.inj hdone
  have hsampled : Sampled (sampleEnv seconds first) := ⟨first, hfirst, rfl⟩
  exact ⟨hsampled.envOk hfresh, hstep⟩

theorem exists_pass {deleted passed : ℕ} {check : Server → Server → Bool}
    (h : passReport c cfg deleted passed check = true) : ∃ p p' : Server,
      Life c cfg sampleSqlite (.serving p) ∧
        p.Step system (handle c cfg sampleSqlite) (fun _ _ => True) p' ∧
        Pass c cfg sampleSqlite p 4 (sampleEnv passed 70).now ∧ check p p' = true := by
  obtain ⟨p₁, hp₁, h⟩ := (Option.any_eq_true _ _).mp h
  obtain ⟨hserved, h⟩ := Bool.and_eq_true_iff.mp h
  obtain ⟨p₂, hp₂, h⟩ := (Option.any_eq_true _ _).mp h
  obtain ⟨p, hp, h⟩ := (Option.any_eq_true _ _).mp h
  obtain ⟨p', hp', hcheck⟩ := (Option.any_eq_true _ _).mp h
  obtain ⟨⟨request, rest⟩, htask, hlabel⟩ := Option.map_eq_some_iff.mp (of_decide_eq_true hserved)
  obtain ⟨hcollects, hlabel⟩ := Prod.mk.inj hlabel
  have hlife := life_of_lifeReplay (sampled_orphanedEvents deleted) hp₁
  obtain ⟨s, hstart, hbefore⟩ := hlife.started
  obtain ⟨henv, hread⟩ := step_of_replay (by norm_num) hp₂
  have hafter := serverRun_of_replay (sampled_passActions (by norm_num)) hp
  obtain ⟨henv', hcommit⟩ := step_of_replay (by norm_num) hp'
  have hstep : p₁.Step system (handle c cfg sampleSqlite) (fun _ _ => True) p₂ :=
    ⟨_, trivial, henv, hread⟩
  exact ⟨p, p', Life.run (hlife.tail (.event hstep)) hafter, ⟨_, trivial, henv', hcommit⟩,
    ⟨s, p₁, p₂, request, rest, _, hstart, hbefore, htask, hcollects, hlabel, rfl, henv, hread,
      hafter⟩,
    hcheck⟩

/-- One second after the deletion the grace period of one second is over. -/
theorem blobGcGrace_sample : ∃ p p' : Server,
    Life sampleCrates sampleConfig sampleSqlite (.serving p) ∧
      p.Step system (handle sampleCrates sampleConfig sampleSqlite) (fun _ _ => True) p' ∧
      ∃ r ∈ p.state.db.blobs, r.Marked ∧ (∀ r' ∈ p'.state.db.blobs, r'.id ≠ r.id) ∧
        ∃ t now, Pass sampleCrates sampleConfig sampleSqlite p t now ∧
          (∃ tombstone, OrphanedBy sampleCrates sampleConfig sampleSqlite r.id tombstone
            (.serving p)) ∧
          ∀ tombstone, OrphanedBy sampleCrates sampleConfig sampleSqlite r.id tombstone
              (.serving p) →
            ∃ n, tombstone.deletedAtSeq = sortKeyFromTimestamp (.utc n) ∧
              sortKeyFromTimestamp (expirationTime (.utc n) (.fromSecs 1)) ≤
                sortKeyFromTimestamp (.utc now) := by
  have hreport : passReport sampleCrates sampleConfig 1 2 (fun p p' =>
      p.state.db.blobs.any fun r => !p.state.db.hasLiveReference r.id &&
        p'.state.db.blobs.all fun r' => decide (r'.id ≠ r.id)) = true := by
    decide +kernel
  obtain ⟨p, p', hlife, hstep, -, hcheck⟩ := exists_pass hreport
  obtain ⟨r, hr, hcheck⟩ := List.any_eq_true.mp hcheck
  obtain ⟨hfree, hgone⟩ := Bool.and_eq_true_iff.mp hcheck
  have hgone' : ∀ r' ∈ p'.state.db.blobs, r'.id ≠ r.id := by simpa using hgone
  obtain ⟨hmarks, hgrace⟩ := blobGcGrace hlife
  obtain ⟨t, now, hpass, -, horphaned, hbegan⟩ := hgrace p' hstep r hr hgone'
  refine ⟨p, p', hlife, hstep, r, hr, (hmarks r hr).2.mp (by simpa using hfree), hgone', t, now,
    hpass,
    horphaned, fun tombstone h => ?_⟩
  obtain ⟨n, -, hseq, hkey, -⟩ := hbegan tombstone h
  exact ⟨n, hseq, hkey⟩

/-! ## §5 — A fraction of a second. -/

/-- A configuration that passes its check with a grace period of a minute and half a second. -/
def fractionConfig : ServerConfig :=
  { minuteConfig with
    adminDeletionEnabled := true
    blobGcGrace := ⟨60, 500000000, by norm_num⟩ }

theorem fractionConfig_valid : fractionConfig.validate = .ok () := by
  decide +kernel

/-- **`blobGcGrace_fraction`** — under that configuration a pass removes a blob whose last reference
was taken a minute before, half a second too early. -/
theorem blobGcGrace_fraction : fractionConfig.validate = .ok () ∧ ∃ p p' : Server,
    Life minuteCrates fractionConfig.toConfig sampleSqlite (.serving p) ∧
      p.Step system (handle minuteCrates fractionConfig.toConfig sampleSqlite)
        (fun _ _ => True) p' ∧
      ∃ r ∈ p.state.db.blobs, (∀ r' ∈ p'.state.db.blobs, r'.id ≠ r.id) ∧
        ∃ t now tombstone, Pass minuteCrates fractionConfig.toConfig sampleSqlite p t now ∧
          OrphanedBy minuteCrates fractionConfig.toConfig sampleSqlite r.id tombstone (.serving p) ∧
          sortKeyFromTimestamp (.utc now) <
            tombstone.deletedAtSeq + fractionConfig.blobGcGrace.asNanos / 1000 := by
  refine ⟨fractionConfig_valid, ?_⟩
  have hreport : passReport minuteCrates fractionConfig.toConfig 0 60 (fun p p' =>
      p.state.db.blobs.any fun r => decide (r.orphanedAt = some "2026-01-01T00:00:00Z") &&
        p'.state.db.blobs.all fun r' => decide (r'.id ≠ r.id)) = true := by
    decide +kernel
  obtain ⟨p, p', hlife, hstep, hpass, hcheck⟩ := exists_pass hreport
  obtain ⟨r, hr, hcheck⟩ := List.any_eq_true.mp hcheck
  obtain ⟨hmark, hgone⟩ := Bool.and_eq_true_iff.mp hcheck
  have hgone' : ∀ r' ∈ p'.state.db.blobs, r'.id ≠ r.id := by simpa using hgone
  obtain ⟨-, -, -, -, hfree, -⟩ := hlife.collected hstep hr hgone'
  obtain ⟨tombstone, horphaned⟩ := hlife.orphaned r hr hfree
  refine ⟨p, p', hlife, hstep, r, hr, hgone', 4, _, tombstone, hpass, horphaned, ?_⟩
  obtain ⟨n, hformat, hseq, hmark', -⟩ := horphaned.scheduled r hr rfl
  -- the deletion read the first of the sample times
  have htime : minuteCrates.formatRfc3339 (.utc n) = some "2026-01-01T00:00:00Z" := by
    rw [hformat, ← hmark', of_decide_eq_true hmark]
  have hn : n = 1767225600000000000 := by
    have hread := minuteCrates_rfc3339Reads.parse_format _ _ htime
    have hfirst : minuteCrates.parseRfc3339 "2026-01-01T00:00:00Z" =
        some (.utc 1767225600000000000) := by decide +kernel
    rw [hfirst] at hread
    exact (congrArg OffsetDateTime.nanos (Option.some.inj hread)).symm
  rw [hseq, hn]
  decide

end Patwari
