/-
# Patwari.Tombstones — deleted snapshots and those that follow them.

A deletion leaves a tombstone and an audit; when the state is archived again, the new snapshot and
the newest tombstone of its identity are linked. §1 says what a step can do to the three tables, §2
that a snapshot is deleted exactly when it has its tombstone and its audit. §3 is the chain that the
snapshots of one identity form, with the tombstones between them, and how it grows. The newest
tombstone is the newest by the clock: §4 shows that the chain holds as long as every new snapshot
finds the deletion recorded last to be the newest, §5 a run with the clock in order and one in which
the clock steps back and the chain breaks.
-/
import Patwari.Snapshots

namespace Patwari

open Lib (TaskId Event Pool UniqueOn updateWhere mem_updateWhere)

variable {c : Crates} {cfg : Config} {s s' : Shared} {db db' : Db}

/-! ## §1 — What a step does to the history. -/

/-- The session and the fingerprint of the snapshot a tombstone stands for. -/
def TombstoneRow.identity (r : TombstoneRow) : String × String :=
  (r.sessionId, r.snapshotFingerprintSha256)

/-- The newest tombstone of an identity, as a completion reads it. -/
def Db.priorOf (db : Db) (row : SnapshotRow) : Option TombstoneRow :=
  db.priorTombstone row.sessionId row.fingerprintSha256

/-- **`HistoryStep`** — what a step can do to snapshots, tombstones and deletion audits. -/
inductive HistoryStep (db db' : Db) : Prop
  | stays (hs : db'.snapshots = db.snapshots) (ht : db'.tombstones = db.tombstones)
      (ha : db'.deletionAudits = db.deletionAudits)
  | recorded (row : SnapshotRow) (hlive : row.live = true)
      (hfresh : ∀ r ∈ db.snapshots, r.id ≠ row.id)
      (hfree : ∀ r ∈ db.snapshots, r.identity = row.identity → r.live = false)
      (hfrom : row.rearchivedFromTombstoneId = (db.priorOf row).map TombstoneRow.id)
      (hs : db'.snapshots = db.snapshots ++ [row])
      (ht : db'.tombstones = linkedTombstones row.id (db.priorOf row) db.tombstones)
      (ha : db'.deletionAudits = db.deletionAudits)
  | deleted (snapshot : SnapshotRow) (tombstone : TombstoneRow) (audit : DeletionAuditRow)
      (deletedAt : String) (hmem : snapshot ∈ db.snapshots) (hlive : snapshot.live = true)
      (hid : tombstone.snapshotId = snapshot.id)
      (hidentity : tombstone.identity = snapshot.identity)
      (hnone : tombstone.rearchivedSnapshotId = none) (haid : audit.snapshotId = snapshot.id)
      (hfresh : ∀ r ∈ db.tombstones, r.id ≠ tombstone.id ∧ r.snapshotId ≠ snapshot.id)
      (hafresh : ∀ r ∈ db.deletionAudits, r.snapshotId ≠ snapshot.id)
      (hs : db'.snapshots = updateWhere (fun r => decide (r.id = snapshot.id) && r.live)
        (fun r => { r with deletedAt := some deletedAt }) db.snapshots)
      (ht : db'.tombstones = db.tombstones ++ [tombstone])
      (ha : db'.deletionAudits = db.deletionAudits ++ [audit])

theorem Effect.historyStep {mode : Mode} {t : TaskId} {ids : List String}
    (h : Effect c cfg mode t s ids db) : HistoryStep s.db db := by
  cases h with
  | recorded x row manifestRow blobIds hx hattach hblobs hrow hfresh hfree hrows hcontexts =>
    obtain ⟨original, stored, -, -, rfl⟩ := snapshotRow_ok hrow
    refine .recorded _ rfl (fun r hr hid => ?_) (fun r hr hidentity => ?_) rfl rfl rfl rfl
    · have hmiss := List.find?_eq_none.mp hfresh r hr
      simp [hid] at hmiss
    · have hmiss := List.find?_eq_none.mp hfree r hr
      obtain ⟨hsession, hfingerprint⟩ := Prod.mk.inj hidentity
      simpa [hsession, hfingerprint] using hmiss
  | deleted x snapshot manifest hx hrow hlive hfresh =>
    rw [foldl_scheduleOrClearBlobCandidate]
    obtain ⟨hmem, hid, -⟩ := Db.snapshotDeletionRow_some hrow
    simp only [Db.deletionRecorded, Bool.or_eq_false_iff, List.any_eq_false, decide_eq_true_eq,
      not_or] at hfresh
    refine .deleted snapshot (tombstoneRow x snapshot manifest)
      (deletionAuditRow x snapshot manifest) x.deletedAt hmem hlive rfl rfl rfl rfl
      (fun r hr => ?_) (fun r hr => ?_) rfl rfl rfl
    · rw [hid]
      exact hfresh.1 r hr
    · rw [hid]
      exact (hfresh.2 r hr).2.2
  | _ => exact .stays rfl rfl rfl

theorem DbMoved.historyStep (h : DbMoved c cfg s s') : HistoryStep s.db s'.db := by
  cases h with
  | stays hdb hused =>
    rw [hdb]
    exact .stays rfl rfl rfl
  | writes hfresh heffect hused => exact heffect.historyStep
  | collects hcollects hused =>
    obtain ⟨row, -, -, heq⟩ := hcollects
    rw [heq]
    exact .stays rfl rfl rfl
  | chunks keep hdb hused =>
    rw [hdb]
    exact .stays rfl rfl rfl
  | legacy uploadId artifact chunkSize now expiresAt hactive hdb hused =>
    rw [hdb]
    exact .stays rfl rfl rfl
  | contexts hdb hused =>
    rw [hdb]
    exact .stays rfl rfl rfl

/-! ## §2 — Deleted snapshots. -/

/-- **`Db.Deletions`** — every deleted snapshot has one tombstone and one audit, and no other
snapshot has any. -/
structure Db.Deletions (db : Db) : Prop where
  tombstoneIds : UniqueOn TombstoneRow.id db.tombstones
  tombstonesOnce : UniqueOn TombstoneRow.snapshotId db.tombstones
  auditsOnce : UniqueOn DeletionAuditRow.snapshotId db.deletionAudits
  tombstones : ∀ t ∈ db.tombstones, ∃ r ∈ db.snapshots, r.id = t.snapshotId ∧ r.live = false
  audits : ∀ a ∈ db.deletionAudits, ∃ r ∈ db.snapshots, r.id = a.snapshotId ∧ r.live = false
  deleted : ∀ r ∈ db.snapshots, r.live = false → (∃ t ∈ db.tombstones, t.snapshotId = r.id) ∧
    ∃ a ∈ db.deletionAudits, a.snapshotId = r.id

theorem Db.Deletions.empty : Db.empty.Deletions := by
  constructor <;> simp [Db.empty, UniqueOn]

/-- Linking a tombstone changes neither the snapshot it stands for nor its identifier. -/
theorem mem_linkedTombstones {snapshotId : String} {prior : Option TombstoneRow}
    {tombstones : List TombstoneRow} {t : TombstoneRow}
    (ht : t ∈ linkedTombstones snapshotId prior tombstones) :
    ∃ t₀ ∈ tombstones, t.id = t₀.id ∧ t.snapshotId = t₀.snapshotId ∧ t.identity = t₀.identity := by
  unfold linkedTombstones at ht
  split at ht
  · exact ⟨t, ht, rfl, rfl, rfl⟩
  · obtain ⟨t₀, ht₀, rfl⟩ := mem_updateWhere.mp ht
    refine ⟨t₀, ht₀, ?_⟩
    split <;> exact ⟨rfl, rfl, rfl⟩

theorem linkedTombstones_map {κ : Type} (key : TombstoneRow → κ)
    (hkey : ∀ (t : TombstoneRow) id, key { t with rearchivedSnapshotId := id } = key t)
    (snapshotId : String) (prior : Option TombstoneRow) (tombstones : List TombstoneRow) :
    (linkedTombstones snapshotId prior tombstones).map key = tombstones.map key := by
  unfold linkedTombstones
  split
  · rfl
  · unfold updateWhere
    rw [List.map_map]
    refine List.map_congr_left fun t _ => ?_
    show key (if _ then _ else t) = key t
    split
    · exact hkey t _
    · rfl

/-- A deleted snapshot stays deleted, and keeps its identifier. -/
theorem dead_deleted {id deletedAt : String} {rows : List SnapshotRow} {r : SnapshotRow}
    (hr : r ∈ rows) (hdead : r.live = false) :
    r ∈ updateWhere (fun r => decide (r.id = id) && r.live)
      (fun r => { r with deletedAt := some deletedAt }) rows := by
  refine Lib.mem_updateWhere_of_not hr ?_
  rw [hdead, Bool.and_false]

theorem HistoryStep.deletions (h : HistoryStep db db') (hd : db.Deletions) : db'.Deletions := by
  cases h with
  | stays hs ht ha =>
    constructor
    · rw [ht]
      exact hd.tombstoneIds
    · rw [ht]
      exact hd.tombstonesOnce
    · rw [ha]
      exact hd.auditsOnce
    · rw [ht, hs]
      exact hd.tombstones
    · rw [ha, hs]
      exact hd.audits
    · rw [hs, ht, ha]
      exact hd.deleted
  | recorded row hlive hfresh hfree hfrom hs ht ha =>
    have hmap := linkedTombstones_map TombstoneRow.snapshotId (fun _ _ => rfl) row.id
      (db.priorOf row) db.tombstones
    have hkeep : ∀ {id : String}, (∃ r ∈ db.snapshots, r.id = id ∧ r.live = false) →
        ∃ r ∈ db'.snapshots, r.id = id ∧ r.live = false := by
      rintro id ⟨r, hr, hrest⟩
      rw [hs]
      exact ⟨r, List.mem_append_left _ hr, hrest⟩
    refine ⟨?_, ?_, ?_, fun t hmem => ?_, fun a hmem => ?_, fun r hr hdead => ?_⟩
    · unfold UniqueOn
      rw [ht, linkedTombstones_map TombstoneRow.id fun _ _ => rfl]
      exact hd.tombstoneIds
    · unfold UniqueOn
      rw [ht, hmap]
      exact hd.tombstonesOnce
    · rw [ha]
      exact hd.auditsOnce
    · rw [ht] at hmem
      obtain ⟨t₀, ht₀, -, hid, -⟩ := mem_linkedTombstones hmem
      rw [hid]
      exact hkeep (hd.tombstones t₀ ht₀)
    · rw [ha] at hmem
      exact hkeep (hd.audits a hmem)
    · rw [hs] at hr
      rcases List.mem_append.mp hr with hr | hr
      · obtain ⟨⟨t, htmem, hid⟩, haudit⟩ := hd.deleted r hr hdead
        refine ⟨?_, ha ▸ haudit⟩
        have hid' : r.id ∈ db'.tombstones.map TombstoneRow.snapshotId := by
          rw [ht, hmap, ← hid]
          exact List.mem_map_of_mem htmem
        exact List.mem_map.mp hid'
      · rw [List.mem_singleton.mp hr, hlive] at hdead
        exact absurd hdead (by simp)
  | deleted snapshot tombstone audit deletedAt hmem hlive hid hidentity hnone haid hfresh hafresh hs
      ht ha =>
    have hdead : ∃ r ∈ db'.snapshots, r.id = snapshot.id ∧ r.live = false := by
      refine ⟨_, hs ▸ mem_updateWhere.mpr ⟨snapshot, hmem, rfl⟩, ?_⟩
      rw [hlive, if_pos (by simp)]
      exact ⟨rfl, rfl⟩
    have hkeep : ∀ {id : String}, (∃ r ∈ db.snapshots, r.id = id ∧ r.live = false) →
        ∃ r ∈ db'.snapshots, r.id = id ∧ r.live = false := by
      rintro id ⟨r, hr, hrid, hrdead⟩
      rw [hs]
      exact ⟨r, dead_deleted hr hrdead, hrid, hrdead⟩
    refine ⟨?_, ?_, ?_, fun t hmem => ?_, fun a hmem => ?_, fun r' hr' hdead' => ?_⟩
    · rw [ht]
      exact hd.tombstoneIds.append fun r hr => (hfresh r hr).1
    · rw [ht]
      exact hd.tombstonesOnce.append fun r hr => hid ▸ (hfresh r hr).2
    · rw [ha]
      exact hd.auditsOnce.append fun r hr => haid ▸ hafresh r hr
    · rw [ht] at hmem
      rcases List.mem_append.mp hmem with hmem | hmem
      · exact hkeep (hd.tombstones t hmem)
      · rw [List.mem_singleton.mp hmem, hid]
        exact hdead
    · rw [ha] at hmem
      rcases List.mem_append.mp hmem with hmem | hmem
      · exact hkeep (hd.audits a hmem)
      · rw [List.mem_singleton.mp hmem, haid]
        exact hdead
    · rw [ht, ha]
      rw [hs] at hr'
      obtain ⟨r, hr, rfl⟩ := mem_updateWhere.mp hr'
      by_cases hsel : (decide (r.id = snapshot.id) && r.live) = true
      · rw [if_pos hsel]
        rw [Bool.and_eq_true, decide_eq_true_eq] at hsel
        exact ⟨⟨tombstone, List.mem_append_right _ List.mem_cons_self, hid.trans hsel.1.symm⟩,
          audit, List.mem_append_right _ List.mem_cons_self, haid.trans hsel.1.symm⟩
      · rw [if_neg hsel] at hdead' ⊢
        obtain ⟨⟨t, htmem, htid⟩, a, hamem, hrid⟩ := hd.deleted r hr hdead'
        exact ⟨⟨t, List.mem_append_left _ htmem, htid⟩, a, List.mem_append_left _ hamem, hrid⟩

/-! ## §3 — The chain of an identity. -/

/-- **`Chain`** — the snapshots of an identity in the order they were made, with the tombstones in
the order they were written. Each snapshot but the first is linked from the tombstone just before
it, and each tombstone to the snapshot just after it. Only the last snapshot may be live. -/
inductive Chain : Option String → List SnapshotRow → List TombstoneRow → Prop
  | nil (before : Option String) : Chain before [] []
  | live {before : Option String} (r : SnapshotRow) (hfrom : r.rearchivedFromTombstoneId = before)
      (hlive : r.live = true) : Chain before [r] []
  | deleted {before : Option String} (r : SnapshotRow) (t : TombstoneRow) {rest : List SnapshotRow}
      {ts : List TombstoneRow} (hfrom : r.rearchivedFromTombstoneId = before)
      (hdead : r.live = false)
      (hid : t.snapshotId = r.id) (hlink : t.rearchivedSnapshotId = rest.head?.map SnapshotRow.id)
      (h : Chain (some t.id) rest ts) : Chain before (r :: rest) (t :: ts)

namespace Chain

variable {before : Option String} {rs : List SnapshotRow} {ts : List TombstoneRow}
  {r row : SnapshotRow} {t : TombstoneRow}

/-- The first snapshot is linked from what came before. -/
theorem head_from (h : Chain before rs ts) (hr : rs.head? = some r) :
    r.rearchivedFromTombstoneId = before := by
  cases h with
  | nil => simp at hr
  | live r' hfrom hlive => rwa [← Option.some.inj hr]
  | deleted r' t hfrom hdead hid hlink h => rwa [← Option.some.inj hr]

/-- A tombstone's link leads to a snapshot that is linked from it. -/
theorem of_link (h : Chain before rs ts) (ht : t ∈ ts) {id : String}
    (hlink : t.rearchivedSnapshotId = some id) :
    ∃ r ∈ rs, r.id = id ∧ r.rearchivedFromTombstoneId = some t.id := by
  induction h with
  | nil => simp at ht
  | live r hfrom hlive => simp at ht
  | @deleted before r t' rest ts hfrom hdead hid hlink' hrest ih =>
    rcases List.mem_cons.mp ht with rfl | ht
    · rw [hlink'] at hlink
      obtain ⟨next, hnext, hnextId⟩ := Option.map_eq_some_iff.mp hlink
      exact ⟨next, List.mem_cons_of_mem _ (List.mem_of_mem_head? hnext), hnextId,
        hrest.head_from hnext⟩
    · obtain ⟨r', hr', hrest'⟩ := ih ht
      exact ⟨r', List.mem_cons_of_mem _ hr', hrest'⟩

/-- A snapshot is the first, or linked from a tombstone that leads to it. -/
theorem of_from (h : Chain before rs ts) (hr : r ∈ rs) :
    (rs.head? = some r ∧ r.rearchivedFromTombstoneId = before) ∨
      ∃ t ∈ ts, r.rearchivedFromTombstoneId = some t.id ∧ t.rearchivedSnapshotId = some r.id := by
  induction h with
  | nil => simp at hr
  | live r' hfrom hlive =>
    obtain rfl := List.mem_singleton.mp hr
    exact Or.inl ⟨rfl, hfrom⟩
  | @deleted before r' t rest ts hfrom hdead hid hlink hrest ih =>
    rcases List.mem_cons.mp hr with rfl | hr
    · exact Or.inl ⟨rfl, hfrom⟩
    · rcases ih hr with ⟨hhead, hfrom⟩ | ⟨t', ht', hboth⟩
      · refine Or.inr ⟨t, List.mem_cons_self, hfrom, ?_⟩
        rw [hlink, hhead, Option.map_some]
      · exact Or.inr ⟨t', List.mem_cons_of_mem _ ht', hboth⟩

/-- What the next snapshot is linked from: the last tombstone, or what came before the chain. -/
def last (before : Option String) (ts : List TombstoneRow) : Option String :=
  match ts.getLast? with
  | some t => some t.id
  | none => before

/-- **`Chain.archived`** — a chain without a live snapshot takes a new one, linked both ways with
the last tombstone. -/
theorem archived (h : Chain before rs ts) (hdead : ∀ r ∈ rs, r.live = false)
    (hu : UniqueOn TombstoneRow.id ts) (hlive : row.live = true)
    (hnew : row.rearchivedFromTombstoneId = last before ts) :
    Chain before (rs ++ [row]) (linkedTombstones row.id ts.getLast? ts) := by
  induction h with
  | nil before => exact .live row hnew hlive
  | live r hfrom hlive' =>
    rw [hdead r List.mem_cons_self] at hlive'
    exact absurd hlive' (by simp)
  | @deleted before r t rest ts hfrom hdead' hid hlink hrest ih =>
    have hu' : UniqueOn TombstoneRow.id ts := (List.nodup_cons.mp hu).2
    cases hlast : ts.getLast? with
    | none =>
      -- the tombstone is the last, and the snapshot after it is the new one
      obtain rfl := List.getLast?_eq_none_iff.mp hlast
      cases hrest with
      | live r' hfrom' hlive' =>
        rw [hdead r' (List.mem_cons_of_mem _ List.mem_cons_self)] at hlive'
        exact absurd hlive' (by simp)
      | nil =>
        have hlinked : linkedTombstones row.id (some t) [t] =
            [{ t with rearchivedSnapshotId := some row.id }] := by
          simp [linkedTombstones, updateWhere, hlink]
        show Chain before (r :: ([] ++ [row])) (linkedTombstones row.id (some t) [t])
        rw [hlinked]
        exact .deleted r _ hfrom hdead' hid rfl (.live row hnew hlive)
    | some t' =>
      have hmem : t' ∈ ts := List.mem_of_getLast? hlast
      have hlast' : (t :: ts).getLast? = some t' := by
        rw [List.getLast?_cons, hlast, Option.getD_some]
      have hne : t.id ≠ t'.id := fun hsame =>
        (List.nodup_cons.mp hu).1 (List.mem_map.mpr ⟨t', hmem, hsame.symm⟩)
      have hsplit : linkedTombstones row.id (some t') (t :: ts) =
          t :: linkedTombstones row.id (some t') ts := by
        simp [linkedTombstones, updateWhere, hne]
      unfold last at hnew ih
      rw [hlast'] at hnew
      rw [hlast] at ih
      rw [hlast', hsplit, List.cons_append]
      refine .deleted r t hfrom hdead' hid ?_
        (ih (fun r hr => hdead r (List.mem_cons_of_mem _ hr)) hu' hnew)
      -- the snapshots after it are not empty, as tombstones follow
      cases hrest with
      | nil => simp at hmem
      | live r' hfrom' hlive' => simp at hmem
      | deleted r' t'' hfrom' hdead'' hid' hlink' hrest' => exact hlink

/-- **`Chain.buried`** — the live snapshot of a chain is deleted, and its tombstone is the last. -/
theorem buried (h : Chain before rs ts) (deletedAt : String) (hr : r ∈ rs) (hlive : r.live = true)
    (hu : UniqueOn SnapshotRow.id rs) (hid : t.snapshotId = r.id)
    (hnone : t.rearchivedSnapshotId = none) :
    Chain before (updateWhere (fun x => decide (x.id = r.id) && x.live)
      (fun x => { x with deletedAt := some deletedAt }) rs) (ts ++ [t]) := by
  induction h with
  | nil before => simp at hr
  | live r' hfrom hlive' =>
    obtain rfl := List.mem_singleton.mp hr
    have hupdate : updateWhere (fun x => decide (x.id = r.id) && x.live)
        (fun x => { x with deletedAt := some deletedAt }) [r] =
          [{ r with deletedAt := some deletedAt }] := by
      simp [updateWhere, hlive]
    rw [hupdate]
    exact .deleted _ t hfrom rfl hid hnone (.nil _)
  | @deleted before r' t' rest ts hfrom hdead hid' hlink hrest ih =>
    have hne : r' ≠ r := by
      rintro rfl
      rw [hdead] at hlive
      exact absurd hlive (by simp)
    have hmem : r ∈ rest := (List.mem_cons.mp hr).resolve_left hne.symm
    have hupdate : updateWhere (fun x => decide (x.id = r.id) && x.live)
        (fun x => { x with deletedAt := some deletedAt }) (r' :: rest) =
          r' :: updateWhere (fun x => decide (x.id = r.id) && x.live)
            (fun x => { x with deletedAt := some deletedAt }) rest := by
      simp [updateWhere, hdead]
    rw [hupdate, List.cons_append]
    refine .deleted r' t' hfrom hdead hid' ?_ (ih hmem (List.nodup_cons.mp hu).2)
    rw [hlink]
    cases rest with
    | nil => rfl
    | cons next rest =>
      show some next.id = some (SnapshotRow.id (if _ then _ else next))
      split <;> rfl

end Chain

/-! ## §4 — The order of the clock. -/

/-- `(deleted_at_seq, id)` is smaller. -/
def TombstoneRow.older (a b : TombstoneRow) : Prop :=
  a.deletedAtSeq < b.deletedAtSeq ∨ a.deletedAtSeq = b.deletedAtSeq ∧ a.id < b.id

instance : DecidableRel TombstoneRow.older := fun a b =>
  inferInstanceAs (Decidable (a.deletedAtSeq < b.deletedAtSeq ∨
    a.deletedAtSeq = b.deletedAtSeq ∧ a.id < b.id))

theorem TombstoneRow.older.notOlder {a b : TombstoneRow} (h : a.older b) : b.notOlder a := by
  rcases h with hseq | ⟨hseq, hid⟩
  · exact Or.inl hseq
  · exact Or.inr ⟨hseq, hid.le⟩

theorem TombstoneRow.notOlder_refl (a : TombstoneRow) : a.notOlder a := Or.inr ⟨rfl, le_rfl⟩

theorem TombstoneRow.notOlder_antisymm {a b : TombstoneRow} (hab : a.notOlder b)
    (hba : b.notOlder a) : a.id = b.id := by
  unfold TombstoneRow.notOlder at *
  rcases hab with hab | ⟨hab, hid⟩
  · rcases hba with hba | ⟨hba, -⟩ <;> omega
  · rcases hba with hba | ⟨-, hid'⟩
    · omega
    · exact le_antisymm hid' hid

theorem TombstoneRow.notOlder_total (a b : TombstoneRow) : a.notOlder b ∨ b.notOlder a := by
  unfold TombstoneRow.notOlder
  rcases lt_trichotomy a.deletedAtSeq b.deletedAtSeq with hseq | hseq | hseq
  · exact Or.inr (Or.inl hseq)
  · rcases le_total a.id b.id with hid | hid
    · exact Or.inr (Or.inr ⟨hseq, hid⟩)
    · exact Or.inl (Or.inr ⟨hseq.symm, hid⟩)
  · exact Or.inl (Or.inl hseq)

theorem TombstoneRow.notOlder_trans {a b d : TombstoneRow} (hab : a.notOlder b)
    (hbd : b.notOlder d) : a.notOlder d := by
  unfold TombstoneRow.notOlder at *
  rcases hab with hab | ⟨hab, hid⟩
  · exact Or.inl (by omega)
  · rcases hbd with hbd | ⟨hbd, hid'⟩
    · exact Or.inl (by omega)
    · exact Or.inr ⟨by omega, hid'.trans hid⟩

/-- Where no tombstone is newer than the last, the newest is the last. -/
theorem head?_insertionSort_notOlder {ts : List TombstoneRow} (hu : UniqueOn TombstoneRow.id ts)
    (h : ∀ last, ts.getLast? = some last → ∀ t ∈ ts, last.notOlder t) :
    (ts.insertionSort TombstoneRow.notOlder).head? = ts.getLast? := by
  have htotal : Std.Total TombstoneRow.notOlder := ⟨TombstoneRow.notOlder_total⟩
  have htrans : IsTrans _ TombstoneRow.notOlder := ⟨fun _ _ _ => TombstoneRow.notOlder_trans⟩
  have hsorted := List.pairwise_insertionSort TombstoneRow.notOlder ts
  cases hlast : ts.getLast? with
  | none =>
    rw [List.getLast?_eq_none_iff.mp hlast]
    rfl
  | some last =>
    have hmem : last ∈ ts.insertionSort TombstoneRow.notOlder :=
      (List.mem_insertionSort _).mpr (List.mem_of_getLast? hlast)
    obtain ⟨top, rest, hrest⟩ := List.exists_cons_of_ne_nil (List.ne_nil_of_mem hmem)
    have htop : top ∈ ts := by
      rw [← List.mem_insertionSort TombstoneRow.notOlder, hrest]
      exact List.mem_cons_self
    rw [hrest] at hsorted hmem ⊢
    refine congrArg some ?_
    rcases List.mem_cons.mp hmem with heq | hmem
    · exact heq.symm
    · -- neither is older than the other, so they are one row
      refine hu.eq_of_mem htop (List.mem_of_getLast? hlast) ?_
      exact TombstoneRow.notOlder_antisymm (List.rel_of_pairwise_cons hsorted hmem)
        (h last hlast top htop)

/-- The snapshots and the tombstones of an identity, in the order of their rows. -/
def Db.snapshotsOf (db : Db) (identity : String × String) : List SnapshotRow :=
  db.snapshots.filter fun r => decide (r.identity = identity)

def Db.tombstonesOf (db : Db) (identity : String × String) : List TombstoneRow :=
  db.tombstones.filter fun t => decide (t.identity = identity)

/-- **`Db.Chains`** — every identity forms a chain. -/
def Db.Chains (db : Db) : Prop :=
  ∀ identity, Chain none (db.snapshotsOf identity) (db.tombstonesOf identity)

theorem Db.Chains.empty : Db.empty.Chains := fun _ => .nil none

/-- The deletion of this identity that was recorded last has the greatest key: its clock reading,
and the identifier generated for its tombstone where readings are equal. -/
def Db.InOrder (db : Db) (identity : String × String) : Prop :=
  ∀ last, (db.tombstonesOf identity).getLast? = some last →
    ∀ t ∈ db.tombstonesOf identity, last.notOlder t

/-- The tombstone a completion reads is then the last of its identity. -/
theorem Db.InOrder.priorOf (hd : db.Deletions) {row : SnapshotRow} (h : db.InOrder row.identity) :
    db.priorOf row = (db.tombstonesOf row.identity).getLast? := by
  refine Eq.trans ?_ (head?_insertionSort_notOlder (hd.tombstoneIds.filter _) h)
  unfold Db.priorOf Db.priorTombstone Db.tombstonesOf TombstoneRow.identity SnapshotRow.identity
  simp only [Prod.mk.injEq]

/-- Deletions whose keys rise are in order. -/
theorem Db.inOrder_of_pairwise {identity : String × String}
    (h : (db.tombstonesOf identity).Pairwise TombstoneRow.older) : db.InOrder identity := by
  intro last hlast t ht
  obtain ⟨init, hsplit⟩ := List.getLast?_eq_some_iff.mp hlast
  rw [hsplit] at h ht
  rcases List.mem_append.mp ht with ht | ht
  · exact ((List.pairwise_append.mp h).2.2 t ht last List.mem_cons_self).notOlder
  · obtain rfl := List.mem_singleton.mp ht
    exact t.notOlder_refl

/-- Each snapshot a step records finds the deletions of its identity in order. -/
def Timely (db db' : Db) : Prop :=
  ∀ r ∈ db'.snapshots, (∀ r₀ ∈ db.snapshots, r₀.id ≠ r.id) → db.InOrder r.identity

/-- Updates that keep what a filter looks at pass through it. -/
theorem filter_updateWhere {ρ : Type} {p q : ρ → Bool} {f : ρ → ρ} {rows : List ρ}
    (hq : ∀ r, q (f r) = q r) :
    (updateWhere p f rows).filter q = updateWhere p f (rows.filter q) := by
  unfold updateWhere
  rw [List.filter_map]
  refine congrArg (List.map _) (List.filter_congr fun r _ => ?_)
  show q (if p r then f r else r) = q r
  split
  · exact hq r
  · rfl

/-- Updates that select no row change nothing. -/
theorem updateWhere_eq_self {ρ : Type} {p : ρ → Bool} {f : ρ → ρ} {rows : List ρ}
    (hp : ∀ r ∈ rows, p r = false) : updateWhere p f rows = rows := by
  unfold updateWhere
  refine (List.map_congr_left fun r hr => ?_).trans (List.map_id _)
  rw [hp r hr]
  rfl

/-- Linking a tombstone links it among those of its identity. -/
theorem tombstonesOf_linked {snapshotId : String} {prior : Option TombstoneRow}
    (ht : db'.tombstones = linkedTombstones snapshotId prior db.tombstones)
    (k : String × String) :
    db'.tombstonesOf k = linkedTombstones snapshotId prior (db.tombstonesOf k) := by
  unfold Db.tombstonesOf
  rw [ht]
  cases prior with
  | none => rfl
  | some t => exact filter_updateWhere fun _ => rfl

/-- **`HistoryStep.chains`** — a timely step keeps every chain. -/
theorem HistoryStep.chains (h : HistoryStep db db') (hd : db.Deletions)
    (hu : UniqueOn SnapshotRow.id db.snapshots) (htimely : Timely db db') (hc : db.Chains) :
    db'.Chains := by
  intro k
  cases h with
  | stays hs ht ha =>
    unfold Db.snapshotsOf Db.tombstonesOf
    rw [hs, ht]
    exact hc k
  | recorded row hlive hfresh hfree hfrom hs ht ha =>
    have hprior := Db.InOrder.priorOf hd
      (htimely row (hs ▸ List.mem_append_right _ List.mem_cons_self) hfresh)
    by_cases hk : row.identity = k
    · subst hk
      have hsnaps : db'.snapshotsOf row.identity = db.snapshotsOf row.identity ++ [row] := by
        unfold Db.snapshotsOf
        rw [hs, List.filter_append]
        simp
      rw [hsnaps, tombstonesOf_linked ht, hprior]
      refine (hc row.identity).archived (fun r hr => ?_) (hd.tombstoneIds.filter _) hlive ?_
      · obtain ⟨hr, hsame⟩ := List.mem_filter.mp hr
        exact hfree r hr (of_decide_eq_true hsame)
      · rw [hfrom, hprior]
        unfold Chain.last
        cases (db.tombstonesOf row.identity).getLast? <;> rfl
    · have hsnaps : db'.snapshotsOf k = db.snapshotsOf k := by
        unfold Db.snapshotsOf
        rw [hs, List.filter_append, List.filter_cons_of_neg (by simpa using hk), List.filter_nil,
          List.append_nil]
      have hsame : linkedTombstones row.id (db.priorOf row) (db.tombstonesOf k) =
          db.tombstonesOf k := by
        cases hlast : db.priorOf row with
        | none => rfl
        | some t =>
          -- the tombstone that is linked belongs to another identity
          rw [hprior] at hlast
          obtain ⟨ht', hkey⟩ := List.mem_filter.mp (List.mem_of_getLast? hlast)
          refine updateWhere_eq_self fun t' ht'' => decide_eq_false fun hboth => hk ?_
          obtain ⟨hmem, hkey'⟩ := List.mem_filter.mp ht''
          rw [← of_decide_eq_true hkey, ← of_decide_eq_true hkey',
            hd.tombstoneIds.eq_of_mem hmem ht' hboth.1]
      rw [hsnaps, tombstonesOf_linked ht, hsame]
      exact hc k
  | deleted snapshot tombstone audit deletedAt hmem hlive hid hidentity hnone haid hfresh hafresh hs
      ht ha =>
    have hsnaps : db'.snapshotsOf k =
        updateWhere (fun r => decide (r.id = snapshot.id) && r.live)
          (fun r => { r with deletedAt := some deletedAt }) (db.snapshotsOf k) := by
      unfold Db.snapshotsOf
      rw [hs]
      exact filter_updateWhere fun _ => rfl
    rw [hsnaps]
    by_cases hk : snapshot.identity = k
    · subst hk
      have htombs : db'.tombstonesOf snapshot.identity =
          db.tombstonesOf snapshot.identity ++ [tombstone] := by
        unfold Db.tombstonesOf
        rw [ht, List.filter_append]
        simp [hidentity]
      rw [htombs]
      exact (hc _).buried deletedAt (List.mem_filter.mpr ⟨hmem, decide_eq_true rfl⟩) hlive
        (hu.filter _) hid hnone
    · have htombs : db'.tombstonesOf k = db.tombstonesOf k := by
        unfold Db.tombstonesOf
        rw [ht, List.filter_append, List.filter_cons_of_neg (by simpa [hidentity] using hk),
          List.filter_nil, List.append_nil]
      rw [htombs, updateWhere_eq_self]
      · exact hc k
      · intro r hr
        obtain ⟨hr, hkey⟩ := List.mem_filter.mp hr
        have hne : r.id ≠ snapshot.id := fun hsame =>
          hk (hu.eq_of_mem hr hmem hsame ▸ of_decide_eq_true hkey)
        rw [decide_eq_false hne, Bool.false_and]

section Life

variable (c cfg) (sqlite : SqliteChecks)

/-- The moments of an archive whose steps were all timely. -/
def TimelyLife (m : Moment) : Prop :=
  Relation.ReflTransGen
    (fun m m' => LifeStep c cfg sqlite m m' ∧ Timely m.state.db m'.state.db)
    (.starting (bootstrapArchive c cfg).run Shared.init) m

end Life

variable {sqlite : SqliteChecks} {m : Moment}

theorem TimelyLife.life (h : TimelyLife c cfg sqlite m) : Life c cfg sqlite m := by
  induction h with
  | refl => exact Relation.ReflTransGen.refl
  | tail _ hnext ih => exact ih.tail hnext.1

theorem Life.deletions (h : Life c cfg sqlite m) : m.state.db.Deletions :=
  h.keeps Db.Deletions.empty fun _ _ hmoved hd => hmoved.historyStep.deletions hd

/-- Timely steps keep every chain. -/
theorem TimelyLife.chains (h : TimelyLife c cfg sqlite m) : m.state.db.Chains := by
  induction h with
  | refl => exact Db.Chains.empty
  | tail hlife hnext ih =>
    obtain ⟨hstep, htimely⟩ := hnext
    have hlife := TimelyLife.life hlife
    have hgood := Life.good hlife
    have hmoved := (hstep.good hgood).2.dbMoved hgood.archive
    exact hmoved.historyStep.chains hlife.deletions hgood.archive.inv.unique.snapshots htimely ih

/-- A snapshot is deleted exactly when it has one tombstone and one audit, whatever the clock. -/
theorem Life.deleted_iff (h : Life c cfg sqlite m) : ∀ r ∈ m.state.db.snapshots, r.live = false ↔
    (∃ t, (m.state.db.tombstones.filter fun t => decide (t.snapshotId = r.id)) = [t]) ∧
      ∃ a, (m.state.db.deletionAudits.filter fun a => decide (a.snapshotId = r.id)) = [a] := by
  intro r hr
  have hd := h.deletions
  have hunique := (Life.good h).archive.inv.unique
  constructor
  · intro hdead
    obtain ⟨⟨t, ht, hid⟩, a, ha, haid⟩ := hd.deleted r hr hdead
    refine ⟨⟨t, ?_⟩, a, ?_⟩
    · rw [← hid]
      exact filter_key_eq_singleton hd.tombstonesOnce ht
    · rw [← haid]
      exact filter_key_eq_singleton hd.auditsOnce ha
  · rintro ⟨⟨t, ht⟩, -⟩
    have hmem : t ∈ m.state.db.tombstones.filter fun t => decide (t.snapshotId = r.id) := by
      rw [ht]
      exact List.mem_cons_self
    obtain ⟨hmem, hid⟩ := List.mem_filter.mp hmem
    obtain ⟨r', hr', hid', hdead⟩ := hd.tombstones t hmem
    rwa [← hunique.snapshots.eq_of_mem hr' hr (hid'.trans (of_decide_eq_true hid))]

/-- **`tombstoneChain`** — as long as every snapshot, when it is recorded, finds the deletions of
its identity in order, a snapshot is deleted exactly when it has one tombstone and one audit, links
between snapshots and tombstones go both ways, no tombstone is followed by two snapshots, and the
snapshots of every identity form one chain. -/
theorem tombstoneChain (h : TimelyLife c cfg sqlite m) :
    (∀ r ∈ m.state.db.snapshots, r.live = false ↔
      (∃ t, (m.state.db.tombstones.filter fun t => decide (t.snapshotId = r.id)) = [t]) ∧
        ∃ a, (m.state.db.deletionAudits.filter fun a => decide (a.snapshotId = r.id)) = [a]) ∧
      (∀ t ∈ m.state.db.tombstones, ∀ r ∈ m.state.db.snapshots,
        t.rearchivedSnapshotId = some r.id ↔ r.rearchivedFromTombstoneId = some t.id) ∧
      (∀ r ∈ m.state.db.snapshots, ∀ r' ∈ m.state.db.snapshots, ∀ id,
        r.rearchivedFromTombstoneId = some id → r'.rearchivedFromTombstoneId = some id → r = r') ∧
      ∀ identity, Chain none (m.state.db.snapshotsOf identity)
        (m.state.db.tombstonesOf identity) := by
  have hlife := h.life
  have hd := hlife.deletions
  have hc := h.chains
  have hunique := (Life.good hlife).archive.inv.unique
  -- what a snapshot is linked from leads back to it
  have hback : ∀ r ∈ m.state.db.snapshots, ∀ id, r.rearchivedFromTombstoneId = some id →
      ∃ t ∈ m.state.db.tombstones, t.id = id ∧ t.rearchivedSnapshotId = some r.id := by
    intro r hr id hfrom
    have hmem : r ∈ m.state.db.snapshotsOf r.identity :=
      List.mem_filter.mpr ⟨hr, decide_eq_true rfl⟩
    rcases (hc r.identity).of_from hmem with ⟨-, hnone⟩ | ⟨t, ht, hid, hlink⟩
    · rw [hnone] at hfrom
      exact absurd hfrom (by simp)
    · rw [hfrom] at hid
      exact ⟨t, List.mem_of_mem_filter ht, (Option.some.inj hid).symm, hlink⟩
  refine ⟨hlife.deleted_iff, fun t ht r hr => ⟨fun hlink => ?_, fun hfrom => ?_⟩,
    fun r hr r' hr' id hfrom hfrom' => ?_, hc⟩
  · have hmem : t ∈ m.state.db.tombstonesOf t.identity :=
      List.mem_filter.mpr ⟨ht, decide_eq_true rfl⟩
    obtain ⟨r', hr', hid, hfrom⟩ := (hc t.identity).of_link hmem hlink
    rwa [← hunique.snapshots.eq_of_mem (List.mem_of_mem_filter hr') hr hid]
  · obtain ⟨t', ht', hid, hlink⟩ := hback r hr t.id hfrom
    rwa [← hd.tombstoneIds.eq_of_mem ht' ht hid]
  · obtain ⟨t, ht, hid, hlink⟩ := hback r hr id hfrom
    obtain ⟨t', ht', hid', hlink'⟩ := hback r' hr' id hfrom'
    have hsame : t = t' := hd.tombstoneIds.eq_of_mem ht ht' (hid.trans hid'.symm)
    rw [hsame, hlink'] at hlink
    exact hunique.snapshots.eq_of_mem hr hr' (Option.some.inj hlink).symm

/-- Where the keys of the deletions of every identity rise, every step was timely. -/
theorem Life.timely (h : Life c cfg sqlite m)
    (hrise : ∀ k, (m.state.db.tombstonesOf k).Pairwise TombstoneRow.older) :
    TimelyLife c cfg sqlite m := by
  induction h with
  | refl => exact Relation.ReflTransGen.refl
  | @tail m m' hlife hstep ih =>
    have hgood := Life.good hlife
    have hmoved := (hstep.good hgood).2.dbMoved hgood.archive
    -- tombstones are added at the end and keep their keys, so the keys rose before as well
    have hstep' : (∀ k, (m.state.db.tombstonesOf k).Pairwise TombstoneRow.older) ∧
        Timely m.state.db m'.state.db := by
      cases hmoved.historyStep with
      | stays hs ht ha =>
        unfold Db.tombstonesOf at hrise ⊢
        rw [ht] at hrise
        exact ⟨hrise, fun r hr hfresh => absurd rfl (hfresh r (hs ▸ hr))⟩
      | recorded row hlive hfresh hfree hfrom hs ht ha =>
        have hbefore (k : String × String) :
            (m.state.db.tombstonesOf k).Pairwise TombstoneRow.older := by
          have hkeys (ts : List TombstoneRow) : ts.Pairwise TombstoneRow.older ↔
              (ts.map fun t => (t.deletedAtSeq, t.id)).Pairwise fun a b =>
                a.1 < b.1 ∨ a.1 = b.1 ∧ a.2 < b.2 := by
            rw [List.pairwise_map]
            exact Iff.rfl
          have hk := hrise k
          rw [tombstonesOf_linked ht, hkeys,
            linkedTombstones_map (fun t => (t.deletedAtSeq, t.id)) fun _ _ => rfl, ← hkeys] at hk
          exact hk
        exact ⟨hbefore, fun r _ _ => Db.inOrder_of_pairwise (hbefore r.identity)⟩
      | deleted snapshot tombstone audit deletedAt hmem hlive hid hidentity hnone haid hfresh
          hafresh
          hs ht ha =>
        refine ⟨fun k => ?_, fun r' hr' hfresh => ?_⟩
        · have hk := hrise k
          unfold Db.tombstonesOf at hk ⊢
          rw [ht, List.filter_append] at hk
          exact (List.pairwise_append.mp hk).1
        · rw [hs] at hr'
          obtain ⟨r, hr, rfl⟩ := mem_updateWhere.mp hr'
          refine absurd ?_ (hfresh r hr)
          split <;> rfl
    exact (ih hstep'.1).tail ⟨hstep, hstep'.2⟩

/-! ## §5 — Two clocks. -/

/-- The deleted sample manifest is archived again under another capture. -/
def rearchivedEvents : List (Event Env Request) :=
  deletedEvents ++
    served 4 (.createUpload ⟨sampleClientId, some "again", none, sampleManifest⟩) 1 70 9 ++
    served 5 (.completeUpload (sampleUuid 73)) 1 79 30

/-- It is deleted a second time at this second, and archived once more. -/
def thriceArchivedEvents (seconds : ℕ) : List (Event Env Request) :=
  rearchivedEvents ++
    served 6 (.deleteSnapshot (sampleDeletion (sampleUuid 100))) seconds 109 11 ++
    served 7 (.createUpload ⟨sampleClientId, some "once more", none, sampleManifest⟩) seconds 120
      9 ++
    served 8 (.completeUpload (sampleUuid 123)) seconds 129 30

theorem sampled_rearchivedEvents : ∀ ev ∈ rearchivedEvents, ∀ e ∈ ev.input?, Sampled e := by
  intro ev hev
  rw [rearchivedEvents, List.mem_append, List.mem_append] at hev
  rcases hev with (hev | hev) | hev
  · exact sampled_deletedEvents ev hev
  · exact sampled_served (by norm_num) ev hev
  · exact sampled_served (by norm_num) ev hev

theorem sampled_thriceArchivedEvents (seconds : ℕ) :
    ∀ ev ∈ thriceArchivedEvents seconds, ∀ e ∈ ev.input?, Sampled e := by
  intro ev hev
  rw [thriceArchivedEvents, List.mem_append, List.mem_append, List.mem_append] at hev
  rcases hev with ((hev | hev) | hev) | hev
  · exact sampled_rearchivedEvents ev hev
  · exact sampled_served (by norm_num) ev hev
  · exact sampled_served (by norm_num) ev hev
  · exact sampled_served (by norm_num) ev hev

/-- The links of the snapshots and of the tombstones, and whether the keys of the tombstones rise.
-/
structure LinksReport where
  snapshots : List (String × Option String)
  tombstones : List (String × String × Option String)
  rising : Bool
  deriving DecidableEq

def linksReport (db : Db) : LinksReport where
  snapshots := db.snapshots.map fun r => (r.id, r.rearchivedFromTombstoneId)
  tombstones := db.tombstones.map fun t => (t.id, t.snapshotId, t.rearchivedSnapshotId)
  rising := decide (db.tombstones.Pairwise TombstoneRow.older)

/-- With the clock a second later each snapshot is linked with the tombstone before it, with the
clock a second back the third is linked with the first tombstone, which leads to the second. -/
theorem linksReports :
    (sampleReplay (thriceArchivedEvents 2)).map (fun p => linksReport p.state.db) =
      some ⟨[(sampleUuid 50, none), (sampleUuid 100, some (sampleUuid 65)),
          (sampleUuid 150, some (sampleUuid 115))],
        [(sampleUuid 65, sampleUuid 50, some (sampleUuid 100)),
          (sampleUuid 115, sampleUuid 100, some (sampleUuid 150))], true⟩ ∧
    (sampleReplay (thriceArchivedEvents 0)).map (fun p => linksReport p.state.db) =
      some ⟨[(sampleUuid 50, none), (sampleUuid 100, some (sampleUuid 65)),
          (sampleUuid 150, some (sampleUuid 65))],
        [(sampleUuid 65, sampleUuid 50, some (sampleUuid 100)),
          (sampleUuid 115, sampleUuid 100, none)], false⟩ := by
  decide +kernel

/-- Two deletions in the order of the clock, and a snapshot after each. -/
theorem tombstoneChain_sample : ∃ p : Server,
    p.state.db.snapshots.map (fun r => (r.id, r.rearchivedFromTombstoneId)) =
        [(sampleUuid 50, none), (sampleUuid 100, some (sampleUuid 65)),
          (sampleUuid 150, some (sampleUuid 115))] ∧
      p.state.db.tombstones.map (fun t => (t.id, t.snapshotId, t.rearchivedSnapshotId)) =
        [(sampleUuid 65, sampleUuid 50, some (sampleUuid 100)),
          (sampleUuid 115, sampleUuid 100, some (sampleUuid 150))] ∧
      (∀ r ∈ p.state.db.snapshots, r.live = false ↔
        (∃ t, (p.state.db.tombstones.filter fun t => decide (t.snapshotId = r.id)) = [t]) ∧
          ∃ a, (p.state.db.deletionAudits.filter fun a => decide (a.snapshotId = r.id)) = [a]) ∧
      (∀ t ∈ p.state.db.tombstones, ∀ r ∈ p.state.db.snapshots,
        t.rearchivedSnapshotId = some r.id ↔ r.rearchivedFromTombstoneId = some t.id) ∧
      (∀ r ∈ p.state.db.snapshots, ∀ r' ∈ p.state.db.snapshots, ∀ id,
        r.rearchivedFromTombstoneId = some id → r'.rearchivedFromTombstoneId = some id → r = r') ∧
      ∀ identity, Chain none (p.state.db.snapshotsOf identity)
        (p.state.db.tombstonesOf identity) := by
  obtain ⟨p, hp, hreport⟩ := Option.map_eq_some_iff.mp linksReports.1
  obtain ⟨hsnapshots, htombstones, hrise⟩ := LinksReport.mk.inj hreport
  have hlife := life_of_sampleReplay (sampled_thriceArchivedEvents 2) hp
  have htimely := hlife.timely fun k => (of_decide_eq_true hrise).filter _
  exact ⟨p, hsnapshots, htombstones, tombstoneChain htimely⟩

/-- **`tombstoneChain_stepBack`** — after the clock has stepped back, the third snapshot is linked
from the tombstone of the first, as the second one is, and that tombstone leads to the second. -/
theorem tombstoneChain_stepBack : ∃ p : Server,
    Life sampleCrates sampleConfig sampleSqlite (.serving p) ∧
      p.state.db.snapshots.map (fun r => (r.id, r.rearchivedFromTombstoneId)) =
        [(sampleUuid 50, none), (sampleUuid 100, some (sampleUuid 65)),
          (sampleUuid 150, some (sampleUuid 65))] ∧
      p.state.db.tombstones.map (fun t => (t.id, t.snapshotId, t.rearchivedSnapshotId)) =
        [(sampleUuid 65, sampleUuid 50, some (sampleUuid 100)),
          (sampleUuid 115, sampleUuid 100, none)] ∧
      ¬ ∀ t ∈ p.state.db.tombstones, ∀ r ∈ p.state.db.snapshots,
        t.rearchivedSnapshotId = some r.id ↔ r.rearchivedFromTombstoneId = some t.id := by
  obtain ⟨p, hp, hreport⟩ := Option.map_eq_some_iff.mp linksReports.2
  obtain ⟨hsnapshots, htombstones, -⟩ := LinksReport.mk.inj hreport
  refine ⟨p, life_of_sampleReplay (sampled_thriceArchivedEvents 0) hp, hsnapshots, htombstones, ?_⟩
  intro hlinks
  obtain ⟨r, hr, hrow⟩ : ∃ r ∈ p.state.db.snapshots,
      (r.id, r.rearchivedFromTombstoneId) = (sampleUuid 150, some (sampleUuid 65)) := by
    rw [← List.mem_map, hsnapshots]
    simp
  obtain ⟨t, ht, htomb⟩ : ∃ t ∈ p.state.db.tombstones,
      (t.id, t.snapshotId, t.rearchivedSnapshotId) =
        (sampleUuid 65, sampleUuid 50, some (sampleUuid 100)) := by
    rw [← List.mem_map, htombstones]
    simp
  obtain ⟨hid, hfrom⟩ := Prod.mk.inj hrow
  obtain ⟨htid, htrest⟩ := Prod.mk.inj htomb
  obtain ⟨-, hlink⟩ := Prod.mk.inj htrest
  have hboth := (hlinks t ht r hr).mpr (by rw [hfrom, htid])
  rw [hlink, hid] at hboth
  exact absurd hboth (by decide)

end Patwari
