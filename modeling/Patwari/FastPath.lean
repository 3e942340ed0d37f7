/-
# Patwari.FastPath — a completion looks for its snapshot twice.

A completion that finds the snapshot of its content live takes the lock a deletion takes and looks
again, and asserts that it has found the same snapshot. §1 names the two looks, §2 says which steps
can put another snapshot in the place of the first, §3 that nothing else makes the assertion fail. A
completion that finds no live snapshot does not take that lock: §4 is a run of three requests in
which the snapshot is deleted and archived again while the first of them waits for the lock.
-/
import Patwari.Tombstones
import Patwari.SnapshotReads

namespace Patwari

open Lib (TaskId Event Pool UniqueOn Prog)

variable {c : Crates} {cfg : Config} {sqlite : SqliteChecks} {t : TaskId} {v : Verified}
  {p p' p₁ p₂ : Server} {db db' : Db}

/-! ## §1 — The two looks. -/

/-- What a look of the completion finds. -/
def Verified.look (v : Verified) (db : Db) : Option SnapshotRow :=
  db.liveSnapshot v.upload.sessionId v.fingerprint

/-- Task `t` is a completion about to look for the first time, and the look would find this. -/
def FirstLook (c : Crates) (cfg : Config) (t : TaskId) (v : Verified) (p : Server)
    (found : SnapshotRow) : Prop :=
  (∃ uploadId, p.tasks t = some (.completeUpload uploadId,
    respond .api .completion (fastPath v >>= afterFastPath c cfg v))) ∧
  v.look p.state.db = some found

/-- It has the lock and is about to look again. -/
def SecondLook (c : Crates) (cfg : Config) (t : TaskId) (v : Verified) (p : Server)
    (found : SnapshotRow) : Prop :=
  (∃ uploadId, p.tasks t = some (.completeUpload uploadId,
    respond .api .completion (lookAgain v >>= afterFastPath c cfg v))) ∧
  v.look p.state.db = some found

/-! ## §2 — Another snapshot in its place. -/

/-- A step to `db'` has recorded a snapshot of this session and fingerprint. -/
def Verified.Recorded (v : Verified) (db db' : Db) : Prop :=
  ∃ r ∈ db'.snapshots, r.identity = (v.upload.sessionId, v.fingerprint) ∧
    ∀ r₀ ∈ db.snapshots, r₀.id ≠ r.id

theorem Verified.look_some {r : SnapshotRow} (h : v.look db = some r) :
    r ∈ db.snapshots ∧ r.identity = (v.upload.sessionId, v.fingerprint) ∧ r.live = true := by
  have hmem := List.mem_of_find?_eq_some h
  have hrow := List.find?_some h
  simp only [decide_eq_true_eq, Bool.and_eq_true] at hrow
  obtain ⟨⟨hsession, hfingerprint⟩, hlive⟩ := hrow
  exact ⟨hmem, Prod.ext hsession hfingerprint, hlive⟩

theorem SnapshotRow.identity_of_fixed {r r' : SnapshotRow} (h : r'.fixed = r.fixed) :
    r'.identity = r.identity := by
  simp only [SnapshotRow.fixed, SnapshotRow.mk.injEq] at h
  exact Prod.ext h.2.2.1 h.2.2.2.2.1

/-- A snapshot is recorded only where no other of its identity is live. -/
theorem HistoryStep.not_recorded (h : HistoryStep db db') {r : SnapshotRow}
    (hr : r ∈ db.snapshots) (hidentity : r.identity = (v.upload.sessionId, v.fingerprint))
    (hlive : r.live = true) : ¬ v.Recorded db db' := by
  rintro ⟨x, hx, hsame, hfresh⟩
  cases h with
  | stays hs ht ha =>
    rw [hs] at hx
    exact hfresh x hx rfl
  | recorded row hrow hnew hfree hfrom hs ht ha =>
    rw [hs] at hx
    rcases List.mem_append.mp hx with hx | hx
    · exact hfresh x hx rfl
    · obtain rfl := List.mem_singleton.mp hx
      have hdead := hfree r hr (hidentity.trans hsame.symm)
      rw [hlive] at hdead
      exact Bool.noConfusion hdead
  | deleted snapshot tombstone audit deletedAt hmem hlive hid hident hnone haid hf hfa hs ht ha =>
    rw [hs] at hx
    obtain ⟨x₀, hx₀, rfl⟩ := Lib.mem_updateWhere.mp hx
    refine hfresh x₀ hx₀ ?_
    split <;> rfl

/-- Of the snapshots of one session and fingerprint at most one is live. -/
theorem HistoryStep.liveOnce (h : HistoryStep db db')
    (honce : UniqueOn SnapshotRow.identity (db.snapshots.filter SnapshotRow.live)) :
    UniqueOn SnapshotRow.identity (db'.snapshots.filter SnapshotRow.live) := by
  cases h with
  | stays hs ht ha =>
    rw [hs]
    exact honce
  | recorded row hrow hnew hfree hfrom hs ht ha =>
    rw [hs, List.filter_append, List.filter_cons_of_pos hrow, List.filter_nil]
    refine honce.append fun r hr hsame => ?_
    obtain ⟨hmem, hlive⟩ := List.mem_filter.mp hr
    rw [hfree r hmem hsame] at hlive
    exact Bool.noConfusion hlive
  | deleted snapshot tombstone audit deletedAt hmem hlive hid hident hnone haid hf hfa hs ht ha =>
    rw [hs, filter_live_deleted]
    exact honce.filter _

theorem Life.liveOnce {m : Moment} (h : Life c cfg sqlite m) :
    UniqueOn SnapshotRow.identity (m.state.db.snapshots.filter SnapshotRow.live) :=
  h.keeps (P := fun db => UniqueOn SnapshotRow.identity (db.snapshots.filter SnapshotRow.live))
    UniqueOn.nil fun _ _ hmoved honce => hmoved.historyStep.liveOnce honce

theorem Life.snapshotIds {m : Moment} (h : Life c cfg sqlite m) :
    UniqueOn SnapshotRow.id m.state.db.snapshots :=
  (Life.good h).archive.inv.unique.snapshots

/-! ## §3 — Runs. -/

/-- **`Unrecorded`** — the event records no snapshot of this session and fingerprint. -/
def Unrecorded (c : Crates) (cfg : Config) (sqlite : SqliteChecks) (v : Verified) (p : Server)
    (ev : Event Env Request) : Prop :=
  ∀ p', p.step system (handle c cfg sqlite) ev = some p' → ¬ v.Recorded p.state.db p'.state.db

theorem Life.later (hlife : Life c cfg sqlite (.serving p))
    (hrun : ServerRun c cfg sqlite (fun _ _ => True) p p') : p.state.db.Later p'.state.db := by
  induction hrun with
  | refl => exact Db.Later.refl _
  | tail hrun hstep ih =>
    have hgood := Life.good (hlife.run hrun)
    exact ih.trans (((LifeStep.event hstep).good hgood).2.dbMoved hgood.archive).later

theorem Life.historyStep (hlife : Life c cfg sqlite (.serving p))
    (hstep : p.Step system (handle c cfg sqlite) (fun _ _ => True) p') :
    HistoryStep p.state.db p'.state.db := by
  have hgood := Life.good hlife
  exact (((LifeStep.event hstep).good hgood).2.dbMoved hgood.archive).historyStep

/-- Without such an event every snapshot of the identity was there before. -/
theorem known_of_unrecorded (hlife : Life c cfg sqlite (.serving p₁))
    (hrun : ServerRun c cfg sqlite (Unrecorded c cfg sqlite v) p₁ p₂) :
    ∀ r ∈ p₂.state.db.snapshots, r.identity = (v.upload.sessionId, v.fingerprint) →
      ∃ r₀ ∈ p₁.state.db.snapshots, r₀.id = r.id ∧ r₀.identity = r.identity := by
  induction hrun with
  | refl => exact fun r hr _ => ⟨r, hr, rfl, rfl⟩
  | @tail p p' hrun hstep ih =>
    intro r hr hidentity
    obtain ⟨ev, hunrecorded, henv, hstep⟩ := hstep
    have hlife' : Life c cfg sqlite (.serving p) :=
      hlife.run (Pool.Run.mono hrun fun _ _ _ => trivial)
    have hlater : p.state.db.Later p'.state.db :=
      Life.later hlife' (.single ⟨ev, trivial, henv, hstep⟩)
    have hknown : ∃ r₀ ∈ p.state.db.snapshots, r₀.id = r.id := by
      by_contra hnone
      exact hunrecorded p' hstep ⟨r, hr, hidentity, fun r₀ hr₀ heq => hnone ⟨r₀, hr₀, heq⟩⟩
    obtain ⟨r₀, hr₀, hid⟩ := hknown
    -- the row of that name is the same one
    obtain ⟨r', hr', hfixed, -⟩ := hlater.snapshots r₀ hr₀
    have hunique := (hlife'.run (.single ⟨ev, trivial, henv, hstep⟩)).snapshotIds
    obtain rfl := hunique.eq_of_mem hr' hr
      ((SnapshotRow.id_of_fixed hfixed).trans hid)
    have hsame : r₀.identity = r'.identity := (SnapshotRow.identity_of_fixed hfixed).symm
    obtain ⟨r₁, hr₁, hid₁, hidentity₁⟩ := ih r₀ hr₀ (hsame.trans hidentity)
    exact ⟨r₁, hr₁, hid₁.trans hid, hidentity₁.trans hsame⟩

/-- While a snapshot stays live, no other of its identity is recorded. -/
theorem unrecorded_of_live (hlife : Life c cfg sqlite (.serving p₁))
    {r : SnapshotRow} (hr₁ : r ∈ p₁.state.db.snapshots)
    (hidentity : r.identity = (v.upload.sessionId, v.fingerprint))
    (hrun : ServerRun c cfg sqlite (fun _ _ => True) p₁ p)
    (hrest : ServerRun c cfg sqlite (fun _ _ => True) p p₂)
    {r₂ : SnapshotRow} (hr₂ : r₂ ∈ p₂.state.db.snapshots) (hid : r₂.id = r.id)
    (hlive : r₂.live = true) : ServerRun c cfg sqlite (Unrecorded c cfg sqlite v) p₁ p := by
  induction hrun with
  | refl => exact .refl
  | @tail q q' hrun hstep ih =>
    refine (ih (hrest.head hstep)).tail ?_
    obtain ⟨ev, -, henv, hnext⟩ := hstep
    refine ⟨ev, fun q'' hq'' => ?_, henv, hnext⟩
    obtain rfl : q' = q'' := Option.some.inj (hnext.symm.trans hq'')
    have hlife' : Life c cfg sqlite (.serving q) := hlife.run hrun
    -- between the two looks the snapshot is the row it was at the first
    obtain ⟨x, hx, hfixed, -⟩ := (hlife.later hrun).snapshots r hr₁
    have hlater : q.state.db.Later p₂.state.db :=
      hlife'.later (hrest.head ⟨ev, trivial, henv, hnext⟩)
    have hunique : UniqueOn SnapshotRow.id p₂.state.db.snapshots :=
      (hlife'.run (hrest.head ⟨ev, trivial, henv, hnext⟩)).snapshotIds
    have hsame := hlater.live_eq hunique hx hr₂
      (hid.trans (SnapshotRow.id_of_fixed hfixed).symm) hlive
    have hlivex : x.live = true := hsame ▸ hlive
    exact (hlife'.historyStep ⟨ev, trivial, henv, hnext⟩).not_recorded hx
      ((SnapshotRow.identity_of_fixed hfixed).trans hidentity) hlivex

/-- **`fastPath_asserts`** — in every run, whatever its other requests do: the two looks of a
completion, if both find a live snapshot, find the same one exactly when no snapshot of that session
and fingerprint has been recorded between them. -/
theorem fastPath_asserts (hlife : Life c cfg sqlite (.serving p₁))
    (hrun : ServerRun c cfg sqlite (fun _ _ => True) p₁ p₂) {found again : SnapshotRow}
    (hfirst : FirstLook c cfg t v p₁ found) (hsecond : SecondLook c cfg t v p₂ again) :
    found.id = again.id ↔ ServerRun c cfg sqlite (Unrecorded c cfg sqlite v) p₁ p₂ := by
  obtain ⟨hr₁, hidentity₁, hlive₁⟩ := Verified.look_some hfirst.2
  obtain ⟨hr₂, hidentity₂, hlive₂⟩ := Verified.look_some hsecond.2
  constructor
  · intro hid
    exact unrecorded_of_live hlife hr₁ hidentity₁ hrun .refl hr₂ hid.symm hlive₂
  · intro hunrecorded
    obtain ⟨r, hr, hid, hidentity⟩ := known_of_unrecorded hlife hunrecorded again hr₂ hidentity₂
    have hunique : UniqueOn SnapshotRow.id p₂.state.db.snapshots := (hlife.run hrun).snapshotIds
    -- what is live at the second look was live at the first
    have hsame := (hlife.later hrun).live_eq hunique hr hr₂ hid.symm hlive₂
    have hlive : r.live = true := hsame ▸ hlive₂
    have honce := hlife.liveOnce.eq_of_mem
      (List.mem_filter.mpr ⟨hr₁, hlive₁⟩) (List.mem_filter.mpr ⟨hr, hlive⟩)
      (hidentity₁.trans (hidentity.trans hidentity₂).symm)
    rw [honce, hid]

/-! ## §4 — Three requests. -/

section Actions

variable {α β : Type} {failure : ApiError → Failure} {response : β → Response}
  {seen rest : List (Env × Shared)}

/-- A request after a part of it that has returned. -/
theorem along_respond_bind {m : Handler ApiError α} {f : α → Handler ApiError β} {a : α}
    (h : m.run.along t seen = some (.done (.ok a))) :
    (respond failure response (m >>= f)).along t (seen ++ rest) =
      (respond failure response (f a)).along t rest := by
  rw [Prog.along_append]
  have hbind : (respond failure response (m >>= f)).along t seen =
      some (respond failure response (f a)) :=
    Prog.along_bind (Prog.along_bind h)
  rw [hbind]
  rfl

/-- The way of a completion to its first look. -/
theorem along_completeUpload {request uploadId : String} {upload : UploadRow}
    {seen₁ seen₂ seen₃ seen₄ : List (Env × Shared)}
    (hid : parseUuidText request "upload identifier is not a UUID" = .ok uploadId)
    (hlock : (acquire (uploadLock uploadId)).along t seen₁ = some (.done ()))
    (hupload : (requireActiveUpload c uploadId).run.along t seen₂ = some (.done (.ok upload)))
    (hactive : upload.status ≠ .completed)
    (hverified : (verifyUpload c cfg upload).run.along t seen₃ = some (.done (.ok v)))
    (hcompatible : (attempt (ensureBlobRepresentationsCompatible v.prepared) :
      Handler ApiError _).run.along t seen₄ = some (.done (.ok (.ok ())))) :
    (handle c cfg sqlite (.completeUpload request)).along t
        (seen₁ ++ (seen₂ ++ (seen₃ ++ (seen₄ ++ rest)))) =
      (respond .api .completion (fastPath v >>= afterFastPath c cfg v)).along t rest := by
  have hfirst : (liftM (acquire (uploadLock uploadId)) : Handler ApiError Unit).run.along t seen₁ =
      some (.done (.ok ())) := Prog.along_bind hlock
  show (respond .api .completion (check (parseUuidText request _) >>= _)).along t _ = _
  rw [hid]
  show (respond .api .completion (liftM (acquire (uploadLock uploadId)) >>= _)).along t _ = _
  rw [along_respond_bind hfirst, along_respond_bind hupload, if_neg hactive]
  rw [along_respond_bind hverified, completeVerified_eq, along_respond_bind hcompatible]

/-- The first look, and the lock. -/
theorem along_fastPath {f : Option String → Handler ApiError β} {e₁ e₂ : Env} {s₁ s₂ : Shared}
    {found : SnapshotRow} (he : e₁.fault = none) (hfound : v.look s₁.db = some found) :
    (respond failure response (fastPath v >>= f)).along t ((e₁, s₁) :: (e₂, s₂) :: rest) =
      (respond failure response (lookAgain v >>= f)).along t rest := by
  have hlook : (findSnapshotByFingerprint v.upload.sessionId v.fingerprint).run.along t [(e₁, s₁)] =
      some (.done (.ok (some found.id))) := by
    obtain ⟨now, uuid, fault⟩ := e₁
    obtain rfl : fault = none := he
    have hid : (v.look s₁.db).map SnapshotRow.id = some found.id := by
      rw [hfound]
      rfl
    exact congrArg (fun r => some (Prog.done (Except.ok r))) hid
  have hlock : (liftM (acquire (snapshotLock v.upload.sessionId v.fingerprint)) :
      Handler ApiError Unit).run.along t [(e₂, s₂)] = some (.done (.ok ())) := rfl
  unfold fastPath
  rw [bind_assoc]
  show Prog.along t ([(e₁, s₁)] ++ (e₂, s₂) :: rest) _ = _
  rw [along_respond_bind hlook]
  dsimp only
  rw [bind_assoc]
  exact along_respond_bind hlock

end Actions

/-! ### The sample archive. -/

/-- The content is archived, uploaded again under another capture, and this upload is completed up
to its first look. -/
def firstLookEvents : List (Event Env Request) :=
  archivedEvents ++
    (served 3 (.createUpload ⟨sampleClientId, some "again", none, sampleManifest⟩) 0 70 9 ++
      .spawn (.completeUpload (sampleUuid 73)) :: actions 4 0 79 12)

/-- Nothing else happens before its second look. -/
def aloneEvents : List (Event Env Request) := actions 4 0 91 2

/-- After its first look the snapshot is deleted and a third upload of the content is completed;
then it is given the lock. -/
def rearchivingEvents : List (Event Env Request) :=
  actions 4 0 91 1 ++ (served 5 (.deleteSnapshot (sampleDeletion (sampleUuid 50))) 1 92 11 ++
    (served 6 (.createUpload ⟨sampleClientId, some "once more", none, sampleManifest⟩) 1 104 9 ++
      (served 7 (.completeUpload (sampleUuid 107)) 1 114 30 ++ actions 4 1 145 1)))

theorem sampled_firstLookEvents : ∀ ev ∈ firstLookEvents, ∀ e ∈ ev.input?, Sampled e := by
  intro ev hev
  rcases List.mem_append.mp hev with hev | hev
  · exact sampled_archivedEvents ev hev
  rcases List.mem_append.mp hev with hev | hev
  · exact sampled_served (by norm_num) ev hev
  rcases List.mem_cons.mp hev with rfl | hev
  · exact fun e he => nomatch he
  · exact sampled_actions (by norm_num) ev hev

theorem sampled_rearchivingEvents : ∀ ev ∈ rearchivingEvents, ∀ e ∈ ev.input?, Sampled e := by
  intro ev hev
  rcases List.mem_append.mp hev with hev | hev
  · exact sampled_actions (by norm_num) ev hev
  rcases List.mem_append.mp hev with hev | hev
  · exact sampled_served (by norm_num) ev hev
  rcases List.mem_append.mp hev with hev | hev
  · exact sampled_served (by norm_num) ev hev
  rcases List.mem_append.mp hev with hev | hev
  · exact sampled_served (by norm_num) ev hev
  · exact sampled_actions (by norm_num) ev hev

/-- What the completion has verified after these twelve actions. -/
def verifiedAt (c : Crates) (cfg : Config) (t : TaskId) (uploadId : String)
    (seen : List (Env × Shared)) : Option Verified :=
  match (acquire (uploadLock uploadId)).along t (seen.take 1),
    (requireActiveUpload c uploadId).run.along t ((seen.drop 1).take 2) with
  | some (.done ()), some (.done (.ok upload)) =>
    match (verifyUpload c cfg upload).run.along t (((seen.drop 1).drop 2).take 8) with
    | some (.done (.ok v)) =>
      match (attempt (ensureBlobRepresentationsCompatible v.prepared) :
        Handler ApiError _).run.along t (((seen.drop 1).drop 2).drop 8) with
      | some (.done (.ok (.ok ()))) => if upload.status = .completed then none else some v
      | _ => none
    | _ => none
  | _, _ => none

theorem along_verifiedAt {uploadId : String} {seen rest : List (Env × Shared)}
    (hid : parseUuidText uploadId "upload identifier is not a UUID" = .ok uploadId)
    (h : verifiedAt c cfg t uploadId seen = some v) :
    (handle c cfg sqlite (.completeUpload uploadId)).along t (seen ++ rest) =
      (respond .api .completion (fastPath v >>= afterFastPath c cfg v)).along t rest := by
  have hparts : seen ++ rest = seen.take 1 ++ ((seen.drop 1).take 2 ++
      (((seen.drop 1).drop 2).take 8 ++ (((seen.drop 1).drop 2).drop 8 ++ rest))) := by
    rw [← List.append_assoc _ _ rest, List.take_append_drop, ← List.append_assoc _ _ rest,
      List.take_append_drop, ← List.append_assoc _ _ rest, List.take_append_drop]
  unfold verifiedAt at h
  split at h
  · next upload hlock hupload =>
    split at h
    · next verified hverified =>
      split at h
      · next hcompatible =>
        split_ifs at h with hcompleted
        obtain rfl := Option.some.inj h
        rw [hparts]
        exact along_completeUpload hid hlock hupload hcompleted hverified hcompatible
      · contradiction
    · contradiction
  · contradiction

/-- What a replay shows: the snapshots the two looks find. -/
def looksReport (later : List (Event Env Request)) : Option (Option String × Option String) :=
  (bootReplay sampleCrates sampleConfig).bind fun p₀ =>
    (p₀.replay system (handle sampleCrates sampleConfig sampleSqlite) freshEnv firstLookEvents).bind
      fun p₁ => (p₁.replay system (handle sampleCrates sampleConfig sampleSqlite) freshEnv
        later).bind
        fun p₂ =>
          match p₁.tasks 4, p₂.tasks 4,
            verifiedAt sampleCrates sampleConfig 4 (sampleUuid 73)
              (p₀.seen system (handle sampleCrates sampleConfig sampleSqlite) 4 firstLookEvents),
            p₁.seen system (handle sampleCrates sampleConfig sampleSqlite) 4 later with
          | some (.completeUpload id₁, _), some (.completeUpload id₂, _), some v, [(e, s), _] =>
            if id₁ = sampleUuid 73 ∧ id₂ = sampleUuid 73 ∧ e.fault = none ∧
              (v.look s.db).isSome then
              some ((v.look p₁.state.db).map SnapshotRow.id,
                (v.look p₂.state.db).map SnapshotRow.id)
            else none
          | _, _, _, _ => none

/-- A replay with such a report is a run with the two looks. -/
theorem looks_of_looksReport {later : List (Event Env Request)}
    (hlater : ∀ ev ∈ later, ∀ e ∈ ev.input?, Sampled e) {first second : String}
    (h : looksReport later = some (some first, some second)) :
    ∃ (v : Verified) (p₁ p₂ : Server) (found again : SnapshotRow),
      Life sampleCrates sampleConfig sampleSqlite (.serving p₁) ∧
      ServerRun sampleCrates sampleConfig sampleSqlite (fun _ _ => True) p₁ p₂ ∧
      FirstLook sampleCrates sampleConfig 4 v p₁ found ∧
      SecondLook sampleCrates sampleConfig 4 v p₂ again ∧ found.id = first ∧ again.id = second := by
  have hid : parseUuidText (sampleUuid 73) "upload identifier is not a UUID" =
      .ok (sampleUuid 73) := by decide +kernel
  obtain ⟨p₀, hboot, hfirst⟩ := Option.bind_eq_some_iff.mp h
  obtain ⟨p₁, hreplay₁, hsecond⟩ := Option.bind_eq_some_iff.mp hfirst
  obtain ⟨p₂, hreplay₂, hreport⟩ := Option.bind_eq_some_iff.mp hsecond
  obtain ⟨⟨rest, s⟩, hstart, hserve⟩ := Option.bind_eq_some_iff.mp hboot
  split at hserve
  · next heq =>
    obtain ⟨rfl, rfl⟩ := Prod.mk.inj heq
    obtain rfl := Option.some.inj hserve
    have hlife : Life sampleCrates sampleConfig sampleSqlite (.serving (Pool.init (s.cleanup 0))) :=
      life_of_replay (fun ev hev => absurd hev List.not_mem_nil) hstart rfl
    have hrun := serverRun_of_replay hlater hreplay₂
    have hrun₁ := serverRun_of_replay sampled_firstLookEvents hreplay₁
    split at hreport
    · next id₁ q₁ id₂ q₂ v e s₁ x htask₁ htask₂ hverified hseen =>
      split_ifs at hreport with hsame
      obtain ⟨rfl, rfl, hcalm, hfound⟩ := hsame
      obtain ⟨hlook₁, hlook₂⟩ := Prod.mk.inj (Option.some.inj hreport)
      obtain ⟨found, hfound₁, rfl⟩ := Option.map_eq_some_iff.mp hlook₁
      obtain ⟨again, hagain, rfl⟩ := Option.map_eq_some_iff.mp hlook₂
      obtain ⟨row, hrow⟩ := Option.isSome_iff_exists.mp hfound
      -- where the completion is after its twelve actions, and after two more
      have hcheck (events : List (Event Env Request)) (hsampled : ∀ ev ∈ events, ∀ e ∈ ev.input?,
          Sampled e) : ∀ ev ∈ events, ∀ e ∈ ev.input?, ∀ s, freshEnv e s = true →
          system.envOk e s :=
        fun ev hev e he s hfresh => (hsampled ev hev e he).envOk hfresh
      have hfollows₁ := Pool.follows_of_replay (t := 4) (hcheck _ sampled_firstLookEvents) hreplay₁
      have hfollows₂ := hfollows₁.trans (Pool.follows_of_replay (hcheck _ hlater) hreplay₂)
      have hway₁ := hfollows₁.along htask₁
      rw [← List.append_nil (Pool.seen _ _ _ _ _), along_verifiedAt hid hverified] at hway₁
      have hway₂ := hfollows₂.along htask₂
      rw [along_verifiedAt hid hverified, hseen] at hway₂
      obtain ⟨e₂, s₂⟩ := x
      rw [along_fastPath hcalm hrow] at hway₂
      obtain rfl := Option.some.inj hway₁
      obtain rfl := Option.some.inj hway₂
      exact ⟨v, p₁, p₂, found, again, hlife.run hrun₁, hrun, ⟨⟨_, htask₁⟩, hfound₁⟩,
        ⟨⟨_, htask₂⟩, hagain⟩, rfl, rfl⟩
    · exact nomatch hreport
  · simp at hserve

theorem sampled_aloneEvents : ∀ ev ∈ aloneEvents, ∀ e ∈ ev.input?, Sampled e :=
  sampled_actions (by norm_num)

/-- The two replays, of which the first part is the same. -/
theorem looksReports : looksReport aloneEvents = some (some (sampleUuid 50), some (sampleUuid 50)) ∧
    looksReport rearchivingEvents = some (some (sampleUuid 50), some (sampleUuid 135)) := by
  decide +kernel

/-- Left alone, the completion finds the snapshot again. -/
theorem fastPath_asserts_sample : ∃ (v : Verified) (p₁ p₂ : Server) (found again : SnapshotRow),
    FirstLook sampleCrates sampleConfig 4 v p₁ found ∧
    SecondLook sampleCrates sampleConfig 4 v p₂ again ∧ found.id = again.id ∧
    ServerRun sampleCrates sampleConfig sampleSqlite
      (Unrecorded sampleCrates sampleConfig sampleSqlite v) p₁ p₂ := by
  obtain ⟨v, p₁, p₂, found, again, hlife, hrun, hfirst, hsecond, hid₁, hid₂⟩ :=
    looks_of_looksReport sampled_aloneEvents looksReports.1
  have hsame := hid₁.trans hid₂.symm
  exact ⟨v, p₁, p₂, found, again, hfirst, hsecond, hsame,
    (fastPath_asserts hlife hrun hfirst hsecond).mp hsame⟩

/-- **`fastPath_panics`** — deleted and archived again while the completion waits for the lock, the
snapshot it finds is another one. -/
theorem fastPath_panics : ∃ (v : Verified) (p₁ p₂ : Server) (found again : SnapshotRow),
    Life sampleCrates sampleConfig sampleSqlite (.serving p₁) ∧
    ServerRun sampleCrates sampleConfig sampleSqlite (fun _ _ => True) p₁ p₂ ∧
    FirstLook sampleCrates sampleConfig 4 v p₁ found ∧
    SecondLook sampleCrates sampleConfig 4 v p₂ again ∧ found.id ≠ again.id := by
  obtain ⟨v, p₁, p₂, found, again, hlife, hrun, hfirst, hsecond, hid₁, hid₂⟩ :=
    looks_of_looksReport sampled_rearchivingEvents looksReports.2
  refine ⟨v, p₁, p₂, found, again, hlife, hrun, hfirst, hsecond, ?_⟩
  rw [hid₁, hid₂]
  decide +kernel

end Patwari
