/-
# Patwari.UploadStatus — the stored status of an upload and its accepted chunks.

The status column says whether all chunks of an upload are accepted. It is a cached answer: a
request that stores a chunk commits the row first and refreshes the status in a statement of its
own, and a request for a chunk that has a row already leaves through another exit. §1 names the rows
of one upload and what the status should say of them, §2 is what one request does to them wherever
it is cut off, §3 follows a sequence of requests.
-/
import Patwari.Lib.Cut
import Patwari.CaptureReuse
import Patwari.Completeness

namespace Patwari

open Lib (Prog TaskId UniqueOn KeptBy updateWhere mem_updateWhere)
open Lib.Prog (Covers CoversE KeepsE Keeps Beside)

/-! ## §1 — The rows of one upload. -/

/-- What the database has about one upload. -/
structure UploadRows where
  upload : Option UploadRow
  artifacts : List UploadArtifactRow
  chunks : List UploadChunkRow

def Db.rowsOf (db : Db) (uploadId : String) : UploadRows where
  upload := db.upload uploadId
  artifacts := db.uploadArtifactsOf uploadId
  chunks := db.uploadChunks.filter fun r => decide (r.uploadId = uploadId)

namespace UploadRows

/-- The accepted chunks of one artifact in index order. -/
def chunksOf (rows : UploadRows) (artifactIndex : ℤ) : List UploadChunkRow :=
  (rows.chunks.filter fun r => decide (r.artifactIndex = artifactIndex)).insertionSort
    fun a b => a.chunkIndex ≤ b.chunkIndex

/-- Every negotiated chunk of every artifact is accepted. -/
def Full (rows : UploadRows) : Prop :=
  ∀ a ∈ rows.artifacts, ∀ i < a.chunkCount.toNat,
    ∃ r ∈ rows.chunks, r.artifactIndex = a.artifactIndex ∧ r.chunkIndex = i

instance (rows : UploadRows) : Decidable rows.Full := by
  unfold Full
  infer_instance

/-- **`Truthful`** — the stored status says uploaded when every negotiated chunk is accepted, and
created when one is not. -/
def Truthful (rows : UploadRows) : Prop :=
  ∀ upload, rows.upload = some upload →
    upload.status = if rows.Full then .artifactUploaded else .created

/-- The rows as the transactions keep them: sizes in the columns, each artifact and each chunk under
one key, and chunks of the negotiated layout only. -/
structure Tidy (rows : UploadRows) : Prop where
  sized : ∀ a ∈ rows.artifacts, a.Sized
  artifacts : UniqueOn UploadArtifactRow.artifactIndex rows.artifacts
  chunks : UniqueOn (fun r : UploadChunkRow => (r.artifactIndex, r.chunkIndex)) rows.chunks
  range : ∀ r ∈ rows.chunks, ∀ a ∈ rows.artifacts, r.artifactIndex = a.artifactIndex →
    0 ≤ r.chunkIndex ∧ r.chunkIndex < a.chunkCount

/-- The accepted chunks of an artifact, in order and in range. -/
theorem Tidy.acceptedRows {rows : UploadRows} (h : rows.Tidy) {a : UploadArtifactRow}
    (ha : a ∈ rows.artifacts) :
    AcceptedRows a.chunkCount.toNat (rows.chunksOf a.artifactIndex) := by
  have hmem : ∀ r ∈ rows.chunks.filter fun r => decide (r.artifactIndex = a.artifactIndex),
      r ∈ rows.chunks ∧ r.artifactIndex = a.artifactIndex := by
    intro r hr
    obtain ⟨hr, hindex⟩ := List.mem_filter.mp hr
    exact ⟨hr, of_decide_eq_true hindex⟩
  refine acceptedRows_insertionSort ?_ fun r hr => ?_
  · refine List.Nodup.of_map (fun i => (a.artifactIndex, i)) ?_
    have hkeys := h.chunks.filter fun r => decide (r.artifactIndex = a.artifactIndex)
    rw [List.map_map]
    rw [UniqueOn, List.map_congr_left fun r hr => ?_] at hkeys
    · exact hkeys
    · rw [(hmem r hr).2]
      rfl
  · obtain ⟨hr, hindex⟩ := hmem r hr
    obtain ⟨hlow, hhigh⟩ := h.range r hr a ha hindex
    exact ⟨hlow, by rwa [Int.toNat_of_nonneg (h.sized a ha).chunks]⟩

/-- The judgment of the status refresh, artifact by artifact. -/
theorem Tidy.full_iff {rows : UploadRows} (h : rows.Tidy) :
    rows.Full ↔ ∀ a ∈ rows.artifacts,
      artifactComplete a (rows.chunksOf a.artifactIndex) = true := by
  refine forall₂_congr fun a ha => ?_
  have hrows := h.acceptedRows ha
  have hcount : a.chunkCount = (a.chunkCount.toNat : ℤ) :=
    (Int.toNat_of_nonneg (h.sized a ha).chunks).symm
  rw [hrows.artifactComplete_iff hcount, hrows.length_eq_iff_all]
  refine forall₂_congr fun i _ => ?_
  rw [List.mem_map]
  refine exists_congr fun r => ?_
  rw [chunksOf, List.mem_insertionSort, List.mem_filter, decide_eq_true_eq, and_assoc]

/-- **`Grows`** — one more chunk of the layout is accepted. -/
structure Grows (before after : UploadRows) : Prop where
  upload : after.upload = before.upload
  artifacts : after.artifacts = before.artifacts
  chunk : ∃ row : UploadChunkRow, after.chunks = before.chunks ++ [row] ∧
    (∀ r ∈ before.chunks, (r.artifactIndex, r.chunkIndex) ≠ (row.artifactIndex, row.chunkIndex)) ∧
    ∃ a ∈ before.artifacts, a.artifactIndex = row.artifactIndex ∧
      0 ≤ row.chunkIndex ∧ row.chunkIndex < a.chunkCount

namespace Grows

variable {before after : UploadRows}

theorem tidy (h : before.Grows after) (hb : before.Tidy) : after.Tidy := by
  obtain ⟨row, hchunks, hnew, a, ha, hindex, hrange⟩ := h.chunk
  constructor
  · rw [h.artifacts]
    exact hb.sized
  · rw [h.artifacts]
    exact hb.artifacts
  · rw [hchunks]
    exact hb.chunks.append hnew
  · rw [hchunks, h.artifacts]
    intro r hr b hmem hkey
    rcases List.mem_append.mp hr with hr | hr
    · exact hb.range r hr b hmem hkey
    · obtain rfl := List.mem_singleton.mp hr
      -- the artifact of the new chunk is the only one of its index
      obtain rfl : a = b := hb.artifacts.eq_of_mem ha hmem (hindex.trans hkey)
      exact hrange

/-- There is no new chunk to accept once all are. -/
theorem not_full (h : before.Grows after) : ¬ before.Full := by
  intro hfull
  obtain ⟨row, -, hnew, a, ha, hindex, hlow, hhigh⟩ := h.chunk
  obtain ⟨r, hr, hrindex, hri⟩ := hfull a ha row.chunkIndex.toNat (by omega)
  refine hnew r hr (Prod.ext (hrindex.trans hindex) ?_)
  show r.chunkIndex = row.chunkIndex
  omega

end Grows

/-- An upload that has ended. -/
def ended : UploadRows := ⟨none, [], []⟩

/-- The rows a request may leave when it does not come to a good end. -/
def CutOff (before now : UploadRows) : Prop :=
  now = ended ∨ now = before ∨ before.Grows now

/-- **`Refreshes`** — a chunk is accepted and the status is set to what the chunks then say. -/
def Refreshes (before now : UploadRows) : Prop :=
  ∃ mid, before.Grows mid ∧ now.artifacts = mid.artifacts ∧ now.chunks = mid.chunks ∧
    ∃ upload : UploadRow, now.upload =
      some { upload with status := if mid.Full then .artifactUploaded else .created }

/-- The rows a request leaves that is answered well: of an active upload, and either the chunk was
there already or it is new and the status refreshed. -/
def Answered (before now : UploadRows) : Prop :=
  before.upload ≠ none ∧ (now = before ∨ before.Refreshes now)

end UploadRows

/-! ## §2 — One request. -/

/-- A step that leaves the rows of the upload as they are: requests about other uploads, passes over
the archive, file operations of earlier requests that happen late. -/
def Elsewhere (uploadId : String) (s s' : Shared) : Prop :=
  s'.db.rowsOf uploadId = s.db.rowsOf uploadId

theorem keptBy_elsewhere {uploadId : String} (P : UploadRows → Prop) :
    KeptBy (Elsewhere uploadId) fun s => P (s.db.rowsOf uploadId) := by
  intro s s' hstep hs
  rwa [← hstep] at hs

theorem Db.chunksOf_rowsOf (db : Db) (uploadId : String) (artifactIndex : ℤ) :
    db.chunksOf uploadId artifactIndex = (db.rowsOf uploadId).chunksOf artifactIndex := by
  unfold Db.chunksOf UploadRows.chunksOf Db.rowsOf
  rw [List.filter_filter]
  refine congrArg _ (List.filter_congr fun r _ => ?_)
  rw [Bool.and_comm, ← Bool.decide_and]

/-- A row found under its key is one of the upload's rows, and none is there when none is found. -/
theorem Db.chunk_rowsOf (db : Db) (uploadId : String) (artifactIndex chunkIndex : ℤ) :
    (∀ r, db.chunk uploadId artifactIndex chunkIndex = some r → r ∈ (db.rowsOf uploadId).chunks ∧
      (r.artifactIndex, r.chunkIndex) = (artifactIndex, chunkIndex)) ∧
    (db.chunk uploadId artifactIndex chunkIndex = none → ∀ r ∈ (db.rowsOf uploadId).chunks,
      (r.artifactIndex, r.chunkIndex) ≠ (artifactIndex, chunkIndex)) := by
  constructor
  · intro r hr
    unfold Db.chunk at hr
    have hmem := List.mem_of_find?_eq_some hr
    have hkey := List.find?_some hr
    obtain ⟨hid, hindex, hchunk⟩ := of_decide_eq_true hkey
    exact ⟨List.mem_filter.mpr ⟨hmem, decide_eq_true hid⟩, Prod.ext hindex hchunk⟩
  · intro hnone r hr hkey
    obtain ⟨hmem, hid⟩ := List.mem_filter.mp hr
    obtain ⟨hindex, hchunk⟩ := Prod.mk.inj hkey
    have hmiss := List.find?_eq_none.mp hnone r hmem
    exact hmiss (decide_eq_true ⟨of_decide_eq_true hid, hindex, hchunk⟩)

section Request

variable {c : Crates} {α β κ : Type} {uploadId : String} {before rows : UploadRows} {t : TaskId}

/-- **`Covered`** — run from these rows of the upload, the program may be cut off or fail where its
rows are still as a request may leave them, and what it returns satisfies `Q` with the rows it
leaves. -/
def Covered (uploadId : String) (before : UploadRows) (t : TaskId) (p : Handler κ α)
    (Q : α → UploadRows → Prop) (rows : UploadRows) : Prop :=
  ∀ s : Shared, s.db.rowsOf uploadId = rows →
    CoversE system (Elsewhere uploadId) t (fun s => before.CutOff (s.db.rowsOf uploadId)) p
      (fun a s => Q a (s.db.rowsOf uploadId))
      (fun _ s => before.CutOff (s.db.rowsOf uploadId)) s

namespace Covered

variable {p : Handler κ α} {Q : α → UploadRows → Prop}

theorem pure {a : α} (h : Q a rows) : Covered uploadId before t (Pure.pure a : Handler κ α) Q
    rows := by
  rintro s rfl
  exact CoversE.pure h

theorem throw {e : κ} (h : before.CutOff rows) :
    Covered uploadId before t (MonadExcept.throw e : Handler κ α) Q rows := by
  rintro s rfl
  exact CoversE.throw h

theorem bind {f : α → Handler κ β} {Q' : β → UploadRows → Prop}
    (h : Covered uploadId before t p Q rows)
    (hf : ∀ a rows', Q a rows' → Covered uploadId before t (f a) Q' rows') :
    Covered uploadId before t (p >>= f) Q' rows :=
  fun s hs => CoversE.bind (h s hs) fun a s' hq => hf a _ hq s' rfl

theorem mono {Q' : α → UploadRows → Prop} (h : Covered uploadId before t p Q rows)
    (hQ : ∀ a rows, Q a rows → Q' a rows) : Covered uploadId before t p Q' rows :=
  fun s hs => CoversE.mono (h s hs) (fun a _ hq => hQ a _ hq) fun _ _ he => he

/-- What does not touch the rows. -/
theorem of_keeps (hkeeps : KeepsE t (fun s => s.db.rowsOf uploadId = rows) p)
    (hcut : before.CutOff rows) : Covered uploadId before t p (fun _ now => now = rows) rows := by
  intro s hs
  have hcovers : CoversE system (Elsewhere uploadId) t
      (fun s => before.CutOff (s.db.rowsOf uploadId)) p (fun _ s => s.db.rowsOf uploadId = rows)
      (fun _ s => s.db.rowsOf uploadId = rows) s :=
    CoversE.of_keeps hkeeps (keptBy_elsewhere (· = rows)) (fun s hs => by rwa [hs]) hs
  exact hcovers.mono (fun _ _ h => h) fun _ _ h => by rwa [h]

/-- A step that needs nothing from what came before but that it does not touch the rows. -/
theorem keeps_bind {f : α → Handler κ β} {Q' : β → UploadRows → Prop}
    (hkeeps : KeepsE t (fun s => s.db.rowsOf uploadId = rows) p) (hcut : before.CutOff rows)
    (hf : ∀ a, Covered uploadId before t (f a) Q' rows) :
    Covered uploadId before t (p >>= f) Q' rows := by
  refine (of_keeps hkeeps hcut).bind fun a rows' hrows => ?_
  subst hrows
  exact hf a

theorem check_bind {x : Except κ α} {f : α → Handler κ β} {Q' : β → UploadRows → Prop}
    (hcut : before.CutOff rows) (hf : ∀ a, x = .ok a → Covered uploadId before t (f a) Q' rows) :
    Covered uploadId before t (check x >>= f) Q' rows := by
  cases x with
  | ok a => exact hf a rfl
  | error e =>
    rintro s rfl
    exact hcut

theorem guard {b : Prop} {_ : Decidable b} {e : κ} {f : PUnit → Handler κ α}
    (hcut : before.CutOff rows) (h : ¬ b → Covered uploadId before t (f ⟨⟩) Q rows) :
    Covered uploadId before t (if b then MonadExcept.throw e >>= f else f ⟨⟩) Q rows := by
  rintro s rfl
  exact CoversE.guard hcut fun hb => h hb s rfl

/-- A read of the database. -/
theorem query {onFault : κ} {f : Db → Except κ α} (hcut : before.CutOff rows)
    (h : ∀ (db : Db) a, db.rowsOf uploadId = rows → f db = .ok a → Q a rows) :
    Covered uploadId before t (Patwari.query onFault f) Q rows := by
  intro s hs
  refine Covers.atomic fun s' hr => ?_
  have hs' : s'.db.rowsOf uploadId = rows := (keptBy_elsewhere (· = rows)).star hr hs
  refine ⟨by rwa [hs'], fun e _ => ?_⟩
  cases e.fault with
  | some fault => exact (by rwa [hs'] : before.CutOff (s'.db.rowsOf uploadId))
  | none =>
    show Lib.Discipline.outcome _ _ (f s'.db) s'
    cases hf : f s'.db with
    | ok a => exact (by rw [hs']; exact h s'.db a hs' hf : Q a (s'.db.rowsOf uploadId))
    | error err => exact (by rwa [hs'] : before.CutOff (s'.db.rowsOf uploadId))

/-- A write transaction, which happens whole or not at all. -/
theorem transaction {w : Write} {onFault : Fault → κ} {ids : List String}
    {accepted : List AcceptedChunk} {f : Db → Except κ (α × Db)} (hcut : before.CutOff rows)
    (h : ∀ (db db' : Db) a, db.rowsOf uploadId = rows → f db = .ok (a, db') →
      Q a (db'.rowsOf uploadId)) :
    Covered uploadId before t (Patwari.transaction w onFault ids accepted f) Q rows := by
  intro s hs
  refine Covers.atomic fun s' hr => ?_
  have hs' : s'.db.rowsOf uploadId = rows := (keptBy_elsewhere (· = rows)).star hr hs
  have hstays : before.CutOff (s'.db.rowsOf uploadId) := by rwa [hs']
  refine ⟨hstays, fun e _ => ?_⟩
  cases e.fault with
  | some fault => exact hstays
  | none =>
    by_cases hwriter : s'.writer.isSome
    · simp only [hwriter, if_true]
      exact hstays
    · simp only [hwriter, Bool.false_eq_true, if_false]
      cases hf : f s'.db with
      | error err => exact hstays
      | ok r => exact h s'.db r.2 r.1 hs' hf

/-- A program whose outcome is looked at as a value. -/
theorem attempt {κ' : Type} {p : Handler κ α} (h : Covered uploadId before t p Q rows) :
    Covered uploadId before t (Patwari.attempt p : Handler κ' (Except κ α))
      (fun r now => match r with
        | .ok a => Q a now
        | .error _ => before.CutOff now) rows := by
  intro s hs
  refine Covers.bind (h s hs) fun r s' hr => ?_
  cases r <;> exact hr

end Covered

theorem cutOff_self (rows : UploadRows) : rows.CutOff rows := Or.inr (Or.inl rfl)

/-- Ending an upload leaves none, and nothing else about its rows is said. -/
theorem covered_terminalizeUploadLocked {upload : UploadRow} {reason : TerminalReason}
    (hupload : upload.id = uploadId) :
    Covered uploadId before t (terminalizeUploadLocked c upload reason)
      (fun _ now => before.CutOff now) before := by
  refine .keeps_bind keeps_nowRfc3339 (cutOff_self before) fun terminalAt => ?_
  refine .bind (.transaction (Q := fun _ now => before.CutOff now) (cutOff_self before)
    fun db db' ended hrows h => ?_) fun ended now hnow => ?_
  · rcases terminalizeUpload_ok h with ⟨-, -, rfl⟩ | ⟨current, -, -, -, -, rfl⟩
    · exact Or.inr (Or.inl hrows)
    · subst hupload
      have hnone {ρ : Type} (key : ρ → String) (l : List ρ) :
          (l.filter fun r => decide (key r ≠ upload.id)).filter
            (fun r => decide (key r = upload.id)) = [] := by
        rw [List.filter_filter, List.filter_eq_nil_iff]
        intro r _ hr
        obtain ⟨hsame, hother⟩ := Bool.and_eq_true_iff.mp hr
        exact of_decide_eq_true hother (of_decide_eq_true hsame)
      have hchunks := hnone UploadChunkRow.uploadId db.uploadChunks
      have hartifacts : (endUpload upload reason terminalAt db).uploadArtifactsOf upload.id =
        [] := by
        unfold Db.uploadArtifactsOf endUpload
        rw [hnone UploadArtifactRow.uploadId db.uploadArtifacts]
        rfl
      have hgone : (endUpload upload reason terminalAt db).upload upload.id = none := by
        refine List.find?_eq_none.mpr fun r hr hid => ?_
        exact of_decide_eq_true (List.mem_filter.mp hr).2 (of_decide_eq_true hid)
      left
      unfold Db.rowsOf
      rw [hgone, hartifacts]
      exact congrArg _ hchunks
  · split
    · refine .keeps_bind (keeps_lift (keeps_fileOp fun _ _ _ hs => hs)) hnow fun removed => ?_
      cases removed with
      | ok _ => exact .pure hnow
      | error _ => exact .throw hnow
    · exact .pure hnow

theorem covered_requireActiveUpload :
    Covered uploadId before t (requireActiveUpload c uploadId)
      (fun upload now => now = before ∧ before.upload = some upload ∧ upload.id = uploadId)
      before := by
  refine .bind (.query (Q := fun found now => now = before ∧ found = before.upload ∧
    ∀ u, found = some u → u.id = uploadId) (cutOff_self before)
    fun db found hrows h => ?_) fun found now hfound => ?_
  · rw [← pure_eq_ok.mp h, ← hrows]
    exact ⟨rfl, rfl, fun u hu => (Db.upload_some hu).2⟩
  · obtain ⟨rfl, rfl, hid⟩ := hfound
    cases hupload : now.upload with
    | none => exact .throw (cutOff_self now)
    | some upload =>
      show Covered uploadId now t (if upload.status = .completed then Pure.pure upload else _) _ now
      split
      · exact .pure ⟨rfl, rfl, hid upload hupload⟩
      · refine .keeps_bind (keeps_lift keeps_nowUtc) (cutOff_self now) fun clock => ?_
        refine .check_bind (cutOff_self now) fun expired _ => ?_
        split
        · exact (covered_terminalizeUploadLocked (hid upload hupload)).bind fun _ _ hcut =>
            .throw hcut
        · exact .pure ⟨rfl, rfl, hid upload hupload⟩

/-! The judgment, and the statement that writes it. -/

theorem covered_artifactsComplete {artifacts : List UploadArtifactRow} (hcut : before.CutOff rows) :
    Covered uploadId before t (artifactsComplete uploadId artifacts) (fun complete now =>
      now = rows ∧ (complete = true ↔
        ∀ a ∈ artifacts, artifactComplete a (rows.chunksOf a.artifactIndex) = true)) rows := by
  induction artifacts with
  | nil => exact .pure ⟨rfl, iff_of_true rfl fun a ha => absurd ha List.not_mem_nil⟩
  | cons a rest ih =>
    refine .bind (.query (Q := fun chunks now => now = rows ∧ chunks =
      rows.chunksOf a.artifactIndex)
      hcut fun db chunks hrows h => ⟨rfl, ?_⟩) fun chunks now hchunks => ?_
    · rw [← pure_eq_ok.mp h, ← hrows]
      exact db.chunksOf_rowsOf uploadId a.artifactIndex
    · obtain ⟨rfl, rfl⟩ := hchunks
      split
      · next hcomplete =>
        refine ih.mono fun complete now' hrest => ⟨hrest.1, hrest.2.trans ?_⟩
        rw [List.forall_mem_cons, and_iff_right hcomplete]
      · next hmissing =>
        refine .pure ⟨rfl, iff_of_false Bool.false_ne_true fun hall => ?_⟩
        exact hmissing (hall a List.mem_cons_self)

/-- The refresh after a chunk was accepted. -/
theorem covered_refreshUploadStatus {mid : UploadRows} (hgrows : before.Grows mid)
    (hmid : mid.Tidy) (hactive : ∃ u, mid.upload = some u ∧ u.status.active = true) :
    Covered uploadId before t (refreshUploadStatus uploadId) (fun _ now => before.Refreshes now)
      mid := by
  have hcut : before.CutOff mid := Or.inr (Or.inr hgrows)
  refine .bind (Q := fun complete now => now = mid ∧ (complete = true ↔ mid.Full)) ?_
    fun complete now hcomplete => ?_
  · refine .bind (.query (Q := fun artifacts now => now = mid ∧ artifacts = mid.artifacts) hcut
      fun db artifacts hrows h => ⟨rfl, ?_⟩) fun artifacts now hartifacts => ?_
    · rw [← pure_eq_ok.mp h, ← hrows]
      rfl
    · obtain ⟨rfl, rfl⟩ := hartifacts
      refine .guard hcut fun _ => ?_
      refine (covered_artifactsComplete hcut).mono fun complete now' h => ⟨h.1, ?_⟩
      rw [h.2, hmid.full_iff]
  · obtain ⟨rfl, hjudged⟩ := hcomplete
    refine .transaction hcut fun db db' a hrows h => ?_
    obtain ⟨-, rfl⟩ := Prod.mk.inj (pure_eq_ok.mp h)
    obtain ⟨u, hu, hstatus⟩ := hactive
    refine ⟨now, hgrows, ?_, ?_, u, ?_⟩
    · rw [← hrows]
      rfl
    · rw [← hrows]
      rfl
    · have hfound : db.upload uploadId = some u := by
        rw [← hu, ← hrows]
        rfl
      have hselected : (decide (u.id = uploadId) && u.status.active) = true := by
        rw [(Db.upload_some hfound).2, hstatus, decide_eq_true rfl]
        rfl
      show (updateWhere _ _ db.uploads).find? _ = _
      refine Eq.trans (Lib.find?_updateWhere fun _ _ => rfl) ?_
      show (db.upload uploadId).map _ = _
      rw [hfound, Option.map_some]
      show some (if (decide (u.id = uploadId) && u.status.active) = true then _ else _) = _
      rw [if_pos hselected]
      by_cases hfull : now.Full
      · rw [if_pos hfull, hjudged.mpr hfull]
        rfl
      · rw [if_neg hfull, Bool.not_eq_true _ |>.mp (mt hjudged.mp hfull)]
        rfl

/-! Storing a chunk. -/

theorem keeps_storeChunkFile {P : Shared → Prop} (hfs : ∀ s fs, P s → P { s with fs := fs })
    (hissued : ∀ s id, P s → P { s with issued := (id, t) :: s.issued }) {artifactIndex chunkIndex :
      ℕ}
    {body : List BodyFrame} {requestChunk : ChunkRequest} :
    KeepsE t P (storeChunkFile c uploadId artifactIndex chunkIndex body requestChunk) := by
  have hfile {f : FileStore → Except IoError FileStore} {κ : Type} :
      KeepsE t P (liftM (fileOp f) : Handler κ (Except IoError Unit)) :=
    keeps_lift (keeps_fileOp fun s fs _ hs => hfs s fs hs)
  have hframes (path : FilePath) (maximum : ℕ) (frames : List BodyFrame) (received : Bytes) :
      KeepsE t P (writeFrames path maximum frames received) := by
    induction frames generalizing received with
    | nil => exact KeepsE.pure _
    | cons frame rest ih =>
      cases frame with
      | failed => exact KeepsE.throw _
      | trailers => exact ih received
      | data bytes =>
        unfold writeFrames
        refine KeepsE.guard ?_
        exact KeepsE.bind hfile fun _ => KeepsE.bind keeps_orFail fun _ => ih _
  have hbody (path : FilePath) : KeepsE t P (writeChunkBody c body path requestChunk) := by
    refine KeepsE.bind hfile fun _ => KeepsE.bind keeps_orFail fun _ => ?_
    refine KeepsE.bind (hframes _ _ _ _) fun received => ?_
    refine KeepsE.bind hfile fun _ => KeepsE.bind keeps_orFail fun _ => ?_
    exact KeepsE.guard (KeepsE.pure _)
  refine KeepsE.bind hfile fun _ => KeepsE.bind keeps_orFail fun _ => ?_
  refine KeepsE.bind (keeps_lift (keeps_freshId hissued)) fun uuid => ?_
  refine KeepsE.bind (keeps_attempt (hbody _)) fun written => ?_
  cases written with
  | error _ => exact KeepsE.bind hfile fun _ => KeepsE.throw _
  | ok _ =>
    refine KeepsE.bind hfile fun linked => ?_
    cases linked with
    | ok _ =>
      refine KeepsE.bind hfile fun synced => ?_
      cases synced with
      | ok _ => exact KeepsE.pure _
      | error _ =>
        refine KeepsE.bind hfile fun _ => KeepsE.bind (keeps_lift ?_) fun _ => KeepsE.throw _
        exact keeps_fileStep fun s fs _ hs => hfs s fs hs
    | error err =>
      cases err with
      | alreadyExists =>
        refine KeepsE.bind (keeps_attempt keeps_fileRead) fun verified => ?_
        cases verified with
        | ok _ => exact KeepsE.pure _
        | error _ => exact KeepsE.bind hfile fun _ => KeepsE.throw _
      | _ => exact KeepsE.bind hfile fun _ => KeepsE.throw _

/-- A chunk inside the layout. -/
theorem expectedChunkLength_index {upload : UploadRow} {artifact : UploadArtifactRow}
    {chunkIndex length : ℕ} (h : expectedChunkLength upload artifact chunkIndex = .ok length) :
    (chunkIndex : ℤ) < artifact.chunkCount := by
  unfold expectedChunkLength at h
  simp only [throw_bind, bind_eq_ok, ite_throw_eq_ok, not_le] at h
  obtain ⟨count, hcount, hindex, -⟩ := h
  unfold unsignedColumn at hcount
  split_ifs at hcount with hpos
  have hvalue := pure_eq_ok.mp hcount
  omega

/-- A chunk that had no row: when the request is answered, there is one and the status is fresh. -/
theorem covered_acceptChunk {upload : UploadRow} {artifact : UploadArtifactRow}
    {artifactIndex chunkIndex : ℕ} {body : List BodyFrame} {requestChunk : ChunkRequest}
    (hid : upload.id = uploadId) (hbefore : before.Tidy) (hartifact : artifact ∈ before.artifacts)
    (hindex : artifact.artifactIndex = artifactIndex)
    (hnew : ∀ r ∈ before.chunks,
      (r.artifactIndex, r.chunkIndex) ≠ ((artifactIndex : ℤ), (chunkIndex : ℤ))) :
    Covered uploadId before t
      (acceptChunk c upload artifact artifactIndex chunkIndex body requestChunk)
      (fun _ now => before.Refreshes now) before := by
  subst hid
  have hcut := cutOff_self before
  refine .check_bind hcut fun expectedLength hlength => ?_
  refine .guard hcut fun _ => ?_
  refine .keeps_bind (keeps_storeChunkFile (fun _ _ hs => hs) fun _ _ hs => hs) hcut
    fun temporaryPath => ?_
  refine .keeps_bind keeps_nowRfc3339 hcut fun now => ?_
  refine .bind (.attempt (Q := fun _ now => before.Grows now ∧
    ∃ u, now.upload = some u ∧ u.status.active = true) (.transaction hcut ?_)) ?_
  · intro db db' a hrows h
    obtain ⟨⟨u, hu, hactive⟩, hrow⟩ := persistChunkRecord_ok h
    rcases hrow with ⟨-, rfl⟩ | ⟨existing, hexisting, -, -, rfl⟩
    · refine ⟨⟨?_, ?_, ⟨upload.id, artifactIndex, chunkIndex, requestChunk.byteLength,
        digestStorageValue requestChunk.sha256, now⟩, ?_, hnew, artifact, hartifact, hindex,
          Int.natCast_nonneg chunkIndex,
        expectedChunkLength_index hlength⟩, u, hu, hactive⟩
      · rw [← hrows]
        rfl
      · rw [← hrows]
        rfl
      · show (db.uploadChunks ++ [_]).filter _ = _
        rw [List.filter_append, ← hrows]
        refine congrArg _ (List.filter_cons_of_pos ?_)
        exact decide_eq_true rfl
    · -- the row would have been found before
      obtain ⟨hmem, hkey⟩ := (Db.chunk_rowsOf _ _ _ _).1 existing hexisting
      rw [hrows] at hmem
      exact absurd hkey (hnew existing hmem)
  · intro accepted now haccepted
    have hleft : before.CutOff now := by
      cases accepted with
      | ok _ => exact Or.inr (Or.inr haccepted.1)
      | error _ => exact haccepted
    refine .keeps_bind (keeps_lift (keeps_fileOp fun _ _ _ hs => hs)) hleft fun cleanup => ?_
    cases accepted with
    | error _ => exact .throw hleft
    | ok _ =>
      cases cleanup with
      | error _ => exact .throw hleft
      | ok _ =>
        obtain ⟨hgrows, hactive⟩ := haccepted
        exact covered_refreshUploadStatus hgrows (hgrows.tidy hbefore) hactive

/-- **`covered_putArtifactChunk`** — one request, wherever it is cut off and whatever fails. -/
theorem covered_putArtifactChunk {request : PutChunkRequest} (hbefore : before.Tidy)
    (htarget : parseUuidText request.uploadId "upload identifier is not a UUID" = .ok uploadId) :
    Covered uploadId before t (putArtifactChunk c request) (fun _ now => before.Answered now)
      before := by
  have hcut := cutOff_self before
  unfold putArtifactChunk
  rw [htarget]
  refine .check_bind hcut fun given hgiven => ?_
  obtain rfl := Except.ok.inj hgiven
  refine .check_bind hcut fun artifactIndex _ => ?_
  refine .check_bind hcut fun chunkIndex _ => ?_
  refine .check_bind hcut fun _ _ => ?_
  refine .keeps_bind (keeps_lift (Keeps.await fun _ hs => hs)) hcut fun _ => ?_
  refine .bind covered_requireActiveUpload fun upload now hupload => ?_
  obtain ⟨rfl, hupload, hid⟩ := hupload
  refine .guard hcut fun _ => ?_
  refine .bind (.query (Q := fun artifact rows => rows = now ∧ artifact ∈ now.artifacts ∧
    artifact.artifactIndex = artifactIndex) hcut ?_) fun artifact rows hartifact => ?_
  · intro db artifact hrows h
    have hfound : db.uploadArtifact uploadId artifactIndex = some artifact := okOr_eq_ok.mp h
    unfold Db.uploadArtifact at hfound
    have hmem := List.mem_of_find?_eq_some hfound
    have hkey := List.find?_some hfound
    obtain ⟨hof, hindex⟩ := of_decide_eq_true hkey
    refine ⟨rfl, ?_, hindex⟩
    rw [← hrows]
    exact (List.mem_insertionSort _).mpr (List.mem_filter.mpr ⟨hmem, decide_eq_true hof⟩)
  · obtain ⟨rfl, hartifact, hindex⟩ := hartifact
    have hrest (expected : ChunkRequest) : Covered uploadId rows t
        (answerPut c uploadId upload artifact artifactIndex chunkIndex request.body expected)
        (fun _ now => rows.Answered now) rows := by
      have hsome : rows.upload ≠ none := by
        rw [hupload]
        exact Option.some_ne_none upload
      refine .bind (.query (Q := fun found now => now = rows ∧
        (found = none → ∀ r ∈ rows.chunks,
          (r.artifactIndex, r.chunkIndex) ≠ ((artifactIndex : ℤ), (chunkIndex : ℤ)))) hcut
        fun db found hrows h => ?_) fun found now hfound => ?_
      · obtain rfl := pure_eq_ok.mp h
        have hnew := (db.chunk_rowsOf uploadId artifactIndex chunkIndex).2
        rw [hrows] at hnew
        exact ⟨rfl, hnew⟩
      · obtain ⟨rfl, hnew⟩ := hfound
        cases found with
        | none =>
          refine (covered_acceptChunk hid hbefore hartifact hindex (hnew rfl)).mono fun _ _ h => ?_
          exact ⟨hsome, Or.inr h⟩
        | some existing =>
          refine .check_bind hcut fun byteLength _ => ?_
          refine .guard hcut fun _ => ?_
          refine (Covered.of_keeps keeps_fileRead hcut).mono fun _ _ h => ?_
          exact ⟨hsome, Or.inl h⟩
    refine .check_bind hcut fun headers _ => ?_
    cases headers with
    | some expected => exact hrest expected
    | none => exact .check_bind hcut fun expected _ => hrest expected

end Request

/-! ## §3 — A sequence of requests. -/

/-- A request that came to its end or was cut off: where it started, what was left of it, and the
state it left. -/
structure PutAttempt where
  before : Shared
  rest : Program (Except ApiError Unit)
  after : Shared

/-- The attempt accepted the last missing chunk and was dropped, or failed, without an answer: the
status was not refreshed for it. -/
def PutAttempt.LosesRefresh (uploadId : String) (attempt : PutAttempt) : Prop :=
  ¬ (attempt.before.db.rowsOf uploadId).Full ∧ (attempt.after.db.rowsOf uploadId).Full ∧
    attempt.rest ≠ .done (.ok ())

/-- The way of one request, with steps elsewhere in between, to what is left of it. -/
def PutReaches (c : Crates) (uploadId : String) (t : TaskId) (request : PutChunkRequest)
    (s : Shared) (rest : Program (Except ApiError Unit)) (s' : Shared) : Prop :=
  parseUuidText request.uploadId "upload identifier is not a UUID" = .ok uploadId ∧
    Relation.ReflTransGen (Beside system (Elsewhere uploadId) t)
      ((putArtifactChunk c request).run, s) (rest, s')

/-- **`PutSequence`** — requests for one upload, one after another: each may be dropped at any of
its actions, may fail, or may be answered, and steps elsewhere come in between. -/
inductive PutSequence (c : Crates) (uploadId : String) (s₀ : Shared) :
    List PutAttempt → Shared → Prop
  | start : PutSequence c uploadId s₀ [] s₀
  | elsewhere {attempts : List PutAttempt} {s s' : Shared}
      (h : PutSequence c uploadId s₀ attempts s) (hstep : Elsewhere uploadId s s') :
      PutSequence c uploadId s₀ attempts s'
  | put {attempts : List PutAttempt} {s s' : Shared} {t : TaskId} {request : PutChunkRequest}
      {rest : Program (Except ApiError Unit)} (h : PutSequence c uploadId s₀ attempts s)
      (hput : PutReaches c uploadId t request s rest s') :
      PutSequence c uploadId s₀ (attempts ++ [⟨s, rest, s'⟩]) (s'.cleanup t)

namespace UploadRows

variable {rows now : UploadRows}

/-- The status says created though every chunk is accepted. -/
def Stale (rows : UploadRows) : Prop :=
  rows.Full ∧ ∃ upload, rows.upload = some upload ∧ upload.status = .created

theorem Stale.not_truthful (h : rows.Stale) : ¬ rows.Truthful := by
  obtain ⟨hfull, upload, hupload, hstatus⟩ := h
  intro htruthful
  have hsays := htruthful upload hupload
  rw [if_pos hfull, hstatus] at hsays
  exact absurd hsays (by decide)

theorem Refreshes.tidy (h : rows.Refreshes now) (hrows : rows.Tidy) : now.Tidy := by
  obtain ⟨mid, hgrows, hartifacts, hchunks, -⟩ := h
  have hmid := hgrows.tidy hrows
  constructor
  · rw [hartifacts]
    exact hmid.sized
  · rw [hartifacts]
    exact hmid.artifacts
  · rw [hchunks]
    exact hmid.chunks
  · rw [hartifacts, hchunks]
    exact hmid.range

theorem Refreshes.truthful (h : rows.Refreshes now) : now.Truthful := by
  obtain ⟨mid, -, hartifacts, hchunks, upload, hupload⟩ := h
  have hfull : now.Full ↔ mid.Full := by
    unfold Full
    rw [hartifacts, hchunks]
  intro u hu
  obtain rfl := Option.some.inj (hupload.symm.trans hu)
  simp only [hfull]

theorem tidy_ended : ended.Tidy := by
  constructor <;> simp [ended, UniqueOn]

/-- An accepted chunk that leaves the status alone keeps it right, unless it was the last one. -/
theorem Grows.truthful (h : rows.Grows now) (hrows : rows.Truthful) (hmissing : ¬ now.Full) :
    now.Truthful := by
  intro upload hupload
  have hsays := hrows upload (h.upload ▸ hupload)
  rw [if_neg h.not_full] at hsays
  rw [if_neg hmissing, hsays]

theorem Grows.stale (h : rows.Grows now) (hrows : rows.Truthful) (hsome : rows.upload ≠ none)
    (hfull : now.Full) : now.Stale := by
  obtain ⟨upload, hupload⟩ := Option.ne_none_iff_exists'.mp hsome
  have hsays := hrows upload hupload
  rw [if_neg h.not_full] at hsays
  exact ⟨hfull, upload, h.upload.trans hupload, hsays⟩

/-- **`Standing`** — what a sequence of attempts leaves of an upload: nothing, or an upload whose
status is right exactly if no attempt lost its refresh. -/
inductive Standing (rows : UploadRows) (kept : Prop) : Prop
  | ended (h : rows = ended)
  | truthful (h : rows.Truthful) (hsome : rows.upload ≠ none) (hkept : kept)
  | stale (h : rows.Stale) (hlost : ¬ kept)

/-- An attempt without an answer. -/
theorem Standing.cutOff {kept lost : Prop} (h : rows.Standing kept) (hcut : rows.CutOff now)
    (hlost : lost ↔ ¬ rows.Full ∧ now.Full) : now.Standing (kept ∧ ¬ lost) := by
  rcases hcut with hended | rfl | hgrows
  · exact .ended hended
  · have hkept : ¬ lost := fun hl => (hlost.mp hl).1 (hlost.mp hl).2
    cases h with
    | ended h => exact .ended h
    | truthful h hsome hk => exact .truthful h hsome ⟨hk, hkept⟩
    | stale h hl => exact .stale h fun hboth => hl hboth.1
  · cases h with
    | ended h =>
      subst h
      exact absurd (fun a ha => absurd ha List.not_mem_nil) hgrows.not_full
    | truthful h hsome hk =>
      by_cases hfull : now.Full
      · refine .stale (hgrows.stale h hsome hfull) fun hboth => hboth.2 ?_
        exact hlost.mpr ⟨hgrows.not_full, hfull⟩
      · refine .truthful (hgrows.truthful h hfull) ?_ ⟨hk, fun hl => hfull (hlost.mp hl).2⟩
        rw [hgrows.upload]
        exact hsome
    | stale h hl => exact absurd h.1 hgrows.not_full

/-- An answered attempt: the status is right after it unless it was stale before. -/
theorem Standing.answered {kept : Prop} (h : rows.Standing kept) (hanswered : rows.Answered now) :
    now.Standing kept ∧ (now.Truthful ↔ kept) := by
  obtain ⟨hsome, rfl | hrefreshes⟩ := hanswered
  · cases h with
    | ended h => exact absurd (congrArg UploadRows.upload h) hsome
    | truthful h hs hk => exact ⟨.truthful h hs hk, iff_of_true h hk⟩
    | stale h hl => exact ⟨.stale h hl, iff_of_false h.not_truthful hl⟩
  · -- a chunk was missing, so the status was not stale
    obtain ⟨mid, hgrows, -, -, upload, hupload⟩ := id hrefreshes
    have hsome' : now.upload ≠ none := by
      rw [hupload]
      exact Option.some_ne_none _
    cases h with
    | ended h => exact absurd (congrArg UploadRows.upload h) hsome
    | truthful _ _ hk =>
      exact ⟨.truthful hrefreshes.truthful hsome' hk, iff_of_true hrefreshes.truthful hk⟩
    | stale h _ => exact absurd h.1 hgrows.not_full

theorem CutOff.tidy (h : rows.CutOff now) (hrows : rows.Tidy) : now.Tidy := by
  rcases h with rfl | rfl | hgrows
  · exact tidy_ended
  · exact hrows
  · exact hgrows.tidy hrows

theorem Answered.tidy (h : rows.Answered now) (hrows : rows.Tidy) : now.Tidy := by
  obtain ⟨-, rfl | hrefreshes⟩ := h
  · exact hrows
  · exact hrefreshes.tidy hrows

end UploadRows

section Sequence

variable {c : Crates} {cfg : Config} {uploadId : String} {s s' s₀ : Shared} {t : TaskId}
  {request : PutChunkRequest} {rest : Program (Except ApiError Unit)} {attempts : List PutAttempt}

/-- What one attempt leaves, by how it ended. -/
theorem PutReaches.rows (h : PutReaches c uploadId t request s rest s')
    (htidy : (s.db.rowsOf uploadId).Tidy) :
    rest = .done (.ok ()) ∧ (s.db.rowsOf uploadId).Answered (s'.db.rowsOf uploadId) ∨
      rest ≠ .done (.ok ()) ∧ (s.db.rowsOf uploadId).CutOff (s'.db.rowsOf uploadId) := by
  have hcovers := covered_putArtifactChunk (c := c) (t := t) htidy h.1 s rfl
  have hkept : ∀ r : Except ApiError Unit, KeptBy (Elsewhere uploadId)
      (Lib.Discipline.outcome (fun _ s' => (s.db.rowsOf uploadId).Answered (s'.db.rowsOf uploadId))
        (fun _ s' => (s.db.rowsOf uploadId).CutOff (s'.db.rowsOf uploadId)) r) := by
    intro r
    cases r with
    | ok _ => exact keptBy_elsewhere (s.db.rowsOf uploadId).Answered
    | error _ => exact keptBy_elsewhere (s.db.rowsOf uploadId).CutOff
  rcases Covers.reached hkept hcovers h.2 with ⟨r, rfl, hr⟩ | ⟨hrest, hcut⟩
  · cases r with
    | ok _ => exact Or.inl ⟨rfl, hr⟩
    | error e =>
      refine Or.inr ⟨fun hdone => ?_, hr⟩
      exact nomatch Prog.done.inj hdone
  · exact Or.inr ⟨hrest _, hcut⟩

/-- One more attempt. -/
theorem PutReaches.standing (h : PutReaches c uploadId t request s rest s') {kept : Prop}
    (htidy : (s.db.rowsOf uploadId).Tidy) (hstanding : (s.db.rowsOf uploadId).Standing kept) :
    (s'.db.rowsOf uploadId).Tidy ∧ (s'.db.rowsOf uploadId).Standing
      (kept ∧ ¬ PutAttempt.LosesRefresh uploadId ⟨s, rest, s'⟩) := by
  rcases h.rows htidy with ⟨rfl, hanswered⟩ | ⟨hrest, hcut⟩
  · have hkept : ¬ PutAttempt.LosesRefresh uploadId ⟨s, .done (.ok ()), s'⟩ := fun hl => hl.2.2 rfl
    refine ⟨hanswered.tidy htidy, ?_⟩
    rw [and_iff_left hkept]
    exact (hstanding.answered hanswered).1
  · refine ⟨hcut.tidy htidy, hstanding.cutOff hcut ?_⟩
    exact ⟨fun hl => ⟨hl.1, hl.2.1⟩, fun hl => ⟨hl.1, hl.2, hrest⟩⟩

/-- The run lemma. -/
theorem PutSequence.standing (h : PutSequence c uploadId s₀ attempts s)
    (htidy : (s₀.db.rowsOf uploadId).Tidy) (hstart : (s₀.db.rowsOf uploadId).Standing True) :
    (s.db.rowsOf uploadId).Tidy ∧
      (s.db.rowsOf uploadId).Standing (∀ a ∈ attempts, ¬ a.LosesRefresh uploadId) := by
  induction h with
  | start =>
    refine ⟨htidy, ?_⟩
    have hall : True ↔ ∀ a ∈ ([] : List PutAttempt), ¬ a.LosesRefresh uploadId := by simp
    rwa [← hall]
  | elsewhere _ hstep ih =>
    unfold Elsewhere at hstep
    rwa [hstep]
  | @put attempts s s' t request rest _ hput ih =>
    obtain ⟨htidy', hstanding⟩ := hput.standing ih.1 ih.2
    refine ⟨htidy', ?_⟩
    have hall : (∀ a ∈ attempts ++ [⟨s, rest, s'⟩], ¬ a.LosesRefresh uploadId) ↔
        (∀ a ∈ attempts, ¬ a.LosesRefresh uploadId) ∧
          ¬ PutAttempt.LosesRefresh uploadId ⟨s, rest, s'⟩ := by
      rw [List.forall_mem_append, List.forall_mem_singleton]
    rw [hall]
    exact hstanding

/-- The identifier of a new upload is in no row yet. -/
structure NewUpload.Unseen (new : NewUpload) (db : Db) : Prop where
  artifacts : ∀ r ∈ db.uploadArtifacts, r.uploadId ≠ new.uploadId
  chunks : ∀ r ∈ db.uploadChunks, r.uploadId ≠ new.uploadId

/-- The rows of an upload that has just been created. -/
theorem rowsOf_persistUpload {db db' : Db} {new : NewUpload} (hunseen : new.Unseen db)
    (h : persistUpload c cfg new db = .ok (⟨new.uploadId, true⟩, db')) :
    ∃ row rows, row.status = (if new.layout.chunkCounts.all fun count => decide (count = 0) then
        .artifactUploaded else .created) ∧
      uploadArtifactRows new.uploadId (new.manifest.artifacts.zip new.layout.chunkCounts) 0 =
        .ok rows ∧
      db'.rowsOf new.uploadId =
        ⟨some row, rows.insertionSort fun a b => a.artifactIndex ≤ b.artifactIndex, []⟩ := by
  obtain ⟨sessionId, db₁, hsession, -, hbound | hfree⟩ := persistUpload_ok h
  · obtain ⟨existing, -, -, hcreated, -⟩ := hbound
    exact nomatch (CreatedUpload.mk.inj hcreated).2
  · obtain ⟨-, hfresh, -, row, hrow, hdetail⟩ := hfree
    obtain ⟨rows, hrows, -, rfl, -, -⟩ := persistNewUploadDetail_ok hdetail
    have hframe := getOrCreateSession_frame hsession
    have hartifacts : db₁.uploadArtifacts = db.uploadArtifacts := by rw [hframe]
    have hchunks : db₁.uploadChunks = db.uploadChunks := by rw [hframe]
    have hstatus : row.status = (if new.layout.chunkCounts.all fun count => decide (count = 0) then
        .artifactUploaded else .created) := by
      unfold newUploadRow at hrow
      simp only [bind_eq_ok, pure_eq_ok] at hrow
      obtain ⟨_, -, _, -, _, -, _, -, _, -, _, -, _, -, _, -, _, -, rfl⟩ := hrow
      rfl
    refine ⟨row, rows, hstatus, hrows, ?_⟩
    have hnew : (db₁.uploads ++ [row]).find? (fun r => decide (r.id = new.uploadId)) =
      some row := by
      rw [List.find?_append]
      show (db₁.upload new.uploadId).or _ = _
      rw [hfresh, Option.none_or, List.find?_cons_of_pos]
      exact decide_eq_true (newUploadRow_ok hrow).1
    have hold : (db₁.uploadArtifacts ++ rows).filter (fun r => decide (r.uploadId = new.uploadId)) =
        rows := by
      rw [List.filter_append, hartifacts, List.filter_eq_nil_iff.mpr, List.nil_append,
        List.filter_eq_self.mpr]
      · exact fun r hr => decide_eq_true ((uploadArtifactRows_ok hrows).2 r hr)
      · exact fun r hr hid => hunseen.artifacts r hr (of_decide_eq_true hid)
    have hnone : db₁.uploadChunks.filter (fun r => decide (r.uploadId = new.uploadId)) = [] := by
      rw [hchunks, List.filter_eq_nil_iff]
      exact fun r hr hid => hunseen.chunks r hr (of_decide_eq_true hid)
    unfold Db.rowsOf Db.upload Db.uploadArtifactsOf
    simp only [hnew, hold, hnone]

/-- One number of chunks for each artifact. -/
theorem layoutChunkCounts_length {chunkSize total : ℕ} {artifacts : List Artifact}
    {counts : List ℕ} (h : layoutChunkCounts chunkSize artifacts total = .ok counts) :
    counts.length = artifacts.length := by
  induction artifacts generalizing total counts with
  | nil =>
    obtain rfl := pure_eq_ok.mp h
    rfl
  | cons artifact rest ih =>
    unfold layoutChunkCounts at h
    simp only [bind_eq_ok, throw_bind, ite_throw_eq_ok, pure_eq_ok] at h
    obtain ⟨count, -, total', -, -, counts', hcounts', rfl⟩ := h
    rw [List.length_cons, List.length_cons, ih hcounts']

/-- The rows have the numbers of chunks of the layout. -/
theorem uploadArtifactRows_counts {entries : List (Artifact × ℕ)} {index : ℕ}
    {rows : List UploadArtifactRow} (h : uploadArtifactRows uploadId entries index = .ok rows) :
    rows.map UploadArtifactRow.chunkCount = entries.map fun e => (e.2 : ℤ) := by
  induction entries generalizing index rows with
  | nil =>
    obtain rfl := pure_eq_ok.mp h
    rfl
  | cons entry rest ih =>
    unfold uploadArtifactRows uploadArtifactRow at h
    simp only [bind_eq_ok, pure_eq_ok] at h
    obtain ⟨row, ⟨original, -, stored, -, count, hcount, rfl⟩, rows', hrows', rfl⟩ := h
    unfold toSqliteI64 at hcount
    split_ifs at hcount
    rw [List.map_cons, List.map_cons, ih hrows', ← pure_eq_ok.mp hcount]

/-- A created upload is tidy and its status is right. -/
theorem standing_persistUpload {db db' : Db} {new : NewUpload} (hunseen : new.Unseen db)
    (hlayout : uploadLayout new.manifest cfg.chunkSizeBytes = .ok new.layout)
    (h : persistUpload c cfg new db = .ok (⟨new.uploadId, true⟩, db')) :
    (db'.rowsOf new.uploadId).Tidy ∧ (db'.rowsOf new.uploadId).Standing True := by
  obtain ⟨row, rows, hstatus, hrows, heq⟩ := rowsOf_persistUpload hunseen h
  rw [heq]
  constructor
  · have hkeys : UniqueOn UploadArtifactRow.artifactIndex rows := by
      unfold UniqueOn
      rw [(uploadArtifactRows_keys hrows).2]
      exact List.Nodup.map (fun a b hab => Int.ofNat.inj hab) List.nodup_range'
    constructor
    · exact fun a ha => uploadArtifactRows_sized hrows a ((List.mem_insertionSort _).mp ha)
    · exact (((List.perm_insertionSort _ rows).symm).map _).nodup hkeys
    · exact List.nodup_nil
    · exact fun r hr => absurd hr List.not_mem_nil
  · have hcounts : rows.map UploadArtifactRow.chunkCount =
        new.layout.chunkCounts.map fun count : ℕ => (count : ℤ) := by
      have hlength : new.layout.chunkCounts.length = new.manifest.artifacts.length := by
        unfold uploadLayout at hlayout
        simp only [bind_eq_ok, pure_eq_ok] at hlayout
        obtain ⟨totals, -, counts, hcounts, heq⟩ := hlayout
        rw [← heq]
        exact layoutChunkCounts_length hcounts
      rw [uploadArtifactRows_counts hrows]
      show (new.manifest.artifacts.zip new.layout.chunkCounts).map
        ((fun count : ℕ => (count : ℤ)) ∘ Prod.snd) = _
      rw [← List.map_map, List.map_snd_zip hlength.le]
    -- without an accepted chunk all are accepted only when none is negotiated
    have hfull : (⟨some row, rows.insertionSort fun a b => a.artifactIndex ≤ b.artifactIndex,
        []⟩ : UploadRows).Full ↔
          (new.layout.chunkCounts.all fun count => decide (count = 0)) = true := by
      rw [List.all_eq_true]
      constructor
      · intro hall count hmem
        obtain ⟨a, ha, hac⟩ := List.mem_map.mp
          (hcounts ▸ List.mem_map_of_mem (f := fun count : ℕ => (count : ℤ)) hmem)
        rw [decide_eq_true_eq]
        by_contra hpos
        obtain ⟨r, hr, -⟩ := hall a ((List.mem_insertionSort _).mpr ha) 0 (by omega)
        exact absurd hr List.not_mem_nil
      · intro hzero a ha i hi
        obtain ⟨count, hmem, hac⟩ := List.mem_map.mp
          (hcounts ▸ List.mem_map_of_mem (f := UploadArtifactRow.chunkCount)
            ((List.mem_insertionSort _).mp ha))
        have hcount := of_decide_eq_true (hzero count hmem)
        omega
    refine .truthful (fun upload hupload => ?_) (Option.some_ne_none row) trivial
    obtain rfl := Option.some.inj hupload
    simp only [hstatus, hfull]

/-- **`uploadStatus_exact`** — after any sequence of requests for an upload since its creation,
dropped or failing at any step, a request that is answered leaves a right status exactly if no
earlier one accepted the last missing chunk and was cut off or failed before the status was
refreshed. -/
theorem uploadStatus_exact {new : NewUpload} {db : Db} (hunseen : new.Unseen s₀.db)
    (hlayout : uploadLayout new.manifest cfg.chunkSizeBytes = .ok new.layout)
    (hnew : persistUpload c cfg new s₀.db = .ok (⟨new.uploadId, true⟩, db))
    (hsequence : PutSequence c new.uploadId { s₀ with db := db } attempts s)
    (hput : PutReaches c new.uploadId t request s (.done (.ok ())) s') :
    (s'.db.rowsOf new.uploadId).Truthful ↔ ∀ a ∈ attempts, ¬ a.LosesRefresh new.uploadId := by
  obtain ⟨htidy₀, hstart⟩ := standing_persistUpload hunseen hlayout hnew
  obtain ⟨htidy, hstanding⟩ := hsequence.standing htidy₀ hstart
  rcases hput.rows htidy with ⟨-, hanswered⟩ | ⟨hdone, -⟩
  · exact (hstanding.answered hanswered).2
  · exact absurd rfl hdone

end Sequence

/-! ### One chunk, put twice. -/

/-- Two bytes with their real digest. -/
def statusBody : Bytes := [104, 105]

def statusDigest : String := "8f434346648f6b96df89dda901c5176b10a6d83961dd3c1ac88b59b2dc327aa4"

def statusCrates : Crates :=
  { Crates.sample [(statusBody, statusDigest)] with
    parseRfc3339 := minuteCrates.parseRfc3339
    formatRfc3339 := minuteCrates.formatRfc3339 }

/-- An upload of one artifact in one chunk. -/
def statusNew : NewUpload :=
  { reuseNew with
    manifest := { reuseManifest with
      artifacts := [⟨"notes.txt", none, 2, "sha256:" ++ statusDigest, 2, "sha256:" ++ statusDigest,
        .identity⟩] }
    layout := ⟨[1], 2, 2⟩ }

/-- An archive in which only the client is known. -/
def statusArchive : Shared :=
  { Shared.init with db := { Db.empty with clients := minuteState.db.clients } }

/-- The database once the upload is created. -/
def statusDb : Db :=
  match persistUpload statusCrates minuteConfig.toConfig statusNew statusArchive.db with
  | .ok (_, db) => db
  | .error _ => Db.empty

theorem statusDb_created :
    persistUpload statusCrates minuteConfig.toConfig statusNew statusArchive.db =
      .ok (⟨statusNew.uploadId, true⟩, statusDb) := by
  have hcreated : (match persistUpload statusCrates minuteConfig.toConfig statusNew
      statusArchive.db with
    | .ok (created, _) => created.wasCreated && decide (created.uploadId = statusNew.uploadId)
    | .error _ => false) = true := by decide +kernel
  unfold statusDb
  cases h : persistUpload statusCrates minuteConfig.toConfig statusNew statusArchive.db with
  | error e =>
    rw [h] at hcreated
    exact absurd hcreated Bool.false_ne_true
  | ok r =>
    rw [h] at hcreated
    obtain ⟨⟨id, created⟩, db⟩ := r
    obtain ⟨rfl, hid⟩ := Bool.and_eq_true_iff.mp hcreated
    obtain rfl := of_decide_eq_true hid
    rfl

theorem statusNew_unseen : statusNew.Unseen statusArchive.db :=
  ⟨fun _ hr => absurd hr List.not_mem_nil, fun _ hr => absurd hr List.not_mem_nil⟩

/-- The request for the chunk. -/
def statusRequest : PutChunkRequest where
  uploadId := statusNew.uploadId
  artifactIndex := "0"
  chunkIndex := "0"
  contentType := some (some "application/octet-stream")
  chunkSha256 := some (some ("sha256:" ++ statusDigest))
  chunkLength := some (some "2")
  body := [.data statusBody]

/-- Some actions of the request, under the sample identifiers from `first` on. -/
def statusPut (first actions : ℕ) (s : Shared) : Option (Program (Except ApiError Unit) × Shared) :=
  (putArtifactChunk statusCrates statusRequest).run.replay 0 freshEnv
    ((List.range actions).map fun k => sampleEnv 0 (first + k)) s

theorem statusPut_reaches {first actions : ℕ} {s s' : Shared}
    {rest : Program (Except ApiError Unit)} (hids : first + actions ≤ 256)
    (h : statusPut first actions s = some (rest, s')) :
    PutReaches statusCrates statusNew.uploadId 0 statusRequest s rest s' := by
  have hinputs : ∀ e ∈ (List.range actions).map fun k => sampleEnv 0 (first + k),
      ∀ s, freshEnv e s = true → system.envOk e s := by
    intro e he s hfresh
    obtain ⟨k, hk, rfl⟩ := List.mem_map.mp he
    have hlt := List.mem_range.mp hk
    exact ⟨isUuidV7_sampleUuid (by omega), of_decide_eq_true hfresh⟩
  exact ⟨by rfl, (Prog.steps_of_replay hinputs h).lift id fun _ _ hstep => .own hstep⟩

/-- The request has been answered well. -/
def answeredWell : Program (Except ApiError Unit) → Bool
  | .done (.ok ()) => true
  | _ => false

theorem answeredWell_iff {rest : Program (Except ApiError Unit)} :
    answeredWell rest = true ↔ rest = .done (.ok ()) := by
  cases rest with
  | done r => cases r <;> simp [answeredWell]
  | act _ _ _ _ => simp [answeredWell]

/-- Dropped before its row is committed and put again, the chunk completes the upload and the status
says so. -/
theorem uploadStatus_exact_sample : ∃ attempt s s',
    PutSequence statusCrates statusNew.uploadId { statusArchive with db := statusDb } [attempt] s ∧
    attempt.rest ≠ .done (.ok ()) ∧
    PutReaches statusCrates statusNew.uploadId 0 statusRequest s (.done (.ok ())) s' ∧
    (s'.db.rowsOf statusNew.uploadId).Full ∧ (s'.db.rowsOf statusNew.uploadId).Truthful := by
  have hput : (statusPut 20 13 { statusArchive with db := statusDb }).any (fun r =>
      (!answeredWell r.1 && decide (¬ (r.2.db.rowsOf statusNew.uploadId).Full)) &&
        (statusPut 40 18 (r.2.cleanup 0)).any fun r' =>
          answeredWell r'.1 && decide (r'.2.db.rowsOf statusNew.uploadId).Full) = true := by
    decide +kernel
  obtain ⟨⟨rest, s₁⟩, hfirst, hput⟩ := (Option.any_eq_true _ _).mp hput
  obtain ⟨hdropped, hput⟩ := Bool.and_eq_true_iff.mp hput
  obtain ⟨hcut, hmissing⟩ := Bool.and_eq_true_iff.mp hdropped
  obtain ⟨⟨rest', s'⟩, hsecond, hok⟩ := (Option.any_eq_true _ _).mp hput
  obtain ⟨hdone, hfull⟩ := Bool.and_eq_true_iff.mp hok
  obtain rfl := answeredWell_iff.mp hdone
  have hrest : rest ≠ .done (.ok ()) := fun hrest => by
    rw [answeredWell_iff.mpr hrest] at hcut
    exact Bool.false_ne_true hcut
  have hsequence := PutSequence.put .start (statusPut_reaches (by norm_num) hfirst)
  have hreaches := statusPut_reaches (by norm_num) hsecond
  refine ⟨_, _, s', hsequence, hrest, hreaches, of_decide_eq_true hfull, ?_⟩
  refine (uploadStatus_exact statusNew_unseen (by rfl) statusDb_created hsequence hreaches).mpr ?_
  intro attempt hattempt hloses
  rw [List.nil_append, List.mem_singleton] at hattempt
  subst hattempt
  exact of_decide_eq_true hmissing hloses.2.1

/-- Dropped once its row is committed and put again, the chunk is answered well while the status
still says created. -/
theorem uploadStatus_stale : ∃ attempts s s',
    PutSequence statusCrates statusNew.uploadId { statusArchive with db := statusDb } attempts s ∧
    PutReaches statusCrates statusNew.uploadId 0 statusRequest s (.done (.ok ())) s' ∧
    (s'.db.rowsOf statusNew.uploadId).Full ∧ ¬ (s'.db.rowsOf statusNew.uploadId).Truthful := by
  have hput : (statusPut 20 14 { statusArchive with db := statusDb }).any (fun r =>
      (statusPut 40 6 (r.2.cleanup 0)).any fun r' => answeredWell r'.1 &&
        (decide (r'.2.db.rowsOf statusNew.uploadId).Full &&
          (r'.2.db.rowsOf statusNew.uploadId).upload.any fun u => decide (u.status = .created))) =
      true := by
    decide +kernel
  obtain ⟨⟨rest, s₁⟩, hfirst, hput⟩ := (Option.any_eq_true _ _).mp hput
  obtain ⟨⟨rest', s'⟩, hsecond, hok⟩ := (Option.any_eq_true _ _).mp hput
  obtain ⟨hdone, hstale⟩ := Bool.and_eq_true_iff.mp hok
  obtain ⟨hfull, hstatus⟩ := Bool.and_eq_true_iff.mp hstale
  obtain ⟨upload, hupload, hcreated⟩ := (Option.any_eq_true _ _).mp hstatus
  obtain rfl := answeredWell_iff.mp hdone
  refine ⟨_, _, s', .put .start (statusPut_reaches (by norm_num) hfirst),
    statusPut_reaches (by norm_num) hsecond, of_decide_eq_true hfull, ?_⟩
  exact UploadRows.Stale.not_truthful
    ⟨of_decide_eq_true hfull, upload, hupload, of_decide_eq_true hcreated⟩

end Patwari
