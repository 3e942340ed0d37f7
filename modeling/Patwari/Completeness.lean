/-
# Patwari.Completeness — three judgments of whether an upload is complete.

The status refresh counts an artifact's accepted chunks and looks at the least and the greatest
index, the status response sets one bit for each accepted chunk and lists the rest, and a completion
walks the rows in index order. §1 shows that on a set of distinct indexes in range each of the three
is one question, whether there are as many rows as chunks. §2 puts the judgments side by side over
a whole upload.
-/
import Patwari.Alone
import Patwari.Layout
import Patwari.Transactions

namespace Patwari

open Lib (Prog TaskId UniqueOn)
open Lib.Prog (Answers AnswersE)

/-! ## §1 — One artifact. -/

/-- The accepted rows of one artifact: in index order, each index once and in range. -/
structure AcceptedRows (count : ℕ) (rows : List UploadChunkRow) : Prop where
  sorted : rows.Pairwise fun a b => a.chunkIndex < b.chunkIndex
  range : ∀ r ∈ rows, 0 ≤ r.chunkIndex ∧ r.chunkIndex < count

namespace AcceptedRows

variable {count : ℕ} {rows : List UploadChunkRow}

theorem indexes_sorted (h : AcceptedRows count rows) :
    (rows.map UploadChunkRow.chunkIndex).Pairwise (· < ·) :=
  List.pairwise_map.mpr h.sorted

/-- Rows under their indexes: all there are, exactly when there are as many as chunks. -/
theorem length_eq_iff (h : AcceptedRows count rows) :
    rows.length = count ↔ rows.map UploadChunkRow.chunkIndex =
      (List.range count).map Int.ofNat := by
  constructor
  · intro hlength
    have hrange : ((List.range count).map Int.ofNat).Pairwise (· < ·) := by
      rw [List.pairwise_map]
      exact List.pairwise_lt_range.imp fun hlt => Int.ofNat_lt.mpr hlt
    have hsub : rows.map UploadChunkRow.chunkIndex ⊆ (List.range count).map Int.ofNat := by
      intro i hi
      obtain ⟨r, hr, rfl⟩ := List.mem_map.mp hi
      obtain ⟨hlow, hhigh⟩ := h.range r hr
      refine List.mem_map.mpr ⟨r.chunkIndex.toNat, List.mem_range.mpr ?_, ?_⟩
      · omega
      · exact Int.toNat_of_nonneg hlow
    have hnodup : (rows.map UploadChunkRow.chunkIndex).Nodup := h.indexes_sorted.imp ne_of_lt
    have hperm := (hnodup.subperm hsub).perm_of_length_le (by simp [hlength])
    -- two increasing lists of the same members are one list
    exact hperm.eq_of_pairwise (fun a b _ _ hab hba => absurd hab (asymm hba)) h.indexes_sorted
      hrange
  · intro heq
    have hlength := congrArg List.length heq
    simpa using hlength

/-- A chunk is missing exactly when there are fewer rows than chunks. -/
theorem length_eq_iff_all (h : AcceptedRows count rows) :
    rows.length = count ↔ ∀ i < count, (i : ℤ) ∈ rows.map UploadChunkRow.chunkIndex := by
  constructor
  · intro hlength i hi
    rw [h.length_eq_iff.mp hlength]
    exact List.mem_map.mpr ⟨i, List.mem_range.mpr hi, rfl⟩
  · intro hall
    have hnodup : (rows.map UploadChunkRow.chunkIndex).Nodup := h.indexes_sorted.imp ne_of_lt
    have hinj : Function.Injective Int.ofNat := fun a b hab => Int.ofNat.inj hab
    have hrange : ((List.range count).map Int.ofNat).Nodup := List.nodup_range.map hinj
    have hle : ((List.range count).map Int.ofNat).length ≤
        (rows.map UploadChunkRow.chunkIndex).length := by
      refine (hrange.subperm fun i hi => ?_).length_le
      obtain ⟨k, hk, rfl⟩ := List.mem_map.mp hi
      exact hall k (List.mem_range.mp hk)
    have hge : (rows.map UploadChunkRow.chunkIndex).length ≤
        ((List.range count).map Int.ofNat).length := by
      refine (hnodup.subperm fun i hi => ?_).length_le
      obtain ⟨r, hr, rfl⟩ := List.mem_map.mp hi
      obtain ⟨hlow, hhigh⟩ := h.range r hr
      exact List.mem_map.mpr ⟨r.chunkIndex.toNat, List.mem_range.mpr (by omega),
        Int.toNat_of_nonneg hlow⟩
    simp only [List.length_map, List.length_range] at hle hge
    exact le_antisymm hge hle

/-- **The counting judge.** The number of rows decides; the least and the greatest index say nothing
more. -/
theorem artifactComplete_iff (h : AcceptedRows count rows) {artifact : UploadArtifactRow}
    (hcount : artifact.chunkCount = count) :
    artifactComplete artifact rows = true ↔ rows.length = count := by
  unfold artifactComplete
  simp only [hcount, Bool.and_eq_true, decide_eq_true_eq, List.length_map, Nat.cast_inj,
    Nat.cast_eq_zero, and_iff_left_iff_imp]
  intro hlength
  have heq := h.length_eq_iff.mp hlength
  by_cases hzero : count = 0
  · subst hzero
    rw [heq, if_pos rfl]
    rfl
  · rw [if_neg hzero, decide_eq_true_eq, heq]
    refine ⟨List.min?_eq_some_iff.mpr ⟨?_, ?_⟩, List.max?_eq_some_iff.mpr ⟨?_, ?_⟩⟩
    · exact List.mem_map.mpr ⟨0, List.mem_range.mpr (by omega), rfl⟩
    · intro i hi
      obtain ⟨k, -, rfl⟩ := List.mem_map.mp hi
      exact Int.natCast_nonneg k
    · refine List.mem_map.mpr ⟨count - 1, List.mem_range.mpr (by omega), ?_⟩
      show ((count - 1 : ℕ) : ℤ) = count - 1
      omega
    · intro i hi
      obtain ⟨k, hk, rfl⟩ := List.mem_map.mp hi
      have hlt := List.mem_range.mp hk
      show ((k : ℕ) : ℤ) ≤ count - 1
      omega

end AcceptedRows

/-- **The bitmap judge.** The loop sets the bits of the accepted rows and no others. -/
theorem acceptedBitmap_ok {count : ℕ} {rows : List UploadChunkRow} {bitmap : Bytes}
    (hroom : bitmap.length = (count + 7) / 8)
    (h : ∀ r ∈ rows, 0 ≤ r.chunkIndex ∧ r.chunkIndex < count) :
    ∃ full, acceptedBitmap count rows bitmap = .ok full ∧ full.length = bitmap.length ∧
      ∀ i : ℕ, Lib.Bitmap.holds full i = true ↔
        (i : ℤ) ∈ rows.map UploadChunkRow.chunkIndex ∨ Lib.Bitmap.holds bitmap i = true := by
  induction rows generalizing bitmap with
  | nil => exact ⟨bitmap, rfl, rfl, by simp⟩
  | cons row rest ih =>
    obtain ⟨hlow, hhigh⟩ := h row List.mem_cons_self
    have hlt : row.chunkIndex.toNat < count := by omega
    have hroom' : (Lib.Bitmap.add row.chunkIndex.toNat bitmap).length = (count + 7) / 8 := by
      simpa using hroom
    obtain ⟨full, hfull, hlength, hholds⟩ := ih hroom' fun r hr => h r (List.mem_cons_of_mem _ hr)
    refine ⟨full, ?_, by simpa using hlength, fun i => ?_⟩
    · rw [acceptedBitmap, unsignedColumn, if_pos hlow]
      simp only [pure_bind, if_neg (not_le.mpr hlt)]
      exact hfull
    · have hinside : row.chunkIndex.toNat < 8 * bitmap.length := by omega
      have hindex : i = row.chunkIndex.toNat ↔ (i : ℤ) = row.chunkIndex := by omega
      rw [hholds i, Lib.Bitmap.holds_add hinside, List.map_cons, List.mem_cons, hindex]
      tauto

/-- The error a completion reports while chunks are missing. -/
def ReportsIncomplete (r : Except ApiError (List UploadChunkRow)) : Prop :=
  ∃ message, r = .error (.conflict "artifact_incomplete" message)

/-- Whatever error a computation ends with satisfies `P`. -/
def ErrorsMeet {κ α : Type} (P : κ → Prop) (x : Except κ α) : Prop := ∀ e, x = .error e → P e

namespace ErrorsMeet

variable {κ α β : Type} {P : κ → Prop}

theorem pure (a : α) : ErrorsMeet P (Pure.pure a : Except κ α) := by
  intro e h
  cases h

theorem throw {e : κ} (h : P e) : ErrorsMeet P (MonadExcept.throw e : Except κ α) := by
  intro e' h'
  obtain rfl : e = e' := Except.error.inj h'
  exact h

theorem bind {x : Except κ α} {f : α → Except κ β} (hx : ErrorsMeet P x)
    (hf : ∀ a, ErrorsMeet P (f a)) : ErrorsMeet P (x >>= f) := by
  cases x with
  | ok a => exact hf a
  | error e => exact fun e' h => hx e' (congrArg Except.error (Except.error.inj h))

theorem ite {p : Prop} [Decidable p] {x y : Except κ α} (hx : ErrorsMeet P x)
    (hy : ErrorsMeet P y) : ErrorsMeet P (if p then x else y) := by
  split
  · exact hx
  · exact hy

/-- A check that fails with an error or goes on. -/
theorem guard {p : Prop} [Decidable p] {e : κ} {f : PUnit → Except κ α} (he : P e)
    (hf : ErrorsMeet P (f ⟨⟩)) :
    ErrorsMeet P (if p then MonadExcept.throw e >>= f else f ⟨⟩) :=
  ite (bind (throw he) fun _ => hf) hf

end ErrorsMeet

/-- Not the error of missing chunks. -/
def OtherError (e : ApiError) : Prop := e.code ≠ "artifact_incomplete"

theorem unsignedColumn_errors (value : ℤ) : ErrorsMeet OtherError (unsignedColumn value) :=
  .ite (.pure _) (.throw (by unfold OtherError; decide))

theorem expectedChunkLength_errors (upload : UploadRow) (artifact : UploadArtifactRow) (k : ℕ) :
    ErrorsMeet OtherError (expectedChunkLength upload artifact k) := by
  have hinternal : OtherError ApiError.internal := by unfold OtherError; decide
  have hinvalid (message : String) : OtherError (.invalid message) := by
    show "validation_error" ≠ "artifact_incomplete"
    decide
  refine .bind (unsignedColumn_errors _) fun count => .guard (hinvalid _) ?_
  refine .bind (unsignedColumn_errors _) fun chunkSize => ?_
  refine .bind (unsignedColumn_errors _) fun storedSize => .guard hinternal ?_
  exact .ite (.ite (.pure _) (.throw hinternal)) (.pure _)

/-- An error of the row loop in index order is about something else. -/
theorem checkChunkRows_errors (upload : UploadRow) (artifact : UploadArtifactRow)
    {rows : List UploadChunkRow} {k : ℕ}
    (h : ∀ (i : ℕ) (r : UploadChunkRow), rows[i]? = some r → r.chunkIndex = (k + i : ℕ)) :
    ErrorsMeet OtherError (checkChunkRows upload artifact rows k) := by
  have hlayout (message : String) : OtherError (.conflict "chunk_layout_invalid" message) := by
    show "chunk_layout_invalid" ≠ "artifact_incomplete"
    decide
  induction rows generalizing k with
  | nil => exact .pure _
  | cons row rest ih =>
    have hindex : row.chunkIndex = k := by simpa using h 0 row rfl
    have hrest := ih (k := k + 1) fun i r hr => by
      rw [h (i + 1) r (by simpa using hr), Nat.add_right_comm, Nat.add_assoc]
    rw [checkChunkRows, if_neg (not_not.mpr hindex)]
    refine .bind (expectedChunkLength_errors _ _ _) fun length => ?_
    refine .bind (.ite (.pure _) (.throw ?_)) fun length => .guard (hlayout _) ?_
    · show "validation_error" ≠ "artifact_incomplete"
      decide
    · split
      · exact .throw (hlayout _)
      · exact hrest

/-- **The walking judge.** A completion reports missing chunks exactly when there are too few
rows. -/
theorem acceptedChunkLayout_answers (now : ℤ) (t : TaskId) {s : Shared} {upload : UploadRow}
    {artifact : UploadArtifactRow} {count : ℕ} (hcount : artifact.chunkCount = count)
    (h : AcceptedRows count (s.db.chunksOf upload.id artifact.artifactIndex)) :
    ∃ r, AnswersE (Calm now) t s (acceptedChunkLayout upload artifact) r ∧
      (ReportsIncomplete r ↔
        (s.db.chunksOf upload.id artifact.artifactIndex).length ≠ count) := by
  have hcolumn : unsignedColumn artifact.chunkCount = .ok count := by
    rw [hcount, unsignedColumn, if_pos (Int.natCast_nonneg count)]
    rfl
  by_cases hlength : (s.db.chunksOf upload.id artifact.artifactIndex).length = count
  · -- the rows are those of all chunks in order, so the walk meets no gap
    have hindexes := h.length_eq_iff.mp hlength
    have hwalk : ∀ (i : ℕ) (r : UploadChunkRow),
        (s.db.chunksOf upload.id artifact.artifactIndex)[i]? = some r →
          r.chunkIndex = (0 + i : ℕ) := by
      intro i r hr
      have hget := congrArg (·[i]?) hindexes
      simp only [List.getElem?_map, hr, Option.map_some] at hget
      obtain ⟨k, hk, hkr⟩ := Option.map_eq_some_iff.mp hget.symm
      obtain ⟨hi, hik⟩ := List.getElem?_eq_some_iff.mp hk
      rw [List.getElem_range] at hik
      rw [Nat.zero_add, ← hkr, ← hik]
      rfl
    have herrors := checkChunkRows_errors upload artifact hwalk
    cases hcheck : checkChunkRows upload artifact
        (s.db.chunksOf upload.id artifact.artifactIndex) 0 with
    | ok _ =>
      refine ⟨.ok (s.db.chunksOf upload.id artifact.artifactIndex), ?_, ?_⟩
      · refine answers_query_bind rfl (answers_check_bind hcolumn ?_)
        rw [if_neg (not_not.mpr hlength)]
        exact answers_check_bind hcheck answers_pure
      · refine iff_of_false ?_ (not_not.mpr hlength)
        rintro ⟨message, h⟩
        simp at h
    | error e =>
      refine ⟨.error e, ?_, ?_⟩
      · refine answers_query_bind rfl (answers_check_bind hcolumn ?_)
        rw [if_neg (not_not.mpr hlength), hcheck]
        exact AnswersE.bind_error answers_check
      · refine iff_of_false ?_ (not_not.mpr hlength)
        rintro ⟨message, h⟩
        exact herrors e hcheck (by rw [Except.error.inj h]; rfl)
  · refine ⟨.error (.conflict "artifact_incomplete"
      "all negotiated chunks must be accepted before completion"), ?_, iff_of_true ⟨_, rfl⟩ hlength⟩
    refine answers_query_bind rfl (answers_check_bind hcolumn ?_)
    rw [if_pos hlength]
    exact AnswersE.bind_error answers_throw

/-- **`StatusExact`** — the status of an artifact is right about its accepted chunks. -/
structure StatusExact (count : ℕ) (accepted : List ℤ) (status : UploadArtifactStatus) : Prop where
  chunks : status.chunkCount = count
  /-- Two digits for eight chunks or part of eight. -/
  digits : status.acceptedChunkBitmap.length = 2 * ((count + 7) / 8)
  /-- The bits read back from the text are the accepted chunks, all of them below the count. -/
  bits : ∀ i : ℕ, Lib.Bitmap.holds (Lib.Bitmap.decodeHex status.acceptedChunkBitmap.toList) i =
    true ↔
    (i : ℤ) ∈ accepted
  padding : ∀ i ≥ count,
    Lib.Bitmap.holds (Lib.Bitmap.decodeHex status.acceptedChunkBitmap.toList) i = false
  ascending : status.missingChunkIndexes.Pairwise (· < ·)
  missing : ∀ i : ℕ, i ∈ status.missingChunkIndexes ↔ i < count ∧ (i : ℤ) ∉ accepted

theorem StatusExact.nothing_missing {count : ℕ} {rows : List UploadChunkRow}
    {status : UploadArtifactStatus} (hrows : AcceptedRows count rows)
    (h : StatusExact count (rows.map UploadChunkRow.chunkIndex) status) :
    status.missingChunkIndexes = [] ↔ rows.length = count := by
  rw [hrows.length_eq_iff_all, List.eq_nil_iff_forall_not_mem]
  constructor
  · intro hnone i hi
    by_contra hout
    exact hnone i ((h.missing i).mpr ⟨hi, hout⟩)
  · intro hall i hi
    obtain ⟨hlt, hout⟩ := (h.missing i).mp hi
    exact hout (hall i hlt)

/-- The columns of an artifact row that a status shows are sizes. -/
structure UploadArtifactRow.Sized (row : UploadArtifactRow) : Prop where
  index : 0 ≤ row.artifactIndex
  original : 0 ≤ row.originalSizeBytes
  stored : 0 ≤ row.storedSizeBytes
  chunks : 0 ≤ row.chunkCount

theorem uploadArtifactStatus_answers (now : ℤ) (t : TaskId) {s : Shared} {uploadId : String}
    {artifact : UploadArtifactRow} {count : ℕ} (hsized : artifact.Sized)
    (hcount : artifact.chunkCount = count)
    (h : AcceptedRows count (s.db.chunksOf uploadId artifact.artifactIndex)) :
    ∃ status, AnswersE (Calm now) t s (uploadArtifactStatus uploadId artifact) (.ok status) ∧
      StatusExact count ((s.db.chunksOf uploadId artifact.artifactIndex).map
        UploadChunkRow.chunkIndex) status := by
  have hchunks : unsignedColumn artifact.chunkCount = .ok count := by
    rw [unsignedColumn_total hsized.chunks, hcount]
    rfl
  obtain ⟨full, hfull, hlength, hholds⟩ := acceptedBitmap_ok
    (Lib.Bitmap.length_empty count) h.range
  rw [Lib.Bitmap.length_empty] at hlength
  have haccepted : ∀ i : ℕ, Lib.Bitmap.holds full i = true ↔ (i : ℤ) ∈
      (s.db.chunksOf uploadId artifact.artifactIndex).map UploadChunkRow.chunkIndex := by
    intro i
    rw [hholds i, Lib.Bitmap.holds_empty]
    simp
  have hdecode : Lib.Bitmap.decodeHex (hexDigest full).toList = full := by
    rw [hexDigest, String.toList_ofList, Lib.Bitmap.decodeHex_encodeHex]
  refine ⟨_, answers_check_bind (unsignedColumn_total hsized.index) (answers_check_bind hchunks
    (answers_query_bind rfl (answers_check_bind hfull (answers_check_bind
      (unsignedColumn_total hsized.original)
      (answers_check_bind (unsignedColumn_total hsized.stored)
        answers_pure))))), ?_⟩
  constructor
  · rfl
  · show (hexDigest full).length = _
    rw [hexDigest, String.length_ofList, Lib.Bitmap.length_encodeHex, hlength]
  · intro i
    rw [hdecode, haccepted i]
  · intro i hi
    rw [hdecode, ← Bool.not_eq_true, haccepted i]
    intro hmem
    obtain ⟨r, hr, hri⟩ := List.mem_map.mp hmem
    have hhigh := (h.range r hr).2
    omega
  · exact List.pairwise_lt_range.filter _
  · intro i
    show i ∈ (List.range count).filter _ ↔ _
    rw [List.mem_filter, List.mem_range, Bool.not_eq_true', ← Bool.not_eq_true, haccepted i]

/-! ## §2 — One upload. -/

/-- Rows in range, one for each index, once they are in index order. -/
theorem acceptedRows_insertionSort {count : ℕ} {rows : List UploadChunkRow}
    (hunique : UniqueOn UploadChunkRow.chunkIndex rows)
    (hrange : ∀ r ∈ rows, 0 ≤ r.chunkIndex ∧ r.chunkIndex < count) :
    AcceptedRows count (rows.insertionSort fun a b => a.chunkIndex ≤ b.chunkIndex) := by
  refine ⟨?_, fun r hr => hrange r ((List.mem_insertionSort _).mp hr)⟩
  have hsorted : (rows.insertionSort fun a b => a.chunkIndex ≤ b.chunkIndex).Pairwise
      fun a b => a.chunkIndex ≤ b.chunkIndex := List.pairwise_insertionSort _ _
  have hkeys : (rows.insertionSort fun a b => a.chunkIndex ≤ b.chunkIndex).Pairwise
      fun a b => a.chunkIndex ≠ b.chunkIndex :=
    List.pairwise_map.mp (((List.perm_insertionSort _ _).symm.map _).nodup hunique)
  exact (hsorted.and hkeys).imp fun hab => lt_of_le_of_ne hab.1 hab.2

/-- Accepted chunk rows in range, one for each index as the table's key has it, in index order. -/
theorem acceptedRows_chunksOf {db : Db} {uploadId : String} {artifactIndex : ℤ} {count : ℕ}
    (hunique : UniqueOn (fun r : UploadChunkRow => (r.uploadId, r.artifactIndex, r.chunkIndex))
      db.uploadChunks)
    (hrange : ∀ r ∈ db.uploadChunks, r.uploadId = uploadId → r.artifactIndex = artifactIndex →
      0 ≤ r.chunkIndex ∧ r.chunkIndex < count) :
    AcceptedRows count (db.chunksOf uploadId artifactIndex) := by
  have hmem : ∀ r ∈ db.uploadChunks.filter fun r =>
      decide (r.uploadId = uploadId ∧ r.artifactIndex = artifactIndex),
      r ∈ db.uploadChunks ∧ r.uploadId = uploadId ∧ r.artifactIndex = artifactIndex := by
    intro r hr
    obtain ⟨hr, hkey⟩ := List.mem_filter.mp hr
    exact ⟨hr, of_decide_eq_true hkey⟩
  refine acceptedRows_insertionSort ?_ fun r hr => ?_
  · -- of one artifact of one upload, the index is what is left of the key
    refine List.Nodup.of_map (fun i => (uploadId, artifactIndex, i)) ?_
    have hkeys := hunique.filter fun r =>
      decide (r.uploadId = uploadId ∧ r.artifactIndex = artifactIndex)
    rw [List.map_map]
    rw [UniqueOn, List.map_congr_left fun r hr => ?_] at hkeys
    · exact hkeys
    · obtain ⟨-, hid, hindex⟩ := hmem r hr
      rw [hid, hindex]
      rfl
  · obtain ⟨hr, hid, hindex⟩ := hmem r hr
    exact hrange r hr hid hindex

/-- The rows of one upload's layout, each with its accepted rows in range. -/
structure Negotiated (db : Db) (uploadId : String) (artifacts : List UploadArtifactRow) : Prop where
  sized : ∀ a ∈ artifacts, a.Sized
  rows : ∀ a ∈ artifacts, AcceptedRows a.chunkCount.toNat (db.chunksOf uploadId a.artifactIndex)

theorem Negotiated.tail {db : Db} {uploadId : String} {a : UploadArtifactRow}
    {rest : List UploadArtifactRow} (h : Negotiated db uploadId (a :: rest)) :
    Negotiated db uploadId rest :=
  ⟨fun b hb => h.sized b (List.mem_cons_of_mem _ hb), fun b hb =>
    h.rows b (List.mem_cons_of_mem _ hb)⟩

section Upload

variable (now : ℤ) (t : TaskId) {s : Shared} {uploadId : String}
  {artifacts : List UploadArtifactRow}

/-- Every artifact has a row for each of its chunks. -/
def AllAccepted (db : Db) (uploadId : String) (artifacts : List UploadArtifactRow) : Prop :=
  ∀ a ∈ artifacts, ((db.chunksOf uploadId a.artifactIndex).length : ℤ) = a.chunkCount

theorem artifactsComplete_answers (h : Negotiated s.db uploadId artifacts) :
    ∃ complete, AnswersE (Calm now) t s (artifactsComplete uploadId artifacts) (.ok complete) ∧
      (complete = true ↔ AllAccepted s.db uploadId artifacts) := by
  induction artifacts with
  | nil => exact ⟨true, answers_pure, iff_of_true rfl fun a ha => absurd ha List.not_mem_nil⟩
  | cons a rest ih =>
    obtain ⟨complete, hrest, hiff⟩ := ih h.tail
    have hsized := h.sized a List.mem_cons_self
    have hrows := h.rows a List.mem_cons_self
    have hcount : a.chunkCount = (a.chunkCount.toNat : ℤ) :=
      (Int.toNat_of_nonneg hsized.chunks).symm
    have hjudge := hrows.artifactComplete_iff hcount
    by_cases hlength : (s.db.chunksOf uploadId a.artifactIndex).length = a.chunkCount.toNat
    · refine ⟨complete, answers_query_bind rfl ?_, hiff.trans ⟨fun hall b hb => ?_, fun hall b hb =>
        hall b (List.mem_cons_of_mem _ hb)⟩⟩
      · rw [if_pos (hjudge.mpr hlength)]
        exact hrest
      · rcases List.mem_cons.mp hb with rfl | hb
        · omega
        · exact hall b hb
    · refine ⟨false, answers_query_bind rfl ?_, iff_of_false Bool.false_ne_true fun hall => ?_⟩
      · rw [if_neg fun hcomplete => hlength (hjudge.mp hcomplete)]
        exact answers_pure
      · have hmem := hall a List.mem_cons_self
        omega

theorem uploadArtifactStatusList_answers (h : Negotiated s.db uploadId artifacts) :
    ∃ statuses, AnswersE (Calm now) t s (uploadArtifactStatusList uploadId artifacts)
        (.ok statuses) ∧
      List.Forall₂ (fun a status => StatusExact a.chunkCount.toNat
        ((s.db.chunksOf uploadId a.artifactIndex).map UploadChunkRow.chunkIndex) status)
        artifacts statuses := by
  induction artifacts with
  | nil => exact ⟨[], answers_pure, .nil⟩
  | cons a rest ih =>
    obtain ⟨statuses, hrest, hexact⟩ := ih h.tail
    have hsized := h.sized a List.mem_cons_self
    obtain ⟨status, hstatus, hfirst⟩ := uploadArtifactStatus_answers now t hsized
      (Int.toNat_of_nonneg hsized.chunks).symm (h.rows a List.mem_cons_self)
    exact ⟨status :: statuses, hstatus.bind (hrest.bind answers_pure), .cons hfirst hexact⟩

theorem acceptedChunkLayouts_answer {upload : UploadRow}
    (h : Negotiated s.db upload.id artifacts) :
    ∃ layouts, List.Forall₂ (fun a r => AnswersE (Calm now) t s (acceptedChunkLayout upload a) r ∧
      (ReportsIncomplete r ↔ ((s.db.chunksOf upload.id a.artifactIndex).length : ℤ) ≠ a.chunkCount))
      artifacts layouts := by
  induction artifacts with
  | nil => exact ⟨[], .nil⟩
  | cons a rest ih =>
    obtain ⟨layouts, hrest⟩ := ih h.tail
    have hsized := h.sized a List.mem_cons_self
    obtain ⟨r, hr, hiff⟩ := acceptedChunkLayout_answers now t
      (Int.toNat_of_nonneg hsized.chunks).symm (h.rows a List.mem_cons_self)
    refine ⟨r :: layouts, .cons ⟨hr, hiff.trans (not_congr ?_)⟩ hrest⟩
    have hnonneg := hsized.chunks
    omega

/-- The rows of a layout have sizes in every column. -/
theorem uploadArtifactRows_sized {pairs : List (Artifact × ℕ)} {index : ℕ}
    {rows : List UploadArtifactRow} (h : uploadArtifactRows uploadId pairs index = .ok rows) :
    ∀ a ∈ rows, a.Sized := by
  induction pairs generalizing index rows with
  | nil =>
    obtain rfl := pure_eq_ok.mp h
    exact fun a ha => absurd ha List.not_mem_nil
  | cons pair rest ih =>
    obtain ⟨artifact, count⟩ := pair
    simp only [uploadArtifactRows, bind_eq_ok, pure_eq_ok] at h
    obtain ⟨row, hrow, rows', hrows, rfl⟩ := h
    simp only [uploadArtifactRow, bind_eq_ok, pure_eq_ok] at hrow
    obtain ⟨original, horiginal, stored, hstored, chunks, hchunks, rfl⟩ := hrow
    have hnonneg : ∀ {n : ℕ} {z : ℤ}, toSqliteI64 n = .ok z → 0 ≤ z := by
      intro n z hz
      unfold toSqliteI64 at hz
      split_ifs at hz
      rw [← pure_eq_ok.mp hz]
      exact Int.natCast_nonneg n
    intro a ha
    rcases List.mem_cons.mp ha with rfl | ha
    · exact ⟨Int.natCast_nonneg index, hnonneg horiginal, hnonneg hstored, hnonneg hchunks⟩
    · exact ih hrows a ha

/-- Two lists whose members agree pairwise agree as a whole. -/
theorem forall_mem_iff_of_forall₂ {α β : Type} {P : α → Prop} {Q : β → Prop} {xs : List α}
    {ys : List β} (h : List.Forall₂ (fun x y => P x ↔ Q y) xs ys) :
    (∀ x ∈ xs, P x) ↔ ∀ y ∈ ys, Q y := by
  induction h with
  | nil => simp
  | cons hxy _ ih => rw [List.forall_mem_cons, List.forall_mem_cons, hxy, ih]

/-- **`completeness_agrees`** — for the layout of any artifacts and any accepted chunks in range,
the status refresh finds the upload complete exactly when no status lists a missing chunk, and
exactly when a completion reports no artifact incomplete; and every status shows exactly the chunks
accepted. -/
theorem completeness_agrees (now : ℤ) (t : TaskId) (s : Shared) (upload : UploadRow)
    (pairs : List (Artifact × ℕ)) (hsome : pairs ≠ [])
    (hlayout : uploadArtifactRows upload.id pairs 0 = .ok (s.db.uploadArtifactsOf upload.id))
    (hunique : UniqueOn (fun r : UploadChunkRow => (r.uploadId, r.artifactIndex, r.chunkIndex))
      s.db.uploadChunks)
    (hrange : ∀ r ∈ s.db.uploadChunks, r.uploadId = upload.id →
      ∀ a ∈ s.db.uploadArtifactsOf upload.id, r.artifactIndex = a.artifactIndex →
        0 ≤ r.chunkIndex ∧ r.chunkIndex < a.chunkCount) :
    ∃ (complete : Bool) (statuses : List UploadArtifactStatus)
        (layouts : List (Except ApiError (List UploadChunkRow))),
      AnswersE (Calm now) t s (uploadIsComplete upload.id) (.ok complete) ∧
      AnswersE (Calm now) t s (uploadArtifactStatuses upload.id) (.ok statuses) ∧
      List.Forall₂ (fun a r => AnswersE (Calm now) t s (acceptedChunkLayout upload a) r)
        (s.db.uploadArtifactsOf upload.id) layouts ∧
      (complete = true ↔ ∀ status ∈ statuses, status.missingChunkIndexes = []) ∧
      (complete = true ↔ ∀ r ∈ layouts, ¬ ReportsIncomplete r) ∧
      List.Forall₂ (fun a status => StatusExact a.chunkCount.toNat
        ((s.db.chunksOf upload.id a.artifactIndex).map UploadChunkRow.chunkIndex) status)
        (s.db.uploadArtifactsOf upload.id) statuses := by
  have hsized := uploadArtifactRows_sized hlayout
  have hnegotiated : Negotiated s.db upload.id (s.db.uploadArtifactsOf upload.id) := by
    refine ⟨hsized, fun a ha => acceptedRows_chunksOf hunique fun r hr hid hindex => ?_⟩
    obtain ⟨hlow, hhigh⟩ := hrange r hr hid a ha hindex
    exact ⟨hlow, by rwa [Int.toNat_of_nonneg (hsized a ha).chunks]⟩
  have hrows : s.db.uploadArtifactsOf upload.id ≠ [] := by
    intro hnil
    have hlength := (uploadArtifactRows_ok hlayout).1
    rw [hnil] at hlength
    exact hsome (List.eq_nil_of_length_eq_zero hlength.symm)
  obtain ⟨complete, hcomplete, hall⟩ := artifactsComplete_answers now t hnegotiated
  obtain ⟨statuses, hstatuses, hexact⟩ :=
    uploadArtifactStatusList_answers now t hnegotiated
  obtain ⟨layouts, hlayouts⟩ := acceptedChunkLayouts_answer now t hnegotiated
  refine ⟨complete, statuses, layouts, ?_, answers_query_bind rfl hstatuses,
    hlayouts.imp fun _ _ h => h.1, hall.trans ?_, hall.trans ?_, hexact⟩
  · refine answers_query_bind rfl ?_
    rw [if_neg hrows]
    exact hcomplete
  · have hboth := (List.forall₂_and_left (s.db.uploadArtifactsOf upload.id) statuses).mpr
      ⟨fun _ ha => ha, hexact⟩
    refine forall_mem_iff_of_forall₂ (hboth.imp fun a status ⟨ha, h⟩ => ?_)
    have hnonneg := (hsized a ha).chunks
    rw [h.nothing_missing (hnegotiated.rows a ha)]
    omega
  · exact forall_mem_iff_of_forall₂ (hlayouts.imp fun _ _ h => by rw [h.2, not_not])

end Upload

/-- Two artifacts: an empty file without chunks, and one of two chunks. -/
def sampleLayout : List (Artifact × ℕ) :=
  [(⟨"empty.txt", none, 0, "sha256:" ++ emptyDigest, 0, "sha256:" ++ emptyDigest, .identity⟩, 0),
    (⟨"notes.txt", none, 5, "sha256:" ++ emptyDigest, 5, "sha256:" ++ emptyDigest, .identity⟩, 2)]

def layoutUpload : UploadRow where
  id := "upload"
  ownerNamespace := ownerNamespace
  sessionId := "session"
  clientId := "client"
  captureId := "capture"
  manifestSha256 := emptyDigest
  status := .created
  snapshotId := none
  createdAt := "now"
  completedAt := none
  chunkSizeBytes := 4
  chunkCount := 2
  declaredStoredSizeBytes := 5
  declaredOriginalSizeBytes := 5
  expiresAt := "later"
  artifactCount := 2
  totalStoredSizeBytes := 5
  totalOriginalSizeBytes := 5
  transferBytes := 0
  newlyPersistedBytes := 0

/-- Of the second artifact, the last chunk is accepted. -/
def layoutState : Shared :=
  { Shared.init with
    db := { Db.empty with
      uploadArtifacts :=
        [⟨"upload", 0, "empty.txt", none, 0, emptyDigest, 0, emptyDigest, .identity, 0⟩,
          ⟨"upload", 1, "notes.txt", none, 5, emptyDigest, 5, emptyDigest, .identity, 2⟩]
      uploadChunks := [⟨"upload", 1, 1, 1, emptyDigest, "now"⟩] } }

/-- The upload is not complete: the status response still lists chunk 0 of the second artifact. -/
theorem completeness_agrees_sample :
    AnswersE (Calm 0) 0 layoutState (uploadIsComplete "upload") (.ok false) := by
  obtain ⟨complete, statuses, layouts, hcomplete, -, -, hmissing, -, hexact⟩ :=
    completeness_agrees 0 0 layoutState layoutUpload sampleLayout (by decide) (by decide +kernel)
      (List.nodup_singleton _) (by decide +kernel)
  have hrows : layoutState.db.uploadArtifactsOf layoutUpload.id =
      layoutState.db.uploadArtifacts := by decide +kernel
  rw [hrows] at hexact
  obtain ⟨first, rest, -, hrest, rfl⟩ := List.forall₂_cons_left_iff.mp hexact
  obtain ⟨second, rest, hsecond, -, rfl⟩ := List.forall₂_cons_left_iff.mp hrest
  have hchunk : 0 ∈ second.missingChunkIndexes :=
    (hsecond.missing 0).mpr ⟨by decide, by decide +kernel⟩
  cases complete with
  | false => exact hcomplete
  | true =>
    have hnone := hmissing.mp rfl second (by simp)
    rw [hnone] at hchunk
    exact absurd hchunk List.not_mem_nil

end Patwari
