/-
# Patwari.CompletionSafety — a completion takes only guaranteed steps.

§1 is what the checks of a stored upload give: the rows of its artifacts in manifest order and
their chunks in index order. §2 follows the bytes of one artifact from its accepted chunks to a
verified file under a name no other task can write. §3 promotes these files under the locks of
their digests, §4 records the snapshot or attaches the capture to one that is there, and undoes the
promotions of a completion that fails. §5 is `complete_upload` as a whole.
-/
import Patwari.UploadSafety

namespace Patwari

open Lib (Prog TaskId Discipline UniqueOn updateWhere)
open Lib.Discipline
open Lib.Prog (KeepsE Keeps)

variable {c : Crates} {cfg : Config} {mode : Mode} {t : TaskId} {s : Shared}

/-! ## §1 — What the checks give. -/

theorem unsignedColumn_ok {value : ℤ} {n : ℕ} (h : unsignedColumn value = .ok n) :
    value = n := by
  unfold unsignedColumn at h
  split_ifs at h with hpos
  have hn : value.toNat = n := pure_eq_ok.mp h
  omega

theorem toSqliteI64_ok {n : ℕ} {value : ℤ} (h : toSqliteI64 n = .ok value) : value = n := by
  unfold toSqliteI64 at h
  split_ifs at h
  exact (pure_eq_ok.mp h).symm

/-- A row that passed the projection check is the row of its manifest artifact. -/
structure ProjectedRow (chunkSize index : ℕ) (artifact : Artifact) (row : UploadArtifactRow) :
    Prop where
  index : row.artifactIndex = index
  chunks : ∃ n : ℕ, chunkCount artifact.storedSizeBytes.toNat chunkSize = .ok n ∧
    row.chunkCount = n

theorem validateProjectionRows_ok {chunkSize index : ℕ}
    {pairs : List (Artifact × UploadArtifactRow)}
    (h : validateProjectionRows chunkSize pairs index = .ok ()) (k : ℕ)
    {artifact : Artifact} {row : UploadArtifactRow} (hk : pairs[k]? = some (artifact, row)) :
    ProjectedRow chunkSize (index + k) artifact row := by
  induction pairs generalizing index k with
  | nil => simp at hk
  | cons pair rest ih =>
    obtain ⟨a, r⟩ := pair
    unfold validateProjectionRows at h
    simp only [bind_eq_ok, throw_bind, ite_throw_eq_ok, not_or, not_not] at h
    obtain ⟨_, -, _, -, n, hn, count, hcount, ⟨hindex, -, -, -, -, -, -, -, hrow⟩, hrest⟩ := h
    cases k with
    | zero =>
      obtain ⟨rfl, rfl⟩ : a = artifact ∧ r = row := by simpa using hk
      exact ⟨by simpa using hindex, n, hn, hrow.trans (toSqliteI64_ok hcount)⟩
    | succ k =>
      have hproj := ih hrest k (by simpa using hk)
      rwa [Nat.add_right_comm, Nat.add_assoc] at hproj

/-- The rows a checked upload has, one for each artifact of its manifest. -/
theorem validateUploadProjection_ok {manifest : Manifest} {rows : List UploadArtifactRow}
    {upload : UploadRow} (h : validateUploadProjection manifest rows upload = .ok ()) :
    manifest.artifacts.length = rows.length ∧
      ∀ (k : ℕ) (artifact : Artifact) (row : UploadArtifactRow),
        (manifest.artifacts.zip rows)[k]? = some (artifact, row) →
          ProjectedRow upload.chunkSizeBytes.toNat k artifact row := by
  unfold validateUploadProjection at h
  simp only [throw_bind, ite_throw_eq_ok, bind_eq_ok, not_or, not_not] at h
  obtain ⟨⟨hlength, -⟩, chunkSize, hsize, hrows⟩ := h
  obtain rfl : upload.chunkSizeBytes.toNat = chunkSize := by
    have hvalue := unsignedColumn_ok hsize
    omega
  refine ⟨hlength, fun k artifact row hk => ?_⟩
  have hproj := validateProjectionRows_ok hrows k hk
  rwa [Nat.zero_add] at hproj

/-- A chunk row at its place, and the body it stands for. -/
def RowAccepted (c : Crates) (uploadId : String) (artifactIndex : ℤ) (k : ℕ) (row : UploadChunkRow)
    (s : Shared) : Prop :=
  row.chunkIndex = k ∧ row.uploadId = uploadId ∧ row.artifactIndex = artifactIndex ∧
    ∃ e ∈ s.accepted, row.Accepts c e

theorem RowAccepted.of_reach {uploadId : String} {i : ℤ} {k : ℕ} {row : UploadChunkRow}
    {s' : Shared} (h : RowAccepted c uploadId i k row s)
    (hr : (discipline c cfg mode).Reach s s') : RowAccepted c uploadId i k row s' := by
  obtain ⟨hindex, hupload, hartifact, e, he, haccepts⟩ := h
  exact ⟨hindex, hupload, hartifact, e, (accepted_persistent e).of_reach hr he, haccepts⟩

/-- Bytes that match the row of a chunk were accepted as it. -/
theorem RowAccepted.accepted {uploadId : String} {i : ℤ} {k : ℕ} {row : UploadChunkRow}
    (h : RowAccepted c uploadId i k row s) {bytes : Bytes}
    (hlength : (bytes.length : ℤ) = row.byteLength) (hdigest : c.sha256Hex bytes = row.sha256) :
    ChunkAccepted c uploadId i k bytes s := by
  obtain ⟨hindex, hupload, hartifact, e, he, hid, hi, hk, hbody, hsha⟩ := h
  refine ⟨e, he, hid.trans hupload, hi.trans hartifact, hk.trans hindex, ?_, ?_⟩
  · have hsame : (e.body.length : ℤ) = bytes.length := hbody.trans hlength.symm
    exact_mod_cast hsame
  · rw [hsha, hdigest]

theorem checkChunkRows_ok {upload : UploadRow} {artifact : UploadArtifactRow}
    {rows : List UploadChunkRow} {index : ℕ}
    (h : checkChunkRows upload artifact rows index = .ok ()) (k : ℕ) {row : UploadChunkRow}
    (hk : rows[k]? = some row) : row.chunkIndex = (index + k : ℕ) := by
  induction rows generalizing index k with
  | nil => simp at hk
  | cons r rest ih =>
    unfold checkChunkRows at h
    simp only [throw_bind, ite_throw_eq_ok, bind_eq_ok, not_not] at h
    obtain ⟨hindex, _, -, _, -, -, h⟩ := h
    split at h
    · simp at h
    · cases k with
      | zero =>
        obtain rfl : r = row := by simpa using hk
        exact hindex
      | succ k =>
        have hrest := ih h k (by simpa using hk)
        rw [hrest]
        omega

/-- The rows of a checked chunk layout are all the negotiated chunks in index order. -/
theorem safe_acceptedChunkLayout (upload : UploadRow) (artifact : UploadArtifactRow)
    (hinv : s.Inv c) :
    (discipline c cfg mode).SafeE t (acceptedChunkLayout upload artifact)
      (fun rows s => (rows.length : ℤ) = artifact.chunkCount ∧ ∀ (k : ℕ) (row : UploadChunkRow),
        rows[k]? = some row → RowAccepted c upload.id artifact.artifactIndex k row s)
      (fun _ _ => True) s := by
  refine SafeE.bind (safe_query (Q := fun rows s => ∀ row ∈ rows,
      row.uploadId = upload.id ∧ row.artifactIndex = artifact.artifactIndex ∧
        ∃ e ∈ s.accepted, row.Accepts c e) (fun s' rows hinv' _ h row hrow => ?_)
    fun _ _ => trivial) hinv fun rows s₁ hinv₁ _ hrows => ?_
  · obtain rfl := pure_eq_ok.mp h
    unfold Db.chunksOf at hrow
    rw [List.mem_insertionSort, List.mem_filter, decide_eq_true_eq] at hrow
    exact ⟨hrow.2.1, hrow.2.2, hinv'.chunks row hrow.1⟩
  refine SafeE.bind (safe_check (Q := fun n _ => unsignedColumn artifact.chunkCount = .ok n)
    (fun _ h => h) fun _ _ => trivial) hinv₁ fun count s₂ hinv₂ hr₂ hcount => ?_
  refine SafeE.guard (fun _ => trivial) fun hlength => ?_
  refine SafeE.bind (safe_check (Q := fun _ _ => checkChunkRows upload artifact rows 0 = .ok ())
    (fun _ h => h) fun _ _ => trivial) hinv₂ fun _ s₃ hinv₃ hr₃ hcheck => ?_
  refine SafeE.pure ⟨?_, fun k row hk => ?_⟩
  · rw [not_not] at hlength
    rw [hlength, unsignedColumn_ok hcount]
  · obtain ⟨hupload, hartifact, e, he, haccepts⟩ := hrows row (List.mem_of_getElem? hk)
    have hindex := checkChunkRows_ok hcheck k hk
    rw [Nat.zero_add] at hindex
    exact ⟨hindex, hupload, hartifact, e,
      (accepted_persistent e).of_reach (hr₂.trans hr₃) he, haccepts⟩

/-! ## §2 — One artifact, from its chunks to a verified file. -/

theorem Sealed.cleanup {path : FilePath} {bytes : Bytes} (h : Sealed t path bytes s) :
    Sealed t path bytes (s.cleanup t) := h

/-- A sealed name is in the directory of an upload. -/
theorem Sealed.upload {path : FilePath} {bytes : Bytes} (h : Sealed t path bytes s) :
    path.upload?.isSome := by
  obtain ⟨⟨u, i, uuid, rfl, -⟩, -⟩ := h
  rfl

theorem Sealed.creatable {path : FilePath} {bytes : Bytes} (h : Sealed t path bytes s) :
    Creatable t s path := by
  obtain ⟨⟨u, i, uuid, rfl, huuid⟩, -⟩ := h
  exact huuid

/-- What is read under a sealed name are its bytes. -/
theorem Sealed.read {path : FilePath} {bytes read : Bytes} (h : Sealed t path bytes s)
    (hread : s.fs.read path = .ok read) : read = bytes := by
  have hfile := FileStore.read_ok hread
  rcases h.2 with hnone | hsome
  · rw [hnone] at hfile
    simp at hfile
  · rw [hsome] at hfile
    simpa using hfile.symm

/-- The loop over the chunks writes their bytes one after another under the sealed name. -/
theorem safe_copyChunks {uploadId : String} {artifactIndex : ℕ} {i : ℤ} (artifact : Artifact)
    {destination : FilePath} (rows : List UploadChunkRow) {copied : Bytes} {n : ℕ}
    (hinv : s.Inv c) (hs : Sealed t destination copied s)
    (hrows : ∀ (k : ℕ) (row : UploadChunkRow), rows[k]? = some row →
      RowAccepted c uploadId i (n + k) row s) :
    (discipline c cfg mode).SafeE t
      (copyChunks c uploadId artifactIndex artifact destination rows copied)
      (fun all s => ∃ pieces : List Bytes, pieces.length = rows.length ∧
        all = copied ++ pieces.flatten ∧ Sealed t destination all s ∧
        ∀ (k : ℕ) (piece : Bytes), pieces[k]? = some piece →
          ChunkAccepted c uploadId i (n + k : ℕ) piece s) (fun _ _ => True) s := by
  induction rows generalizing copied n s with
  | nil => exact SafeE.pure ⟨[], rfl, by simp, hs, by simp⟩
  | cons chunk rest ih =>
    have hchunk := hrows 0 chunk rfl
    rw [copyChunks]
    refine SafeE.bind (safe_fileRead_of (Q := fun _ s => Sealed t destination copied s)
      (Sealed.stable _ _) hs (fun _ _ _ hs' _ => hs') fun _ _ _ => trivial) hinv
      fun bytes s₁ hinv₁ hr₁ hs₁ => ?_
    refine SafeE.guard (fun _ => trivial) fun _ => ?_
    refine SafeE.guard (fun _ => trivial) fun _ => ?_
    refine SafeE.bind (SafeE.lift (safe_fileOp
      (Q := fun r s => r = .ok () → Sealed t destination (copied ++ bytes) s) (Sealed.stable _ _)
      (fun _ _ hs' => hs'.cleanup) hs₁ (fun s' fs _ hs' h => ?_) (fun s' fs _ hs' h _ => ?_)
      fun _ _ _ _ h => by simp at h) hinv₁) hinv₁ fun r s₂ hinv₂ hr₂ hs₂ => ?_
    · obtain rfl := Except.ok.inj h
      refine ⟨.of_path destination hs'.upload (Or.inr hs'.creatable) fun q hq => ?_,
        .append hs'.upload _⟩
      rw [FileStore.lookup_append, if_neg hq]
    · obtain rfl := Except.ok.inj h
      refine ⟨hs'.1, ?_⟩
      show (s'.fs.append destination bytes).lookup destination = none ∨ _
      rw [FileStore.lookup_append, if_pos rfl]
      rcases hs'.2 with hnone | hsome
      · exact Or.inl (by rw [hnone])
      · exact Or.inr (by rw [hsome])
    refine SafeE.bind (safe_orFail (Q := fun _ s => Sealed t destination (copied ++ bytes) s)
      (fun _ h => hs₂ h) trivial) hinv₂ fun _ s₃ hinv₃ hr₃ hs₃ => ?_
    refine SafeE.guard (fun _ => trivial) fun hmatch => ?_
    rw [not_or, not_not, not_not] at hmatch
    have hr := hr₁.trans (hr₂.trans hr₃)
    have hpiece := (hchunk.of_reach hr).accepted hmatch.1 hmatch.2
    refine SafeE.mono ((ih (n := n + 1) hinv₃ hs₃ fun k row hk => ?_).reach hinv₃) hinv₃
      (fun all s' _ h => ?_) fun _ _ _ _ => trivial
    · have hrow := (hrows (k + 1) row (by simpa using hk)).of_reach hr
      rwa [Nat.add_right_comm, Nat.add_assoc]
    · obtain ⟨⟨pieces, hlength, hall, hsealed, hpieces⟩, hr'⟩ := h
      refine ⟨bytes :: pieces, by simp [hlength], by simp [hall], hsealed, fun k piece hk => ?_⟩
      cases k with
      | zero =>
        obtain rfl : bytes = piece := by simpa using hk
        exact (ChunkAccepted.persistent _ _ _ _).of_reach hr' hpiece
      | succ k =>
        have haccepted := hpieces k piece (by simpa using hk)
        rwa [Nat.add_right_comm, Nat.add_assoc] at haccepted

/-- An artifact that was put together: its accepted chunks in index order, under a sealed name. -/
def Pieces (c : Crates) (t : TaskId) (uploadId : String) (row : UploadArtifactRow)
    (path : FilePath) (all : Bytes) (s : Shared) : Prop :=
  ∃ pieces : List Bytes, (pieces.length : ℤ) = row.chunkCount ∧ all = pieces.flatten ∧
    Sealed t path all s ∧ ∀ (k : ℕ) (piece : Bytes), pieces[k]? = some piece →
      ChunkAccepted c uploadId row.artifactIndex k piece s

theorem Pieces.stable (uploadId : String) (row : UploadArtifactRow) (path : FilePath)
    (all : Bytes) : (discipline c cfg mode).Stable t (Pieces c t uploadId row path all) := by
  rintro s s' t' hne hinv hstep ⟨pieces, hlength, hall, hsealed, hpieces⟩
  refine ⟨pieces, hlength, hall, Sealed.stable path all s s' t' hne hinv hstep hsealed, ?_⟩
  intro k piece hk
  exact ChunkAccepted.persistent _ _ _ _ t' s s' hinv hstep (hpieces k piece hk)

theorem safe_assembleArtifact (upload : UploadRow) (row : UploadArtifactRow) (artifact : Artifact)
    (artifactIndex i : ℕ) (uuid : String) (hinv : s.Inv c) (huuid : (uuid, t) ∈ s.issued) :
    (discipline c cfg mode).SafeE t
      (assembleArtifact c upload row artifact artifactIndex (.assembledArtifact upload.id i uuid))
      (Pieces c t upload.id row (.assembledArtifact upload.id i uuid)) (fun _ _ => True) s := by
  refine SafeE.bind (safe_acceptedChunkLayout upload row hinv) hinv fun rows s₁ hinv₁ hr₁ hrows =>
    ?_
  obtain ⟨hcount, hrows⟩ := hrows
  refine SafeE.bind (SafeE.of_always (always_lift (always_fileOp fun t s fs h => ?_)) hinv₁) hinv₁
    fun r s₂ hinv₂ hr₂ _ => ?_
  · refine ⟨.upload fun q => ?_, .createDirAll (by simp) ?_ h⟩
    · rcases FileStore.lookup_createDirAll h q with heq | ⟨hmem, -, -⟩
      · exact Or.inl heq
      · obtain rfl := List.mem_singleton.mp hmem
        exact Or.inr ⟨rfl, Or.inr trivial⟩
    · rintro q hq
      obtain rfl : FilePath.uploadDir upload.id = q := by simpa using hq
      rfl
  refine SafeE.bind (SafeE.of_always always_orFail hinv₂) hinv₂ fun _ s₃ hinv₃ hr₃ _ => ?_
  have hr := hr₁.trans (hr₂.trans hr₃)
  have hP : (discipline c cfg mode).Persistent fun s => (uuid, t) ∈ s.issued :=
    issued_persistent uuid t
  refine SafeE.bind (SafeE.lift (safe_fileOp (Q := fun r s => r = .ok () →
      Sealed t (.assembledArtifact upload.id i uuid) [] s) (hP.stable t) (fun _ _ h => h)
    (hP.of_reach hr huuid) (fun s' fs _ hs' h => ?_) (fun s' fs _ hs' h _ => ?_)
    fun _ _ _ _ h => by simp at h) hinv₃) hinv₃ fun r s₄ hinv₄ hr₄ hs₄ => ?_
  · obtain ⟨-, rfl⟩ := FileStore.createNew_ok h
    refine ⟨.of_path (.assembledArtifact upload.id i uuid) rfl (Or.inr hs') fun q hq => ?_,
      .createNew h⟩
    rw [FileStore.lookup_set, if_neg hq]
  · obtain ⟨-, rfl⟩ := FileStore.createNew_ok h
    refine ⟨⟨_, _, _, rfl, hs'⟩, Or.inr ?_⟩
    show (s'.fs.set _ _).lookup _ = _
    rw [FileStore.lookup_set, if_pos rfl]
  refine SafeE.bind
    (safe_orFail (Q := fun _ s => Sealed t (.assembledArtifact upload.id i uuid) [] s)
    (fun _ h => hs₄ h) trivial) hinv₄ fun _ s₅ hinv₅ hr₅ hs₅ => ?_
  refine SafeE.bind (safe_copyChunks (i := row.artifactIndex) (n := 0) artifact rows hinv₅ hs₅
    fun k row hk => ?_) hinv₅
    fun copied s₆ hinv₆ hr₆ hcopied => ?_
  · rw [Nat.zero_add]
    exact (hrows k row hk).of_reach (hr₂.trans (hr₃.trans (hr₄.trans hr₅)))
  obtain ⟨pieces, hlength, hall, hsealed, hpieces⟩ := hcopied
  have hassembled : Pieces c t upload.id row (.assembledArtifact upload.id i uuid) copied s₆ := by
    refine ⟨pieces, by rw [hlength, hcount], by simpa using hall, hsealed, fun k piece hk => ?_⟩
    have haccepted := hpieces k piece hk
    rwa [Nat.zero_add] at haccepted
  have hsyncs := FileStore.syncs_syncFile (.assembledArtifact upload.id i uuid)
  have hsync : (discipline c cfg mode).Safe t
      (fileOp fun fs => .ok (fs.syncFile (.assembledArtifact upload.id i uuid))) (fun _ s => True ∧
      Pieces c t upload.id row (.assembledArtifact upload.id i uuid) copied s) s₆ := by
    refine Safe.frame (always_sync hsyncs t s₆ hinv₆) (keeps_fileOp fun s fs h hs => ?_)
      (Pieces.stable _ _ _ _) hassembled
    obtain ⟨pieces, hlength, hall, ⟨hname, hfile⟩, hpieces⟩ := hs
    refine ⟨pieces, hlength, hall, ⟨hname, ?_⟩, hpieces⟩
    show fs.lookup _ = none ∨ fs.lookup _ = _
    rwa [hsyncs.lookup h]
  refine SafeE.bind (SafeE.lift hsync hinv₆) hinv₆ fun r s₇ hinv₇ _ hs₇ => ?_
  refine SafeE.bind (safe_orFail (Q := fun _ s =>
    Pieces c t upload.id row (.assembledArtifact upload.id i uuid) copied s) (fun _ _ => hs₇.2)
    trivial) hinv₇ fun _ s₈ hinv₈ _ hs₈ => ?_
  exact SafeE.guard (fun _ => trivial) fun _ => SafeE.pure hs₈

/-- An artifact ready to be promoted: its bytes, verified, under a sealed name, and where they come
from. -/
def PreparedOk (c : Crates) (t : TaskId) (upload : UploadRow) (p : PreparedArtifact) (s : Shared) :
    Prop :=
  Assembled c upload p s ∧
    ∃ bytes, Sealed t p.assembledPath bytes s ∧ verifyArtifactBytes c p.artifact bytes = .ok ()

theorem PreparedOk.stable (upload : UploadRow) (p : PreparedArtifact) :
    (discipline c cfg mode).Stable t (PreparedOk c t upload p) := by
  rintro s s' t' hne hinv hstep ⟨hassembled, bytes, hsealed, hverified⟩
  exact ⟨Assembled.persistent upload p t' s s' hinv hstep hassembled, bytes,
    Sealed.stable _ bytes s s' t' hne hinv hstep hsealed, hverified⟩

/-- Assembling and verifying one artifact of the upload. -/
def prepareArtifact (c : Crates) (upload : UploadRow) (row : UploadArtifactRow)
    (artifact : Artifact) (artifactIndex : ℕ) (path : FilePath) : Handler ApiError Unit := do
  let _ ← assembleArtifact c upload row artifact artifactIndex path
  verifyArtifact c path artifact

theorem safe_prepareArtifact {upload : UploadRow} {row : UploadArtifactRow} {artifact : Artifact}
    {index : ℕ} (hrow : ProjectedRow upload.chunkSizeBytes.toNat index artifact row)
    (uuid : String) (hinv : s.Inv c) (huuid : (uuid, t) ∈ s.issued) :
    (discipline c cfg mode).SafeE t
      (prepareArtifact c upload row artifact index (.assembledArtifact upload.id index uuid))
      (fun _ => PreparedOk c t upload
        ⟨index, artifact, .assembledArtifact upload.id index uuid⟩) (fun _ _ => True) s := by
  refine SafeE.bind (safe_assembleArtifact upload row artifact index index uuid hinv huuid) hinv
    fun all s₁ hinv₁ _ hpieces => ?_
  refine safe_fileRead_of (Pieces.stable _ _ _ _) hpieces (fun s' _ _ hs' h => ?_)
    fun _ _ _ => trivial
  obtain ⟨pieces, hlength, rfl, hsealed, hpieces⟩ := hs'
  have hverified : verifyArtifactBytes c artifact pieces.flatten = .ok () := by
    split at h
    · next bytes hread =>
      rw [hsealed.read hread] at h
      exact h
    · simp at h
  refine ⟨⟨pieces, hverified, ?_, fun k piece hk => ?_⟩, pieces.flatten, hsealed, hverified⟩
  · obtain ⟨n, hn, hcount⟩ := hrow.chunks
    have hsame : pieces.length = n := by
      rw [hcount] at hlength
      exact_mod_cast hlength
    rw [hsame]
    exact hn
  · have haccepted := hpieces k piece hk
    rwa [hrow.index] at haccepted

/-- Assembling one artifact writes under its own name, and makes the directory of its upload. -/
theorem keeps_prepareArtifact {P : Shared → Prop} (upload : UploadRow) (row : UploadArtifactRow)
    (artifact : Artifact) (artifactIndex : ℕ) (path : FilePath)
    (h : ∀ s fs, (∀ q, q ≠ path → q ≠ .uploadDir upload.id → fs.lookup q = s.fs.lookup q) →
      P s → P { s with fs := fs }) :
    KeepsE t P (prepareArtifact c upload row artifact artifactIndex path) := by
  have hdir : Keeps t P (fileOp (FileStore.createDirAll [.uploadDir upload.id])) := by
    refine keeps_fileOp fun s fs hfs hs => h s fs (fun q _ hq => ?_) hs
    rcases FileStore.lookup_createDirAll hfs q with heq | ⟨hmem, -, -⟩
    · exact heq
    · exact absurd (List.mem_singleton.mp hmem) hq
  have hnew : Keeps t P (fileOp fun fs => fs.createNew path) := by
    refine keeps_fileOp fun s fs hfs hs => h s fs (fun q hq _ => ?_) hs
    rw [(FileStore.createNew_ok hfs).2, FileStore.lookup_set, if_neg hq]
  have happend (bytes : Bytes) : Keeps t P (fileOp fun fs => .ok (fs.append path bytes)) := by
    refine keeps_fileOp fun s fs hfs hs => h s fs (fun q hq _ => ?_) hs
    obtain rfl := Except.ok.inj hfs
    rw [FileStore.lookup_append, if_neg hq]
  have hsync : Keeps t P (fileOp fun fs => .ok (fs.syncFile path)) :=
    keeps_fileOp fun s fs hfs hs => h s fs
      (fun q _ _ => (FileStore.syncs_syncFile path).lookup hfs q) hs
  have hcopy (rows : List UploadChunkRow) (copied : Bytes) :
      KeepsE t P (copyChunks c upload.id artifactIndex artifact path rows copied) := by
    induction rows generalizing copied with
    | nil => exact KeepsE.pure _
    | cons chunk rest ih =>
      rw [copyChunks]
      refine KeepsE.bind keeps_fileRead fun bytes => ?_
      refine KeepsE.guard (KeepsE.guard ?_)
      refine KeepsE.bind (keeps_lift (happend bytes)) fun _ => ?_
      refine KeepsE.bind keeps_orFail fun _ => ?_
      exact KeepsE.guard (ih _)
  refine KeepsE.bind ?_ fun _ => keeps_fileRead
  refine KeepsE.bind ?_ fun rows => ?_
  · refine KeepsE.bind keeps_query fun _ => ?_
    refine KeepsE.bind keeps_check fun _ => ?_
    exact KeepsE.guard (KeepsE.bind keeps_check fun _ => KeepsE.pure _)
  refine KeepsE.bind (keeps_lift hdir) fun _ => KeepsE.bind keeps_orFail fun _ => ?_
  refine KeepsE.bind (keeps_lift hnew) fun _ => KeepsE.bind keeps_orFail fun _ => ?_
  refine KeepsE.bind (hcopy rows []) fun _ => ?_
  refine KeepsE.bind (keeps_lift hsync) fun _ => KeepsE.bind keeps_orFail fun _ => ?_
  exact KeepsE.guard (KeepsE.pure _)

/-- Two files under different generated names do not disturb each other. -/
theorem PreparedOk.keep {upload : UploadRow} {p : PreparedArtifact} {path : FilePath} {u : String}
    (hne : p.assembledPath ≠ path) {fs : FileStore}
    (hfs : ∀ q, q ≠ path → q ≠ .uploadDir u → fs.lookup q = s.fs.lookup q)
    (h : PreparedOk c t upload p s) : PreparedOk c t upload p { s with fs := fs } := by
  obtain ⟨hassembled, bytes, ⟨hname, hfile⟩, hverified⟩ := h
  refine ⟨hassembled, bytes, ⟨hname, ?_⟩, hverified⟩
  show fs.lookup p.assembledPath = none ∨ _
  rw [hfs _ hne]
  · exact hfile
  · obtain ⟨_, _, _, hpath, -⟩ := hname
    rw [hpath]
    simp

theorem always_cleanupPrepared {prepared : List PreparedArtifact}
    (h : ∀ p ∈ prepared, p.assembledPath.upload?.isSome) :
    (discipline c cfg mode).Always (cleanupPrepared prepared) := by
  induction prepared with
  | nil => exact Always.done _
  | cons p rest ih =>
    refine Always.bind (always_discardFile (h p List.mem_cons_self)) fun _ => ?_
    exact ih fun q hq => h q (List.mem_cons_of_mem _ hq)

theorem PreparedOk.upload {upload : UploadRow} {p : PreparedArtifact}
    (h : PreparedOk c t upload p s) : p.assembledPath.upload?.isSome := by
  obtain ⟨-, bytes, hsealed, -⟩ := h
  exact hsealed.upload

/-- A failure after some artifacts are prepared discards their files. -/
theorem safe_cleanupAndThrow {α : Type} {Q : α → Shared → Prop} {upload : UploadRow}
    {prepared : List PreparedArtifact} (hprepared : ∀ p ∈ prepared, PreparedOk c t upload p s)
    (e : ApiError) (hinv : s.Inv c) :
    (discipline c cfg mode).SafeE t (do
      cleanupPrepared prepared
      throw e : Handler ApiError α) Q (fun _ _ => True) s :=
  SafeE.bind (SafeE.of_always (always_lift (always_cleanupPrepared fun p hp =>
    (hprepared p hp).upload)) hinv) hinv fun _ _ _ _ _ => SafeE.throw trivial

/-- The artifacts of a checked upload, prepared one after another. -/
theorem safe_prepareArtifacts {upload : UploadRow} (pairs : List (Artifact × UploadArtifactRow))
    (prepared : List PreparedArtifact) (hinv : s.Inv c)
    (hpairs : ∀ (k : ℕ) (artifact : Artifact) (row : UploadArtifactRow),
      pairs[k]? = some (artifact, row) →
        ProjectedRow upload.chunkSizeBytes.toNat (prepared.length + k) artifact row)
    (hprepared : ∀ p ∈ prepared, PreparedOk c t upload p s) :
    (discipline c cfg mode).SafeE t (prepareArtifacts c upload pairs prepared)
      (fun all s => (∀ p ∈ all, PreparedOk c t upload p s) ∧
        all.map PreparedArtifact.artifact =
          prepared.map PreparedArtifact.artifact ++ pairs.map Prod.fst ∧
        all.map PreparedArtifact.artifactIndex =
          prepared.map PreparedArtifact.artifactIndex ++
            List.range' prepared.length pairs.length) (fun _ _ => True) s := by
  induction pairs generalizing prepared s with
  | nil => exact SafeE.pure ⟨hprepared, by simp, by simp⟩
  | cons pair rest ih =>
    obtain ⟨artifact, row⟩ := pair
    have hrow := hpairs 0 artifact row rfl
    rw [Nat.add_zero] at hrow
    have hstable : (discipline c cfg mode).Stable t fun s =>
        ∀ p, p ∈ prepared → PreparedOk c t upload p s :=
      Stable.forall fun p s s' t' hne hinv hstep h hp =>
        PreparedOk.stable upload p s s' t' hne hinv hstep (h hp)
    refine safe_check_bind (fun index hindex => ?_) fun _ _ => trivial
    obtain rfl : prepared.length = index := by
      have hvalue := unsignedColumn_ok hindex
      rw [hrow.index] at hvalue
      exact_mod_cast hvalue
    refine SafeE.bind_frame (SafeE.lift (safe_freshId Fresh.nil) hinv) hinv
      (keeps_lift (keeps_freshId fun s id hs p hp => ?_)) hstable hprepared
      fun uuid s₁ hinv₁ _ huuid hprepared₁ => ?_
    · obtain ⟨hassembled, bytes, ⟨⟨u, i, id', hpath, hid'⟩, hfile⟩, hverified⟩ := hs p hp
      exact ⟨hassembled, bytes, ⟨⟨u, i, id', hpath, List.mem_cons_of_mem _ hid'⟩, hfile⟩, hverified⟩
    obtain ⟨-, hfresh, hnew⟩ := huuid
    -- the new name is none of those the earlier artifacts lie under
    have hne : ∀ p ∈ prepared, p.assembledPath ≠
        .assembledArtifact upload.id prepared.length uuid := by
      intro p hp heq
      obtain ⟨-, bytes, ⟨⟨u, i, id', hpath, hid'⟩, -⟩, -⟩ := hprepared p hp
      rw [hpath] at heq
      obtain ⟨-, -, rfl⟩ := FilePath.assembledArtifact.inj heq
      exact hnew (List.mem_map_of_mem hid')
    refine SafeE.bind_frame (safe_attempt (safe_prepareArtifact hrow uuid hinv₁
      (hfresh.2 uuid List.mem_cons_self).1) hinv₁) hinv₁
      (keeps_attempt (keeps_prepareArtifact upload row artifact _ _ fun s fs hfs hs p hp =>
        (hs p hp).keep (hne p hp) hfs)) hstable hprepared₁
      fun result s₂ hinv₂ _ hresult hprepared₂ => ?_
    cases result with
    | error e =>
      refine SafeE.bind_frame (SafeE.of_always (always_lift (always_discardFile rfl)) hinv₂) hinv₂
        (keeps_lift (keeps_fileOp fun s fs hfs hs p hp => ?_)) hstable hprepared₂
        fun _ s₃ hinv₃ _ _ hprepared₃ => safe_cleanupAndThrow hprepared₃ e hinv₃
      refine (hs p hp).keep (u := upload.id) (hne p hp) fun q hq _ => ?_
      rw [FileStore.removeFile_ok hfs]
      simp [hq]
    | ok _ =>
      refine SafeE.mono (ih _ hinv₂ (fun k a r hk => ?_) fun p hp => ?_) hinv₂
        (fun all s' _ hall => ?_) fun _ _ _ _ => trivial
      · have hproj := hpairs (k + 1) a r (by simpa using hk)
        rwa [List.length_append, List.length_singleton, Nat.add_right_comm, Nat.add_assoc]
      · rcases List.mem_append.mp hp with hp | hp
        · exact hprepared₂ p hp
        · obtain rfl := List.mem_singleton.mp hp
          exact hresult
      · obtain ⟨hok, hartifacts, hindexes⟩ := hall
        refine ⟨hok, by simpa using hartifacts, ?_⟩
        rw [hindexes]
        simp [List.range'_succ]

/-- What a completion knows of an upload it has verified, whatever happens to the upload. -/
structure VerifiedOk (c : Crates) (v : Verified) (s : Shared) : Prop where
  upload : UploadKnown v.upload s
  manifest : ∃ m, ManifestKnown m s ∧ m.uploadId = v.upload.id ∧
    parseManifest c m.canonicalJson = some v.manifest
  fingerprint : v.fingerprint = snapshotFingerprint c v.manifest
  artifacts : v.prepared.map PreparedArtifact.artifact = v.manifest.artifacts
  indexes : v.prepared.map PreparedArtifact.artifactIndex = List.range v.prepared.length

theorem VerifiedOk.persistent (v : Verified) :
    (discipline c cfg mode).Persistent (VerifiedOk c v) := by
  rintro t s s' hinv hstep ⟨hupload, ⟨m, hm, hid, hparse⟩, hfingerprint, hartifacts, hindexes⟩
  exact ⟨UploadKnown.persistent _ t s s' hinv hstep hupload,
    ⟨m, ManifestKnown.persistent m t s s' hinv hstep hm, hid, hparse⟩, hfingerprint, hartifacts,
    hindexes⟩

theorem VerifiedOk.of_reach {v : Verified} {s' : Shared} (h : VerifiedOk c v s)
    (hr : (discipline c cfg mode).Reach s s') : VerifiedOk c v s' :=
  (VerifiedOk.persistent v).of_reach hr h

/-- All artifacts of a completion lie ready. -/
def AllPrepared (c : Crates) (t : TaskId) (upload : UploadRow) (prepared : List PreparedArtifact)
    (s : Shared) : Prop :=
  ∀ p ∈ prepared, PreparedOk c t upload p s

theorem AllPrepared.stable (upload : UploadRow) (prepared : List PreparedArtifact) :
    (discipline c cfg mode).Stable t (AllPrepared c t upload prepared) :=
  fun s s' t' hne hinv hstep h p hp =>
    PreparedOk.stable upload p s s' t' hne hinv hstep (h p hp)

/-- The manifest of an upload that was read is known from then on. -/
theorem known_of_manifest (hinv : s.Inv c) {uploadId : String} {m : ManifestRow}
    (h : s.db.manifestOfUpload uploadId = some m) : ManifestKnown m s ∧ m.uploadId = uploadId := by
  have hmem : m ∈ s.db.manifests := List.mem_of_find?_eq_some h
  have hid : m.uploadId = uploadId := by simpa using List.find?_some h
  refine ⟨⟨hinv.issued.manifests m hmem, fun r hr hrid => ?_⟩, hid⟩
  exact hinv.unique.manifests.eq_of_mem hr hmem hrid

theorem safe_verifyUpload {upload : UploadRow} (hinv : s.Inv c) (hs : UploadKnown upload s) :
    (discipline c cfg mode).SafeE t (verifyUpload c cfg upload)
      (fun v s => v.upload = upload ∧ VerifiedOk c v s ∧ AllPrepared c t v.upload v.prepared s)
      (fun _ _ => True) s := by
  refine SafeE.bind (Q := fun manifest s => ∃ m, ManifestKnown m s ∧ m.uploadId = upload.id ∧
    parseManifest c m.canonicalJson = some manifest) ?_ hinv fun manifest s₁ hinv₁ hr₁ hm => ?_
  · refine SafeE.bind (safe_query (Q := fun m s => ManifestKnown m s ∧ m.uploadId = upload.id)
      (fun s' m hinv' _ h => known_of_manifest hinv' (okOr_eq_ok.mp h)) fun _ _ => trivial) hinv
      fun m s' _ _ hm => ?_
    exact safe_check (fun manifest h => ⟨m, hm.1, hm.2, by simpa using h⟩) fun _ _ => trivial
  obtain ⟨m, hm, hid, hparse⟩ := hm
  refine safe_check_bind (fun _ _ => ?_) fun _ _ => trivial
  refine SafeE.bind (SafeE.of_always always_query hinv₁) hinv₁ fun rows s₂ hinv₂ hr₂ _ => ?_
  refine safe_check_bind (fun _ hprojection => ?_) fun _ _ => trivial
  obtain ⟨hlength, hrows⟩ := validateUploadProjection_ok hprojection
  refine SafeE.bind (safe_prepareArtifacts (manifest.artifacts.zip rows) [] hinv₂
    (fun k a r hk => by rw [List.length_nil, Nat.zero_add]; exact hrows k a r hk) (by simp)) hinv₂
    fun prepared s₃ hinv₃ hr₃ hprepared => ?_
  obtain ⟨hok, hartifacts, hindexes⟩ := hprepared
  refine safe_check_bind (fun totals _ => ?_) fun _ _ => trivial
  have hmap : prepared.map PreparedArtifact.artifact = manifest.artifacts := by
    rw [hartifacts, List.map_nil, List.nil_append, List.map_fst_zip hlength.le]
  have hcount : prepared.length = manifest.artifacts.length := by
    rw [← hmap, List.length_map]
  refine SafeE.pure ⟨rfl, ⟨hs.of_reach (hr₁.trans (hr₂.trans hr₃)), ⟨m, ?_, hid, hparse⟩, rfl, hmap,
    ?_⟩, hok⟩
  · exact (ManifestKnown.persistent m).of_reach (hr₂.trans hr₃) hm
  · show prepared.map PreparedArtifact.artifactIndex = List.range prepared.length
    rw [hindexes, List.map_nil, List.nil_append, List.length_nil, List.length_zip, ← hlength,
      min_self, hcount, List.range_eq_range']

/-! ## §3 — Promotion. -/

theorem mem_insertFirst {p q : PreparedArtifact} {unique : List PreparedArtifact}
    (h : q ∈ insertFirst p unique) : q = p ∨ q ∈ unique := by
  induction unique with
  | nil => exact Or.inl (List.mem_singleton.mp h)
  | cons x rest ih =>
    unfold insertFirst at h
    split_ifs at h
    · exact List.mem_cons.mp h
    · exact Or.inr h
    · rcases List.mem_cons.mp h with rfl | h
      · exact Or.inr List.mem_cons_self
      · exact (ih h).imp_right (List.mem_cons_of_mem _)

theorem digest_insertFirst (p : PreparedArtifact) (unique : List PreparedArtifact) :
    (∃ q ∈ insertFirst p unique, q.digest = p.digest) ∧
      ∀ x ∈ unique, ∃ q ∈ insertFirst p unique, q.digest = x.digest := by
  induction unique with
  | nil => exact ⟨⟨p, List.mem_singleton_self p, rfl⟩, by simp⟩
  | cons x rest ih =>
    obtain ⟨⟨q, hq, hqp⟩, hrest⟩ := ih
    unfold insertFirst
    split_ifs with hlt heq
    · exact ⟨⟨p, List.mem_cons_self, rfl⟩, fun y hy => ⟨y, List.mem_cons_of_mem _ hy, rfl⟩⟩
    · exact ⟨⟨x, List.mem_cons_self, heq.symm⟩, fun y hy => ⟨y, hy, rfl⟩⟩
    · refine ⟨⟨q, List.mem_cons_of_mem _ hq, hqp⟩, fun y hy => ?_⟩
      rcases List.mem_cons.mp hy with rfl | hy
      · exact ⟨y, List.mem_cons_self, rfl⟩
      · obtain ⟨z, hz, hzy⟩ := hrest y hy
        exact ⟨z, List.mem_cons_of_mem _ hz, hzy⟩

/-- The artifacts chosen for promotion are prepared artifacts, one for every digest. -/
theorem uniqueStoredArtifacts_spec (prepared : List PreparedArtifact) :
    (∀ q ∈ uniqueStoredArtifacts prepared, q ∈ prepared) ∧
      ∀ p ∈ prepared, ∃ q ∈ uniqueStoredArtifacts prepared, q.digest = p.digest := by
  have hgen (unique : List PreparedArtifact) :
      (∀ q ∈ prepared.foldl (fun u p => insertFirst p u) unique, q ∈ prepared ∨ q ∈ unique) ∧
        (∀ p ∈ prepared, ∃ q ∈ prepared.foldl (fun u p => insertFirst p u) unique,
          q.digest = p.digest) ∧
        ∀ x ∈ unique, ∃ q ∈ prepared.foldl (fun u p => insertFirst p u) unique,
          q.digest = x.digest := by
    induction prepared generalizing unique with
    | nil => exact ⟨fun q hq => Or.inr hq, by simp, fun x hx => ⟨x, hx, rfl⟩⟩
    | cons p rest ih =>
      obtain ⟨hmem, hall, hkept⟩ := ih (insertFirst p unique)
      obtain ⟨⟨y, hy, hyp⟩, hold⟩ := digest_insertFirst p unique
      refine ⟨fun q hq => ?_, fun x hx => ?_, fun x hx => ?_⟩
      · rcases hmem q hq with h | h
        · exact Or.inl (List.mem_cons_of_mem _ h)
        · rcases mem_insertFirst h with rfl | h
          · exact Or.inl List.mem_cons_self
          · exact Or.inr h
      · rcases List.mem_cons.mp hx with rfl | hx
        · obtain ⟨z, hz, hzy⟩ := hkept y hy
          exact ⟨z, hz, hzy.trans hyp⟩
        · exact hall x hx
      · obtain ⟨z, hz, hzx⟩ := hold x hx
        obtain ⟨w, hw, hwz⟩ := hkept z hz
        exact ⟨w, hw, hwz.trans hzx⟩
  obtain ⟨hmem, hall, -⟩ := hgen []
  exact ⟨fun q hq => (hmem q hq).resolve_right (by simp), hall⟩

/-- All the locks are held. -/
def HoldsAll (t : TaskId) (ls : List Lock) (s : Shared) : Prop := ∀ l ∈ ls, Holds t l s

theorem HoldsAll.stable (ls : List Lock) : (discipline c cfg mode).Stable t (HoldsAll t ls) :=
  fun s s' t' hne hinv hstep h l hl => Holds.stable l s s' t' hne hinv hstep (h l hl)

theorem safe_acquireAll (ls : List Lock) (hinv : s.Inv c) :
    (discipline c cfg mode).Safe t (acquireAll ls) (fun _ => HoldsAll t ls) s := by
  induction ls generalizing s with
  | nil => exact fun l hl => by simp at hl
  | cons l ls ih =>
    refine Safe.bind (safe_acquire l) hinv fun _ s₁ hinv₁ hl => ?_
    refine Safe.mono (Safe.frame (ih hinv₁) (keeps_acquireAll ls fun s l' hs => ?_)
      (Holds.stable l) hl) (fun _ s₂ _ h l' hl' => ?_) hinv₁
    · exact List.mem_cons_of_mem _ hs
    · rcases List.mem_cons.mp hl' with rfl | hl'
      · exact h.2
      · exact h.1 l' hl'

/-- Taking no lock away keeps every lock. -/
theorem HoldsAll.of_locks {ls : List Lock} {s' : Shared} (hlocks : s'.locks = s.locks)
    (h : HoldsAll t ls s) : HoldsAll t ls s' := by
  intro l hl
  show (l, t) ∈ s'.locks
  rw [hlocks]
  exact h l hl

theorem always_ensureRepresentations (unique : List PreparedArtifact) :
    (discipline c cfg mode).AlwaysE (ensureRepresentations unique) := by
  induction unique with
  | nil => exact AlwaysE.pure _
  | cons p rest ih =>
    refine AlwaysE.bind always_check fun _ => AlwaysE.bind always_query fun existing => ?_
    cases existing with
    | none => exact ih
    | some row =>
      dsimp only
      split
      · exact AlwaysE.throw _
      · exact ih

theorem keeps_ensureRepresentations {P : Shared → Prop} (unique : List PreparedArtifact) :
    KeepsE t P (ensureRepresentations unique) := by
  induction unique with
  | nil => exact KeepsE.pure _
  | cons p rest ih =>
    refine KeepsE.bind keeps_check fun _ => KeepsE.bind keeps_query fun existing => ?_
    cases existing with
    | none => exact ih
    | some row =>
      dsimp only
      split
      · exact KeepsE.throw _
      · exact ih

/-- What is verified has the digest it is stored under. -/
theorem verifyArtifactBytes_digest {artifact : Artifact} {bytes : Bytes}
    (h : verifyArtifactBytes c artifact bytes = .ok ()) :
    c.sha256Hex bytes = digestStorageValue artifact.storedSha256 ∧
      bytes.length = artifact.storedSizeBytes.toNat := by
  unfold verifyArtifactBytes hashReader at h
  split_ifs at h with hlong
  · simp at h
  · simp only [pure_bind, throw_bind, ite_throw_eq_ok, not_or, not_not] at h
    exact ⟨h.1.2, h.1.1⟩

/-- The blob file of a digest is there and the task holds its lock. -/
def Present (t : TaskId) (d : String) (s : Shared) : Prop :=
  Holds t (blobLock d) s ∧ s.fs.lookup (blobPath d) ≠ none

/-- The directories a canonical blob file lies in, made where they are missing. -/
def createBlobDirs (d : String) : Program (Except IoError Unit) :=
  fileOp fun fs => fs.createDirAll
    [.blobRootEntry "sha256", .shard (String.ofList ((Lib.chars d).take 2))]

theorem always_createBlobDirs (d : String) :
    (discipline c cfg mode).Always (createBlobDirs d) := by
  refine always_fileOp fun t s fs h => ⟨.blobDirs fun q => ?_,
    .createDirAll (List.isChain_pair.mpr rfl) ?_ h⟩
  · rcases FileStore.lookup_createDirAll h q with heq | ⟨hmem, hnone, hdir⟩
    · exact Or.inl heq
    · refine Or.inr ⟨hnone, hdir, ?_⟩
      rcases List.mem_pair.mp hmem with rfl | rfl
      · exact Or.inl rfl
      · exact Or.inr ⟨d, rfl⟩
  · rintro q hq
    obtain rfl : FilePath.blobRootEntry "sha256" = q := by simpa using hq
    rfl

theorem PreparedOk.createBlobDirs {upload : UploadRow} {p : PreparedArtifact} {d : String}
    {fs : FileStore} (h : PreparedOk c t upload p s)
    (hfs : s.fs.createDirAll
    [.blobRootEntry "sha256", .shard (String.ofList ((Lib.chars d).take 2))] =
      .ok fs) : PreparedOk c t upload p { s with fs := fs } := by
  obtain ⟨hassembled, bytes, ⟨hname, hfile⟩, hverified⟩ := h
  refine ⟨hassembled, bytes, ⟨hname, ?_⟩, hverified⟩
  rcases FileStore.lookup_createDirAll hfs p.assembledPath with heq | ⟨hmem, -, -⟩
  · show fs.lookup p.assembledPath = none ∨ _
    rw [heq]
    exact hfile
  · obtain ⟨_, _, _, hpath, -⟩ := hname
    rw [hpath] at hmem
    simp at hmem

/-- The link of a verified artifact, made under the lock of its digest. -/
theorem safe_linkBlobFile {upload : UploadRow} {p : PreparedArtifact}
    (hkeeper : mode.keepers t) (hp : PreparedOk c t upload p s)
    (hlock : Holds t (blobLock p.digest) s) :
    (discipline c cfg mode).Safe t (linkBlobFile p.assembledPath p.digest)
      (fun r s => Holds t (blobLock p.digest) s ∧
        (r = .ok () → s.fs.lookup (blobPath p.digest) ≠ none)) s := by
  have hboth : (discipline c cfg mode).Stable t fun s =>
      PreparedOk c t upload p s ∧ Holds t (blobLock p.digest) s :=
    (PreparedOk.stable upload p).and (Holds.stable _)
  have hlate : (discipline c cfg mode).Stable t fun s =>
      PreparedOk c t upload p s ∧ (mode.links → Holds t (blobLock p.digest) s) :=
    (PreparedOk.stable upload p).and
      fun s s' t' hne hinv hstep h hmode => Holds.stable _ s s' t' hne hinv hstep (h hmode)
  refine safe_fileStep hboth hlate (fun s hs => ⟨hs.1, fun _ => hs.2⟩)
    (fun hmode s _ hs => ⟨hs.1, fun hlinks => absurd rfl (hmode.1 hlinks)⟩) ⟨hp, hlock⟩
    (fun s' fs _ hs' h => ?_)
    (fun s' fs _ hs' h => ?_) fun s' e _ hs' => ⟨hs'.2, fun h => by simp at h⟩
  · refine ⟨?_, .hardLink h⟩
    obtain ⟨node, hsource, -, hnone, rfl⟩ := FileStore.hardLink_ok h
    obtain ⟨-, bytes, ⟨hname, hfile⟩, hverified⟩ := hs'.1
    rw [hsource] at hfile
    obtain rfl : node = .file bytes := by simpa using hfile
    refine .link p.digest bytes hs'.2 hnone (verifyArtifactBytes_digest hverified).1 (fun q => ?_)
      hkeeper
    exact FileStore.lookup_link _ _ _ _
  · refine ⟨hs'.2, fun _ => ?_⟩
    obtain ⟨node, -, -, -, rfl⟩ := FileStore.hardLink_ok h
    show (s'.fs.link _ (blobPath p.digest) node).lookup (blobPath p.digest) ≠ none
    rw [FileStore.lookup_link, if_pos rfl]
    simp

/-- Promoting a verified artifact leaves a file at the canonical path of its digest. -/
theorem safe_promoteBlob {upload : UploadRow} {p : PreparedArtifact} (hkeeper : mode.keepers t)
    (size : ℕ) (hinv : s.Inv c) (hp : PreparedOk c t upload p s)
    (hlock : Holds t (blobLock p.digest) s) :
    (discipline c cfg mode).SafeE t
      (promoteBlob c p.assembledPath p.artifact.storedSha256 size)
      (fun _ s => mode.removals → Present t p.digest s) (fun _ _ => True) s := by
  have hboth : (discipline c cfg mode).Stable t fun s =>
      PreparedOk c t upload p s ∧ Holds t (blobLock p.digest) s :=
    (PreparedOk.stable upload p).and (Holds.stable _)
  have hpresent : (discipline c cfg mode).Stable t fun s => mode.removals → Present t p.digest s :=
    fun s s' t' hne hinv hstep h hmode => blobFile_stable hmode _ s s' t' hne hinv hstep (h hmode)
  have hkeep : Keeps t (fun s => PreparedOk c t upload p s ∧ Holds t (blobLock p.digest) s)
      (createBlobDirs p.digest) :=
    keeps_fileOp fun s fs hfs hs => ⟨hs.1.createBlobDirs hfs, hs.2⟩
  refine SafeE.bind_frame (SafeE.of_always (always_lift (always_createBlobDirs _)) hinv) hinv
    (keeps_lift hkeep)
    hboth ⟨hp, hlock⟩ fun r s₁ hinv₁ _ _ hs₁ => ?_
  refine safe_orFail_bind (fun _ _ => ?_) trivial
  refine SafeE.bind (SafeE.lift (safe_linkBlobFile hkeeper hs₁.1 hs₁.2) hinv₁) hinv₁
    fun linked s₂ hinv₂ _ hlinked => ?_
  obtain ⟨hlock₂, hfile₂⟩ := hlinked
  rcases linked with (_ | _ | _) | _
  · exact SafeE.throw trivial
  · -- the digest is already there: its file must hold these bytes
    refine SafeE.bind (safe_fileRead_of (Q := fun _ s => mode.removals → Present t p.digest s)
      (Holds.stable (blobLock p.digest)) hlock₂ (fun s' _ _ hs' h _ => ?_) fun _ _ _ => trivial)
      hinv₂ fun _ s₃ _ _ hs₃ => SafeE.pure hs₃
    obtain ⟨bytes, hfile, -, -⟩ := verifyStoredFile_ok h
    refine ⟨hs', ?_⟩
    show s'.fs.lookup (blobPath (digestStorageValue p.artifact.storedSha256)) ≠ none
    rw [hfile]
    simp
  · exact SafeE.throw trivial
  · have hsyncs :=
      FileStore.syncs_syncDirectory (.shard (String.ofList ((Lib.chars p.digest).take 2)))
    refine SafeE.bind_frame (SafeE.of_always (always_lift (always_sync hsyncs)) hinv₂) hinv₂
      (keeps_lift (keeps_fileOp fun s fs hfs hs hmode => ?_)) hpresent
      (fun _ => ⟨hlock₂, hfile₂ rfl⟩) fun r s₃ hinv₃ _ _ hs₃ => ?_
    · refine ⟨(hs hmode).1, ?_⟩
      show fs.lookup _ ≠ none
      rw [hsyncs.lookup hfs]
      exact (hs hmode).2
    · exact safe_orFail_bind (fun _ _ => SafeE.pure hs₃) trivial

/-- The locks of all promotions are held. -/
def HoldsPromoted (t : TaskId) (promotions : List BlobPromotion) (s : Shared) : Prop :=
  HoldsAll t (promotions.map fun p => blobLock p.storedSha256) s

theorem keeps_cleanupUncommittedPromotions {P : Shared → Prop} (promotions : List BlobPromotion)
    (h : ∀ s fs d, s.fs.removeFile (blobPath d) = .ok fs → P s → P { s with fs := fs }) :
    KeepsE t P (cleanupUncommittedPromotions promotions) := by
  induction promotions with
  | nil => exact KeepsE.pure _
  | cons p rest ih =>
    rw [cleanupUncommittedPromotions]
    split
    · refine KeepsE.bind keeps_query fun referenced => ?_
      split
      · refine KeepsE.bind (keeps_lift (keeps_removeBlobFile _ fun s fs => h s fs _)) fun _ => ?_
        exact KeepsE.bind keeps_orFail fun _ => ih
      · exact ih
    · exact ih

/-- Files promoted for nothing are removed under their locks, when no row has come to need them. -/
theorem safe_cleanupUncommittedPromotions (hkeeper : mode.keepers t)
    (promotions : List BlobPromotion) (hinv : s.Inv c) (hs : HoldsPromoted t promotions s) :
    (discipline c cfg mode).SafeE t (cleanupUncommittedPromotions promotions) (fun _ _ => True)
      (fun _ _ => True) s := by
  induction promotions generalizing s with
  | nil => exact SafeE.pure trivial
  | cons p rest ih =>
    have hhead : Holds t (blobLock p.storedSha256) s := hs _ List.mem_cons_self
    have htail : HoldsPromoted t rest s := fun l hl => hs l (List.mem_cons_of_mem _ hl)
    have hstable : (discipline c cfg mode).Stable t (HoldsPromoted t rest) := HoldsAll.stable _
    rw [cleanupUncommittedPromotions]
    split
    · refine SafeE.bind_frame (safe_query_of (Q := fun r s => r.isNone → Holds t
          (blobLock p.storedSha256) s ∧ ∀ r ∈ s.db.blobs, r.storedSha256 ≠ p.storedSha256)
        (Holds.stable _) hhead (fun s' r hinv' _ hs' h hnone => ⟨hs', fun row hrow hsha => ?_⟩)
        fun _ _ _ => trivial) hinv keeps_query hstable htail
        fun referenced s₁ hinv₁ _ hfree htail₁ => ?_
      · obtain rfl := pure_eq_ok.mp h
        have hmiss := List.find?_eq_none.mp (Option.isNone_iff_eq_none.mp hnone) row hrow
        exact hmiss (decide_eq_true ⟨hinv'.owned row hrow, hsha⟩)
      · split
        · next hnone =>
          refine SafeE.bind_frame (SafeE.lift (safe_removeBlobFile hkeeper
            (noBlob_stable p.storedSha256) (hfree hnone) fun _ s' _ hs' => ⟨hs'.1, Or.inl hs'.2⟩)
              hinv₁) hinv₁
            (keeps_lift (keeps_removeBlobFile _ fun s fs _ hs' => hs'.of_locks rfl)) hstable htail₁
            fun r s₂ hinv₂ _ _ htail₂ => ?_
          exact safe_orFail_bind (fun _ _ => ih hinv₂ htail₂) trivial
        · exact ih hinv₁ htail₁
    · exact ih hinv htail

/-- Paths outside the directories of uploads are added, and nothing else changes. -/
def BlobPathsAdded (fs fs' : FileStore) : Prop :=
  ∀ q, fs.lookup q = none ∧ q.upload? = none ∨ fs'.lookup q = fs.lookup q

theorem keeps_promoteBlob {P : Shared → Prop} (path : FilePath) (storedSha256 : String)
    (size : ℕ) (h : ∀ s fs, BlobPathsAdded s.fs fs → P s → P { s with fs := fs }) :
    KeepsE t P (promoteBlob c path storedSha256 size) := by
  have hdirs (d : String) : Keeps t P (createBlobDirs d) := by
    refine keeps_fileOp fun s fs hfs hs => h s fs (fun q => ?_) hs
    rcases FileStore.lookup_createDirAll hfs q with heq | ⟨hmem, hnone, -⟩
    · exact Or.inr heq
    · rcases List.mem_pair.mp hmem with rfl | rfl <;> exact Or.inl ⟨hnone, rfl⟩
  have hlink (d : String) : Keeps t P (linkBlobFile path d) := by
    refine keeps_fileStep fun s fs hfs hs => h s fs (fun q => ?_) hs
    obtain ⟨node, -, -, hnone, rfl⟩ := FileStore.hardLink_ok hfs
    by_cases hq : q = blobPath d
    · subst hq
      exact Or.inl ⟨hnone, rfl⟩
    · exact Or.inr (by rw [FileStore.lookup_link, if_neg hq])
  have hsync (d : FilePath) : Keeps t P (fileOp fun fs => fs.syncDirectory d) :=
    keeps_fileOp fun s fs hfs hs => h s fs
      (fun q => Or.inr ((FileStore.syncs_syncDirectory d).lookup hfs q)) hs
  refine KeepsE.bind (keeps_lift (hdirs _)) fun _ => KeepsE.bind keeps_orFail fun _ => ?_
  refine KeepsE.bind (keeps_lift (hlink _)) fun linked => ?_
  rcases linked with (_ | _ | _) | _
  · exact KeepsE.throw _
  · exact KeepsE.bind keeps_fileRead fun _ => KeepsE.pure _
  · exact KeepsE.throw _
  · refine KeepsE.bind (keeps_lift (hsync _)) fun _ => ?_
    exact KeepsE.bind keeps_orFail fun _ => KeepsE.pure _

/-- What a completion holds while it promotes: its locks and the artifacts still to promote. -/
def Promoting (c : Crates) (t : TaskId) (mode : Mode) (upload : UploadRow) (locks : List Lock)
    (prepared : List PreparedArtifact) (done : List String) (s : Shared) : Prop :=
  HoldsAll t locks s ∧ AllPrepared c t upload prepared s ∧
    ∀ d ∈ done, mode.removals → Present t d s

theorem Promoting.stable (upload : UploadRow) (locks : List Lock)
    (prepared : List PreparedArtifact) (done : List String) :
    (discipline c cfg mode).Stable t (Promoting c t mode upload locks prepared done) := by
  rintro s s' t' hne hinv hstep ⟨hlocks, hprepared, hdone⟩
  refine ⟨HoldsAll.stable locks s s' t' hne hinv hstep hlocks,
    AllPrepared.stable upload prepared s s' t' hne hinv hstep hprepared, fun d hd hmode => ?_⟩
  exact blobFile_stable hmode d s s' t' hne hinv hstep (hdone d hd hmode)

/-- Promoting another artifact leaves a promotion as it is. -/
theorem Promoting.add {upload : UploadRow} {locks : List Lock} {prepared : List PreparedArtifact}
    {done : List String} {fs : FileStore} (hfs : BlobPathsAdded s.fs fs)
    (h : Promoting c t mode upload locks prepared done s) :
    Promoting c t mode upload locks prepared done { s with fs := fs } := by
  obtain ⟨hlocks, hprepared, hdone⟩ := h
  refine ⟨hlocks.of_locks rfl, fun p hp => ?_, fun d hd hmode => ⟨(hdone d hd hmode).1, ?_⟩⟩
  · obtain ⟨hassembled, bytes, hseal, hverified⟩ := hprepared p hp
    refine ⟨hassembled, bytes, ⟨hseal.1, ?_⟩, hverified⟩
    show fs.lookup p.assembledPath = none ∨ _
    rcases hfs p.assembledPath with ⟨-, hnone⟩ | heq
    · have hsome := hseal.upload
      rw [hnone] at hsome
      simp at hsome
    · rw [heq]
      exact hseal.2
  · have hthere := (hdone d hd hmode).2
    rcases hfs (blobPath d) with ⟨hnone, -⟩ | heq
    · exact absurd hnone hthere
    · show fs.lookup (blobPath d) ≠ none
      rw [heq]
      exact hthere

/-- Undoing a promotion leaves the artifacts still to promote as they are. -/
theorem Promoting.removeFile {upload : UploadRow} {locks : List Lock}
    {prepared : List PreparedArtifact} {d : String} {fs : FileStore}
    (hfs : s.fs.removeFile (blobPath d) = .ok fs)
    (h : Promoting c t mode upload locks prepared [] s) :
    Promoting c t mode upload locks prepared [] { s with fs := fs } := by
  obtain ⟨hlocks, hprepared, -⟩ := h
  refine ⟨hlocks.of_locks rfl, fun p hp => ?_, by simp⟩
  obtain ⟨hassembled, bytes, hseal, hverified⟩ := hprepared p hp
  refine ⟨hassembled, bytes, ⟨hseal.1, ?_⟩, hverified⟩
  show fs.lookup p.assembledPath = none ∨ _
  rw [FileStore.removeFile_ok hfs, FileStore.lookup_removeWhere, if_neg]
  · exact hseal.2
  · rw [decide_eq_true_eq]
    intro heq
    have hsome := hseal.upload
    rw [heq] at hsome
    simp at hsome

/-- The loop of the promotion: every digest gets its file, and every promotion is of a digest of
the list. -/
theorem safe_promoteUniqueBlobs {upload : UploadRow} {locks : List Lock}
    {prepared : List PreparedArtifact} (hkeeper : mode.keepers t)
    (unique : List PreparedArtifact) {done : List String} (promotions : List BlobPromotion)
    (hinv : s.Inv c) (hunique : ∀ p ∈ unique, p ∈ prepared ∧ blobLock p.digest ∈ locks)
    (hpromotions : ∀ p ∈ promotions, blobLock p.storedSha256 ∈ locks)
    (hs : Promoting c t mode upload locks prepared done s) :
    (discipline c cfg mode).SafeE t (promoteUniqueBlobs c unique promotions)
      (fun all s => (∀ p ∈ all, blobLock p.storedSha256 ∈ locks) ∧
        Promoting c t mode upload locks prepared
          (done ++ unique.map PreparedArtifact.digest) s)
      (fun _ s => Promoting c t mode upload locks prepared [] s) s := by
  induction unique generalizing promotions done s with
  | nil => exact SafeE.pure ⟨hpromotions, by simpa using hs⟩
  | cons p rest ih =>
    obtain ⟨hp, hlock⟩ := hunique p List.mem_cons_self
    have hnext (created : Bool) : ∀ q ∈ promotions ++
        [⟨p.digest, p.artifact.storedSizeBytes.toNat, created⟩],
        blobLock q.storedSha256 ∈ locks := by
      intro q hq
      rcases List.mem_append.mp hq with hq | hq
      · exact hpromotions q hq
      · obtain rfl := List.mem_singleton.mp hq
        exact hlock
    refine SafeE.bind_frame (safe_attempt (safe_promoteBlob hkeeper _ hinv
      (hs.2.1 p hp) (hs.1 _ hlock)) hinv) hinv
      (keeps_attempt (keeps_promoteBlob _ _ _ fun s fs hfs hs => hs.add hfs))
      (Promoting.stable upload locks prepared done) hs fun promotion s₁ hinv₁ _ hpromoted hs₁ => ?_
    cases promotion with
    | error e =>
      have hsome : Promoting c t mode upload locks prepared [] s₁ :=
        ⟨hs₁.1, hs₁.2.1, fun d hd => by simp at hd⟩
      refine SafeE.bind_frame (safe_attempt (safe_cleanupUncommittedPromotions hkeeper _
        hinv₁ fun l hl => ?_) hinv₁) hinv₁ (keeps_attempt (keeps_cleanupUncommittedPromotions _
          fun s fs d hfs hs => hs.removeFile hfs)) (Promoting.stable upload locks prepared []) hsome
        fun _ s₂ _ _ _ hs₂ => SafeE.throw hs₂
      · obtain ⟨q, hq, rfl⟩ := List.mem_map.mp hl
        exact hs₁.1 _ (hnext true q hq)
    | ok created =>
      have hmore : Promoting c t mode upload locks prepared (done ++ [p.digest]) s₁ := by
        refine ⟨hs₁.1, hs₁.2.1, fun d hd => ?_⟩
        rcases List.mem_append.mp hd with hd | hd
        · exact hs₁.2.2 d hd
        · obtain rfl := List.mem_singleton.mp hd
          exact hpromoted
      refine SafeE.mono (ih _ hinv₁ (fun q hq => hunique q (List.mem_cons_of_mem _ hq))
        (hnext created) hmore) hinv₁ (fun all s' _ h => ?_) fun _ _ _ h => h
      rw [List.append_assoc] at h
      exact h

/-! ## §4 — Recording. -/

theorem safe_nowRfc3339 (hinv : s.Inv c) :
    (discipline c cfg mode).SafeE t (nowRfc3339 c)
      (fun text _ => ∃ n, c.formatRfc3339 (.utc n) = some text) (fun _ _ => True) s := by
  refine SafeE.bind (SafeE.lift safe_nowUtc hinv) hinv fun now s₁ hinv₁ _ hnow => ?_
  obtain ⟨n, rfl, -⟩ := hnow
  exact safe_check (fun text h => ⟨n, okOr_eq_ok.mp h⟩) fun _ _ => trivial

theorem always_completionForUpload (uploadId : String) :
    (discipline c cfg mode).AlwaysE (completionForUpload c cfg uploadId) := by
  have hreceipt : (discipline c cfg mode).AlwaysE (receiptForUpload cfg uploadId) := by
    refine AlwaysE.bind always_query fun row => ?_
    iterate 3 refine AlwaysE.bind always_check fun _ => ?_
    exact AlwaysE.pure _
  have hcapture : (discipline c cfg mode).AlwaysE (captureForUpload c uploadId) :=
    AlwaysE.bind always_query fun _ => always_check
  refine AlwaysE.bind hreceipt fun _ => AlwaysE.bind always_query fun _ => ?_
  refine AlwaysE.bind hcapture fun _ => ?_
  iterate 2 refine AlwaysE.bind always_check fun _ => ?_
  exact AlwaysE.pure _

theorem always_completedResponse (uploadId : String) :
    (discipline c cfg mode).AlwaysE (completedResponse c cfg uploadId) :=
  AlwaysE.bind (always_lift (always_removeUploadDir uploadId)) fun _ =>
    always_completionForUpload uploadId

/-- What a completion knows gives what both completing transactions ask for. -/
theorem VerifiedOk.completing {v : Verified} (h : VerifiedOk c v s) {now : String} {n : ℤ}
    (hnow : c.formatRfc3339 (.utc n) = some now) (transferBytes : ℕ) (captureId : String) :
    CompletingOk c ⟨v.upload, v.manifest, now, transferBytes, captureId⟩ s :=
  ⟨h.upload, h.manifest, n, hnow⟩

theorem safe_finalizeUploadForExistingSnapshot {v : Verified} {snapshotId : String}
    (hinv : s.Inv c) (hv : VerifiedOk c v s)
    (hsnapshot : SnapshotKnown snapshotId v.upload.sessionId v.fingerprint s) :
    (discipline c cfg mode).SafeE t
      (finalizeUploadForExistingSnapshot c v.upload v.manifest snapshotId v.transferBytes)
      (fun _ _ => True) (fun _ _ => True) s := by
  have hboth : (discipline c cfg mode).Persistent fun s =>
      VerifiedOk c v s ∧ SnapshotKnown snapshotId v.upload.sessionId v.fingerprint s :=
    (VerifiedOk.persistent v).and (SnapshotKnown.persistent _ _ _)
  refine SafeE.bind (safe_nowRfc3339 hinv) hinv fun now s₁ hinv₁ hr₁ hnow => ?_
  obtain ⟨n, hnow⟩ := hnow
  refine SafeE.bind (SafeE.lift (safe_freshId Fresh.nil) hinv₁) hinv₁
    fun captureId s₂ hinv₂ hr₂ hid => ?_
  refine SafeE.bind (safe_transaction (Q := fun _ _ => True) (hboth.stable t)
    (hboth.of_reach (hr₁.trans hr₂) ⟨hv, hsnapshot⟩) hid.2.1 (fun s' completed db _ _ hs' h => ?_)
    fun _ _ => trivial) hinv₂ fun completed s₃ hinv₃ _ _ => ?_
  · refine ⟨.finalizeUpload _ snapshotId (hs'.1.completing hnow _ _) ?_ h, trivial⟩
    show SnapshotKnown snapshotId v.upload.sessionId (snapshotFingerprint c v.manifest) s'
    rw [← hs'.1.fingerprint]
    exact hs'.2
  · split
    · exact SafeE.pure trivial
    · exact SafeE.throw trivial

theorem RecordOk.stable (x : CompletionRecord) :
    (discipline c cfg mode).Stable t (RecordOk c mode t x) := by
  intro s s' t' hne hinv hstep h
  refine ⟨CompletingOk.persistent x.toCompleting t' s s' hinv hstep h.toCompletingOk,
    h.fingerprint, h.seq, h.artifacts, h.indexes, h.blobIds, h.artifactIds, fun p hp => ?_,
    fun p hp => ?_, fun hmode p hp => ?_⟩
  · exact Assembled.persistent x.upload p t' s s' hinv hstep (h.assembled p hp)
  · exact Holds.stable _ s s' t' hne hinv hstep (h.locks p hp)
  · exact (blobFile_stable hmode p.digest s s' t' hne hinv hstep
      ⟨h.locks p hp, h.files hmode p hp⟩).2

theorem Promoting.issue {upload : UploadRow} {locks : List Lock} {prepared : List PreparedArtifact}
    {done : List String} (id : String) (h : Promoting c t mode upload locks prepared done s) :
    Promoting c t mode upload locks prepared done { s with issued := (id, t) :: s.issued } := by
  refine ⟨h.1, fun p hp => ?_, h.2.2⟩
  obtain ⟨hassembled, bytes, ⟨⟨u, i, id', hpath, hid'⟩, hfile⟩, hverified⟩ := h.2.1 p hp
  exact ⟨hassembled, bytes, ⟨⟨u, i, id', hpath, List.mem_cons_of_mem _ hid'⟩, hfile⟩, hverified⟩

/-- A live snapshot that was read is known from then on. -/
theorem known_of_liveSnapshot (hinv : s.Inv c) {sessionId fingerprint : String} {r : SnapshotRow}
    (h : s.db.liveSnapshot sessionId fingerprint = some r) :
    SnapshotKnown r.id sessionId fingerprint s := by
  have hmem : r ∈ s.db.snapshots := List.mem_of_find?_eq_some h
  have hkey := List.find?_some h
  simp only [Bool.and_eq_true, decide_eq_true_eq] at hkey
  refine ⟨hinv.issued.snapshots r hmem, fun r' hr' hid => ?_⟩
  rw [hinv.unique.snapshots.eq_of_mem hr' hmem hid]
  exact hkey.1

theorem keeps_recordCompletion {P : Shared → Prop} (upload : UploadRow) (manifest : Manifest)
    (prepared : List PreparedArtifact) (promotions : List BlobPromotion) (fingerprint : String)
    (transferBytes newlyPersisted : ℕ)
    (h : ∀ s s' : Shared, s'.locks = s.locks → P s → P s') :
    KeepsE t P (recordCompletion c upload manifest prepared promotions fingerprint transferBytes
      newlyPersisted) := by
  have hissue : ∀ s id, P s → P { s with issued := (id, t) :: s.issued } :=
    fun s id hs => h s _ rfl hs
  have hwrite : ∀ s db used accepted, P s →
      P { s with db := db, used := used, accepted := accepted } :=
    fun s _ _ _ hs => h s _ rfl hs
  refine KeepsE.bind keeps_nowRfc3339 fun now => KeepsE.bind keeps_check fun seq => ?_
  refine KeepsE.bind (keeps_lift (keeps_freshIds _ hissue)) fun blobIds => ?_
  refine KeepsE.bind (keeps_lift (keeps_freshId hissue)) fun snapshotId => ?_
  refine KeepsE.bind (keeps_lift (keeps_freshIds _ hissue)) fun artifactIds => ?_
  refine KeepsE.bind (keeps_lift (keeps_freshId hissue)) fun captureId => ?_
  refine KeepsE.bind (keeps_transaction hwrite) fun outcome => ?_
  cases outcome with
  | recorded => exact KeepsE.pure _
  | lost =>
    refine KeepsE.bind keeps_query fun winner => ?_
    refine KeepsE.bind (keeps_cleanupUncommittedPromotions _ fun s fs _ _ hs => h s _ rfl hs)
      fun _ => ?_
    refine KeepsE.bind keeps_nowRfc3339 fun now => ?_
    refine KeepsE.bind (keeps_lift (keeps_freshId hissue)) fun id => ?_
    refine KeepsE.bind (keeps_transaction hwrite) fun completed => ?_
    split
    · exact KeepsE.pure _
    · exact KeepsE.throw _

/-- Recording a snapshot for promoted artifacts, or joining the snapshot of a completion that was
faster. -/
theorem safe_recordCompletion {v : Verified} {locks : List Lock} {done : List String}
    {promotions : List BlobPromotion} (hkeeper : mode.keepers t) (newlyPersisted : ℕ)
    (hinv : s.Inv c) (hv : VerifiedOk c v s)
    (hdone : ∀ p ∈ v.prepared, p.digest ∈ done ∧ blobLock p.digest ∈ locks)
    (hpromotions : ∀ p ∈ promotions, blobLock p.storedSha256 ∈ locks)
    (hs : Promoting c t mode v.upload locks v.prepared done s) :
    (discipline c cfg mode).SafeE t
      (recordCompletion c v.upload v.manifest v.prepared promotions v.fingerprint v.transferBytes
        newlyPersisted) (fun _ _ => True) (fun _ _ => True) s := by
  have hstable : (discipline c cfg mode).Stable t
      (Promoting c t mode v.upload locks v.prepared done) := Promoting.stable _ _ _ _
  have hissue : ∀ s id, Promoting c t mode v.upload locks v.prepared done s →
      Promoting c t mode v.upload locks v.prepared done { s with issued := (id, t) :: s.issued } :=
    fun s id hs => hs.issue id
  refine SafeE.bind_frame (safe_nowRfc3339 hinv) hinv keeps_nowRfc3339 hstable hs
    fun now s₁ hinv₁ hr₁ hnow hs₁ => ?_
  obtain ⟨n, hnow⟩ := hnow
  refine safe_check_bind (fun nowSeq hseq => ?_) fun _ _ => trivial
  refine SafeE.bind_frame (SafeE.lift (safe_freshIds _ hinv₁ Fresh.nil) hinv₁) hinv₁
    (keeps_lift (keeps_freshIds _ hissue)) hstable hs₁ fun blobIds s₂ hinv₂ hr₂ hblobs hs₂ => ?_
  refine SafeE.bind_frame (SafeE.lift (safe_freshId hblobs.2) hinv₂) hinv₂
    (keeps_lift (keeps_freshId hissue)) hstable hs₂ fun snapshotId s₃ hinv₃ hr₃ hsnapshot hs₃ => ?_
  refine SafeE.bind_frame (SafeE.lift (safe_freshIds _ hinv₃ hsnapshot.2.1) hinv₃) hinv₃
    (keeps_lift (keeps_freshIds _ hissue)) hstable hs₃
    fun artifactIds s₄ hinv₄ hr₄ hartifacts hs₄ => ?_
  refine SafeE.bind_frame (SafeE.lift (safe_freshId hartifacts.2) hinv₄) hinv₄
    (keeps_lift (keeps_freshId hissue)) hstable hs₄ fun captureId s₅ hinv₅ hr₅ hcapture hs₅ => ?_
  have hr := hr₁.trans (hr₂.trans (hr₃.trans (hr₄.trans hr₅)))
  have hfresh : Fresh t (snapshotId :: captureId :: (blobIds ++ artifactIds)) s₅ := by
    refine hcapture.2.1.perm ?_
    rw [List.append_nil]
    refine (List.Perm.cons _ List.perm_middle).trans ((List.Perm.swap _ _ _).trans ?_)
    exact (List.perm_append_comm.cons _).cons _
  have hv₅ := hv.of_reach hr
  have hrecord : RecordOk c mode t ⟨⟨v.upload, v.manifest, now, v.transferBytes, captureId⟩,
      v.prepared, v.fingerprint, nowSeq, newlyPersisted, snapshotId, blobIds, artifactIds⟩ s₅ :=
    { toCompletingOk := hv₅.completing hnow _ _
      fingerprint := hv₅.fingerprint
      seq := okOr_eq_ok.mp hseq
      artifacts := hv₅.artifacts
      indexes := hv₅.indexes
      blobIds := hblobs.1
      artifactIds := hartifacts.1
      assembled := fun p hp => (hs₅.2.1 p hp).1
      locks := fun p hp => hs₅.1 _ (hdone p hp).2
      files := fun hmode p hp => (hs₅.2.2 _ (hdone p hp).1 hmode).2 }
  refine SafeE.bind_frame (safe_transaction (Q := fun _ _ => True) (RecordOk.stable _) hrecord
    hfresh (fun s' outcome db _ _ hs' h => ⟨.recordCompletedUpload _ hs' h, trivial⟩)
    fun _ _ => trivial) hinv₅ (keeps_transaction fun s _ _ _ hs => hs.of_locks rfl)
    (HoldsAll.stable locks) hs₅.1 fun outcome s₆ hinv₆ hr₆ _ hlocks => ?_
  cases outcome with
  | recorded => exact SafeE.pure trivial
  | lost =>
    refine SafeE.bind_frame (safe_query (Q := fun winner s =>
      SnapshotKnown winner.id v.upload.sessionId v.fingerprint s) (fun s' winner hinv' _ h =>
        known_of_liveSnapshot hinv' (okOr_eq_ok.mp h)) fun _ _ => trivial) hinv₆ keeps_query
      (HoldsAll.stable locks) hlocks fun winner s₇ hinv₇ hr₇ hwinner hlocks₇ => ?_
    refine SafeE.bind (safe_cleanupUncommittedPromotions hkeeper promotions hinv₇ fun l hl => ?_)
      hinv₇ fun _ s₈ hinv₈ hr₈ _ => ?_
    · obtain ⟨p, hp, rfl⟩ := List.mem_map.mp hl
      exact hlocks₇ _ (hpromotions p hp)
    · exact safe_finalizeUploadForExistingSnapshot hinv₈
        (hv₅.of_reach (hr₆.trans (hr₇.trans hr₈)))
        ((SnapshotKnown.persistent _ _ _).of_reach hr₈ hwinner)

/-! ## §5 — `complete_upload`. -/

/-- The snapshot a completion finds under its session and fingerprint is known from then on. -/
theorem safe_findSnapshotByFingerprint (sessionId fingerprint : String) :
    (discipline c cfg mode).SafeE t (findSnapshotByFingerprint sessionId fingerprint)
      (fun r s => ∀ id, r = some id → SnapshotKnown id sessionId fingerprint s)
      (fun _ _ => True) s := by
  refine safe_query (fun s' r hinv' _ h id hid => ?_) fun _ _ => trivial
  obtain rfl := pure_eq_ok.mp h
  obtain ⟨row, hrow, rfl⟩ := Option.map_eq_some_iff.mp hid
  exact known_of_liveSnapshot hinv' hrow

/-- A completion that fails after its artifacts are prepared. -/
theorem safe_cleanupAndFail {α : Type} {Q : α → Shared → Prop} {prepared : List PreparedArtifact}
    (hpaths : ∀ p ∈ prepared, p.assembledPath.upload?.isSome) (e : ApiError) (hinv : s.Inv c) :
    (discipline c cfg mode).SafeE t (do
      cleanupPrepared prepared
      throw e : Handler ApiError α) Q (fun _ _ => True) s :=
  SafeE.bind (SafeE.of_always (always_lift (always_cleanupPrepared hpaths)) hinv) hinv
    fun _ _ _ _ _ => SafeE.throw trivial

theorem safe_completeUnderBlobLocks {v : Verified} {unique : List PreparedArtifact}
    {locks : List Lock} (hkeeper : mode.keepers t) (hinv : s.Inv c) (hv : VerifiedOk c v s)
    (hunique : ∀ p ∈ unique, p ∈ v.prepared ∧ blobLock p.digest ∈ locks)
    (hall : ∀ p ∈ v.prepared, ∃ q ∈ unique, q.digest = p.digest)
    (hlocks : HoldsAll t locks s) (hprepared : AllPrepared c t v.upload v.prepared s) :
    (discipline c cfg mode).SafeE t (completeUnderBlobLocks c cfg v unique locks) (fun _ _ => True)
      (fun _ _ => True) s := by
  have hpaths : ∀ p ∈ v.prepared, p.assembledPath.upload?.isSome :=
    fun p hp => (hprepared p hp).upload
  have hs : Promoting c t mode v.upload locks v.prepared [] s := ⟨hlocks, hprepared, by simp⟩
  have hstable : (discipline c cfg mode).Stable t
      (Promoting c t mode v.upload locks v.prepared []) := Promoting.stable _ _ _ _
  refine SafeE.bind_frame (safe_attempt (SafeE.of_always (always_ensureRepresentations _) hinv)
    hinv) hinv (keeps_attempt (keeps_ensureRepresentations _)) hstable hs
    fun compatible s₁ hinv₁ hr₁ _ hs₁ => ?_
  cases compatible with
  | error e => exact safe_cleanupAndFail hpaths e hinv₁
  | ok _ =>
    refine SafeE.bind_frame (safe_findSnapshotByFingerprint _ _) hinv₁ keeps_query hstable hs₁
      fun found s₂ hinv₂ hr₂ hfound hs₂ => ?_
    cases found with
    | some snapshotId =>
      refine SafeE.bind (SafeE.of_always (always_lift (always_cleanupPrepared hpaths)) hinv₂) hinv₂
        fun _ s₃ hinv₃ hr₃ _ => ?_
      refine SafeE.bind (safe_finalizeUploadForExistingSnapshot hinv₃
        (hv.of_reach (hr₁.trans (hr₂.trans hr₃)))
        ((SnapshotKnown.persistent _ _ _).of_reach hr₃ (hfound snapshotId rfl))) hinv₃
        fun _ s₄ hinv₄ _ _ => ?_
      refine SafeE.of_always ?_ hinv₄
      exact AlwaysE.bind (always_lift (always_release _)) fun _ => always_completedResponse _
    | none =>
      refine SafeE.bind (safe_attempt (safe_promoteUniqueBlobs hkeeper unique [] hinv₂ hunique
        (by simp) hs₂) hinv₂) hinv₂ fun promoted s₃ hinv₃ hr₃ hpromoted => ?_
      cases promoted with
      | error e => exact safe_cleanupAndFail hpaths e hinv₃
      | ok promotions =>
        obtain ⟨hpromotions, hs₃⟩ := hpromoted
        refine safe_check_bind (fun newlyPersisted _ => ?_) fun _ _ => trivial
        refine SafeE.bind_frame (safe_attempt (safe_recordCompletion hkeeper newlyPersisted
          hinv₃ (hv.of_reach (hr₁.trans (hr₂.trans hr₃))) (fun p hp => ?_) hpromotions hs₃) hinv₃)
            hinv₃
          (keeps_attempt (keeps_recordCompletion _ _ _ _ _ _ _ fun s s' hlocks hs =>
            hs.of_locks hlocks)) (HoldsAll.stable locks) hs₃.1
          fun recorded s₄ hinv₄ _ _ hlocks₄ => ?_
        · obtain ⟨q, hq, hqp⟩ := hall p hp
          rw [← hqp]
          exact ⟨by simpa using ⟨q, hq, rfl⟩, (hunique q hq).2⟩
        · cases recorded with
          | error e =>
            refine SafeE.bind (safe_attempt (safe_cleanupUncommittedPromotions hkeeper
              promotions hinv₄ fun l hl => ?_) hinv₄) hinv₄ fun _ s₅ hinv₅ _ _ =>
                safe_cleanupAndFail hpaths e hinv₅
            obtain ⟨p, hp, rfl⟩ := List.mem_map.mp hl
            exact hlocks₄ _ (hpromotions p hp)
          | ok _ =>
            refine SafeE.of_always ?_ hinv₄
            exact AlwaysE.bind (always_lift (always_release _)) fun _ => always_completedResponse _

/-- A completion that found no snapshot takes the locks of its digests. -/
theorem safe_completeMiss {v : Verified} (hkeeper : mode.keepers t) (hinv : s.Inv c)
    (hv : VerifiedOk c v s) (hprepared : AllPrepared c t v.upload v.prepared s) :
    (discipline c cfg mode).SafeE t (do
      let unique := uniqueStoredArtifacts v.prepared
      let locks := blobLocksForDigests (unique.map PreparedArtifact.digest)
      acquireAll locks
      completeUnderBlobLocks c cfg v unique locks) (fun _ _ => True) (fun _ _ => True) s := by
  obtain ⟨hmem, hall⟩ := uniqueStoredArtifacts_spec v.prepared
  refine SafeE.bind_frame (SafeE.lift (safe_acquireAll _ hinv) hinv) hinv
    (keeps_lift (keeps_acquireAll _ fun s l hs => hs)) (AllPrepared.stable v.upload v.prepared)
    hprepared fun _ s₁ hinv₁ hr₁ hlocks hprepared₁ => ?_
  refine safe_completeUnderBlobLocks hkeeper hinv₁ (hv.of_reach hr₁) (fun p hp => ⟨hmem p hp, ?_⟩)
    hall
    hlocks hprepared₁
  exact blobLock_mem_blobLocksForDigests (List.mem_map_of_mem hp)

/-- A completion that found a snapshot joins it. -/
theorem safe_completeHit {v : Verified} {snapshotId : String} (hinv : s.Inv c)
    (hv : VerifiedOk c v s) (hpaths : ∀ p ∈ v.prepared, p.assembledPath.upload?.isSome)
    (hsnapshot : SnapshotKnown snapshotId v.upload.sessionId v.fingerprint s) :
    (discipline c cfg mode).SafeE t (do
      cleanupPrepared v.prepared
      finalizeUploadForExistingSnapshot c v.upload v.manifest snapshotId v.transferBytes
      completedResponse c cfg v.upload.id) (fun _ _ => True) (fun _ _ => True) s := by
  refine SafeE.bind (SafeE.of_always (always_lift (always_cleanupPrepared hpaths)) hinv) hinv
    fun _ s₁ hinv₁ hr₁ _ => ?_
  refine SafeE.bind (safe_finalizeUploadForExistingSnapshot hinv₁ (hv.of_reach hr₁)
    ((SnapshotKnown.persistent _ _ _).of_reach hr₁ hsnapshot)) hinv₁ fun _ s₂ hinv₂ _ _ => ?_
  exact SafeE.of_always (always_completedResponse _) hinv₂

theorem safe_completeVerified {v : Verified} (hkeeper : mode.keepers t) (hinv : s.Inv c)
    (hv : VerifiedOk c v s) (hprepared : AllPrepared c t v.upload v.prepared s) :
    (discipline c cfg mode).SafeE t (completeVerified c cfg v) (fun _ _ => True)
      (fun _ _ => True) s := by
  have hpaths : ∀ p ∈ v.prepared, p.assembledPath.upload?.isSome :=
    fun p hp => (hprepared p hp).upload
  have hstable : (discipline c cfg mode).Stable t (AllPrepared c t v.upload v.prepared) :=
    AllPrepared.stable _ _
  refine SafeE.bind_frame (safe_attempt (SafeE.of_always (always_ensureRepresentations _) hinv)
    hinv) hinv (keeps_attempt (keeps_ensureRepresentations _)) hstable hprepared
    fun compatible s₁ hinv₁ hr₁ _ hprepared₁ => ?_
  cases compatible with
  | error e => exact safe_cleanupAndFail hpaths e hinv₁
  | ok _ =>
    refine SafeE.bind_frame (safe_findSnapshotByFingerprint _ _) hinv₁ keeps_query hstable
      hprepared₁ fun found s₂ hinv₂ hr₂ _ hprepared₂ => ?_
    cases found with
    | none => exact safe_completeMiss hkeeper hinv₂ (hv.of_reach (hr₁.trans hr₂)) hprepared₂
    | some _ =>
      refine SafeE.bind_frame (SafeE.of_always (always_lift (always_acquire _)) hinv₂) hinv₂
        (keeps_lift (Keeps.await fun s hs => hs)) hstable hprepared₂
        fun _ s₃ hinv₃ hr₃ _ hprepared₃ => ?_
      refine SafeE.bind_frame (safe_findSnapshotByFingerprint _ _) hinv₃ keeps_query hstable
        hprepared₃ fun again s₄ hinv₄ hr₄ hagain hprepared₄ => ?_
      have hv₄ := hv.of_reach (hr₁.trans (hr₂.trans (hr₃.trans hr₄)))
      cases again with
      | some snapshotId => exact safe_completeHit hinv₄ hv₄ hpaths (hagain snapshotId rfl)
      | none =>
        refine SafeE.bind_frame (SafeE.of_always (always_lift (always_release _)) hinv₄) hinv₄
          (keeps_lift (Keeps.atomic fun _ s hs => hs)) hstable hprepared₄
          fun _ s₅ hinv₅ hr₅ _ hprepared₅ => ?_
        exact safe_completeMiss hkeeper hinv₅ (hv₄.of_reach hr₅) hprepared₅

theorem safe_completeUpload (hkeeper : mode.keepers t) (uploadId : String) (hinv : s.Inv c) :
    (discipline c cfg mode).SafeE t (completeUpload c cfg uploadId) (fun _ _ => True)
      (fun _ _ => True) s := by
  refine safe_check_bind (fun uploadId _ => ?_) fun _ _ => trivial
  refine SafeE.bind (SafeE.of_always (always_lift (always_acquire _)) hinv) hinv
    fun _ s₁ hinv₁ _ _ => ?_
  refine SafeE.bind (safe_requireActiveUpload uploadId hinv₁) hinv₁
    fun upload s₂ hinv₂ _ hknown => ?_
  split
  · exact SafeE.of_always (always_completionForUpload uploadId) hinv₂
  · refine SafeE.bind (safe_verifyUpload hinv₂ hknown.1) hinv₂ fun v s₃ hinv₃ _ hv => ?_
    exact safe_completeVerified hkeeper hinv₃ hv.2.1 hv.2.2

end Patwari
