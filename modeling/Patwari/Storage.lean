/-
# Patwari.Storage — the data directory.

Canonical blob files, the chunk directories of uploads in flight and the private files a request
stages bytes in, as a finite map from typed paths to nodes. A path is built by the source's own
functions only, so it is a constructor here instead of a string; names that come from outside the
service (in the blob directory of a damaged archive) stay strings. A hard link shares the bytes of
its source: no operation writes to a file once it has a second name.

Every operation is one step that either has its whole effect or fails without one. What a power loss
would leave of it is kept beside the paths: an entry is durable once its directory was synced, the
bytes of a file once the file was.
-/
import Patwari.Validation

namespace Patwari

/-! ## §1 — Paths and nodes. -/

inductive FilePath where
  /-- `uploads/<id>` -/
  | uploadDir (uploadId : String)
  /-- `uploads/<id>/artifacts/<i>/chunks` -/
  | artifactChunkDir (uploadId : String) (artifactIndex : ℕ)
  /-- `…/chunks/<k>` -/
  | artifactChunk (uploadId : String) (artifactIndex chunkIndex : ℕ)
  /-- `…/chunks/.chunk-<uuid>.partial` -/
  | stagedChunk (uploadId : String) (artifactIndex : ℕ) (uuid : String)
  /-- `uploads/<id>/.assembled-<i>-<uuid>.partial` -/
  | assembledArtifact (uploadId : String) (artifactIndex : ℕ) (uuid : String)
  /-- `uploads/<id>/artifact`, the whole upload of an early version -/
  | legacyArtifact (uploadId : String)
  /-- `blobs/<name>` -/
  | blobRootEntry (name : String)
  /-- `blobs/sha256/<name>` -/
  | shard (name : String)
  /-- `blobs/sha256/<shard>/<name>` -/
  | blobEntry (shard name : String)
  deriving DecidableEq

namespace FilePath

/-- The upload whose directory a path is in. -/
def upload? : FilePath → Option String
  | uploadDir u | artifactChunkDir u _ | artifactChunk u _ _ | stagedChunk u _ _
  | assembledArtifact u _ _ | legacyArtifact u => some u
  | blobRootEntry _ | shard _ | blobEntry _ _ => none

/-- The generated name of a file that belongs to one request. -/
def private? : FilePath → Option String
  | stagedChunk _ _ uuid | assembledArtifact _ _ uuid => some uuid
  | _ => none

/-- The directory that must exist before the path can. -/
def parent : FilePath → Option FilePath
  | artifactChunkDir u _ | assembledArtifact u _ _ | legacyArtifact u => some (uploadDir u)
  | artifactChunk u i _ | stagedChunk u i _ => some (artifactChunkDir u i)
  | shard _ => some (blobRootEntry "sha256")
  | blobEntry s _ => some (shard s)
  | uploadDir _ | blobRootEntry _ => none

end FilePath

/-- `blob_path`: the canonical file of a stored digest. -/
def blobPath (storedSha256 : String) : FilePath :=
  .blobEntry (String.ofList ((Lib.chars storedSha256).take 2)) storedSha256

theorem blobPath_injective : Function.Injective blobPath := by
  intro a b h
  exact (FilePath.blobEntry.inj h).2

@[simp] theorem upload?_blobPath (d : String) : (blobPath d).upload? = none := rfl

@[simp] theorem private?_blobPath (d : String) : (blobPath d).private? = none := rfl

/-- What a path leads to. -/
inductive Node where
  | file (bytes : Bytes)
  /-- A regular file that cannot be read. -/
  | unreadable
  | dir
  /-- A symbolic link, a socket or a device. -/
  | other
  deriving DecidableEq

def Node.isFile : Node → Bool
  | .file _ | .unreadable => true
  | .dir | .other => false

/-- The kinds of I/O error the source tells apart. -/
inductive IoError where
  | notFound
  | alreadyExists
  | other
  deriving DecidableEq

/-! ## §2 — The file store. -/

/-- The data directory. The first entry of a path counts. -/
structure FileStore where
  entries : List (FilePath × Node)
  /-- The paths whose entry in their directory survives a power loss. -/
  durable : List FilePath
  /-- The files whose bytes do. -/
  synced : List FilePath
  deriving DecidableEq

namespace FileStore

variable (fs : FileStore)

/-- The data directory of a new archive. -/
def empty : FileStore := ⟨[], [], []⟩

/-- `symlink_metadata`. -/
def lookup (path : FilePath) : Option Node := fs.entries.lookup path

def isDir (path : FilePath) : Bool := decide (fs.lookup path = some .dir)

/-- The parent directory exists; the three roots always do. -/
def parentExists (path : FilePath) : Bool := path.parent.all fs.isDir

/-- Drops every path a condition selects. -/
def removeWhere (p : FilePath → Bool) : FileStore :=
  ⟨fs.entries.filter fun e => !p e.1, fs.durable.filter fun q => !p q,
    fs.synced.filter fun q => !p q⟩

/-- Gives a path a node, replacing what it had. Nothing of the new node is durable yet. -/
def set (path : FilePath) (node : Node) : FileStore :=
  let rest := fs.removeWhere fun q => decide (q = path)
  ⟨(path, node) :: rest.entries, rest.durable, rest.synced⟩

/-- `create_dir_all`, given the chain of directories from the top. -/
def createDirAll : List FilePath → FileStore → Except IoError FileStore
  | [], fs => .ok fs
  | path :: rest, fs =>
    match fs.lookup path with
    | none => createDirAll rest (fs.set path .dir)
    | some .dir => createDirAll rest fs
    | some _ => .error .alreadyExists

/-- `OpenOptions::new().write(true).create_new(true).open(..)`. -/
def createNew (path : FilePath) : Except IoError FileStore :=
  match fs.lookup path with
  | some _ => .error .alreadyExists
  | none => if fs.parentExists path then .ok (fs.set path (.file [])) else .error .notFound

/-- Writes at the end of an open file. A file unlinked while it was open keeps no name to write
to. -/
def append (path : FilePath) (bytes : Bytes) : FileStore :=
  match fs.lookup path with
  | some (.file old) => { fs.set path (.file (old ++ bytes)) with durable := fs.durable }
  | _ => fs

/-- A second name for a node. Its bytes are as durable as they were under the first. -/
def link (source destination : FilePath) (node : Node) : FileStore :=
  let linked := fs.set destination node
  { linked with synced := (if source ∈ fs.synced then [destination] else []) ++ linked.synced }

/-- `hard_link`. -/
def hardLink (source destination : FilePath) : Except IoError FileStore :=
  match fs.lookup source with
  | none => .error .notFound
  | some .dir => .error .other
  | some node =>
    match fs.lookup destination with
    | some _ => .error .alreadyExists
    | none =>
      if fs.parentExists destination then .ok (fs.link source destination node)
      else .error .notFound

/-- `StorageLayout::remove_file`: a missing file is no error. -/
def removeFile (path : FilePath) : Except IoError FileStore :=
  if fs.isDir path then .error .other else .ok (fs.removeWhere fun q => decide (q = path))

/-- `StorageLayout::remove_upload_dir`: the whole tree, or nothing when it is not there. -/
def removeUploadDir (uploadId : String) : FileStore :=
  fs.removeWhere fun q => decide (q.upload? = some uploadId)

/-- `sync_all` of an open file. -/
def syncFile (path : FilePath) : FileStore := { fs with synced := path :: fs.synced }

/-- `sync_parent_directory`, given the directory: every entry it has now becomes durable. -/
def syncDirectory (path : FilePath) : Except IoError FileStore :=
  match fs.lookup path with
  | some .dir =>
    .ok { fs with
      durable := ((fs.entries.map Prod.fst).filter fun q => decide (q.parent = some path)) ++
        fs.durable }
  | none => .error .notFound
  | some _ => .error .other

/-- `fs::read_dir`: the paths directly under a directory. -/
def readDir (path : FilePath) : Except IoError (List FilePath) :=
  match fs.lookup path with
  | some .dir => .ok ((fs.entries.map Prod.fst).dedup.filter fun q => decide (q.parent = some path))
  | none => .error .notFound
  | some _ => .error .other

/-- Opens and reads a whole file. -/
def read (path : FilePath) : Except IoError Bytes :=
  match fs.lookup path with
  | some (.file bytes) => .ok bytes
  | none => .error .notFound
  | some _ => .error .other

/-! ## §3 — What an operation changes. -/

variable {fs}

theorem lookup_filter {p : FilePath → Bool} {path : FilePath} {entries : List (FilePath × Node)} :
    (entries.filter fun e => !p e.1).lookup path =
      if p path then none else entries.lookup path := by
  induction entries with
  | nil => split <;> rfl
  | cons e rest ih =>
    obtain ⟨q, node⟩ := e
    by_cases hq : path = q
    · subst hq
      by_cases hp : p path <;> simp [hp] at ih ⊢
      exact ih
    · have hbeq : (path == q) = false := by simpa using hq
      by_cases hp : p q
      · simp only [List.filter_cons, hp, Bool.not_true, Bool.false_eq_true, if_false, ih,
          List.lookup_cons, hbeq]
      · simp only [List.filter_cons, hp, Bool.not_false, if_true, List.lookup_cons, hbeq, ih]

@[simp] theorem lookup_removeWhere (p : FilePath → Bool) (path : FilePath) :
    (fs.removeWhere p).lookup path = if p path then none else fs.lookup path :=
  lookup_filter

@[simp] theorem lookup_set (path q : FilePath) (node : Node) :
    (fs.set path node).lookup q = if q = path then some node else fs.lookup q := by
  by_cases h : q = path
  · subst h
    simp [set, lookup]
  · have hbeq : (q == path) = false := by simpa using h
    have hrest : (fs.set path node).lookup q =
        (fs.removeWhere fun q => decide (q = path)).lookup q := by
      simp [set, lookup, List.lookup_cons, hbeq]
    simp [hrest, h]

theorem lookup_append (path q : FilePath) (bytes : Bytes) :
    (fs.append path bytes).lookup q =
      if q = path then
        match fs.lookup path with
        | some (.file old) => some (.file (old ++ bytes))
        | other => other
      else fs.lookup q := by
  unfold append
  split
  · next old hfile =>
    show (fs.set path (.file (old ++ bytes))).lookup q = _
    rw [lookup_set]
  · by_cases h : q = path
    · subst h
      simp_all
    · rw [if_neg h]

@[simp] theorem lookup_link (source destination q : FilePath) (node : Node) :
    (fs.link source destination node).lookup q =
      if q = destination then some node else fs.lookup q := lookup_set destination q node

@[simp] theorem lookup_syncFile (path q : FilePath) : (fs.syncFile path).lookup q = fs.lookup q :=
    rfl

/-- Syncing a directory changes what is durable only. -/
theorem lookup_syncDirectory {path : FilePath} {fs' : FileStore}
    (h : fs.syncDirectory path = .ok fs') (q : FilePath) : fs'.lookup q = fs.lookup q := by
  unfold syncDirectory at h
  split at h
  · rw [← Except.ok.inj h]
    rfl
  · simp at h
  · simp at h

/-- An operation that changes nothing but what is durable, of which there is no less after it. -/
structure Syncs (f : FileStore → Except IoError FileStore) : Prop where
  lookup : ∀ {fs fs'}, f fs = .ok fs' → ∀ q, fs'.lookup q = fs.lookup q
  durable : ∀ {fs fs'}, f fs = .ok fs' → fs.durable ⊆ fs'.durable
  synced : ∀ {fs fs'}, f fs = .ok fs' → fs.synced ⊆ fs'.synced

theorem syncs_syncFile (path : FilePath) : Syncs fun fs => .ok (fs.syncFile path) where
  lookup h q := by
    rw [← Except.ok.inj h]
    rfl
  durable h := by
    rw [← Except.ok.inj h]
    exact fun _ hq => hq
  synced h := by
    rw [← Except.ok.inj h]
    exact fun _ hq => List.mem_cons_of_mem _ hq

/-- A directory that is there can be synced, and then its entries are durable. -/
theorem syncDirectory_ok {path : FilePath} {fs' : FileStore}
    (h : fs.syncDirectory path = .ok fs') :
    fs.durable ⊆ fs'.durable ∧ fs'.synced = fs.synced ∧
      ∀ q, q.parent = some path → fs.lookup q ≠ none → q ∈ fs'.durable := by
  unfold syncDirectory at h
  split at h
  · rw [← Except.ok.inj h]
    refine ⟨List.subset_append_right _ _, rfl, fun q hq hthere => List.mem_append_left _ ?_⟩
    refine List.mem_filter.mpr ⟨?_, decide_eq_true hq⟩
    obtain ⟨node, hnode⟩ := Option.ne_none_iff_exists'.mp hthere
    exact List.mem_map.mpr ⟨(q, node), Crates.mem_of_lookup hnode, rfl⟩
  · simp at h
  · simp at h

theorem syncs_syncDirectory (path : FilePath) : Syncs fun fs => fs.syncDirectory path where
  lookup := lookup_syncDirectory
  durable h := (syncDirectory_ok h).1
  synced h := (syncDirectory_ok h).2.1 ▸ List.Subset.refl _

/-- Creating directories adds directories and changes nothing else. -/
theorem lookup_createDirAll {paths : List FilePath} {fs fs' : FileStore}
    (h : createDirAll paths fs = .ok fs') (q : FilePath) :
    fs'.lookup q = fs.lookup q ∨
      q ∈ paths ∧ fs.lookup q = none ∧ fs'.lookup q = some .dir := by
  induction paths generalizing fs with
  | nil =>
    obtain rfl := Except.ok.inj h
    exact Or.inl rfl
  | cons path rest ih =>
    unfold createDirAll at h
    split at h
    · next hnone =>
      rcases ih h with heq | ⟨hmem, hold, hdir⟩
      · rw [lookup_set] at heq
        split_ifs at heq with hq
        · subst hq
          exact Or.inr ⟨List.mem_cons_self, hnone, heq⟩
        · exact Or.inl heq
      · rw [lookup_set] at hold
        split_ifs at hold with hq
        exact Or.inr ⟨List.mem_cons_of_mem _ hmem, hold, hdir⟩
    · rcases ih h with heq | ⟨hmem, hold, hdir⟩
      · exact Or.inl heq
      · exact Or.inr ⟨List.mem_cons_of_mem _ hmem, hold, hdir⟩
    · simp at h

/-- A new file starts empty where nothing was. -/
theorem createNew_ok {path : FilePath} {fs' : FileStore} (h : fs.createNew path = .ok fs') :
    fs.lookup path = none ∧ fs' = fs.set path (.file []) := by
  unfold createNew at h
  split at h
  · simp at h
  · next hnone =>
    split_ifs at h
    exact ⟨hnone, (Except.ok.inj h).symm⟩

/-- A link gives its destination, where nothing was, the node of its source. -/
theorem hardLink_ok {source destination : FilePath} {fs' : FileStore}
    (h : fs.hardLink source destination = .ok fs') :
    ∃ node, fs.lookup source = some node ∧ node ≠ .dir ∧ fs.lookup destination = none ∧
      fs' = fs.link source destination node := by
  unfold hardLink at h
  split at h
  · simp at h
  · simp at h
  · next node hnode hsource =>
    split at h
    · simp at h
    · next hnone =>
      split_ifs at h
      exact ⟨node, hsource, hnode, hnone, (Except.ok.inj h).symm⟩

theorem removeFile_ok {path : FilePath} {fs' : FileStore} (h : fs.removeFile path = .ok fs') :
    fs' = fs.removeWhere fun q => decide (q = path) := by
  unfold removeFile at h
  split_ifs at h
  exact (Except.ok.inj h).symm

theorem read_ok {path : FilePath} {bytes : Bytes} (h : fs.read path = .ok bytes) :
    fs.lookup path = some (.file bytes) := by
  unfold read at h
  split at h
  · next hfile => rw [hfile, Except.ok.inj h]
  · simp at h
  · simp at h

/-! ### Directories. -/

/-- Every path is in an existing directory. -/
def ParentClosed (fs : FileStore) : Prop :=
  ∀ p q, fs.lookup p ≠ none → p.parent = some q → fs.lookup q = some .dir

theorem ParentClosed.empty : FileStore.empty.ParentClosed := fun _ _ h => absurd rfl h

theorem isDir_iff {path : FilePath} : fs.isDir path = true ↔ fs.lookup path = some .dir := by
  simp [isDir]

theorem parentExists_iff {path : FilePath} :
    fs.parentExists path = true ↔ ∀ q, path.parent = some q → fs.lookup q = some .dir := by
  unfold parentExists
  cases path.parent with
  | none => simp
  | some q => simp [isDir_iff]

/-- A new path in an existing directory, or another node for a path that is no directory. -/
theorem ParentClosed.set (h : fs.ParentClosed) {path : FilePath} {node : Node}
    (hparent : fs.parentExists path = true) (hdir : fs.lookup path ≠ some .dir) :
    (fs.set path node).ParentClosed := by
  intro p q hp hq
  have hqdir : fs.lookup q = some .dir := by
    by_cases heq : p = path
    · exact parentExists_iff.mp hparent q (heq ▸ hq)
    · rw [lookup_set, if_neg heq] at hp
      exact h p q hp hq
  rw [lookup_set, if_neg]
  · exact hqdir
  · rintro rfl
    exact hdir hqdir

/-- Paths go without leaving anything behind in a directory that goes. -/
theorem ParentClosed.removeWhere (h : fs.ParentClosed) {gone : FilePath → Bool}
    (hgone : ∀ p q, p.parent = some q → gone q = true → fs.lookup p ≠ none → gone p = true) :
    (fs.removeWhere gone).ParentClosed := by
  intro p q hp hq
  rw [lookup_removeWhere] at hp ⊢
  split_ifs at hp with hpgone
  · exact absurd rfl hp
  · rw [if_neg fun hqgone => hpgone (hgone p q hq hqgone hp)]
    exact h p q hp hq

theorem ParentClosed.sync (h : fs.ParentClosed) {f : FileStore → Except IoError FileStore}
    (hf : Syncs f) {fs' : FileStore} (hok : f fs = .ok fs') : fs'.ParentClosed := by
  intro p q hp hq
  rw [hf.lookup hok] at hp ⊢
  exact h p q hp hq

theorem ParentClosed.createDirAll {paths : List FilePath} {fs fs' : FileStore}
    (h : fs.ParentClosed) (hchain : paths.IsChain fun a b => b.parent = some a)
    (hhead : ∀ p ∈ paths.head?, fs.parentExists p = true)
    (hok : FileStore.createDirAll paths fs = .ok fs') : fs'.ParentClosed := by
  induction paths generalizing fs with
  | nil =>
    obtain rfl := Except.ok.inj hok
    exact h
  | cons path rest ih =>
    have hrest := hchain.tail
    have hnext : ∀ p ∈ rest.head?, p.parent = some path := by
      intro p hp
      cases rest with
      | nil => simp at hp
      | cons q rest =>
        obtain rfl : q = p := by simpa using hp
        exact (List.isChain_cons_cons.mp hchain).1
    unfold FileStore.createDirAll at hok
    split at hok
    · next hnone =>
      refine ih (h.set (hhead path rfl) (by simp [hnone])) hrest (fun p hp => ?_) hok
      rw [parentExists_iff, hnext p hp]
      rintro q heq
      obtain rfl := Option.some.inj heq
      simp
    · next hdir =>
      refine ih h hrest (fun p hp => ?_) hok
      rw [parentExists_iff, hnext p hp]
      rintro q heq
      obtain rfl := Option.some.inj heq
      exact hdir
    · simp at hok

theorem ParentClosed.createNew (h : fs.ParentClosed) {path : FilePath} {fs' : FileStore}
    (hok : fs.createNew path = .ok fs') : fs'.ParentClosed := by
  obtain ⟨hnone, rfl⟩ := createNew_ok hok
  unfold FileStore.createNew at hok
  simp only [hnone] at hok
  split_ifs at hok with hparent
  exact h.set hparent (by simp [hnone])

theorem ParentClosed.append (h : fs.ParentClosed) (path : FilePath) (bytes : Bytes) :
    (fs.append path bytes).ParentClosed := by
  unfold FileStore.append
  split
  · next old hfile =>
    refine h.set (parentExists_iff.mpr fun q hq => h path q (by simp [hfile]) hq) (by simp [hfile])
  · exact h

theorem ParentClosed.hardLink (h : fs.ParentClosed) {source destination : FilePath}
    {fs' : FileStore} (hok : fs.hardLink source destination = .ok fs') : fs'.ParentClosed := by
  obtain ⟨node, hsource, hnode, hnone, rfl⟩ := hardLink_ok hok
  refine h.set ?_ (by simp [hnone])
  unfold FileStore.hardLink at hok
  rw [hsource, hnone] at hok
  by_contra hparent
  cases node <;> simp_all

theorem ParentClosed.removeFile (h : fs.ParentClosed) {path : FilePath} {fs' : FileStore}
    (hok : fs.removeFile path = .ok fs') : fs'.ParentClosed := by
  rw [removeFile_ok hok]
  refine h.removeWhere fun p q hq hgone hp => ?_
  -- a path under the removed one would make it a directory
  obtain rfl := of_decide_eq_true hgone
  unfold FileStore.removeFile at hok
  rw [isDir_iff.mpr (h p q hp hq), if_pos rfl] at hok
  simp at hok

theorem FilePath.upload?_parent {p q : FilePath} (h : p.parent = some q) :
    q.upload? = p.upload? := by
  cases p <;> simp only [FilePath.parent, Option.some.injEq, reduceCtorEq] at h <;> subst h <;> rfl

theorem ParentClosed.removeUploadDir (h : fs.ParentClosed) (uploadId : String) :
    (fs.removeUploadDir uploadId).ParentClosed := by
  refine h.removeWhere fun p q hq hgone _ => ?_
  rw [decide_eq_true_eq] at hgone ⊢
  rw [← FilePath.upload?_parent hq, hgone]

/-! ### What operations of the service have in common. -/

/-- No operation of the service leaves a path without its directory, and outside the directories of
uploads a path that keeps its node stays as durable as it was. -/
structure Orderly (fs fs' : FileStore) : Prop where
  closed : fs.ParentClosed → fs'.ParentClosed
  durable : ∀ p, p.upload? = none → fs.lookup p ≠ none → fs'.lookup p = fs.lookup p →
    p ∈ fs.durable → p ∈ fs'.durable
  synced : ∀ p, p.upload? = none → fs.lookup p ≠ none → fs'.lookup p = fs.lookup p →
    p ∈ fs.synced → p ∈ fs'.synced

/-- What is not removed keeps what it has. -/
theorem Orderly.removeWhere {gone : FilePath → Bool}
    (hclosed : fs.ParentClosed → (fs.removeWhere gone).ParentClosed) :
    fs.Orderly (fs.removeWhere gone) := by
  have hkept : ∀ p, fs.lookup p ≠ none → (fs.removeWhere gone).lookup p = fs.lookup p →
      gone p = false := by
    intro p hthere hsame
    rw [lookup_removeWhere] at hsame
    by_contra hgone
    rw [if_pos (by simpa using hgone)] at hsame
    exact hthere hsame.symm
  refine ⟨hclosed, fun p _ hthere hsame hp => ?_, fun p _ hthere hsame hp => ?_⟩
  · exact List.mem_filter.mpr ⟨hp, by simp [hkept p hthere hsame]⟩
  · exact List.mem_filter.mpr ⟨hp, by simp [hkept p hthere hsame]⟩

theorem Orderly.removeFile {path : FilePath} {fs' : FileStore} (h : fs.removeFile path = .ok fs') :
    fs.Orderly fs' := by
  have hclosed : fs.ParentClosed → fs'.ParentClosed := fun hclosed => hclosed.removeFile h
  rw [removeFile_ok h] at hclosed ⊢
  exact .removeWhere hclosed

theorem Orderly.removeUploadDir (uploadId : String) : fs.Orderly (fs.removeUploadDir uploadId) :=
  .removeWhere fun hclosed => hclosed.removeUploadDir uploadId

theorem mem_set_durable {path p : FilePath} (node : Node) (hne : p ≠ path) (hp : p ∈ fs.durable) :
    p ∈ (fs.set path node).durable :=
  List.mem_filter.mpr ⟨hp, by simp [hne]⟩

theorem mem_set_synced {path p : FilePath} (node : Node) (hne : p ≠ path) (hp : p ∈ fs.synced) :
    p ∈ (fs.set path node).synced :=
  List.mem_filter.mpr ⟨hp, by simp [hne]⟩

/-- Making directories takes nothing from what is there. -/
theorem createDirAll_kept {paths : List FilePath} {fs fs' : FileStore}
    (h : FileStore.createDirAll paths fs = .ok fs') {p : FilePath} (hthere : fs.lookup p ≠ none) :
    (p ∈ fs.durable → p ∈ fs'.durable) ∧ (p ∈ fs.synced → p ∈ fs'.synced) := by
  induction paths generalizing fs with
  | nil =>
    obtain rfl := Except.ok.inj h
    exact ⟨id, id⟩
  | cons path rest ih =>
    unfold FileStore.createDirAll at h
    split at h
    · next hnone =>
      have hne : p ≠ path := fun heq => hthere (heq ▸ hnone)
      have hthere' : (fs.set path .dir).lookup p ≠ none := by
        rw [lookup_set, if_neg hne]
        exact hthere
      obtain ⟨hdurable, hsynced⟩ := ih h hthere'
      exact ⟨fun hp => hdurable (mem_set_durable _ hne hp),
        fun hp => hsynced (mem_set_synced _ hne hp)⟩
    · exact ih h hthere
    · simp at h

theorem Orderly.createDirAll {paths : List FilePath} {fs' : FileStore}
    (hchain : paths.IsChain fun a b => b.parent = some a)
    (hhead : ∀ p ∈ paths.head?, p.parent = none)
    (h : FileStore.createDirAll paths fs = .ok fs') : fs.Orderly fs' where
  closed hclosed := hclosed.createDirAll hchain
    (fun p hp => parentExists_iff.mpr fun q hq => by simp [hhead p hp] at hq) h
  durable _ _ hthere _ := (createDirAll_kept h hthere).1
  synced _ _ hthere _ := (createDirAll_kept h hthere).2

theorem Orderly.createNew {path : FilePath} {fs' : FileStore} (h : fs.createNew path = .ok fs') :
    fs.Orderly fs' := by
  have hclosed : fs.ParentClosed → fs'.ParentClosed := fun hclosed => hclosed.createNew h
  obtain ⟨hnone, rfl⟩ := createNew_ok h
  have hne : ∀ p, fs.lookup p ≠ none → p ≠ path := fun p hthere heq => hthere (heq ▸ hnone)
  exact ⟨hclosed, fun p _ hthere _ => mem_set_durable _ (hne p hthere),
    fun p _ hthere _ => mem_set_synced _ (hne p hthere)⟩

/-- Writing to a file of an upload. -/
theorem Orderly.append {path : FilePath} (hpath : path.upload?.isSome) (bytes : Bytes) :
    fs.Orderly (fs.append path bytes) := by
  refine ⟨fun hclosed => hclosed.append path bytes, fun p _ _ _ hp => ?_, fun p hup _ _ hp => ?_⟩
  · unfold FileStore.append
    split
    · exact hp
    · exact hp
  · have hne : p ≠ path := by
      rintro rfl
      rw [hup] at hpath
      simp at hpath
    unfold FileStore.append
    split
    · next old _ => exact mem_set_synced (.file (old ++ bytes)) hne hp
    · exact hp

theorem Orderly.hardLink {source destination : FilePath} {fs' : FileStore}
    (h : fs.hardLink source destination = .ok fs') : fs.Orderly fs' := by
  have hclosed : fs.ParentClosed → fs'.ParentClosed := fun hclosed => hclosed.hardLink h
  obtain ⟨node, -, -, hnone, rfl⟩ := hardLink_ok h
  have hne : ∀ p, fs.lookup p ≠ none → p ≠ destination := fun p hthere heq => hthere (heq ▸ hnone)
  refine ⟨hclosed, fun p _ hthere _ hp => ?_, fun p _ hthere _ hp => ?_⟩
  · exact mem_set_durable node (hne p hthere) hp
  · exact List.mem_append_right _ (mem_set_synced node (hne p hthere) hp)

theorem Orderly.sync {f : FileStore → Except IoError FileStore} (hf : Syncs f) {fs' : FileStore}
    (h : f fs = .ok fs') : fs.Orderly fs' where
  closed hclosed := hclosed.sync hf h
  durable _ _ _ _ hp := hf.durable h hp
  synced _ _ _ _ hp := hf.synced h hp

end FileStore

/-! ## §4 — Checking a file's bytes. -/

/-- `hash_reader` on a reader that yields `bytes`: their length and digest, unless they exceed the
bound. -/
def hashReader (c : Crates) (bytes : Bytes) (maximumSize : ℕ) : Except ApiError (ℕ × String) :=
  if maximumSize < bytes.length then throw (.invalid "artifact size exceeds its declared bound")
  else pure (bytes.length, c.sha256Hex bytes)

/-- `verify_stored_file`. -/
def verifyStoredFile (c : Crates) (path : FilePath) (expectedSize : ℕ) (expectedDigest : String)
    (fs : FileStore) : Except ApiError Unit :=
  match fs.read path with
  | .error _ => throw .storage
  | .ok bytes => do
    let (size, digest) ← hashReader c bytes expectedSize
    if size = expectedSize ∧ digest = digestStorageValue expectedDigest then pure ()
    else throw .storage

/-- A verified file is a regular file with exactly the expected size and digest. -/
theorem verifyStoredFile_ok {c : Crates} {path : FilePath} {expectedSize : ℕ}
    {expectedDigest : String} {fs : FileStore}
    (h : verifyStoredFile c path expectedSize expectedDigest fs = .ok ()) :
    ∃ bytes, fs.lookup path = some (.file bytes) ∧ bytes.length = expectedSize ∧
      c.sha256Hex bytes = digestStorageValue expectedDigest := by
  unfold verifyStoredFile at h
  split at h
  · simp [throw, throwThe, MonadExceptOf.throw] at h
  · next bytes hread =>
    unfold hashReader at h
    split_ifs at h with hlong
    · simp [throw, throwThe, MonadExceptOf.throw, bind, Except.bind] at h
    · simp only [bind, Except.bind, pure, Except.pure] at h
      split_ifs at h with hok
      exact ⟨bytes, FileStore.read_ok hread, hok.1, hok.2⟩

end Patwari
