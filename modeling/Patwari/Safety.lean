/-
# Patwari.Safety — every request takes only guaranteed steps.

§1 gives each kind of action its rule: what a task must know before it, and what it knows after.
§2 are the requests that only read or whose writes need no knowledge. §3 follows an upload from its
creation to its end, §4 a completion, §5 deletion and garbage collection. §6 puts them together:
whatever request a task serves, it keeps the discipline.
-/
import Patwari.Guarantee
import Patwari.Server

namespace Patwari

open Lib (Prog TaskId Discipline UniqueOn updateWhere)

variable {c : Crates} {cfg : Config} {mode : Mode} {t : TaskId} {s : Shared}

/-! ## §1 — Actions. -/

section Actions

variable {κ κ' α β : Type} {Q : α → Shared → Prop} {R : κ → Shared → Prop} {P : Shared → Prop}

/-- The states a task may find itself in after it was in `s`. -/
theorem reach_stable (s : Shared) :
    (discipline c cfg mode).Stable t ((discipline c cfg mode).Reach s) :=
  fun _ _ t' _ hinv hstep h => h.tail ⟨hinv, t', hstep⟩

/-- Ending a task keeps what no step breaks. -/
theorem persistent_cleanup (hP : (discipline c cfg mode).Persistent P) (hinv : s.Inv c)
    (hs : P s) : P (s.cleanup t) :=
  hP t s _ hinv .cleanup hs

theorem safe_nowUtc :
    (discipline c cfg mode).Safe t nowUtc (fun now _ => ∃ n, now = .utc n ∧ mode.readings t n) s :=
  Discipline.Safe.atomic (Discipline.Stable.true t) trivial
    (fun _ e _ _ hok _ => ⟨.refl, e.now, rfl, hok rfl⟩)
    fun hdet => by simp [system, Label.detachable] at hdet

theorem Fresh.nil : Fresh t [] s := ⟨List.nodup_nil, by simp⟩

theorem Fresh.perm {ids ids' : List String} (h : Fresh t ids s) (hperm : ids.Perm ids') :
    Fresh t ids' s :=
  ⟨hperm.nodup_iff.mp h.1, fun id hid => h.2 id (hperm.mem_iff.mpr hid)⟩

/-- A generated identifier is fresh beside those generated before. -/
theorem safe_freshId {ids : List String} (hids : Fresh t ids s) :
    (discipline c cfg mode).Safe t freshId
      (fun id s' => IsUuidV7 id ∧ Fresh t (id :: ids) s' ∧ id ∉ s.issued.map Prod.fst) s := by
  refine Discipline.Safe.atomic ((reach_stable s).and (Fresh.stable ids)) ⟨.refl, hids⟩
    (fun s' e hinv he _ hpre => ?_) fun hdet => by simp [system, Label.detachable] at hdet
  obtain ⟨hr, hids'⟩ := hpre
  refine ⟨.issue e.uuid he.1 he.2, he.1, ⟨?_, fun id hid => ?_⟩, fun hmem => he.2 ?_⟩
  · refine List.nodup_cons.mpr ⟨fun hmem => he.2 ?_, hids'.1⟩
    exact List.mem_map_of_mem (hids'.2 _ hmem).1
  · rcases List.mem_cons.mp hid with rfl | hid
    · refine ⟨List.mem_cons_self, fun hused => he.2 ?_⟩
      obtain ⟨t', ht'⟩ := hinv.used _ hused
      exact List.mem_map_of_mem ht'
    · exact ⟨List.mem_cons_of_mem _ (hids'.2 id hid).1, hids'.not_used hid⟩
  · obtain ⟨⟨id, t'⟩, hp, hid⟩ := List.mem_map.mp hmem
    exact List.mem_map.mpr ⟨_, (issued_persistent id t').of_reach hr hp, hid⟩

theorem safe_freshIds (n : ℕ) {ids : List String} (hinv : s.Inv c) (hids : Fresh t ids s) :
    (discipline c cfg mode).Safe t (freshIds n)
      (fun new s' => new.length = n ∧ Fresh t (new ++ ids) s') s := by
  induction n generalizing s ids with
  | zero => exact ⟨rfl, hids⟩
  | succ n ih =>
    refine Discipline.Safe.bind (safe_freshId hids) hinv fun id s₁ hinv₁ hid => ?_
    refine Discipline.Safe.bind (ih hinv₁ hid.2.1) hinv₁ fun new s₂ hinv₂ hnew => ?_
    refine ⟨by simp [hnew.1], hnew.2.perm ?_⟩
    exact List.perm_middle

theorem safe_acquire (l : Lock) :
    (discipline c cfg mode).Safe t (acquire l) (fun _ s' => Holds t l s') s :=
  Discipline.Safe.await (Discipline.Stable.true t) trivial
    (fun _ _ hfree _ => ⟨.acquire l hfree, List.mem_cons_self⟩) rfl

theorem safe_release (ls : List Lock) :
    (discipline c cfg mode).Safe t (release ls) (fun _ _ => True) s :=
  Discipline.Safe.atomic (Discipline.Stable.true t) trivial
    (fun _ _ _ _ _ _ => ⟨.release fun l => decide (l ∈ ls), trivial⟩)
    fun hdet => by simp [system, Label.detachable] at hdet

/-- A read of the database, beside knowledge `P` that no other task can take away. -/
theorem safe_query_of {onFault : κ} {f : Db → Except κ α} (hP : (discipline c cfg mode).Stable t P)
    (hs : P s)
    (hok : ∀ s' a, s'.Inv c → (discipline c cfg mode).Reach s s' → P s' → f s'.db = .ok a → Q a s')
    (herr : ∀ s' e, P s' → R e s') : (discipline c cfg mode).SafeE t (query onFault f) Q R s := by
  refine Discipline.Safe.atomic ((reach_stable s).and hP) ⟨.refl, hs⟩
    (fun s' e hinv _ _ hpre => ?_) fun hdet => by simp [system, Label.detachable] at hdet
  obtain ⟨hr, hs'⟩ := hpre
  cases e.fault with
  | some fault => exact ⟨.refl, herr s' onFault hs'⟩
  | none =>
    refine ⟨.refl, ?_⟩
    show Discipline.outcome Q R (f s'.db) s'
    cases hf : f s'.db with
    | ok a => exact hok s' a hinv hr hs' hf
    | error e => exact herr s' e hs'

theorem safe_query {onFault : κ} {f : Db → Except κ α}
    (hok : ∀ s' a, s'.Inv c → (discipline c cfg mode).Reach s s' → f s'.db = .ok a → Q a s')
    (herr : ∀ s' e, R e s') : (discipline c cfg mode).SafeE t (query onFault f) Q R s :=
  safe_query_of (Discipline.Stable.true t) trivial (fun s' a hinv hr _ => hok s' a hinv hr)
    fun s' e _ => herr s' e

/-- A write transaction, from knowledge `P` that no other task can take away. -/
theorem safe_transaction {w : Write} {onFault : Fault → κ} {ids : List String}
    {accepted : List AcceptedChunk} {f : Db → Except κ (α × Db)}
    (hP : (discipline c cfg mode).Stable t P) (hs : P s) (hids : Fresh t ids s)
    (h : ∀ s' a db, s'.Inv c → (discipline c cfg mode).Reach s s' → P s' → f s'.db = .ok (a, db) →
      DbWrite c cfg mode t s' ids accepted db ∧
        Q a { s' with db := db, used := ids ++ s'.used, accepted := accepted ++ s'.accepted })
    (herr : ∀ s' e, R e s') :
    (discipline c cfg mode).SafeE t (transaction w onFault ids accepted f) Q R s := by
  have hreach : (discipline c cfg mode).Stable t ((discipline c cfg mode).Reach s) :=
    reach_stable s
  have hpre := (hreach.and hP).and (Fresh.stable ids)
  refine Discipline.Safe.atomic hpre ⟨⟨.refl, hs⟩, hids⟩ (fun s' e hinv _ _ hpre' => ?_)
    fun hdet => by simp [system, Label.detachable] at hdet
  obtain ⟨⟨hr, hP'⟩, hids'⟩ := hpre'
  cases e.fault with
  | some fault => exact ⟨.refl, herr s' _⟩
  | none =>
    by_cases hwriter : s'.writer.isSome
    · simp only [hwriter, if_true]
      exact ⟨.refl, herr s' _⟩
    · simp only [hwriter, Bool.false_eq_true, if_false]
      cases hf : f s'.db with
      | error e => exact ⟨.refl, herr s' e⟩
      | ok r =>
        obtain ⟨a, db⟩ := r
        obtain ⟨hwrite, hQ⟩ := h s' a db hinv hr hP' hf
        exact ⟨.write (by simpa using hwriter) hids' hwrite, hQ⟩

/-- A reading pass over the data directory, beside knowledge no other task can take away. -/
theorem safe_fileRead_of {onFault : κ} {f : FileStore → Except κ α}
    (hP : (discipline c cfg mode).Stable t P) (hs : P s)
    (hok : ∀ s' a, s'.Inv c → P s' → f s'.fs = .ok a → Q a s') (herr : ∀ s' e, P s' → R e s') :
    (discipline c cfg mode).SafeE t (fileRead onFault f) Q R s := by
  refine Discipline.Safe.atomic hP hs (fun s' e hinv _ _ hs' => ?_) fun _ _ s' _ _ => ?_
  · cases e.fault with
    | some fault => exact ⟨.refl, herr s' onFault hs'⟩
    | none =>
      refine ⟨.refl, ?_⟩
      show Discipline.outcome Q R (f s'.fs) s'
      cases hf : f s'.fs with
      | ok a => exact hok s' a hinv hs' hf
      | error e => exact herr s' e hs'
  · refine Discipline.Safe.late (Discipline.Stable.true t) trivial fun s'' e _ _ _ _ => ?_
    cases e.fault <;> exact ⟨.refl, id⟩

theorem safe_fileRead {onFault : κ} {f : FileStore → Except κ α}
    (hok : ∀ s' a, s'.Inv c → f s'.fs = .ok a → Q a s')
    (herr : ∀ s' e, R e s') : (discipline c cfg mode).SafeE t (fileRead onFault f) Q R s :=
  safe_fileRead_of (Discipline.Stable.true t) trivial (fun s' a hinv _ => hok s' a hinv)
    fun s' e _ => herr s' e

/-- A file operation is a step when what it does to the directory is one. -/
theorem fileOp_step {f : FileStore → Except IoError FileStore} {e : Env}
    (h : ∀ fs, f s.fs = .ok fs →
      FileWrite c mode t s fs ∧ s.fs.Orderly fs) :
    SysStep c cfg mode t s (match e.fault with
      | some _ => ((.error .other : Except IoError Unit), s)
      | none =>
        match f s.fs with
        | .error err => (.error err, s)
        | .ok fs => (.ok (), { s with fs := fs })).2 := by
  cases e.fault with
  | some fault => exact .refl
  | none =>
    cases hf : f s.fs with
    | error err => exact .refl
    | ok fs => exact .files (h fs hf).1 (h fs hf).2

/-- A file operation takes no lock and opens no transaction. -/
theorem fileOp_idle {f : FileStore → Except IoError FileStore} {e : Env}
    (h : (discipline c cfg mode).idle t s) : (discipline c cfg mode).idle t (match e.fault with
      | some _ => ((.error .other : Except IoError Unit), s)
      | none =>
        match f s.fs with
        | .error err => (.error err, s)
        | .ok fs => (.ok (), { s with fs := fs })).2 := by
  cases e.fault with
  | some fault => exact h
  | none => cases f s.fs <;> exact h

/-- A file operation, from knowledge `P`, of which `P'` is what it needs and what outlives the task
when the operation may. -/
theorem safe_fileStep {label : Label} {f : FileStore → Except IoError FileStore}
    {P' : Shared → Prop}
    {Q : Except IoError Unit → Shared → Prop} (hP : (discipline c cfg mode).Stable t P)
    (hP' : (discipline c cfg mode).Stable t P') (hweak : ∀ s, P s → P' s)
    (hclean : (discipline c cfg mode).detachOk label →
      ∀ s, s.Inv c → P' s → P' (s.cleanup t)) (hs : P s)
    (h : ∀ s' fs, s'.Inv c → P' s' → f s'.fs = .ok fs →
      FileWrite c mode t s' fs ∧ s'.fs.Orderly fs)
    (hok : ∀ s' fs, s'.Inv c → P s' → f s'.fs = .ok fs → Q (.ok ()) { s' with fs := fs })
    (herr : ∀ s' e, s'.Inv c → P s' → Q (.error e) s') :
    (discipline c cfg mode).Safe t (fileStep label f) Q s := by
  refine Discipline.Safe.atomic hP hs (fun s' e hinv _ _ hs' => ⟨?_, ?_⟩)
    fun _ hdetach s' hinv hs' => ?_
  · exact fileOp_step fun fs => h s' fs hinv (hweak s' hs')
  · cases e.fault with
    | some fault => exact herr s' _ hinv hs'
    | none =>
      cases hf : f s'.fs with
      | error err => exact herr s' err hinv hs'
      | ok fs => exact hok s' fs hinv hs' hf
  · have hlate := hclean hdetach s' hinv (hweak s' hs')
    refine Discipline.Safe.late hP' hlate fun s'' e hinv'' _ _ hs'' => ?_
    exact ⟨fileOp_step fun fs => h s'' fs hinv'' hs'', fileOp_idle⟩

/-- A file operation, from knowledge that outlives the task when the operation may. -/
theorem safe_fileOp {f : FileStore → Except IoError FileStore}
    {Q : Except IoError Unit → Shared → Prop} (hP : (discipline c cfg mode).Stable t P)
    (hclean : ∀ s, s.Inv c → P s → P (s.cleanup t)) (hs : P s)
    (h : ∀ s' fs, s'.Inv c → P s' → f s'.fs = .ok fs →
      FileWrite c mode t s' fs ∧ s'.fs.Orderly fs)
    (hok : ∀ s' fs, s'.Inv c → P s' → f s'.fs = .ok fs → Q (.ok ()) { s' with fs := fs })
    (herr : ∀ s' e, s'.Inv c → P s' → Q (.error e) s') :
    (discipline c cfg mode).Safe t (fileOp f) Q s :=
  safe_fileStep hP hP (fun _ hs => hs) (fun _ => hclean) hs h hok herr

/-- The removal of a canonical blob file, from knowledge that the digest is locked and free. -/
theorem safe_removeBlobFile {d : String} (hkeeper : mode.keepers t)
    (hP : (discipline c cfg mode).Stable t P) (hs : P s)
    (h : mode.removals → ∀ s', s'.Inv c → P s' → Holds t (blobLock d) s' ∧ Unreferenced t d s') :
    (discipline c cfg mode).Safe t (removeBlobFile d) (fun _ _ => True) s := by
  have hwrite (s' : Shared) (hlock : mode.removals → Holds t (blobLock d) s' ∧ Unreferenced t d s')
      (fs : FileStore) (hf : s'.fs.removeFile (blobPath d) = .ok fs) :
      FileWrite c mode t s' fs ∧ s'.fs.Orderly fs := by
    refine ⟨.unlink d hlock (fun p => ?_) hkeeper, .removeFile hf⟩
    rw [FileStore.removeFile_ok hf]
    simp
  refine Discipline.Safe.atomic hP hs (fun s' e hinv _ _ hs' => ⟨?_, trivial⟩)
    fun _ hdetach s' _ _ => ?_
  · exact fileOp_step (f := fun fs => fs.removeFile (blobPath d))
      (hwrite s' fun hmode => h hmode s' hinv hs')
  · refine Discipline.Safe.late (Discipline.Stable.true t) trivial fun s'' e _ _ _ _ => ?_
    refine ⟨fileOp_step (f := fun fs => fs.removeFile (blobPath d)) ?_,
      fileOp_idle (f := fun fs => fs.removeFile (blobPath d))⟩
    exact hwrite s'' fun hmode => absurd rfl (hdetach.2 hmode)

/-- The outcome of a program as a value. -/
theorem safe_attempt {p : Handler κ α} {R' : κ' → Shared → Prop}
    (h : (discipline c cfg mode).SafeE t p Q R s) (hinv : s.Inv c) :
    (discipline c cfg mode).SafeE t (attempt p : Handler κ' (Except κ α))
      (Discipline.outcome Q R) R' s :=
  Discipline.Safe.bind h hinv fun _ _ _ hr => hr

theorem safe_mapErr {f : κ → κ'} {p : Handler κ α} {R' : κ' → Shared → Prop}
    (h : (discipline c cfg mode).SafeE t p Q R s) (hinv : s.Inv c)
    (hR : ∀ e s, R e s → R' (f e) s) :
    (discipline c cfg mode).SafeE t (mapErr f p) Q R' s := by
  refine Discipline.Safe.bind h hinv fun r s' _ hr => ?_
  cases r with
  | ok a => exact hr
  | error e => exact hR e s' hr

theorem safe_check {x : Except κ α} (hok : ∀ a, x = .ok a → Q a s)
    (herr : ∀ e, x = .error e → R e s) : (discipline c cfg mode).SafeE t (check x) Q R s :=
  Discipline.SafeE.ofExcept hok herr

theorem safe_orFail {e : κ} {x : Except IoError α} (hok : ∀ a, x = .ok a → Q a s)
    (herr : R e s) : (discipline c cfg mode).SafeE t (orFail e x) Q R s := by
  cases x with
  | ok a => exact hok a rfl
  | error err => exact herr

/-- A check takes no step: what follows starts where it did. -/
theorem safe_check_bind {x : Except κ α} {f : α → Handler κ β} {Q : β → Shared → Prop}
    (hok : ∀ a, x = .ok a → (discipline c cfg mode).SafeE t (f a) Q R s)
    (herr : ∀ e, x = .error e → R e s) :
    (discipline c cfg mode).SafeE t (check x >>= f) Q R s := by
  cases x with
  | ok a => exact hok a rfl
  | error e => exact herr e rfl

theorem safe_orFail_bind {e : κ} {x : Except IoError α} {f : α → Handler κ β}
    {Q : β → Shared → Prop} (hok : ∀ a, x = .ok a → (discipline c cfg mode).SafeE t (f a) Q R s)
    (herr : R e s) : (discipline c cfg mode).SafeE t (orFail e x >>= f) Q R s := by
  cases x with
  | ok a => exact hok a rfl
  | error err => exact herr

end Actions

/-! ### Actions that need no knowledge. -/

section Always

open Lib.Discipline

variable {κ κ' α : Type}

theorem always_lift {p : Program α} (h : (discipline c cfg mode).Always p) :
    (discipline c cfg mode).AlwaysE (liftM p : Handler κ α) := AlwaysE.lift h

theorem always_nowUtc : (discipline c cfg mode).Always nowUtc :=
  Always.of_safe fun _ _ _ => safe_nowUtc

theorem always_acquire (l : Lock) : (discipline c cfg mode).Always (acquire l) :=
  Always.of_safe fun _ _ _ => safe_acquire l

theorem always_acquireAll (ls : List Lock) : (discipline c cfg mode).Always (acquireAll ls) := by
  induction ls with
  | nil => exact Always.done ()
  | cons l ls ih => exact Always.bind (always_acquire l) fun _ => ih

theorem always_release (ls : List Lock) : (discipline c cfg mode).Always (release ls) :=
  Always.of_safe fun _ _ _ => safe_release ls

theorem always_query {e : κ} {f : Db → Except κ α} :
    (discipline c cfg mode).AlwaysE (query e f) :=
  Discipline.SafeE.always fun _ _ _ => safe_query (fun _ _ _ _ _ => trivial) fun _ _ => trivial

theorem always_fileRead {e : κ} {f : FileStore → Except κ α} :
    (discipline c cfg mode).AlwaysE (fileRead e f) :=
  Discipline.SafeE.always fun _ _ _ => safe_fileRead (fun _ _ _ _ => trivial) fun _ _ => trivial

theorem always_check {x : Except κ α} : (discipline c cfg mode).AlwaysE (check x) :=
  Always.done x

theorem always_orFail {e : κ} {x : Except IoError α} :
    (discipline c cfg mode).AlwaysE (orFail e x) := by
  cases x with
  | ok a => exact AlwaysE.pure a
  | error err => exact AlwaysE.throw e

theorem always_attempt {p : Handler κ α} (h : (discipline c cfg mode).AlwaysE p) :
    (discipline c cfg mode).AlwaysE (attempt p : Handler κ' (Except κ α)) :=
  Always.bind h fun _ => Always.done _

theorem always_mapErr {f : κ → κ'} {p : Handler κ α} (h : (discipline c cfg mode).AlwaysE p) :
    (discipline c cfg mode).AlwaysE (mapErr f p) :=
  Always.bind h fun _ => Always.done _

theorem always_nowRfc3339 : (discipline c cfg mode).AlwaysE (nowRfc3339 c) :=
  AlwaysE.bind (always_lift always_nowUtc) fun _ => always_check

/-- A write transaction that asks for no knowledge and no identifier. -/
theorem always_transaction {w : Write} {onFault : Fault → κ} {f : Db → Except κ (α × Db)}
    (h : ∀ t s a db, f s.db = .ok (a, db) → DbWrite c cfg mode t s [] [] db) :
    (discipline c cfg mode).AlwaysE (transaction w onFault [] [] f) :=
  SafeE.always fun t _ _ =>
    safe_transaction (Q := fun _ _ => True) (Discipline.Stable.true t) trivial Fresh.nil
      (fun s' a db _ _ _ hf => ⟨h t s' a db hf, trivial⟩) fun _ _ => trivial

end Always

/-! ### What an action leaves alone. -/

section Keeps

open Lib.Prog

variable {κ κ' α : Type} {P : Shared → Prop}

theorem keeps_nowUtc : nowUtc.Keeps t P := Keeps.atomic fun _ _ hs => hs

theorem keeps_freshId (h : ∀ s id, P s → P { s with issued := (id, t) :: s.issued }) :
    freshId.Keeps t P := Keeps.atomic fun e s hs => h s e.uuid hs

theorem keeps_freshIds (n : ℕ) (h : ∀ s id, P s → P { s with issued := (id, t) :: s.issued }) :
    (freshIds n).Keeps t P := by
  induction n with
  | zero => exact Keeps.done _
  | succ n ih => exact Keeps.bind (keeps_freshId h) fun _ => Keeps.bind ih fun _ => Keeps.done _

theorem keeps_acquireAll (ls : List Lock)
    (h : ∀ s l, P s → P { s with locks := (l, t) :: s.locks }) : (acquireAll ls).Keeps t P := by
  induction ls with
  | nil => exact Keeps.done _
  | cons l ls ih => exact Keeps.bind (Keeps.await fun s hs => h s l hs) fun _ => ih

theorem keeps_query {e : κ} {f : Db → Except κ α} : KeepsE t P (query e f) := by
  refine Keeps.atomic fun env s hs => ?_
  cases env.fault <;> exact hs

theorem keeps_fileRead {e : κ} {f : FileStore → Except κ α} : KeepsE t P (fileRead e f) := by
  refine Keeps.atomic fun env s hs => ?_
  cases env.fault <;> exact hs

theorem keeps_transaction {w : Write} {onFault : Fault → κ} {ids : List String}
    {acc : List AcceptedChunk} {f : Db → Except κ (α × Db)}
    (h : ∀ s db used accepted, P s → P { s with db := db, used := used, accepted := accepted }) :
    KeepsE t P (transaction w onFault ids acc f) := by
  refine Keeps.atomic fun env s hs => ?_
  split
  · exact hs
  · split
    · exact hs
    · split
      · exact hs
      · exact h s _ _ _ hs

theorem keeps_fileStep {label : Label} {f : FileStore → Except IoError FileStore}
    (h : ∀ s fs, f s.fs = .ok fs → P s → P { s with fs := fs }) :
    (fileStep label f).Keeps t P := by
  refine Keeps.atomic fun env s hs => ?_
  split
  · exact hs
  · split
    · exact hs
    · next hfs => exact h s _ hfs hs

theorem keeps_fileOp {f : FileStore → Except IoError FileStore}
    (h : ∀ s fs, f s.fs = .ok fs → P s → P { s with fs := fs }) : (fileOp f).Keeps t P :=
  keeps_fileStep h

theorem keeps_removeBlobFile (d : String)
    (h : ∀ s fs, s.fs.removeFile (blobPath d) = .ok fs → P s → P { s with fs := fs }) :
    (removeBlobFile d).Keeps t P :=
  keeps_fileStep h

theorem keeps_check {x : Except κ α} : KeepsE t P (check x) := Keeps.done x

theorem keeps_orFail {e : κ} {x : Except IoError α} : KeepsE t P (orFail e x) := by
  cases x with
  | ok a => exact KeepsE.pure a
  | error err => exact KeepsE.throw e

theorem keeps_attempt {p : Handler κ α} (h : KeepsE t P p) :
    KeepsE t P (attempt p : Handler κ' (Except κ α)) :=
  Keeps.bind h fun _ => Keeps.done _

theorem keeps_lift {p : Program α} (h : p.Keeps t P) : KeepsE t P (liftM p : Handler κ α) :=
  KeepsE.lift h

theorem keeps_nowRfc3339 : KeepsE t P (nowRfc3339 c) :=
  KeepsE.bind (keeps_lift keeps_nowUtc) fun _ => keeps_check

end Keeps

/-! ## §2 — Requests that need no knowledge. -/

section Reading

open Lib.Discipline

theorem always_getActiveUpload (uploadId : String) :
    (discipline c cfg mode).AlwaysE (getActiveUpload uploadId) := always_query

theorem always_uploadArtifactStatus (uploadId : String) (a : UploadArtifactRow) :
    (discipline c cfg mode).AlwaysE (uploadArtifactStatus uploadId a) := by
  unfold uploadArtifactStatus
  iterate 2 refine AlwaysE.bind always_check fun _ => ?_
  refine AlwaysE.bind always_query fun _ => ?_
  iterate 3 refine AlwaysE.bind always_check fun _ => ?_
  exact AlwaysE.pure _

theorem always_uploadArtifactStatuses (uploadId : String) :
    (discipline c cfg mode).AlwaysE (uploadArtifactStatuses uploadId) := by
  refine AlwaysE.bind always_query fun rows => ?_
  induction rows with
  | nil => exact AlwaysE.pure _
  | cons a rest ih =>
    refine AlwaysE.bind (always_uploadArtifactStatus uploadId a) fun _ => ?_
    exact AlwaysE.bind ih fun _ => AlwaysE.pure _

theorem always_activeUploadStatusResponse (upload : UploadRow) :
    (discipline c cfg mode).AlwaysE (activeUploadStatusResponse upload) := by
  refine AlwaysE.bind (always_uploadArtifactStatuses upload.id) fun _ => ?_
  exact AlwaysE.bind always_check fun _ => AlwaysE.pure _

theorem always_activeUploadResponse (uploadId : String) :
    (discipline c cfg mode).AlwaysE (activeUploadResponse uploadId) := by
  refine AlwaysE.bind (always_getActiveUpload uploadId) fun upload => ?_
  cases upload with
  | none => exact AlwaysE.throw _
  | some upload =>
    exact AlwaysE.bind (always_activeUploadStatusResponse upload) fun _ => AlwaysE.pure _

theorem always_auditUploadResponse (uploadId : String) :
    (discipline c cfg mode).AlwaysE (auditUploadResponse uploadId) := by
  refine AlwaysE.bind always_query fun _ => ?_
  exact AlwaysE.bind always_check fun _ => AlwaysE.pure _

theorem always_registerClient (clientId : String) (request : RegisterClientRequest) :
    (discipline c cfg mode).AlwaysE (registerClient c clientId request) := by
  unfold registerClient
  iterate 2 refine AlwaysE.bind always_check fun _ => ?_
  refine AlwaysE.bind always_nowRfc3339 fun now => ?_
  refine AlwaysE.bind (always_transaction fun t s a db h => ?_) fun _ => ?_
  · exact .registerClient _ _ now request h
  · refine AlwaysE.bind always_query fun _ => ?_
    exact AlwaysE.bind always_check fun _ => AlwaysE.pure _

theorem always_listRows {ρ τ : Type} (kind hash : String) (page : PageRequest)
    (rows : Db → List ρ) (boundary : ρ → SortBoundary) (respond : ρ → Except ApiError τ) :
    (discipline c cfg mode).AlwaysE (listRows kind hash page rows boundary respond) := by
  refine AlwaysE.bind always_query fun _ => ?_
  exact AlwaysE.bind always_check fun _ => always_check

theorem always_listSnapshots (request : SnapshotListQuery) :
    (discipline c cfg mode).AlwaysE (listSnapshots c request) := by
  refine AlwaysE.bind always_check fun _ => ?_
  exact AlwaysE.bind always_check fun _ => always_listRows _ _ _ _ _ _

theorem always_listSessionSnapshots (sessionId : String) (limit : Option ℕ)
    (cursor : Option String) :
    (discipline c cfg mode).AlwaysE (listSessionSnapshots c sessionId limit cursor) := by
  refine AlwaysE.bind always_check fun _ => ?_
  exact AlwaysE.bind always_check fun _ => always_listRows _ _ _ _ _ _

theorem always_listSessions (request : ListQuery) :
    (discipline c cfg mode).AlwaysE (listSessions c request) := by
  refine AlwaysE.bind always_check fun _ => ?_
  exact AlwaysE.bind always_check fun _ => always_listRows _ _ _ _ _ _

theorem always_reconcileFirstRead (snapshotId : String) :
    (discipline c cfg mode).AlwaysE (reconcileFirstRead snapshotId) := by
  refine Always.of_safe (Q := fun _ _ _ => True) fun t s _ => Safe.atomic (Stable.true t) trivial
    (fun s' e _ _ _ _ => ⟨?_, trivial⟩) fun hdet => by simp [system, Label.detachable] at hdet
  cases e.fault with
  | some fault => exact .refl
  | none =>
    dsimp only
    split
    · refine .reconcile ((snapshotId, t) :: s'.reconciling) fun r hr => ?_
      have hne : r ≠ (snapshotId, t) := fun heq => hr (congrArg Prod.snd heq)
      simp [hne]
    · exact .refl

theorem always_reconcileSecondRead (snapshotId : String) :
    (discipline c cfg mode).AlwaysE (reconcileSecondRead snapshotId) := by
  refine Always.of_safe (Q := fun _ _ _ => True) fun t s _ => Safe.atomic (Stable.true t) trivial
    (fun s' e _ _ _ _ => ⟨?_, trivial⟩) fun hdet => by simp [system, Label.detachable] at hdet
  have hstep : SysStep c cfg mode t s' { s' with
      reconciling := s'.reconciling.filter fun r => decide (r ≠ (snapshotId, t)) } := by
    refine .reconcile _ fun r hr => ?_
    have hne : r ≠ (snapshotId, t) := fun heq => hr (congrArg Prod.snd heq)
    simp [hne]
  cases e.fault <;> exact hstep

theorem always_reconcileSnapshotReads (snapshotId : String) :
    (discipline c cfg mode).AlwaysE (reconcileSnapshotReads c snapshotId) := by
  refine AlwaysE.bind (always_reconcileFirstRead snapshotId) fun _ => ?_
  exact AlwaysE.bind (always_reconcileSecondRead snapshotId) fun _ => always_check

theorem always_verifiedDownloadMetadata (artifactId : String) :
    (discipline c cfg mode).AlwaysE (verifiedDownloadMetadata c artifactId) := by
  refine AlwaysE.bind always_query fun row => ?_
  cases row with
  | none => exact AlwaysE.pure _
  | some row =>
    refine AlwaysE.bind always_check fun _ => ?_
    refine AlwaysE.bind (always_mapErr (always_reconcileSnapshotReads _)) fun _ => ?_
    exact AlwaysE.pure _

theorem always_preflightBlob (path : FilePath) (size : ℕ) (sha256 : String) :
    (discipline c cfg mode).AlwaysE (preflightBlob c path size sha256) := by
  unfold preflightBlob
  refine AlwaysE.guard ?_
  refine AlwaysE.bind always_fileRead fun _ => ?_
  exact AlwaysE.guard always_fileRead

theorem always_downloadArtifact (artifactId : String) :
    (discipline c cfg mode).AlwaysE (downloadArtifact c artifactId) := by
  refine AlwaysE.bind always_check fun _ => ?_
  refine AlwaysE.bind (always_verifiedDownloadMetadata _) fun metadata => ?_
  cases metadata with
  | none => exact AlwaysE.throw _
  | some metadata =>
    refine AlwaysE.bind (always_preflightBlob _ _ _) fun body => ?_
    refine AlwaysE.bind always_check fun headers => ?_
    exact AlwaysE.pure _

theorem always_getSnapshot (snapshotId : String) :
    (discipline c cfg mode).AlwaysE (getSnapshot c snapshotId) := by
  refine AlwaysE.bind always_check fun snapshotId => ?_
  refine AlwaysE.bind always_query fun row => ?_
  refine AlwaysE.bind (always_mapErr (always_reconcileSnapshotReads _)) fun _ => ?_
  refine AlwaysE.bind always_check fun manifest => ?_
  refine AlwaysE.bind always_query fun rows => ?_
  exact AlwaysE.bind always_check fun artifacts => always_check

/-! ### The integrity scan, which writes to its own tables only. -/

/-- A transaction of the scan under a new identifier. -/
theorem always_freshTransaction {κ α : Type} {e : κ} {f : String → Db → Except κ (Unit × Db)}
    {next : String → Handler κ α}
    (hf : ∀ id db db', f id db = .ok ((), db') → ∃ runs findings,
      db' = { db with integrityRuns := runs, integrityFindings := findings })
    (hnext : ∀ id, (discipline c cfg mode).AlwaysE (next id)) :
    (discipline c cfg mode).AlwaysE (do
      let id ← freshId
      integrityTransaction e [id] (f id)
      next id) := by
  refine SafeE.always (Q := fun _ _ _ => True) (R := fun _ _ _ => True) fun t s hs => ?_
  refine SafeE.bind (SafeE.lift (safe_freshId Fresh.nil) hs) hs fun id s' hs' _ hid => ?_
  refine SafeE.bind (safe_transaction (Q := fun _ _ => True) (Stable.true t) trivial hid.2.1
    (fun s'' _ db _ _ _ hdb => ⟨?_, trivial⟩) fun _ _ => trivial) hs' fun _ s'' hs'' _ _ => ?_
  · obtain ⟨runs, findings, rfl⟩ := hf id _ _ hdb
    exact .recordIntegrity _ runs findings
  · exact SafeE.of_always (hnext id) hs''

theorem always_begin : (discipline c cfg mode).AlwaysE (ScanRecorder.begin c) := by
  refine AlwaysE.bind (always_lift always_nowUtc) fun now => ?_
  refine AlwaysE.bind always_check fun startedAt => ?_
  refine always_freshTransaction (fun id db db' h => ?_) fun id => AlwaysE.pure _
  unfold beginRun at h
  simp only [ite_throw_eq_ok, pure_eq_ok, Prod.mk.injEq, true_and] at h
  exact ⟨_, _, h.2.symm⟩

theorem always_record (r : ScanRecorder) (x : Finding) :
    (discipline c cfg mode).AlwaysE (r.record c x) := by
  refine AlwaysE.bind (always_lift always_nowUtc) fun now => ?_
  refine AlwaysE.bind always_check fun detectedAt => ?_
  refine always_freshTransaction (fun id db db' h => ?_) fun id => AlwaysE.pure _
  unfold insertFinding at h
  simp only [ite_throw_eq_ok, pure_eq_ok, Prod.mk.injEq, true_and] at h
  exact ⟨_, _, h.2.symm⟩

theorem always_recordOption (r : ScanRecorder) (x : Option Finding) :
    (discipline c cfg mode).AlwaysE (r.recordOption c x) := by
  cases x with
  | none => exact AlwaysE.pure r
  | some x => exact always_record r x

theorem always_finish (r : ScanRecorder) (status : IntegrityRunStatus) :
    (discipline c cfg mode).AlwaysE (r.finish c status) := by
  refine AlwaysE.bind (always_lift always_nowUtc) fun now => ?_
  refine AlwaysE.bind always_check fun completedAt => ?_
  refine AlwaysE.bind (always_transaction fun t s a db h => ?_) fun _ => AlwaysE.pure _
  unfold endRun at h
  simp only [ite_throw_eq_ok, pure_eq_ok, Prod.mk.injEq] at h
  obtain ⟨-, -, rfl⟩ := h
  exact .recordIntegrity _ _ _

theorem always_scanQuery {α : Type} (r : ScanRecorder) (f : Db → α) :
    (discipline c cfg mode).AlwaysE (scanQuery r f) := always_query

theorem always_neverEnds {κ α : Type} (e : κ) :
    (discipline c cfg mode).AlwaysE (neverEnds e : Handler κ α) := by
  refine fun t s hs => ⟨fun s' _ _ hen => ?_, fun hdet => ?_⟩
  · simp at hen
  · simp [system, Label.detachable] at hdet

theorem always_scanEach {ρ : Type} {step : ScanRecorder → ρ → Scan ScanRecorder}
    (h : ∀ r row, (discipline c cfg mode).AlwaysE (step r row)) (rows : List ρ) (r : ScanRecorder) :
    (discipline c cfg mode).AlwaysE (scanEach step r rows) := by
  induction rows generalizing r with
  | nil => exact AlwaysE.pure r
  | cons row rest ih => exact AlwaysE.bind (h r row) fun r => ih r

theorem always_scanPages {ρ : Type} {id : ρ → String} {select : Db → List ρ}
    {each : ScanRecorder → List ρ → Scan ScanRecorder}
    (h : ∀ r rows, (discipline c cfg mode).AlwaysE (each r rows)) (fuel : ℕ) (after : String)
    (r : ScanRecorder) :
    (discipline c cfg mode).AlwaysE (scanPages id select each fuel after r) := by
  induction fuel generalizing after r with
  | zero => exact always_neverEnds _
  | succ fuel ih =>
    refine AlwaysE.bind (always_scanQuery _ _) fun rows => ?_
    cases rows.getLast? with
    | none => exact AlwaysE.pure r
    | some last => exact AlwaysE.bind (h r rows) fun r => ih _ r

theorem always_scanDatabaseIntegrity (sqlite : SqliteChecks) (r : ScanRecorder) :
    (discipline c cfg mode).AlwaysE (scanDatabaseIntegrity c sqlite r) := by
  unfold scanDatabaseIntegrity
  refine AlwaysE.bind (always_scanQuery _ _) fun quick => ?_
  have hkeys (r : ScanRecorder) : (discipline c cfg mode).AlwaysE (do
      let keys ← scanQuery r sqlite.foreignKeyCheck
      if keys then pure r
      else r.record c ⟨.databaseIntegrityFailure, .error, none, none, none,
        "sqlite_foreign_key_check_failed"⟩) := by
    refine AlwaysE.bind (always_scanQuery _ _) fun keys => ?_
    split
    · exact AlwaysE.pure r
    · exact always_record _ _
  dsimp only
  split
  · exact hkeys r
  · exact AlwaysE.bind (always_record _ _) hkeys

theorem always_recordArtifacts (kind : IntegrityFindingKind) (detailCode : String)
    (r : ScanRecorder) (rows : List ArtifactRow) :
    (discipline c cfg mode).AlwaysE (recordArtifacts c kind detailCode r rows) :=
  always_scanEach (fun r _ => always_record r _) rows r

theorem always_withBlobLock {κ α : Type} (digest : String) {body : Handler κ α}
    (h : (discipline c cfg mode).AlwaysE body) :
    (discipline c cfg mode).AlwaysE (withBlobLock digest body) := by
  refine AlwaysE.bind (always_lift (always_acquireAll _)) fun _ => ?_
  refine AlwaysE.bind (always_attempt h) fun _ => ?_
  exact AlwaysE.bind (always_lift (always_release _)) fun _ => always_check

theorem always_lookAt (path : FilePath) : (discipline c cfg mode).Always (lookAt path) := by
  refine Always.of_safe (Q := fun _ _ _ => True) fun t s _ => Safe.atomic (Stable.true t) trivial
    (fun s' e _ _ _ _ => ⟨?_, trivial⟩) fun _ _ s' _ _ => ?_
  · cases e.fault <;> exact .refl
  · refine Safe.late (Stable.true t) trivial fun s'' e _ _ _ _ => ?_
    cases e.fault <;> exact ⟨.refl, id⟩

theorem always_readOpened : (discipline c cfg mode).Always readOpened :=
  Always.of_safe (Q := fun _ _ _ => True) fun t _ _ => Safe.atomic (Stable.true t) trivial
    (fun _ _ _ _ _ _ => ⟨.refl, trivial⟩) fun _ _ _ _ _ =>
      Safe.late (Stable.true t) trivial fun _ _ _ _ _ _ => ⟨.refl, id⟩

theorem always_scanStoredFile (path : FilePath) (sha256 : String) (size : ℕ) :
    (discipline c cfg mode).Always (scanStoredFile c path sha256 size) := by
  unfold scanStoredFile
  refine Always.bind (always_lookAt path) fun before => ?_
  cases before with
  | none => exact Always.done _
  | some before =>
    dsimp only
    split
    · exact Always.done _
    · exact Always.done _
    · exact Always.done _
    · exact Always.done _
    · refine Always.bind (always_lookAt path) fun after => ?_
      cases after <;> exact Always.done _

theorem always_scanArtifactOriginalFile (path : FilePath) (job : ArtifactJob) :
    (discipline c cfg mode).Always (scanArtifactOriginalFile c path job) := by
  refine Always.bind (always_scanStoredFile _ _ _) fun checked => ?_
  cases checked with
  | healthy =>
    refine Always.bind (always_lookAt path) fun node => ?_
    split
    · refine Always.bind always_readOpened fun opened => ?_
      split
      · exact Always.done _
      · refine Always.bind (always_lookAt path) fun after => ?_
        split <;> exact Always.done _
    · exact Always.done _
  | _ => exact Always.done _

theorem always_artifactJobsFrom (snapshotId : String)
    (rows : List (ArtifactRow × Option BlobRow)) (artifacts : List Artifact) (index : ℕ)
    (jobs : List ArtifactJob) (r : ScanRecorder) :
    (discipline c cfg mode).AlwaysE
      (artifactJobsFrom c cfg snapshotId rows artifacts index jobs r) := by
  induction artifacts generalizing index jobs r with
  | nil => exact AlwaysE.pure _
  | cons artifact rest ih =>
    unfold artifactJobsFrom
    split
    · exact ih _ _ _
    · exact ih _ _ _
    · dsimp only
      split
      · exact AlwaysE.bind (always_record _ _) fun _ => ih _ _ _
      · exact AlwaysE.bind (always_record _ _) fun _ => ih _ _ _
      · split_ifs
        · exact AlwaysE.bind (always_record _ _) fun _ => ih _ _ _
        · exact ih _ _ _
        · exact ih _ _ _

theorem always_artifactJobs (r : ScanRecorder) (snapshotId : String) (manifest : Manifest) :
    (discipline c cfg mode).AlwaysE (artifactJobs c cfg r snapshotId manifest) :=
  AlwaysE.bind (always_scanQuery _ _) fun rows => always_artifactJobsFrom _ rows _ _ _ _

theorem always_scanArtifactJob (r : ScanRecorder) (job : ArtifactJob) :
    (discipline c cfg mode).AlwaysE (scanArtifactJob c r job) := by
  have hlocked : (discipline c cfg mode).AlwaysE (scanArtifactJobLocked c r job) := by
    refine AlwaysE.bind (always_scanQuery _ _) fun before => ?_
    split
    · exact AlwaysE.pure _
    · refine AlwaysE.bind (always_lift (always_scanArtifactOriginalFile _ _)) fun result => ?_
      refine AlwaysE.bind (always_scanQuery _ _) fun after => ?_
      split
      · exact AlwaysE.pure _
      · cases result <;> exact AlwaysE.pure _
  refine AlwaysE.bind (always_withBlobLock _ hlocked) fun result => ?_
  cases result with
  | healthy => exact AlwaysE.pure r
  | storedInvalid => exact AlwaysE.pure r
  | originalMismatch detailCode => exact always_record _ _
  | transient => exact always_record _ _

theorem always_scanLiveSnapshot (r : ScanRecorder) (snapshotId : String) (manifest : Manifest) :
    (discipline c cfg mode).AlwaysE (scanLiveSnapshot c cfg r snapshotId manifest) := by
  have hjobs (r : ScanRecorder) : (discipline c cfg mode).AlwaysE
      (artifactJobs c cfg r snapshotId manifest >>= fun found =>
        scanEach (scanArtifactJob c) found.1 found.2) :=
    AlwaysE.bind (always_artifactJobs r snapshotId manifest) fun found =>
      always_scanEach always_scanArtifactJob found.2 found.1
  refine AlwaysE.bind (always_attempt (always_reconcileSnapshotReads snapshotId)) fun result => ?_
  rcases result with (_ | _ | _) | _
  · exact always_record _ _
  · exact AlwaysE.bind (always_record _ _) hjobs
  · exact AlwaysE.throw _
  · exact hjobs r

theorem always_scanDocument (r : ScanRecorder) (row : SnapshotScanRow) (document : ManifestRow) :
    (discipline c cfg mode).AlwaysE (scanDocument c cfg r row document) := by
  unfold scanDocument
  extract_lets analysis rest
  have hrest (r : ScanRecorder) : (discipline c cfg mode).AlwaysE (rest r) := by
    unfold rest
    split
    · exact always_record _ _
    · split
      · exact AlwaysE.pure r
      · exact always_scanLiveSnapshot r row.id _
  split
  · exact hrest r
  · exact AlwaysE.bind (always_record _ _) hrest

theorem always_scanSnapshot (r : ScanRecorder) (row : SnapshotScanRow) :
    (discipline c cfg mode).AlwaysE (scanSnapshot c cfg r row) := by
  unfold scanSnapshot
  extract_lets rest
  have hrest (r : ScanRecorder) : (discipline c cfg mode).AlwaysE (rest r) := by
    unfold rest
    split
    · exact always_record _ _
    · split
      · exact always_record _ _
      · refine AlwaysE.bind (always_scanQuery _ _) fun document => ?_
        cases document with
        | none => exact always_record _ _
        | some document => exact always_scanDocument r row document
  split_ifs
  · exact AlwaysE.bind (always_record _ _) hrest
  · exact AlwaysE.bind (always_record _ _) hrest
  · exact hrest r

theorem always_classifyBlobLiveness (r : ScanRecorder) (row : BlobScanRow) (nowSeq : ℤ) :
    (discipline c cfg mode).AlwaysE (classifyBlobLiveness c r row nowSeq) := by
  unfold classifyBlobLiveness
  split
  · exact always_recordOption _ _
  · refine always_withBlobLock _ (AlwaysE.bind (always_scanQuery _ _) fun current => ?_)
    cases current with
    | none => exact always_record _ _
    | some current => exact always_recordOption _ _

theorem always_scanBlobRow (nowSeq : ℤ) (rows : List BlobScanRow) (jobs : List BlobJob)
    (r : ScanRecorder) :
    (discipline c cfg mode).AlwaysE (scanBlobRow c cfg nowSeq rows jobs r) := by
  induction rows generalizing jobs r with
  | nil => exact AlwaysE.pure _
  | cons row rest ih =>
    refine AlwaysE.bind (always_classifyBlobLiveness r row nowSeq) fun r => ?_
    split
    · exact AlwaysE.bind (always_record _ _) fun _ => ih _ _
    · exact ih _ _

theorem always_scanBlobJob (r : ScanRecorder) (job : BlobJob) :
    (discipline c cfg mode).AlwaysE (scanBlobJob c r job) := by
  refine AlwaysE.bind (always_withBlobLock _ ?_) fun _ => always_recordOption _ _
  refine AlwaysE.bind (always_scanQuery _ _) fun before => ?_
  split
  · exact AlwaysE.pure _
  · refine AlwaysE.bind (always_lift (always_scanStoredFile _ _ _)) fun result => ?_
    refine AlwaysE.bind (always_scanQuery _ _) fun after => ?_
    split <;> exact AlwaysE.pure _

theorem always_scanBlobRows (fuel : ℕ) (r : ScanRecorder) :
    (discipline c cfg mode).AlwaysE (scanBlobRows c cfg fuel r) := by
  refine AlwaysE.bind (always_lift always_nowUtc) fun now => ?_
  refine always_scanPages (fun r rows => ?_) fuel "" r
  exact AlwaysE.bind (always_scanBlobRow _ rows _ r) fun found =>
    always_scanEach always_scanBlobJob found.2 found.1

theorem always_inventoryBlobEntry (shard : String) (r : ScanRecorder) (path : FilePath) :
    (discipline c cfg mode).AlwaysE (inventoryBlobEntry c shard r path) := by
  cases path with
  | blobEntry s name =>
    unfold inventoryBlobEntry
    dsimp only
    split
    · exact AlwaysE.pure r
    · refine AlwaysE.bind always_fileRead fun node => ?_
      split
      · refine always_withBlobLock _ (AlwaysE.bind (always_scanQuery _ _) fun known => ?_)
        split
        · exact AlwaysE.pure r
        · refine AlwaysE.bind (always_lift (always_lookAt _)) fun node => ?_
          split
          · exact always_record _ _
          · exact AlwaysE.pure r
      · exact always_record _ _
  | _ => exact AlwaysE.pure r

theorem always_inventoryShard (r : ScanRecorder) (path : FilePath) :
    (discipline c cfg mode).AlwaysE (inventoryShard c r path) := by
  cases path with
  | shard name =>
    unfold inventoryShard
    dsimp only
    split
    · exact AlwaysE.pure r
    · refine AlwaysE.bind always_fileRead fun node => ?_
      split
      · refine AlwaysE.bind always_fileRead fun entries => ?_
        exact always_scanEach (always_inventoryBlobEntry name) entries r
      · exact always_record _ _
  | _ => exact AlwaysE.pure r

theorem always_inventoryRootEntry (r : ScanRecorder) (path : FilePath) :
    (discipline c cfg mode).AlwaysE (inventoryRootEntry c r path) := by
  cases path with
  | blobRootEntry name =>
    refine AlwaysE.bind always_fileRead fun node => ?_
    split_ifs
    · refine AlwaysE.bind always_fileRead fun shards => ?_
      exact always_scanEach always_inventoryShard shards r
    · exact always_record _ _
    · exact AlwaysE.pure r
    · exact always_record _ _
  | _ => exact AlwaysE.pure r

theorem always_scanAll (sqlite : SqliteChecks) (fuel : ℕ) (r : ScanRecorder) :
    (discipline c cfg mode).AlwaysE (scanAll c cfg sqlite fuel r) := by
  refine AlwaysE.bind (always_scanDatabaseIntegrity sqlite r) fun r => ?_
  refine AlwaysE.bind (always_scanPages (always_recordArtifacts _ _) fuel "" r) fun r => ?_
  refine AlwaysE.bind (always_scanPages (always_recordArtifacts _ _) fuel "" r) fun r => ?_
  refine AlwaysE.bind (always_scanPages (fun r rows =>
    always_scanEach always_scanSnapshot rows r) fuel "" r) fun r => ?_
  refine AlwaysE.bind (always_scanBlobRows fuel r) fun r => ?_
  exact AlwaysE.bind always_fileRead fun entries =>
    always_scanEach always_inventoryRootEntry entries r

theorem always_scanArchive (sqlite : SqliteChecks) (fuel : ℕ) :
    (discipline c cfg mode).AlwaysE (scanArchive c cfg sqlite fuel) := by
  refine AlwaysE.bind always_begin fun r => ?_
  refine AlwaysE.bind (always_attempt (always_scanAll sqlite fuel r)) fun result => ?_
  rcases result with ⟨error, r⟩ | r
  · refine AlwaysE.bind (always_attempt (always_finish _ _)) fun ended => ?_
    cases ended <;> exact AlwaysE.throw _
  · exact AlwaysE.bind (always_finish _ _) fun _ => AlwaysE.pure _

end Reading

end Patwari
