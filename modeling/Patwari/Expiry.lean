/-
# Patwari.Expiry — which uploads an expiry pass ends.

The pass selects its candidates by comparing RFC 3339 text and confirms each by comparing parsed
instants. §1 says what one pass alone does to the upload table: it ends the active uploads that
are late in both orders. §2 compares that with the uploads that are late in time. The two agree but
for deadlines in the same second as the clock and with fewer fractional digits, whose text sorts
after its own time; §3 follows such an upload through the pass.
-/
import Patwari.Alone
import Patwari.Layout
import Patwari.UploadSafety

namespace Patwari

open Lib (Prog TaskId UniqueOn)

/-! ## §1 — The pass. -/

/-- The parsed deadline of the upload is at or before `now`. -/
def UploadRow.due (c : Crates) (now : OffsetDateTime) (u : UploadRow) : Bool :=
  match c.parseRfc3339 u.expiresAt with
  | some expiresAt => decide (expiresAt.nanos ≤ now.nanos)
  | none => false

/-- The upload is one an expiry at `now` is for. -/
def UploadRow.overdue (c : Crates) (now : OffsetDateTime) (u : UploadRow) : Bool :=
  u.status.active && u.due c now

variable {c : Crates} {now : OffsetDateTime} {clock : ℤ → Prop} {t : TaskId} {s s' : Shared}

theorem isExpired_ok {u : UploadRow} {b : Bool} (h : isExpired c u now = .ok b) :
    b = u.due c now := by
  unfold isExpired at h
  simp only [bind_eq_ok, okOr_eq_ok, pure_eq_ok] at h
  obtain ⟨expiresAt, hparse, rfl⟩ := h
  rw [UploadRow.due, hparse]

/-- **`Ended`** — what an expiry over the candidates leaves of the uploads: the overdue ones among
the candidates are gone, each with an audit, what is audited for the first time has expired, and
everything else is as it was. -/
structure Ended (c : Crates) (now : OffsetDateTime) (ids : List String) (s s' : Shared) : Prop where
  uploads : s'.db.uploads =
    s.db.uploads.filter fun u => !(u.overdue c now && decide (u.id ∈ ids))
  audits : s.db.uploadAudits ⊆ s'.db.uploadAudits
  audited : ∀ u ∈ s.db.uploads, u.overdue c now = true → u.id ∈ ids →
    ∃ a ∈ s'.db.uploadAudits, a.uploadId = u.id
  reasons : ∀ a ∈ s'.db.uploadAudits, a ∈ s.db.uploadAudits ∨ a.terminalReason = .expired

namespace Ended

theorem nil : Ended c now [] s s where
  uploads := by simp
  audits := List.Subset.refl _
  audited u _ _ hid := absurd hid List.not_mem_nil
  reasons _ ha := Or.inl ha

/-- What does not touch the database ends nothing. -/
theorem of_db {ids : List String} {s₁ : Shared} (h : Ended c now ids s s₁) (hdb : s'.db = s₁.db) :
    Ended c now ids s s' := by
  refine ⟨?_, ?_, ?_, ?_⟩
  · rw [hdb]
    exact h.uploads
  · rw [hdb]
    exact h.audits
  · rw [hdb]
    exact h.audited
  · rw [hdb]
    exact h.reasons

/-- One candidate after another. -/
theorem trans {ids ids' : List String} {s₁ : Shared} (h : Ended c now ids s s₁)
    (h' : Ended c now ids' s₁ s') : Ended c now (ids ++ ids') s s' where
  uploads := by
    rw [h'.uploads, h.uploads, List.filter_filter]
    refine List.filter_congr fun u _ => ?_
    by_cases hlate : u.overdue c now <;> by_cases hin : u.id ∈ ids <;> by_cases hin' :
      u.id ∈ ids' <;>
      simp [hlate, hin, hin']
  audits := fun _ ha => h'.audits (h.audits ha)
  audited := by
    intro u hu hlate hid
    by_cases hin : u.id ∈ ids
    · obtain ⟨a, ha, haid⟩ := h.audited u hu hlate hin
      exact ⟨a, h'.audits ha, haid⟩
    · have hin' : u.id ∈ ids' := (List.mem_append.mp hid).resolve_left hin
      refine h'.audited u ?_ hlate hin'
      rw [h.uploads, List.mem_filter]
      exact ⟨hu, by simp [hin]⟩
  reasons a ha := (h'.reasons a ha).elim (h.reasons a) Or.inr

end Ended

theorem upload_none {db : Db} {id : String} (h : db.upload id = none) :
    ∀ u ∈ db.uploads, u.id ≠ id := by
  intro u hu
  have hmiss := List.find?_eq_none.mp h u hu
  simpa using hmiss

/-- A candidate that is not overdue is left alone. -/
theorem Ended.skip {uploadId : String}
    (h : ∀ u ∈ s.db.uploads, u.id = uploadId → u.overdue c now = false) :
    Ended c now [uploadId] s s where
  uploads := by
    refine (List.filter_eq_self.mpr fun u hu => ?_).symm
    by_cases hid : u.id = uploadId
    · simp [h u hu hid]
    · simp [hid]
  audits := List.Subset.refl _
  audited := by
    intro u hu hlate hid
    rw [h u hu (List.mem_singleton.mp hid)] at hlate
    exact absurd hlate Bool.false_ne_true
  reasons _ ha := Or.inl ha

/-- A candidate that is overdue is ended. -/
theorem Ended.ends {u : UploadRow} {terminalAt : String}
    (hunique : UniqueOn UploadRow.id s.db.uploads) (hu : u ∈ s.db.uploads)
    (hlate : u.overdue c now = true)
    (hdb : s'.db = endUpload u .expired terminalAt s.db) : Ended c now [u.id] s s' where
  uploads := by
    rw [hdb]
    refine List.filter_congr fun r hr => ?_
    by_cases hid : r.id = u.id
    · rw [hunique.eq_of_mem hr hu hid]
      simp [hlate]
    · simp [hid]
  audits := by
    rw [hdb]
    intro a ha
    unfold endUpload
    dsimp only
    split
    · exact ha
    · exact List.mem_append_left _ ha
  audited := by
    rw [hdb]
    intro r _ _ hid
    rw [List.mem_singleton.mp hid]
    unfold endUpload
    dsimp only
    split
    · next hany =>
      obtain ⟨a, ha, haid⟩ := List.any_eq_true.mp hany
      exact ⟨a, ha, of_decide_eq_true haid⟩
    · exact ⟨_, List.mem_append_right _ List.mem_cons_self, rfl⟩
  reasons := by
    rw [hdb]
    intro a ha
    unfold endUpload at ha
    dsimp only at ha
    split at ha
    · exact Or.inl ha
    · rcases List.mem_append.mp ha with ha | ha
      · exact Or.inl ha
      · rw [List.mem_singleton.mp ha]
        exact Or.inr rfl

theorem alone_terminalizeUploadLocked {u : UploadRow} (hu : s.db.upload u.id = some u) :
    Alone clock t (terminalizeUploadLocked c u .expired)
      (fun _ s' => ∃ terminalAt, s'.db = endUpload u .expired terminalAt s.db)
      (fun _ _ => True) s := by
  refine Alone.bind (Q := fun _ s' => s = s') ?_ ?_
  · refine Alone.bind (Q := fun _ s' => s = s') (Alone.nowUtc fun _ _ => rfl) ?_
    rintro n _ rfl
    exact Alone.check (fun _ _ => rfl) fun _ _ => trivial
  rintro terminalAt _ rfl
  refine Alone.bind (Q := fun ended s' => ended = true ∧ s'.db = endUpload u .expired terminalAt
    s.db)
    (Alone.transaction (fun ended db _ h => ?_) (fun _ _ _ => trivial) fun _ => trivial) ?_
  · rcases terminalizeUpload_ok h with ⟨hnone, -, -⟩ | ⟨-, -, -, -, hended, hdb⟩
    · rw [hu] at hnone
      simp at hnone
    · exact ⟨hended, hdb⟩
  rintro ended s₁ ⟨rfl, hdb⟩
  refine Alone.bind (Q := fun _ s' => s'.db = s₁.db)
    (Alone.fileOp (fun _ _ => rfl) fun _ _ => rfl) ?_
  intro r s₂ hs₂
  exact Alone.orFail (fun _ _ => ⟨terminalAt, hs₂.trans hdb⟩) fun _ _ => trivial

/-- The loop over the candidates, whatever it has counted before. -/
theorem alone_expireCandidates (ids : List String) (expired : ℕ)
    (hunique : UniqueOn UploadRow.id s.db.uploads) :
    Alone clock t (expireCandidates c now ids expired) (fun _ s' => Ended c now ids s s')
      (fun _ _ => True) s := by
  induction ids generalizing expired s with
  | nil => exact Alone.pure Ended.nil
  | cons uploadId rest ih =>
    -- after this candidate, the rest of the loop goes on from what it left
    have hrest (ended : Bool) {s₁ : Shared} (h₁ : Ended c now [uploadId] s s₁) :
        Alone clock t (do
          release [uploadLock uploadId]
          expireCandidates c now rest (if ended then expired + 1 else expired))
          (fun _ s' => Ended c now (uploadId :: rest) s s') (fun _ _ => True) s₁ := by
      refine Alone.bind (Q := fun _ s' => s'.db = s₁.db) (Alone.release _ rfl) ?_
      intro _ s₂ hdb
      have hunique₂ : UniqueOn UploadRow.id s₂.db.uploads := by
        rw [hdb, h₁.uploads]
        exact hunique.filter _
      exact Alone.mono (ih _ hunique₂) (fun _ s' h => (h₁.of_db hdb).trans h) fun _ _ h => h
    refine Alone.bind (Q := fun _ s' => s'.db = s.db) (Alone.acquire _ fun _ => rfl) ?_
    intro _ s₁ hdb
    refine Alone.bind (Q := fun r s' => s₁ = s' ∧ s₁.db.upload uploadId = r)
      (Alone.query (fun r h => ⟨rfl, pure_eq_ok.mp h⟩) fun _ _ => trivial) ?_
    rintro r _ ⟨rfl, hr⟩
    have hskip (h : ∀ u ∈ s₁.db.uploads, u.id = uploadId → u.overdue c now = false) :
        Ended c now [uploadId] s s₁ := by
      refine Ended.of_db (Ended.skip ?_) hdb
      rwa [← hdb]
    cases r with
    | none =>
      refine hrest false (hskip fun u hu hid => absurd hid (upload_none hr u hu))
    | some u =>
      obtain ⟨hu, hid⟩ := Db.upload_some hr
      have hone : ∀ r ∈ s₁.db.uploads, r.id = uploadId → r = u := by
        intro r hmem hrid
        have hunique₁ : UniqueOn UploadRow.id s₁.db.uploads := by rwa [hdb]
        exact hunique₁.eq_of_mem hmem hu (hrid.trans hid.symm)
      dsimp only
      split
      · next hcompleted =>
        refine hrest false (hskip fun r hmem hrid => ?_)
        rw [hone r hmem hrid]
        simp [UploadRow.overdue, UploadRowStatus.active, hcompleted]
      · next hactive =>
        refine Alone.check_bind (fun past hpast => ?_) fun _ _ => trivial
        have hdue := isExpired_ok hpast
        cases past with
        | false =>
          refine hrest false (hskip fun r hmem hrid => ?_)
          rw [hone r hmem hrid, UploadRow.overdue, ← hdue, Bool.and_false]
        | true =>
          rw [← hid] at hr
          refine Alone.bind (alone_terminalizeUploadLocked hr) ?_
          rintro _ s₂ ⟨terminalAt, hdb₂⟩
          refine hrest true ?_
          rw [← hid]
          rw [hdb] at hu hdb₂
          refine Ended.ends hunique hu ?_ hdb₂
          rw [UploadRow.overdue, ← hdue, Bool.and_true]
          simpa [UploadRowStatus.active] using hactive

/-- The uploads the pass selects by the text of their deadlines. -/
def Db.expiryCandidates (db : Db) (nowText : String) : List String :=
  (db.uploads.filter fun r => r.status.active && decide (r.expiresAt ≤ nowText)).map UploadRow.id

/-- **`alone_expireUploadsAt`** — a pass that succeeds ends the candidates that are overdue. -/
theorem alone_expireUploadsAt (hunique : UniqueOn UploadRow.id s.db.uploads) :
    Alone clock t (expireUploadsAt c now)
      (fun _ s' => ∃ nowText, c.formatRfc3339 now = some nowText ∧
        Ended c now (s.db.expiryCandidates nowText) s s') (fun _ _ => True) s := by
  refine Alone.check_bind (fun nowText hformat => ?_) fun _ _ => trivial
  refine Alone.bind (Q := fun ids s' => s = s' ∧ ids = s.db.expiryCandidates nowText)
    (Alone.query (fun ids h => ⟨rfl, (pure_eq_ok.mp h).symm⟩) fun _ _ => trivial) ?_
  rintro ids _ ⟨rfl, rfl⟩
  exact Alone.mono (alone_expireCandidates _ 0 hunique)
    (fun _ s' h => ⟨nowText, okOr_eq_ok.mp hformat, h⟩) fun _ _ h => h

/-! ## §2 — Exactly the uploads that are late. -/

/-- The overdue uploads are ended, each with an audit of this pass that says they have expired, if
it had none before, and no other upload is touched. -/
def ExpiresExactly (c : Crates) (now : OffsetDateTime) (s s' : Shared) : Prop :=
  (∀ u ∈ s.db.uploads, u.overdue c now = true →
    (∀ r ∈ s'.db.uploads, r.id ≠ u.id) ∧ ∃ a ∈ s'.db.uploadAudits, a.uploadId = u.id ∧
      (a ∈ s.db.uploadAudits ∨ a.terminalReason = .expired)) ∧
  ∀ u ∈ s.db.uploads, u.overdue c now = false → u ∈ s'.db.uploads

/-- Every overdue upload is late by its text, too. -/
def LateByText (c : Crates) (now : OffsetDateTime) (nowText : String) (s : Shared) : Prop :=
  ∀ u ∈ s.db.uploads, u.overdue c now = true → u.expiresAt ≤ nowText

/-- An upload is a candidate when it is active and its text is late. -/
theorem mem_expiryCandidates {db : Db} (hunique : UniqueOn UploadRow.id db.uploads) {u : UploadRow}
    (hu : u ∈ db.uploads) {nowText : String} :
    u.id ∈ db.expiryCandidates nowText ↔ u.status.active = true ∧ u.expiresAt ≤ nowText := by
  constructor
  · intro h
    obtain ⟨r, hr, hid⟩ := List.mem_map.mp h
    obtain ⟨hmem, hlate⟩ := List.mem_filter.mp hr
    rw [hunique.eq_of_mem hmem hu hid, Bool.and_eq_true, decide_eq_true_eq] at hlate
    exact hlate
  · rintro ⟨hactive, hlate⟩
    refine List.mem_map.mpr ⟨u, List.mem_filter.mpr ⟨hu, ?_⟩, rfl⟩
    rw [Bool.and_eq_true, decide_eq_true_eq]
    exact ⟨hactive, hlate⟩

/-- What is left after a pass: the uploads that are not overdue, and those whose text is not
late. -/
theorem Ended.mem_iff {nowText : String} (hunique : UniqueOn UploadRow.id s.db.uploads)
    (h : Ended c now (s.db.expiryCandidates nowText) s s') {u : UploadRow} (hu : u ∈ s.db.uploads) :
    u ∈ s'.db.uploads ↔ (u.overdue c now = true → ¬ u.expiresAt ≤ nowText) := by
  rw [h.uploads, List.mem_filter, and_iff_right hu, Bool.not_eq_true', ← Bool.not_eq_true,
    Bool.and_eq_true, decide_eq_true_eq, mem_expiryCandidates hunique hu, not_and, not_and]
  constructor
  · intro hout hlate
    refine hout hlate ?_
    exact (Bool.and_eq_true_iff.mp hlate).1
  · intro hout hlate _
    exact hout hlate

/-- The pass is exact when no deadline's text hides that it has passed. -/
theorem Ended.exact_iff {nowText : String} (hunique : UniqueOn UploadRow.id s.db.uploads)
    (h : Ended c now (s.db.expiryCandidates nowText) s s') :
    ExpiresExactly c now s s' ↔ LateByText c now nowText s := by
  constructor
  · rintro ⟨hends, -⟩ u hu hlate
    by_contra htext
    exact (hends u hu hlate).1 u ((h.mem_iff hunique hu).mpr fun _ => htext) rfl
  · intro htexts
    refine ⟨fun u hu hlate => ⟨fun r hr hid => ?_, ?_⟩, fun u hu hlate => ?_⟩
    · have hr₀ : r ∈ s.db.uploads := by
        rw [h.uploads] at hr
        exact List.mem_of_mem_filter hr
      obtain rfl := hunique.eq_of_mem hr₀ hu hid
      exact (h.mem_iff hunique hu).mp hr hlate (htexts r hu hlate)
    · have hcandidate : u.id ∈ s.db.expiryCandidates nowText :=
        (mem_expiryCandidates hunique hu).mpr
          ⟨(Bool.and_eq_true_iff.mp hlate).1, htexts u hu hlate⟩
      obtain ⟨a, ha, hid⟩ := h.audited u hu hlate hcandidate
      exact ⟨a, ha, hid, h.reasons a ha⟩
    · refine (h.mem_iff hunique hu).mpr fun hlate' => ?_
      rw [hlate] at hlate'
      exact absurd hlate' Bool.false_ne_true

/-! ## §3 — The upload a creation hands back. -/

theorem alone_uploadArtifactStatus (uploadId : String) (artifact : UploadArtifactRow) :
    Alone clock t (uploadArtifactStatus uploadId artifact) (fun _ s' => s = s')
      (fun _ _ => True) s := by
  unfold uploadArtifactStatus
  refine Alone.check_bind (fun artifactIndex _ => ?_) fun _ _ => trivial
  refine Alone.check_bind (fun count _ => ?_) fun _ _ => trivial
  refine Alone.bind (Q := fun _ s' => s = s')
    (Alone.query (fun _ _ => rfl) fun _ _ => trivial) ?_
  rintro rows _ rfl
  refine Alone.check_bind (fun bitmap _ => ?_) fun _ _ => trivial
  refine Alone.check_bind (fun originalSizeBytes _ => ?_) fun _ _ => trivial
  refine Alone.check_bind (fun storedSizeBytes _ => ?_) fun _ _ => trivial
  exact Alone.pure rfl

theorem alone_uploadArtifactStatusList (uploadId : String) (artifacts : List UploadArtifactRow) :
    Alone clock t (uploadArtifactStatusList uploadId artifacts) (fun _ s' => s = s')
      (fun _ _ => True) s := by
  induction artifacts with
  | nil => exact Alone.pure rfl
  | cons artifact rest ih =>
    refine Alone.bind (alone_uploadArtifactStatus uploadId artifact) ?_
    rintro status _ rfl
    refine Alone.bind ih ?_
    rintro statuses _ rfl
    exact Alone.pure rfl

/-- A response about an upload changes nothing. -/
theorem alone_activeUploadResponse (uploadId : String) :
    Alone clock t (activeUploadResponse uploadId)
      (fun response s' => s = s' ∧ response.uploadId = uploadId) (fun _ _ => True) s := by
  refine Alone.bind (Q := fun r s' => s = s' ∧ s.db.upload uploadId = r)
    (Alone.query (fun r h => ⟨rfl, pure_eq_ok.mp h⟩) fun _ _ => trivial) ?_
  rintro r _ ⟨rfl, hr⟩
  cases r with
  | none => exact Alone.throw trivial
  | some upload =>
    have hid := (Db.upload_some hr).2
    have hstatus : Alone clock t (activeUploadStatusResponse upload)
        (fun response s' => s = s' ∧ response.uploadId = upload.id) (fun _ _ => True) s := by
      refine Alone.bind (Q := fun _ s' => s = s') ?_ ?_
      · refine Alone.bind (Q := fun _ s' => s = s')
          (Alone.query (fun _ _ => rfl) fun _ _ => trivial) ?_
        rintro rows _ rfl
        exact alone_uploadArtifactStatusList _ rows
      rintro artifacts _ rfl
      refine Alone.check_bind (fun chunkSizeBytes _ => ?_) fun _ _ => trivial
      exact Alone.pure ⟨rfl, rfl⟩
    refine Alone.bind hstatus ?_
    rintro response _ ⟨rfl, hresponse⟩
    exact Alone.pure ⟨rfl, hresponse.trans hid⟩

theorem ServerConfig.expiry_pos {config : ServerConfig} (h : config.validate = .ok ()) :
    0 < config.toConfig.uploadExpiry.secs := by
  unfold ServerConfig.validate at h
  simp only [throw_bind, ite_throw_eq_ok, not_not, not_or, not_lt, bind_eq_ok] at h
  obtain ⟨-, -, -, -, -, -, -, -, -, -, -, -, _, -, -, ⟨hexpiry, -⟩, -⟩ := h
  have hbound : 60000000000 ≤ 1000000000 * config.uploadExpiry.secs + config.uploadExpiry.nanos :=
    not_lt.mp hexpiry
  have hnanos := config.uploadExpiry.nanos_lt
  show 0 < config.uploadExpiry.secs
  omega

variable {cfg : Config} {request : CreateUploadRequest}

/-- What a creation asks to persist, after the uploads due before it have been ended. -/
structure Prepared (c : Crates) (cfg : Config) (request : CreateUploadRequest)
    (now : OffsetDateTime) (new : NewUpload) (s s' : Shared) : Prop where
  client : parseUuidText request.clientId "client identifier is not a UUID" = .ok new.clientId
  capture : captureId request = .ok new.captureId
  nowText : c.formatRfc3339 now = some new.now
  expiresAt : c.formatRfc3339 (expirationTime now cfg.uploadExpiry) = some new.expiresAt
  ended : Ended c now (s.db.expiryCandidates new.now) s s'

theorem alone_prepareUpload (n : ℤ) (hunique : UniqueOn UploadRow.id s.db.uploads) :
    Alone (· = n) t (prepareUpload c cfg request)
      (fun new s' => Prepared c cfg request (.utc n) new s s') (fun _ _ => True) s := by
  refine Alone.check_bind (fun clientId hclient => ?_) fun _ _ => trivial
  refine Alone.check_bind (fun captureId hcapture => ?_) fun _ _ => trivial
  refine Alone.check_bind (fun manifest _ => ?_) fun _ _ => trivial
  refine Alone.check_bind (fun layout _ => ?_) fun _ _ => trivial
  refine Alone.bind (Q := fun now s' => s = s' ∧ now = .utc n)
    (Alone.nowUtc fun n' hn => ⟨rfl, congrArg _ hn⟩) ?_
  rintro now _ ⟨rfl, rfl⟩
  refine Alone.check_bind (fun nowText hnow => ?_) fun _ _ => trivial
  refine Alone.check_bind (fun expiresAt hexpires => ?_) fun _ _ => trivial
  refine Alone.bind (Alone.mapErr (alone_expireUploadsAt hunique)) ?_
  rintro _ s₁ ⟨nowText', hformat, hended⟩
  have hnowText := okOr_eq_ok.mp hnow
  obtain rfl := Option.some.inj (hformat.symm.trans hnowText)
  -- the identifiers issued below change no row
  refine Alone.bind (Q := fun _ s' => s'.db = s₁.db) (Alone.freshId fun _ _ _ => rfl) ?_
  intro sessionId s₂ hs₂
  refine Alone.bind (Q := fun _ s' => s'.db = s₁.db) (Alone.freshId fun _ _ _ => hs₂) ?_
  intro uploadId s₃ hs₃
  refine Alone.bind (Q := fun _ s' => s'.db = s₁.db) (Alone.freshId fun _ _ _ => hs₃) ?_
  intro manifestId s₄ hs₄
  exact Alone.pure ⟨hclient, hcapture, hnowText, okOr_eq_ok.mp hexpires, hended.of_db hs₄⟩

/-- A new upload is not due at the time it is made. -/
theorem newUploadRow_not_due (hreads : c.Rfc3339Reads) (hpositive : 0 < cfg.uploadExpiry.secs)
    {new : NewUpload} {sessionId : String} {row : UploadRow}
    (hexpires : c.formatRfc3339 (expirationTime now cfg.uploadExpiry) = some new.expiresAt)
    (hrow : newUploadRow c cfg new sessionId = .ok row) : row.overdue c now = false := by
  have hexpiresAt : row.expiresAt = new.expiresAt := (newUploadRow_ok hrow).2.2.2.2.2.2.2.2.2.2
  have hparse := hreads.parse_format _ _ hexpires
  have hlater : ¬ (expirationTime now cfg.uploadExpiry).nanos ≤ now.nanos := by
    show ¬ now.nanos + 1000000000 * (cfg.uploadExpiry.secs : ℤ) ≤ now.nanos
    omega
  unfold UploadRow.overdue UploadRow.due
  rw [hexpiresAt, hparse]
  simp [hlater]

/-- The upload a capture identity is bound to. -/
theorem uploadByCapture_eq_some {db : Db}
    (hunique : UniqueOn (fun r => (r.ownerNamespace, r.clientId, r.captureId)) db.uploads)
    {clientId captureId : String} {u : UploadRow} :
    db.uploadByCapture clientId captureId = some u ↔
      u ∈ db.uploads ∧ u.ownerNamespace = ownerNamespace ∧ u.clientId = clientId ∧
        u.captureId = captureId := by
  constructor
  · intro h
    exact ⟨List.mem_of_find?_eq_some h, by simpa using List.find?_some h⟩
  · rintro ⟨hu, hkey⟩
    cases hfound : db.uploadByCapture clientId captureId with
    | none =>
      have hmiss := List.find?_eq_none.mp hfound u hu
      simp [hkey] at hmiss
    | some r =>
      have hr : r ∈ db.uploads := List.mem_of_find?_eq_some hfound
      have hrkey := List.find?_some hfound
      simp only [decide_eq_true_eq] at hrkey
      have heq : r = u := by
        refine hunique.eq_of_mem hr hu ?_
        simp only [hkey, hrkey]
      rw [heq]

/-- The uploads of a creation that succeeds: the one it hands back is bound to the request's
capture identity already, or is new. -/
theorem alone_createUpload (n : ℤ) (hunique : UniqueOn UploadRow.id s.db.uploads) :
    Alone (· = n) t (createUpload c cfg request)
      (fun r s' => ∃ new s₁, Prepared c cfg request (.utc n) new s s₁ ∧
        ((∃ existing, s₁.db.uploadByCapture new.clientId new.captureId = some existing ∧
            r.2.uploadId = existing.id ∧ s'.db.uploads = s₁.db.uploads) ∨
          ∃ sessionId row, s₁.db.uploadByCapture new.clientId new.captureId = none ∧
            newUploadRow c cfg new sessionId = .ok row ∧ r.2.uploadId = row.id ∧
            (∀ u ∈ s₁.db.uploads, u.id ≠ row.id) ∧
            s'.db.uploads = s₁.db.uploads ++ [row]))
      (fun _ _ => True) s := by
  refine Alone.bind (alone_prepareUpload n hunique) ?_
  intro new s₁ hprepared
  refine Alone.bind (Q := fun (created : CreatedUpload) s' =>
      (∃ existing, s₁.db.uploadByCapture new.clientId new.captureId = some existing ∧
        created.uploadId = existing.id ∧ s'.db.uploads = s₁.db.uploads) ∨
      ∃ sessionId row, s₁.db.uploadByCapture new.clientId new.captureId = none ∧
        newUploadRow c cfg new sessionId = .ok row ∧ created.uploadId = row.id ∧
        (∀ u ∈ s₁.db.uploads, u.id ≠ row.id) ∧ s'.db.uploads = s₁.db.uploads ++ [row])
    (Alone.transaction (fun created db _ h => ?_) (fun _ _ _ => trivial) fun _ => trivial) ?_
  · obtain ⟨sessionId, db₁, hsession, -, hcase⟩ := persistUpload_ok h
    have huploads : db₁.uploads = s₁.db.uploads := by
      rw [getOrCreateSession_frame hsession]
    have hbound : db₁.uploadByCapture new.clientId new.captureId =
        s₁.db.uploadByCapture new.clientId new.captureId := by
      unfold Db.uploadByCapture
      rw [huploads]
    rw [hbound] at hcase
    rcases hcase with ⟨existing, hexisting, -, rfl, rfl⟩ |
      ⟨hnone, hfresh, rfl, row, hrow, hdetail⟩
    · exact Or.inl ⟨existing, hexisting, rfl, huploads⟩
    · have hid : row.id = new.uploadId := (newUploadRow_ok hrow).1
      obtain ⟨rows, -, -, rfl, -⟩ := persistNewUploadDetail_ok hdetail
      refine Or.inr ⟨sessionId, row, hnone, hrow, hid.symm, ?_, ?_⟩
      · rw [← huploads, hid]
        exact upload_none hfresh
      · rw [← huploads]
  · intro created s₂ hcreated
    refine Alone.bind (alone_activeUploadResponse created.uploadId) ?_
    rintro response _ ⟨rfl, hresponse⟩
    refine Alone.pure ⟨new, s₁, hprepared, ?_⟩
    rw [hresponse]
    exact hcreated

/-- The upload handed back is active and overdue. -/
def HandsBackOverdue (c : Crates) (now : OffsetDateTime) (response : UploadResponse)
    (s' : Shared) : Prop :=
  ∃ u ∈ s'.db.uploads, u.id = response.uploadId ∧ u.overdue c now = true

/-- The request's capture identity is bound to an overdue upload that is not late by its text. -/
def BoundToUnseen (c : Crates) (request : CreateUploadRequest) (now : OffsetDateTime)
    (nowText : String) (s : Shared) : Prop :=
  ∃ clientId capture u,
    parseUuidText request.clientId "client identifier is not a UUID" = .ok clientId ∧
    captureId request = .ok capture ∧ s.db.uploadByCapture clientId capture = some u ∧
    u.overdue c now = true ∧ ¬ u.expiresAt ≤ nowText

/-- **`expiry_exact_iff`** — a pass is exact when every overdue upload is late by its text, and a
creation hands back an overdue upload when that is one the text does not show as late. -/
theorem expiry_exact_iff {config : ServerConfig} (hconfig : config.validate = .ok ())
    (hreads : c.Rfc3339Reads) (hunique : s.db.Unique) {nowText : String}
    (hformat : c.formatRfc3339 now = some nowText) :
    (∀ expired, (expireUploadsAt c now).run.Returns (quiet fun _ => True) t s (.ok expired) s' →
      (ExpiresExactly c now s s' ↔ LateByText c now nowText s)) ∧
    ∀ n r, now = .utc n →
      (createUpload c config.toConfig request).run.Returns (quiet (· = n)) t s (.ok r) s' →
      (HandsBackOverdue c now r.2 s' ↔ BoundToUnseen c request now nowText s) := by
  constructor
  · intro expired hreturns
    obtain ⟨nowText', hnow, hended⟩ := Alone.returns (alone_expireUploadsAt hunique.uploads)
      hreturns
    obtain rfl := Option.some.inj (hnow.symm.trans hformat)
    exact hended.exact_iff hunique.uploads
  rintro n r rfl hreturns
  obtain ⟨new, s₁, hprepared, hcase⟩ := Alone.returns (alone_createUpload n hunique.uploads)
    hreturns
  have hended := hprepared.ended
  obtain rfl := Option.some.inj (hprepared.nowText.symm.trans hformat)
  have hsub : ∀ u ∈ s₁.db.uploads, u ∈ s.db.uploads := by
    intro u hu
    rw [hended.uploads] at hu
    exact List.mem_of_mem_filter hu
  have hcaptures₁ : UniqueOn (fun r => (r.ownerNamespace, r.clientId, r.captureId))
      s₁.db.uploads := by
    rw [hended.uploads]
    exact hunique.captureIds.filter _
  constructor
  · rintro ⟨u, hu, hid, hlate⟩
    rcases hcase with ⟨existing, hexisting, hresponse, huploads⟩ |
      ⟨sessionId, row, -, hrow, hresponse, hfresh, huploads⟩
    · obtain ⟨hmem, -⟩ := (uploadByCapture_eq_some hcaptures₁).mp hexisting
      rw [huploads] at hu
      -- the upload found is the one the capture identity is bound to, and the pass left it
      obtain rfl := hunique.uploads.eq_of_mem (hsub u hu) (hsub existing hmem)
        (hid.trans hresponse)
      refine ⟨new.clientId, new.captureId, u, hprepared.client, hprepared.capture, ?_, hlate,
        (hended.mem_iff hunique.uploads (hsub u hu)).mp hu hlate⟩
      obtain ⟨-, hkey⟩ := (uploadByCapture_eq_some hcaptures₁).mp hexisting
      exact (uploadByCapture_eq_some hunique.captureIds).mpr ⟨hsub u hu, hkey⟩
    · rw [huploads] at hu
      rcases List.mem_append.mp hu with hold | hnew
      · exact absurd (hid.trans hresponse) (hfresh u hold)
      · obtain rfl := List.mem_singleton.mp hnew
        have hnotDue := newUploadRow_not_due hreads (ServerConfig.expiry_pos hconfig)
          hprepared.expiresAt hrow
        rw [hnotDue] at hlate
        exact absurd hlate Bool.false_ne_true
  · rintro ⟨clientId, capture, u, hclient, hcapture, hbound, hlate, htext⟩
    obtain rfl := Except.ok.inj (hprepared.client.symm.trans hclient)
    obtain rfl := Except.ok.inj (hprepared.capture.symm.trans hcapture)
    obtain ⟨hu, hkey⟩ := (uploadByCapture_eq_some hunique.captureIds).mp hbound
    have hu₁ : u ∈ s₁.db.uploads := (hended.mem_iff hunique.uploads hu).mpr fun _ => htext
    have hbound₁ := (uploadByCapture_eq_some hcaptures₁).mpr ⟨hu₁, hkey⟩
    rcases hcase with ⟨existing, hexisting, hresponse, huploads⟩ | ⟨_, _, hnone, -⟩
    · obtain rfl := Option.some.inj (hbound₁.symm.trans hexisting)
      refine ⟨u, ?_, hresponse.symm, hlate⟩
      rw [huploads]
      exact hu₁
    · rw [hbound₁] at hnone
      simp at hnone

/-- Four times around a minute: the last two have a fraction of a second. -/
def minuteTimes : List (ℤ × String) :=
  [(1767225600000000000, "2026-01-01T00:00:00Z"), (1767225660000000000, "2026-01-01T00:01:00Z"),
    (1767225660500000000, "2026-01-01T00:01:00.5Z"),
    (1767225720500000000, "2026-01-01T00:02:00.5Z")]

def minuteCrates : Crates :=
  { sampleCrates with
    parseRfc3339 := fun text => ((minuteTimes.map Prod.swap).lookup text).map .utc
    formatRfc3339 := fun t => if t.offsetSeconds = 0 then minuteTimes.lookup t.nanos else none }

def minuteConfig : ServerConfig := { defaultConfig with uploadExpiry := .fromMins 1 }

/-- An upload that expires when the minute begins. -/
def minuteUpload : UploadRow where
  id := sampleUuid 1
  ownerNamespace := ownerNamespace
  sessionId := sampleUuid 2
  clientId := sampleClientId
  captureId := "capture"
  manifestSha256 := sampleManifestDigest
  status := .created
  snapshotId := none
  createdAt := "2026-01-01T00:00:00Z"
  completedAt := none
  chunkSizeBytes := 4
  chunkCount := 1
  declaredStoredSizeBytes := 1
  declaredOriginalSizeBytes := 1
  expiresAt := "2026-01-01T00:01:00Z"
  artifactCount := 1
  totalStoredSizeBytes := 1
  totalOriginalSizeBytes := 1
  transferBytes := 0
  newlyPersistedBytes := 0

def minuteState : Shared :=
  { Shared.init with
    db := { Db.empty with
      clients := [⟨sampleClientId, ownerNamespace, none, none, "{}", "2026-01-01T00:00:00Z",
        "2026-01-01T00:00:00Z"⟩]
      uploads := [minuteUpload] } }

def minuteRequest : CreateUploadRequest := ⟨sampleClientId, some "capture", none, sampleManifest⟩

/-- The minute, and half a second later. -/
def minute : OffsetDateTime := .utc 1767225660000000000
def halfSecondLater : OffsetDateTime := .utc 1767225660500000000

theorem minuteInputs_ok (now : ℤ) (count : ℕ) (hcount : count ≤ 200) :
    ∀ e ∈ (List.range count).map fun k => (⟨now, sampleUuid (10 + k), none⟩ : Env),
      IsUuidV7 e.uuid ∧ e.fault = none ∧ e.now = now := by
  intro e he
  obtain ⟨k, hk, rfl⟩ := List.mem_map.mp he
  have hlt := List.mem_range.mp hk
  exact ⟨isUuidV7_sampleUuid (by omega), rfl, rfl⟩

theorem minuteCrates_rfc3339Reads : minuteCrates.Rfc3339Reads := by
  have hentries : ∀ p ∈ minuteTimes, (minuteTimes.map Prod.swap).lookup p.2 = some p.1 ∧
      p.2.length ≤ 30 ∧
      (∀ ch ∈ p.2.toList, ch.isDigit = true ∨ ch ∈ ['-', ':', '.', 'T', 'Z']) ∧
      -62167219200000000000 ≤ p.1 ∧ p.1 < 253402300800000000000 := by
    decide +kernel
  have hall := fun t s (h : minuteCrates.formatRfc3339 (.utc t) = some s) =>
    hentries (t, s) (Crates.mem_of_lookup h)
  have hparse : ∀ t s, minuteCrates.formatRfc3339 t = some s →
      minuteCrates.parseRfc3339 s = some t := by
    rintro ⟨nanos, offset⟩ s h
    have hoffset : offset = 0 := by
      by_contra hne
      simp [minuteCrates, hne] at h
    subst hoffset
    exact congrArg (Option.map OffsetDateTime.utc) (hall nanos s h).1
  exact
    { parse_format := hparse
      length_format := fun t s h => (hall t s h).2.1
      chars_format := fun t s h => (hall t s h).2.2.1
      range_format := fun t s h => (hall t s h).2.2.2 }

/-- What a request does alone in that state at one time. -/
def minuteRun {α : Type} (now : ℤ) (count : ℕ) (p : Handler ApiError α) :
    Option (Except ApiError α × Shared) :=
  replayAlone 0 ((List.range count).map fun k => ⟨now, sampleUuid (10 + k), none⟩) p minuteState

theorem minuteRun_returns {α : Type} (now : ℤ) (count : ℕ) (p : Handler ApiError α)
    (f : α → Shared → Bool)
    (h : (minuteRun now count p).any (fun r => r.1.toOption.any fun a => f a r.2) = true)
    (hcount : count ≤ 200) :
    ∃ a s', p.run.Returns (quiet (· = now)) 0 minuteState (.ok a) s' ∧ f a s' = true := by
  obtain ⟨⟨r, s'⟩, hreplay, hr⟩ := (Option.any_eq_true _ _).mp h
  cases r with
  | ok a => exact ⟨a, s', returns_of_replay (minuteInputs_ok now count hcount) hreplay, hr⟩
  | error e => exact absurd hr Bool.false_ne_true

/-- At the minute itself the upload's text is late, so the pass is exact. -/
theorem expiry_exact_iff_minute :
    ∃ expired s', (expireUploadsAt minuteCrates minute).run.Returns (quiet fun _ => True) 0
        minuteState (.ok expired) s' ∧
      ExpiresExactly minuteCrates minute minuteState s' := by
  obtain ⟨expired, s', hreturns, -⟩ := minuteRun_returns minute.nanos 7
    (expireUploadsAt minuteCrates minute) (fun n _ => decide (n = 1)) (by decide +kernel)
    (by norm_num)
  have hreturns : (expireUploadsAt minuteCrates minute).run.Returns (quiet fun _ => True) 0
      minuteState (.ok expired) s' :=
    hreturns.mono fun _ _ he => ⟨he.1, he.2.1, trivial⟩
  have hconfig : minuteConfig.validate = .ok () := by decide +kernel
  -- no table of the state has more than one row
  have hunique : minuteState.db.Unique := by
    constructor <;> first | exact List.nodup_nil | exact List.nodup_singleton _
  have hlate : LateByText minuteCrates minute "2026-01-01T00:01:00Z" minuteState := by
    intro u hu _
    obtain rfl := List.mem_singleton.mp hu
    decide +kernel
  have hexact := @expiry_exact_iff minuteCrates minute 0 minuteState s' minuteRequest minuteConfig
    hconfig minuteCrates_rfc3339Reads hunique "2026-01-01T00:01:00Z" (by decide +kernel)
  exact ⟨expired, s', hreturns, (hexact.1 expired hreturns).mpr hlate⟩

/-- Half a second later its text is not: the pass leaves the upload, and a creation hands it
back. -/
theorem expiry_not_exact :
    (∃ expired s', (expireUploadsAt minuteCrates halfSecondLater).run.Returns
        (quiet (· = halfSecondLater.nanos)) 0 minuteState (.ok expired) s' ∧
      ¬ ExpiresExactly minuteCrates halfSecondLater minuteState s') ∧
    ∃ r s', (createUpload minuteCrates minuteConfig.toConfig minuteRequest).run.Returns
        (quiet (· = halfSecondLater.nanos)) 0 minuteState (.ok r) s' ∧
      HandsBackOverdue minuteCrates halfSecondLater r.2 s' := by
  have hlate : minuteUpload.overdue minuteCrates halfSecondLater = true := by decide +kernel
  constructor
  · obtain ⟨expired, s', hreturns, hkept⟩ := minuteRun_returns halfSecondLater.nanos 1
      (expireUploadsAt minuteCrates halfSecondLater)
      (fun _ s' => s'.db.uploads.any fun u => decide (u.id = minuteUpload.id)) (by decide +kernel)
      (by norm_num)
    obtain ⟨u, hu, hid⟩ := List.any_eq_true.mp hkept
    refine ⟨expired, s', hreturns, fun hexact => ?_⟩
    exact (hexact.1 minuteUpload List.mem_cons_self hlate).1 u hu (of_decide_eq_true hid)
  · obtain ⟨r, s', hreturns, hfound⟩ := minuteRun_returns halfSecondLater.nanos 8
      (createUpload minuteCrates minuteConfig.toConfig minuteRequest)
      (fun a s' => s'.db.uploads.any fun u =>
        decide (u.id = a.2.uploadId) && u.overdue minuteCrates halfSecondLater) (by decide +kernel)
      (by norm_num)
    obtain ⟨u, hu, hcheck⟩ := List.any_eq_true.mp hfound
    obtain ⟨hid, hoverdue⟩ := Bool.and_eq_true_iff.mp hcheck
    exact ⟨r, s', hreturns, u, hu, of_decide_eq_true hid, hoverdue⟩

end Patwari
