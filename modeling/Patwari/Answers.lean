/-
# Patwari.Answers — what the answer of a request rests on.

An answer is computed from the states its task has seen, each of them at one action. These are the
rules of `Patwari.Lib.Along` for the actions of the service: whatever is known of every state a task
sees, §1 says what is known of what it has computed from them. §2 cuts a completion at its two looks
for a snapshot, which answers are followed through.
-/
import Patwari.Server
import Patwari.Lib.Along

namespace Patwari

open Lib (Prog TaskId)
open Lib.Prog (Given GivenE returned)

/-! ## §1 — The rules of the actions. -/

variable {κ α : Type} {t : TaskId} {I : Env → Shared → Prop} {Q : α → Prop}

theorem given_check {x : Except κ α} (h : ∀ a, x = .ok a → Q a) :
    GivenE I t (check x) Q fun _ => True := by
  cases x with
  | ok a => exact h a rfl
  | error e => exact trivial

/-- An action that may fail. -/
theorem given_atomic {label : Label} {f : TaskId → Env → Shared → Except κ α × Shared}
    (h : ∀ e s, I e s → ∀ a, (f t e s).1 = .ok a → Q a) :
    GivenE I t (ExceptT.mk (Prog.atomic label f)) Q fun _ => True := by
  intro e s hi
  have hresult := h e s hi
  show returned Q (fun _ => True) (f t e s).1
  generalize (f t e s).1 = x at hresult ⊢
  cases x with
  | ok a => exact hresult a rfl
  | error err => exact trivial

theorem given_query {onFault : κ} {f : Db → Except κ α}
    (h : ∀ e s, I e s → ∀ a, f s.db = .ok a → Q a) : GivenE I t (query onFault f) Q fun _ =>
      True := by
  apply given_atomic
  rintro ⟨now, uuid, fault⟩ s hi a ha
  cases fault with
  | some fault => simp at ha
  | none => exact h _ s hi a ha

theorem given_fileRead {onFault : κ} {f : FileStore → Except κ α}
    (h : ∀ e s, I e s → ∀ a, f s.fs = .ok a → Q a) :
    GivenE I t (fileRead onFault f) Q fun _ => True := by
  apply given_atomic
  rintro ⟨now, uuid, fault⟩ s hi a ha
  cases fault with
  | some fault => simp at ha
  | none => exact h _ s hi a ha

/-- What a request answers with when it succeeds. -/
theorem given_respond {failure : κ → Failure} {response : α → Response} {p : Handler κ α}
    (h : GivenE I t p Q fun _ => True) :
    (respond failure response p).Given I t fun outcome =>
      ∀ r, outcome = .ok r → ∃ a, r = response a ∧ Q a := by
  apply Given.bind h
  intro r hr
  cases r with
  | ok a =>
    intro r' hr'
    exact ⟨a, (Except.ok.inj hr').symm, hr⟩
  | error e =>
    intro r' hr'
    simp at hr'

/-! ## §2 — The two looks of a completion. -/

/-- The second look, under the identity lock. The lock is kept with a snapshot that is found. -/
def lookAgain (v : Verified) : Handler ApiError (Option String) := do
  match ← findSnapshotByFingerprint v.upload.sessionId v.fingerprint with
  | some snapshotId => pure (some snapshotId)
  | none => do
    release [snapshotLock v.upload.sessionId v.fingerprint]
    pure none

/-- The first look, without a lock, and the second. -/
def fastPath (v : Verified) : Handler ApiError (Option String) := do
  match ← findSnapshotByFingerprint v.upload.sessionId v.fingerprint with
  | none => pure none
  | some _ => do
    acquire (snapshotLock v.upload.sessionId v.fingerprint)
    lookAgain v

/-- The completion with the snapshot it has found, or without one. -/
def afterFastPath (c : Crates) (cfg : Config) (v : Verified) :
    Option String → Handler ApiError CompletionResponse
  | some snapshotId => do
    cleanupPrepared v.prepared
    finalizeUploadForExistingSnapshot c v.upload v.manifest snapshotId v.transferBytes
    completedResponse c cfg v.upload.id
  | none => do
    let unique := uniqueStoredArtifacts v.prepared
    let locks := blobLocksForDigests (unique.map PreparedArtifact.digest)
    acquireAll locks
    completeUnderBlobLocks c cfg v unique locks

theorem completeVerified_eq (c : Crates) (cfg : Config) (v : Verified) :
    completeVerified c cfg v = (do
      match ← attempt (ensureBlobRepresentationsCompatible v.prepared) with
      | .error error => do
        cleanupPrepared v.prepared
        throw error
      | .ok () => do
        let hit ← fastPath v
        afterFastPath c cfg v hit) := by
  unfold completeVerified
  refine bind_congr fun r => ?_
  cases r with
  | error e => rfl
  | ok u =>
    unfold fastPath lookAgain
    simp only [bind_assoc, afterFastPath.eq_def]
    refine bind_congr fun found => ?_
    cases found with
    | none => simp only [pure_bind]
    | some found =>
      simp only [bind_assoc]
      refine bind_congr fun _ => bind_congr fun again => ?_
      cases again with
      | none => simp only [bind_assoc, pure_bind]
      | some again => simp only [pure_bind]

end Patwari
