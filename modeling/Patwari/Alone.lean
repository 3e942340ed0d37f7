/-
# Patwari.Alone — a request with nobody else there and nothing failing.

§1 is what a request that only reads answers in one state. §2 follows a request that also writes: a
condition on what it returns and on the state it leaves, one rule for each kind of action.
-/
import Patwari.Lib.Alone
import Patwari.Server

namespace Patwari

open Lib (Prog System TaskId Routine Discipline)
open Lib.Prog (Answers AnswersE)

/-! ## §1 — Answers. -/

/-- What the environment supplies to a request when nothing fails, at one time of the clock. -/
def Calm (now : ℤ) (e : Env) : Prop := e.fault = none ∧ e.now = now

theorem Calm.exists (now : ℤ) : ∃ e, Calm now e := ⟨⟨now, "", none⟩, rfl, rfl⟩

section Answers

variable {κ α β : Type} {now : ℤ} {t : TaskId} {s : Shared}

theorem answers_query {onFault : κ} {f : Db → Except κ α} :
    AnswersE (Calm now) t s (query onFault f) (f s.db) :=
  Answers.atomic fun e he => by simp only [he.1]

theorem answers_check {x : Except κ α} : AnswersE (Calm now) t s (check x) x := rfl

theorem answers_pure {a : α} : AnswersE (Calm now) t s (pure a : Handler κ α) (.ok a) := rfl

theorem answers_throw {e : κ} : AnswersE (Calm now) t s (throw e : Handler κ α) (.error e) := rfl

/-- A check that must pass. -/
theorem answers_check_bind {x : Except κ α} {f : α → Handler κ β} {a : α} {r : Except κ β}
    (hx : x = .ok a) (hf : AnswersE (Calm now) t s (f a) r) :
    AnswersE (Calm now) t s (check x >>= f) r := by
  subst hx
  exact hf

/-- A read followed by what depends on it. -/
theorem answers_query_bind {onFault : κ} {g : Db → Except κ α} {f : α → Handler κ β} {a : α}
    {r : Except κ β} (hg : g s.db = .ok a) (hf : AnswersE (Calm now) t s (f a) r) :
    AnswersE (Calm now) t s (query onFault g >>= f) r := by
  have hread : AnswersE (Calm now) t s (query onFault g) (g s.db) := answers_query
  rw [hg] at hread
  exact hread.bind hf

end Answers

/-! ## §2 — Writing alone. -/

/-- The service while nothing reports an error and the clock shows certain times only. -/
def quiet (clock : ℤ → Prop) : System Label Env Shared :=
  { system with envOk := fun e s => system.envOk e s ∧ e.fault = none ∧ clock e.now }

/-- Run alone from `s`, what the request returns meets `Q` in the state it leaves, or `E` when it
is an error. -/
def Alone {κ α : Type} (clock : ℤ → Prop) (t : TaskId) (p : Handler κ α) (Q : α → Shared → Prop)
    (E : κ → Shared → Prop) (s : Shared) : Prop :=
  Routine.free.RunsE (quiet clock) t p Q E s

namespace Alone

variable {κ κ' α β : Type} {clock : ℤ → Prop} {t : TaskId} {s : Shared} {Q : α → Shared → Prop}
  {E : κ → Shared → Prop}

theorem returns {p : Handler κ α} {r : Except κ α} {s' : Shared} (h : Alone clock t p Q E s)
    (hreturns : p.run.Returns (quiet clock) t s r s') : Discipline.outcome Q E r s' :=
  Routine.Runs.returns h trivial hreturns

theorem pure {a : α} (h : Q a s) : Alone clock t (Pure.pure a) Q E s := h

theorem throw {e : κ} (h : E e s) : Alone clock t (MonadExcept.throw e : Handler κ α) Q E s := h

theorem bind {p : Handler κ α} {f : α → Handler κ β} {Q' : β → Shared → Prop}
    (h : Alone clock t p Q E s) (hf : ∀ a s', Q a s' → Alone clock t (f a) Q' E s') :
    Alone clock t (p >>= f) Q' E s :=
  Routine.RunsE.bind h trivial fun a s' _ _ hq => hf a s' hq

theorem mono {p : Handler κ α} {Q' : α → Shared → Prop} {E' : κ → Shared → Prop}
    (h : Alone clock t p Q E s) (hQ : ∀ a s, Q a s → Q' a s) (hE : ∀ e s, E e s → E' e s) :
    Alone clock t p Q' E' s :=
  Routine.RunsE.mono h trivial (fun a s _ => hQ a s) fun e s _ => hE e s

theorem check {x : Except κ α} (hok : ∀ a, x = .ok a → Q a s) (herr : ∀ e, x = .error e → E e s) :
    Alone clock t (Patwari.check x) Q E s := by
  cases x with
  | ok a => exact hok a rfl
  | error e => exact herr e rfl

theorem check_bind {x : Except κ α} {f : α → Handler κ β} {Q : β → Shared → Prop}
    (hok : ∀ a, x = .ok a → Alone clock t (f a) Q E s) (herr : ∀ e, x = .error e → E e s) :
    Alone clock t (Patwari.check x >>= f) Q E s := by
  cases x with
  | ok a => exact hok a rfl
  | error e => exact herr e rfl

theorem orFail {e : κ} {x : Except IoError α} (hok : ∀ a, x = .ok a → Q a s)
    (herr : ∀ e', x = .error e' → E e s) : Alone clock t (Patwari.orFail e x) Q E s := by
  cases x with
  | ok a => exact hok a rfl
  | error e' => exact herr e' rfl

theorem query {onFault : κ} {f : Db → Except κ α} (hok : ∀ a, f s.db = .ok a → Q a s)
    (herr : ∀ e, f s.db = .error e → E e s) : Alone clock t (Patwari.query onFault f) Q E s := by
  intro e he _
  refine ⟨trivial, ?_⟩
  simp only [he.2.1]
  cases hf : f s.db with
  | ok a => exact hok a hf
  | error err => exact herr err hf

theorem transaction {w : Write} {onFault : Fault → κ} {ids : List String}
    {accepted : List AcceptedChunk} {f : Db → Except κ (α × Db)}
    (hok : ∀ a db, s.writer = none → f s.db = .ok (a, db) →
      Q a { s with db := db, used := ids ++ s.used, accepted := accepted ++ s.accepted })
    (herr : ∀ e, s.writer = none → f s.db = .error e → E e s)
    (hbusy : s.writer ≠ none → E (onFault .contended) s) :
    Alone clock t (Patwari.transaction w onFault ids accepted f) Q E s := by
  intro e he _
  refine ⟨trivial, ?_⟩
  simp only [he.2.1]
  by_cases hwriter : s.writer.isSome
  · simp only [hwriter, if_true]
    exact hbusy fun hnone => by simp [hnone] at hwriter
  · have hnone : s.writer = none := by simpa using hwriter
    simp only [hwriter, Bool.false_eq_true, if_false]
    cases hf : f s.db with
    | ok r => exact hok r.1 r.2 hnone hf
    | error err => exact herr err hnone hf

variable {Q : Unit → Shared → Prop}

theorem acquire (l : Lock) (h : s.free l = true → Q () { s with locks := (l, t) :: s.locks }) :
    Alone clock t (liftM (Patwari.acquire l) : Handler κ Unit) Q E s :=
  fun _ _ hen => ⟨trivial, h hen⟩

theorem release (ls : List Lock) (h : Q () { s with
      locks := s.locks.filter fun h => !(decide (h.2 = t) && decide (h.1 ∈ ls)) }) :
    Alone clock t (liftM (Patwari.release ls) : Handler κ Unit) Q E s :=
  fun _ _ _ => ⟨trivial, h⟩

theorem nowUtc {Q : OffsetDateTime → Shared → Prop} (h : ∀ n, clock n → Q (.utc n) s) :
    Alone clock t (liftM Patwari.nowUtc : Handler κ OffsetDateTime) Q E s :=
  fun e he _ => ⟨trivial, h e.now he.2.2⟩

theorem freshId {Q : String → Shared → Prop}
    (h : ∀ id, IsUuidV7 id → id ∉ s.issued.map Prod.fst →
      Q id { s with issued := (id, t) :: s.issued }) :
    Alone clock t (liftM Patwari.freshId : Handler κ String) Q E s :=
  fun e he _ => ⟨trivial, h e.uuid he.1.1 he.1.2⟩

theorem fileOp {Q : Except IoError Unit → Shared → Prop} {f : FileStore → Except IoError FileStore}
    (hok : ∀ fs, f s.fs = .ok fs → Q (.ok ()) { s with fs := fs })
    (herr : ∀ e, f s.fs = .error e → Q (.error e) s) :
    Alone clock t (liftM (Patwari.fileOp f) : Handler κ (Except IoError Unit)) Q E s := by
  intro e he _
  refine ⟨trivial, ?_⟩
  simp only [he.2.1]
  cases hf : f s.fs with
  | ok fs => exact hok fs hf
  | error err => exact herr err hf

theorem mapErr {f : κ → κ'} {p : Handler κ α} {Q : α → Shared → Prop} {E' : κ' → Shared → Prop}
    (h : Alone clock t p Q (fun e s => E' (f e) s) s) : Alone clock t (Patwari.mapErr f p) Q E'
      s := by
  refine Routine.Runs.bind h trivial fun r s' _ _ hr => ?_
  cases r with
  | ok a => exact hr
  | error e => exact hr

end Alone

/-! ### Runs on given inputs. -/

section Replay

variable {κ α : Type}

/-- What a request run alone on these inputs returns, and the state it leaves. -/
def replayAlone (t : TaskId) (inputs : List Env) (p : Handler κ α) (s : Shared) :
    Option (Except κ α × Shared) :=
  (p.run.replay t freshEnv inputs s).bind fun
    | (.done r, s') => some (r, s')
    | _ => none

theorem returns_of_replay {clock : ℤ → Prop} {t : TaskId} {inputs : List Env} {p : Handler κ α}
    {r : Except κ α} {s s' : Shared}
    (hinputs : ∀ e ∈ inputs, IsUuidV7 e.uuid ∧ e.fault = none ∧ clock e.now)
    (h : replayAlone t inputs p s = some (r, s')) : p.run.Returns (quiet clock) t s r s' := by
  obtain ⟨⟨rest, s₁⟩, hreplay, hdone⟩ := Option.bind_eq_some_iff.mp h
  have hrest : rest = .done r ∧ s₁ = s' := by
    split at hdone
    · next heq =>
      obtain ⟨rfl, rfl⟩ := Prod.mk.inj heq
      obtain ⟨rfl, rfl⟩ := Prod.mk.inj (Option.some.inj hdone)
      exact ⟨rfl, rfl⟩
    · simp at hdone
  obtain ⟨rfl, rfl⟩ := hrest
  refine Prog.steps_of_replay (fun e he s hfresh => ?_) hreplay
  obtain ⟨hid, hfault, hclock⟩ := hinputs e he
  exact ⟨⟨hid, of_decide_eq_true hfresh⟩, hfault, hclock⟩

end Replay

end Patwari
