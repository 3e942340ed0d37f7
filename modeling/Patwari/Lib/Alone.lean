/-
# Patwari.Lib.Alone — a program that runs alone and may be cut off.

What a process does before it serves requests, one program does by itself: nothing interferes, but
the process may die after any action, and whatever the program has done until then stays. A
`Routine` is an invariant that holds after every action and the steps the program may take; `Runs`
says that a program keeps to them and what holds where it returns. The rules follow the program
text, as those of `Patwari.Lib.Prog` do for programs that run beside others.
-/
import Patwari.Lib.Prog

namespace Patwari.Lib

variable {ℓ ε σ α β κ : Type}

/-- One action of task `t` with nobody else there. -/
inductive Prog.Step (sys : System ℓ ε σ) (t : TaskId) :
    Prog ℓ ε σ α → σ → Prog ℓ ε σ α → σ → Prop
  | act {label : ℓ} {enabled : TaskId → σ → Bool} {run : TaskId → ε → σ → σ}
      {next : TaskId → ε → σ → Prog ℓ ε σ α} {e : ε} {s : σ} (henv : sys.envOk e s)
      (hen : enabled t s = true) :
      Prog.Step sys t (.act label enabled run next) s (next t e s) (run t e s)

/-- Alone from state `s`, the program comes to its end in state `s'` and returns `a`. -/
def Prog.Returns (sys : System ℓ ε σ) (t : TaskId) (p : Prog ℓ ε σ α) (s : σ) (a : α) (s' : σ) :
    Prop :=
  Relation.ReflTransGen (fun x y => x.1.Step sys t x.2 y.1 y.2) (p, s) (.done a, s')

/-- On a system that allows more inputs there is the same run. -/
theorem Prog.Returns.mono {sys sys' : System ℓ ε σ} {t : TaskId} {p : Prog ℓ ε σ α} {s s' : σ}
    {a : α} (h : p.Returns sys t s a s') (hsys : ∀ e s, sys.envOk e s → sys'.envOk e s) :
    p.Returns sys' t s a s' := by
  unfold Prog.Returns at h
  refine h.lift id ?_
  rintro ⟨q, s₁⟩ ⟨q', s₂⟩ hstep
  cases hstep with
  | act henv hen => exact .act (hsys _ _ henv) hen

/-- The rest of the program and the state after actions on these inputs, `none` when an input fails
a check or an action cannot be taken. -/
def Prog.replay (t : TaskId) (check : ε → σ → Bool) :
    List ε → Prog ℓ ε σ α → σ → Option (Prog ℓ ε σ α × σ)
  | [], p, s => some (p, s)
  | e :: rest, .act _ enabled run next, s =>
    if check e s && enabled t s then Prog.replay t check rest (next t e s) (run t e s) else none
  | _ :: _, .done _, _ => none

/-- Inputs that can be replayed are actions of the program. -/
theorem Prog.steps_of_replay {sys : System ℓ ε σ} {t : TaskId} {check : ε → σ → Bool}
    {inputs : List ε} (hcheck : ∀ e ∈ inputs, ∀ s, check e s = true → sys.envOk e s)
    {p p' : Prog ℓ ε σ α} {s s' : σ} (h : p.replay t check inputs s = some (p', s')) :
    Relation.ReflTransGen (fun a b => a.1.Step sys t a.2 b.1 b.2) (p, s) (p', s') := by
  induction inputs generalizing p s with
  | nil =>
    rw [← Option.some.inj h]
  | cons e rest ih =>
    cases p with
    | done a => simp [Prog.replay] at h
    | act label enabled run next =>
      rw [Prog.replay] at h
      split_ifs at h with hok
      obtain ⟨henv, hen⟩ := Bool.and_eq_true_iff.mp hok
      have hrest := ih (fun e' h' => hcheck e' (List.mem_cons_of_mem _ h')) h
      exact hrest.head (.act (hcheck e List.mem_cons_self s henv) hen)

/-! ### Programs that only read. -/

/-- Alone in state `s` and on inputs that are no faults, the program changes nothing and returns
`a`. -/
def Prog.Answers (calm : ε → Prop) (t : TaskId) (s : σ) : Prog ℓ ε σ α → α → Prop
  | .done b, a => b = a
  | .act _ enabled run next, a =>
    enabled t s = true ∧ ∀ e, calm e → run t e s = s ∧ (next t e s).Answers calm t s a

/-- The same for a program that may fail. -/
def Prog.AnswersE (calm : ε → Prop) (t : TaskId) (s : σ) (p : ExceptT κ (Prog ℓ ε σ) α)
    (r : Except κ α) : Prop :=
  p.run.Answers calm t s r

namespace Prog

variable {calm : ε → Prop} {t : TaskId} {s : σ}

theorem Answers.bind {p : Prog ℓ ε σ α} {f : α → Prog ℓ ε σ β} {a : α} {b : β}
    (h : p.Answers calm t s a) (hf : (f a).Answers calm t s b) : (p.bind f).Answers calm t s b := by
  induction p with
  | done a' =>
    obtain rfl : a' = a := h
    exact hf
  | act label enabled run next ih =>
    refine ⟨h.1, fun e he => ⟨(h.2 e he).1, ?_⟩⟩
    exact ih t e s (h.2 e he).2

/-- A program has one answer. -/
theorem Answers.unique {p : Prog ℓ ε σ α} {a a' : α} (hcalm : ∃ e, calm e)
    (h : p.Answers calm t s a) (h' : p.Answers calm t s a') : a = a' := by
  induction p with
  | done b => exact (show b = a from h).symm.trans h'
  | act label enabled run next ih =>
    obtain ⟨e, he⟩ := hcalm
    exact ih t e s (h.2 e he).2 (h'.2 e he).2

theorem Answers.atomic {label : ℓ} {f : TaskId → ε → σ → α × σ} {a : α}
    (h : ∀ e, calm e → f t e s = (a, s)) : (Prog.atomic label f).Answers calm t s a :=
  ⟨rfl, fun e he => ⟨congrArg Prod.snd (h e he), congrArg Prod.fst (h e he)⟩⟩

theorem AnswersE.bind {p : ExceptT κ (Prog ℓ ε σ) α} {f : α → ExceptT κ (Prog ℓ ε σ) β} {a : α}
    {r : Except κ β} (h : AnswersE calm t s p (.ok a)) (hf : AnswersE calm t s (f a) r) :
    AnswersE calm t s (p >>= f) r :=
  Answers.bind h hf

/-- What fails first is the answer. -/
theorem AnswersE.bind_error {p : ExceptT κ (Prog ℓ ε σ) α} {f : α → ExceptT κ (Prog ℓ ε σ) β}
    {e : κ} (h : AnswersE calm t s p (.error e)) : AnswersE calm t s (p >>= f) (.error e) :=
  Answers.bind h rfl

end Prog

/-- An invariant of the state, and steps that keep it. -/
structure Routine (σ : Type) where
  inv : σ → Prop
  guar : σ → σ → Prop
  inv_step : ∀ {s s'}, inv s → guar s s' → inv s'

namespace Routine

/-- The steps of a routine, one after another. -/
def Reach (R : Routine σ) : σ → σ → Prop :=
  Relation.ReflTransGen fun s s' => R.inv s ∧ R.guar s s'

/-- A property no step of the routine breaks. -/
def Persistent (R : Routine σ) (P : σ → Prop) : Prop := ∀ s s', R.inv s → R.guar s s' → P s → P s'

variable {R : Routine σ}

theorem Persistent.of_reach {P : σ → Prop} (h : R.Persistent P) {s s' : σ} (hr : R.Reach s s')
    (hs : P s) : P s' := by
  induction hr with
  | refl => exact hs
  | tail _ hstep ih => exact h _ _ hstep.1 hstep.2 ih

/-- Nothing is asked of the steps. -/
def free : Routine σ := ⟨fun _ => True, fun _ _ => True, fun _ _ => trivial⟩

variable (R) (sys : System ℓ ε σ) (t : TaskId)

/-- **`Runs`** — run by task `t` alone from state `s`, the program takes only steps of the routine,
and what it returns satisfies `Q` in the state it returns in. -/
def Runs : Prog ℓ ε σ α → (α → σ → Prop) → σ → Prop
  | .done a, Q, s => Q a s
  | .act _ enabled run next, Q, s => ∀ e, sys.envOk e s → enabled t s = true →
    R.guar s (run t e s) ∧ Runs (next t e s) Q (run t e s)

variable {R} {sys} {t}

namespace Runs

variable {s : σ} {Q : α → σ → Prop}

/-- Wherever the program is cut off, its last action was a step of the routine and the rest of it
still runs. -/
theorem step {p p' : Prog ℓ ε σ α} {s' : σ} (h : R.Runs sys t p Q s)
    (hstep : p.Step sys t s p' s') :
    R.guar s s' ∧ R.Runs sys t p' Q s' := by
  cases hstep with
  | act henv hen => exact h _ henv hen

theorem mono {p : Prog ℓ ε σ α} {Q' : α → σ → Prop} (h : R.Runs sys t p Q s) (hs : R.inv s)
    (hQ : ∀ a s, R.inv s → Q a s → Q' a s) : R.Runs sys t p Q' s := by
  induction p generalizing s with
  | done a => exact hQ a s hs h
  | act label enabled run next ih =>
    intro e he hen
    obtain ⟨hguar, hnext⟩ := h e he hen
    exact ⟨hguar, ih _ _ _ hnext (R.inv_step hs hguar)⟩

/-- Where a program returns was reached from where it started. -/
theorem reach {p : Prog ℓ ε σ α} (h : R.Runs sys t p Q s) (hs : R.inv s) :
    R.Runs sys t p (fun a s' => Q a s' ∧ R.Reach s s') s := by
  suffices hgen : ∀ s₀, R.Reach s₀ s →
      R.Runs sys t p (fun a s' => Q a s' ∧ R.Reach s₀ s') s from hgen s .refl
  induction p generalizing s with
  | done a => exact fun s₀ hr => ⟨h, hr⟩
  | act label enabled run next ih =>
    intro s₀ hr e he hen
    obtain ⟨hguar, hnext⟩ := h e he hen
    exact ⟨hguar, ih _ _ _ hnext (R.inv_step hs hguar) s₀ (hr.tail ⟨hs, hguar⟩)⟩

/-- A sequence, with the way to the second part. -/
theorem bind {p : Prog ℓ ε σ α} {f : α → Prog ℓ ε σ β} {Q' : β → σ → Prop}
    (h : R.Runs sys t p Q s) (hs : R.inv s)
    (hf : ∀ a s', R.inv s' → R.Reach s s' → Q a s' → R.Runs sys t (f a) Q' s') :
    R.Runs sys t (p.bind f) Q' s := by
  have hreach := h.reach hs
  generalize R.Reach s = P at hreach hf
  clear h
  induction p generalizing s with
  | done a => exact hf a s hs hreach.2 hreach.1
  | act label enabled run next ih =>
    intro e he hen
    obtain ⟨hguar, hnext⟩ := hreach e he hen
    exact ⟨hguar, ih _ _ _ (R.inv_step hs hguar) hnext⟩

/-- What comes to its end meets the condition. -/
theorem returns {p : Prog ℓ ε σ α} {a : α} {s' : σ} (h : R.Runs sys t p Q s) (hs : R.inv s)
    (hreturns : p.Returns sys t s a s') : Q a s' := by
  suffices hgen : ∀ x : Prog ℓ ε σ α × σ,
      Relation.ReflTransGen (fun x y => x.1.Step sys t x.2 y.1 y.2) x (.done a, s') →
        R.inv x.2 → R.Runs sys t x.1 Q x.2 → Q a s' from hgen _ hreturns hs h
  intro x hrun
  induction hrun using Relation.ReflTransGen.head_induction_on with
  | refl => exact fun _ hdone => hdone
  | head hstep _ ih =>
    intro hinv hruns
    obtain ⟨hguar, hnext⟩ := hruns.step hstep
    exact ih (R.inv_step hinv hguar) hnext

/-- One action. -/
theorem atomic {label : ℓ} {f : TaskId → ε → σ → α × σ}
    (h : ∀ e, sys.envOk e s → R.guar s (f t e s).2 ∧ Q (f t e s).1 (f t e s).2) :
    R.Runs sys t (Prog.atomic label f) Q s :=
  fun e he _ => h e he

/-- What a program does beside others it does alone. -/
theorem of_safe {D : Discipline sys} (hinv : ∀ s, R.inv s → D.inv s)
    (hguar : ∀ s s', D.guar t s s' → R.guar s s') (hok : ∀ label e s s', D.stepOk t label e s s')
    {p : Prog ℓ ε σ α} (h : D.Safe t p Q s) (hs : R.inv s) : R.Runs sys t p Q s := by
  induction p generalizing s with
  | done a => exact h
  | act label enabled run next ih =>
    intro e he hen
    obtain ⟨hstep, hnext⟩ := h.1 s .refl (hinv s hs) hen e he (hok _ _ _ _)
    have hg := hguar _ _ hstep
    exact ⟨hg, ih _ _ _ hnext (R.inv_step hs hg)⟩

end Runs

/-! ### Programs that can fail. -/

variable (R) (sys) (t)

/-- The same for a program that returns a value under `Q` or fails under `E`. -/
def RunsE (p : ExceptT κ (Prog ℓ ε σ) α) (Q : α → σ → Prop) (E : κ → σ → Prop) (s : σ) : Prop :=
  R.Runs sys t p.run (Discipline.outcome Q E) s

variable {R} {sys} {t}

namespace RunsE

variable {s : σ} {Q : α → σ → Prop} {E : κ → σ → Prop}

theorem pure {a : α} (h : Q a s) :
    R.RunsE sys t (Pure.pure a : ExceptT κ (Prog ℓ ε σ) α) Q E s := h

theorem throw {e : κ} (h : E e s) :
    R.RunsE sys t (MonadExcept.throw e : ExceptT κ (Prog ℓ ε σ) α) Q E s := h

theorem bind {p : ExceptT κ (Prog ℓ ε σ) α} {f : α → ExceptT κ (Prog ℓ ε σ) β}
    {Q' : β → σ → Prop} (h : R.RunsE sys t p Q E s) (hs : R.inv s)
    (hf : ∀ a s', R.inv s' → R.Reach s s' → Q a s' → R.RunsE sys t (f a) Q' E s') :
    R.RunsE sys t (p >>= f) Q' E s := by
  refine Runs.bind h hs fun r s' hinv hr hq => ?_
  cases r with
  | ok a => exact hf a s' hinv hr hq
  | error e => exact hq

theorem mono {p : ExceptT κ (Prog ℓ ε σ) α} {Q' : α → σ → Prop} {E' : κ → σ → Prop}
    (h : R.RunsE sys t p Q E s) (hs : R.inv s) (hQ : ∀ a s, R.inv s → Q a s → Q' a s)
    (hE : ∀ e s, R.inv s → E e s → E' e s) : R.RunsE sys t p Q' E' s := by
  refine Runs.mono h hs fun r s' hinv hr => ?_
  cases r with
  | ok a => exact hQ a s' hinv hr
  | error e => exact hE e s' hinv hr

/-- A program that cannot fail. -/
theorem lift {p : Prog ℓ ε σ α} (h : R.Runs sys t p Q s) (hs : R.inv s) :
    R.RunsE sys t (liftM p : ExceptT κ (Prog ℓ ε σ) α) Q E s :=
  Runs.bind h hs fun _ _ _ _ hq => hq

end RunsE

end Routine

end Patwari.Lib
