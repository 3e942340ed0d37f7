/-
# Patwari.Lib.Beside — one program beside tasks known only by what they do.

What one program computes is told without the text of the others: between two of its actions the
state moves by any steps of a relation `others`. A program that is safe under a discipline whose
other tasks may do that much ends as the discipline says. A program is a finite tree of actions, so
one that is `Immediate`, that never waits, always comes to its end.
-/
import Patwari.Lib.Alone

namespace Patwari.Lib

variable {ℓ ε σ α β κ : Type}

/-- One action of task `t`, or one step of the others. -/
inductive Prog.Beside (sys : System ℓ ε σ) (others : σ → σ → Prop) (t : TaskId) :
    Prog ℓ ε σ α × σ → Prog ℓ ε σ α × σ → Prop
  | own {p p' : Prog ℓ ε σ α} {s s' : σ} (h : p.Step sys t s p' s') :
      Prog.Beside sys others t (p, s) (p', s')
  | other {p : Prog ℓ ε σ α} {s s' : σ} (h : others s s') :
      Prog.Beside sys others t (p, s) (p, s')

/-- The program's way from a state to what it returns, with whatever the others do meanwhile. -/
def Prog.Ends (sys : System ℓ ε σ) (others : σ → σ → Prop) (t : TaskId) (p : Prog ℓ ε σ α) (s : σ)
    (a : α) (s' : σ) : Prop :=
  Relation.ReflTransGen (Prog.Beside sys others t) (p, s) (.done a, s')

/-- What a safe program returns meets its condition, however the others move the state. -/
theorem Discipline.Safe.ends {sys : System ℓ ε σ} {D : Discipline sys} {others : σ → σ → Prop}
    {t : TaskId} (hothers : ∀ s s', others s s' → ∃ t', t' ≠ t ∧ D.guar t' s s')
    (hok : ∀ label e s s', D.stepOk t label e s s') {Q : α → σ → Prop}
    (hQ : ∀ a, D.Stable t (Q a)) {p : Prog ℓ ε σ α} {s s' : σ} {a : α} (h : D.Safe t p Q s)
    (hs : D.inv s) (hend : p.Ends sys others t s a s') : Q a s' := by
  -- along the run, the rest of the program stays safe from where it is
  suffices hgen : ∀ x : Prog ℓ ε σ α × σ,
      Relation.ReflTransGen (Prog.Beside sys others t) x (.done a, s') → D.inv x.2 →
        D.Safe t x.1 Q x.2 → Q a s' from hgen _ hend hs h
  intro x hrun
  induction hrun using Relation.ReflTransGen.head_induction_on with
  | refl => exact fun _ hdone => hdone
  | head hstep _ ih =>
    intro hinv hsafe
    cases hstep with
    | own hstep =>
      cases hstep with
      | act henv hen =>
        obtain ⟨hguar, hnext⟩ := hsafe.1 _ .refl hinv hen _ henv (hok _ _ _ _)
        exact ih (D.inv_step hinv hguar) hnext
    | other hstep =>
      obtain ⟨t', hne, hguar⟩ := hothers _ _ hstep
      exact ih (D.inv_step hinv hguar)
        (hsafe.of_interference hQ (.single ⟨hinv, t', hne, hguar⟩))

/-! ### Programs that never wait. -/

namespace Prog

/-- Every action the program comes to can be taken at once. -/
def Immediate : Prog ℓ ε σ α → Prop
  | .done _ => True
  | .act _ enabled _ next => ∀ t e s, enabled t s = true ∧ (next t e s).Immediate

namespace Immediate

theorem done (a : α) : (Prog.done a : Prog ℓ ε σ α).Immediate := trivial

theorem bind {p : Prog ℓ ε σ α} {f : α → Prog ℓ ε σ β} (hp : p.Immediate)
    (hf : ∀ a, (f a).Immediate) : (p.bind f).Immediate := by
  induction p with
  | done a => exact hf a
  | act label enabled run next ih =>
    intro t e s
    obtain ⟨hen, hnext⟩ := hp t e s
    exact ⟨hen, ih t e s hnext⟩

theorem atomic (label : ℓ) (f : TaskId → ε → σ → α × σ) : (Prog.atomic label f).Immediate :=
  fun _ _ _ => ⟨rfl, trivial⟩

end Immediate

/-- The same for a program that may fail. -/
def ImmediateE (p : ExceptT κ (Prog ℓ ε σ) α) : Prop := p.run.Immediate

namespace ImmediateE

theorem pure (a : α) : ImmediateE (Pure.pure a : ExceptT κ (Prog ℓ ε σ) α) := trivial

theorem throw (e : κ) : ImmediateE (MonadExcept.throw e : ExceptT κ (Prog ℓ ε σ) α) := trivial

theorem bind {p : ExceptT κ (Prog ℓ ε σ) α} {f : α → ExceptT κ (Prog ℓ ε σ) β}
    (hp : ImmediateE p) (hf : ∀ a, ImmediateE (f a)) : ImmediateE (p >>= f) := by
  refine Immediate.bind hp fun r => ?_
  cases r with
  | ok a => exact hf a
  | error e => exact Immediate.done _

theorem guard {p : Prop} {_ : Decidable p} {e : κ} {f : PUnit → ExceptT κ (Prog ℓ ε σ) α}
    (h : ImmediateE (f ⟨⟩)) :
    ImmediateE (if p then MonadExcept.throw e >>= f else f ⟨⟩) := by
  split
  · exact Immediate.done _
  · exact h

theorem lift {p : Prog ℓ ε σ α} (hp : p.Immediate) :
    ImmediateE (ExceptT.lift p : ExceptT κ (Prog ℓ ε σ) α) :=
  Immediate.bind hp fun _ => Immediate.done _

end ImmediateE

end Prog

end Patwari.Lib
