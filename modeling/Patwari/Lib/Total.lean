/-
# Patwari.Lib.Total — a program that always comes to its end.

`Routine.Runs` says what holds where a program that runs alone returns, and says nothing of one that
waits for a lock nobody gives up. `Delivers` says that it never waits: every action can be taken
where the program comes to it. A program is a finite tree of actions, so it returns.
-/
import Patwari.Lib.Alone

namespace Patwari.Lib.Prog

variable {ℓ ε σ α β κ : Type} {sys : System ℓ ε σ} {t : TaskId} {s s' : σ}

/-- **`Delivers`** — run by task `t` alone from state `s`, the program is never blocked, and what it
returns satisfies `Q` in the state it returns in. -/
def Delivers (sys : System ℓ ε σ) (t : TaskId) : Prog ℓ ε σ α → (α → σ → Prop) → σ → Prop
  | .done a, Q, s => Q a s
  | .act _ enabled run next, Q, s => enabled t s = true ∧
    ∀ e, sys.envOk e s → (next t e s).Delivers sys t Q (run t e s)

namespace Delivers

variable {Q : α → σ → Prop}

theorem mono {p : Prog ℓ ε σ α} {Q' : α → σ → Prop} (h : p.Delivers sys t Q s)
    (hQ : ∀ a s, Q a s → Q' a s) : p.Delivers sys t Q' s := by
  induction p generalizing s with
  | done a => exact hQ a s h
  | act label enabled run next ih => exact ⟨h.1, fun e he => ih t e s (h.2 e he)⟩

theorem bind {p : Prog ℓ ε σ α} {f : α → Prog ℓ ε σ β} {Q' : β → σ → Prop}
    (h : p.Delivers sys t Q s) (hf : ∀ a s', Q a s' → (f a).Delivers sys t Q' s') :
    (p.bind f).Delivers sys t Q' s := by
  induction p generalizing s with
  | done a => exact hf a s h
  | act label enabled run next ih => exact ⟨h.1, fun e he => ih t e s (h.2 e he)⟩

theorem atomic {label : ℓ} {f : TaskId → ε → σ → α × σ}
    (h : ∀ e, sys.envOk e s → Q (f t e s).1 (f t e s).2) :
    (Prog.atomic label f).Delivers sys t Q s :=
  ⟨rfl, fun e he => h e he⟩

theorem await {label : ℓ} {enabled : TaskId → σ → Bool} {f : TaskId → σ → σ}
    {Q : Unit → σ → Prop} (hen : enabled t s = true) (h : Q () (f t s)) :
    (Prog.await (ε := ε) label enabled f).Delivers sys t Q s :=
  ⟨hen, fun _ _ => h⟩

/-- The rest of the program is not blocked either. -/
theorem step {p p' : Prog ℓ ε σ α} (h : p.Delivers sys t Q s) (hstep : p.Step sys t s p' s') :
    p'.Delivers sys t Q s' := by
  cases hstep with
  | act henv hen => exact h.2 _ henv

/-- What it returns meets the condition. -/
theorem returns {p : Prog ℓ ε σ α} {a : α} (h : p.Delivers sys t Q s)
    (hreturns : p.Returns sys t s a s') : Q a s' := by
  suffices hgen : ∀ x : Prog ℓ ε σ α × σ,
      Relation.ReflTransGen (fun x y => x.1.Step sys t x.2 y.1 y.2) x (.done a, s') →
        x.1.Delivers sys t Q x.2 → Q a s' from hgen _ hreturns h
  intro x hrun
  induction hrun using Relation.ReflTransGen.head_induction_on with
  | refl => exact fun hdone => hdone
  | head hstep _ ih => exact fun hx => ih (hx.step hstep)

/-- It does return, where the environment always supplies something. -/
theorem exists_returns {p : Prog ℓ ε σ α} (h : p.Delivers sys t Q s)
    (hsupplied : ∀ s, ∃ e, sys.envOk e s) : ∃ a s', p.Returns sys t s a s' := by
  induction p generalizing s with
  | done a => exact ⟨a, s, .refl⟩
  | act label enabled run next ih =>
    obtain ⟨e, he⟩ := hsupplied s
    obtain ⟨a, s', hrest⟩ := ih t e s (h.2 e he)
    exact ⟨a, s', .head (.act he h.1) hrest⟩

end Delivers

/-! ### Programs that do not fail. -/

/-- The program returns a value, under `Q`. -/
def DeliversE (sys : System ℓ ε σ) (t : TaskId) (p : ExceptT κ (Prog ℓ ε σ) α)
    (Q : α → σ → Prop) (s : σ) : Prop :=
  p.run.Delivers sys t (fun r s => ∃ a, r = .ok a ∧ Q a s) s

namespace DeliversE

variable {Q : α → σ → Prop}

theorem pure {a : α} (h : Q a s) :
    DeliversE sys t (Pure.pure a : ExceptT κ (Prog ℓ ε σ) α) Q s := ⟨a, rfl, h⟩

theorem bind {p : ExceptT κ (Prog ℓ ε σ) α} {f : α → ExceptT κ (Prog ℓ ε σ) β}
    {Q' : β → σ → Prop} (h : DeliversE sys t p Q s)
    (hf : ∀ a s', Q a s' → DeliversE sys t (f a) Q' s') : DeliversE sys t (p >>= f) Q' s := by
  refine Delivers.bind h fun r s' hr => ?_
  obtain ⟨a, rfl, hq⟩ := hr
  exact hf a s' hq

/-- A program that cannot fail. -/
theorem lift {p : Prog ℓ ε σ α} (h : p.Delivers sys t Q s) :
    DeliversE sys t (liftM p : ExceptT κ (Prog ℓ ε σ) α) Q s :=
  Delivers.bind h fun a _ hq => ⟨a, rfl, hq⟩

end DeliversE

end Patwari.Lib.Prog
