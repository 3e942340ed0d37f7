/-
# Patwari.Lib.Outcome — what a task returns, in the state it returns in.

`Pool.Good` keeps of a request what it has returned. What a request returned often says something
about the state it returned in, and stays true however the others go on. `Carries` follows such a
condition beside a good pool: every program in flight still returns under it.
-/
import Patwari.Lib.Prog

namespace Patwari.Lib.Pool

variable {ℓ ε σ ρ α : Type} {sys : System ℓ ε σ} {handler : ρ → Prog ℓ ε σ α}
  {allowed : Pool ℓ ε σ ρ α → Event ε ρ → Prop} {D : Discipline sys} {Serves : ρ → TaskId → Prop}
  {Post : ρ → α → Prop} {Q : ρ → α → σ → Prop} {p p' : Pool ℓ ε σ ρ α}

/-- Every task in flight returns under the condition of its request. -/
def Carries (D : Discipline sys) (Q : ρ → α → σ → Prop) (p : Pool ℓ ε σ ρ α) : Prop :=
  ∀ t request prog, p.tasks t = some (request, prog) → D.Safe t prog (Q request) p.state

/-- The other tasks go on to return under their conditions. -/
theorem Carries.others (h : p.Carries D Q) (hstable : ∀ request a t, D.Stable t (Q request a))
    (hinv : D.inv p.state) {t t' : TaskId} {s' : σ} (hguar : D.guar t p.state s') (hne : t' ≠ t)
    {request : ρ} {prog : Prog ℓ ε σ α} (htask : p.tasks t' = some (request, prog)) :
    D.Safe t' prog (Q request) s' :=
  (h t' request prog htask).of_interference (fun a => hstable request a t')
    (.single ⟨hinv, t, hne.symm, hguar⟩)

/-- So they do when one of them ends. -/
theorem Carries.endTask (h : p.Carries D Q) (hstable : ∀ request a t, D.Stable t (Q request a))
    (hinv : D.inv p.state) {t : TaskId} (hexit : D.exitOk t p.state) :
    (p.endTask sys t).Carries D Q := by
  intro t' request prog ht'
  obtain ⟨hne, hold⟩ := of_endTask ht'
  exact h.others hstable hinv (D.guar_cleanup hinv hexit) hne hold

theorem Carries.step (hstable : ∀ request a t, D.Stable t (Q request a))
    (hreturns : ∀ request t s, Serves request t → D.inv s → D.Safe t (handler request) (Q request)
      s)
    (hgood : p.Good D Post) (h : p.Carries D Q) {ev : Event ε ρ} (hmeets : p.Meets D Serves ev)
    (henv : p.EnvOk sys ev) (hstep : p.step sys handler ev = some p') : p'.Carries D Q := by
  have hinv := hgood.inv
  cases ev with
  | spawn request =>
    obtain rfl : _ = p' := Option.some.inj hstep
    intro t' request' prog ht'
    by_cases hne : t' = p.fresh
    · subst hne
      simp only [Function.update_self, Option.some.injEq, Prod.mk.injEq] at ht'
      obtain ⟨rfl, rfl⟩ := ht'
      exact hreturns request _ _ hmeets hinv
    · exact h t' request' prog (by simpa [Function.update_of_ne hne] using ht')
  | act t e =>
    simp only [Pool.step] at hstep
    split at hstep
    · next request label enabled run next htask =>
      split_ifs at hstep with hen
      obtain rfl := Option.some.inj hstep
      obtain ⟨hguar, hnext⟩ := (h t request _ htask).1 p.state .refl hinv hen e henv
        (hmeets request label enabled run next htask hen henv)
      intro t' request' prog ht'
      by_cases hne : t' = t
      · subst hne
        simp only [Function.update_self, Option.some.injEq, Prod.mk.injEq] at ht'
        obtain ⟨rfl, rfl⟩ := ht'
        exact hnext
      · exact h.others hstable hinv hguar hne (by simpa [Function.update_of_ne hne] using ht')
    · simp at hstep
  | finish t =>
    simp only [Pool.step] at hstep
    split at hstep
    · next request a htask =>
      obtain rfl := Option.some.inj hstep
      exact h.endTask hstable hinv (hgood.tasks t request _ htask).2.2
    · simp at hstep
  | drop t =>
    simp only [Pool.step] at hstep
    split at hstep
    · next task htask =>
      obtain rfl := Option.some.inj hstep
      exact h.endTask hstable hinv (hmeets (by simp [htask]))
    · simp at hstep
  | detach t =>
    simp only [Pool.step] at hstep
    split at hstep
    · next request label enabled run next htask =>
      split_ifs at hstep
      obtain rfl := Option.some.inj hstep
      exact h.endTask hstable hinv (hmeets request label enabled run next htask).2
    · simp at hstep
  | late i e =>
    simp only [Pool.step] at hstep
    split at hstep
    · next entry hget =>
      obtain rfl := Option.some.inj hstep
      obtain ⟨-, hnone, hlate⟩ := hgood.late entry (List.mem_of_getElem? hget)
      obtain ⟨hguar, -⟩ := hlate p.state .refl hinv e henv (hmeets entry hget henv)
      intro t' request prog ht'
      have hne : t' ≠ entry.task := by
        rintro rfl
        rw [hnone] at ht'
        simp at ht'
      exact h.others hstable hinv hguar hne ht'
    · simp at hstep

/-- **`Carries.run`** — along a run from a good pool, every task in flight returns under its
condition. -/
theorem Carries.run (hstable : ∀ request a t, D.Stable t (Q request a))
    (hsafe : ∀ request t s, Serves request t → D.inv s →
      D.Safe t (handler request) (fun a s => Post request a ∧ D.exitOk t s) s)
    (hreturns : ∀ request t s, Serves request t → D.inv s → D.Safe t (handler request) (Q request)
      s)
    (hmeets : ∀ p ev, allowed p ev → p.Meets D Serves ev) (hgood : p.Good D Post)
    (h : p.Carries D Q) (hrun : Run sys handler allowed p p') : p'.Carries D Q := by
  induction hrun with
  | refl => exact h
  | tail hfront hstep ih =>
    obtain ⟨ev, hallowed, henv, hstep⟩ := hstep
    exact ih.step hstable hreturns (hgood.run hsafe hmeets hfront) (hmeets _ _ hallowed) henv hstep

end Patwari.Lib.Pool
