/-
# Patwari.Lib.Cut — a program that may be cut off between two actions.

Whatever a program has done when it is dropped stays, and the next one finds it. So `Covers` asks
for two conditions: one on every state the program may be cut off in, and one on what it returns.
Between its actions the others move the state by the steps of a relation. The rules follow the
program text.
-/
import Patwari.Lib.Beside

namespace Patwari.Lib

variable {ℓ ε σ α β κ : Type}

/-- A property the steps of a relation keep. -/
def KeptBy (others : σ → σ → Prop) (P : σ → Prop) : Prop := ∀ s s', others s s' → P s → P s'

theorem KeptBy.star {others : σ → σ → Prop} {P : σ → Prop} (h : KeptBy others P) {s s' : σ}
    (hr : Relation.ReflTransGen others s s') (hs : P s) : P s' := by
  induction hr with
  | refl => exact hs
  | tail _ hstep ih => exact h _ _ hstep ih

section Covers

variable (sys : System ℓ ε σ) (others : σ → σ → Prop) (t : TaskId) (cut : σ → Prop)

/-- **`Covers`** — from state `s` on, the program leaves a state under `cut` wherever it is cut off,
and what it returns satisfies `Q` where it returns. -/
def Prog.Covers : Prog ℓ ε σ α → (α → σ → Prop) → σ → Prop
  | .done a, Q, s => Q a s
  | .act _ enabled run next, Q, s => ∀ s', Relation.ReflTransGen others s s' →
      cut s' ∧ ∀ e, sys.envOk e s' → enabled t s' = true →
        Prog.Covers (next t e s') Q (run t e s')

/-- The same for a program that returns a value under `Q` or fails under `E`. -/
def Prog.CoversE (p : ExceptT κ (Prog ℓ ε σ) α) (Q : α → σ → Prop) (E : κ → σ → Prop) (s : σ) :
    Prop :=
  p.run.Covers sys others t cut (Discipline.outcome Q E) s

end Covers

namespace Prog

variable {sys : System ℓ ε σ} {others : σ → σ → Prop} {t : TaskId} {cut : σ → Prop}

namespace Covers

variable {p : Prog ℓ ε σ α} {Q : α → σ → Prop} {s s' : σ}

theorem of_other (hQ : ∀ a, KeptBy others (Q a)) (h : p.Covers sys others t cut Q s)
    (hstep : others s s') : p.Covers sys others t cut Q s' := by
  cases p with
  | done a => exact hQ a s s' hstep h
  | act label enabled run next => exact fun s₁ hr => h s₁ (.head hstep hr)

/-- Where the program has come to, both conditions are still ahead. -/
theorem beside (hQ : ∀ a, KeptBy others (Q a)) (h : p.Covers sys others t cut Q s)
    {p' : Prog ℓ ε σ α} (hrun : Relation.ReflTransGen (Prog.Beside sys others t) (p, s) (p', s')) :
    p'.Covers sys others t cut Q s' := by
  suffices hgen : ∀ x y : Prog ℓ ε σ α × σ,
      Relation.ReflTransGen (Prog.Beside sys others t) x y →
        x.1.Covers sys others t cut Q x.2 → y.1.Covers sys others t cut Q y.2 from
    hgen _ _ hrun h
  intro x y hxy hx
  induction hxy with
  | refl => exact hx
  | tail _ hstep ih =>
    cases hstep with
    | own hstep =>
      cases hstep with
      | act henv hen => exact (ih _ .refl).2 _ henv hen
    | other hstep => exact ih.of_other hQ hstep

/-- Cut off anywhere or at its end, the program leaves a state under one of the conditions. -/
theorem reached (hQ : ∀ a, KeptBy others (Q a)) (h : p.Covers sys others t cut Q s)
    {p' : Prog ℓ ε σ α} (hrun : Relation.ReflTransGen (Prog.Beside sys others t) (p, s) (p', s')) :
    (∃ a, p' = .done a ∧ Q a s') ∨ (∀ a, p' ≠ .done a) ∧ cut s' := by
  have hrest := h.beside hQ hrun
  cases p' with
  | done a => exact Or.inl ⟨a, rfl, hrest⟩
  | act label enabled run next =>
    refine Or.inr ⟨fun a hdone => ?_, (hrest s' .refl).1⟩
    cases hdone

theorem mono {Q' : α → σ → Prop} (h : p.Covers sys others t cut Q s)
    (hQ : ∀ a s, Q a s → Q' a s) : p.Covers sys others t cut Q' s := by
  induction p generalizing s with
  | done a => exact hQ a s h
  | act label enabled run next ih =>
    intro s' hr
    obtain ⟨hcut, hnext⟩ := h s' hr
    exact ⟨hcut, fun e henv hen => ih _ _ _ (hnext e henv hen)⟩

/-- A sequence. -/
theorem bind {f : α → Prog ℓ ε σ β} {Q' : β → σ → Prop} (h : p.Covers sys others t cut Q s)
    (hf : ∀ a s', Q a s' → (f a).Covers sys others t cut Q' s') :
    (p.bind f).Covers sys others t cut Q' s := by
  induction p generalizing s with
  | done a => exact hf a s h
  | act label enabled run next ih =>
    intro s' hr
    obtain ⟨hcut, hnext⟩ := h s' hr
    exact ⟨hcut, fun e henv hen => ih _ _ _ (hnext e henv hen)⟩

/-- One action. -/
theorem atomic {label : ℓ} {f : TaskId → ε → σ → α × σ}
    (h : ∀ s', Relation.ReflTransGen others s s' →
      cut s' ∧ ∀ e, sys.envOk e s' → Q (f t e s').1 (f t e s').2) :
    (Prog.atomic label f).Covers sys others t cut Q s :=
  fun s' hr => ⟨(h s' hr).1, fun e henv _ => (h s' hr).2 e henv⟩

/-- What no action changes, neither the program nor the others. -/
theorem of_keeps {P : σ → Prop} (hkeeps : p.Keeps t P) (hP : KeptBy others P)
    (hcut : ∀ s, P s → cut s) (hs : P s) : p.Covers sys others t cut (fun _ => P) s := by
  induction p generalizing s with
  | done a => exact hs
  | act label enabled run next ih =>
    intro s' hr
    have hs' := hP.star hr hs
    exact ⟨hcut s' hs', fun e _ _ => ih _ _ _ (hkeeps e s' hs').2 (hkeeps e s' hs').1⟩

end Covers

namespace CoversE

variable {p : ExceptT κ (Prog ℓ ε σ) α} {Q : α → σ → Prop} {E : κ → σ → Prop} {s : σ}

theorem pure {a : α} (h : Q a s) :
    CoversE sys others t cut (Pure.pure a : ExceptT κ (Prog ℓ ε σ) α) Q E s := h

theorem throw {e : κ} (h : E e s) :
    CoversE sys others t cut (MonadExcept.throw e : ExceptT κ (Prog ℓ ε σ) α) Q E s := h

theorem bind {f : α → ExceptT κ (Prog ℓ ε σ) β} {Q' : β → σ → Prop}
    (h : CoversE sys others t cut p Q E s)
    (hf : ∀ a s', Q a s' → CoversE sys others t cut (f a) Q' E s') :
    CoversE sys others t cut (p >>= f) Q' E s := by
  refine Covers.bind h fun r s' hr => ?_
  cases r with
  | ok a => exact hf a s' hr
  | error e => exact hr

theorem mono {Q' : α → σ → Prop} {E' : κ → σ → Prop} (h : CoversE sys others t cut p Q E s)
    (hQ : ∀ a s, Q a s → Q' a s) (hE : ∀ e s, E e s → E' e s) :
    CoversE sys others t cut p Q' E' s := by
  refine Covers.mono h fun r s' hr => ?_
  cases r with
  | ok a => exact hQ a s' hr
  | error e => exact hE e s' hr

/-- A check that fails or goes on. -/
theorem guard {b : Prop} {_ : Decidable b} {e : κ} {f : PUnit → ExceptT κ (Prog ℓ ε σ) α}
    (herr : E e s) (h : ¬ b → CoversE sys others t cut (f ⟨⟩) Q E s) :
    CoversE sys others t cut (if b then MonadExcept.throw e >>= f else f ⟨⟩) Q E s := by
  split
  · exact herr
  · next hb => exact h hb

theorem of_keeps {P : σ → Prop} (hkeeps : KeepsE t P p) (hP : KeptBy others P)
    (hcut : ∀ s, P s → cut s) (hs : P s) :
    CoversE sys others t cut p (fun _ => P) (fun _ => P) s := by
  refine Covers.mono (Covers.of_keeps hkeeps hP hcut hs) fun r s' hr => ?_
  cases r <;> exact hr

end CoversE

end Prog

end Patwari.Lib
