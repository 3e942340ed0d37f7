/-
# Patwari.Lib.Along — what one task of a run has seen.

A task that answers has taken its actions one after the other, each in the state the run was in just
then. What it answers depends on these states and on what the environment supplied, and on nothing
else in the run. So whatever is known of any two moments of a run, of which one is earlier, is known
of any two actions of the task.
-/
import Patwari.Lib.Prog

namespace Patwari.Lib

variable {ℓ ε σ ρ α β κ : Type}

namespace Prog

/-- What is left of a program after actions on these inputs in these states, `none` when it has
returned before the last of them. -/
def along (t : TaskId) : List (ε × σ) → Prog ℓ ε σ α → Option (Prog ℓ ε σ α)
  | [], p => some p
  | (e, s) :: rest, .act _ _ _ next => (next t e s).along t rest
  | _ :: _, .done _ => none

@[simp] theorem along_nil (t : TaskId) (p : Prog ℓ ε σ α) : p.along t [] = some p := rfl

/-- A program that has returned takes no more actions. -/
theorem along_done {t : TaskId} {seen : List (ε × σ)} {a : α} {q : Prog ℓ ε σ α} :
    (done a : Prog ℓ ε σ α).along t seen = some q ↔ seen = [] ∧ q = done a := by
  cases seen with
  | nil => simp [along, eq_comm]
  | cons x rest => simp [along]

theorem along_append (t : TaskId) (seen later : List (ε × σ)) (p : Prog ℓ ε σ α) :
    p.along t (seen ++ later) = (p.along t seen).bind fun q => q.along t later := by
  induction seen generalizing p with
  | nil => rfl
  | cons x rest ih =>
    cases p with
    | done a => rfl
    | act label enabled run next => exact ih (next t x.1 x.2)

/-- A sequence is where its first part is. -/
theorem along_bind {t : TaskId} {seen : List (ε × σ)} {p q : Prog ℓ ε σ α} {f : α → Prog ℓ ε σ β}
    (h : p.along t seen = some q) : (p.bind f).along t seen = some (q.bind f) := by
  induction seen generalizing p with
  | nil =>
    obtain rfl := Option.some.inj h
    rfl
  | cons x rest ih =>
    cases p with
    | done a => exact nomatch h
    | act label enabled run next => exact ih h

/-! ### Programs in known states. -/

/-- As long as each of its actions happens where `I` holds of the input and the state, the program
returns under `Q`, whatever comes between them. -/
def Given (I : ε → σ → Prop) (t : TaskId) : Prog ℓ ε σ α → (α → Prop) → Prop
  | .done a, Q => Q a
  | .act _ _ _ next, Q => ∀ e s, I e s → (next t e s).Given I t Q

/-- The condition a result is under: `Q` for a value, `E` for an error. -/
def returned (Q : α → Prop) (E : κ → Prop) : Except κ α → Prop
  | .ok a => Q a
  | .error e => E e

/-- The same for a program that may fail. -/
def GivenE (I : ε → σ → Prop) (t : TaskId) (p : ExceptT κ (Prog ℓ ε σ) α) (Q : α → Prop)
    (E : κ → Prop) : Prop :=
  p.run.Given I t (returned Q E)

variable {I : ε → σ → Prop} {t : TaskId}

namespace Given

theorem mono {p : Prog ℓ ε σ α} {Q R : α → Prop} (h : p.Given I t Q) (hQR : ∀ a, Q a → R a) :
    p.Given I t R := by
  induction p with
  | done a => exact hQR a h
  | act label enabled run next ih => exact fun e s hi => ih t e s (h e s hi)

/-- Every program returns something. -/
theorem trivial (p : Prog ℓ ε σ α) : p.Given I t fun _ => True := by
  induction p with
  | done a => exact True.intro
  | act label enabled run next ih => exact fun e s _ => ih t e s

theorem bind {p : Prog ℓ ε σ α} {f : α → Prog ℓ ε σ β} {Q : α → Prop} {R : β → Prop}
    (h : p.Given I t Q) (hf : ∀ a, Q a → (f a).Given I t R) : (p.bind f).Given I t R := by
  induction p with
  | done a => exact hf a h
  | act label enabled run next ih => exact fun e s hi => ih t e s (h e s hi)

/-- **`Given.of_along`** — what a task has returned is under the condition, when everything it has
seen is known. -/
theorem of_along {p : Prog ℓ ε σ α} {Q : α → Prop} {seen : List (ε × σ)} {a : α}
    (h : p.Given I t Q) (hseen : p.along t seen = some (.done a)) (hi : ∀ x ∈ seen, I x.1 x.2) :
    Q a := by
  induction seen generalizing p with
  | nil =>
    obtain rfl : p = .done a := Option.some.inj hseen
    exact h
  | cons x rest ih =>
    cases p with
    | done b => exact absurd (along_done.mp hseen).1 (List.cons_ne_nil _ _)
    | act label enabled run next =>
      have hnext := h x.1 x.2 (hi x List.mem_cons_self)
      exact ih hnext hseen fun y hy => hi y (List.mem_cons_of_mem _ hy)

end Given

namespace GivenE

variable {Q : α → Prop} {E : κ → Prop}

theorem pure {a : α} (h : Q a) : GivenE I t (Pure.pure a : ExceptT κ (Prog ℓ ε σ) α) Q E := h

theorem trivial (p : ExceptT κ (Prog ℓ ε σ) α) :
    GivenE I t p (fun _ => True) fun _ => True := by
  apply Given.mono (Given.trivial p.run)
  intro r _
  cases r <;> exact True.intro

theorem mono {p : ExceptT κ (Prog ℓ ε σ) α} {R : α → Prop} (h : GivenE I t p Q E)
    (hQR : ∀ a, Q a → R a) : GivenE I t p R E := by
  apply Given.mono h
  intro r hr
  cases r with
  | ok a => exact hQR a hr
  | error e => exact hr

theorem throw {e : κ} (h : E e) :
    GivenE I t (MonadExcept.throw e : ExceptT κ (Prog ℓ ε σ) α) Q E := h

theorem bind {p : ExceptT κ (Prog ℓ ε σ) α} {f : α → ExceptT κ (Prog ℓ ε σ) β} {R : β → Prop}
    (h : GivenE I t p Q E) (hf : ∀ a, Q a → GivenE I t (f a) R E) : GivenE I t (p >>= f) R E := by
  apply Given.bind h
  intro r hr
  cases r with
  | ok a => exact hf a hr
  | error e => exact hr

end GivenE

end Prog

namespace Pool

variable {sys : System ℓ ε σ} {handler : ρ → Prog ℓ ε σ α} {t : TaskId} {p : Pool ℓ ε σ ρ α}

/-- A run in which task `t` takes its actions on these inputs, in these states. -/
inductive Follows (sys : System ℓ ε σ) (handler : ρ → Prog ℓ ε σ α) (t : TaskId)
    (p : Pool ℓ ε σ ρ α) : List (ε × σ) → Pool ℓ ε σ ρ α → Prop
  | refl : Follows sys handler t p [] p
  | own {seen : List (ε × σ)} {p' p'' : Pool ℓ ε σ ρ α} {e : ε}
      (h : Follows sys handler t p seen p')
      (henv : sys.envOk e p'.state) (hstep : p'.step sys handler (.act t e) = some p'') :
      Follows sys handler t p (seen ++ [(e, p'.state)]) p''
  | other {seen : List (ε × σ)} {p' p'' : Pool ℓ ε σ ρ α} {ev : Event ε ρ}
      (h : Follows sys handler t p seen p') (hother : ∀ e, ev ≠ .act t e) (henv : p'.EnvOk sys ev)
      (hstep : p'.step sys handler ev = some p'') : Follows sys handler t p seen p''

namespace Follows

variable {p p' : Pool ℓ ε σ ρ α} {seen : List (ε × σ)}

theorem run (h : Follows sys handler t p seen p') : Run sys handler (fun _ _ => True) p p' := by
  induction h with
  | refl => exact .refl
  | own _ henv hstep ih => exact ih.tail ⟨.act t _, trivial, henv, hstep⟩
  | other _ _ henv hstep ih => exact ih.tail ⟨_, trivial, henv, hstep⟩

theorem trans {later : List (ε × σ)} {p'' : Pool ℓ ε σ ρ α} (h : Follows sys handler t p seen p')
    (hlater : Follows sys handler t p' later p'') :
    Follows sys handler t p (seen ++ later) p'' := by
  induction hlater with
  | refl =>
    rw [List.append_nil]
    exact h
  | own _ henv hstep ih =>
    rw [← List.append_assoc]
    exact ih.own henv hstep
  | other _ hother henv hstep ih => exact ih.other hother henv hstep

/-- Every run can be followed. -/
theorem of_run (h : Run sys handler (fun _ _ => True) p p') :
    ∃ seen, Follows sys handler t p seen p' := by
  induction h with
  | refl => exact ⟨[], .refl⟩
  | tail _ hstep ih =>
    obtain ⟨seen, hfollows⟩ := ih
    obtain ⟨ev, -, henv, hstep⟩ := hstep
    by_cases hown : ∃ e, ev = .act t e
    · obtain ⟨e, rfl⟩ := hown
      exact ⟨_, hfollows.own henv hstep⟩
    · exact ⟨seen, hfollows.other (fun e h => hown ⟨e, h⟩) henv hstep⟩

/-- A task that does not exist yet has seen nothing, and one that does is where its actions have
brought its program. -/
theorem along_of_init {s : σ} (h : Follows sys handler t (Pool.init s) seen p') :
    (p'.fresh ≤ t → seen = [] ∧ p'.tasks t = none) ∧
      ∀ request q, p'.tasks t = some (request, q) → (handler request).along t seen = some q := by
  induction h with
  | refl => exact ⟨fun _ => ⟨rfl, rfl⟩, fun _ _ htask => by simp [Pool.init] at htask⟩
  | @own seen p₁ p₂ e _ _ hstep ih =>
    unfold Pool.step at hstep
    dsimp only at hstep
    split at hstep
    · next request label enabled run next htask =>
      split_ifs at hstep
      obtain rfl := Option.some.inj hstep
      refine ⟨fun hfresh => ?_, fun request' q hq => ?_⟩
      · rw [(ih.1 hfresh).2] at htask
        exact absurd htask (by simp)
      · dsimp only at hq
        rw [Function.update_self] at hq
        obtain ⟨rfl, rfl⟩ := Prod.mk.inj (Option.some.inj hq)
        rw [Prog.along_append, ih.2 _ _ htask]
        rfl
    · contradiction
  | @other seen p₁ p₂ ev _ hother _ hstep ih =>
    -- a task that ends is gone, and every other event leaves it where it is
    have hkept : ∀ q₁ : Pool ℓ ε σ ρ α, q₁.fresh = p₁.fresh →
        (q₁.tasks t = p₁.tasks t ∨ q₁.tasks t = none) →
        (q₁.fresh ≤ t → seen = [] ∧ q₁.tasks t = none) ∧
          ∀ request q, q₁.tasks t = some (request, q) → (handler request).along t seen =
            some q := by
      intro q₁ hfresh htasks
      refine ⟨fun hle => ?_, fun request q hq => ?_⟩
      · obtain ⟨hseen, hnone⟩ := ih.1 (hfresh ▸ hle)
        exact ⟨hseen, htasks.elim (·.trans hnone) id⟩
      · rcases htasks with htasks | htasks
        · exact ih.2 request q (htasks ▸ hq)
        · rw [htasks] at hq
          contradiction
    have hended : ∀ t', (Function.update p₁.tasks t' none) t = p₁.tasks t ∨
        (Function.update p₁.tasks t' none) t = none := by
      intro t'
      rcases eq_or_ne t t' with rfl | hne
      · exact Or.inr (Function.update_self ..)
      · exact Or.inl (Function.update_of_ne hne ..)
    cases ev with
    | spawn request =>
      obtain rfl := Option.some.inj hstep
      refine ⟨fun hle => ?_, fun request' q hq => ?_⟩
      · have hlt : p₁.fresh < t := hle
        obtain ⟨hseen, hnone⟩ := ih.1 hlt.le
        exact ⟨hseen, (Function.update_of_ne hlt.ne' ..).trans hnone⟩
      · dsimp only at hq
        rcases eq_or_ne t p₁.fresh with rfl | hne
        · rw [Function.update_self] at hq
          obtain ⟨rfl, rfl⟩ := Prod.mk.inj (Option.some.inj hq)
          rw [(ih.1 le_rfl).1]
          rfl
        · rw [Function.update_of_ne hne] at hq
          exact ih.2 request' q hq
    | act t' e =>
      have hne : t ≠ t' := fun heq => hother e (heq ▸ rfl)
      unfold Pool.step at hstep
      dsimp only at hstep
      split at hstep
      · split_ifs at hstep
        obtain rfl := Option.some.inj hstep
        exact hkept _ rfl (Or.inl (Function.update_of_ne hne ..))
      · contradiction
    | finish t' =>
      unfold Pool.step at hstep
      dsimp only at hstep
      split at hstep
      · obtain rfl := Option.some.inj hstep
        exact hkept _ rfl (hended t')
      · contradiction
    | drop t' =>
      unfold Pool.step at hstep
      dsimp only at hstep
      split at hstep
      · obtain rfl := Option.some.inj hstep
        exact hkept _ rfl (hended t')
      · contradiction
    | detach t' =>
      unfold Pool.step at hstep
      dsimp only at hstep
      split at hstep
      · split_ifs at hstep
        obtain rfl := Option.some.inj hstep
        exact hkept _ rfl (hended t')
      · contradiction
    | late i e =>
      unfold Pool.step at hstep
      dsimp only at hstep
      split at hstep
      · obtain rfl := Option.some.inj hstep
        exact hkept _ rfl (Or.inl rfl)
      · contradiction

/-- A task is where its actions have brought the program of its request. -/
theorem along {s : σ} (h : Follows sys handler t (Pool.init s) seen p') {request : ρ}
    {q : Prog ℓ ε σ α} (htask : p'.tasks t = some (request, q)) :
    (handler request).along t seen = some q :=
  h.along_of_init.2 request q htask

/-- What a transitive relation says of every step of the run, it says of any two actions of a task.
-/
theorem pairwise {R : σ → σ → Prop} (htrans : ∀ a b d, R a b → R b d → R a d)
    (hstep : ∀ p₁ p₂, Run sys handler (fun _ _ => True) p p₁ →
      p₁.Step sys handler (fun _ _ => True) p₂ → R p₁.state p₂.state)
    (h : Follows sys handler t p seen p') :
    (seen.Pairwise fun a b => R a.2 b.2) ∧ ∀ a ∈ seen, R a.2 p'.state := by
  induction h with
  | refl => exact ⟨List.Pairwise.nil, fun _ ha => absurd ha List.not_mem_nil⟩
  | own h henv hnext ih =>
    obtain ⟨hpairs, hlast⟩ := ih
    have hmove := hstep _ _ h.run ⟨.act t _, trivial, henv, hnext⟩
    refine ⟨List.pairwise_append.mpr ⟨hpairs, List.pairwise_singleton _ _, ?_⟩, fun a ha => ?_⟩
    · intro a ha b hb
      obtain rfl := List.mem_singleton.mp hb
      exact hlast a ha
    · rcases List.mem_append.mp ha with ha | ha
      · exact htrans _ _ _ (hlast a ha) hmove
      · obtain rfl := List.mem_singleton.mp ha
        exact hmove
  | other h _ henv hnext ih =>
    obtain ⟨hpairs, hlast⟩ := ih
    have hmove := hstep _ _ h.run ⟨_, trivial, henv, hnext⟩
    exact ⟨hpairs, fun a ha => htrans _ _ _ (hlast a ha) hmove⟩

/-- The states a task has seen are states of the run. -/
theorem reached (h : Follows sys handler t p seen p') :
    ∀ a ∈ seen, ∃ q, Run sys handler (fun _ _ => True) p q ∧
      Run sys handler (fun _ _ => True) q p' ∧ q.state = a.2 := by
  induction h with
  | refl => exact fun _ ha => absurd ha List.not_mem_nil
  | own h henv hnext ih =>
    intro a ha
    rcases List.mem_append.mp ha with ha | ha
    · obtain ⟨q, hq, hq', hstate⟩ := ih a ha
      exact ⟨q, hq, hq'.tail ⟨.act t _, trivial, henv, hnext⟩, hstate⟩
    · obtain rfl := List.mem_singleton.mp ha
      exact ⟨_, h.run, .single ⟨.act t _, trivial, henv, hnext⟩, rfl⟩
  | other _ _ henv hnext ih =>
    intro a ha
    obtain ⟨q, hq, hq', hstate⟩ := ih a ha
    exact ⟨q, hq, hq'.tail ⟨_, trivial, henv, hnext⟩, hstate⟩

end Follows

/-- The request has been answered so, or its task is about to end with this answer. -/
def Answered (p : Pool ℓ ε σ ρ α) (request : ρ) (a : α) : Prop :=
  (request, a) ∈ p.results ∨ ∃ t, p.tasks t = some (request, .done a)

/-- **`Answered.follows`** — an answer of a run is that of a task which was followed to it. -/
theorem Answered.follows {s : σ} {request : ρ} {a : α} (h : p.Answered request a)
    (hrun : Run sys handler (fun _ _ => True) (Pool.init s) p) :
    ∃ t seen q, Follows sys handler t (Pool.init s) seen q ∧
      q.tasks t = some (request, .done a) ∧ Run sys handler (fun _ _ => True) q p := by
  induction hrun with
  | refl =>
    rcases h with h | ⟨t, htask⟩
    · exact absurd h List.not_mem_nil
    · exact nomatch htask
  | @tail p₁ p₂ hfront hstep ih =>
    rcases h with h | ⟨t, htask⟩
    · obtain ⟨ev, -, henv, hnext⟩ := hstep
      obtain ⟨t, seen, q, hfollows, htask, hq⟩ := ih (step_results hnext h)
      exact ⟨t, seen, q, hfollows, htask, hq.tail ⟨ev, trivial, henv, hnext⟩⟩
    · obtain ⟨seen, hfollows⟩ := Follows.of_run (t := t) (hfront.tail hstep)
      exact ⟨t, seen, p₂, hfollows, htask, .refl⟩

/-- The action of task `t`, if the event is one. -/
def ownAction (t : TaskId) (ev : Event ε ρ) (p : Pool ℓ ε σ ρ α) : List (ε × σ) :=
  match ev with
  | .act t' e => if t' = t then [(e, p.state)] else []
  | _ => []

/-- What task `t` sees of a list of events. -/
def seen (sys : System ℓ ε σ) (handler : ρ → Prog ℓ ε σ α) (t : TaskId) :
    List (Event ε ρ) → Pool ℓ ε σ ρ α → List (ε × σ)
  | [], _ => []
  | ev :: rest, p =>
    ownAction t ev p ++ ((p.step sys handler ev).map (seen sys handler t rest)).getD []

theorem Follows.step {p p' p'' : Pool ℓ ε σ ρ α} {ev : Event ε ρ} {before : List (ε × σ)}
    (h : Follows sys handler t p before p') (henv : p'.EnvOk sys ev)
    (hstep : p'.step sys handler ev = some p'') :
    Follows sys handler t p (before ++ ownAction t ev p') p'' := by
  cases ev with
  | act t' e =>
    show Follows sys handler t p (before ++ if t' = t then [(e, p'.state)] else []) p''
    by_cases hown : t' = t
    · subst hown
      rw [if_pos rfl]
      exact h.own henv hstep
    · rw [if_neg hown, List.append_nil]
      exact h.other (fun e' heq => hown (Event.act.inj heq).1) henv hstep
  | _ =>
    show Follows sys handler t p (before ++ []) p''
    rw [List.append_nil]
    exact h.other (fun _ heq => by cases heq) henv hstep

/-- A list of events that can be replayed can be followed. -/
theorem follows_of_replay {check : ε → σ → Bool} {events : List (Event ε ρ)}
    (hcheck : ∀ ev ∈ events, ∀ e ∈ ev.input?, ∀ s, check e s = true → sys.envOk e s)
    {p p' : Pool ℓ ε σ ρ α} (h : p.replay sys handler check events = some p') :
    Follows sys handler t p (p.seen sys handler t events) p' := by
  suffices hgen : ∀ (p₀ : Pool ℓ ε σ ρ α) before, Follows sys handler t p₀ before p →
      Follows sys handler t p₀ (before ++ p.seen sys handler t events) p' from hgen p [] .refl
  intro p₀
  induction events generalizing p with
  | nil =>
    intro before hbefore
    obtain rfl : p = p' := Option.some.inj h
    rw [seen, List.append_nil]
    exact hbefore
  | cons ev rest ih =>
    intro before hbefore
    obtain ⟨henv, p₁, hstep, hrest⟩ := replay_cons (hcheck ev List.mem_cons_self) h
    rw [seen, hstep, Option.map_some, Option.getD_some, ← List.append_assoc]
    exact ih (fun ev' h' => hcheck ev' (List.mem_cons_of_mem _ h')) hrest _
      (hbefore.step henv hstep)

end Pool

end Patwari.Lib
