/-
# Patwari.Lib.Prog — tasks over a shared state, and rely-guarantee reasoning about them.

A server runs many tasks over one shared state. A task is a `Prog`: a finite tree of atomic
actions, each with a label, a condition under which it may run, its effect on the state, and the
program that follows, all of which may depend on what the environment supplies (a clock reading,
a generated identifier, a fault). Between two actions of a task any other task may act.

* §1 is the program type and its monad.
* §2 is the pool: tasks are spawned, act one action at a time, finish, or are dropped. A dropped
  task may leave its next action behind, to happen once at any later moment, when that action had
  already been handed to threads that outlive the task.
* §3 is the logic: a `Discipline` is an invariant and a guarantee, `Safe` says that a program keeps
  both whatever the other tasks do, and its rules compose along the program text.
* §4 is its soundness: if every handler is safe, every reachable pool satisfies the invariant and
  every step of a run is a guaranteed step.
-/
import Mathlib.Logic.Function.Basic
import Mathlib.Logic.Relation
import Mathlib.Tactic

namespace Patwari.Lib

/-- The identity of a task; never used twice in one run. -/
abbrev TaskId := ℕ

/-! ## §1 — Programs. -/

/-- A program of atomic actions over the state `σ`, with environment inputs `ε`. -/
inductive Prog (ℓ ε σ α : Type) : Type where
  /-- The program has returned. -/
  | done (a : α)
  /-- One atomic action, then the rest of the program. -/
  | act (label : ℓ) (enabled : TaskId → σ → Bool) (run : TaskId → ε → σ → σ)
      (next : TaskId → ε → σ → Prog ℓ ε σ α)

namespace Prog

variable {ℓ ε σ α β γ : Type}

/-- Sequencing. -/
def bind : Prog ℓ ε σ α → (α → Prog ℓ ε σ β) → Prog ℓ ε σ β
  | done a, f => f a
  | act label enabled run next, f => act label enabled run fun t e s => (next t e s).bind f

instance : Monad (Prog ℓ ε σ) where
  pure := done
  bind := bind

@[simp] theorem pure_eq (a : α) : (pure a : Prog ℓ ε σ α) = done a := rfl

@[simp] theorem bind_eq (p : Prog ℓ ε σ α) (f : α → Prog ℓ ε σ β) : p >>= f = p.bind f := rfl

@[simp] theorem done_bind (a : α) (f : α → Prog ℓ ε σ β) : (done a).bind f = f a := rfl

@[simp] theorem act_bind (label : ℓ) (enabled : TaskId → σ → Bool) (run : TaskId → ε → σ → σ)
    (next : TaskId → ε → σ → Prog ℓ ε σ α) (f : α → Prog ℓ ε σ β) :
    (act label enabled run next).bind f =
      act label enabled run fun t e s => (next t e s).bind f := rfl

theorem bind_done (p : Prog ℓ ε σ α) : p.bind done = p := by
  induction p with
  | done a => rfl
  | act label enabled run next ih => simp only [act_bind, ih]

theorem bind_assoc (p : Prog ℓ ε σ α) (f : α → Prog ℓ ε σ β) (g : β → Prog ℓ ε σ γ) :
    (p.bind f).bind g = p.bind fun a => (f a).bind g := by
  induction p with
  | done a => rfl
  | act label enabled run next ih => simp only [act_bind, ih]

instance : LawfulMonad (Prog ℓ ε σ) :=
  LawfulMonad.mk' (Prog ℓ ε σ) (fun p => bind_done p) (fun _ _ => rfl) bind_assoc

/-- An action that may always run and returns a value. -/
def atomic (label : ℓ) (f : TaskId → ε → σ → β × σ) : Prog ℓ ε σ β :=
  act label (fun _ _ => true) (fun t e s => (f t e s).2) fun t e s => done (f t e s).1

/-- An action that waits for a condition. -/
def await (label : ℓ) (enabled : TaskId → σ → Bool) (f : TaskId → σ → σ) : Prog ℓ ε σ Unit :=
  act label enabled (fun t _ s => f t s) fun _ _ _ => done ()

/-- Whatever the environment supplies, no action the program takes for task `t` breaks `P`. -/
def Keeps (t : TaskId) (P : σ → Prop) : Prog ℓ ε σ α → Prop
  | done _ => True
  | act _ _ run next => ∀ e s, P s → P (run t e s) ∧ (next t e s).Keeps t P

namespace Keeps

variable {t : TaskId} {P : σ → Prop}

theorem done (a : α) : (Prog.done a : Prog ℓ ε σ α).Keeps t P := trivial

theorem bind {p : Prog ℓ ε σ α} {f : α → Prog ℓ ε σ β} (hp : p.Keeps t P)
    (hf : ∀ a, (f a).Keeps t P) : (p.bind f).Keeps t P := by
  induction p with
  | done a => exact hf a
  | act label enabled run next ih =>
    intro e s hs
    obtain ⟨hrun, hnext⟩ := hp e s hs
    exact ⟨hrun, ih t e s hnext⟩

theorem atomic {label : ℓ} {f : TaskId → ε → σ → β × σ} (h : ∀ e s, P s → P (f t e s).2) :
    (Prog.atomic label f).Keeps t P :=
  fun e s hs => ⟨h e s hs, trivial⟩

theorem await {label : ℓ} {enabled : TaskId → σ → Bool} {f : TaskId → σ → σ}
    (h : ∀ s, P s → P (f t s)) : (Prog.await (ε := ε) label enabled f).Keeps t P :=
  fun _ s hs => ⟨h s hs, trivial⟩

end Keeps

section Except

variable {κ : Type}

/-- No action of a program that may fail breaks `P`. -/
def KeepsE (t : TaskId) (P : σ → Prop) (p : ExceptT κ (Prog ℓ ε σ) α) : Prop := p.run.Keeps t P

namespace KeepsE

variable {t : TaskId} {P : σ → Prop}

theorem pure (a : α) : KeepsE t P (Pure.pure a : ExceptT κ (Prog ℓ ε σ) α) := trivial

theorem throw (e : κ) : KeepsE t P (MonadExcept.throw e : ExceptT κ (Prog ℓ ε σ) α) := trivial

theorem bind {p : ExceptT κ (Prog ℓ ε σ) α} {f : α → ExceptT κ (Prog ℓ ε σ) β}
    (hp : KeepsE t P p) (hf : ∀ a, KeepsE t P (f a)) : KeepsE t P (p >>= f) := by
  refine Keeps.bind hp fun r => ?_
  cases r with
  | ok a => exact hf a
  | error e => exact Keeps.done _

theorem guard {p : Prop} {_ : Decidable p} {e : κ} {f : PUnit → ExceptT κ (Prog ℓ ε σ) α}
    (h : KeepsE t P (f ⟨⟩)) :
    KeepsE t P (if p then MonadExcept.throw e >>= f else f ⟨⟩) := by
  split
  · exact Keeps.done _
  · exact h

theorem lift {p : Prog ℓ ε σ α} (hp : p.Keeps t P) :
    KeepsE t P (ExceptT.lift p : ExceptT κ (Prog ℓ ε σ) α) :=
  Keeps.bind hp fun _ => Keeps.done _

end KeepsE

end Except

/-- The label of a program's next action. -/
def label? : Prog ℓ ε σ α → Option ℓ
  | done _ => none
  | act label _ _ _ => some label

end Prog

/-! ## §2 — Pools. -/

/-- What the runtime adds to the programs. -/
structure System (ℓ ε σ : Type) where
  /-- What the environment may supply in a state. -/
  envOk : ε → σ → Prop
  /-- Whether an action with this label runs on threads that outlive its task. -/
  detachable : ℓ → Bool
  /-- What a task gives up when it ends, however it ends. -/
  cleanup : TaskId → σ → σ

/-- An action left behind by a dropped task. -/
structure Late (ℓ ε σ : Type) where
  task : TaskId
  label : ℓ
  run : TaskId → ε → σ → σ

/-- The tasks in flight over the shared state. -/
structure Pool (ℓ ε σ ρ α : Type) where
  state : σ
  /-- A running task, the request it serves and the rest of its program. -/
  tasks : TaskId → Option (ρ × Prog ℓ ε σ α)
  late : List (Late ℓ ε σ)
  /-- What finished tasks returned. -/
  results : List (ρ × α)
  /-- No task with this identity or a later one has existed yet. -/
  fresh : TaskId

/-- One thing that happens to a pool. -/
inductive Event (ε ρ : Type) where
  /-- A request arrives. -/
  | spawn (request : ρ)
  /-- A task takes its next action. -/
  | act (t : TaskId) (e : ε)
  /-- A task that has returned ends. -/
  | finish (t : TaskId)
  /-- A task is dropped between two actions. -/
  | drop (t : TaskId)
  /-- A task is dropped while its next action is outstanding. -/
  | detach (t : TaskId)
  /-- An action left behind happens. -/
  | late (i : ℕ) (e : ε)

/-- What the environment supplies with an event. -/
def Event.input? {ε ρ : Type} : Event ε ρ → Option ε
  | .act _ e | .late _ e => some e
  | _ => none

namespace Pool

variable {ℓ ε σ ρ α : Type}

/-- The pool with nothing in flight. -/
def init (s : σ) : Pool ℓ ε σ ρ α := ⟨s, fun _ => none, [], [], 0⟩

/-- A task ends: it leaves the pool and gives up what it held. -/
def endTask (sys : System ℓ ε σ) (p : Pool ℓ ε σ ρ α) (t : TaskId) : Pool ℓ ε σ ρ α :=
  { p with state := sys.cleanup t p.state, tasks := Function.update p.tasks t none }

/-- The effect of one event, `none` when it cannot happen. -/
def step (sys : System ℓ ε σ) (handler : ρ → Prog ℓ ε σ α) :
    Event ε ρ → Pool ℓ ε σ ρ α → Option (Pool ℓ ε σ ρ α)
  | .spawn request, p =>
    some { p with
      tasks := Function.update p.tasks p.fresh (some (request, handler request))
      fresh := p.fresh + 1 }
  | .act t e, p =>
    match p.tasks t with
    | some (request, .act _ enabled run next) =>
      if enabled t p.state then
        some { p with
          state := run t e p.state
          tasks := Function.update p.tasks t (some (request, next t e p.state)) }
      else none
    | _ => none
  | .finish t, p =>
    match p.tasks t with
    | some (request, .done a) =>
      some { p.endTask sys t with results := (request, a) :: p.results }
    | _ => none
  | .drop t, p =>
    match p.tasks t with
    | some _ => some (p.endTask sys t)
    | none => none
  | .detach t, p =>
    match p.tasks t with
    | some (_, .act label enabled run _) =>
      if sys.detachable label && enabled t p.state then
        some { p.endTask sys t with late := ⟨t, label, run⟩ :: p.late }
      else none
    | _ => none
  | .late i e, p =>
    match p.late[i]? with
    | some entry =>
      some { p with state := entry.run entry.task e p.state, late := p.late.eraseIdx i }
    | none => none

/-- The environment supplies an event's input only where it may. -/
def EnvOk (sys : System ℓ ε σ) (p : Pool ℓ ε σ ρ α) : Event ε ρ → Prop
  | .act _ e | .late _ e => sys.envOk e p.state
  | _ => True

/-- One step of a run in which every event is `allowed` where it happens. -/
def Step (sys : System ℓ ε σ) (handler : ρ → Prog ℓ ε σ α)
    (allowed : Pool ℓ ε σ ρ α → Event ε ρ → Prop) (p p' : Pool ℓ ε σ ρ α) : Prop :=
  ∃ ev, allowed p ev ∧ p.EnvOk sys ev ∧ p.step sys handler ev = some p'

/-- A run: any number of steps. -/
def Run (sys : System ℓ ε σ) (handler : ρ → Prog ℓ ε σ α)
    (allowed : Pool ℓ ε σ ρ α → Event ε ρ → Prop) : Pool ℓ ε σ ρ α → Pool ℓ ε σ ρ α → Prop :=
  Relation.ReflTransGen (Step sys handler allowed)

/-- The pool after a list of events whose inputs pass a check, `none` when one of them fails it or
cannot happen. -/
def replay (sys : System ℓ ε σ) (handler : ρ → Prog ℓ ε σ α) (check : ε → σ → Bool) :
    List (Event ε ρ) → Pool ℓ ε σ ρ α → Option (Pool ℓ ε σ ρ α)
  | [], p => some p
  | ev :: rest, p =>
    if ev.input?.all fun e => check e p.state then
      (p.step sys handler ev).bind (replay sys handler check rest)
    else none

section Replay

variable {sys : System ℓ ε σ} {handler : ρ → Prog ℓ ε σ α} {check : ε → σ → Bool}
  {p p' : Pool ℓ ε σ ρ α}

/-- A replay goes event by event. -/
theorem replay_cons {ev : Event ε ρ} {rest : List (Event ε ρ)}
    (hcheck : ∀ e ∈ ev.input?, ∀ s, check e s = true → sys.envOk e s)
    (h : p.replay sys handler check (ev :: rest) = some p') :
    p.EnvOk sys ev ∧ ∃ p₁, p.step sys handler ev = some p₁ ∧
      p₁.replay sys handler check rest = some p' := by
  unfold replay at h
  split_ifs at h with hsupplied
  refine ⟨?_, Option.bind_eq_some_iff.mp h⟩
  cases ev with
  | act t e => exact hcheck e rfl p.state hsupplied
  | late i e => exact hcheck e rfl p.state hsupplied
  | _ => trivial

/-- Events that can be replayed, each of them allowed wherever it happens, are a run. -/
theorem Run.of_replay {allowed : Pool ℓ ε σ ρ α → Event ε ρ → Prop} {events : List (Event ε ρ)}
    (hcheck : ∀ ev ∈ events, ∀ e ∈ ev.input?, ∀ s, check e s = true → sys.envOk e s)
    (hallowed : ∀ ev ∈ events, ∀ p, allowed p ev)
    (h : p.replay sys handler check events = some p') : Run sys handler allowed p p' := by
  induction events generalizing p with
  | nil =>
    obtain rfl : p = p' := Option.some.inj h
    exact .refl
  | cons ev rest ih =>
    obtain ⟨henv, p₁, hstep, hrest⟩ := replay_cons (hcheck ev List.mem_cons_self) h
    have htail := ih (fun ev' h' => hcheck ev' (List.mem_cons_of_mem _ h'))
      (fun ev' h' => hallowed ev' (List.mem_cons_of_mem _ h')) hrest
    exact .head ⟨ev, hallowed ev List.mem_cons_self p, henv, hstep⟩ htail

end Replay

end Pool

/-! ## §3 — Rely and guarantee. -/

/-- An invariant of the shared state and the steps a task may take. What is proved with it holds of
the runs in which every action meets `stepOk`, every action left behind carries a label that meets
`detachOk`, and no task is dropped in a state that does not meet `exitOk`. -/
structure Discipline {ℓ ε σ : Type} (sys : System ℓ ε σ) where
  inv : σ → Prop
  guar : TaskId → σ → σ → Prop
  stepOk : TaskId → ℓ → ε → σ → σ → Prop := fun _ _ _ _ _ => True
  detachOk : ℓ → Prop
  /-- The states a task may end in. -/
  exitOk : TaskId → σ → Prop := fun _ _ => True
  /-- What holds of a task that is not in flight, and what is left of it does not change. -/
  idle : TaskId → σ → Prop := fun _ _ => True
  inv_step : ∀ {t s s'}, inv s → guar t s s' → inv s'
  guar_cleanup : ∀ {t s}, inv s → exitOk t s → guar t s (sys.cleanup t s)
  exit_stable : ∀ {t t' s s'}, t' ≠ t → inv s → guar t' s s' → exitOk t s → exitOk t s' := by
    intros
    trivial
  idle_cleanup : ∀ t s, idle t (sys.cleanup t s) := by
    intros
    trivial
  idle_stable : ∀ {t t' s s'}, t' ≠ t → inv s → guar t' s s' → idle t s → idle t s' := by
    intros
    trivial

namespace Discipline

variable {ℓ ε σ α β : Type} {sys : System ℓ ε σ} (D : Discipline sys)

/-- What the other tasks may do to the state while task `t` waits. -/
def Interference (t : TaskId) : σ → σ → Prop :=
  Relation.ReflTransGen fun s s' => D.inv s ∧ ∃ t', t' ≠ t ∧ D.guar t' s s'

/-- A property no other task can break. -/
def Stable (t : TaskId) (P : σ → Prop) : Prop :=
  ∀ s s' t', t' ≠ t → D.inv s → D.guar t' s s' → P s → P s'

variable {D}

theorem Interference.inv {t : TaskId} {s s' : σ} (h : D.Interference t s s') (hs : D.inv s) :
    D.inv s' := by
  induction h with
  | refl => exact hs
  | tail _ hstep ih =>
    obtain ⟨t', -, hguar⟩ := hstep.2
    exact D.inv_step ih hguar

theorem Stable.of_interference {t : TaskId} {P : σ → Prop} (hP : D.Stable t P) {s s' : σ}
    (h : D.Interference t s s') (hs : P s) : P s' := by
  induction h with
  | refl => exact hs
  | tail _ hstep ih =>
    obtain ⟨hinv, t', hne, hguar⟩ := hstep
    exact hP _ _ t' hne hinv hguar ih

theorem Stable.true (t : TaskId) : D.Stable t fun _ => True := fun _ _ _ _ _ _ _ => trivial

theorem Stable.and {t : TaskId} {P Q : σ → Prop} (hP : D.Stable t P) (hQ : D.Stable t Q) :
    D.Stable t fun s => P s ∧ Q s :=
  fun s s' t' hne hinv hguar h => ⟨hP s s' t' hne hinv hguar h.1, hQ s s' t' hne hinv hguar h.2⟩

theorem Stable.forall {ι : Sort*} {t : TaskId} {P : ι → σ → Prop} (h : ∀ i, D.Stable t (P i)) :
    D.Stable t fun s => ∀ i, P i s :=
  fun s s' t' hne hinv hguar hs i => h i s s' t' hne hinv hguar (hs i)

/-- A fact about values, not about the state, is stable. -/
theorem Stable.const (t : TaskId) (p : Prop) : D.Stable t fun _ => p := fun _ _ _ _ _ _ h => h

variable (D)

/-- What is left of task `t` after it was dropped in state `s` may happen at any later moment. -/
def SafeLate (t : TaskId) (label : ℓ) (run : TaskId → ε → σ → σ) (s : σ) : Prop :=
  ∀ s', D.Interference t s s' → D.inv s' → ∀ e, sys.envOk e s' →
    D.stepOk t label e s' (run t e s') →
    D.guar t s' (run t e s') ∧ (D.idle t s' → D.idle t (run t e s'))

/-- **`Safe`** — from state `s` the program of task `t` takes only guaranteed steps, whatever the
other tasks do between them, and what it returns satisfies `Q` in the state it returns in. An
action whose label may be left behind stays guaranteed after the task has given up what it held. -/
def Safe (t : TaskId) : Prog ℓ ε σ α → (α → σ → Prop) → σ → Prop
  | .done a, Q, s => Q a s
  | .act label enabled run next, Q, s =>
    (∀ s', D.Interference t s s' → D.inv s' → enabled t s' = true → ∀ e, sys.envOk e s' →
      D.stepOk t label e s' (run t e s') →
      D.guar t s' (run t e s') ∧ Safe t (next t e s') Q (run t e s')) ∧
    (sys.detachable label = true → D.detachOk label → ∀ s', D.Interference t s s' → D.inv s' →
      D.exitOk t s' → D.SafeLate t label run (sys.cleanup t s'))

namespace Safe

variable {D} {t : TaskId} {s : σ} {Q R : α → σ → Prop}

theorem done {a : α} (h : Q a s) : D.Safe t (.done a) Q s := h

theorem mono {p : Prog ℓ ε σ α} (h : D.Safe t p Q s) (hQR : ∀ a s, D.inv s → Q a s → R a s)
    (hs : D.inv s) : D.Safe t p R s := by
  induction p generalizing s with
  | done a => exact hQR a s hs h
  | act label enabled run next ih =>
    refine ⟨fun s' hi hinv hen e he hok => ?_, h.2⟩
    obtain ⟨hguar, hnext⟩ := h.1 s' hi hinv hen e he hok
    exact ⟨hguar, ih _ _ _ hnext (D.inv_step hinv hguar)⟩

/-- Other tasks cannot make a program unsafe: safety quantifies over their steps. The return
condition must survive them. -/
theorem of_interference {p : Prog ℓ ε σ α} (h : D.Safe t p Q s) (hQ : ∀ a, D.Stable t (Q a))
    {s' : σ} (hi : D.Interference t s s') : D.Safe t p Q s' := by
  cases p with
  | done a => exact (hQ a).of_interference hi h
  | act label enabled run next =>
    exact ⟨fun s'' hi' hinv hen e he hok => h.1 s'' (hi.trans hi') hinv hen e he hok,
      fun hdet hok s'' hi' hinv hexit => h.2 hdet hok s'' (hi.trans hi') hinv hexit⟩

/-- Safety of a sequence. -/
theorem bind {p : Prog ℓ ε σ α} {f : α → Prog ℓ ε σ β} {R : β → σ → Prop}
    (h : D.Safe t p Q s) (hs : D.inv s)
    (hf : ∀ a s, D.inv s → Q a s → D.Safe t (f a) R s) : D.Safe t (p.bind f) R s := by
  induction p generalizing s with
  | done a => exact hf a s hs h
  | act label enabled run next ih =>
    refine ⟨fun s' hi hinv hen e he hok => ?_, h.2⟩
    obtain ⟨hguar, hnext⟩ := h.1 s' hi hinv hen e he hok
    exact ⟨hguar, ih _ _ _ hnext (D.inv_step hinv hguar)⟩

/-- What neither the other tasks nor the program's own actions break still holds at the end. -/
theorem frame {p : Prog ℓ ε σ α} (h : D.Safe t p Q s) {P : σ → Prop} (hkeeps : p.Keeps t P)
    (hP : D.Stable t P) (hs : P s) : D.Safe t p (fun a s => Q a s ∧ P s) s := by
  induction p generalizing s with
  | done a => exact ⟨h, hs⟩
  | act label enabled run next ih =>
    refine ⟨fun s' hi hinv hen e he hok => ?_, h.2⟩
    obtain ⟨hguar, hnext⟩ := h.1 s' hi hinv hen e he hok
    obtain ⟨hrun, hkeeps'⟩ := hkeeps e s' (hP.of_interference hi hs)
    exact ⟨hguar, ih _ _ _ hnext hkeeps' hrun⟩

/-- One action, from a precondition no other task can break. -/
theorem atomic {label : ℓ} {f : TaskId → ε → σ → α × σ} {P : σ → Prop} (hP : D.Stable t P)
    (hs : P s)
    (hstep : ∀ s e, D.inv s → sys.envOk e s → D.stepOk t label e s (f t e s).2 → P s →
      D.guar t s (f t e s).2 ∧ Q (f t e s).1 (f t e s).2)
    (hlate : sys.detachable label = true → D.detachOk label → ∀ s, D.inv s → P s →
      D.SafeLate t label (fun t e s => (f t e s).2) (sys.cleanup t s)) :
    D.Safe t (Prog.atomic label f) Q s :=
  ⟨fun _ hi hinv _ e he hok => hstep _ e hinv he hok (hP.of_interference hi hs),
    fun hdet hok _ hi hinv _ => hlate hdet hok _ hinv (hP.of_interference hi hs)⟩

/-- An action left behind is safe when what it needs survives the end of its task and the steps of
the others. -/
theorem late {label : ℓ} {run : TaskId → ε → σ → σ} {P : σ → Prop} (hP : D.Stable t P)
    (hs : P (sys.cleanup t s))
    (hstep : ∀ s e, D.inv s → sys.envOk e s → D.stepOk t label e s (run t e s) → P s →
      D.guar t s (run t e s) ∧ (D.idle t s → D.idle t (run t e s))) :
    D.SafeLate t label run (sys.cleanup t s) :=
  fun _ hi hinv e he hok => hstep _ e hinv he hok (hP.of_interference hi hs)

/-- Waiting for a condition, from a precondition no other task can break. -/
theorem await {label : ℓ} {enabled : TaskId → σ → Bool} {f : TaskId → σ → σ} {Q : Unit → σ → Prop}
    {P : σ → Prop} (hP : D.Stable t P) (hs : P s)
    (hstep : ∀ s, D.inv s → enabled t s = true → P s → D.guar t s (f t s) ∧ Q () (f t s))
    (hlate : sys.detachable label = false) :
    D.Safe t (Prog.await (ε := ε) label enabled f) Q s :=
  ⟨fun _ hi hinv hen _ _ _ => hstep _ hinv hen (hP.of_interference hi hs),
    fun h => by rw [hlate] at h; exact absurd h Bool.false_ne_true⟩

end Safe

/-- What any of the tasks may have done to the state, one step after another. -/
def Reach : σ → σ → Prop :=
  Relation.ReflTransGen fun s s' => D.inv s ∧ ∃ t, D.guar t s s'

/-- A property no step of any task can break. -/
def Persistent (P : σ → Prop) : Prop := ∀ t s s', D.inv s → D.guar t s s' → P s → P s'

variable {D}

theorem Persistent.stable {P : σ → Prop} (h : D.Persistent P) (t : TaskId) : D.Stable t P :=
  fun s s' t' _ hinv hguar => h t' s s' hinv hguar

theorem Persistent.of_reach {P : σ → Prop} (h : D.Persistent P) {s s' : σ} (hr : D.Reach s s')
    (hs : P s) : P s' := by
  induction hr with
  | refl => exact hs
  | tail _ hstep ih =>
    obtain ⟨hinv, t, hguar⟩ := hstep
    exact h t _ _ hinv hguar ih

theorem Persistent.and {P Q : σ → Prop} (hP : D.Persistent P) (hQ : D.Persistent Q) :
    D.Persistent fun s => P s ∧ Q s :=
  fun t s s' hinv hguar h => ⟨hP t s s' hinv hguar h.1, hQ t s s' hinv hguar h.2⟩

theorem Persistent.forall {ι : Sort*} {P : ι → σ → Prop} (h : ∀ i, D.Persistent (P i)) :
    D.Persistent fun s => ∀ i, P i s :=
  fun t s s' hinv hguar hs i => h i t s s' hinv hguar (hs i)

theorem Persistent.const (p : Prop) : D.Persistent fun _ => p := fun _ _ _ _ _ h => h

theorem Interference.reach {t : TaskId} {s s' : σ} (h : D.Interference t s s') : D.Reach s s' := by
  induction h with
  | refl => exact .refl
  | tail _ hstep ih =>
    obtain ⟨hinv, t', -, hguar⟩ := hstep
    exact ih.tail ⟨hinv, t', hguar⟩

variable (D)

namespace Safe

variable {D} {t : TaskId} {s : σ} {Q R : α → σ → Prop}

/-- Where a program returns was reached from where it started. -/
theorem reach {p : Prog ℓ ε σ α} (h : D.Safe t p Q s) :
    D.Safe t p (fun a s' => Q a s' ∧ D.Reach s s') s := by
  suffices hgen : ∀ s₀, D.Reach s₀ s → D.Safe t p (fun a s' => Q a s' ∧ D.Reach s₀ s') s from
    hgen s .refl
  induction p generalizing s with
  | done a => exact fun s₀ hr => ⟨h, hr⟩
  | act label enabled run next ih =>
    intro s₀ hr
    refine ⟨fun s' hi hinv hen e he hok => ?_, h.2⟩
    obtain ⟨hguar, hnext⟩ := h.1 s' hi hinv hen e he hok
    exact ⟨hguar, ih _ _ _ hnext s₀ ((hr.trans hi.reach).tail ⟨hinv, t, hguar⟩)⟩

/-- Safety of a sequence, with the way to the second part. -/
theorem bind_reach {p : Prog ℓ ε σ α} {f : α → Prog ℓ ε σ β} {R : β → σ → Prop}
    (h : D.Safe t p Q s) (hs : D.inv s)
    (hf : ∀ a s', D.inv s' → D.Reach s s' → Q a s' → D.Safe t (f a) R s') :
    D.Safe t (p.bind f) R s :=
  h.reach.bind hs fun a s' hinv hq => hf a s' hinv hq.2 hq.1

end Safe

/-! ### Programs that need to know nothing. -/

/-- The program is safe for every task, whatever state it starts in. -/
def Always (p : Prog ℓ ε σ α) : Prop := ∀ t s, D.inv s → D.Safe t p (fun _ _ => True) s

variable {D}

theorem Always.done (a : α) : D.Always (.done a) := fun _ _ _ => trivial

theorem Always.bind {p : Prog ℓ ε σ α} {f : α → Prog ℓ ε σ β} (hp : D.Always p)
    (hf : ∀ a, D.Always (f a)) : D.Always (p.bind f) :=
  fun t s hs => (hp t s hs).bind hs fun a s' hs' _ => hf a t s' hs'

theorem Always.of_safe {p : Prog ℓ ε σ α} {Q : TaskId → α → σ → Prop}
    (h : ∀ t s, D.inv s → D.Safe t p (Q t) s) : D.Always p :=
  fun t s hs => (h t s hs).mono (fun _ _ _ _ => trivial) hs

/-! ### Programs that can fail. -/

section Except

variable {κ : Type}

variable (D)

/-- A program that may fail and is safe for every task, whatever state it starts in. -/
def AlwaysE (p : ExceptT κ (Prog ℓ ε σ) α) : Prop := D.Always p.run

namespace AlwaysE

variable {D}

theorem pure (a : α) : D.AlwaysE (Pure.pure a : ExceptT κ (Prog ℓ ε σ) α) := Always.done _

theorem throw (e : κ) : D.AlwaysE (MonadExcept.throw e : ExceptT κ (Prog ℓ ε σ) α) :=
  Always.done _

theorem bind {p : ExceptT κ (Prog ℓ ε σ) α} {f : α → ExceptT κ (Prog ℓ ε σ) β}
    (hp : D.AlwaysE p) (hf : ∀ a, D.AlwaysE (f a)) : D.AlwaysE (p >>= f) := by
  refine Always.bind hp fun r => ?_
  cases r with
  | ok a => exact hf a
  | error e => exact Always.done _

/-- A check that fails with an error or goes on. -/
theorem guard {p : Prop} {_ : Decidable p} {e : κ} {f : PUnit → ExceptT κ (Prog ℓ ε σ) α}
    (h : D.AlwaysE (f ⟨⟩)) : D.AlwaysE (if p then MonadExcept.throw e >>= f else f ⟨⟩) := by
  split
  · exact Always.done _
  · exact h

theorem lift {p : Prog ℓ ε σ α} (hp : D.Always p) :
    D.AlwaysE (ExceptT.lift p : ExceptT κ (Prog ℓ ε σ) α) :=
  Always.bind hp fun _ => Always.done _

end AlwaysE

/-- The condition a result is under: `Q` for a value, `R` for an error. -/
def outcome (Q : α → σ → Prop) (R : κ → σ → Prop) : Except κ α → σ → Prop
  | .ok a, s => Q a s
  | .error e, s => R e s

/-- Safety of a program that returns a value or fails. -/
def SafeE (t : TaskId) (p : ExceptT κ (Prog ℓ ε σ) α) (Q : α → σ → Prop) (R : κ → σ → Prop)
    (s : σ) : Prop :=
  D.Safe t p.run (outcome Q R) s

namespace SafeE

variable {D} {t : TaskId} {s : σ} {Q : α → σ → Prop} {R : κ → σ → Prop}

theorem pure {a : α} (h : Q a s) : D.SafeE t (Pure.pure a : ExceptT κ (Prog ℓ ε σ) α) Q R s := h

theorem throw {e : κ} (h : R e s) :
    D.SafeE t (MonadExcept.throw e : ExceptT κ (Prog ℓ ε σ) α) Q R s := h

theorem bind {p : ExceptT κ (Prog ℓ ε σ) α} {f : α → ExceptT κ (Prog ℓ ε σ) β}
    {Q' : β → σ → Prop} (h : D.SafeE t p Q R s) (hs : D.inv s)
    (hf : ∀ a s', D.inv s' → D.Reach s s' → Q a s' → D.SafeE t (f a) Q' R s') :
    D.SafeE t (p >>= f) Q' R s := by
  refine Safe.bind_reach h hs fun r s' hinv hr hq => ?_
  cases r with
  | ok a => exact hf a s' hinv hr hq
  | error e => exact hq

theorem mono {p : ExceptT κ (Prog ℓ ε σ) α} {Q' : α → σ → Prop} {R' : κ → σ → Prop}
    (h : D.SafeE t p Q R s) (hs : D.inv s) (hQ : ∀ a s, D.inv s → Q a s → Q' a s)
    (hR : ∀ e s, D.inv s → R e s → R' e s) : D.SafeE t p Q' R' s := by
  refine Safe.mono h (fun r s' hinv hr => ?_) hs
  cases r with
  | ok a => exact hQ a s' hinv hr
  | error e => exact hR e s' hinv hr

/-- Where a program returns or fails was reached from where it started. -/
theorem reach {p : ExceptT κ (Prog ℓ ε σ) α} (h : D.SafeE t p Q R s) (hs : D.inv s) :
    D.SafeE t p (fun a s' => Q a s' ∧ D.Reach s s') (fun e s' => R e s' ∧ D.Reach s s') s := by
  refine Safe.mono (Safe.reach h) (fun r s' _ hr => ?_) hs
  cases r with
  | ok a => exact hr
  | error e => exact hr

/-- A program that cannot fail. -/
theorem lift {p : Prog ℓ ε σ α} (h : D.Safe t p Q s) (hs : D.inv s) :
    D.SafeE t (ExceptT.lift p) Q R s :=
  Safe.bind h hs fun _ _ _ hq => hq

/-- A check that fails with an error or goes on. -/
theorem guard {p : Prop} {_ : Decidable p} {e : κ} {f : PUnit → ExceptT κ (Prog ℓ ε σ) α}
    (hfail : p → R e s) (h : ¬ p → D.SafeE t (f ⟨⟩) Q R s) :
    D.SafeE t (if p then MonadExcept.throw e >>= f else f ⟨⟩) Q R s := by
  split
  · next hp => exact hfail hp
  · next hp => exact h hp

theorem of_always {p : ExceptT κ (Prog ℓ ε σ) α} (h : D.AlwaysE p) (hs : D.inv s) :
    D.SafeE t p (fun _ _ => True) (fun _ _ => True) s :=
  Safe.mono (h t s hs) (fun r _ _ _ => by cases r <;> trivial) hs

theorem always {p : ExceptT κ (Prog ℓ ε σ) α} {Q : TaskId → α → σ → Prop}
    {R : TaskId → κ → σ → Prop} (h : ∀ t s, D.inv s → D.SafeE t p (Q t) (R t) s) : D.AlwaysE p :=
  Always.of_safe h

/-- What neither the other tasks nor the program's own actions break still holds at the end,
whether it fails or not. -/
theorem frame {p : ExceptT κ (Prog ℓ ε σ) α} (h : D.SafeE t p Q R s) (hinv : D.inv s)
    {P : σ → Prop} (hkeeps : Prog.KeepsE t P p) (hP : D.Stable t P) (hs : P s) :
    D.SafeE t p (fun a s => Q a s ∧ P s) (fun e s => R e s ∧ P s) s := by
  refine Safe.mono (Safe.frame h hkeeps hP hs) (fun r s' _ hr => ?_) hinv
  cases r with
  | ok a => exact hr
  | error e => exact hr

/-- Safety of a sequence, with a fact the first part leaves alone. -/
theorem bind_frame {p : ExceptT κ (Prog ℓ ε σ) α} {f : α → ExceptT κ (Prog ℓ ε σ) β}
    {Q' : β → σ → Prop} (h : D.SafeE t p Q R s) (hinv : D.inv s) {P : σ → Prop}
    (hkeeps : Prog.KeepsE t P p) (hP : D.Stable t P) (hs : P s)
    (hf : ∀ a s', D.inv s' → D.Reach s s' → Q a s' → P s' → D.SafeE t (f a) Q' R s') :
    D.SafeE t (p >>= f) Q' R s := by
  have hframe : D.SafeE t p (fun a s => Q a s ∧ P s) R s :=
    (h.frame hinv hkeeps hP hs).mono hinv (fun _ _ _ hq => hq) fun _ _ _ hr => hr.1
  exact hframe.bind hinv fun a s' hinv' hr hq => hf a s' hinv' hr hq.1 hq.2

/-- A computation without actions. -/
theorem ofExcept {x : Except κ α} (hok : ∀ a, x = .ok a → Q a s)
    (herr : ∀ e, x = .error e → R e s) :
    D.SafeE t (ExceptT.mk (Pure.pure x) : ExceptT κ (Prog ℓ ε σ) α) Q R s := by
  cases x with
  | ok a => exact hok a rfl
  | error e => exact herr e rfl

end SafeE

end Except

end Discipline

/-! ## §4 — Soundness. -/

namespace Pool

variable {ℓ ε σ ρ α : Type} {sys : System ℓ ε σ} {handler : ρ → Prog ℓ ε σ α}
  {allowed : Pool ℓ ε σ ρ α → Event ε ρ → Prop}

/-- What holds of every reachable pool: the invariant, the safety of every task in flight and of
every action left behind, and the condition `Post` of everything returned. -/
structure Good (D : Discipline sys) (Post : ρ → α → Prop) (p : Pool ℓ ε σ ρ α) : Prop where
  inv : D.inv p.state
  tasks : ∀ t request prog, p.tasks t = some (request, prog) →
    t < p.fresh ∧ D.Safe t prog (fun a s => Post request a ∧ D.exitOk t s) p.state
  late : ∀ entry ∈ p.late, entry.task < p.fresh ∧ p.tasks entry.task = none ∧
    D.SafeLate entry.task entry.label entry.run p.state
  late_nodup : (p.late.map Late.task).Nodup
  results : ∀ r ∈ p.results, Post r.1 r.2

theorem Good.init (D : Discipline sys) (Post : ρ → α → Prop) {s : σ} (hs : D.inv s) :
    (Pool.init s : Pool ℓ ε σ ρ α).Good D Post where
  inv := hs
  tasks := fun _ _ _ h => by simp [Pool.init] at h
  late := fun _ h => by simp [Pool.init] at h
  late_nodup := by simp [Pool.init]
  results := fun _ h => by simp [Pool.init] at h

/-- The other tasks of a pool stay safe when one task moves the state by a guaranteed step. -/
theorem Good.others {D : Discipline sys} {Post : ρ → α → Prop} {p : Pool ℓ ε σ ρ α}
    (h : p.Good D Post) {t : TaskId} {s' : σ} (hguar : D.guar t p.state s') {t' : TaskId}
    (hne : t' ≠ t) {request : ρ} {prog : Prog ℓ ε σ α} (ht' : p.tasks t' = some (request, prog)) :
    D.Safe t' prog (fun a s => Post request a ∧ D.exitOk t' s) s' := by
  refine (h.tasks t' request prog ht').2.of_interference (fun a => ?_) ?_
  · exact (Discipline.Stable.const t' _).and fun _ _ _ => D.exit_stable
  exact Relation.ReflTransGen.single ⟨h.inv, t, hne.symm, hguar⟩

/-- So do the actions left behind by the others. -/
theorem Good.others_late {D : Discipline sys} {Post : ρ → α → Prop} {p : Pool ℓ ε σ ρ α}
    (h : p.Good D Post) {t : TaskId} {s' : σ} (hguar : D.guar t p.state s') {entry : Late ℓ ε σ}
    (hentry : entry ∈ p.late) (hne : entry.task ≠ t) :
    D.SafeLate entry.task entry.label entry.run s' := by
  intro s'' hi
  refine (h.late entry hentry).2.2 s'' (Relation.ReflTransGen.head ?_ hi)
  exact ⟨h.inv, t, hne.symm, hguar⟩

/-- The tasks after one has ended are the others. -/
theorem of_endTask {p : Pool ℓ ε σ ρ α} {t t' : TaskId} {task : ρ × Prog ℓ ε σ α}
    (h : (p.endTask sys t).tasks t' = some task) : t' ≠ t ∧ p.tasks t' = some task := by
  by_cases hne : t' = t
  · subst hne
    simp [Pool.endTask] at h
  · exact ⟨hne, by simpa [Pool.endTask, Function.update_of_ne hne] using h⟩

/-- A task that ends where it may leaves a good pool. -/
theorem Good.endTask {D : Discipline sys} {Post : ρ → α → Prop} {p : Pool ℓ ε σ ρ α}
    (h : p.Good D Post) {t : TaskId} (ht : p.tasks t ≠ none) (hexit : D.exitOk t p.state) :
    (p.endTask sys t).Good D Post where
  inv := D.inv_step h.inv (D.guar_cleanup h.inv hexit)
  tasks := by
    intro t' request prog ht'
    obtain ⟨hne, hold⟩ := of_endTask ht'
    exact ⟨(h.tasks t' request prog hold).1, h.others (D.guar_cleanup h.inv hexit) hne hold⟩
  late := by
    intro entry hentry
    obtain ⟨hlt, hnone, -⟩ := h.late entry hentry
    have hne : entry.task ≠ t := by
      rintro rfl
      exact ht hnone
    refine ⟨hlt, ?_, h.others_late (D.guar_cleanup h.inv hexit) hentry hne⟩
    simpa [Pool.endTask, Function.update_of_ne hne] using hnone
  late_nodup := h.late_nodup
  results := h.results

/-- What is left after one entry is taken out belongs to other tasks. -/
theorem task_ne_of_eraseIdx {late : List (Late ℓ ε σ)} (h : (late.map Late.task).Nodup) {i : ℕ}
    {entry entry' : Late ℓ ε σ} (hget : late[i]? = some entry) (hmem : entry' ∈ late.eraseIdx i) :
    entry'.task ≠ entry.task := by
  intro heq
  obtain ⟨j, hne, hj⟩ := List.mem_eraseIdx_iff_getElem?.mp hmem
  have hlt : j < (late.map Late.task).length := by
    rw [List.length_map]
    exact (List.getElem?_eq_some_iff.mp hj).1
  refine hne ((List.getElem?_inj hlt h).mp ?_)
  rw [List.getElem?_map, List.getElem?_map, hj, hget, Option.map_some, Option.map_some, heq]

/-- An event meets the conditions of a discipline, in runs in which a request is given only to the
tasks that may serve it. -/
def Meets (D : Discipline sys) (Serves : ρ → TaskId → Prop) (p : Pool ℓ ε σ ρ α) :
    Event ε ρ → Prop
  | .spawn request => Serves request p.fresh
  | .act t e => ∀ request label enabled run next,
    p.tasks t = some (request, .act label enabled run next) → enabled t p.state = true →
      sys.envOk e p.state → D.stepOk t label e p.state (run t e p.state)
  | .finish _ => True
  | .drop t => p.tasks t ≠ none → D.exitOk t p.state
  | .detach t => ∀ request label enabled run next,
    p.tasks t = some (request, .act label enabled run next) →
      D.detachOk label ∧ D.exitOk t p.state
  | .late i e => ∀ entry, p.late[i]? = some entry → sys.envOk e p.state →
    D.stepOk entry.task entry.label e p.state (entry.run entry.task e p.state)

/-- One event keeps a pool good, and moves its state by a guaranteed step or not at all. -/
theorem Good.step {D : Discipline sys} {Serves : ρ → TaskId → Prop} {Post : ρ → α → Prop}
    {p p' : Pool ℓ ε σ ρ α} {ev : Event ε ρ}
    (hsafe : ∀ request t s, Serves request t → D.inv s →
      D.Safe t (handler request) (fun a s => Post request a ∧ D.exitOk t s) s)
    (hmeets : p.Meets D Serves ev) (h : p.Good D Post) (henv : p.EnvOk sys ev)
    (hstep : p.step sys handler ev = some p') :
    p'.Good D Post ∧ (p'.state = p.state ∨ ∃ t, D.guar t p.state p'.state) := by
  cases ev with
  | spawn request =>
    obtain rfl : _ = p' := Option.some.inj hstep
    refine ⟨⟨h.inv, ?_, ?_, h.late_nodup, h.results⟩, Or.inl rfl⟩
    · intro t' request' prog ht'
      by_cases hne : t' = p.fresh
      · subst hne
        simp only [Function.update_self, Option.some.injEq, Prod.mk.injEq] at ht'
        obtain ⟨rfl, rfl⟩ := ht'
        exact ⟨Nat.lt_succ_self _, hsafe request _ _ hmeets h.inv⟩
      · have hold : p.tasks t' = some (request', prog) := by
          simpa [Function.update_of_ne hne] using ht'
        obtain ⟨hlt, hs⟩ := h.tasks t' request' prog hold
        exact ⟨Nat.lt_succ_of_lt hlt, hs⟩
    · intro entry hentry
      obtain ⟨hlt, hnone, hguar⟩ := h.late entry hentry
      refine ⟨Nat.lt_succ_of_lt hlt, ?_, hguar⟩
      simpa [Function.update_of_ne hlt.ne] using hnone
  | act t e =>
    simp only [Pool.step] at hstep
    split at hstep
    · next request label enabled run next htask =>
      split_ifs at hstep with hen
      obtain rfl := Option.some.inj hstep
      obtain ⟨hlt, hprog⟩ := h.tasks t request _ htask
      obtain ⟨hguar, hnext⟩ := hprog.1 p.state .refl h.inv hen e henv
        (hmeets request label enabled run next htask hen henv)
      refine ⟨⟨D.inv_step h.inv hguar, ?_, ?_, h.late_nodup, h.results⟩, Or.inr ⟨t, hguar⟩⟩
      · intro t' request' prog ht'
        by_cases hne : t' = t
        · subst hne
          simp only [Function.update_self, Option.some.injEq, Prod.mk.injEq] at ht'
          obtain ⟨rfl, rfl⟩ := ht'
          exact ⟨hlt, hnext⟩
        · have hold : p.tasks t' = some (request', prog) := by
            simpa [Function.update_of_ne hne] using ht'
          exact ⟨(h.tasks t' request' prog hold).1, h.others hguar hne hold⟩
      · intro entry hentry
        obtain ⟨hltE, hnone, -⟩ := h.late entry hentry
        have hne : entry.task ≠ t := by
          intro heq
          rw [heq, htask] at hnone
          simp at hnone
        refine ⟨hltE, ?_, h.others_late hguar hentry hne⟩
        simpa [Function.update_of_ne hne] using hnone
    · simp at hstep
  | finish t =>
    simp only [Pool.step] at hstep
    split at hstep
    · next request a htask =>
      obtain rfl := Option.some.inj hstep
      obtain ⟨hpost, hexit⟩ := (h.tasks t request _ htask).2
      have hend := h.endTask (t := t) (by simp [htask]) hexit
      refine ⟨⟨hend.inv, hend.tasks, hend.late, hend.late_nodup, ?_⟩,
        Or.inr ⟨t, D.guar_cleanup h.inv hexit⟩⟩
      intro r hr
      rcases List.mem_cons.mp hr with rfl | hr
      · exact hpost
      · exact h.results r hr
    · simp at hstep
  | drop t =>
    simp only [Pool.step] at hstep
    split at hstep
    · next task htask =>
      obtain rfl := Option.some.inj hstep
      have hexit := hmeets (by simp [htask])
      exact ⟨h.endTask (by simp [htask]) hexit, Or.inr ⟨t, D.guar_cleanup h.inv hexit⟩⟩
    · simp at hstep
  | detach t =>
    simp only [Pool.step] at hstep
    split at hstep
    · next request label enabled run next htask =>
      split_ifs at hstep with hen
      obtain rfl := Option.some.inj hstep
      obtain ⟨hdet, -⟩ := Bool.and_eq_true_iff.mp hen
      obtain ⟨hok, hexit⟩ := hmeets request label enabled run next htask
      have hend := h.endTask (t := t) (by simp [htask]) hexit
      obtain ⟨hlt, hprog⟩ := h.tasks t request _ htask
      refine ⟨⟨hend.inv, hend.tasks, ?_, ?_, hend.results⟩,
        Or.inr ⟨t, D.guar_cleanup h.inv hexit⟩⟩
      · intro entry hentry
        rcases List.mem_cons.mp hentry with rfl | hentry
        · refine ⟨hlt, by simp [Pool.endTask], ?_⟩
          exact hprog.2 hdet hok p.state .refl h.inv hexit
        · exact hend.late entry hentry
      · refine List.nodup_cons.mpr ⟨fun hmem => ?_, hend.late_nodup⟩
        obtain ⟨entry, hentry, heq⟩ := List.mem_map.mp hmem
        have hnone := (h.late entry hentry).2.1
        rw [heq, htask] at hnone
        simp at hnone
    · simp at hstep
  | late i e =>
    simp only [Pool.step] at hstep
    split at hstep
    · next entry hget =>
      obtain rfl := Option.some.inj hstep
      obtain ⟨-, hnone, hguarE⟩ := h.late entry (List.mem_of_getElem? hget)
      obtain ⟨hguar, -⟩ := hguarE p.state .refl h.inv e henv (hmeets entry hget henv)
      have hsub := List.eraseIdx_sublist p.late i
      refine ⟨⟨D.inv_step h.inv hguar, ?_, ?_, h.late_nodup.sublist (hsub.map _), h.results⟩,
        Or.inr ⟨entry.task, hguar⟩⟩
      · intro t' request prog ht'
        have hne : t' ≠ entry.task := by
          rintro rfl
          rw [hnone] at ht'
          simp at ht'
        exact ⟨(h.tasks t' request prog ht').1, h.others hguar hne ht'⟩
      · intro entry' hentry'
        have hmem := List.mem_of_mem_eraseIdx hentry'
        obtain ⟨hlt, hnone', -⟩ := h.late entry' hmem
        refine ⟨hlt, hnone', h.others_late hguar hmem ?_⟩
        exact task_ne_of_eraseIdx h.late_nodup hget hentry'
    · simp at hstep

/-- **`Good.run`** — every pool a run reaches from a good pool is good. -/
theorem Good.run {D : Discipline sys} {Serves : ρ → TaskId → Prop} {Post : ρ → α → Prop}
    {p p' : Pool ℓ ε σ ρ α}
    (hsafe : ∀ request t s, Serves request t → D.inv s →
      D.Safe t (handler request) (fun a s => Post request a ∧ D.exitOk t s) s)
    (hmeets : ∀ p ev, allowed p ev → p.Meets D Serves ev) (h : p.Good D Post)
    (hrun : Run sys handler allowed p p') : p'.Good D Post := by
  induction hrun with
  | refl => exact h
  | tail _ hstep ih =>
    obtain ⟨ev, hallowed, henv, hstep⟩ := hstep
    exact (ih.step hsafe (hmeets _ _ hallowed) henv hstep).1

/-- **`Good.run_steps`** — a run from a good pool moves the state by guaranteed steps only. -/
theorem Good.run_steps {D : Discipline sys} {Serves : ρ → TaskId → Prop} {Post : ρ → α → Prop}
    {p p' : Pool ℓ ε σ ρ α}
    (hsafe : ∀ request t s, Serves request t → D.inv s →
      D.Safe t (handler request) (fun a s => Post request a ∧ D.exitOk t s) s)
    (hmeets : ∀ p ev, allowed p ev → p.Meets D Serves ev) (h : p.Good D Post)
    (hrun : Run sys handler allowed p p') :
    D.Reach p.state p'.state := by
  induction hrun with
  | refl => exact .refl
  | tail hfront hstep ih =>
    have hgood := h.run hsafe hmeets hfront
    obtain ⟨ev, hallowed, henv, hstep⟩ := hstep
    obtain ⟨-, hstate⟩ := hgood.step hsafe (hmeets _ _ hallowed) henv hstep
    rcases hstate with heq | hguar
    · rw [heq]
      exact ih
    · exact ih.tail ⟨hgood.inv, hguar⟩

/-! ### What is left of tasks. -/

/-- The action a task takes in a good pool is a guaranteed step. -/
theorem Good.act_guar {D : Discipline sys} {Post : ρ → α → Prop} {p : Pool ℓ ε σ ρ α}
    (h : p.Good D Post) {t : TaskId} {request : ρ} {label : ℓ} {enabled : TaskId → σ → Bool}
    {run : TaskId → ε → σ → σ} {next : TaskId → ε → σ → Prog ℓ ε σ α}
    (htask : p.tasks t = some (request, .act label enabled run next))
    (hen : enabled t p.state = true) {e : ε} (henv : sys.envOk e p.state)
    (hok : D.stepOk t label e p.state (run t e p.state)) : D.guar t p.state (run t e p.state) :=
  (((h.tasks t request _ htask).2.1 p.state .refl h.inv hen e henv) hok).1

/-- Tasks that are not in flight are idle. -/
def Idle (D : Discipline sys) (p : Pool ℓ ε σ ρ α) : Prop :=
  ∀ t, p.tasks t = none → D.idle t p.state

/-- A guaranteed step of a task in flight leaves the others idle. -/
theorem Idle.of_guar {D : Discipline sys} {p p' : Pool ℓ ε σ ρ α} (h : p.Idle D)
    (hinv : D.inv p.state) {t : TaskId} (hguar : D.guar t p.state p'.state)
    (htasks : ∀ t', t' ≠ t → p'.tasks t' = none → p.tasks t' = none)
    (hown : p'.tasks t = none → D.idle t p'.state) : p'.Idle D := by
  intro t' hnone
  by_cases hne : t' = t
  · subst hne
    exact hown hnone
  · exact D.idle_stable (Ne.symm hne) hinv hguar (h t' (htasks t' hne hnone))

/-- One event leaves the tasks that are not in flight idle. -/
theorem Good.idle_step {D : Discipline sys} {Serves : ρ → TaskId → Prop} {Post : ρ → α → Prop}
    {p p' : Pool ℓ ε σ ρ α} {ev : Event ε ρ} (hmeets : p.Meets D Serves ev) (h : p.Good D Post)
    (henv : p.EnvOk sys ev) (hstep : p.step sys handler ev = some p') (hidle : p.Idle D) :
    p'.Idle D := by
  have hupdate : ∀ (t : TaskId) (x : Option (ρ × Prog ℓ ε σ α)) (t' : TaskId), t' ≠ t →
      Function.update p.tasks t x t' = none → p.tasks t' = none := by
    intro t x t' hne hnone
    rwa [Function.update_of_ne hne] at hnone
  cases ev with
  | spawn request =>
    obtain rfl : _ = p' := Option.some.inj hstep
    intro t hnone
    by_cases hne : t = p.fresh
    · subst hne
      simp at hnone
    · exact hidle t (hupdate _ _ t hne hnone)
  | act t e =>
    simp only [Pool.step] at hstep
    split at hstep
    · next request label enabled run next htask =>
      split_ifs at hstep with hen
      obtain rfl := Option.some.inj hstep
      have hguar := h.act_guar htask hen henv (hmeets request label enabled run next htask hen henv)
      refine hidle.of_guar h.inv hguar (hupdate t _) fun hnone => ?_
      simp at hnone
    · simp at hstep
  | finish t =>
    simp only [Pool.step] at hstep
    split at hstep
    · next request a htask =>
      obtain rfl := Option.some.inj hstep
      have hexit := (h.tasks t request _ htask).2.2
      exact hidle.of_guar h.inv (D.guar_cleanup h.inv hexit) (hupdate t none)
        fun _ => D.idle_cleanup t p.state
    · simp at hstep
  | drop t =>
    simp only [Pool.step] at hstep
    split at hstep
    · next task htask =>
      obtain rfl := Option.some.inj hstep
      exact hidle.of_guar h.inv (D.guar_cleanup h.inv (hmeets (by simp [htask]))) (hupdate t none)
        fun _ => D.idle_cleanup t p.state
    · simp at hstep
  | detach t =>
    simp only [Pool.step] at hstep
    split at hstep
    · next request label enabled run next htask =>
      split_ifs at hstep with hen
      obtain rfl := Option.some.inj hstep
      have hexit := (hmeets request label enabled run next htask).2
      exact hidle.of_guar h.inv (D.guar_cleanup h.inv hexit) (hupdate t none)
        fun _ => D.idle_cleanup t p.state
    · simp at hstep
  | late i e =>
    simp only [Pool.step] at hstep
    split at hstep
    · next entry hget =>
      obtain rfl := Option.some.inj hstep
      obtain ⟨-, hnone, hlate⟩ := h.late entry (List.mem_of_getElem? hget)
      obtain ⟨hguar, hkeeps⟩ := hlate p.state .refl h.inv e henv (hmeets entry hget henv)
      exact hidle.of_guar h.inv hguar (fun _ _ hnone' => hnone') fun _ => hkeeps (hidle _ hnone)
    · simp at hstep

/-- Every step of a run lies between its ends. -/
theorem Run.between {p p' : Pool ℓ ε σ ρ α} (hrun : Run sys handler allowed p p') :
    Relation.ReflTransGen (fun q q' => Step sys handler allowed q q' ∧
      Run sys handler allowed p q ∧ Run sys handler allowed q' p') p p' := by
  induction hrun with
  | refl => exact .refl
  | tail hfront hstep ih =>
    refine (Relation.ReflTransGen.mono (fun q q' h => ?_) _ _ ih).tail ⟨hstep, hfront, .refl⟩
    exact ⟨h.1, h.2.1, h.2.2.tail hstep⟩

/-! ### Which task serves which request. -/

theorem Step.mono {allowed' : Pool ℓ ε σ ρ α → Event ε ρ → Prop} {p p' : Pool ℓ ε σ ρ α}
    (h : Step sys handler allowed p p') (hsub : ∀ ev, allowed p ev → allowed' p ev) :
    Step sys handler allowed' p p' := by
  obtain ⟨ev, hallowed, hrest⟩ := h
  exact ⟨ev, hsub ev hallowed, hrest⟩

theorem Run.mono {allowed' : Pool ℓ ε σ ρ α → Event ε ρ → Prop} {p p' : Pool ℓ ε σ ρ α}
    (h : Run sys handler allowed p p') (hsub : ∀ p ev, allowed p ev → allowed' p ev) :
    Run sys handler allowed' p p' :=
  Relation.ReflTransGen.mono (fun p _ hstep => Step.mono hstep (hsub p)) _ _ h

/-- A request that arrives is given to the task an assignment says. -/
def Assigned (request : TaskId → Option ρ) (p : Pool ℓ ε σ ρ α) : Event ε ρ → Prop
  | .spawn r => request p.fresh = some r
  | _ => True

/-- One event changes the request of no task that is in flight before and after it, and a task that
is new serves the request that arrives. -/
theorem step_tasks {p p' : Pool ℓ ε σ ρ α} {ev : Event ε ρ}
    (hstep : p.step sys handler ev = some p') {t : TaskId} {r : ρ} {prog : Prog ℓ ε σ α}
    (ht : p'.tasks t = some (r, prog)) :
    (∃ prog', p.tasks t = some (r, prog')) ∨ (t = p.fresh ∧ ev = .spawn r) := by
  have hend : ∀ (u : TaskId), (p.endTask sys u).tasks t = some (r, prog) →
      ∃ prog', p.tasks t = some (r, prog') := by
    intro u hu
    by_cases hne : t = u
    · subst hne
      simp [Pool.endTask] at hu
    · exact ⟨prog, by simpa [Pool.endTask, Function.update_of_ne hne] using hu⟩
  cases ev with
  | spawn request =>
    obtain rfl : _ = p' := Option.some.inj hstep
    by_cases hne : t = p.fresh
    · subst hne
      simp only [Function.update_self, Option.some.injEq, Prod.mk.injEq] at ht
      exact Or.inr ⟨rfl, by rw [ht.1]⟩
    · exact Or.inl ⟨prog, by simpa [Function.update_of_ne hne] using ht⟩
  | act u e =>
    simp only [Pool.step] at hstep
    split at hstep
    · next request label enabled run next htask =>
      split_ifs at hstep
      obtain rfl := Option.some.inj hstep
      by_cases hne : t = u
      · subst hne
        simp only [Function.update_self, Option.some.injEq, Prod.mk.injEq] at ht
        exact Or.inl ⟨_, by rw [htask, ht.1]⟩
      · exact Or.inl ⟨prog, by simpa [Function.update_of_ne hne] using ht⟩
    · simp at hstep
  | finish u =>
    simp only [Pool.step] at hstep
    split at hstep
    · obtain rfl := Option.some.inj hstep
      exact Or.inl (hend u ht)
    · simp at hstep
  | drop u =>
    simp only [Pool.step] at hstep
    split at hstep
    · obtain rfl := Option.some.inj hstep
      exact Or.inl (hend u ht)
    · simp at hstep
  | detach u =>
    simp only [Pool.step] at hstep
    split at hstep
    · split_ifs at hstep
      obtain rfl := Option.some.inj hstep
      exact Or.inl (hend u ht)
    · simp at hstep
  | late i e =>
    simp only [Pool.step] at hstep
    split at hstep
    · obtain rfl := Option.some.inj hstep
      exact Or.inl ⟨prog, ht⟩
    · simp at hstep

/-- What is new among the results has been returned by a task. -/
theorem step_results {p p' : Pool ℓ ε σ ρ α} {ev : Event ε ρ}
    (hstep : p.step sys handler ev = some p') {x : ρ × α} (hx : x ∈ p'.results) :
    x ∈ p.results ∨ ∃ t, p.tasks t = some (x.1, .done x.2) := by
  cases ev with
  | finish t =>
    simp only [Pool.step] at hstep
    split at hstep
    · next request a htask =>
      obtain rfl := Option.some.inj hstep
      rcases List.mem_cons.mp hx with rfl | hx
      · exact Or.inr ⟨t, htask⟩
      · exact Or.inl hx
    · simp at hstep
  | _ =>
    simp only [Pool.step] at hstep
    try split at hstep
    all_goals
      try split_ifs at hstep
      first
      | (obtain rfl := Option.some.inj hstep; exact Or.inl hx)
      | simp at hstep

/-- Only actions that may outlive their task are left behind. -/
theorem step_late {p p' : Pool ℓ ε σ ρ α} {ev : Event ε ρ}
    (hstep : p.step sys handler ev = some p')
    (hp : ∀ entry ∈ p.late, sys.detachable entry.label = true) :
    ∀ entry ∈ p'.late, sys.detachable entry.label = true := by
  cases ev with
  | detach t =>
    simp only [Pool.step] at hstep
    split at hstep
    · split_ifs at hstep with hen
      obtain rfl := Option.some.inj hstep
      intro entry hentry
      rcases List.mem_cons.mp hentry with rfl | hentry
      · exact (Bool.and_eq_true_iff.mp hen).1
      · exact hp entry hentry
    · simp at hstep
  | late i e =>
    simp only [Pool.step] at hstep
    split at hstep
    · obtain rfl := Option.some.inj hstep
      exact fun entry hentry => hp entry (List.mem_of_mem_eraseIdx hentry)
    · simp at hstep
  | _ =>
    simp only [Pool.step] at hstep
    try split at hstep
    all_goals
      try split_ifs at hstep
      first
      | (obtain rfl := Option.some.inj hstep; exact hp)
      | simp at hstep

/-- Only an arriving request uses up an identity. -/
theorem step_fresh {p p' : Pool ℓ ε σ ρ α} {ev : Event ε ρ}
    (hstep : p.step sys handler ev = some p') :
    p'.fresh = p.fresh ∨ (p'.fresh = p.fresh + 1 ∧ ∃ r, ev = .spawn r) := by
  cases ev with
  | spawn request =>
    obtain rfl : _ = p' := Option.some.inj hstep
    exact Or.inr ⟨rfl, request, rfl⟩
  | _ =>
    simp only [Pool.step] at hstep
    split at hstep
    all_goals
      try split_ifs at hstep
      first
      | (obtain rfl := Option.some.inj hstep; exact Or.inl rfl)
      | simp at hstep

/-- A task in flight serves the request it was assigned. -/
theorem Run.assigned {request : TaskId → Option ρ} {s : σ} {p : Pool ℓ ε σ ρ α}
    (hrun : Run sys handler (fun p ev => allowed p ev ∧ p.Assigned request ev) (Pool.init s) p)
    {t : TaskId} {r : ρ} {prog : Prog ℓ ε σ α} (ht : p.tasks t = some (r, prog)) :
    request t = some r := by
  induction hrun generalizing prog with
  | refl => simp [Pool.init] at ht
  | tail _ hstep ih =>
    obtain ⟨ev, ⟨-, hassigned⟩, -, hstep⟩ := hstep
    rcases step_tasks hstep ht with ⟨prog', hold⟩ | ⟨rfl, rfl⟩
    · exact ih hold
    · exact hassigned

/-- **`Run.exists_assigned`** — every run gives each of its tasks one request, once and for all. -/
theorem Run.exists_assigned {s : σ} {p : Pool ℓ ε σ ρ α}
    (hrun : Run sys handler allowed (Pool.init s) p) :
    ∃ request : TaskId → Option ρ,
      Run sys handler (fun p ev => allowed p ev ∧ p.Assigned request ev) (Pool.init s) p := by
  -- the requests that arrived so far went to tasks below the next identity
  suffices hgen : ∃ request : TaskId → Option ρ,
      Run sys handler (fun q ev => (allowed q ev ∧ q.Assigned request ev) ∧
        ((∃ r, ev = .spawn r) → q.fresh < p.fresh)) (Pool.init s) p ∧
        ∀ t r prog, p.tasks t = some (r, prog) → t < p.fresh ∧ request t = some r by
    obtain ⟨request, hrun', -⟩ := hgen
    exact ⟨request, hrun'.mono fun _ _ h => h.1⟩
  induction hrun with
  | refl => exact ⟨fun _ => none, .refl, fun t r prog ht => by simp [Pool.init] at ht⟩
  | @tail p₁ p₂ hfront hstep ih =>
    obtain ⟨request, hrun', htasks⟩ := ih
    obtain ⟨ev, hallowed, henv, hstep⟩ := hstep
    have hnext : ∀ r, ev = .spawn r → p₁.fresh < p₂.fresh := by
      rintro r rfl
      obtain rfl : _ = p₂ := Option.some.inj hstep
      exact Nat.lt_succ_self _
    have hmono : p₁.fresh ≤ p₂.fresh := by
      rcases step_fresh hstep with heq | ⟨heq, -⟩
      · exact heq.ge
      · exact heq ▸ Nat.le_succ _
    -- an arriving request extends the assignment at the new identity
    refine ⟨fun t => match ev with
      | .spawn r => if t = p₁.fresh then some r else request t
      | _ => request t, ?_, ?_⟩
    · refine Relation.ReflTransGen.tail (hrun'.mono fun q ev' h => ⟨⟨h.1.1, ?_⟩, fun hs =>
        lt_of_lt_of_le (h.2 hs) hmono⟩) ⟨ev, ⟨⟨hallowed, ?_⟩, fun ⟨r, hr⟩ => hnext r hr⟩, henv,
          hstep⟩
      · cases ev' with
        | spawn r' =>
          have hold : request q.fresh = some r' := h.1.2
          have hne : q.fresh ≠ p₁.fresh := (h.2 ⟨r', rfl⟩).ne
          cases ev with
          | spawn r => exact (if_neg hne).trans hold
          | _ => exact hold
        | _ => trivial
      · cases ev with
        | spawn r => exact if_pos rfl
        | _ => trivial
    · intro t r prog ht
      rcases step_tasks hstep ht with ⟨prog', hold⟩ | ⟨rfl, rfl⟩
      · obtain ⟨hlt, hr⟩ := htasks t r prog' hold
        refine ⟨lt_of_lt_of_le hlt hmono, ?_⟩
        cases ev with
        | spawn r' => exact (if_neg hlt.ne).trans hr
        | _ => exact hr
      · exact ⟨hnext r rfl, if_pos rfl⟩

end Pool

end Patwari.Lib
