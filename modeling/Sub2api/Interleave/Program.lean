import Mathlib.Data.List.Induction
import Sub2api.Interleave.Pool

/-!
# Programs of atomic actions

A program is a tree of atomic actions on a shared state: what runs between two actions is local
to the process and is the tree's branching. Programs form a monad, so sequential code is
written as such, and a pool of programs interleaves them action by action.

`Prog.Only R prog` says that every action of a program, whatever state it meets, is a step of `R`;
`Prog.Only.turn` and `Prog.Only.run` are what follows for the turns and the runs of a pool.

`Triple R G P prog Q` is the interference-aware Hoare triple: started in a state of `P`, with
the other processes moving the shared state along `R` between any two actions, every action of
`prog` moves it along `G`, and `prog` returns only in states of `Q`. The rules are `Triple.ret`,
`Triple.act`, `Triple.bind`, `Triple.frame` and `Triple.mono`; `programs_run` is their soundness
for pools.
-/

namespace Interleave

/-- A program over the shared state `S`, the environment's answers `E` and the result `α`. An
action that yields `none` is blocked: it does not happen until the state lets it. -/
inductive Prog (S E α : Type) : Type 1 where
  | ret (a : α)
  | act {β : Type} (action : E → S → Option (β × S)) (next : β → Prog S E α)

namespace Prog

variable {S E α β : Type}

/-- Sequential composition: graft the continuation onto every leaf. -/
def bind : Prog S E α → (α → Prog S E β) → Prog S E β
  | .ret a, k => k a
  | .act action next, k => .act action fun b => (next b).bind k

instance : Monad (Prog S E) where
  pure := .ret
  bind := bind

/-- The program of one atomic action that never blocks. -/
def atomic (f : E → S → β × S) : Prog S E β :=
  .act (fun e s => some (f e s)) .ret

/-- The program of one atomic action that waits for the state to let it happen. -/
def waiting (f : E → S → Option (β × S)) : Prog S E β :=
  .act f .ret

/-- The environment's answer to a question that leaves the shared state alone. -/
def ask (answer : E → β) : Prog S E β := atomic fun e s => (answer e, s)

@[simp] theorem pure_eq (a : α) : (pure a : Prog S E α) = .ret a := rfl

@[simp] theorem bind_eq (p : Prog S E α) (k : α → Prog S E β) : p >>= k = p.bind k := rfl

@[simp] theorem ret_bind (a : α) (k : α → Prog S E β) : (ret a : Prog S E α).bind k = k a := rfl

@[simp] theorem atomic_bind (f : E → S → β × S) (k : β → Prog S E α) :
    (atomic f).bind k = .act (fun e s => some (f e s)) k := rfl

@[simp] theorem waiting_bind (f : E → S → Option (β × S)) (k : β → Prog S E α) :
    (waiting f).bind k = .act f k := rfl

/-- One action of a program, as a step of a process. -/
def step : StepFn E (Prog S E α) S
  | _, .ret _, _ => none
  | e, .act action next, s => (action e s).map fun (b, s') => (next b, s')

/-- Whether a program has returned. -/
def finished : Prog S E α → Bool
  | .ret _ => true
  | .act _ _ => false

end Prog

section Triples

variable {S E α β : Type}

/-- `Safe R G Q prog s`: from `s`, under interference `R`, the actions of `prog` stay within `G`
and it returns only in states of `Q`. -/
def Safe (R G : S → S → Prop) (Q : α → S → Prop) : Prog S E α → S → Prop
  | .ret a, s => ∀ s', R s s' → Q a s'
  | .act action next, s => ∀ s', R s s' → ∀ e b s'', action e s' = some (b, s'') →
      G s' s'' ∧ Safe R G Q (next b) s''

/-- The interference-aware Hoare triple. -/
def Triple (R G : S → S → Prop) (P : S → Prop) (prog : Prog S E α) (Q : α → S → Prop) : Prop :=
  ∀ s, P s → Safe R G Q prog s

/-- An assertion that the interference cannot falsify. -/
def Stable (R : S → S → Prop) (P : S → Prop) : Prop :=
  ∀ s s', P s → R s s' → P s'

variable {R G : S → S → Prop} {P P' : S → Prop} {Q Q' : α → S → Prop}
variable {prog : Prog S E α}

/-- A triple's judgement survives interference that comes before it. -/
theorem Safe.interfered (trans : ∀ s₁ s₂ s₃, R s₁ s₂ → R s₂ s₃ → R s₁ s₃) {s s' : S}
    (safe : Safe R G Q prog s) (moved : R s s') :
    Safe R G Q prog s' := by
  cases prog with
  | ret a => exact fun t more => safe t (trans _ _ _ moved more)
  | act action next => exact fun t more => safe t (trans _ _ _ moved more)

theorem Safe.mono {s : S} (safe : Safe R G Q prog s) (weaker : ∀ a s, Q a s → Q' a s) :
    Safe R G Q' prog s := by
  induction prog generalizing s with
  | ret a => exact fun s' moved => weaker a s' (safe s' moved)
  | act action next ih =>
      intro s' moved e b s'' acted
      exact ⟨(safe s' moved e b s'' acted).1, ih b (safe s' moved e b s'' acted).2⟩

theorem Safe.bind (refl : ∀ s, R s s) {k : α → Prog S E β} {Q' : β → S → Prop} {s : S}
    (first : Safe R G Q prog s) (second : ∀ a s, Q a s → Safe R G Q' (k a) s) :
    Safe R G Q' (prog.bind k) s := by
  induction prog generalizing s with
  | ret a => exact second a s (first s (refl s))
  | act action next ih =>
      intro s' moved e b s'' acted
      exact ⟨(first s' moved e b s'' acted).1, ih b (first s' moved e b s'' acted).2⟩

theorem Triple.mono (triple : Triple R G P prog Q) (stronger : ∀ s, P' s → P s)
    (weaker : ∀ a s, Q a s → Q' a s) : Triple R G P' prog Q' :=
  fun s pre => (triple s (stronger s pre)).mono weaker

theorem Triple.ret {a : α} (stable : Stable R P) (post : ∀ s, P s → Q a s) :
    Triple R G P (.ret a : Prog S E α) Q :=
  fun s pre s' moved => post s' (stable s s' pre moved)

/-- The rule of one action: its precondition is stable, and in every state of it the action
makes a move of `G` into a state from which the rest is fine. -/
theorem Triple.act {action : E → S → Option (β × S)} {next : β → Prog S E α}
    {M : β → S → Prop} (stable : Stable R P)
    (acts : ∀ e s b s', P s → action e s = some (b, s') → G s s' ∧ M b s')
    (rest : ∀ b, Triple R G (M b) (next b) Q) : Triple R G P (.act action next) Q := by
  intro s pre s' moved e b s'' acted
  have made := acts e s' b s'' (stable s s' pre moved) acted
  exact ⟨made.1, rest b s'' made.2⟩

theorem Triple.bind (refl : ∀ s, R s s) {k : α → Prog S E β} {Q' : β → S → Prop}
    (first : Triple R G P prog Q) (second : ∀ a, Triple R G (Q a) (k a) Q') :
    Triple R G P (prog.bind k) Q' :=
  fun s pre => Safe.bind refl (first s pre) fun a s' mid => second a s' mid

/-- A fact that both the interference and the program's own actions keep is carried along. -/
theorem Safe.frame {F : S → Prop} (stable : Stable R F) (kept : Stable G F) {s : S}
    (safe : Safe R G Q prog s) (fact : F s) :
    Safe R G (fun a s => Q a s ∧ F s) prog s := by
  induction prog generalizing s with
  | ret a => exact fun s' moved => ⟨safe s' moved, stable s s' fact moved⟩
  | act action next ih =>
      intro s' moved e b s'' acted
      have made := safe s' moved e b s'' acted
      exact ⟨made.1, ih b made.2 (kept s' s'' (stable s s' fact moved) made.1)⟩

theorem Triple.frame {F : S → Prop} (stable : Stable R F) (kept : Stable G F)
    (triple : Triple R G P prog Q) :
    Triple R G (fun s => P s ∧ F s) prog (fun a s => Q a s ∧ F s) :=
  fun s pre => (triple s pre.1).frame stable kept pre.2

end Triples

section Soundness

variable {ι S E α : Type} [DecidableEq ι]

/-- One step of a safe program is within the guarantee, and what remains is safe. -/
theorem Safe.step {R G : S → S → Prop} {Q : α → S → Prop} {e : E} {prog next : Prog S E α}
    {s s' : S} (safe : Safe R G Q prog s) (refl : ∀ s, R s s)
    (moved : Prog.step e prog s = some (next, s')) : G s s' ∧ Safe R G Q next s' := by
  cases prog with
  | ret a => cases moved
  | act action k =>
      simp only [Prog.step, Option.map_eq_some_iff] at moved
      obtain ⟨⟨b, s''⟩, acted, same⟩ := moved
      cases same
      exact safe s (refl s) e b _ acted

/-- **Soundness for pools.** When every program satisfies its triple from the initial state, and
what one guarantees the others rely on, then after every schedule every program is still safe
from the shared state that was reached, and an invariant that all guarantees keep holds. -/
theorem programs_run {R G : ι → S → S → Prop} {Q : ι → α → S → Prop} {Inv : S → Prop}
    (refl : ∀ i s, R i s s) (trans : ∀ i s₁ s₂ s₃, R i s₁ s₂ → R i s₂ s₃ → R i s₁ s₃)
    (compatible : ∀ i j s s', i ≠ j → G i s s' → R j s s')
    (kept : ∀ i s s', G i s s' → Inv s → Inv s')
    {c : Pool ι (Prog S E α) S} (holds : Inv c.shared)
    (initially : ∀ i, Safe (R i) (G i) (Q i) (c.threads i) c.shared)
    (schedule : List (ι × E)) :
    Inv (c.run Prog.step schedule).shared ∧
      ∀ i, Safe (R i) (G i) (Q i) ((c.run Prog.step schedule).threads i)
        (c.run Prog.step schedule).shared := by
  refine Pool.run_invariant Prog.step
    (fun c => Inv c.shared ∧ ∀ i, Safe (R i) (G i) (Q i) (c.threads i) c.shared)
    ?_ schedule ⟨holds, initially⟩
  rintro c mover e p s ⟨inv, safe⟩ moved
  have made := (safe mover).step (refl mover) moved
  refine ⟨kept mover _ _ made.1 inv, fun i => ?_⟩
  by_cases same : i = mover
  · subst same
    simpa using made.2
  · simp only [Function.update_of_ne same]
    exact (safe i).interfered (trans i) (compatible mover i _ _ (Ne.symm same) made.1)

end Soundness

/-! ### Steps of one kind -/

section Only

variable {S E α β : Type} {R : S → S → Prop}

/-- Every action of the program is a step of `R`. -/
def Prog.Only (R : S → S → Prop) : Prog S E α → Prop
  | .ret _ => True
  | .act action next =>
      (∀ e s b s', action e s = some (b, s') → R s s') ∧ ∀ b, (next b).Only R

namespace Prog.Only

theorem ret {a : α} : (pure a : Prog S E α).Only R := trivial

theorem bind {prog : Prog S E α} {k : α → Prog S E β} (first : prog.Only R)
    (second : ∀ a, (k a).Only R) : (prog >>= k).Only R := by
  induction prog with
  | ret a => exact second a
  | act action next ih => exact ⟨first.1, fun b => ih b (first.2 b)⟩

theorem atomic {f : E → S → β × S} (steps : ∀ e s, R s (f e s).2) :
    (Prog.atomic f).Only R := by
  refine ⟨fun e s b s' acted => ?_, fun _ => trivial⟩
  have made := steps e s
  rwa [Option.some.inj acted] at made

theorem ask {answer : E → α} (refl : ∀ s, R s s) : (Prog.ask answer).Only R :=
  atomic fun _ s => refl s

variable {ι : Type} [DecidableEq ι] {c : Pool ι (Prog S E α) S}

/-- After any schedule the programs are what is left of programs of such steps. -/
theorem threads (only : ∀ i, (c.threads i).Only R) (schedule : List (ι × E)) (i : ι) :
    ((c.run Prog.step schedule).threads i).Only R := by
  refine Pool.run_invariant Prog.step (fun c => ∀ i, (c.threads i).Only R) ?_ schedule only i
  intro c mover e p s before moved j
  by_cases same : j = mover
  · subst same
    have mine := before j
    simp only [Function.update_self]
    cases thread : c.threads j with
    | ret a =>
        rw [thread] at moved
        cases moved
    | act action next =>
        rw [thread] at moved mine
        obtain ⟨answer, _, same⟩ := Option.map_eq_some_iff.mp moved
        cases same
        exact mine.2 answer.1
  · simp only [Function.update_of_ne same]
    exact before j

/-- A turn changes nothing or is such a step. -/
theorem turn (only : ∀ i, (c.threads i).Only R) (schedule : List (ι × E)) (i : ι) (e : E) :
    (c.run Prog.step (schedule ++ [(i, e)])).shared = (c.run Prog.step schedule).shared ∨
      R (c.run Prog.step schedule).shared (c.run Prog.step (schedule ++ [(i, e)])).shared := by
  rw [Pool.run_append, Pool.run_cons, Pool.run_nil]
  rcases Pool.advance_cases Prog.step i e (c.run Prog.step schedule) with same |
    ⟨p, s, moved, next⟩
  · exact Or.inl (congrArg Pool.shared same)
  · have mine := threads only schedule i
    refine Or.inr ?_
    rw [next]
    cases thread : (c.run Prog.step schedule).threads i with
    | ret a =>
        rw [thread] at moved
        cases moved
    | act action next =>
        rw [thread] at moved mine
        obtain ⟨answer, acted, same⟩ := Option.map_eq_some_iff.mp moved
        cases same
        exact mine.1 e _ answer.1 answer.2 acted

end Prog.Only

end Only

end Interleave
