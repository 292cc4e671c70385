import Mathlib.Algebra.BigOperators.Group.Finset.Piecewise
import Mathlib.Algebra.Order.BigOperators.Group.Finset
import Mathlib.Data.Fintype.BigOperators
import Mathlib.Data.List.Basic
import Mathlib.Logic.Function.Basic

/-!
# Pools of interleaved processes

A pool is a shared state together with one local state per process. A schedule is a list of
turns: which process moves, and what the environment answers to it (a fault, a clock reading, a
reply of a remote party). A run is a function of its schedule, so a statement about every
schedule is a statement about every interleaving, and a process that is never scheduled again
has crashed where it stands.

`run_invariant` is the rule by which facts about single steps become facts about runs: an
invariant of the whole pool that every step of every process keeps holds after every schedule.
-/

namespace Interleave

universe u v w x

/-- The shared state and the local state of every process. -/
structure Pool (ι : Type u) (P : Type v) (S : Type w) where
  shared : S
  threads : ι → P

/-- One step of one process: from the environment's answer, its local state and the shared
state to the next ones. `none` means that the process is finished or blocked. -/
abbrev StepFn (E : Type x) (P : Type v) (S : Type w) := E → P → S → Option (P × S)

section Runs

variable {ι : Type u} {P : Type v} {S : Type w} {E : Type x} [DecidableEq ι]

namespace Pool

/-- One turn of process `i`; the turn of a finished or blocked process changes nothing. -/
def advance (step : StepFn E P S) (i : ι) (e : E) (c : Pool ι P S) : Pool ι P S :=
  match step e (c.threads i) c.shared with
  | some (p, s) => { shared := s, threads := Function.update c.threads i p }
  | none => c

/-- The pool after a schedule. -/
def run (step : StepFn E P S) : List (ι × E) → Pool ι P S → Pool ι P S
  | [], c => c
  | (i, e) :: rest, c => run step rest (c.advance step i e)

@[simp] theorem run_nil (step : StepFn E P S) (c : Pool ι P S) : run step [] c = c := rfl

@[simp] theorem run_cons (step : StepFn E P S) (i : ι) (e : E) (rest : List (ι × E))
    (c : Pool ι P S) : run step ((i, e) :: rest) c = run step rest (c.advance step i e) := rfl

theorem run_append (step : StepFn E P S) (before after : List (ι × E)) (c : Pool ι P S) :
    run step (before ++ after) c = run step after (run step before c) := by
  induction before generalizing c with
  | nil => rfl
  | cons turn rest ih => exact ih _

/-- Who is where after a step: the process that moved, or another one as before. -/
theorem update_cases {threads : ι → P} {s : S} {i j : ι} {p q : P}
    (at_ : ({ shared := s, threads := Function.update threads i p } : Pool ι P S).threads j = q) :
    (j = i ∧ p = q) ∨ (j ≠ i ∧ threads j = q) := by
  change Function.update threads i p j = q at at_
  by_cases own : j = i
  · subst own
    rw [Function.update_self] at at_
    exact Or.inl ⟨rfl, at_⟩
  · rw [Function.update_of_ne own] at at_
    exact Or.inr ⟨own, at_⟩

/-- A turn either changes nothing or is a step of its process. -/
theorem advance_cases (step : StepFn E P S) (i : ι) (e : E) (c : Pool ι P S) :
    c.advance step i e = c ∨
      ∃ p s, step e (c.threads i) c.shared = some (p, s) ∧
        c.advance step i e = { shared := s, threads := Function.update c.threads i p } := by
  unfold advance
  cases moved : step e (c.threads i) c.shared with
  | none => exact Or.inl rfl
  | some next => exact Or.inr ⟨next.1, next.2, rfl, rfl⟩

variable {c : Pool ι P S}

/-- An invariant of the pool that every step of every process keeps holds after every
schedule. -/
theorem run_invariant (step : StepFn E P S) (Inv : Pool ι P S → Prop)
    (preserved : ∀ c i e p s, Inv c → step e (c.threads i) c.shared = some (p, s) →
      Inv { shared := s, threads := Function.update c.threads i p })
    (schedule : List (ι × E)) (initially : Inv c) :
    Inv (run step schedule c) := by
  induction schedule generalizing c with
  | nil => exact initially
  | cons turn rest ih =>
      obtain ⟨i, e⟩ := turn
      apply ih
      rcases advance_cases step i e c with same | ⟨p, s, moved, next⟩
      · rw [same]; exact initially
      · rw [next]; exact preserved c i e p s initially moved

/-- A process without a turn stays where it is. -/
theorem run_threads (step : StepFn E P S) {i : ι} {schedule : List (ι × E)} (c : Pool ι P S)
    (idle : ∀ turn ∈ schedule, turn.1 ≠ i) : (run step schedule c).threads i = c.threads i := by
  induction schedule generalizing c with
  | nil => rfl
  | cons turn rest ih =>
      obtain ⟨j, e⟩ := turn
      have other : j ≠ i := idle (j, e) (List.mem_cons_self ..)
      rw [run_cons, ih _ fun turn later => idle turn (List.mem_cons_of_mem _ later)]
      rcases advance_cases step j e c with same | ⟨p, s, _, next⟩
      · rw [same]
      · rw [next]
        exact Function.update_of_ne other.symm _ _

/-- `P` holds of every turn of a run, in the pool it is taken in. -/
def Throughout (step : StepFn E P S) (holds : Pool ι P S → ι → E → Prop) :
    List (ι × E) → Pool ι P S → Prop
  | [], _ => True
  | (i, e) :: rest, c => holds c i e ∧ Throughout step holds rest (c.advance step i e)

instance Throughout.decidable (step : StepFn E P S) (holds : Pool ι P S → ι → E → Prop)
    [∀ c i e, Decidable (holds c i e)] (schedule : List (ι × E)) (c : Pool ι P S) :
    Decidable (Throughout step holds schedule c) :=
  match schedule with
  | [] => isTrue trivial
  | (i, e) :: rest =>
      have := Throughout.decidable step holds rest (c.advance step i e)
      inferInstanceAs (Decidable (holds c i e ∧ Throughout step holds rest (c.advance step i e)))

theorem Throughout.and {step : StepFn E P S} {first second : Pool ι P S → ι → E → Prop}
    {schedule : List (ι × E)} (left : Throughout step first schedule c)
    (right : Throughout step second schedule c) :
    Throughout step (fun c i e => first c i e ∧ second c i e) schedule c := by
  induction schedule generalizing c with
  | nil => trivial
  | cons turn rest ih => exact ⟨⟨left.1, right.1⟩, ih left.2 right.2⟩

/-- An invariant that every step of a kind keeps holds after every schedule of such steps. -/
theorem run_invariant_throughout (step : StepFn E P S) (Inv : Pool ι P S → Prop)
    (holds : Pool ι P S → ι → E → Prop)
    (preserved : ∀ c i e p s, Inv c → holds c i e → step e (c.threads i) c.shared = some (p, s) →
      Inv { shared := s, threads := Function.update c.threads i p })
    (schedule : List (ι × E)) (initially : Inv c) (meets : Throughout step holds schedule c) :
    Inv (run step schedule c) := by
  induction schedule generalizing c with
  | nil => exact initially
  | cons turn rest ih =>
      obtain ⟨i, e⟩ := turn
      obtain ⟨now, later⟩ := meets
      refine ih ?_ later
      rcases advance_cases step i e c with same | ⟨p, s, moved, next⟩
      · rw [same]; exact initially
      · rw [next]; exact preserved c i e p s initially now moved

/-- What such an invariant gives for a turn holds throughout. -/
theorem Throughout.of_invariant (step : StepFn E P S) (Inv : Pool ι P S → Prop)
    {holds gives : Pool ι P S → ι → E → Prop}
    (preserved : ∀ c i e p s, Inv c → holds c i e → step e (c.threads i) c.shared = some (p, s) →
      Inv { shared := s, threads := Function.update c.threads i p })
    (given : ∀ c i e, Inv c → holds c i e → gives c i e) {schedule : List (ι × E)}
    (initially : Inv c) (meets : Throughout step holds schedule c) :
    Throughout step gives schedule c := by
  induction schedule generalizing c with
  | nil => trivial
  | cons turn rest ih =>
      obtain ⟨i, e⟩ := turn
      obtain ⟨now, later⟩ := meets
      refine ⟨given c i e initially now, ih ?_ later⟩
      rcases advance_cases step i e c with same | ⟨p, s, moved, next⟩
      · rw [same]; exact initially
      · rw [next]; exact preserved c i e p s initially now moved

/-- What an invariant gives for a turn holds throughout every run. -/
theorem throughout_of_invariant (step : StepFn E P S) (Inv : Pool ι P S → Prop)
    (holds : Pool ι P S → ι → E → Prop)
    (preserved : ∀ c i e p s, Inv c → step e (c.threads i) c.shared = some (p, s) →
      Inv { shared := s, threads := Function.update c.threads i p })
    (gives : ∀ c i e, Inv c → holds c i e) (schedule : List (ι × E)) (initially : Inv c) :
    Throughout step holds schedule c := by
  induction schedule generalizing c with
  | nil => trivial
  | cons turn rest ih =>
      obtain ⟨i, e⟩ := turn
      refine ⟨gives c i e initially, ih ?_⟩
      rcases advance_cases step i e c with same | ⟨p, s, moved, next⟩
      · rw [same]; exact initially
      · rw [next]; exact preserved c i e p s initially moved

end Pool

end Runs

end Interleave

/-!
### Counting over the processes of a pool

A tally adds up what each process accounts for, and a step changes it by what the process that moves
does.
-/

namespace Interleave

universe u v w

variable {ι : Type u} {P : Type v} {S : Type w} [Fintype ι]

namespace Pool

def tally (f : P → ℤ) (c : Pool ι P S) : ℤ := ∑ i, f (c.threads i)

theorem tally_update [DecidableEq ι] (f : P → ℤ) (c : Pool ι P S) (s : S) (i : ι) (p : P) :
    tally f { shared := s, threads := Function.update c.threads i p } =
      c.tally f - f (c.threads i) + f p := by
  have mapped : (fun j => f (Function.update c.threads i p j)) =
      Function.update (fun j => f (c.threads j)) i (f p) := by
    funext j
    exact Function.apply_update (fun _ => f) c.threads i p j
  have parts := Finset.add_sum_erase Finset.univ (fun j => f (c.threads j)) (Finset.mem_univ i)
  unfold tally
  rw [mapped, Finset.sum_update_of_mem (Finset.mem_univ i), Finset.sdiff_singleton_eq_erase, ← parts]
  omega

/-- One process accounts for no more than all do. -/
theorem le_tally {f : P → ℤ} (nonneg : ∀ p, 0 ≤ f p) (c : Pool ι P S) (i : ι) :
    f (c.threads i) ≤ c.tally f :=
  Finset.single_le_sum (f := fun j => f (c.threads j)) (fun _ _ => nonneg _) (Finset.mem_univ i)

/-- Nor do two of them. -/
theorem pair_le_tally [DecidableEq ι] {f : P → ℤ} (nonneg : ∀ p, 0 ≤ f p) (c : Pool ι P S)
    {i j : ι} (other : i ≠ j) : f (c.threads i) + f (c.threads j) ≤ c.tally f := by
  rw [← Finset.sum_pair (f := fun k => f (c.threads k)) other]
  exact Finset.sum_le_sum_of_subset_of_nonneg (Finset.subset_univ _) fun _ _ _ => nonneg _

theorem tally_nonneg {f : P → ℤ} (nonneg : ∀ p, 0 ≤ f p) (c : Pool ι P S) : 0 ≤ c.tally f :=
  Finset.sum_nonneg fun _ _ => nonneg _

theorem exists_of_tally_pos {f : P → ℤ} {c : Pool ι P S} (positive : 0 < c.tally f) :
    ∃ i, 0 < f (c.threads i) := by
  by_contra none_
  have nonpos : ∀ i, f (c.threads i) ≤ 0 := fun i => not_lt.mp fun here => none_ ⟨i, here⟩
  exact absurd (Finset.sum_nonpos fun i _ => nonpos i) (not_le.mpr positive)

theorem tally_eq_zero {f : P → ℤ} {c : Pool ι P S} (none_ : ∀ i, f (c.threads i) = 0) :
    c.tally f = 0 :=
  Finset.sum_eq_zero fun i _ => none_ i

end Pool

end Interleave
