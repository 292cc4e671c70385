import Sub2api.Scheduler.Fencing

/-!
# The order of the database reads

Versions order the writes of snapshots, and a version is allocated after the read. A reader that
missed the snapshot takes no lock, so two of them may read in one order and be numbered in the other.
-/

namespace Sub2api.Scheduler.Bucket

open Interleave

/-- The database reads behind two versions, the earlier version's not later. -/
def State.ReadInOrder (s : State) (version later : ℕ) : Prop :=
  ∀ a ∈ s.allocation version, ∀ b ∈ s.allocation later, a.commits ≤ b.commits

/-- **No older view over a newer one, where versions follow the reads.** In every run whose versions
were allocated in the order of the database reads behind them, no activation put an older read in
the place of a newer one. -/
theorem reads_in_order (cfg : Config) (calls : ℕ → List Call) (schedule : List (ℕ × Env))
    (sorted : (run cfg calls schedule).shared.allocations.Pairwise
      fun a b => a.commits ≤ b.commits) :
    ∀ a ∈ (run cfg calls schedule).shared.activations, ∀ u ∈ a.replaced,
      (run cfg calls schedule).shared.ReadInOrder u a.version := by
  intro a member u replaced x allocated y allocated'
  obtain ⟨le, _⟩ := ((run_keeps cfg calls [] schedule).1.ordered a member).2 u replaced
  cases u with
  | zero => cases allocated
  | succ u =>
      cases version : a.version with
      | zero => omega
      | succ v =>
          rw [version] at allocated' le
          obtain ⟨inside, isX⟩ := List.getElem?_eq_some_iff.mp allocated
          obtain ⟨inside', isY⟩ := List.getElem?_eq_some_iff.mp allocated'
          rw [← isX, ← isY]
          rcases Nat.lt_or_ge u v with less | not
          · exact List.pairwise_iff_getElem.mp sorted u v inside inside' less
          · have same : u = v := by omega
            subst same
            exact le_rfl

namespace Sample

/-- Two readers that missed the snapshot, and a change of the accounts. -/
def calls : ℕ → List Call
  | 0 => [.listSchedulableAccounts]
  | 1 => [.listSchedulableAccounts]
  | 2 => [.commit [{ id := 1 }, { id := 2 }], .commit [{ id := 2 }]]
  | _ => []

def turns (who times : ℕ) : List (ℕ × Env) := List.replicate times (who, {})

/-- The first reader reads both accounts; one is disabled; the second reader reads and publishes;
then the first one does. -/
def overtaken : List (ℕ × Env) := turns 2 1 ++ turns 0 3 ++ turns 2 1 ++ turns 1 7 ++ turns 0 4

/-- The readers one after the other. -/
def inTurn : List (ℕ × Env) := turns 2 1 ++ turns 0 7 ++ turns 2 1 ++ turns 1 7

end Sample

theorem reads_in_order_inTurn :
    (run {} Sample.calls Sample.inTurn).shared.active = some 2 ∧
      ∀ a ∈ (run {} Sample.calls Sample.inTurn).shared.activations, ∀ u ∈ a.replaced,
        (run {} Sample.calls Sample.inTurn).shared.ReadInOrder u a.version := by
  have allocations : (run {} Sample.calls Sample.inTurn).shared.allocations =
      [{ commits := 1, ids := [1, 2] }, { commits := 2, ids := [2] }] := by decide +kernel
  refine ⟨by decide +kernel, reads_in_order {} Sample.calls Sample.inTurn ?_⟩
  rw [allocations]
  decide

/-- An older read takes the place of a newer one: the disabled account is back. -/
theorem older_read_published :
    ∃ cfg calls schedule, ∃ a ∈ (run cfg calls schedule).shared.activations, ∃ u ∈ a.replaced,
      ¬(run cfg calls schedule).shared.ReadInOrder u a.version := by
  refine ⟨{}, Sample.calls, Sample.overtaken,
    { version := 2, replaced := some 1, issued := 0, retirements := 0 }, by decide +kernel, 1, rfl,
    fun order => ?_⟩
  have newer : (run {} Sample.calls Sample.overtaken).shared.allocation 1 =
      some { commits := 2, ids := [2] } := by decide +kernel
  have older : (run {} Sample.calls Sample.overtaken).shared.allocation 2 =
      some { commits := 1, ids := [1, 2] } := by decide +kernel
  exact absurd (order _ newer _ older) (by decide)

end Sub2api.Scheduler.Bucket
