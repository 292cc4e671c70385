import Mathlib.Data.List.Dedup
import Mathlib.Data.List.Sort

/-!
# Lists taken group by group

`byKey key f xs` applies `f` to the elements of each key, in the order of the keys. What `f` keeps of
every group, `byKey` keeps of the list, and the keys of its result ascend (`byKey_pairwise`).
-/

namespace Lists

variable {α κ : Type*} [LinearOrder κ] (key : α → κ) (f : List α → List α) (xs : List α)

/-- The keys of the elements, each once, in order. -/
def keys : List κ := (xs.map key).dedup.insertionSort (· ≤ ·)

/-- The elements with one key. -/
def group (k : κ) : List α := xs.filter (key · = k)

def byKey : List α := (keys key xs).flatMap fun k => f (group key xs k)

variable {key f xs} {x : α} {k : κ}

theorem mem_keys : k ∈ keys key xs ↔ ∃ x ∈ xs, key x = k := by
  rw [keys, List.mem_insertionSort, List.mem_dedup, List.mem_map]

theorem mem_group : x ∈ group key xs k ↔ x ∈ xs ∧ key x = k := by
  rw [group, List.mem_filter, decide_eq_true_eq]

/-- The keys ascend strictly. -/
theorem keys_ascend : (keys key xs).Pairwise (· < ·) := by
  have sorted := List.pairwise_insertionSort (· ≤ ·) (xs.map key).dedup
  have distinct : (keys key xs).Nodup :=
    (List.perm_insertionSort _ _).nodup_iff.mpr (List.nodup_dedup _)
  exact (sorted.and distinct).imp fun ⟨le, ne⟩ => lt_of_le_of_ne le ne

section Kept

variable (inside : ∀ k, f (group key xs k) ⊆ group key xs k)

include inside

theorem byKey_subset : byKey key f xs ⊆ xs := by
  intro x mem
  obtain ⟨k, _, mem⟩ := List.mem_flatMap.mp mem
  exact (mem_group.mp (inside k mem)).1

/-- The elements come in the order of their keys. -/
theorem byKey_pairwise : (byKey key f xs).Pairwise (fun x y => key x ≤ key y) := by
  unfold byKey
  rw [List.pairwise_flatMap]
  constructor
  · intro k _
    apply List.pairwise_of_forall_mem_list
    intro x first y second
    rw [(mem_group.mp (inside k first)).2, (mem_group.mp (inside k second)).2]
  · apply keys_ascend.imp
    intro k k' less x first y second
    rw [(mem_group.mp (inside k first)).2, (mem_group.mp (inside k' second)).2]
    exact le_of_lt less

theorem byKey_nodup (each : ∀ k, (f (group key xs k)).Nodup) : (byKey key f xs).Nodup := by
  unfold byKey
  rw [List.nodup_flatMap]
  constructor
  · intro k _
    exact each k
  · apply keys_ascend.imp
    intro k k' less x first second
    have one := (mem_group.mp (inside k first)).2
    have other := (mem_group.mp (inside k' second)).2
    exact absurd (one.symm.trans other) (ne_of_lt less)

end Kept

theorem subset_byKey (all : ∀ k, group key xs k ⊆ f (group key xs k)) : xs ⊆ byKey key f xs := by
  intro x mem
  apply List.mem_flatMap.mpr
  exact ⟨key x, mem_keys.mpr ⟨x, mem, rfl⟩, all _ (mem_group.mpr ⟨mem, rfl⟩)⟩

end Lists
