import Mathlib.Data.List.Sort
import Sub2api.Heap.Binary

/-!
# The best of a list

A heap of at most `k` elements, the worst of them first, is offered every element of a list: it takes
what it has room for, and then whatever is better than its worst. `sorted_topK` says that it ends
with the first `k` elements of the sorted list.
-/

namespace Heap

variable {α β : Type*} [LinearOrder β] (rank : α → β) (better : α → α → Bool)

/-- The heap compares the other way round, so that the worst is its first element. -/
def worse (a b : α) : Bool := better b a

/-- One element is offered to a heap of at most `k`. -/
def offer (k : ℕ) (heap : Array α) (x : α) : Array α :=
  if heap.size < k then push (worse better) heap x
  else if some_ : 0 < heap.size then
    if better x heap[0] then fixRoot (worse better) (heap.set 0 x) else heap
  else heap

def topK (k : ℕ) (xs : List α) : Array α := xs.foldl (offer better k) #[]

/-- The best first. -/
def sorted (xs : List α) : List α := xs.insertionSort fun a b => better b a = false

variable {rank better}

/-! ### Sorting -/

section Sorted

variable (betters : ∀ a b, better a b = true ↔ rank a < rank b)

include betters

theorem not_better_iff (a b : α) : better b a = false ↔ rank a ≤ rank b := by
  rw [← Bool.not_eq_true, betters, not_lt]

omit betters in
theorem sorted_perm (xs : List α) : (sorted better xs).Perm xs := List.perm_insertionSort _ xs

theorem pairwise_sorted (xs : List α) : (sorted better xs).Pairwise (fun a b => rank a ≤ rank b) := by
  have total : Std.Total (fun a b => better b a = false) :=
    ⟨fun a b => by
      rw [not_better_iff betters, not_better_iff betters]
      exact le_total _ _⟩
  have trans_ : IsTrans α (fun a b => better b a = false) :=
    ⟨fun a b c => by
      rw [not_better_iff betters, not_better_iff betters, not_better_iff betters]
      exact le_trans⟩
  apply (List.pairwise_insertionSort (fun a b => better b a = false) xs).imp
  intro a b
  exact (not_better_iff betters a b).mp

/-- A list in order that has the same elements, no two of one rank, is the sorted list. -/
theorem sorted_unique {xs ys : List α} (perm : ys.Perm xs) (distinct : (xs.map rank).Nodup)
    (inOrder : ys.Pairwise (fun a b => rank a ≤ rank b)) : ys = sorted better xs := by
  have same : ∀ a ∈ ys, ∀ b ∈ ys, rank a = rank b → a = b := by
    intro a inA b inB
    exact List.inj_on_of_nodup_map distinct (perm.subset inA) (perm.subset inB)
  apply List.Perm.eq_of_pairwise _ inOrder (pairwise_sorted betters xs)
    (perm.trans (sorted_perm xs).symm)
  intro a b inA inB below above
  exact same a inA b (perm.symm.subset ((sorted_perm xs).subset inB))
    (le_antisymm below above)

end Sorted

/-! ### The heap holds the best -/

/-- The heap holds the best of the elements so far; the rest is worse. -/
structure Holds (rank : α → β) (k : ℕ) (heap : Array α) (seen : List α) : Prop where
  ordered : Ordered (keyAt (fun x => OrderDual.toDual (rank x)) heap)
  parts : ∃ rest, (heap.toList ++ rest).Perm seen ∧ (∀ x ∈ heap, ∀ y ∈ rest, rank x < rank y) ∧
    heap.size ≤ k ∧ (heap.size = k ∨ rest = [])

theorem Holds.nil (k : ℕ) : Holds rank k #[] [] := by
  constructor
  · intro c _
    rw [keyAt_eq_top (k := c) (Nat.zero_le _)]
    exact le_top
  · exact ⟨[], List.Perm.refl _, by simp, Nat.zero_le _, Or.inr rfl⟩

section Offer

variable (betters : ∀ a b, better a b = true ↔ rank a < rank b)

include betters

theorem worse_compares (a b : α) :
    worse better a b = true ↔ OrderDual.toDual (rank a) < OrderDual.toDual (rank b) := by
  unfold worse
  rw [betters, OrderDual.toDual_lt_toDual]

variable {k : ℕ} {heap : Array α} {seen : List α} {x : α}

omit betters in
/-- The first element of the heap is the worst in it. -/
theorem Holds.le_root (held : Holds rank k heap seen) (some_ : 0 < heap.size) :
    ∀ y ∈ heap, rank y ≤ rank heap[0] := by
  intro y mem
  exact OrderDual.toDual_le_toDual.mp (root_le held.ordered some_ y mem)

omit betters in
theorem Holds.mem_seen (held : Holds rank k heap seen) {y : α} (mem : y ∈ heap) : y ∈ seen := by
  obtain ⟨rest, perm, _⟩ := held.parts
  exact perm.subset (List.mem_append_left _ (Array.mem_toList_iff.mpr mem))

/-- While there is room, the element is taken. -/
theorem Holds.take (held : Holds rank k heap seen) (room : heap.size < k) :
    Holds rank k (push (worse better) heap x) (seen ++ [x]) := by
  obtain ⟨rest, perm, _, _, full⟩ := held.parts
  have none_left : rest = [] := full.resolve_left (Nat.ne_of_lt room)
  have compares : ∀ a b, worse better a b = true ↔
      OrderDual.toDual (rank a) < OrderDual.toDual (rank b) := worse_compares betters
  subst none_left
  have taken : (push (worse better) heap x).Perm (heap.push x) := up_perm _ _ _ _
  constructor
  · exact ordered_push compares held.ordered x
  · refine ⟨[], ?_, by simp, ?_, Or.inr rfl⟩
    · rw [List.append_nil]
      apply taken.toList.trans
      rw [Array.toList_push]
      rw [List.append_nil] at perm
      exact perm.append_right [x]
    · rw [taken.size_eq, Array.size_push]
      omega

/-- An element better than the worst takes its place, and the worst joins the rest. -/
theorem Holds.replace (held : Holds rank k heap seen) (full : ¬heap.size < k)
    (some_ : 0 < heap.size) (distinct : (seen.map rank).Nodup) (wins : better x heap[0] = true) :
    Holds rank k (fixRoot (worse better) (heap.set 0 x)) (seen ++ [x]) := by
  obtain ⟨rest, perm, apart, size, _⟩ := held.parts
  have compares : ∀ a b, worse better a b = true ↔
      OrderDual.toDual (rank a) < OrderDual.toDual (rank b) := worse_compares betters
  have taken : (fixRoot (worse better) (heap.set 0 x)).Perm (heap.set 0 x) := down_perm _ _ _ _
  obtain ⟨others, split_⟩ : ∃ others, heap.toList = heap[0] :: others := by
    rcases shape : heap.toList with _ | ⟨first, others⟩
    · rw [← Array.length_toList, shape] at some_
      exact absurd some_ (Nat.lt_irrefl 0)
    · have first_eq : heap[0] = first := by
        rw [← Array.getElem_toList]
        simp only [shape, List.getElem_cons_zero]
      exact ⟨others, by rw [first_eq]⟩
  have now : (heap.set 0 x).toList = x :: others := by
    rw [Array.toList_set, split_]
    rfl
  rw [betters] at wins
  rw [split_] at perm
  -- the worst differs in rank from the other elements
  have below : ∀ y ∈ others, rank y < rank heap[0] := by
    intro y mem
    have le := held.le_root some_ y (Array.mem_toList_iff.mp (split_ ▸ List.mem_cons_of_mem _ mem))
    have apart_ := ((perm.map rank).nodup_iff.mpr distinct)
    rw [List.cons_append, List.map_cons, List.nodup_cons] at apart_
    apply lt_of_le_of_ne le
    intro same
    apply apart_.1
    rw [← same]
    exact List.mem_map_of_mem (List.mem_append_left _ mem)
  constructor
  · exact ordered_fixRoot compares held.ordered some_ x
  · refine ⟨heap[0] :: rest, ?_, ?_, ?_, Or.inl ?_⟩
    · calc
        List.Perm ((fixRoot (worse better) (heap.set 0 x)).toList ++ heap[0] :: rest)
            ((x :: others) ++ heap[0] :: rest) := (now ▸ taken.toList).append_right _
        List.Perm _ (heap[0] :: x :: others ++ rest) := List.perm_middle
        List.Perm _ (x :: (heap[0] :: others ++ rest)) := List.Perm.swap _ _ _
        List.Perm _ (x :: seen) := perm.cons x
        List.Perm _ (seen ++ [x]) := (List.perm_append_singleton x seen).symm
    · have better_ : ∀ y ∈ x :: others, rank y < rank heap[0] := by
        intro y mem
        rcases List.mem_cons.mp mem with rfl | mem
        · exact wins
        · exact below y mem
      intro y inside z outside
      have y_lt := better_ y (now ▸ Array.mem_toList_iff.mpr (taken.mem_iff.mp inside))
      rcases List.mem_cons.mp outside with rfl | outside
      · exact y_lt
      · exact y_lt.trans (apart _ (Array.getElem_mem some_) z outside)
    · rw [taken.size_eq, Array.size_set]
      exact size
    · rw [taken.size_eq, Array.size_set]
      omega

omit betters in
/-- An element worse than the worst joins the rest. -/
theorem Holds.leave (held : Holds rank k heap seen) (full : ¬heap.size < k)
    (worst : ∀ y ∈ heap, rank y < rank x) : Holds rank k heap (seen ++ [x]) := by
  obtain ⟨rest, perm, apart, size, _⟩ := held.parts
  constructor
  · exact held.ordered
  · refine ⟨rest ++ [x], ?_, ?_, size, Or.inl (by omega)⟩
    · rw [← List.append_assoc]
      exact perm.append_right [x]
    · intro y inside z outside
      rcases List.mem_append.mp outside with outside | outside
      · exact apart y inside z outside
      · rw [List.mem_singleton.mp outside]
        exact worst y inside

theorem Holds.offer (held : Holds rank k heap seen) (distinct : ((seen ++ [x]).map rank).Nodup) :
    Holds rank k (offer better k heap x) (seen ++ [x]) := by
  rw [List.map_append, List.map_singleton] at distinct
  have others := distinct.of_append_left
  unfold Heap.offer
  split
  · rename_i room
    exact held.take betters room
  · rename_i full
    split
    · rename_i some_
      split
      · rename_i wins
        exact held.replace betters full some_ others wins
      · rename_i loses
        apply held.leave full
        intro y mem
        rw [Bool.not_eq_true, not_better_iff betters] at loses
        apply lt_of_le_of_ne ((held.le_root some_ y mem).trans loses)
        intro same
        exact List.disjoint_of_nodup_append distinct (List.mem_map_of_mem (held.mem_seen mem))
          (List.mem_singleton.mpr same)
    · rename_i none_
      apply held.leave full
      intro y mem
      exact absurd (Array.size_pos_of_mem mem) none_

/-- Step by step, the heap holds the best of what it was offered. -/
theorem Holds.run : ∀ {xs seen : List α} {heap : Array α}, Holds rank k heap seen →
    ((seen ++ xs).map rank).Nodup →
      Holds rank k (xs.foldl (Heap.offer better k) heap) (seen ++ xs) := by
  intro xs
  induction xs with
  | nil =>
      intro seen heap held _
      rw [List.append_nil]
      exact held
  | cons x xs ih =>
      intro seen heap held distinct
      rw [List.append_cons] at distinct ⊢
      apply ih _ distinct
      apply held.offer betters
      rw [List.map_append] at distinct
      exact distinct.of_append_left

/-- The heap ends with the first `k` of the sorted list. -/
theorem sorted_topK {xs : List α} (distinct : (xs.map rank).Nodup) :
    sorted better (topK better k xs).toList = (sorted better xs).take k := by
  have held : Holds rank k (topK better k xs) xs :=
    Holds.run betters (Holds.nil k) distinct
  obtain ⟨rest, perm, apart, size, full⟩ := held.parts
  have whole : sorted better (topK better k xs).toList ++ sorted better rest = sorted better xs := by
    apply sorted_unique betters _ distinct
    · rw [List.pairwise_append]
      refine ⟨pairwise_sorted betters _, pairwise_sorted betters _, ?_⟩
      intro y inside z outside
      have y_mem := (sorted_perm (topK better k xs).toList).subset inside
      have z_mem := (sorted_perm rest).subset outside
      exact le_of_lt (apart y (Array.mem_toList_iff.mp y_mem) z z_mem)
    · exact ((sorted_perm _).append (sorted_perm _)).trans perm
  have length : (sorted better (topK better k xs).toList).length = (topK better k xs).size := by
    rw [(sorted_perm _).length_eq, Array.length_toList]
  rw [← whole]
  rcases full with full | none_left
  · rw [List.take_left' (length.trans full)]
  · rw [none_left]
    show _ = (_ ++ []).take k
    rw [List.append_nil, List.take_of_length_le (length.trans_le size)]

end Offer

end Heap
