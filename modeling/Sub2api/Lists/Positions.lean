import Mathlib.Data.List.Basic
import Mathlib.Data.List.Range

/-!
# Positions in a list

The positions of the items with a property, and the list that is left when only some positions are
kept. Two items of what is left stood in the same order before.
-/

namespace Sub2api.Positions

variable {α : Type}

/-- The positions of the items with a property, in order. -/
def positions (p : α → Bool) (items : List α) : List ℕ :=
  (items.zipIdx.filter fun e => p e.1).map (·.2)

/-- The items at the positions that are kept. -/
def keepAt (keep : ℕ → Bool) (items : List α) : List α :=
  (items.zipIdx.filter fun e => keep e.2).map (·.1)

variable {items : List α}

theorem mem_positions {p : α → Bool} {i : ℕ} :
    i ∈ positions p items ↔ ∃ item, items[i]? = some item ∧ p item = true := by
  unfold positions
  constructor
  · intro mem
    obtain ⟨⟨item, j⟩, filtered, rfl⟩ := List.mem_map.mp mem
    obtain ⟨listed, holds⟩ := List.mem_filter.mp filtered
    exact ⟨item, List.mk_mem_zipIdx_iff_getElem?.mp listed, holds⟩
  · rintro ⟨item, at_, holds⟩
    exact List.mem_map.mpr ⟨(item, i),
      List.mem_filter.mpr ⟨List.mk_mem_zipIdx_iff_getElem?.mpr at_, holds⟩, rfl⟩

theorem zipIdx_ordered (items : List α) : items.zipIdx.Pairwise fun a b => a.2 < b.2 := by
  have indexes : (items.zipIdx.map (·.2)).Pairwise (· < ·) := by
    rw [List.zipIdx_map_snd]
    exact List.pairwise_lt_range'
  exact List.pairwise_map.mp indexes

theorem positions_ordered (p : α → Bool) (items : List α) :
    (positions p items).Pairwise (· < ·) := by
  unfold positions
  apply List.pairwise_map.mpr
  exact (zipIdx_ordered items).filter _

/-- The last of the positions is the greatest. -/
theorem getLast?_greatest {xs : List ℕ} (ordered : xs.Pairwise (· < ·)) {k : ℕ}
    (last : xs.getLast? = some k) : k ∈ xs ∧ ∀ j ∈ xs, j ≤ k := by
  obtain ⟨before, rfl⟩ := List.getLast?_eq_some_iff.mp last
  refine ⟨by simp, ?_⟩
  intro j mem
  rcases List.mem_append.mp mem with earlier | same
  · exact Nat.le_of_lt ((List.pairwise_append.mp ordered).2.2 j earlier k (by simp))
  · exact Nat.le_of_eq (List.mem_singleton.mp same)

theorem mem_dropLast_iff {xs : List ℕ} (ordered : xs.Pairwise (· < ·)) {i : ℕ} :
    i ∈ xs.dropLast ↔ i ∈ xs ∧ ∃ j ∈ xs, i < j := by
  rcases List.eq_nil_or_concat xs with rfl | ⟨before, last, rfl⟩
  · simp
  · rw [List.concat_eq_append, List.dropLast_concat]
    rw [List.concat_eq_append] at ordered
    have below := (List.pairwise_append.mp ordered).2.2
    constructor
    · intro mem
      exact ⟨by simp [mem], last, by simp, below i mem last (by simp)⟩
    · rintro ⟨mem, j, mem_j, less⟩
      rcases List.mem_append.mp mem with earlier | same
      · exact earlier
      · cases List.mem_singleton.mp same
        rcases List.mem_append.mp mem_j with earlier | same
        · exact absurd (below j earlier i (by simp)) (by omega)
        · cases List.mem_singleton.mp same
          exact absurd less (Nat.lt_irrefl _)

/-- The items that are kept, with their earlier positions. -/
theorem keepAt_getElem? {keep : ℕ → Bool} {p q : ℕ} {a b : α}
    (at_p : (keepAt keep items)[p]? = some a) (at_q : (keepAt keep items)[q]? = some b) :
    ∃ i j, items[i]? = some a ∧ keep i = true ∧ items[j]? = some b ∧ keep j = true ∧
      (p < q → i < j) := by
  unfold keepAt at at_p at_q
  rw [List.getElem?_map, Option.map_eq_some_iff] at at_p at_q
  obtain ⟨⟨a, i⟩, at_p, rfl⟩ := at_p
  obtain ⟨⟨b, j⟩, at_q, rfl⟩ := at_q
  obtain ⟨listed_i, keep_i⟩ := List.mem_filter.mp (List.mem_of_getElem? at_p)
  obtain ⟨listed_j, keep_j⟩ := List.mem_filter.mp (List.mem_of_getElem? at_q)
  refine ⟨i, j, List.mk_mem_zipIdx_iff_getElem?.mp listed_i, keep_i,
    List.mk_mem_zipIdx_iff_getElem?.mp listed_j, keep_j, ?_⟩
  intro less
  obtain ⟨p_, p_at⟩ := List.getElem?_eq_some_iff.mp at_p
  obtain ⟨q_, q_at⟩ := List.getElem?_eq_some_iff.mp at_q
  have order := List.pairwise_iff_getElem.mp ((zipIdx_ordered items).filter fun e => keep e.2) p q
    p_ q_ less
  rw [p_at, q_at] at order
  exact order

theorem mem_keepAt {keep : ℕ → Bool} {item : α} :
    item ∈ keepAt keep items ↔ ∃ i, items[i]? = some item ∧ keep i = true := by
  unfold keepAt
  constructor
  · intro mem
    obtain ⟨⟨item, i⟩, filtered, rfl⟩ := List.mem_map.mp mem
    obtain ⟨listed, kept⟩ := List.mem_filter.mp filtered
    exact ⟨i, List.mk_mem_zipIdx_iff_getElem?.mp listed, kept⟩
  · rintro ⟨i, at_, kept⟩
    exact List.mem_map.mpr ⟨(item, i),
      List.mem_filter.mpr ⟨List.mk_mem_zipIdx_iff_getElem?.mpr at_, kept⟩, rfl⟩

theorem keepAt_all {keep : ℕ → Bool} (all : ∀ i, i < items.length → keep i = true) :
    keepAt keep items = items := by
  have kept : (items.zipIdx.filter fun e => keep e.2) = items.zipIdx := by
    apply List.filter_eq_self.mpr
    rintro ⟨item, i⟩ listed
    exact all i (List.getElem?_eq_some_iff.mp (List.mk_mem_zipIdx_iff_getElem?.mp listed)).1
  unfold keepAt
  rw [kept, List.zipIdx_map_fst]

/-- Nothing is missing only where everything is kept. -/
theorem all_of_keepAt {keep : ℕ → Bool} (same : keepAt keep items = items) {i : ℕ}
    (inside : i < items.length) : keep i = true := by
  have lengths := congrArg List.length same
  unfold keepAt at lengths
  rw [List.length_map] at lengths
  have whole : (items.zipIdx.filter fun e => keep e.2) = items.zipIdx := by
    apply List.filter_sublist.eq_of_length
    rw [lengths, List.length_zipIdx]
  have listed : (items[i], i) ∈ items.zipIdx :=
    List.mk_mem_zipIdx_iff_getElem?.mpr (List.getElem?_eq_getElem inside)
  exact List.filter_eq_self.mp whole _ listed

end Sub2api.Positions
