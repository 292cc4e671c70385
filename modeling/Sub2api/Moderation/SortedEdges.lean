import Sub2api.Moderation.LinkPass

/-!
# Sorted edges

The insertion sort permutes the edges of a node and puts their labels in order, so the binary search
of `next` finds the edge of a label when there is one.
-/

namespace Sub2api.Moderation

/-- The labels do not decrease. -/
def Ordered (edges : List KeywordEdge) : Prop := edges.Pairwise fun e e' => e.label ≤ e'.label

theorem insertEdge_perm (sorted : List KeywordEdge) (current : KeywordEdge) :
    (insertEdge sorted current).Perm (current :: sorted) := by
  induction sorted with
  | nil => exact List.Perm.refl _
  | cons edge rest ih =>
      unfold insertEdge
      split
      · exact List.Perm.refl _
      · exact (ih.cons edge).trans (List.Perm.swap current edge rest)

theorem insertEdge_ordered {sorted : List KeywordEdge} (ordered : Ordered sorted)
    (current : KeywordEdge) : Ordered (insertEdge sorted current) := by
  induction sorted with
  | nil => exact List.pairwise_singleton _ _
  | cons edge rest ih =>
      obtain ⟨low, restOrdered⟩ := List.pairwise_cons.mp ordered
      unfold insertEdge
      split
      · rename_i before
        apply List.pairwise_cons.mpr ⟨?_, ordered⟩
        intro e mem
        rcases List.mem_cons.mp mem with rfl | later
        · exact Fin.le_of_lt before
        · exact Fin.le_trans (Fin.le_of_lt before) (low e later)
      · rename_i after
        apply List.pairwise_cons.mpr ⟨?_, ih restOrdered⟩
        intro e mem
        rcases List.mem_cons.mp ((insertEdge_perm rest current).mem_iff.mp mem) with rfl | later
        · exact Fin.not_lt.mp after
        · exact low e later

theorem insertEdges_perm (edges sorted : List KeywordEdge) :
    (edges.foldl insertEdge sorted).Perm (edges ++ sorted) := by
  induction edges generalizing sorted with
  | nil => exact List.Perm.refl _
  | cons edge edges ih =>
      have inserted := (insertEdge_perm sorted edge).append_left edges
      exact ((ih _).trans inserted).trans List.perm_middle

theorem insertEdges_ordered (edges : List KeywordEdge) {sorted : List KeywordEdge}
    (ordered : Ordered sorted) : Ordered (edges.foldl insertEdge sorted) := by
  induction edges generalizing sorted with
  | nil => exact ordered
  | cons edge edges ih => exact ih (insertEdge_ordered ordered edge)

theorem sortEdges_perm (edges : List KeywordEdge) : (sortEdges edges).Perm edges := by
  have perm := insertEdges_perm edges []
  rwa [List.append_nil] at perm

theorem sortEdges_ordered (edges : List KeywordEdge) : Ordered (sortEdges edges) :=
  insertEdges_ordered edges List.Pairwise.nil

/-! ### The binary search -/

theorem Ordered.label_le {edges : List KeywordEdge} (ordered : Ordered edges) {i j : ℕ}
    (le : i ≤ j) (earlier : i < edges.length) (inside : j < edges.length) :
    (edges[i]).label ≤ (edges[j]).label := by
  rcases Nat.eq_or_lt_of_le le with rfl | before
  · exact Fin.le_refl _
  · exact List.pairwise_iff_getElem.mp ordered i j _ inside before

/-- The search ends between the labels that are smaller and the others. -/
theorem searchEdge_spec {edges : List KeywordEdge} (ordered : Ordered edges) {label : Byte}
    {left right : ℕ} (within : right ≤ edges.length)
    (below : ∀ i < left, ∀ e, edges[i]? = some e → e.label < label)
    (above : ∀ i, right ≤ i → ∀ e, edges[i]? = some e → label ≤ e.label) :
    (∀ i < searchEdge edges label left right, ∀ e, edges[i]? = some e → e.label < label) ∧
      ∀ i, searchEdge edges label left right ≤ i →
        ∀ e, edges[i]? = some e → label ≤ e.label := by
  induction size : right - left using Nat.strong_induction_on generalizing left right with
  | _ n ih =>
      unfold searchEdge
      split
      · rename_i inside
        have middle : left + (right - left) / 2 < edges.length := by omega
        dsimp only
        rw [List.getElem?_eq_getElem middle]
        dsimp only
        split
        · rename_i smaller
          apply ih (right - (left + (right - left) / 2 + 1)) (by omega) within _ above rfl
          intro i before e found
          obtain ⟨i_, rfl⟩ := List.getElem?_eq_some_iff.mp found
          exact Fin.lt_of_le_of_lt (ordered.label_le (by omega) i_ middle) smaller
        · rename_i notSmaller
          apply ih (left + (right - left) / 2 - left) (by omega) (by omega) below _ rfl
          intro i after e found
          obtain ⟨i_, rfl⟩ := List.getElem?_eq_some_iff.mp found
          exact Fin.le_trans (Fin.not_lt.mp notSmaller) (ordered.label_le after middle i_)
      · rename_i empty
        constructor
        · exact below
        · intro i after
          exact above i (by omega)

/-- The edge of a label is where the search ends. -/
theorem searchEdge_mem {edges : List KeywordEdge} (ordered : Ordered edges)
    (labels : (edges.map (·.label)).Nodup) {e : KeywordEdge} (mem : e ∈ edges) :
    edges[searchEdge edges e.label 0 edges.length]? = some e := by
  obtain ⟨below, above⟩ := @searchEdge_spec edges ordered e.label 0 edges.length (Nat.le_refl _)
    (fun i before => absurd before (Nat.not_lt_zero i))
    (fun i after e' found => by
      rw [List.getElem?_eq_none after] at found
      cases found)
  obtain ⟨k, k_, own⟩ := List.getElem_of_mem mem
  have at_ : edges[k]? = some e := by rw [List.getElem?_eq_getElem k_, own]
  have le : searchEdge edges e.label 0 edges.length ≤ k := by
    rcases Nat.lt_or_ge k (searchEdge edges e.label 0 edges.length) with before | after
    · exact absurd (below k before e at_) (Fin.lt_irrefl _)
    · exact after
  have inside := Nat.lt_of_le_of_lt le k_
  have label_ : (edges[searchEdge edges e.label 0 edges.length]).label = e.label := by
    apply Fin.le_antisymm
    · have order := ordered.label_le le inside k_
      rwa [own] at order
    · exact above _ (Nat.le_refl _) _ (List.getElem?_eq_getElem inside)
  rw [List.getElem?_eq_getElem inside]
  have same : searchEdge edges e.label 0 edges.length = k := by
    apply (@List.Nodup.getElem_inj_iff _ _ labels _ (by simpa using inside) _
      (by simpa using k_)).mp
    rw [List.getElem_map, List.getElem_map, label_, own]
  simp only [same, own]

/-! ### The transitions of the matcher -/

/-- The matcher that was built: a linked tree with sorted edges and the table for the root. -/
structure Built (toLower : List Byte → List Byte) (keywords : List (List Byte))
    (m : KeywordMatcher) (word : ℕ → List Byte) : Prop where
  tree : LinkedTree toLower keywords m.nodes word
  ordered : ∀ s, Ordered (m.nodes.node s).edges
  table : ∀ e ∈ (m.nodes.node 0).edges, m.rootTransitions e.label = e.target
  absent : ∀ label, (∀ e ∈ (m.nodes.node 0).edges, e.label ≠ label) → m.rootTransitions label = 0
  own : m.keywords = keywords

variable {toLower : List Byte → List Byte} {keywords : List (List Byte)} {m : KeywordMatcher}
  {word : ℕ → List Byte}

theorem Built.next_of_word (built : Built toLower keywords m word) {s t : ℕ} {label : Byte}
    (inside : s < m.nodes.size) (inside' : t < m.nodes.size) (word_ : word t = word s ++ [label]) :
    m.next s label = t := by
  have spells := built.tree.spells
  have mem := spells.child s inside t inside' label word_
  unfold KeywordMatcher.next
  by_cases root : s = 0
  · subst root
    rw [if_pos rfl]
    exact built.table _ mem
  · rw [if_neg root, if_neg (by omega)]
    have found := searchEdge_mem (built.ordered s) (spells.labels s inside) mem
    dsimp only at found ⊢
    rw [found]
    exact if_pos rfl

theorem Built.next_of_absent (built : Built toLower keywords m word) {s : ℕ} {label : Byte}
    (inside : s < m.nodes.size) (stuck : word s ++ [label] ∉ treeWords m.nodes word) :
    m.next s label = 0 := by
  have none_ : ∀ e ∈ (m.nodes.node s).edges, e.label ≠ label := by
    rintro e mem rfl
    obtain ⟨target, word_⟩ := built.tree.spells.edge s inside e mem
    exact stuck ⟨e.target, target, word_⟩
  unfold KeywordMatcher.next
  by_cases root : s = 0
  · subst root
    rw [if_pos rfl]
    exact built.absent label none_
  · rw [if_neg root, if_neg (by omega)]
    dsimp only
    split
    · rename_i e found
      exact if_neg (none_ e (List.mem_of_getElem? found))
    · rfl

end Sub2api.Moderation
