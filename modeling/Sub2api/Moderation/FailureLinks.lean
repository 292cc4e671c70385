import Mathlib.Data.Finset.Card
import Sub2api.Automaton.LongestSuffix
import Sub2api.Moderation.KeywordTree

/-!
# The failure links

The breadth-first pass links every node to the node of its longest proper suffix and leaves there
the first keyword that ends its word. What carries it: the nodes that are queued or done are linked,
they are all the nodes up to the depth of the head of the queue, and a fallback is never deeper.
-/

namespace Sub2api.Moderation

open Automaton

variable {nodes : KeywordNodes} {word : ℕ → List Byte}

/-- The words of a tree. -/
def treeWords (nodes : KeywordNodes) (word : ℕ → List Byte) : Set (List Byte) :=
  {w | ∃ s < nodes.size, word s = w}

theorem Spells.root_mem (spells : Spells nodes word) : [] ∈ treeWords nodes word :=
  ⟨0, spells.pos, spells.root⟩

theorem Spells.parent_of (spells : Spells nodes word) {t : ℕ} (inside : t < nodes.size)
    {w : List Byte} {label : Byte} (word_ : word t = w ++ [label]) :
    ∃ s < nodes.size, word s = w := by
  have nonroot : t ≠ 0 := by
    rintro rfl
    rw [spells.root] at word_
    simp at word_
  obtain ⟨s, s_, label', same⟩ := spells.parent t inside nonroot
  rw [word_] at same
  exact ⟨s, s_, (List.append_inj' same rfl).1.symm⟩

theorem Spells.closed (spells : Spells nodes word) (w : List Byte) (label : Byte)
    (mem : w ++ [label] ∈ treeWords nodes word) : w ∈ treeWords nodes word := by
  obtain ⟨t, inside, word_⟩ := mem
  exact spells.parent_of inside word_

theorem Spells.prefix_mem (spells : Spells nodes word) {w : List Byte}
    (mem : w ∈ treeWords nodes word) (k : ℕ) : w.take k ∈ treeWords nodes word := by
  induction w using List.reverseRecOn generalizing k with
  | nil => simpa using mem
  | append_singleton w label ih =>
      by_cases whole : (w ++ [label]).length ≤ k
      · rwa [List.take_of_length_le whole]
      · have short : k ≤ w.length := by
          simp only [List.length_append, List.length_singleton] at whole
          omega
        rw [List.take_append_of_le_length short]
        exact ih (spells.closed w label mem) k

/-- No word is as long as there are nodes: its prefixes have nodes of their own. -/
theorem Spells.length_lt (spells : Spells nodes word) {s : ℕ} (inside : s < nodes.size) :
    (word s).length < nodes.size := by
  have prefixes : ∀ k, ∃ t < nodes.size, word t = (word s).take k :=
    fun k => spells.prefix_mem ⟨s, inside, rfl⟩ k
  choose node below word_ using prefixes
  have count := Finset.card_le_card_of_injOn (s := Finset.range ((word s).length + 1))
    (t := Finset.range nodes.size) node
    (fun k _ => Finset.mem_coe.mpr (Finset.mem_range.mpr (below k))) (by
      intro k k_ l l_ same
      have lengths := congrArg List.length ((word_ k).symm.trans ((congrArg word same).trans (word_ l)))
      have k_ := Finset.mem_range.mp (Finset.mem_coe.mp k_)
      have l_ := Finset.mem_range.mp (Finset.mem_coe.mp l_)
      simp only [List.length_take] at lengths
      omega)
  rw [Finset.card_range, Finset.card_range] at count
  omega

/-! ### Linked nodes -/

section Keywords

variable (toLower : List Byte → List Byte) (keywords : List (List Byte))

/-- A keyword of the list is at the end of a text. -/
def Ends (i : ℕ) (text : List Byte) : Prop :=
  ∃ w, IsKeyword toLower keywords i w ∧ w <:+ text

/-- The link and the keyword of a node are right. -/
structure Linked (nodes : KeywordNodes) (word : ℕ → List Byte) (t : ℕ) : Prop where
  inside : (nodes.node t).failure < nodes.size
  proper : LongestProper (treeWords nodes word) (word t) (word (nodes.node t).failure)
  best : Least (fun i => Ends toLower keywords i (word t)) (nodes.node t).bestKeyword

/-- The link of a node is not made yet, and its keyword is its word. -/
structure Unlinked (nodes : KeywordNodes) (word : ℕ → List Byte) (t : ℕ) : Prop where
  failure : (nodes.node t).failure = 0
  best : Least (fun i => IsKeyword toLower keywords i (word t)) (nodes.node t).bestKeyword

variable {toLower keywords}

/-- Going back along the links of nodes no deeper than the start finds the longest suffix that
continues with the byte. -/
theorem fallbackFrom_spec (spells : Spells nodes word) {text : List Byte} {label : Byte}
    {bound fuel f : ℕ} (inside : f < nodes.size) (enough : (word f).length < fuel)
    (candidate : Candidate (treeWords nodes word) bound text label (word f))
    (linked : ∀ g < nodes.size, g ≠ 0 → (word g).length ≤ (word f).length →
      (nodes.node g).failure < nodes.size ∧
        LongestProper (treeWords nodes word) (word g) (word (nodes.node g).failure)) :
    match fallbackFrom nodes label fuel f with
    | some t => t < nodes.size ∧
        LongestBelow (treeWords nodes word) (bound + 1) (text ++ [label]) (word t)
    | none => LongestBelow (treeWords nodes word) (bound + 1) (text ++ [label]) [] := by
  induction fuel generalizing f with
  | zero => omega
  | succ fuel ih =>
      unfold fallbackFrom
      cases found : nodes.transition f label with
      | some t =>
          obtain ⟨t_, word_⟩ := (spells.transition_iff inside).mp found
          refine ⟨t_, ?_⟩
          rw [word_]
          exact candidate.extend spells.closed ⟨t, t_, word_⟩
      | none =>
          have stuck : word f ++ [label] ∉ treeWords nodes word := by
            rintro ⟨t, t_, word_⟩
            rw [(spells.transition_iff inside).mpr ⟨t_, word_⟩] at found
            cases found
          dsimp only
          by_cases root : f = 0
          · subst root
            rw [if_pos rfl]
            rw [spells.root] at candidate stuck
            exact candidate.restart spells.closed stuck
          · rw [if_neg root]
            obtain ⟨inside', proper⟩ := linked f inside root (Nat.le_refl _)
            have shorter := proper.within
            apply ih inside' (by omega) (candidate.next stuck proper)
            exact fun g g_ nonroot short => linked g g_ nonroot (by omega)

/-- A keyword ends a word when it is the word or ends its longest proper suffix. -/
theorem ends_iff (reached : ∀ i w, IsKeyword toLower keywords i w → w ∈ treeWords nodes word)
    {text shorter : List Byte} (proper : LongestProper (treeWords nodes word) text shorter)
    (i : ℕ) :
    Ends toLower keywords i text ↔
      IsKeyword toLower keywords i text ∨ Ends toLower keywords i shorter := by
  constructor
  · rintro ⟨w, known, suffix⟩
    by_cases whole : w = text
    · exact Or.inl (whole ▸ known)
    · exact Or.inr ⟨w, known,
        (LongestProper.suffix_iff proper (reached i w known) whole).mp suffix⟩
  · rintro (known | ⟨w, known, suffix⟩)
    · exact ⟨text, known, List.suffix_refl _⟩
    · exact ⟨w, known, suffix.trans proper.suffix⟩

theorem ends_nil (i : ℕ) : Ends toLower keywords i [] ↔ IsKeyword toLower keywords i [] := by
  constructor
  · rintro ⟨w, known, suffix⟩
    rw [List.suffix_nil] at suffix
    exact suffix ▸ known
  · exact fun known => ⟨[], known, List.suffix_refl _⟩

theorem treeWords_congr {nodes' : KeywordNodes} (size : nodes'.size = nodes.size) :
    treeWords nodes' word = treeWords nodes word := by
  unfold treeWords
  rw [size]

theorem Linked.congr {nodes' : KeywordNodes} {t : ℕ}
    (linked : Linked toLower keywords nodes word t) (size : nodes'.size = nodes.size)
    (same : nodes'.node t = nodes.node t) : Linked toLower keywords nodes' word t := by
  constructor
  · rw [same, size]
    exact linked.inside
  · rw [same, treeWords_congr size]
    exact linked.proper
  · rw [same]
    exact linked.best

theorem Unlinked.congr {nodes' : KeywordNodes} {t : ℕ}
    (unlinked : Unlinked toLower keywords nodes word t)
    (same : nodes'.node t = nodes.node t) : Unlinked toLower keywords nodes' word t := by
  constructor
  · rw [same]
    exact unlinked.failure
  · rw [same]
    exact unlinked.best

/-! ### One child -/

/-- What linking a child changes: that child only, and of it neither the edges. -/
theorem linkChild_frame (s : ℕ) (nodes : KeywordNodes) (e : KeywordEdge) :
    (linkChild s nodes e).size = nodes.size ∧
      (∀ u, ((linkChild s nodes e).node u).edges = (nodes.node u).edges) ∧
      ∀ u, u ≠ e.target → (linkChild s nodes e).node u = nodes.node u := by
  have edges : ∀ (nodes : KeywordNodes) (change : KeywordNode → KeywordNode),
      (∀ node, (change node).edges = node.edges) →
        ∀ u, ((nodes.update e.target change).node u).edges = (nodes.node u).edges := by
    intro nodes change keeps u
    unfold KeywordNodes.update
    dsimp only
    rw [Function.update_apply]
    split
    · rename_i self
      rw [keeps, self]
    · rfl
  have others : ∀ (nodes : KeywordNodes) (change : KeywordNode → KeywordNode) u,
      u ≠ e.target → (nodes.update e.target change).node u = nodes.node u :=
    fun nodes change u other => Function.update_of_ne other _ _
  unfold linkChild
  cases fallbackFrom nodes e.label nodes.size (nodes.node s).failure with
  | none =>
      dsimp only
      refine ⟨rfl, fun u => ?_, fun u other => others _ _ u other⟩
      rw [edges]
      exact fun _ => rfl
  | some f =>
      dsimp only
      refine ⟨rfl, fun u => ?_, fun u other => ?_⟩
      · rw [edges, edges]
        · exact fun _ => rfl
        · exact fun _ => rfl
      · rw [others _ _ u other, others _ _ u other]

/-- The child after it is linked. -/
theorem linkChild_target (s : ℕ) (nodes : KeywordNodes) (e : KeywordEdge)
    (fresh : (nodes.node e.target).failure = 0) :
    let link := (fallbackFrom nodes e.label nodes.size (nodes.node s).failure).getD 0
    ((linkChild s nodes e).node e.target).failure = link ∧
      (link ≠ e.target → ((linkChild s nodes e).node e.target).bestKeyword =
        minKeywordIndex (nodes.node e.target).bestKeyword (nodes.node link).bestKeyword) := by
  unfold linkChild KeywordNodes.update
  cases fallbackFrom nodes e.label nodes.size (nodes.node s).failure with
  | none => simp [fresh]
  | some f =>
      simp only [Option.getD_some, Function.update_self, ne_eq, true_and]
      intro other
      rw [Function.update_of_ne other]

theorem linkChild_linked (spells : Spells nodes word)
    (reached : ∀ i w, IsKeyword toLower keywords i w → w ∈ treeWords nodes word) {s : ℕ}
    (inside : s < nodes.size) (nonroot : s ≠ 0) {e : KeywordEdge}
    (mem : e ∈ (nodes.node s).edges)
    (down : ∀ g < nodes.size, g ≠ 0 → (word g).length ≤ (word s).length →
      Linked toLower keywords nodes word g)
    (root : Unlinked toLower keywords nodes word 0)
    (child : Unlinked toLower keywords nodes word e.target) :
    Linked toLower keywords (linkChild s nodes e) word e.target := by
  obtain ⟨target, word_⟩ := spells.edge s inside e mem
  obtain ⟨size, -, -⟩ := linkChild_frame s nodes e
  obtain ⟨failure, best⟩ := linkChild_target s nodes e child.failure
  have own := down s inside nonroot (Nat.le_refl _)
  have shorter := own.proper.within
  have spec := fallbackFrom_spec spells own.inside (spells.length_lt own.inside)
    (own.proper.candidate e.label)
    (fun g g_ nonroot short => by
      have linked := down g g_ nonroot (by omega)
      exact ⟨linked.inside, linked.proper⟩)
  -- The link, wherever the search for it ended.
  have link : ∃ f < nodes.size,
      (fallbackFrom nodes e.label nodes.size (nodes.node s).failure).getD 0 = f ∧
        LongestBelow (treeWords nodes word) ((word s).length + 1) (word s ++ [e.label])
          (word f) := by
    cases found : fallbackFrom nodes e.label nodes.size (nodes.node s).failure with
    | none =>
        rw [found] at spec
        exact ⟨0, spells.pos, rfl, spells.root.symm ▸ spec⟩
    | some f =>
        rw [found] at spec
        exact ⟨f, spec.1, rfl, spec.2⟩
  obtain ⟨f, f_, found, proper⟩ := link
  have length : (word e.target).length = (word s).length + 1 := by
    rw [word_, List.length_append, List.length_singleton]
  rw [← length, ← word_] at proper
  have short := proper.within
  have other : f ≠ e.target := by
    rintro rfl
    omega
  rw [found] at failure best
  have linkBest : Least (fun i => Ends toLower keywords i (word f)) (nodes.node f).bestKeyword := by
    by_cases rootLink : f = 0
    · subst rootLink
      refine root.best.congr fun i => ?_
      rw [spells.root, ends_nil]
    · exact (down f f_ rootLink (by omega)).best
  constructor
  · rw [failure, size]
    exact f_
  · rw [failure, treeWords_congr size]
    exact proper
  · rw [best other]
    exact (child.best.min linkBest).congr fun i => (ends_iff reached proper i).symm

end Keywords

end Sub2api.Moderation
