import Sub2api.Moderation.FailureLinks

/-!
# The breadth-first pass links every node

The nodes that are done come before the queued ones, in the order of their depths; a node is among
them exactly when its parent is the root or done.
-/

namespace Sub2api.Moderation

open Automaton

section Pass

variable {toLower : List Byte → List Byte} {keywords : List (List Byte)} {nodes : KeywordNodes}
  {word : ℕ → List Byte}

/-- The state of the pass: the nodes that are done, and the queue. -/
structure Pass (toLower : List Byte → List Byte) (keywords : List (List Byte))
    (nodes : KeywordNodes) (word : ℕ → List Byte) (done queue : List ℕ) : Prop where
  spells : Spells nodes word
  reached : ∀ i w, IsKeyword toLower keywords i w → w ∈ treeWords nodes word
  linked : ∀ t ∈ done ++ queue, Linked toLower keywords nodes word t
  rest : ∀ t < nodes.size, t ∉ done ++ queue → Unlinked toLower keywords nodes word t
  member : ∀ t ∈ done ++ queue, t < nodes.size ∧ t ≠ 0
  covers : ∀ s < nodes.size, ∀ t < nodes.size, ∀ label, word t = word s ++ [label] →
    (t ∈ done ++ queue ↔ s = 0 ∨ s ∈ done)
  nodup : (done ++ queue).Nodup
  sorted : (done ++ queue).Pairwise fun s t => (word s).length ≤ (word t).length
  near : ∀ s ∈ queue, ∀ t ∈ queue, (word t).length ≤ (word s).length + 1

variable {done queue : List ℕ}

/-- The nodes up to the depth of the head of the queue are done or queued. -/
theorem Pass.level {s : ℕ} (pass : Pass toLower keywords nodes word done (s :: queue)) {t : ℕ}
    (inside : t < nodes.size) (nonroot : t ≠ 0) (shallow : (word t).length ≤ (word s).length) :
    t ∈ done ++ s :: queue := by
  induction depth : (word t).length using Nat.strong_induction_on generalizing t with
  | _ n ih =>
      obtain ⟨p, p_, label, word_⟩ := pass.spells.parent t inside nonroot
      have longer : (word t).length = (word p).length + 1 := by
        rw [word_, List.length_append, List.length_singleton]
      apply (pass.covers p p_ t inside label word_).mpr
      by_cases root : p = 0
      · exact Or.inl root
      · right
        have known := ih _ (by omega) p_ root (by omega) rfl
        rcases List.mem_append.mp known with old | queued
        · exact old
        · exfalso
          rcases List.mem_cons.mp queued with rfl | later
          · omega
          · have order := (List.pairwise_append.mp pass.sorted).2.1
            have := List.rel_of_pairwise_cons order later
            omega

/-- What linking some children of the head does: the children of the edges gone through are
linked, and nothing else changes. -/
structure Linking (toLower : List Byte → List Byte) (keywords : List (List Byte))
    (nodes nodes' : KeywordNodes) (word : ℕ → List Byte) (children : List ℕ) : Prop where
  size : nodes'.size = nodes.size
  edges : ∀ u, (nodes'.node u).edges = (nodes.node u).edges
  others : ∀ u, u ∉ children → nodes'.node u = nodes.node u
  linked : ∀ u ∈ children, Linked toLower keywords nodes' word u

theorem Pass.child_fresh {s : ℕ} (pass : Pass toLower keywords nodes word done (s :: queue))
    {e : KeywordEdge} (mem : e ∈ (nodes.node s).edges) : e.target ∉ done ++ s :: queue := by
  obtain ⟨inside, nonroot⟩ := pass.member s (by simp)
  obtain ⟨target, word_⟩ := pass.spells.edge s inside e mem
  intro known
  rcases (pass.covers s inside e.target target e.label word_).mp known with root | old
  · exact nonroot root
  · exact (List.nodup_append.mp pass.nodup).2.2 s old s (List.mem_cons_self ..) rfl

theorem Pass.child_nonroot {s : ℕ} (pass : Pass toLower keywords nodes word done (s :: queue))
    {e : KeywordEdge} (mem : e ∈ (nodes.node s).edges) : e.target ≠ 0 := by
  obtain ⟨inside, -⟩ := pass.member s (by simp)
  obtain ⟨-, word_⟩ := pass.spells.edge s inside e mem
  intro root
  rw [root, pass.spells.root] at word_
  simp at word_

theorem Pass.linkChildren {s : ℕ} (pass : Pass toLower keywords nodes word done (s :: queue))
    (edges first : List KeywordEdge) (all : first ++ edges = (nodes.node s).edges)
    {nodes' : KeywordNodes}
    (linking : Linking toLower keywords nodes nodes' word (first.map (·.target))) :
    Linking toLower keywords nodes (edges.foldl (linkChild s) nodes') word
      ((nodes.node s).edges.map (·.target)) := by
  induction edges generalizing first nodes' with
  | nil =>
      rw [List.append_nil] at all
      rw [← all]
      exact linking
  | cons e edges ih =>
      apply ih (first ++ [e]) (by rw [← all]; simp)
      obtain ⟨inside, nonroot⟩ := pass.member s (by simp)
      have mem : e ∈ (nodes.node s).edges := by
        rw [← all]
        simp
      have spells : Spells nodes' word := pass.spells.congr linking.size linking.edges
      have fresh := pass.child_fresh mem
      -- A child has one edge.
      have single : e.target ∉ first.map (·.target) := by
        intro twice
        obtain ⟨e', mem', target_⟩ := List.mem_map.mp twice
        have there : e' ∈ (nodes.node s).edges := by
          rw [← all]
          exact List.mem_append_left _ mem'
        have word_ := (pass.spells.edge s inside e mem).2
        have word_' := (pass.spells.edge s inside e' there).2
        rw [target_, word_] at word_'
        have label_ : e.label = e'.label := by simpa using word_'
        have labels := pass.spells.labels s inside
        rw [← all, List.map_append, List.map_cons] at labels
        exact (List.nodup_append.mp labels).2.2 e'.label (List.mem_map_of_mem mem') e.label
          (List.mem_cons_self ..) label_.symm
      have untouched : ∀ u, u ∉ first.map (·.target) → nodes'.node u = nodes.node u :=
        linking.others
      have rootFree : (0 : ℕ) ∉ first.map (·.target) := by
        intro root
        obtain ⟨e', mem', target_⟩ := List.mem_map.mp root
        have there : e' ∈ (nodes.node s).edges := by
          rw [← all]
          exact List.mem_append_left _ mem'
        exact pass.child_nonroot there target_
      have known : ∀ t ∈ done ++ s :: queue, t ∉ first.map (·.target) := by
        intro t t_ child
        obtain ⟨e', mem', rfl⟩ := List.mem_map.mp child
        have there : e' ∈ (nodes.node s).edges := by
          rw [← all]
          exact List.mem_append_left _ mem'
        exact pass.child_fresh there t_
      have target := (pass.spells.edge s inside e mem).1
      have linkedChild : Linked toLower keywords (linkChild s nodes' e) word e.target := by
        apply linkChild_linked spells _ (linking.size ▸ inside) nonroot (linking.edges s ▸ mem)
        · intro g g_ nonroot' shallow
          rw [linking.size] at g_
          have g_known := pass.level g_ nonroot' shallow
          exact (pass.linked g g_known).congr linking.size (untouched g (known g g_known))
        · refine (pass.rest 0 pass.spells.pos ?_).congr (untouched 0 rootFree)
          exact fun root => (pass.member 0 root).2 rfl
        · exact (pass.rest e.target target fresh).congr (untouched e.target single)
        · intro i w keyword
          rw [treeWords_congr linking.size]
          exact pass.reached i w keyword
      obtain ⟨size, edges_, others⟩ := linkChild_frame s nodes' e
      constructor
      · exact size.trans linking.size
      · exact fun u => (edges_ u).trans (linking.edges u)
      · intro u outside
        rw [List.map_append, List.mem_append, not_or] at outside
        rw [others u (by simpa using outside.2), linking.others u outside.1]
      · intro u child
        rw [List.map_append, List.mem_append] at child
        rcases child with old | new
        · apply (linking.linked u old).congr size
          apply others u
          rintro rfl
          exact single old
        · have own : u = e.target := by simpa using new
          exact own ▸ linkedChild

/-- The children of a node are different nodes. -/
theorem Spells.targets_nodup (spells : Spells nodes word) {s : ℕ} (inside : s < nodes.size) :
    ((nodes.node s).edges.map (·.target)).Nodup := by
  have labels := spells.labels s inside
  rw [List.Nodup, List.pairwise_map] at labels ⊢
  apply labels.imp_of_mem
  intro e e' mem mem' other same
  obtain ⟨-, word_⟩ := spells.edge s inside e mem
  obtain ⟨-, word_'⟩ := spells.edge s inside e' mem'
  rw [same, word_'] at word_
  apply other
  simpa using word_.symm

/-- One round: the head of the queue is done, and its children are queued. -/
theorem Pass.step {s : ℕ} (pass : Pass toLower keywords nodes word done (s :: queue)) :
    Pass toLower keywords ((nodes.node s).edges.foldl (linkChild s) nodes) word (done ++ [s])
      (queue ++ (nodes.node s).edges.map (·.target)) := by
  obtain ⟨inside, nonroot⟩ := pass.member s (by simp)
  have start : Linking toLower keywords nodes nodes word (([] : List KeywordEdge).map (·.target)) :=
    ⟨rfl, fun _ => rfl, fun _ _ => rfl, fun u none_ => absurd none_ List.not_mem_nil⟩
  have linking := pass.linkChildren (nodes.node s).edges [] rfl start
  have regroup : done ++ [s] ++ (queue ++ (nodes.node s).edges.map (·.target)) =
      (done ++ s :: queue) ++ (nodes.node s).edges.map (·.target) := by simp
  have fresh : ∀ t ∈ done ++ s :: queue, t ∉ (nodes.node s).edges.map (·.target) := by
    intro t known child
    obtain ⟨e, mem, rfl⟩ := List.mem_map.mp child
    exact pass.child_fresh mem known
  have childWord : ∀ t ∈ (nodes.node s).edges.map (·.target),
      t < nodes.size ∧ ∃ label, word t = word s ++ [label] := by
    intro t child
    obtain ⟨e, mem, rfl⟩ := List.mem_map.mp child
    obtain ⟨target, word_⟩ := pass.spells.edge s inside e mem
    exact ⟨target, e.label, word_⟩
  have childLength : ∀ t ∈ (nodes.node s).edges.map (·.target),
      (word t).length = (word s).length + 1 := by
    intro t child
    obtain ⟨-, label, word_⟩ := childWord t child
    rw [word_, List.length_append, List.length_singleton]
  have headQueue : ∀ t ∈ s :: queue,
      (word s).length ≤ (word t).length ∧ (word t).length ≤ (word s).length + 1 := by
    intro t mem
    constructor
    · rcases List.mem_cons.mp mem with rfl | later
      · exact Nat.le_refl _
      · exact List.rel_of_pairwise_cons (List.pairwise_append.mp pass.sorted).2.1 later
    · exact pass.near s (List.mem_cons_self ..) t mem
  constructor
  · exact pass.spells.congr linking.size linking.edges
  · intro i w keyword
    rw [treeWords_congr linking.size]
    exact pass.reached i w keyword
  · intro t mem
    rw [regroup, List.mem_append] at mem
    rcases mem with known | child
    · exact (pass.linked t known).congr linking.size (linking.others t (fresh t known))
    · exact linking.linked t child
  · intro t below outside
    rw [linking.size] at below
    rw [regroup, List.mem_append, not_or] at outside
    exact (pass.rest t below outside.1).congr (linking.others t outside.2)
  · intro t mem
    rw [linking.size]
    rw [regroup, List.mem_append] at mem
    rcases mem with known | child
    · exact pass.member t known
    · obtain ⟨e, mem, rfl⟩ := List.mem_map.mp child
      exact ⟨(pass.spells.edge s inside e mem).1, pass.child_nonroot mem⟩
  · intro p p_ t t_ label word_
    rw [linking.size] at p_ t_
    have regroup' : p ∈ done ++ [s] ↔ p ∈ done ∨ p = s := by simp
    rw [regroup, List.mem_append, regroup']
    constructor
    · rintro (known | child)
      · exact ((pass.covers p p_ t t_ label word_).mp known).imp_right Or.inl
      · obtain ⟨-, label', word_'⟩ := childWord t child
        rw [word_] at word_'
        have own := pass.spells.inj p p_ s inside (List.append_inj' word_' rfl).1
        exact Or.inr (Or.inr own)
    · rintro (root | old | rfl)
      · exact Or.inl ((pass.covers p p_ t t_ label word_).mpr (Or.inl root))
      · exact Or.inl ((pass.covers p p_ t t_ label word_).mpr (Or.inr old))
      · right
        exact List.mem_map.mpr ⟨_, pass.spells.child p p_ t t_ label word_, rfl⟩
  · rw [regroup, List.nodup_append]
    refine ⟨pass.nodup, pass.spells.targets_nodup inside, ?_⟩
    rintro t known u child rfl
    exact fresh t known child
  · rw [regroup, List.pairwise_append]
    refine ⟨pass.sorted, ?_, ?_⟩
    · apply List.pairwise_of_forall_mem_list
      intro t t_ u u_
      rw [childLength t t_, childLength u u_]
    · intro t known u child
      rw [childLength u child]
      rcases List.mem_append.mp known with old | queued
      · have order := (List.pairwise_append.mp pass.sorted).2.2 t old s (List.mem_cons_self ..)
        omega
      · exact (headQueue t queued).2
  · have range : ∀ t ∈ queue ++ (nodes.node s).edges.map (·.target),
        (word s).length ≤ (word t).length ∧ (word t).length ≤ (word s).length + 1 := by
      intro t mem
      rcases List.mem_append.mp mem with queued | child
      · exact headQueue t (List.mem_cons_of_mem _ queued)
      · have := childLength t child
        omega
    intro t t_ u u_
    have := range t t_
    have := range u u_
    omega

/-- The root is never queued, so there are fewer nodes in the pass than in the tree. -/
theorem Pass.length_lt (pass : Pass toLower keywords nodes word done queue) :
    done.length + queue.length < nodes.size := by
  have count := Finset.card_le_card_of_injOn (s := (done ++ queue).toFinset)
    (t := (Finset.range nodes.size).erase 0) id
    (by
      intro t mem
      have mem := List.mem_toFinset.mp (Finset.mem_coe.mp mem)
      obtain ⟨inside, nonroot⟩ := pass.member t mem
      exact Finset.mem_coe.mpr (Finset.mem_erase.mpr ⟨nonroot, Finset.mem_range.mpr inside⟩))
    (Set.injOn_id _)
  have pos := pass.spells.pos
  rw [List.toFinset_card_of_nodup pass.nodup, List.length_append,
    Finset.card_erase_of_mem (Finset.mem_range.mpr pos), Finset.card_range] at count
  omega

theorem Pass.run {fuel : ℕ} (pass : Pass toLower keywords nodes word done queue)
    (enough : nodes.size ≤ fuel + done.length) :
    ∃ done', Pass toLower keywords (linkNodes fuel queue nodes) word done' [] := by
  induction fuel generalizing done queue nodes with
  | zero =>
      have := pass.length_lt
      omega
  | succ fuel ih =>
      cases queue with
      | nil => exact ⟨done, pass⟩
      | cons s queue =>
          have next := pass.step
          apply ih next
          have start : Linking toLower keywords nodes nodes word
              (([] : List KeywordEdge).map (·.target)) :=
            ⟨rfl, fun _ => rfl, fun _ _ => rfl, fun u none_ => absurd none_ List.not_mem_nil⟩
          rw [(pass.linkChildren (nodes.node s).edges [] rfl start).size, List.length_append,
            List.length_singleton]
          omega

/-- A pass that is over has done all nodes. -/
theorem Pass.all_done {done : List ℕ} (pass : Pass toLower keywords nodes word done []) {t : ℕ}
    (inside : t < nodes.size) (nonroot : t ≠ 0) : t ∈ done := by
  induction depth : (word t).length using Nat.strong_induction_on generalizing t with
  | _ n ih =>
      obtain ⟨p, p_, label, word_⟩ := pass.spells.parent t inside nonroot
      have longer : (word t).length = (word p).length + 1 := by
        rw [word_, List.length_append, List.length_singleton]
      have covers := pass.covers p p_ t inside label word_
      rw [List.append_nil] at covers
      apply covers.mpr
      by_cases root : p = 0
      · exact Or.inl root
      · exact Or.inr (ih _ (by omega) p_ root rfl)

/-! ### The linked tree -/

/-- What the matcher reads of the nodes: a tree with right links and right keywords. -/
structure LinkedTree (toLower : List Byte → List Byte) (keywords : List (List Byte))
    (nodes : KeywordNodes) (word : ℕ → List Byte) : Prop where
  spells : Spells nodes word
  reached : ∀ i w, IsKeyword toLower keywords i w → w ∈ treeWords nodes word
  failure : ∀ t < nodes.size, t ≠ 0 → (nodes.node t).failure < nodes.size ∧
    LongestProper (treeWords nodes word) (word t) (word (nodes.node t).failure)
  best : ∀ t < nodes.size, Least (fun i => Ends toLower keywords i (word t))
    (nodes.node t).bestKeyword

theorem Pass.linkedTree {done : List ℕ} (pass : Pass toLower keywords nodes word done []) :
    LinkedTree toLower keywords nodes word where
  spells := pass.spells
  reached := pass.reached
  failure t inside nonroot := by
    have linked := pass.linked t (by simpa using pass.all_done inside nonroot)
    exact ⟨linked.inside, linked.proper⟩
  best t inside := by
    by_cases root : t = 0
    · subst root
      have unlinked := pass.rest 0 inside fun known => (pass.member 0 known).2 rfl
      refine unlinked.best.congr fun i => ?_
      rw [pass.spells.root, ends_nil]
    · exact (pass.linked t (by simpa using pass.all_done inside root)).best

/-- The pass starts with the children of the root, whose links are right from the beginning. -/
theorem Holds.pass (holds : Holds toLower keywords nodes word)
    (nonempty : ∀ i, ¬ IsKeyword toLower keywords i []) :
    Pass toLower keywords nodes word [] ((nodes.node 0).edges.map (·.target)) := by
  have spells := holds.spells
  have childWord : ∀ t ∈ (nodes.node 0).edges.map (·.target),
      t < nodes.size ∧ ∃ label, word t = [label] := by
    intro t child
    obtain ⟨e, mem, rfl⟩ := List.mem_map.mp child
    obtain ⟨target, word_⟩ := spells.edge 0 spells.pos e mem
    rw [spells.root] at word_
    exact ⟨target, e.label, word_⟩
  have childLength : ∀ t ∈ (nodes.node 0).edges.map (·.target), (word t).length = 1 := by
    intro t child
    obtain ⟨-, label, word_⟩ := childWord t child
    rw [word_, List.length_singleton]
  constructor
  · exact spells
  · exact holds.reached
  · intro t child
    obtain ⟨inside, label, word_⟩ := childWord t child
    have proper : LongestProper (treeWords nodes word) (word t) [] := by
      constructor
      · exact List.nil_suffix
      · exact spells.root_mem
      · rw [childLength t child]
        exact Nat.one_pos
      · intro other _ _ short
        rw [childLength t child] at short
        exact Nat.le_of_lt_succ short
    constructor
    · rw [holds.failure t inside]
      exact spells.pos
    · rw [holds.failure t inside, spells.root]
      exact proper
    · refine (holds.marked t inside).congr fun i => ?_
      rw [ends_iff holds.reached proper, ends_nil]
      exact (or_iff_left (nonempty i)).symm
  · intro t inside _
    exact ⟨holds.failure t inside, holds.marked t inside⟩
  · intro t child
    obtain ⟨inside, label, word_⟩ := childWord t child
    refine ⟨inside, ?_⟩
    rintro rfl
    rw [spells.root] at word_
    cases word_
  · intro p p_ t t_ label word_
    constructor
    · intro child
      obtain ⟨-, label', word_'⟩ := childWord t child
      rw [word_] at word_'
      have root : word p = word 0 := by
        rw [spells.root]
        exact (List.append_inj' (word_'.trans (List.nil_append _).symm) rfl).1
      exact Or.inl (spells.inj p p_ 0 spells.pos root)
    · rintro (rfl | none_)
      · exact List.mem_map.mpr ⟨_, spells.child 0 p_ t t_ label word_, rfl⟩
      · cases none_
  · exact spells.targets_nodup spells.pos
  · rw [List.nil_append]
    apply List.pairwise_of_forall_mem_list
    intro t t_ u u_
    rw [childLength t t_, childLength u u_]
  · intro t t_ u u_
    rw [childLength t t_, childLength u u_]
    omega

/-- The pass over the tree of the keywords links it. -/
theorem Holds.linkedTree (holds : Holds toLower keywords nodes word)
    (nonempty : ∀ i, ¬ IsKeyword toLower keywords i []) :
    LinkedTree toLower keywords
      (linkNodes nodes.size ((nodes.node 0).edges.map (·.target)) nodes) word := by
  obtain ⟨done, over_⟩ := (holds.pass nonempty).run (Nat.le_refl _)
  exact over_.linkedTree

end Pass

end Sub2api.Moderation
