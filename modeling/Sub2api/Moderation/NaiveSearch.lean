import Sub2api.Moderation.SortedEdges

/-!
# The matcher is the naive search

While it reads a text the matcher is at the node of the longest suffix that has one, and the keyword
it remembers is the first of the list that occurs in what was read.
-/

namespace Sub2api.Moderation

open Automaton

/-! ### Purpose -/

section Purpose

variable (toLower : List Byte → List Byte)

/-- A keyword occurs in a text, both in lower case; one that is empty then does not count. -/
def Occurs (keyword text : List Byte) : Prop :=
  toLower keyword ≠ [] ∧ toLower keyword <:+: toLower text

instance (keyword text : List Byte) : Decidable (Occurs toLower keyword text) := by
  unfold Occurs
  infer_instance

/-- Look for every keyword in turn. -/
def naiveSearch (keywords : List (List Byte)) (text : List Byte) : Option (List Byte) :=
  keywords.find? fun keyword => Occurs toLower keyword text

end Purpose

variable {toLower : List Byte → List Byte} {keywords : List (List Byte)} {m : KeywordMatcher}
  {word : ℕ → List Byte}

/-! ### The states of a run -/

theorem Built.advance_spec (built : Built toLower keywords m word) {text : List Byte}
    {label : Byte} {bound fuel s : ℕ} (inside : s < m.nodes.size)
    (enough : (word s).length < fuel)
    (candidate : Candidate (treeWords m.nodes word) bound text label (word s)) :
    m.advance label fuel s < m.nodes.size ∧
      LongestBelow (treeWords m.nodes word) (bound + 1) (text ++ [label])
        (word (m.advance label fuel s)) := by
  have spells := built.tree.spells
  induction fuel generalizing s with
  | zero => omega
  | succ fuel ih =>
      unfold KeywordMatcher.advance
      dsimp only
      by_cases extends_ : word s ++ [label] ∈ treeWords m.nodes word
      · obtain ⟨t, t_, word_⟩ := extends_
        have nonroot : t ≠ 0 := by
          rintro rfl
          rw [spells.root] at word_
          simp at word_
        rw [built.next_of_word inside t_ word_, if_pos nonroot, word_]
        exact ⟨t_, candidate.extend spells.closed ⟨t, t_, word_⟩⟩
      · rw [built.next_of_absent inside extends_, if_neg (by simp)]
        by_cases root : s = 0
        · subst root
          rw [if_pos rfl, spells.root]
          rw [spells.root] at candidate extends_
          exact ⟨spells.pos, candidate.restart spells.closed extends_⟩
        · rw [if_neg root]
          obtain ⟨failure, proper⟩ := built.tree.failure s inside root
          have shorter := proper.within
          exact ih failure (by omega) (candidate.next extends_ proper)

/-- A keyword of the list is somewhere in a text. -/
def Contains (toLower : List Byte → List Byte) (keywords : List (List Byte)) (i : ℕ)
    (text : List Byte) : Prop :=
  ∃ w, IsKeyword toLower keywords i w ∧ w <:+: text

theorem contains_concat {i : ℕ} {text : List Byte} {label : Byte} :
    Contains toLower keywords i (text ++ [label]) ↔
      Contains toLower keywords i text ∨ Ends toLower keywords i (text ++ [label]) := by
  constructor
  · rintro ⟨w, known, infix_⟩
    rcases List.infix_concat_iff.mp infix_ with ends | before
    · exact Or.inr ⟨w, known, ends⟩
    · exact Or.inl ⟨w, known, before⟩
  · rintro (⟨w, known, before⟩ | ⟨w, known, ends⟩)
    · exact ⟨w, known, List.infix_concat_iff.mpr (Or.inr before)⟩
    · exact ⟨w, known, List.infix_concat_iff.mpr (Or.inl ends)⟩

/-- The keywords at the end of a text are those at the end of its longest suffix in the tree. -/
theorem ends_longest (reached : ∀ i w, IsKeyword toLower keywords i w →
      w ∈ treeWords m.nodes word) {text longest : List Byte}
    (state : Longest (treeWords m.nodes word) text longest) (i : ℕ) :
    Ends toLower keywords i longest ↔ Ends toLower keywords i text := by
  constructor
  · rintro ⟨w, known, suffix⟩
    exact ⟨w, known, (Longest.suffix_iff state (reached i w known)).mpr suffix⟩
  · rintro ⟨w, known, suffix⟩
    exact ⟨w, known, (Longest.suffix_iff state (reached i w known)).mp suffix⟩

theorem Built.scan_spec (built : Built toLower keywords m word) {seen : List Byte} {s : ℕ}
    (inside : s < m.nodes.size) (state : Longest (treeWords m.nodes word) seen (word s))
    {best : Option ℕ} (least : Least (fun i => Contains toLower keywords i seen) best)
    (rest : List Byte) :
    Least (fun i => Contains toLower keywords i (seen ++ rest)) (m.scan s best rest) := by
  induction rest generalizing seen s best with
  | nil =>
      rw [List.append_nil]
      exact least
  | cons label rest ih =>
      obtain ⟨inside', state'⟩ := built.advance_spec inside
        (built.tree.spells.length_lt inside) (state.candidate label)
      have longest : Longest (treeWords m.nodes word) (seen ++ [label])
          (word (m.advance label m.nodes.size s)) := by
        unfold Longest
        rw [List.length_append, List.length_singleton]
        exact state'
      have here := (built.tree.best _ inside').congr (ends_longest built.tree.reached longest)
      have next := (least.min here).congr fun i => contains_concat.symm
      rw [List.append_cons]
      unfold KeywordMatcher.scan
      dsimp only
      split
      · rename_i first
        rw [first] at next
        obtain ⟨⟨w, known, infix_⟩, -⟩ := next
        exact ⟨⟨w, known, infix_.trans ⟨[], rest, by simp⟩⟩, fun j _ => Nat.zero_le j⟩
      · exact ih inside' longest next

/-! ### Building and matching -/

section Lower

variable (nonempty : ∀ w, toLower w = [] ↔ w = [])

include nonempty

theorem isKeyword_nonempty (i : ℕ) : ¬ IsKeyword toLower keywords i [] := by
  rintro ⟨keyword, -, some_, lower⟩
  exact some_ ((nonempty keyword).mp lower)

theorem contains_iff {i : ℕ} {text : List Byte} :
    Contains toLower keywords i (toLower text) ↔
      ∃ keyword, keywords[i]? = some keyword ∧ Occurs toLower keyword text := by
  constructor
  · rintro ⟨w, ⟨keyword, at_, some_, rfl⟩, infix_⟩
    exact ⟨keyword, at_, fun blank => some_ ((nonempty keyword).mp blank), infix_⟩
  · rintro ⟨keyword, at_, some_, infix_⟩
    exact ⟨toLower keyword, ⟨keyword, at_, fun blank => some_ ((nonempty keyword).mpr blank), rfl⟩,
      infix_⟩

end Lower

/-- The first occurrence in a list, from its index. -/
theorem first_of_least (keywords : List (List Byte)) {p : List Byte → Bool} {r : Option ℕ}
    (least : Least (fun i => ∃ keyword, keywords[i]? = some keyword ∧ p keyword = true) r) :
    (r.bind fun i => keywords[i]?) = keywords.find? p := by
  cases r with
  | none =>
      symm
      apply List.find?_eq_none.mpr
      intro keyword mem found
      obtain ⟨i, i_, at_⟩ := List.getElem_of_mem mem
      exact least i ⟨keyword, List.getElem?_eq_some_iff.mpr ⟨i_, at_⟩, found⟩
  | some i =>
      obtain ⟨⟨keyword, at_, found⟩, low⟩ := least
      obtain ⟨i_, own⟩ := List.getElem?_eq_some_iff.mp at_
      rw [Option.bind_some, at_]
      symm
      apply List.find?_eq_some_iff_getElem.mpr ⟨found, i, i_, own, ?_⟩
      intro j before
      have earlier : j < keywords.length := Nat.lt_trans before i_
      cases holds : p keywords[j] with
      | false => rfl
      | true =>
          have := low j ⟨_, List.getElem?_eq_getElem earlier, holds⟩
          omega

/-- The root table holds the targets of the edges, whose labels are different. -/
theorem rootTable (edges : List KeywordEdge) (labels : (edges.map (·.label)).Nodup)
    (table : Byte → ℕ) :
    let table' := edges.foldl (fun table edge => Function.update table edge.label edge.target) table
    (∀ e ∈ edges, table' e.label = e.target) ∧
      ∀ label, (∀ e ∈ edges, e.label ≠ label) → table' label = table label := by
  induction edges generalizing table with
  | nil => exact ⟨fun e none_ => absurd none_ List.not_mem_nil, fun _ _ => rfl⟩
  | cons edge edges ih =>
      rw [List.map_cons, List.nodup_cons] at labels
      obtain ⟨held, kept⟩ := ih labels.2 (Function.update table edge.label edge.target)
      constructor
      · intro e mem
        rcases List.mem_cons.mp mem with rfl | later
        · rw [List.foldl_cons, kept e.label, Function.update_self]
          intro e' mem' same
          exact labels.1 (List.mem_map.mpr ⟨e', mem', same⟩)
        · exact held e later
      · intro label none_
        rw [List.foldl_cons, kept label fun e mem => none_ e (List.mem_cons_of_mem _ mem)]
        exact Function.update_of_ne (none_ edge (List.mem_cons_self ..)).symm _ _

/-- Sorting the edges keeps the tree and its links. -/
theorem LinkedTree.sorted {nodes : KeywordNodes} (tree : LinkedTree toLower keywords nodes word) :
    LinkedTree toLower keywords
      { nodes with
        node := fun s => { nodes.node s with edges := sortEdges (nodes.node s).edges } } word where
  spells := by
    have spells := tree.spells
    constructor
    · exact spells.pos
    · exact spells.root
    · exact spells.inj
    · intro s s_ e mem
      exact spells.edge s s_ e ((sortEdges_perm _).mem_iff.mp mem)
    · intro s s_ t t_ label word_
      exact (sortEdges_perm _).mem_iff.mpr (spells.child s s_ t t_ label word_)
    · intro s s_
      exact ((sortEdges_perm _).map _).nodup_iff.mpr (spells.labels s s_)
    · exact spells.parent
  reached := tree.reached
  failure := tree.failure
  best := tree.best

/-- Linking keeps the edges of all nodes. -/
theorem linkNodes_edges (fuel : ℕ) (queue : List ℕ) (nodes : KeywordNodes) (s : ℕ) :
    ((linkNodes fuel queue nodes).node s).edges = (nodes.node s).edges := by
  have children : ∀ (edges : List KeywordEdge) (p : ℕ) (nodes : KeywordNodes),
      ((edges.foldl (linkChild p) nodes).node s).edges = (nodes.node s).edges := by
    intro edges p
    induction edges with
    | nil => exact fun _ => rfl
    | cons e edges ih =>
        intro nodes
        rw [List.foldl_cons, ih, (linkChild_frame p nodes e).2.1]
  induction fuel generalizing queue nodes with
  | zero => rfl
  | succ fuel ih =>
      cases queue with
      | nil => rfl
      | cons p queue =>
          unfold linkNodes
          rw [ih, children]

theorem newKeywordMatcher_spec (nonempty : ∀ w, toLower w = [] ↔ w = []) (keywords) :
    match newKeywordMatcher toLower keywords with
    | none => ∀ i w, ¬ IsKeyword toLower keywords i w
    | some m => ∃ word, Built toLower keywords m word := by
  obtain ⟨word, holds⟩ := exists_holds toLower keywords
  unfold newKeywordMatcher
  by_cases empty : keywords.length = 0
  · rw [if_pos empty]
    rintro i w ⟨keyword, at_, -⟩
    rw [List.eq_nil_of_length_eq_zero empty] at at_
    simp at at_
  · rw [if_neg empty]
    dsimp only
    by_cases alone : (keywords.zipIdx.foldl (insertKeyword toLower) {}).size = 1
    · rw [if_pos alone]
      intro i w known
      obtain ⟨s, s_, word_⟩ := holds.reached i w known
      rw [alone, Nat.lt_one_iff] at s_
      rw [s_, holds.spells.root] at word_
      exact isKeyword_nonempty nonempty i (word_ ▸ known)
    · rw [if_neg alone]
      have tree := holds.linkedTree (isKeyword_nonempty nonempty)
      obtain ⟨table, absent⟩ := rootTable _ (holds.spells.labels 0 holds.spells.pos) fun _ => 0
      refine ⟨word, tree.sorted, fun s => sortEdges_ordered _, ?_, ?_, rfl⟩
      · intro e mem
        have mem := (sortEdges_perm _).mem_iff.mp mem
        rw [linkNodes_edges] at mem
        exact table e mem
      · intro label none_
        apply absent label
        intro e mem
        apply none_ e
        apply (sortEdges_perm _).mem_iff.mpr
        rw [linkNodes_edges]
        exact mem

theorem Built.matchText_eq (built : Built toLower keywords m word)
    (nonempty : ∀ w, toLower w = [] ↔ w = []) (text : List Byte) :
    m.matchText toLower text = naiveSearch toLower keywords text := by
  have start : Longest (treeWords m.nodes word) [] (word 0) := by
    rw [built.tree.spells.root]
    exact Longest.self built.tree.spells.root_mem
  have none_ : Least (fun i => Contains toLower keywords i []) none := by
    rintro i ⟨w, known, infix_⟩
    rw [List.infix_nil] at infix_
    exact isKeyword_nonempty nonempty i (infix_ ▸ known)
  have least := (built.scan_spec built.tree.spells.pos start none_ (toLower text)).congr
    fun i => contains_iff nonempty
  have found := first_of_least keywords (p := fun keyword => Occurs toLower keyword text)
    (least.congr fun i => by simp)
  unfold KeywordMatcher.matchText naiveSearch
  rw [← found, built.own]
  split
  · rename_i trivial_
    symm
    rcases trivial_ with blank | size | no
    · subst blank
      rw [(nonempty []).mpr rfl]
      rfl
    · have := built.tree.spells.pos
      omega
    · rw [List.eq_nil_of_length_eq_zero no]
      cases m.scan 0 none (toLower text) <;> rfl
  · cases m.scan 0 none (toLower text) <;> rfl

/-- The matcher finds what looking for every keyword in turn finds: the first keyword of the list
that occurs. -/
theorem matcher_is_naive_search (nonempty : ∀ w, toLower w = [] ↔ w = [])
    (keywords : List (List Byte)) (text : List Byte) :
    matchKeyword toLower (newKeywordMatcher toLower keywords) text =
      naiveSearch toLower keywords text := by
  have spec := newKeywordMatcher_spec nonempty keywords
  unfold matchKeyword
  cases built : newKeywordMatcher toLower keywords with
  | none =>
      rw [built] at spec
      symm
      apply List.find?_eq_none.mpr
      intro keyword mem found
      obtain ⟨i, i_, at_⟩ := List.getElem_of_mem mem
      have occurs : Occurs toLower keyword text := by simpa using found
      apply spec i (toLower keyword)
      exact ⟨keyword, List.getElem?_eq_some_iff.mpr ⟨i_, at_⟩,
        fun blank => occurs.1 ((nonempty keyword).mpr blank), rfl⟩
  | some m =>
      rw [built] at spec
      obtain ⟨word, spec⟩ := spec
      exact spec.matchText_eq nonempty text

/-! ### A sample -/

/-- ASCII letters in lower case. -/
def asciiLower (b : Byte) : Byte :=
  if 65 ≤ b.val ∧ b.val ≤ 90 then (UInt8.ofNat (b.val + 32)).toFin else b

/-- Of a keyword, its own suffix and another one, all in `"xUsHERx"`, the first of the list counts:
`"HERs"` is not there, `"he"` ends inside `"usher"`. -/
theorem matcher_is_naive_search_sample :
    matchKeyword (List.map asciiLower)
      (newKeywordMatcher (List.map asciiLower)
        [[72, 69, 82, 115], [104, 101], [117, 115, 104, 101, 114]])
      [120, 85, 115, 72, 69, 82, 120] = some [104, 101] := by
  rw [matcher_is_naive_search fun w => List.map_eq_nil_iff]
  decide

end Sub2api.Moderation
