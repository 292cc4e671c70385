import Sub2api.Moderation.KeywordMatcher

/-!
# The tree of keywords

Every node stands for a word, its children for the words with one more byte. Inserting keywords
keeps this, gives every keyword a node and leaves at a node the first keyword that is its word.
-/

namespace Sub2api.Moderation

/-! ### Least indices -/

/-- The least index with a property, or `none` when there is none. -/
def Least (P : ℕ → Prop) : Option ℕ → Prop
  | none => ∀ i, ¬ P i
  | some i => P i ∧ ∀ j, P j → i ≤ j

theorem Least.congr {P Q : ℕ → Prop} {r : Option ℕ} (same : ∀ i, P i ↔ Q i) (least : Least P r) :
    Least Q r := by
  rwa [← show P = Q from funext fun i => propext (same i)]

theorem Least.min {P Q : ℕ → Prop} {left right : Option ℕ} (first : Least P left)
    (second : Least Q right) : Least (fun i => P i ∨ Q i) (minKeywordIndex left right) := by
  cases left with
  | none => exact second.congr fun i => by simp [first i]
  | some l =>
      cases right with
      | none => exact Least.congr (fun i => by simp [second i]) (show Least P (some l) from first)
      | some r =>
          obtain ⟨inFirst, low⟩ := first
          obtain ⟨inSecond, low'⟩ := second
          change Least _ (if l < r then some l else some r)
          split
          · refine ⟨Or.inl inFirst, ?_⟩
            rintro j (here | there)
            · exact low j here
            · have := low' j there
              omega
          · refine ⟨Or.inr inSecond, ?_⟩
            rintro j (here | there)
            · have := low j here
              omega
            · exact low' j there

/-! ### Words of nodes -/

/-- The nodes form a tree in which `word` says what each one stands for. -/
structure Spells (nodes : KeywordNodes) (word : ℕ → List Byte) : Prop where
  pos : 0 < nodes.size
  root : word 0 = []
  inj : ∀ s < nodes.size, ∀ t < nodes.size, word s = word t → s = t
  edge : ∀ s < nodes.size, ∀ e ∈ (nodes.node s).edges,
    e.target < nodes.size ∧ word e.target = word s ++ [e.label]
  child : ∀ s < nodes.size, ∀ t < nodes.size, ∀ label, word t = word s ++ [label] →
    ⟨t, label⟩ ∈ (nodes.node s).edges
  labels : ∀ s < nodes.size, ((nodes.node s).edges.map (·.label)).Nodup
  parent : ∀ t < nodes.size, t ≠ 0 → ∃ s < nodes.size, ∃ label, word t = word s ++ [label]

variable {nodes nodes' : KeywordNodes} {word word' : ℕ → List Byte}

theorem Spells.transition_iff (spells : Spells nodes word) {s t : ℕ} {label : Byte}
    (inside : s < nodes.size) :
    nodes.transition s label = some t ↔ t < nodes.size ∧ word t = word s ++ [label] := by
  unfold KeywordNodes.transition
  rw [if_neg (by omega), Option.map_eq_some_iff]
  constructor
  · rintro ⟨e, found, rfl⟩
    have mem := List.mem_of_find?_eq_some found
    have label_ : e.label = label := by simpa using List.find?_some found
    rw [← label_]
    exact spells.edge s inside e mem
  · rintro ⟨inside', word_⟩
    have mem := spells.child s inside t inside' label word_
    cases found : (nodes.node s).edges.find? fun edge => edge.label = label with
    | none =>
        have other := List.find?_eq_none.mp found _ mem
        simp at other
    | some e =>
        have mem' := List.mem_of_find?_eq_some found
        have label_ : e.label = label := by simpa using List.find?_some found
        obtain ⟨inside'', word'⟩ := spells.edge s inside e mem'
        rw [label_, ← word_] at word'
        exact ⟨e, rfl, spells.inj _ inside'' _ inside' word'⟩

/-- What a tree spells lies in its edges only. -/
theorem Spells.congr (spells : Spells nodes word) (size : nodes'.size = nodes.size)
    (edges : ∀ s, (nodes'.node s).edges = (nodes.node s).edges) : Spells nodes' word := by
  constructor
  · rw [size]
    exact spells.pos
  · exact spells.root
  · rw [size]
    exact spells.inj
  · simp only [size, edges]
    exact spells.edge
  · simp only [size, edges]
    exact spells.child
  · simp only [size, edges]
    exact spells.labels
  · rw [size]
    exact spells.parent

/-- What inserting does to the nodes that are there, and what it puts at new ones. -/
structure Grows (nodes : KeywordNodes) (word : ℕ → List Byte) (nodes' : KeywordNodes)
    (word' : ℕ → List Byte) : Prop where
  size : nodes.size ≤ nodes'.size
  word : ∀ s < nodes.size, word' s = word s
  old : ∀ s < nodes.size, (nodes'.node s).failure = (nodes.node s).failure ∧
    (nodes'.node s).bestKeyword = (nodes.node s).bestKeyword
  new : ∀ s < nodes'.size, nodes.size ≤ s →
    (nodes'.node s).failure = 0 ∧ (nodes'.node s).bestKeyword = none

theorem Grows.refl (nodes : KeywordNodes) (word : ℕ → List Byte) : Grows nodes word nodes word where
  size := Nat.le_refl _
  word _ _ := rfl
  old _ _ := ⟨rfl, rfl⟩
  new s inside outside := absurd inside (by omega)

theorem Grows.trans {nodes'' : KeywordNodes} {word'' : ℕ → List Byte}
    (first : Grows nodes word nodes' word') (second : Grows nodes' word' nodes'' word'') :
    Grows nodes word nodes'' word'' where
  size := Nat.le_trans first.size second.size
  word s inside := by
    rw [second.word s (Nat.lt_of_lt_of_le inside first.size), first.word s inside]
  old s inside := by
    obtain ⟨failure, best⟩ := second.old s (Nat.lt_of_lt_of_le inside first.size)
    rw [failure, best]
    exact first.old s inside
  new s inside outside := by
    by_cases between : s < nodes'.size
    · obtain ⟨failure, best⟩ := second.old s between
      rw [failure, best]
      exact first.new s between outside
    · exact second.new s inside (by omega)

/-- A new leaf under a node that has no child for the byte. -/
def addLeaf (nodes : KeywordNodes) (s : ℕ) (label : Byte) : KeywordNodes :=
  { nodes with
    size := nodes.size + 1
    node := Function.update nodes.node nodes.size {} }.update s
      fun node => { node with edges := { target := nodes.size, label } :: node.edges }

theorem addLeaf_node {s : ℕ} (inside : s < nodes.size) (label : Byte) (t : ℕ) :
    (addLeaf nodes s label).node t =
      if t = s then
        { nodes.node s with edges := { target := nodes.size, label } :: (nodes.node s).edges }
      else if t = nodes.size then {} else nodes.node t := by
  unfold addLeaf KeywordNodes.update
  dsimp only
  by_cases self : t = s
  · subst self
    rw [Function.update_self, Function.update_of_ne (by omega), if_pos rfl]
  · rw [Function.update_of_ne self, if_neg self, Function.update_apply]

theorem addLeaf_edges {s t : ℕ} (inside : s < nodes.size) {label : Byte} :
    ((addLeaf nodes s label).node t).edges =
      if t = s then { target := nodes.size, label } :: (nodes.node s).edges
      else if t = nodes.size then [] else (nodes.node t).edges := by
  rw [addLeaf_node inside]
  split
  · rfl
  · split <;> rfl

theorem Spells.addLeaf (spells : Spells nodes word) {s : ℕ} (inside : s < nodes.size)
    {label : Byte} (absent : ∀ t < nodes.size, word t ≠ word s ++ [label]) :
    Spells (addLeaf nodes s label) (Function.update word nodes.size (word s ++ [label])) := by
  have size : (Moderation.addLeaf nodes s label).size = nodes.size + 1 := rfl
  have old : ∀ t < nodes.size,
      Function.update word nodes.size (word s ++ [label]) t = word t :=
    fun t inside' => Function.update_of_ne (by omega) _ _
  have new : Function.update word nodes.size (word s ++ [label]) nodes.size = word s ++ [label] :=
    Function.update_self _ _ _
  have split_ : ∀ t < nodes.size + 1, t < nodes.size ∨ t = nodes.size := fun t below => by omega
  constructor
  · rw [size]
    omega
  · rw [old 0 spells.pos]
    exact spells.root
  · intro t below u below' same
    rw [size] at below below'
    rcases split_ t below with t_ | rfl
    · rcases split_ u below' with u_ | rfl
      · rw [old t t_, old u u_] at same
        exact spells.inj t t_ u u_ same
      · rw [old t t_, new] at same
        exact absurd same (absent t t_)
    · rcases split_ u below' with u_ | rfl
      · rw [old u u_, new] at same
        exact absurd same.symm (absent u u_)
      · rfl
  · intro t below e mem
    rw [size] at below ⊢
    rw [addLeaf_edges inside] at mem
    split at mem
    · rename_i self
      subst self
      rw [old t inside]
      rcases List.mem_cons.mp mem with rfl | mem
      · exact ⟨Nat.lt_succ_self _, new⟩
      · obtain ⟨target, word_⟩ := spells.edge t inside e mem
        exact ⟨by omega, by rw [old _ target, word_]⟩
    · split at mem
      · cases mem
      · rename_i leaf
        have t_ : t < nodes.size := by omega
        obtain ⟨target, word_⟩ := spells.edge t t_ e mem
        rw [old t t_, old _ target]
        exact ⟨by omega, word_⟩
  · intro t below u below' label' same
    rw [size] at below below'
    rw [addLeaf_edges inside]
    rcases split_ t below with t_ | rfl
    · rw [old t t_] at same
      rcases split_ u below' with u_ | rfl
      · rw [old u u_] at same
        have mem := spells.child t t_ u u_ label' same
        split
        · rename_i self
          subst self
          exact List.mem_cons_of_mem _ mem
        · rw [if_neg (by omega)]
          exact mem
      · rw [new] at same
        obtain ⟨word_, rfl⟩ := List.append_inj' same rfl |>.imp id List.singleton_inj.mp
        rw [if_pos (spells.inj s inside t t_ word_).symm]
        exact List.mem_cons_self ..
    · -- The leaf is new, so no word continues its own.
      exfalso
      rw [new] at same
      rcases split_ u below' with u_ | rfl
      · rw [old u u_] at same
        have nonroot : u ≠ 0 := by
          rintro rfl
          rw [spells.root] at same
          simp at same
        obtain ⟨p, p_, label'', word_⟩ := spells.parent u u_ nonroot
        rw [word_] at same
        exact absent p p_ (List.append_inj' same rfl).1
      · rw [new] at same
        simpa using congrArg List.length same
  · intro t below
    rw [size] at below
    rw [addLeaf_edges inside]
    split
    · rw [List.map_cons, List.nodup_cons]
      refine ⟨?_, spells.labels s inside⟩
      intro mem
      obtain ⟨e, known, label_⟩ := List.mem_map.mp mem
      obtain ⟨target, word_⟩ := spells.edge s inside e known
      exact absent e.target target (by rw [word_, label_])
    · split
      · exact List.nodup_nil
      · exact spells.labels t (by omega)
  · intro t below nonroot
    rw [size] at below ⊢
    rcases split_ t below with t_ | rfl
    · obtain ⟨p, p_, label', word_⟩ := spells.parent t t_ nonroot
      exact ⟨p, by omega, label', by rw [old t t_, old p p_, word_]⟩
    · exact ⟨s, by omega, label, by rw [new, old s inside]⟩

theorem addLeaf_grows {s : ℕ} (inside : s < nodes.size) (label : Byte) :
    Grows nodes word (addLeaf nodes s label)
      (Function.update word nodes.size (word s ++ [label])) where
  size := Nat.le_succ _
  word t inside' := Function.update_of_ne (by omega) _ _
  old t inside' := by
    rw [addLeaf_node inside]
    by_cases self : t = s
    · subst self
      rw [if_pos rfl]
      exact ⟨rfl, rfl⟩
    · rw [if_neg self, if_neg (by omega)]
      exact ⟨rfl, rfl⟩
  new t below outside := by
    have below : t < nodes.size + 1 := below
    rw [addLeaf_node inside, if_neg (by omega), if_pos (by omega)]
    exact ⟨rfl, rfl⟩

/-- One byte leads to the node of the longer word. -/
theorem insertLabel_spec (spells : Spells nodes word) {s : ℕ} (inside : s < nodes.size)
    (label : Byte) :
    ∃ word', Spells (insertLabel (nodes, s) label).1 word' ∧
      Grows nodes word (insertLabel (nodes, s) label).1 word' ∧
      (insertLabel (nodes, s) label).2 < (insertLabel (nodes, s) label).1.size ∧
      word' (insertLabel (nodes, s) label).2 = word s ++ [label] := by
  unfold insertLabel
  dsimp only
  cases found : nodes.transition s label with
  | some t =>
      obtain ⟨inside', word_⟩ := (spells.transition_iff inside).mp found
      exact ⟨word, spells, .refl nodes word, inside', word_⟩
  | none =>
      have absent : ∀ t < nodes.size, word t ≠ word s ++ [label] := by
        intro t inside' word_
        rw [(spells.transition_iff inside).mpr ⟨inside', word_⟩] at found
        cases found
      exact ⟨_, spells.addLeaf inside absent, addLeaf_grows inside label, Nat.lt_succ_self _,
        Function.update_self _ _ _⟩

theorem insertLabels_spec (spells : Spells nodes word) {s : ℕ} (inside : s < nodes.size)
    (labels : List Byte) :
    ∃ word', Spells (labels.foldl insertLabel (nodes, s)).1 word' ∧
      Grows nodes word (labels.foldl insertLabel (nodes, s)).1 word' ∧
      (labels.foldl insertLabel (nodes, s)).2 < (labels.foldl insertLabel (nodes, s)).1.size ∧
      word' (labels.foldl insertLabel (nodes, s)).2 = word s ++ labels := by
  induction labels generalizing nodes word s with
  | nil => exact ⟨word, spells, .refl nodes word, inside, by simp⟩
  | cons label rest ih =>
      obtain ⟨word₁, spells₁, grows₁, inside₁, word_₁⟩ := insertLabel_spec spells inside label
      obtain ⟨word₂, spells₂, grows₂, inside₂, word_₂⟩ := ih spells₁ inside₁
      refine ⟨word₂, spells₂, grows₁.trans grows₂, inside₂, ?_⟩
      rw [List.foldl_cons, word_₂, word_₁, List.append_assoc]
      rfl

/-! ### Keywords at nodes -/

section Lower

variable (toLower : List Byte → List Byte)

/-- A word is a keyword of the list in lower case; empty keywords are left out. -/
def IsKeyword (keywords : List (List Byte)) (i : ℕ) (w : List Byte) : Prop :=
  ∃ keyword, keywords[i]? = some keyword ∧ keyword ≠ [] ∧ toLower keyword = w

/-- The tree after some keywords: each has its node, and a node has its first keyword. -/
structure Holds (keywords : List (List Byte)) (nodes : KeywordNodes) (word : ℕ → List Byte) :
    Prop where
  spells : Spells nodes word
  failure : ∀ s < nodes.size, (nodes.node s).failure = 0
  reached : ∀ i w, IsKeyword toLower keywords i w → ∃ s < nodes.size, word s = w
  marked : ∀ s < nodes.size,
    Least (fun i => IsKeyword toLower keywords i (word s)) (nodes.node s).bestKeyword

variable {toLower} {keywords : List (List Byte)}

theorem isKeyword_concat {keyword w : List Byte} {i : ℕ} :
    IsKeyword toLower (keywords ++ [keyword]) i w ↔ IsKeyword toLower keywords i w ∨
      (i = keywords.length ∧ keyword ≠ [] ∧ toLower keyword = w) := by
  unfold IsKeyword
  rcases Nat.lt_trichotomy i keywords.length with before | rfl | after
  · rw [List.getElem?_append_left before]
    have other : i ≠ keywords.length := by omega
    simp [other]
  · have none_ : keywords[keywords.length]? = none := by simp
    rw [none_]
    simp
  · have none_ : keywords[i]? = none := by
      rw [List.getElem?_eq_none_iff]
      omega
    have none' : (keywords ++ [keyword])[i]? = none := by
      rw [List.getElem?_eq_none_iff, List.length_append, List.length_singleton]
      omega
    have other : i ≠ keywords.length := by omega
    rw [none_, none']
    simp [other]

theorem holds_nil : Holds toLower [] {} fun _ => [] where
  spells := by
    constructor
    · exact Nat.one_pos
    · rfl
    · intro s s_ t t_ _
      have : s < 1 := s_
      have : t < 1 := t_
      omega
    · intro s _ e mem
      cases mem
    · intro s _ t _ label same
      simp at same
    · intro s _
      exact List.nodup_nil
    · intro t t_ nonroot
      have : t < 1 := t_
      omega
  failure _ _ := rfl
  reached i w known := by
    obtain ⟨keyword, there, -⟩ := known
    simp at there
  marked s _ i known := by
    obtain ⟨keyword, there, -⟩ := known
    simp at there

/-- An empty keyword changes nothing. -/
theorem Holds.skip (holds : Holds toLower keywords nodes word) :
    Holds toLower (keywords ++ [[]]) nodes word where
  spells := holds.spells
  failure := holds.failure
  reached i w known := by
    rw [isKeyword_concat] at known
    exact holds.reached i w (known.resolve_right fun new => new.2.1 rfl)
  marked s inside := by
    refine (holds.marked s inside).congr fun i => ?_
    rw [isKeyword_concat]
    simp

/-- Marking a node with a later keyword keeps what is there. -/
def mark (nodes : KeywordNodes) (state keywordIndex : ℕ) : KeywordNodes :=
  nodes.update state fun node =>
    { node with bestKeyword := minKeywordIndex node.bestKeyword (some keywordIndex) }

theorem Holds.insert (holds : Holds toLower keywords nodes word) {keyword : List Byte}
    (nonempty : keyword ≠ []) {grown : KeywordNodes} {word' : ℕ → List Byte}
    (spells : Spells grown word') (grows : Grows nodes word grown word') {s : ℕ}
    (inside : s < grown.size) (word_ : word' s = toLower keyword) :
    Holds toLower (keywords ++ [keyword]) (mark grown s keywords.length) word' := by
  have node_ : ∀ t, (mark grown s keywords.length).node t =
      if t = s then { grown.node s with
        bestKeyword := minKeywordIndex (grown.node s).bestKeyword (some keywords.length) }
      else grown.node t := by
    intro t
    unfold mark KeywordNodes.update
    exact Function.update_apply ..
  -- The marks of the grown tree, for the keywords before.
  have marked : ∀ t < grown.size,
      Least (fun i => IsKeyword toLower keywords i (word' t)) (grown.node t).bestKeyword := by
    intro t t_
    by_cases old : t < nodes.size
    · rw [(grows.old t old).2, grows.word t old]
      exact holds.marked t old
    · rw [(grows.new t t_ (by omega)).2]
      intro i known
      obtain ⟨u, u_, same⟩ := holds.reached i _ known
      rw [← grows.word u u_] at same
      have := spells.inj u (Nat.lt_of_lt_of_le u_ grows.size) t t_ same
      omega
  have size : (mark grown s keywords.length).size = grown.size := rfl
  constructor
  · apply spells.congr size
    intro t
    rw [node_]
    split
    · rename_i self
      rw [self]
    · rfl
  · intro t t_
    have failure : (grown.node t).failure = 0 := by
      by_cases old : t < nodes.size
      · rw [(grows.old t old).1]
        exact holds.failure t old
      · exact (grows.new t t_ (by omega)).1
    rw [node_]
    split
    · rename_i self
      exact self ▸ failure
    · exact failure
  · intro i w known
    rw [isKeyword_concat] at known
    rcases known with before | ⟨-, -, rfl⟩
    · obtain ⟨u, u_, same⟩ := holds.reached i w before
      exact ⟨u, Nat.lt_of_lt_of_le u_ grows.size, by rw [grows.word u u_, same]⟩
    · exact ⟨s, inside, word_⟩
  · intro t t_
    rw [node_]
    by_cases self : t = s
    · subst self
      rw [if_pos rfl]
      have last : Least (fun i => i = keywords.length) (some keywords.length) :=
        ⟨rfl, fun j same => Nat.le_of_eq same.symm⟩
      refine ((marked t t_).min last).congr fun i => ?_
      rw [isKeyword_concat, word_]
      simp [nonempty]
    · rw [if_neg self]
      refine (marked t t_).congr fun i => ?_
      rw [isKeyword_concat]
      have other : toLower keyword ≠ word' t := by
        intro same
        exact self (spells.inj t t_ s inside (by rw [word_, same]))
      simp [other]

theorem update_congr {s : ℕ} {change change' : KeywordNode → KeywordNode}
    (same : change (nodes.node s) = change' (nodes.node s)) :
    nodes.update s change = nodes.update s change' := by
  unfold KeywordNodes.update
  rw [same]

theorem update_same {s : ℕ} {change : KeywordNode → KeywordNode}
    (same : change (nodes.node s) = nodes.node s) : nodes.update s change = nodes := by
  unfold KeywordNodes.update
  rw [same, Function.update_eq_self]

/-- Inserting a keyword is going to its node and marking it. -/
theorem insertKeyword_eq (nodes : KeywordNodes) {keyword : List Byte} (nonempty : keyword ≠ [])
    (keywordIndex : ℕ) :
    insertKeyword toLower nodes (keyword, keywordIndex) =
      mark ((toLower keyword).foldl insertLabel (nodes, 0)).1
        ((toLower keyword).foldl insertLabel (nodes, 0)).2 keywordIndex := by
  unfold insertKeyword mark
  dsimp only
  rw [if_neg nonempty]
  generalize (toLower keyword).foldl insertLabel (nodes, 0) = reached
  obtain ⟨nodes, state⟩ := reached
  dsimp only
  cases best : (nodes.node state).bestKeyword with
  | none =>
      apply update_congr
      rw [best]
      rfl
  | some current =>
      dsimp only
      split
      · rename_i earlier
        apply update_congr
        rw [best]
        simp [minKeywordIndex, Nat.lt_asymm earlier]
      · rename_i later
        have kept : minKeywordIndex (some current) (some keywordIndex) = some current := by
          change (if current < keywordIndex then some current else some keywordIndex) = _
          split
          · rfl
          · rw [Option.some.injEq]
            omega
        apply (update_same _).symm
        rw [best, kept, ← best]

theorem Holds.insertKeyword (holds : Holds toLower keywords nodes word) (keyword : List Byte) :
    ∃ word', Holds toLower (keywords ++ [keyword])
      (Moderation.insertKeyword toLower nodes (keyword, keywords.length)) word' := by
  by_cases blank : keyword = []
  · subst blank
    exact ⟨word, holds.skip⟩
  · obtain ⟨word', spells, grows, inside, word_⟩ :=
      insertLabels_spec holds.spells holds.spells.pos (toLower keyword)
    rw [holds.spells.root, List.nil_append] at word_
    rw [insertKeyword_eq nodes blank]
    exact ⟨word', holds.insert blank spells grows inside word_⟩

theorem Holds.insertKeywords (holds : Holds toLower keywords nodes word)
    (rest : List (List Byte)) :
    ∃ word', Holds toLower (keywords ++ rest)
      ((rest.zipIdx keywords.length).foldl (Moderation.insertKeyword toLower) nodes) word' := by
  induction rest generalizing keywords nodes word with
  | nil => exact ⟨word, by simpa using holds⟩
  | cons keyword rest ih =>
      obtain ⟨word₁, holds₁⟩ := holds.insertKeyword keyword
      obtain ⟨word₂, holds₂⟩ := ih holds₁
      refine ⟨word₂, ?_⟩
      rw [List.length_append, List.length_singleton, List.append_assoc] at holds₂
      exact holds₂

/-- The tree of all keywords. -/
theorem exists_holds (toLower : List Byte → List Byte) (keywords : List (List Byte)) :
    ∃ word, Holds toLower keywords
      (keywords.zipIdx.foldl (insertKeyword toLower) {}) word := by
  obtain ⟨word, holds⟩ := (@holds_nil toLower).insertKeywords keywords
  exact ⟨word, holds⟩

end Lower

end Sub2api.Moderation
