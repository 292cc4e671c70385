import Mathlib.Data.List.SplitBy
import Sub2api.ApiCompat.AnthropicPairing

/-!
# What becomes of broken turns

A replayed call whose arguments are no JSON leaves a message without content, a replayed call id
a second call of the same id. Merging covers a message without content when another one of its turn
shows something, and the pairing drops the calls that no result answers. What the request is left
with is read off the turns: a turn leaves messages that show something, one that shows nothing, or
no message at all.
-/

namespace Sub2api.ApiCompat.AnthropicRequest

open Go

/-! ### What a healed history is -/

/-- The calls in a message of either role. -/
def AnthropicMessage.toolUses (m : AnthropicMessage) : List RequestBlock :=
  m.blocks.filter fun b => b.type = .toolUse

/-- No content is empty, no call id is used twice, and the input of every call is an object. -/
structure Healed (messages : List AnthropicMessage) : Prop where
  filled : ∀ m ∈ messages, anthropicContentIsEmpty m.content = false
  once : ((messages.flatMap AnthropicMessage.toolUses).map fun b => b.id).Nodup
  objects : ∀ b ∈ messages.flatMap AnthropicMessage.toolUses, Json.isObject b.input = true

/-! ### What turns leave -/

/-- What a message shows: nothing, JSON without blocks, or blocks. -/
inductive Mark where
  | blank
  | blockless
  | full
  deriving DecidableEq

def AnthropicMessage.mark (m : AnthropicMessage) : Mark :=
  if anthropicContentIsEmpty m.content then .blank else if m.blocks = [] then .blockless else .full

/-- What messages in one show. -/
def joinMarks (marks : List Mark) : Mark :=
  if .full ∈ marks then .full else if marks = [.blockless] then .blockless else .blank

def sameRole (m next : AnthropicMessage) : Bool := m.role = next.role

/-- The messages of a role up to the next of the other. -/
def turns (messages : List AnthropicMessage) : List (List AnthropicMessage) :=
  messages.splitBy sameRole

variable (results : String → Option RequestBlock)

/-- The messages that a turn leaves, with what they show: a turn that shows blocks leaves none of
them when they are unanswered calls or results, and the results of its answered calls after it. -/
def leaves (turn : List AnthropicMessage) : List (MessageRole × Mark) :=
  match turn with
  | [] => []
  | m :: _ =>
    let shown := joinMarks (turn.map AnthropicMessage.mark)
    let answered := turn.flatMap (answeredCalls results)
    if shown ≠ .full then [(m.role, shown)]
    else if answered ≠ [] then [(.assistant, .full), (.user, .full)]
    else if turn.flatMap AnthropicMessage.others ≠ [] then [(m.role, .full)]
    else []

/-- Among what the turns leave, whatever shows nothing is next to something of its role that
does. -/
def Covered (messages : List AnthropicMessage) : Prop :=
  ∀ run ∈ ((turns messages).flatMap (leaves results)).splitBy fun a b => a.1 = b.1,
    joinMarks (run.map Prod.snd) ≠ .blank

/-- The calls that stay in the request: the answered ones of assistant messages, and those that a
user message has. -/
def usedCalls (m : AnthropicMessage) : List RequestBlock :=
  match m.role with
  | .assistant => answeredCalls results m
  | .user => m.toolUses

/-! ### Turns -/

/-- A turn in one message. -/
def joinTurn : List AnthropicMessage → AnthropicMessage
  | [] => { role := .user, content := .nothing }
  | m :: rest => rest.foldl AnthropicMessage.join m

theorem mergeAfter_turn {last : AnthropicMessage} {turn rest : List AnthropicMessage}
    (same : ∀ m ∈ turn, m.role = last.role) (apart : ∀ next ∈ rest.head?, next.role ≠ last.role) :
    mergeAfter last (turn ++ rest) =
      turn.foldl AnthropicMessage.join last :: mergeConsecutiveMessages rest := by
  induction turn generalizing last with
  | nil =>
    cases rest with
    | nil => rfl
    | cons next rest => exact mergeAfter_cons_of_ne rest (apart next rfl).symm
  | cons m turn ih =>
    have here : m.role = last.role := same m (by simp)
    rw [List.cons_append, mergeAfter_cons_of_eq _ here.symm]
    exact ih (fun n inside => same n (by simp [inside])) apart

variable {m : AnthropicMessage} {turn : List AnthropicMessage}

theorem chain_role (chain : (m :: turn).IsChain fun a b => sameRole a b) :
    ∀ n ∈ turn, n.role = m.role := by
  induction turn generalizing m with
  | nil => simp
  | cons next turn ih =>
    obtain ⟨here, later⟩ := List.isChain_cons_cons.mp chain
    have role : m.role = next.role := of_decide_eq_true here
    intro n member
    rcases List.mem_cons.mp member with rfl | inside
    · exact role.symm
    · exact (ih later n inside).trans role.symm

theorem merge_flatten {runs : List (List AnthropicMessage)} (some' : [] ∉ runs)
    (chain : ∀ run ∈ runs, run.IsChain fun a b => sameRole a b)
    (apart : runs.IsChain fun a b => ∃ ha hb, sameRole (a.getLast ha) (b.head hb) = false) :
    mergeConsecutiveMessages runs.flatten = runs.map joinTurn := by
  induction runs with
  | nil => rfl
  | cons run runs ih =>
    have later := ih (fun inside => some' (by simp [inside]))
      (fun r inside => chain r (by simp [inside])) apart.tail
    cases run with
    | nil => exact absurd (by simp) some'
    | cons m turn =>
      have same := chain_role (chain (m :: turn) (by simp))
      rw [List.flatten_cons, List.cons_append, mergeConsecutiveMessages, mergeAfter_turn same,
        later, List.map_cons, joinTurn]
      cases runs with
      | nil => simp
      | cons next runs =>
        obtain ⟨⟨nonempty, nonempty', differ⟩, _⟩ := List.isChain_cons_cons.mp apart
        have lastRole : ((m :: turn).getLast nonempty).role = m.role := by
          rcases List.mem_cons.mp (List.getLast_mem nonempty) with here | inside
          · rw [here]
          · exact same _ inside
        intro n first
        cases next with
        | nil => exact absurd rfl nonempty'
        | cons n' turn' =>
          cases Option.some.inj first
          have unlike := of_decide_eq_false differ
          rw [lastRole] at unlike
          exact fun equal => unlike equal.symm

/-- Merging puts each turn in one message. -/
theorem merge_turns (messages : List AnthropicMessage) :
    mergeConsecutiveMessages messages = (turns messages).map joinTurn := by
  have whole := merge_flatten (List.nil_notMem_splitBy sameRole messages)
    (fun run inside => List.isChain_of_mem_splitBy inside)
    (List.isChain_getLast_head_splitBy sameRole messages)
  rwa [List.flatten_splitBy] at whole

theorem splitBy_map {α β : Type} (f : α → β) (r : β → β → Bool) (l : List α) :
    (l.map f).splitBy r = (l.splitBy fun a b => r (f a) (f b)).map (List.map f) := by
  rw [List.splitBy_eq_iff]
  refine ⟨?_, ?_, ?_, ?_⟩
  · rw [← List.map_flatten, List.flatten_splitBy]
  · intro nil
    obtain ⟨run, inside, empty⟩ := List.mem_map.mp nil
    rw [List.map_eq_nil_iff.mp empty] at inside
    exact List.nil_notMem_splitBy _ _ inside
  · intro run inside
    obtain ⟨run', inside', rfl⟩ := List.mem_map.mp inside
    exact (List.isChain_map f).mpr (List.isChain_of_mem_splitBy inside')
  · rw [List.isChain_map]
    refine (List.isChain_getLast_head_splitBy (fun a b => r (f a) (f b)) l).imp ?_
    rintro a b ⟨ha, hb, apart⟩
    refine ⟨by simpa using ha, by simpa using hb, ?_⟩
    rw [List.getLast_map, List.head_map]
    exact apart

/-! ### Contents of joined turns -/

/-- A message with blocks has content. -/
def AnthropicMessage.Speaks (m : AnthropicMessage) : Prop :=
  m.blocks ≠ [] → anthropicContentIsEmpty m.content = false

theorem marshalBlocks_speaks (blocks : List RequestBlock) :
    parseContentBlocks (marshalBlocks blocks) ≠ [] →
      anthropicContentIsEmpty (marshalBlocks blocks) = false := by
  unfold marshalBlocks
  split
  · simp [parseContentBlocks]
  · next some' =>
    split
    · simp [anthropicContentIsEmpty, some']
    · simp [parseContentBlocks]

theorem fromBlocks_speaks (role : MessageRole) (blocks : List RequestBlock) :
    (anthropicMessageFromBlocks role blocks).Speaks :=
  marshalBlocks_speaks blocks

theorem ItemMessages.speaks {item : ResponsesInputItem} {messages : List AnthropicMessage}
    (added : ItemMessages item messages) : ∀ m ∈ messages, m.Speaks := by
  intro m member
  cases added with
  | silent => exact absurd member List.not_mem_nil
  | call _ =>
    cases List.mem_singleton.mp member
    exact fromBlocks_speaks _ _
  | output _ =>
    cases List.mem_singleton.mp member
    exact fromBlocks_speaks _ _
  | thinking envelope block _ _ =>
    cases List.mem_singleton.mp member
    exact fromBlocks_speaks _ _
  | assistant content _ kept _ =>
    cases List.mem_singleton.mp member
    exact fun _ => kept
  | user content _ kept =>
    cases List.mem_singleton.mp member
    exact fun _ => kept

theorem mark_full_iff (speaks : m.Speaks) :
    m.mark = .full ↔ m.blocks ≠ [] := by
  unfold AnthropicMessage.mark
  split
  · next empty =>
    constructor
    · exact fun contra => absurd contra (by decide)
    · intro some'
      exact absurd (speaks some') (by simp [empty])
  · split
    · next _ empty => simp [empty]
    · next _ some' => simp [some']

theorem mark_blank_iff :
    m.mark = .blank ↔ anthropicContentIsEmpty m.content = true := by
  unfold AnthropicMessage.mark
  split
  · next empty => simp [empty]
  · next kept =>
    split
    · simpa using kept
    · simpa using kept

/-- Blocks that are joined show something when there are any. -/
theorem mark_fromBlocks {role : MessageRole} {blocks : List RequestBlock}
    (marshal : ∀ b ∈ blocks, b.marshals = true) :
    (anthropicMessageFromBlocks role blocks).mark = if blocks = [] then .blank else .full := by
  split
  · next empty =>
    rw [empty]
    rfl
  · next some' =>
    rw [mark_full_iff (fromBlocks_speaks role blocks), fromBlocks_blocks marshal]
    exact some'

theorem joinTurn_blocks (marshal : ∀ n ∈ m :: turn, n.Marshals) :
    (turn.foldl AnthropicMessage.join m).blocks =
      (m :: turn).flatMap AnthropicMessage.blocks := by
  induction turn generalizing m with
  | nil => simp
  | cons next turn ih =>
    have later : ∀ n ∈ turn, n.Marshals := fun n inside => marshal n (by simp [inside])
    rw [List.foldl_cons, ih (List.forall_mem_cons.mpr ⟨.join, later⟩)]
    simp [AnthropicMessage.join_blocks (marshal m (by simp)) (marshal next (by simp))]

theorem joinTurn_role :
    (turn.foldl AnthropicMessage.join m).role = m.role := by
  induction turn generalizing m with
  | nil => rfl
  | cons next turn ih => exact ih

/-- Two messages or more leave the content of their blocks. -/
theorem joinTurn_fromBlocks {m next : AnthropicMessage}
    (marshal : ∀ n ∈ m :: next :: turn, n.Marshals) :
    joinTurn (m :: next :: turn) =
      anthropicMessageFromBlocks m.role
        ((m :: next :: turn).flatMap AnthropicMessage.blocks) := by
  induction turn generalizing m next with
  | nil => simp [joinTurn, AnthropicMessage.join, anthropicMessageFromBlocks]
  | cons third turn ih =>
    have later : ∀ n ∈ turn, n.Marshals := fun n inside => marshal n (by simp [inside])
    have joined := @ih (m.join next) third (List.forall_mem_cons.mpr
      ⟨.join, List.forall_mem_cons.mpr ⟨marshal third (by simp), later⟩⟩)
    have blocks := AnthropicMessage.join_blocks (marshal m (by simp)) (marshal next (by simp))
    have same : joinTurn (m :: next :: third :: turn) = joinTurn (m.join next :: third :: turn) :=
      rfl
    have role : (m.join next).role = m.role := rfl
    rw [same, joined, role]
    simp [blocks]

/-- What a turn in one message shows. -/
theorem mark_joinTurn (some' : turn ≠ []) (marshal : ∀ n ∈ turn, n.Marshals)
    (speaks : ∀ n ∈ turn, n.Speaks) :
    (joinTurn turn).mark = joinMarks (turn.map AnthropicMessage.mark) := by
  cases turn with
  | nil => exact absurd rfl some'
  | cons m turn =>
    cases turn with
    | nil =>
      have alone : joinTurn [m] = m := rfl
      rw [alone, List.map_singleton]
      cases m.mark <;> rfl
    | cons next turn =>
      have all : ∀ b ∈ (m :: next :: turn).flatMap AnthropicMessage.blocks,
          b.marshals = true := by
        intro b member
        obtain ⟨n, inside, here⟩ := List.mem_flatMap.mp member
        exact marshal n inside b here
      have full : .full ∈ (m :: next :: turn).map AnthropicMessage.mark ↔
          (m :: next :: turn).flatMap AnthropicMessage.blocks ≠ [] := by
        rw [List.mem_map, ne_eq, List.flatMap_eq_nil_iff]
        push Not
        exact ⟨fun ⟨n, inside, shown⟩ => ⟨n, inside, (mark_full_iff (speaks n inside)).mp shown⟩,
          fun ⟨n, inside, shown⟩ => ⟨n, inside, (mark_full_iff (speaks n inside)).mpr shown⟩⟩
      rw [joinTurn_fromBlocks marshal, mark_fromBlocks all, joinMarks]
      by_cases empty : (m :: next :: turn).flatMap AnthropicMessage.blocks = []
      · rw [if_pos empty, if_neg fun shown => full.mp shown empty, if_neg (by simp)]
      · rw [if_neg empty, if_pos (full.mpr empty)]

theorem joinTurn_speaks (marshal : ∀ n ∈ turn, n.Marshals) (speaks : ∀ n ∈ turn, n.Speaks) :
    (joinTurn turn).Speaks := by
  cases turn with
  | nil => exact fun some' => absurd rfl some'
  | cons m turn =>
    cases turn with
    | nil => exact speaks m (by simp)
    | cons next turn =>
      rw [joinTurn_fromBlocks marshal]
      exact fromBlocks_speaks _ _

/-- What is read off a turn in one message. -/
theorem Additive.joinTurn {α : Type} {f : AnthropicMessage → List α} (additive : Additive f)
    (marshal : ∀ n ∈ m :: turn, n.Marshals) (same : ∀ n ∈ turn, n.role = m.role) :
    f (AnthropicRequest.joinTurn (m :: turn)) = (m :: turn).flatMap f := by
  have merged := additive.mergeAfter marshal
  have one := @mergeAfter_turn m turn [] same (by simp)
  rw [List.append_nil] at one
  have start : AnthropicRequest.joinTurn (m :: turn) = turn.foldl AnthropicMessage.join m := rfl
  rw [one] at merged
  rw [start]
  simpa [mergeConsecutiveMessages] using merged

/-! ### What the pairing leaves -/

variable {results}

theorem Additive.answeredCalls : Additive (answeredCalls results) := by
  intro m next marshal marshal' same
  have role : (m.join next).role = m.role := rfl
  unfold AnthropicRequest.answeredCalls
  rw [role, AnthropicMessage.join_blocks marshal marshal', ← same]
  cases m.role <;> simp

theorem Additive.toolUses : Additive AnthropicMessage.toolUses := by
  intro m next marshal marshal' _
  unfold AnthropicMessage.toolUses
  rw [AnthropicMessage.join_blocks marshal marshal', List.filter_append]

theorem Additive.usedCalls : Additive (usedCalls results) := by
  intro m next marshal marshal' same
  have role : (m.join next).role = m.role := rfl
  have answered := (@Additive.answeredCalls results) m next marshal marshal' same
  have used := Additive.toolUses m next marshal marshal' same
  unfold AnthropicRequest.usedCalls
  rw [role, answered, used, ← same]
  cases m.role <;> rfl

/-- The messages that the pairing makes of one, with what they show. -/
def marks (messages : List AnthropicMessage) : List (MessageRole × Mark) :=
  messages.map fun m => (m.role, m.mark)

theorem mark_ne_full (speaks : m.Speaks) (shown : m.mark ≠ .full) :
    m.blocks = [] := by
  by_contra some'
  exact shown ((mark_full_iff speaks).mpr some')

/-- A message without blocks has none of any kind. -/
theorem blockless (empty : m.blocks = []) :
    m.calls = [] ∧ m.answers = [] ∧ m.others = [] ∧ answeredCalls results m = [] := by
  unfold AnthropicMessage.calls AnthropicMessage.answers AnthropicMessage.others answeredCalls
  rw [empty]
  cases m.role <;> simp

/-- The blocks of a message without calls and results are its others. -/
theorem others_of_plain (callless : m.calls = []) (answerless : m.answers = []) :
    m.others = m.blocks := by
  unfold AnthropicMessage.others
  cases role : m.role with
  | assistant =>
    simp only [AnthropicMessage.calls, role, List.map_eq_nil_iff] at callless
    apply List.filter_eq_self.mpr
    simpa [List.filter_eq_nil_iff] using callless
  | user =>
    simp only [AnthropicMessage.answers, role, List.map_eq_nil_iff] at answerless
    apply List.filter_eq_self.mpr
    simpa [List.filter_eq_nil_iff] using answerless

theorem answeredCalls_of_callless (callless : m.calls = []) :
    answeredCalls results m = [] := by
  apply List.eq_nil_iff_forall_not_mem.mpr
  intro b member
  obtain ⟨inside, isCall⟩ := answeredCalls_subset b member
  have isAssistant : m.role = .assistant := by
    by_contra isUser
    cases role : m.role with
    | assistant => exact isUser role
    | user => simp [answeredCalls, role] at member
  have called : b.id ∈ m.calls :=
    AnthropicMessage.mem_calls.mpr ⟨isAssistant, b, inside, isCall, rfl⟩
  rw [callless] at called
  exact absurd called List.not_mem_nil

/-- What a turn leaves, by the message it is merged into. -/
def leavesOne (results : String → Option RequestBlock) (m : AnthropicMessage) :
    List (MessageRole × Mark) :=
  if m.mark ≠ .full then [(m.role, m.mark)]
  else if answeredCalls results m ≠ [] then [(.assistant, .full), (.user, .full)]
  else if m.others ≠ [] then [(m.role, .full)]
  else []

theorem marks_pairs (index : Indexes results) (marshal : m.Marshals) (speaks : m.Speaks)
    {paired : List AnthropicMessage} (pairs : Pairs results m paired) :
    marks paired = leavesOne results m := by
  have full (some' : m.calls ≠ [] ∨ m.answers ≠ []) : m.mark = .full := by
    by_contra shown
    have none' := @blockless results m (mark_ne_full speaks shown)
    exact some'.elim (fun called => called none'.1) fun answered => answered none'.2.1
  cases pairs with
  | kept callless answerless =>
    have unanswered := @answeredCalls_of_callless results m callless
    unfold leavesOne
    by_cases shown : m.mark = .full
    · have some' : m.others ≠ [] := by
        rw [others_of_plain callless answerless]
        exact (mark_full_iff speaks).mp shown
      rw [if_neg (not_not_intro shown), if_neg (not_not_intro unanswered), if_pos some']
      simp [marks, shown]
    · rw [if_pos shown]
      rfl
  | vanished some' empty unanswered =>
    rw [leavesOne, if_neg (not_not_intro (full some')), if_neg (not_not_intro unanswered),
      if_neg (not_not_intro empty)]
    rfl
  | others some' staying unanswered =>
    have shown := @mark_fromBlocks m.role _ (others_marshal marshal)
    rw [if_neg staying] at shown
    rw [leavesOne, if_neg (not_not_intro (full some')), if_neg (not_not_intro unanswered),
      if_pos staying]
    simp only [marks, List.map_cons, List.map_nil, shown]
    rfl
  | answered isAssistant answered =>
    obtain ⟨asked, replied, _⟩ := answered_blocks index marshal isAssistant rfl rfl
    have whole : m.mark = .full := by
      by_contra shown
      exact answered (@blockless results m (mark_ne_full speaks shown)).2.2.2
    have first : (anthropicMessageFromBlocks .assistant
        (m.others ++ answeredCalls results m)).mark = .full := by
      rw [mark_full_iff (fromBlocks_speaks _ _), asked]
      simp [answered]
    have second : (anthropicMessageFromBlocks .user
        ((answeredCalls results m).filterMap fun b => results b.id)).mark = .full := by
      rw [mark_full_iff (fromBlocks_speaks _ _), replied]
      intro nil
      apply answered
      have none' := congrArg List.length
        (@filterMap_results results index (answeredCalls results m) answeredCalls_isSome)
      rw [nil] at none'
      simpa using none'.symm
    rw [leavesOne, if_neg (not_not_intro whole), if_pos answered]
    simp only [marks, List.map_cons, List.map_nil, first, second]
    rfl

theorem leaves_joinTurn (marshal : ∀ n ∈ m :: turn, n.Marshals) (speaks : ∀ n ∈ m :: turn, n.Speaks)
    (same : ∀ n ∈ turn, n.role = m.role) :
    leavesOne results (joinTurn (m :: turn)) = leaves results (m :: turn) := by
  have role : (joinTurn (m :: turn)).role = m.role := joinTurn_role
  rw [leavesOne, leaves, mark_joinTurn (by simp) marshal speaks,
    Additive.answeredCalls.joinTurn marshal same, Additive.others.joinTurn marshal same, role]

/-- The results that a user message adds to the index. -/
def AnthropicMessage.indexed (m : AnthropicMessage) : List RequestBlock :=
  if m.role = .user then m.blocks.filter fun b => b.type = .toolResult ∧ b.toolUseID ≠ "" else []

theorem Additive.indexed : Additive AnthropicMessage.indexed := by
  intro m next marshal marshal' same
  have role : (m.join next).role = m.role := rfl
  unfold AnthropicMessage.indexed
  rw [role, AnthropicMessage.join_blocks marshal marshal', ← same]
  split
  · exact List.filter_append ..
  · rfl

theorem indexedResults_eq (messages : List AnthropicMessage) :
    indexedResults messages = (messages.flatMap AnthropicMessage.indexed).reverse := by
  unfold indexedResults
  congr 1
  induction messages with
  | nil => rfl
  | cons m rest ih =>
    rw [List.flatMap_cons, ← ih, List.filter_cons]
    by_cases isUser : m.role = .user
    · simp [AnthropicMessage.indexed, isUser]
    · simp [AnthropicMessage.indexed, isUser]

/-- Merging keeps the index of results. -/
theorem resultFor_merge {messages : List AnthropicMessage} (marshal : ∀ m ∈ messages, m.Marshals) :
    resultFor (mergeConsecutiveMessages messages) = resultFor messages := by
  funext id
  unfold resultFor
  rw [indexedResults_eq, indexedResults_eq, Additive.indexed.merge marshal]

theorem pairs_speaks (speaks : m.Speaks) {paired : List AnthropicMessage}
    (pairs : Pairs results m paired) : ∀ n ∈ paired, n.Speaks := by
  intro n member
  cases pairs with
  | kept _ _ =>
    cases List.mem_singleton.mp member
    exact speaks
  | vanished _ _ _ => exact absurd member List.not_mem_nil
  | others _ _ _ =>
    cases List.mem_singleton.mp member
    exact fromBlocks_speaks _ _
  | answered _ _ =>
    rcases List.mem_pair.mp member with rfl | rfl
    · exact fromBlocks_speaks _ _
    · exact fromBlocks_speaks _ _

/-- The calls that the pairing leaves of a message. -/
theorem pairs_toolUses (index : Indexes results) (marshal : m.Marshals)
    {paired : List AnthropicMessage} (pairs : Pairs results m paired) :
    paired.flatMap AnthropicMessage.toolUses = usedCalls results m := by
  have none' (isAssistant : m.role = .assistant) :
      m.others.filter (fun b => b.type = .toolUse) = [] := by
    simp [AnthropicMessage.others, isAssistant]
  have same (isUser : m.role = .user) :
      m.others.filter (fun b => b.type = .toolUse) = m.toolUses := by
    simp only [AnthropicMessage.others, isUser, AnthropicMessage.toolUses, List.filter_filter]
    apply List.filter_congr
    intro b _
    by_cases isCall : b.type = .toolUse
    · simp [isCall]
    · simp [isCall]
  cases pairs with
  | kept callless answerless =>
    have whole := others_of_plain callless answerless
    cases role : m.role with
    | assistant =>
      have empty := none' role
      rw [whole] at empty
      simpa [usedCalls, role, @answeredCalls_of_callless results m callless,
        AnthropicMessage.toolUses] using empty
    | user => simp [usedCalls, role]
  | vanished _ empty unanswered =>
    cases role : m.role with
    | assistant => simp [usedCalls, role, unanswered]
    | user => simp [usedCalls, role, ← same role, empty]
  | others _ _ unanswered =>
    have blocks := @fromBlocks_blocks m.role _ (others_marshal marshal)
    have left : [anthropicMessageFromBlocks m.role m.others].flatMap AnthropicMessage.toolUses =
        m.others.filter fun b => b.type = .toolUse := by
      simp [AnthropicMessage.toolUses, blocks]
    rw [left]
    cases role : m.role with
    | assistant => simp [usedCalls, role, unanswered, none' role]
    | user => simp [usedCalls, role, same role]
  | answered isAssistant _ =>
    obtain ⟨asked, replied, _⟩ := answered_blocks index marshal isAssistant rfl rfl
    have onlyCalls : ∀ b ∈ answeredCalls results m, b.type = .toolUse :=
      fun b member => (answeredCalls_subset b member).2
    have onlyResults : ∀ r ∈ (answeredCalls results m).filterMap (fun b => results b.id),
        r.type ≠ .toolUse := by
      intro r member isCall
      have isResult := (mem_filterMap_results index r member).1
      rw [isCall] at isResult
      exact absurd isResult (by decide)
    have first : (anthropicMessageFromBlocks .assistant
        (m.others ++ answeredCalls results m)).toolUses = answeredCalls results m := by
      rw [AnthropicMessage.toolUses, asked, List.filter_append, none' isAssistant,
        List.nil_append, List.filter_eq_self.mpr (by simpa using onlyCalls)]
    have second : (anthropicMessageFromBlocks .user
        ((answeredCalls results m).filterMap fun b => results b.id)).toolUses = [] := by
      rw [AnthropicMessage.toolUses, replied]
      exact List.filter_eq_nil_iff.mpr (by simpa using onlyResults)
    simp [first, second, usedCalls, isAssistant]

/-! ### The messages of a request -/

section Normalize

variable {messages : List AnthropicMessage} (marshal : ∀ m ∈ messages, m.Marshals)
  (speaks : ∀ m ∈ messages, m.Speaks)

include marshal

/-- The calls of the normalized messages. -/
theorem normalizeMessages_toolUses :
    (normalizeMessages messages).flatMap AnthropicMessage.toolUses =
      messages.flatMap (usedCalls (resultFor messages)) := by
  have grouped := merge_marshals marshal
  have index := resultFor_indexes marshal
  have paired : ∀ m ∈ mergeConsecutiveMessages messages,
      (pairMessage (resultFor messages) m).flatMap AnthropicMessage.toolUses =
        usedCalls (resultFor messages) m :=
    fun m inside => pairs_toolUses index (grouped m inside) pairMessage_pairs
  rw [normalizeMessages, Additive.toolUses.merge (pairing_marshals grouped),
    normalizeAnthropicToolPairing, resultFor_merge marshal, List.flatMap_assoc,
    List.flatMap_congr paired, Additive.usedCalls.merge marshal]

include speaks

theorem mem_turns {turn : List AnthropicMessage} (inside : turn ∈ turns messages) :
    (∀ m ∈ turn, m.Marshals) ∧ ∀ m ∈ turn, m.Speaks := by
  have all : ∀ m ∈ turn, m ∈ messages := by
    intro m member
    rw [← List.flatten_splitBy sameRole messages]
    exact List.mem_flatten.mpr ⟨turn, inside, member⟩
  exact ⟨fun m member => marshal m (all m member), fun m member => speaks m (all m member)⟩

theorem merge_speaks : ∀ m ∈ mergeConsecutiveMessages messages, m.Speaks := by
  intro m member
  rw [merge_turns] at member
  obtain ⟨turn, inside, rfl⟩ := List.mem_map.mp member
  obtain ⟨marshals, speak⟩ := mem_turns marshal speaks inside
  exact joinTurn_speaks marshals speak

/-- Merged messages are without an empty one when no run of one role shows nothing. -/
theorem merge_filled :
    (∀ m ∈ mergeConsecutiveMessages messages, anthropicContentIsEmpty m.content = false) ↔
      ∀ run ∈ (marks messages).splitBy (fun a b => a.1 = b.1),
        joinMarks (run.map Prod.snd) ≠ .blank := by
  have shown : ∀ turn ∈ turns messages,
      (anthropicContentIsEmpty (joinTurn turn).content = false ↔
        joinMarks (turn.map AnthropicMessage.mark) ≠ .blank) := by
    intro turn inside
    obtain ⟨marshals, speak⟩ := mem_turns marshal speaks inside
    rw [← mark_joinTurn (List.ne_nil_of_mem_splitBy inside) marshals speak, ne_eq, mark_blank_iff,
      Bool.not_eq_true]
  rw [merge_turns, marks, splitBy_map]
  simp only [List.forall_mem_map, List.map_map]
  exact forall₂_congr shown

/-- What the pairing leaves shows what the turns leave. -/
theorem marks_pairing :
    marks (normalizeAnthropicToolPairing (mergeConsecutiveMessages messages)) =
      (turns messages).flatMap (leaves (resultFor messages)) := by
  have grouped := merge_marshals marshal
  have index := resultFor_indexes marshal
  have each : ∀ m ∈ mergeConsecutiveMessages messages,
      marks (pairMessage (resultFor messages) m) = leavesOne (resultFor messages) m :=
    fun m inside => marks_pairs index (grouped m inside) (merge_speaks marshal speaks m inside)
      pairMessage_pairs
  have turn : ∀ turn ∈ turns messages,
      leavesOne (resultFor messages) (joinTurn turn) = leaves (resultFor messages) turn := by
    intro turn inside
    obtain ⟨marshals, speak⟩ := mem_turns marshal speaks inside
    cases turn with
    | nil => exact absurd rfl (List.ne_nil_of_mem_splitBy inside)
    | cons m turn =>
      exact leaves_joinTurn marshals speak (chain_role (List.isChain_of_mem_splitBy inside))
  rw [normalizeAnthropicToolPairing, resultFor_merge marshal, marks, List.map_flatMap]
  refine (List.flatMap_congr each).trans ?_
  rw [merge_turns, List.flatMap_map]
  exact List.flatMap_congr turn

/-- The normalized messages are without an empty one when what the turns leave is covered. -/
theorem normalizeMessages_filled :
    (∀ m ∈ normalizeMessages messages, anthropicContentIsEmpty m.content = false) ↔
      Covered (resultFor messages) messages := by
  have grouped := merge_marshals marshal
  have speak : ∀ n ∈ normalizeAnthropicToolPairing (mergeConsecutiveMessages messages),
      n.Speaks := by
    intro n member
    obtain ⟨m, inside, paired⟩ := List.mem_flatMap.mp member
    exact pairs_speaks (merge_speaks marshal speaks m inside) pairMessage_pairs n paired
  rw [normalizeMessages, merge_filled (pairing_marshals grouped) speak,
    marks_pairing marshal speaks]
  rfl

end Normalize

/-- The envelope of an item whose thinking is preserved can be opened. -/
def EnvelopeOpens (preserve : Bool) (item : ResponsesInputItem) : Prop :=
  item.role ≠ .system → item.role ≠ .developer → item.type = .reasoning → preserve = true →
    ∀ envelope ∈ cutPrefix item.encryptedContent anthropicThinkingEnvelopePrefix,
      ∃ block, openEnvelope envelope = .ok block

theorem convertItem_ok_iff {preserve : Bool} {item : ResponsesInputItem} :
    (∃ converted, convertItem preserve item = .ok converted) ↔ EnvelopeOpens preserve item := by
  unfold convertItem EnvelopeOpens
  split
  · next isSystem =>
    exact ⟨fun _ unlike unlike' => (isSystem.elim unlike unlike').elim, fun _ => ⟨_, rfl⟩⟩
  next notSystem =>
  have unlike := not_or.mp notSystem
  split
  · next isCall => simp [isCall]
  split
  · next isOutput => simp [isOutput]
  split
  · next isReasoning =>
    cases cut : cutPrefix item.encryptedContent anthropicThinkingEnvelopePrefix with
    | none => simp
    | some envelope =>
      cases preserve with
      | false => simp
      | true =>
        simp only [if_true, Option.mem_some_iff]
        constructor
        · rintro ⟨converted, done⟩ _ _ _ _ _ rfl
          cases opened : openEnvelope envelope with
          | ok block => exact ⟨block, rfl⟩
          | error failure => simp [opened, bind, Except.bind] at done
        · intro opens
          obtain ⟨block, opened⟩ := opens unlike.1 unlike.2 isReasoning trivial envelope rfl
          rw [opened]
          exact ⟨_, rfl⟩
  · next other =>
    refine ⟨fun _ _ _ isReasoning => absurd isReasoning other, fun _ => ?_⟩
    cases item.role with
    | assistant =>
      simp only
      split
      · exact ⟨_, rfl⟩
      · exact ⟨_, rfl⟩
    | system | developer | user | other name => exact ⟨_, rfl⟩

/-- The messages that an item stands for. -/
def itemMessages (preserve : Bool) (item : ResponsesInputItem) : List AnthropicMessage :=
  match convertItem preserve item with
  | .ok converted => converted.messages
  | .error _ => []

/-- The messages of a history, one after the other. -/
def said (preserve : Bool) (items : List ResponsesInputItem) : List AnthropicMessage :=
  items.flatMap (itemMessages preserve)

/-- The calls of a history that stay in its request. -/
def staying (preserve : Bool) (items : List ResponsesInputItem) : List RequestBlock :=
  (said preserve items).flatMap (usedCalls (resultFor (said preserve items)))

/-- A history whose request is sound: every envelope opens, what the turns leave is covered, and
the calls that stay have ids of their own and objects for inputs. -/
structure Mendable (preserve : Bool) (items : List ResponsesInputItem) : Prop where
  envelopes : ∀ item ∈ items, EnvelopeOpens preserve item
  covered : Covered (resultFor (said preserve items)) (said preserve items)
  once : ((staying preserve items).map fun b => b.id).Nodup
  objects : ∀ b ∈ staying preserve items, Json.isObject b.input = true

theorem itemMessages_messages (preserve : Bool) (item : ResponsesInputItem) :
    ItemMessages item (itemMessages preserve item) := by
  unfold itemMessages
  split
  · next converted done => exact convertItem_messages done
  · exact .silent

theorem mapM_convertItem_ok {preserve : Bool} {items : List ResponsesInputItem} :
    (∃ converted, items.mapM (convertItem preserve) = .ok converted) ↔
      ∀ item ∈ items, EnvelopeOpens preserve item := by
  simp only [Lists.exists_mapM_ok, convertItem_ok_iff]

theorem mapM_convertItem_messages {preserve : Bool} {items : List ResponsesInputItem}
    {converted : List Converted} (done : items.mapM (convertItem preserve) = .ok converted) :
    converted.flatMap Converted.messages = said preserve items := by
  have each := Lists.mapM_ok.mp done
  clear done
  unfold said
  induction each with
  | nil => rfl
  | cons made _ ih =>
    rw [List.flatMap_cons, List.flatMap_cons, ih]
    simp [itemMessages, made]

/-- A history makes a sound request exactly when it is mendable. -/
theorem heals_iff (instructions : String) (items : List ResponsesInputItem) (preserve : Bool) :
    (∃ system messages,
      convertResponsesInputToAnthropic instructions (.items items) preserve =
        .ok (system, messages) ∧ Healed messages) ↔ Mendable preserve items := by
  have marshal : ∀ m ∈ said preserve items, m.Marshals := by
    intro m member
    obtain ⟨item, _, inside⟩ := List.mem_flatMap.mp member
    exact (itemMessages_messages preserve item).marshals m inside
  have speaks : ∀ m ∈ said preserve items, m.Speaks := by
    intro m member
    obtain ⟨item, _, inside⟩ := List.mem_flatMap.mp member
    exact (itemMessages_messages preserve item).speaks m inside
  have filled := normalizeMessages_filled marshal speaks
  have used : (normalizeMessages (said preserve items)).flatMap AnthropicMessage.toolUses =
      staying preserve items := normalizeMessages_toolUses marshal
  constructor
  · rintro ⟨system, messages, done, healed⟩
    obtain ⟨converted, each, rfl⟩ := convert_items done
    rw [mapM_convertItem_messages each] at healed
    exact
      { envelopes := mapM_convertItem_ok.mp ⟨converted, each⟩
        covered := filled.mp healed.filled
        once := used ▸ healed.once
        objects := used ▸ healed.objects }
  · rintro ⟨envelopes, covered, once, objects⟩
    obtain ⟨converted, each⟩ := mapM_convertItem_ok.mpr envelopes
    have done : convertResponsesInputToAnthropic instructions (.items items) preserve =
        .ok (joinSystem
          ((if trimSpace instructions = "" then [] else [trimSpace instructions]) ++
            converted.flatMap Converted.systemParts),
          normalizeMessages (said preserve items)) := by
      simp only [convertResponsesInputToAnthropic, each, bind, Except.bind, pure, Except.pure]
      rw [mapM_convertItem_messages each]
    exact ⟨_, _, done,
      { filled := filled.mpr covered
        once := used.symm ▸ once
        objects := used.symm ▸ objects }⟩

namespace HistorySample

/-- A call whose arguments were cut off, with nothing else of the assistant. -/
def truncated : List ResponsesInputItem :=
  [{ role := .user, content := .text "list it" },
    { type := .functionCall, callID := "call_1", name := "ls", arguments := "\x7b" },
    { type := .functionCallOutput, callID := "call_1", output := .text "aborted" },
    { role := .user, content := .text "go on" }]

end HistorySample

/-- A call whose arguments were cut off leaves a message without content. -/
theorem truncated_not_healed :
    ¬∃ system messages,
      convertResponsesInputToAnthropic "" (.items HistorySample.truncated) false =
        .ok (system, messages) ∧ Healed messages := by
  rintro ⟨system, messages, done, healed⟩
  have made : convertResponsesInputToAnthropic "" (.items HistorySample.truncated) false =
      .ok (none,
        [{ role := .user, content := .text "list it" },
          { role := .assistant, content := .nothing },
          { role := .user, content := .blocks [textBlock "go on"] }]) := by
    decide +kernel
  rw [made] at done
  cases done
  have filled := healed.filled { role := .assistant, content := .nothing } (by simp)
  exact absurd filled (by decide)

end Sub2api.ApiCompat.AnthropicRequest
