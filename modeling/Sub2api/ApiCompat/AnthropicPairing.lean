import Mathlib.Data.List.Chain
import Sub2api.ApiCompat.AnthropicRequest
import Sub2api.Lists.Fallible

/-!
# Calls and results of an Anthropic history

A list of messages is `Linked` after open calls when what a user message answers are the calls of
the message before it. The pairing makes the messages linked whatever they were, and merging keeps
them linked, so the messages of a request alternate, answer every call at once and answer nothing
else. The blocks that are no calls or results stay, in their order.
-/

namespace Sub2api.ApiCompat.AnthropicRequest

namespace AnthropicMessage

/-- The ids that an assistant message calls. -/
def calls (m : AnthropicMessage) : List String :=
  match m.role with
  | .assistant => (m.blocks.filter fun b => b.type = .toolUse).map fun b => b.id
  | .user => []

/-- The ids that a user message answers. -/
def answers (m : AnthropicMessage) : List String :=
  match m.role with
  | .user => (m.blocks.filter fun b => b.type = .toolResult).map fun b => b.toolUseID
  | .assistant => []

/-- The blocks of an assistant message that are no calls, or those of a user message that are no
results. -/
def others (m : AnthropicMessage) : List RequestBlock :=
  match m.role with
  | .assistant => m.blocks.filter fun b => b.type ≠ .toolUse
  | .user => m.blocks.filter fun b => b.type ≠ .toolResult

/-- The blocks of a message are JSON. -/
def Marshals (m : AnthropicMessage) : Prop := ∀ b ∈ m.blocks, b.marshals = true

end AnthropicMessage

/-! ### What a history has to satisfy -/

/-- No two adjacent messages have one role. -/
def Alternating (messages : List AnthropicMessage) : Prop :=
  messages.IsChain fun m next => m.role ≠ next.role

/-- Every call of an assistant message is answered in the user message right after it. -/
def CallsAnswered (messages : List AnthropicMessage) : Prop :=
  ∀ (i : ℕ) m, messages[i]? = some m → m.role = .assistant →
    ∀ b ∈ m.blocks, b.type = .toolUse →
      ∃ next, messages[i + 1]? = some next ∧ next.role = .user ∧
        ∃ r ∈ next.blocks, r.type = .toolResult ∧ r.toolUseID = b.id

/-- Every result in a message of such a role answers a call of the assistant message right before
it. -/
def ResultsAnnounced (role : MessageRole → Prop) (messages : List AnthropicMessage) : Prop :=
  ∀ (i : ℕ) m, messages[i]? = some m → role m.role →
    ∀ r ∈ m.blocks, r.type = .toolResult →
      ∃ j previous, i = j + 1 ∧ messages[j]? = some previous ∧ previous.role = .assistant ∧
        ∃ b ∈ previous.blocks, b.type = .toolUse ∧ b.id = r.toolUseID

theorem AnthropicMessage.mem_calls {m : AnthropicMessage} {id : String} :
    id ∈ m.calls ↔ m.role = .assistant ∧ ∃ b ∈ m.blocks, b.type = .toolUse ∧ b.id = id := by
  unfold calls
  cases m.role <;> simp [and_assoc]

theorem AnthropicMessage.mem_answers {m : AnthropicMessage} {id : String} :
    id ∈ m.answers ↔ m.role = .user ∧ ∃ r ∈ m.blocks, r.type = .toolResult ∧ r.toolUseID = id := by
  unfold answers
  cases m.role <;> simp [and_assoc]

/-! ### Contents that marshal -/

theorem parse_marshalBlocks {blocks : List RequestBlock}
    (marshal : ∀ b ∈ blocks, b.marshals = true) :
    parseContentBlocks (marshalBlocks blocks) = blocks := by
  unfold marshalBlocks
  split
  · next empty => exact empty.symm
  · rw [if_pos (List.all_eq_true.mpr marshal)]
    rfl

/-- What `json.Marshal` made of blocks is JSON, also when it failed. -/
theorem marshalBlocks_marshals (blocks : List RequestBlock) :
    ∀ b ∈ parseContentBlocks (marshalBlocks blocks), b.marshals = true := by
  unfold marshalBlocks
  split
  · simp [parseContentBlocks]
  · split
    · next all => exact List.all_eq_true.mp all
    · simp [parseContentBlocks]

theorem fromBlocks_marshals (role : MessageRole) (blocks : List RequestBlock) :
    (anthropicMessageFromBlocks role blocks).Marshals :=
  marshalBlocks_marshals blocks

theorem passed_marshals (passed : PassedBlocks) :
    ∀ b ∈ parseContentBlocks (.blocks passed.blocks), b.marshals = true :=
  List.all_eq_true.mp passed.marshals

theorem textBlock_marshals (text : String) : (textBlock text).marshals = true := rfl

theorem userContent_marshals (content : ItemContent) :
    ∀ b ∈ parseContentBlocks (convertResponsesUserToAnthropicContent content),
      b.marshals = true := by
  have plain (text : String) : ∀ b ∈ parseContentBlocks (.text text), b.marshals = true := by
    intro b member
    cases List.mem_singleton.mp member
    rfl
  cases content with
  | absent => exact plain ""
  | text text => exact plain text
  | parts parts =>
    simp only [convertResponsesUserToAnthropicContent]
    split
    · exact plain ""
    · exact marshalBlocks_marshals _
  | blocks passed => exact passed_marshals passed
  | other => simp [convertResponsesUserToAnthropicContent, parseContentBlocks]

theorem assistantContent_marshals (content : ItemContent) :
    ∀ b ∈ parseContentBlocks (convertResponsesAssistantToAnthropicContent content),
      b.marshals = true := by
  cases content with
  | absent => exact marshalBlocks_marshals _
  | text text => exact marshalBlocks_marshals _
  | parts parts => exact marshalBlocks_marshals _
  | blocks passed => exact passed_marshals passed
  | other => simp [convertResponsesAssistantToAnthropicContent, parseContentBlocks]

/-- What the messages of an item can be. -/
inductive ItemMessages (item : ResponsesInputItem) : List AnthropicMessage → Prop where
  | silent : ItemMessages item []
  | call : item.type = .functionCall → ItemMessages item [functionCallMessage item]
  | output : item.type = .functionCallOutput → ItemMessages item [functionCallOutputMessage item]
  | thinking (envelope : String) (block : RequestBlock) : item.type = .reasoning →
      openEnvelope envelope = .ok block →
      ItemMessages item [{ role := .assistant, content := marshalBlocks [block] }]
  | assistant (content : MessageContent) :
      content = convertResponsesAssistantToAnthropicContent item.content →
      anthropicContentIsEmpty content = false → anthropicContentIsOnlyBlankText content = false →
      ItemMessages item [{ role := .assistant, content := content }]
  | user (content : MessageContent) :
      content = convertResponsesUserToAnthropicContent item.content →
      anthropicContentIsEmpty content = false →
      ItemMessages item [{ role := .user, content := content }]

theorem userMessage_messages (item : ResponsesInputItem) :
    ItemMessages item (userMessage (convertResponsesUserToAnthropicContent item.content)) := by
  unfold userMessage
  split
  · exact .silent
  · next kept => exact .user _ rfl (by simpa using kept)

theorem convertItem_messages {preserve : Bool} {item : ResponsesInputItem} {converted : Converted}
    (done : convertItem preserve item = .ok converted) : ItemMessages item converted.messages := by
  unfold convertItem at done
  split at done
  · cases done
    exact .silent
  split at done
  · next _ isCall =>
    cases done
    exact .call isCall
  split at done
  · next _ _ isOutput =>
    cases done
    exact .output isOutput
  split at done
  · next _ _ _ isReasoning =>
    split at done
    · next envelope _ =>
      split at done
      · cases opened : openEnvelope envelope with
        | error failure => simp [opened, bind, Except.bind] at done
        | ok block =>
          simp only [opened, bind, Except.bind, pure, Except.pure, Except.ok.injEq] at done
          subst done
          exact .thinking envelope block isReasoning opened
      · cases done
        exact .silent
    · cases done
      exact .silent
  cases role : item.role with
  | assistant =>
    simp only [role] at done
    split at done
    · cases done
      exact .silent
    · next kept =>
      cases done
      simp only [Bool.or_eq_true, not_or, Bool.not_eq_true] at kept
      exact .assistant _ rfl kept.1 kept.2
  | system | developer | user | other name =>
    simp only [role] at done
    cases done
    exact userMessage_messages item

variable {messages : List AnthropicMessage}

/-- The messages of an item are JSON. -/
theorem ItemMessages.marshals {item : ResponsesInputItem} (added : ItemMessages item messages) :
    ∀ m ∈ messages, m.Marshals := by
  intro m member
  cases added with
  | silent => exact absurd member List.not_mem_nil
  | call _ =>
    cases List.mem_singleton.mp member
    exact fromBlocks_marshals _ _
  | output _ =>
    cases List.mem_singleton.mp member
    exact fromBlocks_marshals _ _
  | thinking envelope block _ _ =>
    cases List.mem_singleton.mp member
    exact fromBlocks_marshals _ _
  | assistant content here _ _ =>
    cases List.mem_singleton.mp member
    cases here
    exact assistantContent_marshals item.content
  | user content here _ =>
    cases List.mem_singleton.mp member
    cases here
    exact userContent_marshals item.content

theorem mapM_convertItem_marshals {preserve : Bool} {items : List ResponsesInputItem}
    {converted : List Converted} (done : items.mapM (convertItem preserve) = .ok converted) :
    ∀ m ∈ converted.flatMap Converted.messages, m.Marshals := by
  intro m member
  obtain ⟨here, listed, inside⟩ := List.mem_flatMap.mp member
  obtain ⟨item, _, made⟩ := Lists.right_of_forall₂ (Lists.mapM_ok.mp done) listed
  exact (convertItem_messages made).marshals m inside

/-! ### Merging -/

/-- Two messages of one role in one. -/
def AnthropicMessage.join (m next : AnthropicMessage) : AnthropicMessage :=
  { m with content := marshalBlocks (m.blocks ++ next.blocks) }

theorem mergeAfter_cons_of_ne {last msg : AnthropicMessage} (rest : List AnthropicMessage)
    (apart : last.role ≠ msg.role) :
    mergeAfter last (msg :: rest) = last :: mergeAfter msg rest := by
  rw [mergeAfter, if_pos apart]

theorem mergeAfter_cons_of_eq {last msg : AnthropicMessage} (rest : List AnthropicMessage)
    (same : last.role = msg.role) :
    mergeAfter last (msg :: rest) = mergeAfter (last.join msg) rest := by
  rw [mergeAfter, if_neg (not_not_intro same)]
  rfl

theorem AnthropicMessage.Marshals.join {m next : AnthropicMessage} : (m.join next).Marshals :=
  fromBlocks_marshals _ _

theorem AnthropicMessage.join_blocks {m next : AnthropicMessage} (marshal : m.Marshals)
    (marshal' : next.Marshals) : (m.join next).blocks = m.blocks ++ next.blocks := by
  apply parse_marshalBlocks
  intro b member
  exact (List.mem_append.mp member).elim (marshal b) (marshal' b)

section Join

variable {m next : AnthropicMessage} (marshal : m.Marshals) (marshal' : next.Marshals)
  (same : m.role = next.role)

include marshal marshal' same

theorem AnthropicMessage.join_calls : (m.join next).calls = m.calls ++ next.calls := by
  have role : (m.join next).role = m.role := rfl
  unfold calls
  rw [role, join_blocks marshal marshal', ← same]
  cases m.role <;> simp

theorem AnthropicMessage.join_answers : (m.join next).answers = m.answers ++ next.answers := by
  have role : (m.join next).role = m.role := rfl
  unfold answers
  rw [role, join_blocks marshal marshal', ← same]
  cases m.role <;> simp

theorem AnthropicMessage.join_others : (m.join next).others = m.others ++ next.others := by
  have role : (m.join next).role = m.role := rfl
  unfold others
  rw [role, join_blocks marshal marshal', ← same]
  cases m.role <;> simp

end Join

variable {rest : List AnthropicMessage}

theorem mergeAfter_marshals {last : AnthropicMessage} (marshal : ∀ m ∈ last :: rest, m.Marshals) :
    ∀ m ∈ mergeAfter last rest, m.Marshals := by
  induction rest generalizing last with
  | nil => exact marshal
  | cons msg rest ih =>
    have later : ∀ m ∈ rest, m.Marshals := fun m inside => marshal m (by simp [inside])
    by_cases same : last.role = msg.role
    · rw [mergeAfter_cons_of_eq rest same]
      exact ih (List.forall_mem_cons.mpr ⟨.join, later⟩)
    · rw [mergeAfter_cons_of_ne rest same]
      exact List.forall_mem_cons.mpr ⟨marshal last (by simp),
        ih (List.forall_mem_cons.mpr ⟨marshal msg (by simp), later⟩)⟩

/-- The merged messages start with one of the role in hand. -/
theorem head_mergeAfter (last : AnthropicMessage) (rest : List AnthropicMessage) :
    ∃ first later, mergeAfter last rest = first :: later ∧ first.role = last.role := by
  induction rest generalizing last with
  | nil => exact ⟨last, [], rfl, rfl⟩
  | cons msg rest ih =>
    by_cases same : last.role = msg.role
    · rw [mergeAfter_cons_of_eq rest same]
      exact ih (last.join msg)
    · rw [mergeAfter_cons_of_ne rest same]
      exact ⟨last, _, rfl, rfl⟩

theorem alternating_mergeAfter (last : AnthropicMessage) (rest : List AnthropicMessage) :
    Alternating (mergeAfter last rest) := by
  induction rest generalizing last with
  | nil => exact List.isChain_singleton _
  | cons msg rest ih =>
    by_cases same : last.role = msg.role
    · rw [mergeAfter_cons_of_eq rest same]
      exact ih _
    · rw [mergeAfter_cons_of_ne rest same]
      obtain ⟨first, later, shape, role⟩ := head_mergeAfter msg rest
      have chain := ih msg
      rw [shape] at chain ⊢
      exact List.isChain_cons_cons.mpr ⟨by rwa [role], chain⟩

/-- Merged messages alternate. -/
theorem alternating_merge (messages : List AnthropicMessage) :
    Alternating (mergeConsecutiveMessages messages) := by
  cases messages with
  | nil => exact List.isChain_nil
  | cons msg rest => exact alternating_mergeAfter msg rest

/-- What is read off messages so that joining appends it. -/
def Additive {α : Type} (f : AnthropicMessage → List α) : Prop :=
  ∀ m next : AnthropicMessage, m.Marshals → next.Marshals → m.role = next.role →
    f (m.join next) = f m ++ f next

theorem Additive.others : Additive AnthropicMessage.others :=
  fun _ _ => AnthropicMessage.join_others

theorem Additive.mergeAfter {α : Type} {f : AnthropicMessage → List α} (additive : Additive f)
    {last : AnthropicMessage} (marshal : ∀ m ∈ last :: rest, m.Marshals) :
    (mergeAfter last rest).flatMap f = (last :: rest).flatMap f := by
  induction rest generalizing last with
  | nil => rfl
  | cons msg rest ih =>
    have later : ∀ m ∈ rest, m.Marshals := fun m inside => marshal m (by simp [inside])
    by_cases same : last.role = msg.role
    · rw [mergeAfter_cons_of_eq rest same, ih (List.forall_mem_cons.mpr ⟨.join, later⟩)]
      simp [additive last msg (marshal last (by simp)) (marshal msg (by simp)) same]
    · rw [mergeAfter_cons_of_ne rest same, List.flatMap_cons,
        ih (List.forall_mem_cons.mpr ⟨marshal msg (by simp), later⟩)]
      rfl

/-- Merging keeps what is read off the messages one after the other. -/
theorem Additive.merge {α : Type} {f : AnthropicMessage → List α} (additive : Additive f)
    (marshal : ∀ m ∈ messages, m.Marshals) :
    (mergeConsecutiveMessages messages).flatMap f = messages.flatMap f := by
  cases messages with
  | nil => rfl
  | cons msg rest => exact additive.mergeAfter marshal

theorem merge_marshals (marshal : ∀ m ∈ messages, m.Marshals) :
    ∀ m ∈ mergeConsecutiveMessages messages, m.Marshals := by
  cases messages with
  | nil => exact marshal
  | cons msg rest => exact mergeAfter_marshals marshal

/-! ### Linked messages -/

/-- What each user message answers are the calls of the message before it, the first one of the
calls that are open. -/
inductive Linked : List String → List AnthropicMessage → Prop where
  | nil : Linked [] []
  | user {open' : List String} {m : AnthropicMessage} {rest : List AnthropicMessage} :
      m.role = .user → m.answers = open' → Linked [] rest → Linked open' (m :: rest)
  | assistant {m : AnthropicMessage} {rest : List AnthropicMessage} :
      m.role = .assistant → Linked m.calls rest → Linked [] (m :: rest)

/-- Messages that neither call nor answer may come anywhere. -/
theorem Linked.plain {m : AnthropicMessage} (callless : m.calls = []) (answerless : m.answers = [])
    (linked : Linked [] rest) : Linked [] (m :: rest) := by
  cases role : m.role with
  | user => exact .user role answerless linked
  | assistant => exact .assistant role (callless ▸ linked)

theorem Linked.append {messages later : List AnthropicMessage} {open' : List String}
    (linked : Linked open' messages) (next : Linked [] later) :
    Linked open' (messages ++ later) := by
  induction linked with
  | nil => exact next
  | user isUser answered _ ih => exact .user isUser answered ih
  | assistant isAssistant _ ih => exact .assistant isAssistant ih

/-- Merging keeps messages linked. -/
theorem Linked.mergeAfter {last : AnthropicMessage} {open' : List String}
    (marshal : ∀ m ∈ last :: rest, m.Marshals) (linked : Linked open' (last :: rest)) :
    Linked open' (mergeAfter last rest) := by
  induction rest generalizing last open' with
  | nil => exact linked
  | cons msg rest ih =>
    have here : last.Marshals := marshal last (by simp)
    have next : msg.Marshals := marshal msg (by simp)
    have later : ∀ m ∈ rest, m.Marshals := fun m inside => marshal m (by simp [inside])
    by_cases same : last.role = msg.role
    · rw [mergeAfter_cons_of_eq rest same]
      apply ih (List.forall_mem_cons.mpr ⟨.join, later⟩)
      cases linked with
      | user isUser answered linked =>
        cases linked with
        | user isUser' answered' linked =>
          have kept : (last.join msg).role = .user := isUser
          apply Linked.user kept _ linked
          rw [AnthropicMessage.join_answers here next same, answered, answered',
            List.append_nil]
        | assistant isAssistant _ =>
          exact absurd (isUser.symm.trans (same.trans isAssistant)) (by decide)
      | assistant isAssistant linked =>
        generalize known : last.calls = calls at linked
        cases linked with
        | user isUser _ _ =>
          exact absurd (isAssistant.symm.trans (same.trans isUser)) (by decide)
        | assistant isAssistant' linked =>
          have kept : (last.join msg).role = .assistant := isAssistant
          apply Linked.assistant kept
          rw [AnthropicMessage.join_calls here next same, known, List.nil_append]
          exact linked
    · rw [mergeAfter_cons_of_ne rest same]
      have inside : ∀ m ∈ msg :: rest, m.Marshals := List.forall_mem_cons.mpr ⟨next, later⟩
      cases linked with
      | user isUser answered linked => exact .user isUser answered (ih inside linked)
      | assistant isAssistant linked => exact .assistant isAssistant (ih inside linked)

theorem Linked.merge (marshal : ∀ m ∈ messages, m.Marshals) (linked : Linked [] messages) :
    Linked [] (mergeConsecutiveMessages messages) := by
  cases messages with
  | nil => exact linked
  | cons msg rest => exact linked.mergeAfter marshal

/-! ### Pairing -/

/-- What an index of results gives for an id is a result of that id. -/
def Indexes (results : String → Option RequestBlock) : Prop :=
  ∀ id r, results id = some r → r.type = .toolResult ∧ r.toolUseID = id ∧ r.marshals = true

theorem resultFor_indexes (marshal : ∀ m ∈ messages, m.Marshals) :
    Indexes (resultFor messages) := by
  intro id r found
  have named : r.toolUseID = id := by simpa using List.find?_some found
  have member := List.mem_of_find?_eq_some found
  simp only [indexedResults, List.mem_reverse, List.mem_flatMap, List.mem_filter,
    decide_eq_true_eq] at member
  obtain ⟨m, ⟨here, _⟩, inside, isResult, _⟩ := member
  exact ⟨isResult, named, marshal m here r inside⟩

section Pair

variable {results : String → Option RequestBlock} {m : AnthropicMessage}

theorem filterMap_results (index : Indexes results) {kept : List RequestBlock}
    (answered : ∀ b ∈ kept, (results b.id).isSome) :
    (kept.filterMap fun b => results b.id).map (fun b => b.toolUseID) =
      kept.map fun b => b.id := by
  induction kept with
  | nil => rfl
  | cons b rest ih =>
    obtain ⟨r, found⟩ := Option.isSome_iff_exists.mp (answered b (by simp))
    have later := ih fun b inside => answered b (by simp [inside])
    simp [found, (index _ _ found).2.1, later]

theorem mem_filterMap_results (index : Indexes results) {kept : List RequestBlock} :
    ∀ r ∈ kept.filterMap (fun b => results b.id), r.type = .toolResult ∧ r.marshals = true := by
  intro r member
  obtain ⟨b, _, found⟩ := List.mem_filterMap.mp member
  exact ⟨(index _ _ found).1, (index _ _ found).2.2⟩

theorem fromBlocks_blocks {role : MessageRole} {blocks : List RequestBlock}
    (marshal : ∀ b ∈ blocks, b.marshals = true) :
    (anthropicMessageFromBlocks role blocks).blocks = blocks :=
  parse_marshalBlocks marshal

variable (results m) in
/-- The calls of an assistant message that some result answers. -/
def answeredCalls : List RequestBlock :=
  match m.role with
  | .assistant => m.blocks.filter fun b => b.type = .toolUse ∧ (results b.id).isSome
  | .user => []

theorem answeredCalls_isSome : ∀ b ∈ answeredCalls results m, (results b.id).isSome := by
  intro b member
  unfold answeredCalls at member
  cases role : m.role with
  | assistant =>
    simp only [role, List.mem_filter, decide_eq_true_eq] at member
    exact member.2.2
  | user => simp [role] at member

theorem answeredCalls_subset : ∀ b ∈ answeredCalls results m, b ∈ m.blocks ∧ b.type = .toolUse := by
  intro b member
  unfold answeredCalls at member
  cases role : m.role with
  | assistant =>
    simp only [role, List.mem_filter, decide_eq_true_eq] at member
    exact ⟨member.1, member.2.1⟩
  | user => simp [role] at member

theorem others_subset : ∀ b ∈ m.others, b ∈ m.blocks := by
  intro b member
  unfold AnthropicMessage.others at member
  cases role : m.role with
  | assistant =>
    simp only [role, List.mem_filter] at member
    exact member.1
  | user =>
    simp only [role, List.mem_filter] at member
    exact member.1

/-- What the pairing does with a message: one without calls and results stays as it is; of another
the other blocks stay and the answered calls, whose results come right after. -/
inductive Pairs (results : String → Option RequestBlock) (m : AnthropicMessage) :
    List AnthropicMessage → Prop where
  | kept : m.calls = [] → m.answers = [] → Pairs results m [m]
  | vanished : (m.calls ≠ [] ∨ m.answers ≠ []) → m.others = [] → answeredCalls results m = [] →
      Pairs results m []
  | others : (m.calls ≠ [] ∨ m.answers ≠ []) → m.others ≠ [] → answeredCalls results m = [] →
      Pairs results m [anthropicMessageFromBlocks m.role m.others]
  | answered : m.role = .assistant → answeredCalls results m ≠ [] →
      Pairs results m
        [anthropicMessageFromBlocks .assistant (m.others ++ answeredCalls results m),
          anthropicMessageFromBlocks .user
            ((answeredCalls results m).filterMap fun b => results b.id)]

theorem pairMessage_pairs : Pairs results m (pairMessage results m) := by
  cases role : m.role with
  | assistant =>
    have calls : m.calls = (m.blocks.filter fun b => b.type = .toolUse).map fun b => b.id := by
      simp only [AnthropicMessage.calls, role]
    have answers : m.answers = [] := by simp only [AnthropicMessage.answers, role]
    have others : m.others = m.blocks.filter fun b => b.type ≠ .toolUse := by
      simp only [AnthropicMessage.others, role]
    have kept : answeredCalls results m =
        (m.blocks.filter fun b => b.type = .toolUse).filter fun b => (results b.id).isSome := by
      simp [answeredCalls, role, List.filter_filter, Bool.and_comm]
    simp only [pairMessage, role, ← others, ← kept]
    split
    · next callless => exact .kept (by rw [calls, callless]; rfl) answers
    · next calling =>
      have called : m.calls ≠ [] := by rw [calls]; simpa using calling
      split
      · next unanswered =>
        split
        · next empty => exact .vanished (.inl called) empty unanswered
        · next some' =>
          rw [← role]
          exact .others (.inl called) some' unanswered
      · next answered => exact .answered role answered
  | user =>
    have calls : m.calls = [] := by simp only [AnthropicMessage.calls, role]
    have answers : m.answers =
        (m.blocks.filter fun b => b.type = .toolResult).map fun b => b.toolUseID := by
      simp only [AnthropicMessage.answers, role]
    have others : m.others = m.blocks.filter fun b => b.type ≠ .toolResult := by
      simp only [AnthropicMessage.others, role]
    have unanswered : answeredCalls results m = [] := by simp only [answeredCalls, role]
    simp only [pairMessage, role, ← others]
    split
    · next resultless =>
      refine .kept calls ?_
      rw [answers, List.filter_eq_nil_iff.mpr]
      · rfl
      · intro b member
        have := List.all_eq_true.mp resultless b member
        simpa using this
    · next resulting =>
      have answering : m.answers ≠ [] := by
        rw [answers]
        intro nil
        apply resulting
        rw [List.map_eq_nil_iff, List.filter_eq_nil_iff] at nil
        apply List.all_eq_true.mpr
        intro b member
        have := nil b member
        simpa using this
      split
      · next empty => exact .vanished (.inr answering) empty unanswered
      · next some' =>
        rw [← role]
        exact .others (.inr answering) some' unanswered

/-- The blocks that stay are JSON. -/
theorem pairs_marshals (marshal : m.Marshals) {paired : List AnthropicMessage}
    (pairs : Pairs results m paired) : ∀ n ∈ paired, n.Marshals := by
  intro n member
  cases pairs with
  | kept _ _ =>
    cases List.mem_singleton.mp member
    exact marshal
  | vanished _ _ _ => exact absurd member List.not_mem_nil
  | others _ _ _ =>
    cases List.mem_singleton.mp member
    exact fromBlocks_marshals _ _
  | answered _ _ =>
    rcases List.mem_pair.mp member with rfl | rfl
    · exact fromBlocks_marshals _ _
    · exact fromBlocks_marshals _ _

theorem others_marshal (marshal : m.Marshals) : ∀ b ∈ m.others, b.marshals = true :=
  fun b member => marshal b (others_subset b member)

theorem others_idem (m : AnthropicMessage) {n : AnthropicMessage} (role : n.role = m.role)
    (blocks : n.blocks = m.others) : n.others = m.others ∧ n.calls = [] ∧ n.answers = [] := by
  unfold AnthropicMessage.others AnthropicMessage.calls AnthropicMessage.answers at *
  rw [role, blocks]
  cases m.role <;> simp

/-- The message of answered calls, and the one of their results. -/
theorem answered_blocks (index : Indexes results) (marshal : m.Marshals)
    (isAssistant : m.role = .assistant) {a u : AnthropicMessage}
    (asks : a = anthropicMessageFromBlocks .assistant (m.others ++ answeredCalls results m))
    (answers : u = anthropicMessageFromBlocks .user
      ((answeredCalls results m).filterMap fun b => results b.id)) :
    a.blocks = m.others ++ answeredCalls results m ∧
      u.blocks = (answeredCalls results m).filterMap (fun b => results b.id) ∧
      a.others = m.others ∧ u.others = [] ∧
      a.calls = (answeredCalls results m).map (fun b => b.id) ∧ u.answers = a.calls := by
  have asked : a.blocks = m.others ++ answeredCalls results m := by
    rw [asks]
    apply fromBlocks_blocks
    intro b member
    rcases List.mem_append.mp member with inside | inside
    · exact marshal b (others_subset b inside)
    · exact marshal b (answeredCalls_subset b inside).1
  have answered : u.blocks = (answeredCalls results m).filterMap fun b => results b.id := by
    rw [answers]
    apply fromBlocks_blocks
    exact fun r member => (mem_filterMap_results index r member).2
  have isA : a.role = .assistant := by rw [asks]; rfl
  have isU : u.role = .user := by rw [answers]; rfl
  have noCalls : m.others.filter (fun b => b.type = .toolUse) = [] := by
    simp [AnthropicMessage.others, isAssistant]
  have noOthers : m.others.filter (fun b => b.type ≠ .toolUse) = m.others := by
    simp [AnthropicMessage.others, isAssistant]
  have onlyCalls : ∀ b ∈ answeredCalls results m, b.type = .toolUse :=
    fun b member => (answeredCalls_subset b member).2
  have onlyResults : ∀ r ∈ (answeredCalls results m).filterMap (fun b => results b.id),
      r.type = .toolResult := fun r member => (mem_filterMap_results index r member).1
  have calls : a.calls = (answeredCalls results m).map fun b => b.id := by
    simp only [AnthropicMessage.calls, isA, asked, List.filter_append, noCalls, List.nil_append]
    rw [List.filter_eq_self.mpr (by simpa using onlyCalls)]
  refine ⟨asked, answered, ?_, ?_, calls, ?_⟩
  · have split : a.others = m.others.filter (fun b => b.type ≠ .toolUse) ++
        (answeredCalls results m).filter fun b => b.type ≠ .toolUse := by
      rw [← List.filter_append, ← asked]
      simp only [AnthropicMessage.others, isA]
    rw [split, noOthers, List.filter_eq_nil_iff.mpr (by simpa using onlyCalls), List.append_nil]
  · simp only [AnthropicMessage.others, isU, answered]
    exact List.filter_eq_nil_iff.mpr (by simpa using onlyResults)
  · simp only [AnthropicMessage.answers, isU, answered, calls]
    rw [List.filter_eq_self.mpr (by simpa using onlyResults),
      filterMap_results index fun b member => answeredCalls_isSome b member]

/-- The pairing links what it makes of a message, and keeps its other blocks. -/
theorem pairs_linked (index : Indexes results) (marshal : m.Marshals)
    {paired : List AnthropicMessage} (pairs : Pairs results m paired) :
    Linked [] paired ∧ paired.flatMap AnthropicMessage.others = m.others := by
  cases pairs with
  | kept callless answerless => exact ⟨.plain callless answerless .nil, by simp⟩
  | vanished _ empty _ => exact ⟨.nil, by simp [empty]⟩
  | others _ _ _ =>
    obtain ⟨same, callless, answerless⟩ :=
      others_idem m (n := anthropicMessageFromBlocks m.role m.others) rfl
        (fromBlocks_blocks (others_marshal marshal))
    exact ⟨.plain callless answerless .nil, by simpa using same⟩
  | answered isAssistant _ =>
    obtain ⟨_, _, others, none', _, answers⟩ :=
      answered_blocks index marshal isAssistant rfl rfl
    exact ⟨.assistant rfl (.user rfl answers .nil), by simp [others, none']⟩

end Pair

theorem normalize_linked {results : String → Option RequestBlock} (index : Indexes results)
    (marshal : ∀ m ∈ messages, m.Marshals) :
    Linked [] (messages.flatMap (pairMessage results)) ∧
      (messages.flatMap (pairMessage results)).flatMap AnthropicMessage.others =
        messages.flatMap AnthropicMessage.others := by
  induction messages with
  | nil => exact ⟨.nil, rfl⟩
  | cons m rest ih =>
    obtain ⟨linked, others⟩ := ih fun n inside => marshal n (by simp [inside])
    obtain ⟨here, kept⟩ := pairs_linked index (marshal m (by simp)) pairMessage_pairs
    rw [List.flatMap_cons, List.flatMap_append, kept, others]
    exact ⟨here.append linked, rfl⟩

theorem pairing_marshals (marshal : ∀ m ∈ messages, m.Marshals) :
    ∀ m ∈ normalizeAnthropicToolPairing messages, m.Marshals := by
  intro n member
  obtain ⟨m, inside, paired⟩ := List.mem_flatMap.mp member
  exact pairs_marshals (marshal m inside) pairMessage_pairs n paired

/-! ### The messages of a request -/

theorem Linked.callsAnswered {open' : List String} (linked : Linked open' messages) :
    CallsAnswered messages := by
  induction linked with
  | nil => simp [CallsAnswered]
  | user isUser _ _ ih =>
    intro i m here isAssistant
    cases i with
    | zero =>
      cases Option.some.inj here
      exact absurd (isUser.symm.trans isAssistant) (by decide)
    | succ i => exact ih i m here isAssistant
  | @assistant first rest isAssistant later ih =>
    intro i m here isAssistant' b member isCall
    cases i with
    | succ i => exact ih i m here isAssistant' b member isCall
    | zero =>
      cases Option.some.inj here
      have called : b.id ∈ first.calls :=
        AnthropicMessage.mem_calls.mpr ⟨isAssistant, b, member, isCall, rfl⟩
      generalize first.calls = calls at later called
      cases later with
      | nil => exact absurd called List.not_mem_nil
      | @user _ next _ isUser answered _ =>
        rw [← answered] at called
        obtain ⟨_, r, inside, isResult, named⟩ := AnthropicMessage.mem_answers.mp called
        exact ⟨next, rfl, isUser, r, inside, isResult, named⟩
      | assistant _ _ => exact absurd called List.not_mem_nil

/-- A result answers a call of the message before, or one that was open at the start. -/
theorem Linked.result_called {open' : List String} (linked : Linked open' messages) {i : ℕ}
    {m : AnthropicMessage} (here : messages[i]? = some m) {id : String} (answer : id ∈ m.answers) :
    (i = 0 ∧ id ∈ open') ∨ ∃ j previous, i = j + 1 ∧ messages[j]? = some previous ∧
      id ∈ previous.calls := by
  induction linked generalizing i with
  | nil => simp at here
  | user isUser answered _ ih =>
    cases i with
    | zero =>
      cases Option.some.inj here
      exact .inl ⟨rfl, answered ▸ answer⟩
    | succ i =>
      rcases ih here with ⟨_, none'⟩ | ⟨j, previous, at', shown, called⟩
      · exact absurd none' List.not_mem_nil
      · exact .inr ⟨j + 1, previous, by rw [at'], shown, called⟩
  | @assistant first rest isAssistant later ih =>
    cases i with
    | zero =>
      cases Option.some.inj here
      have isUser := (AnthropicMessage.mem_answers.mp answer).1
      exact absurd (isUser.symm.trans isAssistant) (by decide)
    | succ i =>
      rcases ih here with ⟨rfl, called⟩ | ⟨j, previous, at', shown, called⟩
      · exact .inr ⟨0, first, rfl, rfl, called⟩
      · exact .inr ⟨j + 1, previous, by rw [at'], shown, called⟩

theorem Linked.resultsAnnounced (linked : Linked [] messages) :
    ResultsAnnounced (· = .user) messages := by
  intro i m here isUser r member isResult
  have answer : r.toolUseID ∈ m.answers :=
    AnthropicMessage.mem_answers.mpr ⟨isUser, r, member, isResult, rfl⟩
  rcases linked.result_called here answer with ⟨_, none'⟩ | ⟨j, previous, at', shown, called⟩
  · exact absurd none' List.not_mem_nil
  · exact ⟨j, previous, at', shown, AnthropicMessage.mem_calls.mp called⟩

/-- The passes make any messages a history that alternates, answers every call at once and answers
nothing else, with the other blocks as they were. -/
theorem normalizeMessages_linked (marshal : ∀ m ∈ messages, m.Marshals) :
    Linked [] (normalizeMessages messages) ∧
      (normalizeMessages messages).flatMap AnthropicMessage.others =
        messages.flatMap AnthropicMessage.others := by
  have grouped := merge_marshals marshal
  obtain ⟨linked, others⟩ := normalize_linked (resultFor_indexes grouped) grouped
  have paired := pairing_marshals grouped
  exact ⟨linked.merge paired, (Additive.others.merge paired).trans
    (others.trans (Additive.others.merge marshal))⟩

theorem convert_items {instructions : String} {items : List ResponsesInputItem} {preserve : Bool}
    {system : Option String}
    (done : convertResponsesInputToAnthropic instructions (.items items) preserve =
      .ok (system, messages)) :
    ∃ converted, items.mapM (convertItem preserve) = .ok converted ∧
      messages = normalizeMessages (converted.flatMap Converted.messages) := by
  cases here : items.mapM (convertItem preserve) with
  | error failure => simp [convertResponsesInputToAnthropic, here, bind, Except.bind] at done
  | ok converted =>
    simp only [convertResponsesInputToAnthropic, here, bind, Except.bind, pure, Except.pure,
      Except.ok.injEq, Prod.mk.injEq] at done
    exact ⟨converted, rfl, done.2.symm⟩

/-- Whatever the items, the messages of the request alternate, every call is answered in the message
right after it, every result of a user message answers a call of the message right before it, and
the other blocks of the items' messages are there once, in their order. -/
theorem converted_history {instructions : String} {items : List ResponsesInputItem}
    {preserve : Bool} {system : Option String} {messages : List AnthropicMessage}
    (done : convertResponsesInputToAnthropic instructions (.items items) preserve =
      .ok (system, messages)) :
    Alternating messages ∧ CallsAnswered messages ∧ ResultsAnnounced (· = .user) messages ∧
      ∃ converted, items.mapM (convertItem preserve) = .ok converted ∧
        messages.flatMap AnthropicMessage.others =
          (converted.flatMap Converted.messages).flatMap AnthropicMessage.others := by
  obtain ⟨converted, each, rfl⟩ := convert_items done
  obtain ⟨linked, others⟩ := normalizeMessages_linked (mapM_convertItem_marshals each)
  exact ⟨alternating_merge _, linked.callsAnswered, linked.resultsAnnounced, converted, each, others⟩

namespace HistorySample

/-- A call, an approval notice, its output, and another call without one. -/
def interleaved : List ResponsesInputItem :=
  [{ type := .functionCall, callID := "call_1", name := "ls" },
    { role := .user, content := .text "approved" },
    { type := .functionCallOutput, callID := "call_1", output := .text "src" },
    { type := .functionCall, callID := "call_2", name := "cat" }]

/-- An assistant item whose content is no array of parts, and is passed on. -/
def passedResult : List ResponsesInputItem :=
  [{ role := .assistant
     content := .blocks
       { blocks := [{ type := .toolResult, toolUseID := "toolu_1" }]
         nonempty := by decide
         marshals := by decide } }]

end HistorySample

/-- The call and its result are side by side, the notice comes after them, and the call without an
output is gone. -/
theorem converted_history_interleaved :
    ∃ messages,
      convertResponsesInputToAnthropic "" (.items HistorySample.interleaved) false =
        .ok (none, messages) ∧
      Alternating messages ∧ CallsAnswered messages ∧ messages.length = 2 := by
  have done : convertResponsesInputToAnthropic "" (.items HistorySample.interleaved) false =
      .ok (none,
        [{ role := .assistant
           content := .blocks
            [{ type := .toolUse, id := "call_1", name := "ls", input := "\x7b\x7d" }] },
         { role := .user
           content := .blocks
            [{ type := .toolResult, toolUseID := "call_1", content := "\"src\"" },
              { type := .text, text := "approved" }] }]) := by
    decide +kernel
  obtain ⟨alternating, answered, _⟩ := converted_history done
  exact ⟨_, done, alternating, answered, rfl⟩

/-- A result in content that is passed on stays, and nothing announces it. -/
theorem passedResult_unannounced :
    ∃ items system messages,
      convertResponsesInputToAnthropic "" (.items items) false = .ok (system, messages) ∧
        ¬ResultsAnnounced (fun _ => True) messages := by
  refine ⟨HistorySample.passedResult, none,
    [{ role := .assistant
       content := .blocks [{ type := .toolResult, toolUseID := "toolu_1" }] }], ?_, ?_⟩
  · rfl
  · intro announced
    obtain ⟨j, previous, impossible, _⟩ := announced 0 _ rfl trivial _ (List.mem_singleton.mpr rfl) rfl
    exact absurd impossible (by simp)

end Sub2api.ApiCompat.AnthropicRequest
