import Mathlib.Data.List.Dedup
import Sub2api.ApiCompat.ChatItems
import Sub2api.ApiCompat.ChatToAnthropic

/-!
# The direct bridge of responses and the bridge by way of Responses

`ChatCompletionsResponseToAnthropic` promises what `ResponsesToAnthropic` makes of
`ChatCompletionsResponseToResponses`. The two differ where the way over Responses drops something:
broken calls, an empty text after reasoning, and a finish reason that it does not read.
-/

namespace Sub2api.ApiCompat

open Go ChatResponse

/-- Both ways without a client's tools. -/
def viaResponses (setting : ChatSetting) (now : ℤ) (resp : ChatCompletionsResponse)
    (model : String) : AnthropicResponse :=
  responsesToAnthropic
    (chatCompletionsResponseToResponses { setting with tools := {} } now resp model) model

/-- The two ways have the same blocks, stop reason and usage. -/
structure SameAnswer (direct composed : AnthropicResponse) : Prop where
  content : direct.content = composed.content
  stopReason : direct.stopReason = composed.stopReason
  usage : direct.usage = composed.usage

/-! ### When they do -/

/-- The arguments of a call are JSON once blank ones are the empty object. -/
def Unbroken (call : ChatToolCall) : Prop :=
  Json.valid (finishedArguments call.function.arguments) = true

instance (call : ChatToolCall) : Decidable (Unbroken call) := inferInstanceAs (Decidable (_ = _))

/-- Nothing but reasoning that is blank. -/
def OnlyBlankReasoning (message : ChatMessage) : Prop :=
  chatMessageContentText message.content = "" ∧ message.toolCalls = [] ∧
    message.reasoningText ≠ "" ∧ trimSpace message.reasoningText = ""

/-- What the way over Responses keeps of a choice. -/
structure KeptChoice (choice : ChatChoice) : Prop where
  unbroken : ∀ call ∈ choice.message.toolCalls, Unbroken call
  spoken : ¬OnlyBlankReasoning choice.message
  reason : ¬(choice.finishReason = "tool_calls" ∧ choice.message.toolCalls = [])

/-- What it keeps of the usage: details without a positive count are dropped. -/
def KeptUsage (usage : ChatUsage) : Prop :=
  ∀ details, usage.promptTokensDetails = some details →
    (details.cachedTokens > 0 ∨ details.cacheCreationTokens > 0 ∨ details.cacheWriteTokens > 0) ∨
      details.cachedTokens = 0 ∧ details.cacheCreationTokens = 0

variable {setting : ChatSetting}

/-! ### Usage -/

theorem usage_iff {usage : ChatUsage} :
    chatUsageToAnthropicUsage usage =
        anthropicUsageFromResponsesUsage (chatUsageToResponsesUsage usage) ↔ KeptUsage usage := by
  unfold chatUsageToAnthropicUsage anthropicUsageFromResponsesUsage chatUsageToResponsesUsage
    KeptUsage
  cases usage.promptTokensDetails with
  | none => simp
  | some details =>
    simp only [Option.getD_some, Option.some.injEq, forall_eq']
    by_cases counted : details.cachedTokens > 0 ∨ details.cacheCreationTokens > 0 ∨
        details.cacheWriteTokens > 0
    · simp [counted]
    · have noWrites : ¬details.cacheWriteTokens > 0 := fun writes =>
        counted (Or.inr (Or.inr writes))
      rw [if_neg counted, if_neg noWrites, or_iff_right counted]
      simp only [Option.map_none, Option.getD_none, AnthropicUsage.mk.injEq, true_and]
      constructor
      · rintro ⟨_, created, read⟩
        exact ⟨read, created⟩
      · rintro ⟨read, created⟩
        rw [read, created]
        exact ⟨rfl, rfl, rfl⟩

/-! ### Blocks -/

/-- Without a client's tools every unbroken call is a function's. -/
theorem callOutput_plain {call : ChatToolCall} :
    callOutput { setting with tools := {} } call =
      if Unbroken call then
        some { type := .functionCall, callID := call.id, name := call.function.name
               arguments := finishedArguments call.function.arguments, status := .completed }
      else none := by
  have notCustom : customToolCallName { setting with tools := {} } call.function.name = none := by
    have noTools : prefixedCustomTools { setting with tools := {} } call.function.name = [] := rfl
    simp [customToolCallName, noTools, List.dedup_nil]
  unfold callOutput Unbroken
  rw [notCustom]
  by_cases valid : Json.valid (finishedArguments call.function.arguments) = true
  · simp [valid]
  · simp [valid]

theorem callBlocks {calls : List ChatToolCall} :
    (calls.filterMap (callOutput { setting with tools := {} })).flatMap itemBlocks =
      (calls.filter fun call => Unbroken call).map toolUseBlock := by
  induction calls with
  | nil => rfl
  | cons call rest ih =>
    by_cases unbroken : Unbroken call
    · rw [List.filterMap_cons, callOutput_plain, if_pos unbroken,
        List.filter_cons_of_pos (by simpa using unbroken), List.map_cons, ← ih]
      rfl
    · rw [List.filterMap_cons, callOutput_plain, if_neg unbroken,
        List.filter_cons_of_neg (by simpa using unbroken), ih]

/-- Ids do not matter for the blocks, but for those of a web search. -/
theorem withItemIDs_blocks {first : ℕ} {items : List ResponsesOutput}
    (noSearch : ∀ item ∈ items, item.type ≠ .webSearchCall) :
    (withItemIDs setting first items).flatMap itemBlocks = items.flatMap itemBlocks := by
  have same (item : ResponsesOutput) (id : String) (other : item.type ≠ .webSearchCall) :
      itemBlocks { item with id := id } = itemBlocks item := by
    unfold itemBlocks
    cases type : item.type <;> simp_all
  unfold withItemIDs
  rw [List.flatMap_map]
  have ids : items.zipIdx.flatMap (fun placed =>
      itemBlocks { placed.1 with id := generatedItemID setting (first + placed.2) }) =
      items.zipIdx.flatMap fun placed => itemBlocks placed.1 :=
    List.flatMap_congr fun placed member =>
      same placed.1 _ (noSearch placed.1 (List.fst_mem_of_mem_zipIdx member))
  refine ids.trans ?_
  rw [← List.flatMap_map Prod.fst itemBlocks, List.zipIdx_map_fst]

def thinkingBlock (reasoning : String) : List AnthropicContentBlock :=
  if reasoning ≠ "" then [{ type := .thinking, thinking := reasoning }] else []

/-- The text of the message: reasoning stands in for an answer that has nothing else. -/
def answerText (message : ChatMessage) : String :=
  if chatMessageContentText message.content = "" ∧ trimSpace message.reasoningText ≠ "" ∧
    message.toolCalls = [] then message.reasoningText
  else chatMessageContentText message.content

/-- The blocks of the way over Responses, before an empty text stands in for none. -/
def composedBlocks (message : ChatMessage) : List AnthropicContentBlock :=
  thinkingBlock message.reasoningText ++
    (if answerText message ≠ "" then [{ type := .text, text := answerText message }] else []) ++
    (message.toolCalls.filter fun call => Unbroken call).map toolUseBlock

theorem direct_blocks (message : ChatMessage) :
    chatMessageToAnthropicBlocks message =
      thinkingBlock message.reasoningText ++
        (if answerText message ≠ "" ∨ message.toolCalls = [] then
          [{ type := .text, text := answerText message }] else []) ++
        message.toolCalls.map toolUseBlock := rfl

theorem direct_ne (message : ChatMessage) : chatMessageToAnthropicBlocks message ≠ [] := by
  intro empty
  rw [direct_blocks] at empty
  obtain ⟨before, calls⟩ := List.append_eq_nil_iff.mp empty
  obtain ⟨_, text⟩ := List.append_eq_nil_iff.mp before
  rw [if_pos (Or.inr (List.map_eq_nil_iff.mp calls))] at text
  cases text

theorem eq_of_mem_ite {α : Type} {p : Prop} [Decidable p] {x y : α}
    (member : x ∈ if p then [y] else []) : x = y := by
  split at member
  · exact List.mem_singleton.mp member
  · cases member

theorem noSearch_output (message : ChatMessage) :
    ∀ item ∈ chatMessageToResponsesOutput { setting with tools := {} } message,
      item.type ≠ .webSearchCall := by
  intro item member
  unfold chatMessageToResponsesOutput at member
  dsimp only at member
  rcases List.mem_append.mp member with before | call
  · rcases List.mem_append.mp before with reasoning | text
    · rw [eq_of_mem_ite reasoning]
      intro contra
      cases contra
    · rw [eq_of_mem_ite text]
      intro contra
      cases contra
  · obtain ⟨origin, _, made⟩ := List.mem_filterMap.mp call
    rw [callOutput_plain] at made
    split at made
    · cases made
      intro contra
      cases contra
    · cases made

theorem output_blocks (message : ChatMessage) :
    (chatMessageToResponsesOutput { setting with tools := {} } message).flatMap itemBlocks =
      composedBlocks message := by
  have reasoning : (if message.reasoningText ≠ "" then [reasoningOutput message.reasoningText]
      else []).flatMap itemBlocks = thinkingBlock message.reasoningText := by
    unfold thinkingBlock
    by_cases said : message.reasoningText = ""
    · rw [if_neg (not_not.mpr said), if_neg (not_not.mpr said)]
      rfl
    · rw [if_pos said, if_pos said, List.flatMap_singleton]
      have joined : String.join [message.reasoningText] = message.reasoningText := by simp
      simp [itemBlocks, reasoningOutput, said, joined]
  have text : (if answerText message ≠ "" ∨ message.toolCalls = [] then
      [messageOutput (answerText message)] else []).flatMap itemBlocks =
      if answerText message ≠ "" then [{ type := .text, text := answerText message }] else [] := by
    by_cases said : answerText message = ""
    · rw [if_neg (not_not.mpr said)]
      split
      · rw [List.flatMap_singleton]
        simp [itemBlocks, messageOutput, said]
      · rfl
    · rw [if_pos said, if_pos (Or.inl said), List.flatMap_singleton]
      simp [itemBlocks, messageOutput, said]
  have whole : chatMessageToResponsesOutput { setting with tools := {} } message =
      (if message.reasoningText ≠ "" then [reasoningOutput message.reasoningText] else []) ++
        (if answerText message ≠ "" ∨ message.toolCalls = [] then
          [messageOutput (answerText message)] else []) ++
        message.toolCalls.filterMap (callOutput { setting with tools := {} }) := rfl
  rw [whole, List.flatMap_append, List.flatMap_append, reasoning, text, callBlocks]
  rfl

/-! ### The comparison -/

/-- Where the way over Responses ends: without blocks there is an empty text. -/
def orEmptyText (blocks : List AnthropicContentBlock) : List AnthropicContentBlock :=
  if blocks = [] then [{ type := .text, text := "" }] else blocks

theorem toolUse_count (message : ChatMessage) :
    (chatMessageToAnthropicBlocks message).countP (fun block => block.type = .toolUse) =
      message.toolCalls.length := by
  have calls : (message.toolCalls.map toolUseBlock).countP (fun block => block.type = .toolUse) =
      message.toolCalls.length := by
    rw [List.countP_map, List.countP_eq_length.mpr]
    intro call _
    rfl
  rw [direct_blocks, List.countP_append, List.countP_append, calls]
  unfold thinkingBlock
  split <;> split <;> simp

theorem composed_count (message : ChatMessage) :
    (orEmptyText (composedBlocks message)).countP (fun block => block.type = .toolUse) =
      (message.toolCalls.filter fun call => Unbroken call).length := by
  have calls : ((message.toolCalls.filter fun call => Unbroken call).map toolUseBlock).countP
      (fun block => block.type = .toolUse) =
        (message.toolCalls.filter fun call => Unbroken call).length := by
    rw [List.countP_map, List.countP_eq_length.mpr]
    intro call _
    rfl
  have composed : (composedBlocks message).countP (fun block => block.type = .toolUse) =
      (message.toolCalls.filter fun call => Unbroken call).length := by
    unfold composedBlocks thinkingBlock
    rw [List.countP_append, List.countP_append, calls]
    split <;> split <;> simp
  unfold orEmptyText
  split
  · rename_i nothing
    rw [nothing] at composed
    exact composed
  · exact composed

theorem answerText_empty (message : ChatMessage) :
    answerText message = "" ∧ message.toolCalls = [] ↔
      chatMessageContentText message.content = "" ∧ trimSpace message.reasoningText = "" ∧
        message.toolCalls = [] := by
  unfold answerText
  by_cases falls : chatMessageContentText message.content = "" ∧
      trimSpace message.reasoningText ≠ "" ∧ message.toolCalls = []
  · rw [if_pos falls]
    refine iff_of_false ?_ ?_
    · rintro ⟨unsaid, _⟩
      rw [unsaid] at falls
      exact falls.2.1 rfl
    · rintro ⟨_, blank, _⟩
      exact falls.2.1 blank
  · rw [if_neg falls]
    constructor
    · rintro ⟨unsaid, noCalls⟩
      refine ⟨unsaid, ?_, noCalls⟩
      by_contra some_
      exact falls ⟨unsaid, some_, noCalls⟩
    · rintro ⟨unsaid, _, noCalls⟩
      exact ⟨unsaid, noCalls⟩

/-- The blocks are the same unless a call is broken or the empty text follows blank reasoning. -/
theorem blocks_iff (message : ChatMessage) :
    chatMessageToAnthropicBlocks message = orEmptyText (composedBlocks message) ↔
      (∀ call ∈ message.toolCalls, Unbroken call) ∧ ¬OnlyBlankReasoning message := by
  by_cases unbroken : ∀ call ∈ message.toolCalls, Unbroken call
  · have kept : message.toolCalls.filter (fun call => Unbroken call) = message.toolCalls :=
      List.filter_eq_self.mpr fun call member => by simpa using unbroken call member
    have composed : composedBlocks message = thinkingBlock message.reasoningText ++
        (if answerText message ≠ "" then [{ type := .text, text := answerText message }] else []) ++
        message.toolCalls.map toolUseBlock := by
      unfold composedBlocks
      rw [kept]
    rw [and_iff_right unbroken]
    by_cases silent : answerText message = "" ∧ message.toolCalls = []
    · have blank := (answerText_empty message).mp silent
      have direct : chatMessageToAnthropicBlocks message =
          thinkingBlock message.reasoningText ++ [{ type := .text, text := "" }] := by
        rw [direct_blocks, if_pos (Or.inr silent.2), silent.1, silent.2]
        exact List.append_nil _
      have composed' : composedBlocks message = thinkingBlock message.reasoningText := by
        rw [composed, if_neg (not_not.mpr silent.1), silent.2]
        simp
      rw [direct, composed']
      unfold orEmptyText thinkingBlock
      by_cases said : message.reasoningText = ""
      · rw [if_neg (not_not.mpr said)]
        exact iff_of_true rfl fun only => only.2.2.1 said
      · rw [if_pos said]
        refine iff_of_false ?_ ?_
        · intro same
          have lengths := congrArg List.length same
          simp at lengths
        · intro other
          exact other ⟨blank.1, silent.2, said, blank.2.1⟩
    · have same : chatMessageToAnthropicBlocks message = composedBlocks message := by
        rw [direct_blocks, composed]
        have iff : answerText message ≠ "" ∨ message.toolCalls = [] ↔ answerText message ≠ "" := by
          tauto
        simp only [iff]
      have nonempty := direct_ne message
      rw [same] at nonempty ⊢
      unfold orEmptyText
      rw [if_neg nonempty]
      refine iff_of_true rfl ?_
      rintro ⟨unsaid, noCalls, _, blank⟩
      exact silent ((answerText_empty message).mpr ⟨unsaid, blank, noCalls⟩)
  · refine iff_of_false ?_ fun kept => unbroken kept.1
    intro same
    have counts := congrArg (List.countP fun block => block.type = .toolUse) same
    rw [toolUse_count, composed_count] at counts
    refine unbroken fun call member => ?_
    have all := List.length_filter_eq_length_iff.mp counts.symm
    simpa using all call member

/-- With the same blocks the stop reasons differ only over a finish reason without a call. -/
theorem stopReason_iff {reason : String} {blocks : List AnthropicContentBlock}
    {status : ResponsesStatus} {details : Option ResponsesIncompleteDetails}
    (ends : status = if reason = "length" then .incomplete else .completed)
    (cut : reason = "length" → details = some { reason := "max_output_tokens" }) :
    chatFinishReasonToAnthropicStopReason reason blocks =
        responsesStatusToAnthropicStopReason status details blocks ↔
      ¬(reason = "tool_calls" ∧ containsAnthropicToolUseBlock blocks = false) := by
  unfold chatFinishReasonToAnthropicStopReason responsesStatusToAnthropicStopReason
    containsAnthropicToolUseBlock
  by_cases long : reason = "length"
  · rw [if_pos long] at ends ⊢
    rw [ends, cut long]
    simp [long]
  · rw [if_neg long] at ends ⊢
    rw [ends]
    by_cases calls : reason = "tool_calls"
    · rw [if_pos calls]
      cases used : blocks.any fun block => block.type = .toolUse with
      | true => simp
      | false => simp [calls]
    · rw [if_neg calls]
      simp [calls]

theorem toolUse_iff (message : ChatMessage) :
    containsAnthropicToolUseBlock (chatMessageToAnthropicBlocks message) = false ↔
      message.toolCalls = [] := by
  have count := toolUse_count message
  unfold containsAnthropicToolUseBlock
  rw [← List.length_eq_zero_iff, ← count, List.countP_eq_zero]
  simp

/-- The response keeps what matters on the way over Responses. -/
structure KeptAnswer (resp : ChatCompletionsResponse) : Prop where
  choice : ∀ choice, resp.choices.head? = some choice → KeptChoice choice
  usage : ∀ usage, resp.usage = some usage → KeptUsage usage

theorem viaResponses_choice {now : ℤ} {resp : ChatCompletionsResponse} {model : String}
    {choice : ChatChoice} {others : List ChatChoice} (chosen : resp.choices = choice :: others) :
    (viaResponses setting now resp model).content = orEmptyText (composedBlocks choice.message) ∧
      (viaResponses setting now resp model).stopReason =
        some (responsesStatusToAnthropicStopReason
          (if choice.finishReason = "length" then .incomplete else .completed)
          (if choice.finishReason = "length" then some { reason := "max_output_tokens" } else none)
          (orEmptyText (composedBlocks choice.message))) := by
  have output : (chatCompletionsResponseToResponses { setting with tools := {} } now resp
      model).output.flatMap itemBlocks = composedBlocks choice.message := by
    unfold chatCompletionsResponseToResponses
    rw [chosen]
    dsimp only
    by_cases nothing :
        chatMessageToResponsesOutput { setting with tools := {} } choice.message = []
    · have empty := @output_blocks setting choice.message
      rw [nothing] at empty
      rw [if_pos nothing]
      have blocks : (withItemIDs { setting with tools := {} } (if resp.id = "" then 1 else 0)
          [messageOutput ""]).flatMap itemBlocks = [] := rfl
      split
      · exact blocks.trans empty
      · exact blocks.trans empty
    · rw [if_neg nothing]
      have blocks := (@withItemIDs_blocks { setting with tools := {} }
        (if resp.id = "" then 1 else 0) _ (@noSearch_output setting choice.message)).trans
        (output_blocks choice.message)
      split
      · exact blocks
      · exact blocks
  have state : (chatCompletionsResponseToResponses { setting with tools := {} } now resp
        model).status = (if choice.finishReason = "length" then .incomplete else .completed) ∧
      (chatCompletionsResponseToResponses { setting with tools := {} } now resp
        model).incompleteDetails =
        if choice.finishReason = "length" then some { reason := "max_output_tokens" } else none := by
    unfold chatCompletionsResponseToResponses
    rw [chosen]
    dsimp only
    split
    · exact ⟨rfl, rfl⟩
    · exact ⟨rfl, rfl⟩
  unfold viaResponses responsesToAnthropic
  dsimp only
  rw [output, state.1, state.2]
  exact ⟨rfl, rfl⟩

theorem viaResponses_usage {now : ℤ} {resp : ChatCompletionsResponse} {model : String} :
    (viaResponses setting now resp model).usage =
      ((resp.usage.map chatUsageToResponsesUsage).map anthropicUsageFromResponsesUsage).getD {} := by
  unfold viaResponses responsesToAnthropic chatCompletionsResponseToResponses
  dsimp only
  cases resp.choices with
  | nil => rfl
  | cons choice others =>
    dsimp only
    split <;> rfl

/-- For every response: the direct bridge has the blocks, the stop reason and the usage of the way
over Responses if and only if no call is broken, blank reasoning is not all there is, the finish
reason `tool_calls` comes with a call, and token details have a positive count or are zero. -/
theorem direct_eq_viaResponses_iff (setting : ChatSetting) (now : ℤ)
    (resp : ChatCompletionsResponse) (model : String) :
    SameAnswer (chatCompletionsResponseToAnthropic setting resp model)
        (viaResponses setting now resp model) ↔ KeptAnswer resp := by
  have usage : (chatCompletionsResponseToAnthropic setting resp model).usage =
      (viaResponses setting now resp model).usage ↔
        ∀ usage, resp.usage = some usage → KeptUsage usage := by
    rw [viaResponses_usage]
    unfold chatCompletionsResponseToAnthropic
    dsimp only
    cases resp.usage with
    | none => simp
    | some usage => simpa using @usage_iff usage
  have content : ((chatCompletionsResponseToAnthropic setting resp model).content =
        (viaResponses setting now resp model).content ∧
      (chatCompletionsResponseToAnthropic setting resp model).stopReason =
        (viaResponses setting now resp model).stopReason) ↔
        ∀ choice, resp.choices.head? = some choice → KeptChoice choice := by
    cases chosen : resp.choices with
    | nil =>
      refine iff_of_true ?_ (by simp)
      unfold chatCompletionsResponseToAnthropic viaResponses chatCompletionsResponseToResponses
      rw [chosen]
      exact ⟨rfl, rfl⟩
    | cons choice others =>
      obtain ⟨composed, stops⟩ := @viaResponses_choice setting now resp model choice others chosen
      have direct : (chatCompletionsResponseToAnthropic setting resp model).content =
          chatMessageToAnthropicBlocks choice.message := by
        unfold chatCompletionsResponseToAnthropic
        rw [chosen]
        exact if_neg (direct_ne choice.message)
      have directStop : (chatCompletionsResponseToAnthropic setting resp model).stopReason =
          some (chatFinishReasonToAnthropicStopReason choice.finishReason
            (chatCompletionsResponseToAnthropic setting resp model).content) := by
        unfold chatCompletionsResponseToAnthropic
        rw [chosen]
        rfl
      rw [directStop, stops, direct, composed, blocks_iff]
      simp only [List.head?_cons, Option.some.injEq, forall_eq']
      constructor
      · rintro ⟨same, stop⟩
        rw [← (blocks_iff choice.message).mpr same,
          stopReason_iff rfl (fun long => if_pos long), toolUse_iff] at stop
        exact ⟨same.1, same.2, stop⟩
      · rintro ⟨unbroken, spoken, reason⟩
        refine ⟨⟨unbroken, spoken⟩, ?_⟩
        rw [← (blocks_iff choice.message).mpr ⟨unbroken, spoken⟩,
          stopReason_iff rfl (fun long => if_pos long), toolUse_iff]
        exact reason
  constructor
  · rintro ⟨sameContent, sameStop, sameUsage⟩
    exact ⟨content.mp ⟨sameContent, sameStop⟩, usage.mp sameUsage⟩
  · rintro ⟨choice, kept⟩
    obtain ⟨sameContent, sameStop⟩ := content.mpr choice
    exact ⟨sameContent, sameStop, usage.mpr kept⟩

namespace ChatSample

/-- A response that was cut within the arguments of its call. -/
def cutCall : ChatCompletionsResponse :=
  { id := "c"
    choices :=
      [{ message := { toolCalls := [{ id := "call_1"
                                      function := { name := "ls", arguments := "\x7b" } }] }
         finishReason := "length" }] }

end ChatSample

/-- The call stays on the direct way and is dropped on the other. -/
theorem direct_ne_viaResponses_cutCall :
    ¬SameAnswer (chatCompletionsResponseToAnthropic ChatSample.patching ChatSample.cutCall "m")
      (viaResponses ChatSample.patching 0 ChatSample.cutCall "m") := by
  intro same
  have content := same.content
  revert content
  decide +kernel

end Sub2api.ApiCompat
