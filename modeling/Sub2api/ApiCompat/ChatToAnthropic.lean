import Sub2api.ApiCompat.ChatToResponses
import Sub2api.ApiCompat.ResponsesToAnthropic

/-!
# Chat Completions to Anthropic

The direct bridge: a finished response, and the stateful converter of the stream's chunks. The
fragments of a chunk are those of the bridge to Responses. Blocks come one after the other, while
fragments of several calls may alternate; the block of a call is announced once its name is known.
-/

namespace Sub2api.ApiCompat

open Go Transducer
open ToAnthropic (blockStart blockDelta blockStop messageEnd)
open ChatToResponses (ChatInput fragments)

/-! ### The finished response -/

/-- The block of a call. -/
def toolUseBlock (call : ChatToolCall) : AnthropicContentBlock :=
  { type := .toolUse, id := fromResponsesCallID call.id, name := call.function.name
    input := sanitizeAnthropicToolUseInput call.function.name
      (finishedArguments call.function.arguments) }

/-- `chatMessageToAnthropicBlocks`. -/
def chatMessageToAnthropicBlocks (message : ChatMessage) : List AnthropicContentBlock :=
  let reasoning := message.reasoningText
  let content := chatMessageContentText message.content
  let text :=
    if content = "" ∧ trimSpace reasoning ≠ "" ∧ message.toolCalls = [] then reasoning
    else content
  (if reasoning ≠ "" then [{ type := .thinking, thinking := reasoning }] else []) ++
    (if text ≠ "" ∨ message.toolCalls = [] then [{ type := .text, text := text }] else []) ++
    message.toolCalls.map toolUseBlock

/-- `containsAnthropicToolUseBlock`. -/
def containsAnthropicToolUseBlock (blocks : List AnthropicContentBlock) : Bool :=
  blocks.any fun block => block.type = .toolUse

/-- `chatFinishReasonToAnthropicStopReason`. -/
def chatFinishReasonToAnthropicStopReason (reason : String) (blocks : List AnthropicContentBlock) :
    String :=
  if reason = "length" then "max_tokens"
  else if reason = "tool_calls" then "tool_use"
  else if containsAnthropicToolUseBlock blocks then "tool_use" else "end_turn"

/-- `chatUsageToAnthropicUsage`. -/
def chatUsageToAnthropicUsage (usage : ChatUsage) : AnthropicUsage :=
  let details := usage.promptTokensDetails.getD {}
  let cachedTokens := details.cachedTokens
  let cacheCreationTokens :=
    if details.cacheWriteTokens > 0 then details.cacheWriteTokens else details.cacheCreationTokens
  let inputTokens := usage.promptTokens - cachedTokens - cacheCreationTokens
  { inputTokens := if inputTokens < 0 then 0 else inputTokens
    outputTokens := usage.completionTokens
    cacheReadInputTokens := cachedTokens
    cacheCreationInputTokens := cacheCreationTokens }

/-- `ChatCompletionsResponseToAnthropic`; only the first choice counts, and a stop reason is never
empty. -/
def chatCompletionsResponseToAnthropic (setting : ChatSetting) (resp : ChatCompletionsResponse)
    (model : String) : AnthropicResponse :=
  let blocks := (resp.choices.head?.map fun choice =>
    chatMessageToAnthropicBlocks choice.message).getD []
  let content := if blocks = [] then [{ type := .text, text := "" }] else blocks
  let reason := (resp.choices.head?.map (·.finishReason)).getD ""
  { id := if resp.id = "" then "resp_" ++ hexEncode (setting.randomBytes 0) else resp.id
    model := if model = "" then resp.model else model
    content := content
    stopReason := some (chatFinishReasonToAnthropicStopReason reason content)
    usage := (resp.usage.map chatUsageToAnthropicUsage).getD {} }

/-! ### The state of a stream -/

/-- `ChatCompletionsToAnthropicStreamState`. The maps are keyed by the upstream's index of a call;
`pendingToolCallID` has the calls that wait for their names. -/
structure ChatCompletionsToAnthropicStreamState where
  messageStartSent : Bool := false
  messageStopSent : Bool := false
  contentBlockIndex : ℤ := 0
  contentBlockOpen : Bool := false
  currentBlockType : Option BlockType := none
  currentToolHadDelta : Bool := false
  hasToolCall : Bool := false
  toolBlockIndex : ℤ → ℤ := fun _ => 0
  toolAnnounced : ℤ → Option Bool := fun _ => none
  pendingToolCallID : List (ℤ × String) := []
  pendingToolArgs : ℤ → String := fun _ => ""
  finishReason : String := ""
  usage : AnthropicUsage := {}
  responseID : String := ""
  model : String := ""
  generated : ℕ := 0

abbrev ChatToAnthropic := ChatCompletionsToAnthropicStreamState × List AnthropicStreamEvent

namespace ChatToAnthropic

open ChatCompletionsToAnthropicStreamState

/-- `NewChatCompletionsToAnthropicStreamState`. -/
def newState (setting : ChatSetting) (model : String) : ChatCompletionsToAnthropicStreamState :=
  { responseID := "resp_" ++ hexEncode (setting.randomBytes 0), model := model, generated := 1 }

/-! ### Blocks -/

/-- `ensureCCAnthropicMessageStart`. -/
def ensureCCAnthropicMessageStart (state : ChatCompletionsToAnthropicStreamState) :
    ChatToAnthropic :=
  if state.messageStartSent then (state, [])
  else
    ({ state with messageStartSent := true },
     [{ type := .messageStart
        message := some { id := state.responseID, model := state.model } }])

/-- What a call without arguments gets in the end. -/
def emptyInputDelta (state : ChatCompletionsToAnthropicStreamState) : List AnthropicStreamEvent :=
  if state.currentBlockType = some .toolUse ∧ state.currentToolHadDelta = false then
    [blockDelta state.contentBlockIndex { type := .inputJSON, partialJSON := "\x7b\x7d" }]
  else []

/-- `closeCCAnthropicBlock`. -/
def closeCCAnthropicBlock (state : ChatCompletionsToAnthropicStreamState) : ChatToAnthropic :=
  if state.contentBlockOpen = false then (state, [])
  else
    ({ state with
       contentBlockOpen := false
       contentBlockIndex := state.contentBlockIndex + 1
       currentBlockType := none
       currentToolHadDelta := false },
     emptyInputDelta state ++ [blockStop state.contentBlockIndex])

/-- `closeCCAnthropicBlockIfOpen`. -/
def closeCCAnthropicBlockIfOpen (state : ChatCompletionsToAnthropicStreamState)
    (blockType : BlockType) : ChatToAnthropic :=
  if state.contentBlockOpen = false ∨ state.currentBlockType ≠ some blockType then (state, [])
  else closeCCAnthropicBlock state

/-- `ensureCCAnthropicThinkingBlock` and `ensureCCAnthropicTextBlock`. -/
def ensureBlock (type : BlockType) (state : ChatCompletionsToAnthropicStreamState) :
    ChatToAnthropic :=
  if state.contentBlockOpen ∧ state.currentBlockType = some type then (state, [])
  else
    andThen (closeCCAnthropicBlock state) fun state =>
      ({ state with contentBlockOpen := true, currentBlockType := some type },
       [blockStart state.contentBlockIndex { type := type }])

def ensureCCAnthropicThinkingBlock (state : ChatCompletionsToAnthropicStreamState) :
    ChatToAnthropic :=
  ensureBlock .thinking state

def ensureCCAnthropicTextBlock (state : ChatCompletionsToAnthropicStreamState) : ChatToAnthropic :=
  ensureBlock .text state

/-- `ccAnthropicDelta`. -/
def ccAnthropicDelta (delta : AnthropicDelta) (state : ChatCompletionsToAnthropicStreamState) :
    ChatToAnthropic :=
  (state, if state.contentBlockOpen then [blockDelta state.contentBlockIndex delta] else [])

/-! ### Calls -/

/-- The state once the next block is a call's. -/
def openToolBlock (idx : ℤ) (state : ChatCompletionsToAnthropicStreamState) :
    ChatCompletionsToAnthropicStreamState :=
  { state with
    toolBlockIndex := Function.update state.toolBlockIndex idx state.contentBlockIndex
    toolAnnounced := Function.update state.toolAnnounced idx (some true)
    currentToolHadDelta := false
    contentBlockOpen := true
    currentBlockType := some .toolUse
    pendingToolCallID := state.pendingToolCallID.filter fun entry => entry.1 ≠ idx }

/-- The arguments that came before the announcement. -/
def flushToolArgs (idx : ℤ) (state : ChatCompletionsToAnthropicStreamState) : ChatToAnthropic :=
  if state.pendingToolArgs idx = "" then (state, [])
  else
    ({ state with
       pendingToolArgs := Function.update state.pendingToolArgs idx ""
       currentToolHadDelta := true },
     [blockDelta state.contentBlockIndex
       { type := .inputJSON, partialJSON := state.pendingToolArgs idx }])

/-- `announceCCAnthropicToolBlock`. -/
def announceCCAnthropicToolBlock (idx : ℤ) (callID name : String)
    (state : ChatCompletionsToAnthropicStreamState) : ChatToAnthropic :=
  andThen
    (openToolBlock idx state,
     [blockStart state.contentBlockIndex
       { type := .toolUse, id := fromResponsesCallID callID, name := name, input := "\x7b\x7d" }])
    (flushToolArgs idx)

/-- The id under which a call is announced, unless the announcing fragment has its own. -/
def pendingCallID (idx : ℤ) (state : ChatCompletionsToAnthropicStreamState) : String :=
  (state.pendingToolCallID.lookup idx).getD ""

/-- The first fragment of a call. It ends the open block. -/
def startTool (setting : ChatSetting) (idx : ℤ) (call : ChatToolCall)
    (state : ChatCompletionsToAnthropicStreamState) : ChatToAnthropic :=
  andThen (closeCCAnthropicBlock state) fun state =>
    let callID := if call.id = "" then generatedItemID setting state.generated else call.id
    let state := { state with
      hasToolCall := true
      generated := if call.id = "" then state.generated + 1 else state.generated }
    if call.function.name ≠ "" then
      announceCCAnthropicToolBlock idx callID call.function.name state
    else
      ({ state with
         toolAnnounced := Function.update state.toolAnnounced idx (some false)
         pendingToolCallID := state.pendingToolCallID ++ [(idx, callID)] }, [])

/-- A fragment's call is announced now, later or already. -/
def announceTool (setting : ChatSetting) (idx : ℤ) (call : ChatToolCall)
    (state : ChatCompletionsToAnthropicStreamState) : ChatToAnthropic :=
  match state.toolAnnounced idx with
  | none => startTool setting idx call state
  | some true => (state, [])
  | some false =>
    if call.function.name = "" then (state, [])
    else
      let callID := if call.id ≠ "" then call.id else pendingCallID idx state
      andThen (closeCCAnthropicBlock state)
        (announceCCAnthropicToolBlock idx callID call.function.name)

/-- Arguments go to the call's block, whether or not that is open, once it is announced. -/
def addToolArgs (idx : ℤ) (arguments : String) (state : ChatCompletionsToAnthropicStreamState) :
    ChatToAnthropic :=
  if arguments = "" then (state, [])
  else if state.toolAnnounced idx = some true then
    let blockIdx := state.toolBlockIndex idx
    ({ state with
       currentToolHadDelta := state.currentToolHadDelta ||
         (state.contentBlockOpen && blockIdx == state.contentBlockIndex) },
     [blockDelta blockIdx { type := .inputJSON, partialJSON := arguments }])
  else
    ({ state with
       pendingToolArgs := Function.update state.pendingToolArgs idx
         (state.pendingToolArgs idx ++ arguments) }, [])

/-- `handleCCAnthropicToolCall`. -/
def handleCCAnthropicToolCall (setting : ChatSetting) (call : ChatToolCall)
    (state : ChatCompletionsToAnthropicStreamState) : ChatToAnthropic :=
  let idx := call.index.getD 0
  andThen (announceTool setting idx call state) (addToolArgs idx call.function.arguments)

/-! ### Chunks -/

def handleHead (chunk : ChatCompletionsChunk) (state : ChatCompletionsToAnthropicStreamState) :
    ChatToAnthropic :=
  ensureCCAnthropicMessageStart
    { state with
      responseID := if chunk.id ≠ "" then chunk.id else state.responseID
      model := if state.model = "" ∧ chunk.model ≠ "" then chunk.model else state.model
      usage := (chunk.usage.map chatUsageToAnthropicUsage).getD state.usage }

def handleReasoning (text : String) (state : ChatCompletionsToAnthropicStreamState) :
    ChatToAnthropic :=
  if text = "" then (state, [])
  else
    andThen (ensureCCAnthropicThinkingBlock state)
      (ccAnthropicDelta { type := .thinking, thinking := text })

def handleContent (text : String) (state : ChatCompletionsToAnthropicStreamState) :
    ChatToAnthropic :=
  if text = "" then (state, [])
  else
    andThen (closeCCAnthropicBlockIfOpen state .thinking) fun state =>
      andThen (ensureCCAnthropicTextBlock state)
        (ccAnthropicDelta { type := .text, text := text })

def handleToolCall (setting : ChatSetting) (call : ChatToolCall)
    (state : ChatCompletionsToAnthropicStreamState) : ChatToAnthropic :=
  andThen (closeCCAnthropicBlockIfOpen state .thinking) (handleCCAnthropicToolCall setting call)

/-- This converter has no caller that closes messages or looks for degeneration. -/
def handleInput (setting : ChatSetting) (state : ChatCompletionsToAnthropicStreamState) :
    ChatInput → ChatToAnthropic
  | .head chunk => handleHead chunk state
  | .reasoning text => handleReasoning text state
  | .content text => handleContent text state
  | .toolCall call => handleToolCall setting call state
  | .finishReason reason =>
    (if reason ≠ "" then { state with finishReason := reason } else state, [])
  | .closeMessage | .degenerated => (state, [])

end ChatToAnthropic

open ChatToAnthropic

/-- `ChatCompletionsChunkToAnthropicEvents`. -/
def chatCompletionsChunkToAnthropicEvents (setting : ChatSetting)
    (state : ChatCompletionsToAnthropicStreamState) (chunk : ChatCompletionsChunk) :
    ChatToAnthropic :=
  run (handleInput setting) state (fragments chunk)

namespace ChatToAnthropic

/-! ### The end -/

/-- The calls whose names never came, by their indices. -/
def pendingCalls (state : ChatCompletionsToAnthropicStreamState) : List (ℤ × String) :=
  state.pendingToolCallID.insertionSort fun a b => a.1 ≤ b.1

/-- A call whose name never came is announced without one. -/
def announcePending (state : ChatCompletionsToAnthropicStreamState) (pending : ℤ × String) :
    ChatToAnthropic :=
  andThen (closeCCAnthropicBlock state) (announceCCAnthropicToolBlock pending.1 pending.2 "")

/-- `ccFinishReasonToAnthropicStopReason`. -/
def ccFinishReasonToAnthropicStopReason (reason : String) (hasToolCall : Bool) : String :=
  if reason = "length" then "max_tokens"
  else if reason = "tool_calls" then "tool_use"
  else if hasToolCall then "tool_use" else "end_turn"

def completeMessage (state : ChatCompletionsToAnthropicStreamState) : ChatToAnthropic :=
  ({ state with messageStopSent := true },
   messageEnd (ccFinishReasonToAnthropicStopReason state.finishReason state.hasToolCall)
     state.usage)

/-- `FinalizeChatCompletionsAnthropicStream`. -/
def finalizeChatCompletionsAnthropicStream (state : ChatCompletionsToAnthropicStreamState) :
    ChatToAnthropic :=
  if state.messageStopSent then (state, [])
  else
    andThen (ensureCCAnthropicMessageStart state) fun state =>
    andThen (run announcePending state (pendingCalls state)) fun state =>
    andThen (closeCCAnthropicBlock state) completeMessage

/-- The Anthropic stream of some chunks, finalized. -/
def anthropicStream (setting : ChatSetting) (model : String) (chunks : List ChatCompletionsChunk) :
    List AnthropicStreamEvent :=
  (andThen (run (chatCompletionsChunkToAnthropicEvents setting) (newState setting model) chunks)
    finalizeChatCompletionsAnthropicStream).2

end ChatToAnthropic

end Sub2api.ApiCompat
