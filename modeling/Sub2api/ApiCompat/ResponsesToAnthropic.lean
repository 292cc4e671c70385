import Mathlib.Logic.Function.Basic
import Sub2api.ApiCompat.Types
import Sub2api.Transducer.Observed

/-!
# Responses to Anthropic

A finished response as an Anthropic message, and the stateful converter of the stream's events.
A handler takes the state and gives the state after it with the events it emits.
-/

namespace Sub2api.ApiCompat

open Go

/-! ### Shared pieces -/

/-- `fromResponsesCallID`. -/
def fromResponsesCallID (id : String) : String :=
  if hasPrefix id "fc_toolu_" ∨ hasPrefix id "fc_call_" then String.ofList (id.toList.drop 3) else id

/-- `anthropicUsageFromResponsesUsage`. -/
def anthropicUsageFromResponsesUsage (usage : ResponsesUsage) : AnthropicUsage :=
  let cachedTokens := (usage.inputTokensDetails.map (·.cachedTokens)).getD 0
  let inputTokens := usage.inputTokens - cachedTokens - usage.cacheCreationInputTokens
  { inputTokens := if inputTokens < 0 then 0 else inputTokens
    outputTokens := usage.outputTokens
    cacheReadInputTokens := cachedTokens
    cacheCreationInputTokens := usage.cacheCreationInputTokens }

/-- `sanitizeAnthropicToolUseInput`: an empty `pages` argument of `Read` is dropped. -/
def sanitizeAnthropicToolUseInput (name raw : String) : String :=
  if name ≠ "Read" ∨ raw = "" then raw
  else
    match Json.unmarshalMap raw with
    | none => raw
    | some input =>
      if input.lookup "pages" = some "\"\"" then
        Json.marshalMap (input.filter fun member => member.1 ≠ "pages")
      else raw

/-- The block of a finished web search, and the block of its results, which are not known. -/
def webSearchBlocks (item : ResponsesOutput) : AnthropicContentBlock × AnthropicContentBlock :=
  let toolUseID := "srvtoolu_" ++ item.id
  let query := (item.action.map (·.query)).getD ""
  ({ type := .serverToolUse, id := toolUseID, name := "web_search"
     input := Json.object [("query", Json.marshalString query)] },
   { type := .webSearchToolResult, toolUseID := toolUseID, content := "[]" })

/-! ### The finished response -/

/-- The blocks of one output item. -/
def itemBlocks (item : ResponsesOutput) : List AnthropicContentBlock :=
  match item.type with
  | .reasoning =>
    let summaryText := String.join
      ((item.summary.filter fun s => s.type = .summaryText).map (·.text))
    if summaryText ≠ "" ∨ trimSpace item.encryptedContent ≠ "" then
      [{ type := .thinking, thinking := summaryText, signature := item.encryptedContent }]
    else []
  | .message =>
    (item.content.filter fun part => part.type = .outputText ∧ part.text ≠ "").map fun part =>
      { type := .text, text := part.text }
  | .functionCall =>
    [{ type := .toolUse, id := fromResponsesCallID item.callID, name := item.name
       input := sanitizeAnthropicToolUseInput item.name item.arguments }]
  | .webSearchCall => [(webSearchBlocks item).1, (webSearchBlocks item).2]
  | _ => []

/-- `responsesStatusToAnthropicStopReason`. -/
def responsesStatusToAnthropicStopReason (status : ResponsesStatus)
    (details : Option ResponsesIncompleteDetails) (blocks : List AnthropicContentBlock) : String :=
  match status with
  | .incomplete =>
    if details.map (·.reason) = some "max_output_tokens" then "max_tokens" else "end_turn"
  | .completed => if blocks.any fun block => block.type = .toolUse then "tool_use" else "end_turn"
  | _ => "end_turn"

/-- `ResponsesToAnthropic`. -/
def responsesToAnthropic (resp : ResponsesResponse) (model : String) : AnthropicResponse :=
  let blocks := resp.output.flatMap itemBlocks
  let blocks := if blocks = [] then [{ type := .text, text := "" }] else blocks
  { id := resp.id
    model := model
    content := blocks
    stopReason := some
      (responsesStatusToAnthropicStopReason resp.status resp.incompleteDetails blocks)
    usage := (resp.usage.map anthropicUsageFromResponsesUsage).getD {} }

/-! ### The stream -/

/-- `responsesTextPart`: an output index and a content index. -/
abbrev ResponsesTextPart := ℤ × ℤ

/-- `ResponsesEventToAnthropicState`. -/
structure ResponsesEventToAnthropicState where
  messageStartSent : Bool := false
  messageStopSent : Bool := false
  contentBlockIndex : ℤ := 0
  contentBlockOpen : Bool := false
  currentBlockType : Option BlockType := none
  currentToolName : String := ""
  currentToolArgs : String := ""
  currentToolHadDelta : Bool := false
  pendingThinkingSignature : String := ""
  hasToolCall : Bool := false
  outputIndexToBlockIdx : ℤ → Option ℤ := fun _ => none
  textByPart : ResponsesTextPart → Option String := fun _ => none
  textDelivered : Bool := false
  usage : AnthropicUsage := {}
  responseID : String := ""
  model : String := ""

abbrev ToAnthropic := ResponsesEventToAnthropicState × List AnthropicStreamEvent

namespace ToAnthropic

open ResponsesEventToAnthropicState

def blockStart (index : ℤ) (block : AnthropicContentBlock) : AnthropicStreamEvent :=
  { type := .contentBlockStart, index := some index, contentBlock := some block }

def blockDelta (index : ℤ) (delta : AnthropicDelta) : AnthropicStreamEvent :=
  { type := .contentBlockDelta, index := some index, delta := some delta }

def blockStop (index : ℤ) : AnthropicStreamEvent :=
  { type := .contentBlockStop, index := some index }

/-- The signature of the open thinking block, when one is pending. -/
def signatureDelta (state : ResponsesEventToAnthropicState) : List AnthropicStreamEvent :=
  let sig := trimSpace state.pendingThinkingSignature
  if state.currentBlockType = some .thinking ∧ sig ≠ "" then
    [blockDelta state.contentBlockIndex { type := .signature, signature := sig }]
  else []

/-- `closeCurrentBlock`. The block's type stays as it was. -/
def closeCurrentBlock (state : ResponsesEventToAnthropicState) : ToAnthropic :=
  if !state.contentBlockOpen then (state, [])
  else
    ({ state with
       pendingThinkingSignature :=
         if state.currentBlockType = some .thinking then "" else state.pendingThinkingSignature
       contentBlockOpen := false
       contentBlockIndex := state.contentBlockIndex + 1
       currentToolName := ""
       currentToolArgs := ""
       currentToolHadDelta := false },
     signatureDelta state ++ [blockStop state.contentBlockIndex])

/-- `resToAnthHandleCreated`. -/
def handleCreated (evt : ResponsesStreamEvent) (state : ResponsesEventToAnthropicState) :
    ToAnthropic :=
  let state := match evt.response with
    | none => state
    | some response => { state with
        responseID := response.id
        model := if state.model = "" then response.model else state.model }
  if state.messageStartSent then (state, [])
  else
    ({ state with messageStartSent := true },
     [{ type := .messageStart
        message := some { id := state.responseID, model := state.model } }])

/-- `resToAnthHandleOutputItemAdded`. -/
def handleOutputItemAdded (evt : ResponsesStreamEvent) (state : ResponsesEventToAnthropicState) :
    ToAnthropic :=
  match evt.item with
  | none => (state, [])
  | some item =>
    match item.type with
    | .functionCall | .customToolCall =>
      let closed := closeCurrentBlock state
      let idx := closed.1.contentBlockIndex
      ({ closed.1 with
         outputIndexToBlockIdx :=
           Function.update closed.1.outputIndexToBlockIdx evt.outputIndex (some idx)
         contentBlockOpen := true
         currentBlockType := some .toolUse
         currentToolName := item.name
         currentToolArgs := ""
         currentToolHadDelta := false
         hasToolCall := true },
       closed.2 ++ [blockStart idx { type := .toolUse, id := fromResponsesCallID item.callID
                                     name := item.name, input := "\x7b\x7d" }])
    | .reasoning =>
      let closed := closeCurrentBlock state
      let idx := closed.1.contentBlockIndex
      ({ closed.1 with
         outputIndexToBlockIdx :=
           Function.update closed.1.outputIndexToBlockIdx evt.outputIndex (some idx)
         contentBlockOpen := true
         currentBlockType := some .thinking
         pendingThinkingSignature := trimSpace item.encryptedContent },
       closed.2 ++ [blockStart idx { type := .thinking }])
    | _ => (state, [])

/-- Opens a text block unless one is open. -/
def openTextBlock (state : ResponsesEventToAnthropicState) : ToAnthropic :=
  if !state.contentBlockOpen ∨ state.currentBlockType ≠ some .text then
    let closed := closeCurrentBlock state
    ({ closed.1 with contentBlockOpen := true, currentBlockType := some .text },
     closed.2 ++ [blockStart closed.1.contentBlockIndex { type := .text }])
  else (state, [])

/-- `resToAnthEmitText`. -/
def emitText (text : String) (part : ResponsesTextPart) (state : ResponsesEventToAnthropicState) :
    ToAnthropic :=
  if text = "" then (state, [])
  else
    let opened := openTextBlock state
    ({ opened.1 with
       textByPart := Function.update opened.1.textByPart part
         (some ((opened.1.textByPart part).getD "" ++ text))
       textDelivered := true },
     opened.2 ++ [blockDelta opened.1.contentBlockIndex { type := .text, text := text }])

def textPartOf (evt : ResponsesStreamEvent) : ResponsesTextPart :=
  (evt.outputIndex, evt.contentIndex)

/-- `resToAnthRecoverText`: the tail of a finished text that was not delivered. -/
def recoverText (text : String) (part : ResponsesTextPart)
    (state : ResponsesEventToAnthropicState) : ToAnthropic :=
  let known := state.textByPart part
  if known.isNone ∧ state.textDelivered then (state, [])
  else
    let delivered := known.getD ""
    if text = delivered ∨ !hasPrefix text delivered then (state, [])
    else emitText (String.ofList (text.toList.drop delivered.length)) part state

/-- `resToAnthHandleTextDone`. -/
def handleTextDone (evt : ResponsesStreamEvent) (state : ResponsesEventToAnthropicState) :
    ToAnthropic :=
  if state.messageStopSent then closeCurrentBlock state
  else
    let recovered := recoverText evt.text (textPartOf evt) state
    let closed := closeCurrentBlock recovered.1
    (closed.1, recovered.2 ++ closed.2)

/-- A delta of arguments, for the block of its item when it has one. -/
def argumentsDelta (blockIdx : Option ℤ) (partialJSON : String) : List AnthropicStreamEvent :=
  match blockIdx with
  | none => []
  | some blockIdx => [blockDelta blockIdx { type := .inputJSON, partialJSON := partialJSON }]

/-- `resToAnthHandleFuncArgsDelta`: the arguments of `Read` are buffered until they are JSON. -/
def handleFuncArgsDelta (evt : ResponsesStreamEvent) (state : ResponsesEventToAnthropicState) :
    ToAnthropic :=
  if evt.delta = "" then (state, [])
  else if state.currentBlockType = some .toolUse ∧ state.currentToolName = "Read" then
    let args := state.currentToolArgs ++ evt.delta
    let blockIdx := state.outputIndexToBlockIdx evt.outputIndex
    if state.currentToolHadDelta ∨ !Json.valid args ∨ blockIdx.isNone then
      ({ state with currentToolArgs := args }, [])
    else
      ({ state with currentToolArgs := args, currentToolHadDelta := true },
       argumentsDelta blockIdx (sanitizeAnthropicToolUseInput state.currentToolName args))
  else
    ({ state with
       currentToolHadDelta := state.currentToolHadDelta || state.currentBlockType = some .toolUse },
     argumentsDelta (state.outputIndexToBlockIdx evt.outputIndex) evt.delta)

/-- The arguments of a finished call: those of the event, or else those buffered. -/
def finishedArguments (evt : ResponsesStreamEvent) (state : ResponsesEventToAnthropicState) :
    String :=
  if evt.arguments = "" then state.currentToolArgs else evt.arguments

def sanitizedArguments (evt : ResponsesStreamEvent) (state : ResponsesEventToAnthropicState) :
    String :=
  if state.currentToolName = "Read" then
    sanitizeAnthropicToolUseInput state.currentToolName (finishedArguments evt state)
  else finishedArguments evt state

/-- `resToAnthHandleFuncArgsDone`: arguments that were not streamed are sent at once, unless
another block is open by now. -/
def handleFuncArgsDone (evt : ResponsesStreamEvent) (state : ResponsesEventToAnthropicState) :
    ToAnthropic :=
  if !state.contentBlockOpen then (state, [])
  else if state.currentBlockType ≠ some .toolUse then closeCurrentBlock state
  else if finishedArguments evt state = "" ∨ state.currentToolHadDelta then closeCurrentBlock state
  else if sanitizedArguments evt state = "" then closeCurrentBlock state
  else
    let blockIdx := (state.outputIndexToBlockIdx evt.outputIndex).getD state.contentBlockIndex
    if blockIdx ≠ state.contentBlockIndex then (state, [])
    else
      let closed := closeCurrentBlock state
      (closed.1, blockDelta blockIdx
        { type := .inputJSON, partialJSON := sanitizedArguments evt state } :: closed.2)

/-- `resToAnthHandleReasoningDelta`. -/
def handleReasoningDelta (evt : ResponsesStreamEvent) (state : ResponsesEventToAnthropicState) :
    ToAnthropic :=
  if evt.delta = "" then (state, [])
  else
    match state.outputIndexToBlockIdx evt.outputIndex with
    | none => (state, [])
    | some blockIdx => (state, [blockDelta blockIdx { type := .thinking, thinking := evt.delta }])

/-- `resToAnthHandleWebSearchDone`. -/
def handleWebSearchDone (item : ResponsesOutput) (state : ResponsesEventToAnthropicState) :
    ToAnthropic :=
  let closed := closeCurrentBlock state
  let idx := closed.1.contentBlockIndex
  let blocks := webSearchBlocks item
  ({ closed.1 with contentBlockIndex := idx + 1 + 1 },
   closed.2 ++ [blockStart idx blocks.1, blockStop idx, blockStart (idx + 1) blocks.2,
     blockStop (idx + 1)])

/-- `resToAnthHandleOutputItemDone`: whatever item is done, the open block is closed. -/
def handleOutputItemDone (evt : ResponsesStreamEvent) (state : ResponsesEventToAnthropicState) :
    ToAnthropic :=
  match evt.item with
  | none => (state, [])
  | some item =>
    if item.type = .webSearchCall ∧ item.status = .completed then handleWebSearchDone item state
    else
      let sig := trimSpace item.encryptedContent
      closeCurrentBlock (if item.type = .reasoning ∧ sig ≠ "" then
        { state with pendingThinkingSignature := sig } else state)

/-- The texts of a response's messages, with their parts. -/
def terminalTexts (response : ResponsesResponse) : List (ResponsesTextPart × String) :=
  response.output.zipIdx.flatMap fun (item, outputIndex) =>
    if item.type ≠ .message then []
    else item.content.zipIdx.filterMap fun (content, contentIndex) =>
      if content.type ≠ .outputText then none
      else some (((outputIndex : ℤ), (contentIndex : ℤ)), content.text)

def emitTexts : List (ResponsesTextPart × String) → ResponsesEventToAnthropicState → ToAnthropic
  | [], state => (state, [])
  | (part, text) :: rest, state =>
    let first := emitText text part state
    let later := emitTexts rest first.1
    (later.1, first.2 ++ later.2)

/-- `resToAnthRecoverTerminalText`: only when no text was delivered at all. -/
def recoverTerminalText (evt : ResponsesStreamEvent) (state : ResponsesEventToAnthropicState) :
    ToAnthropic :=
  match evt.response with
  | none => (state, [])
  | some response =>
    if state.textDelivered then (state, [])
    else
      let emitted := emitTexts (terminalTexts response) state
      if emitted.2 = [] then emitted
      else
        let closed := closeCurrentBlock emitted.1
        (closed.1, emitted.2 ++ closed.2)

/-- The end of a message. -/
def messageEnd (stopReason : String) (usage : AnthropicUsage) : List AnthropicStreamEvent :=
  [{ type := .messageDelta, delta := some { stopReason := stopReason }, usage := some usage },
   { type := .messageStop }]

/-- The usage after a terminal event; that of the response comes last. -/
def terminalUsage (evt : ResponsesStreamEvent) (usage : AnthropicUsage) : AnthropicUsage :=
  match evt.response.bind (·.usage) with
  | some usage => anthropicUsageFromResponsesUsage usage
  | none => (evt.usage.map anthropicUsageFromResponsesUsage).getD usage

def terminalStopReason (evt : ResponsesStreamEvent) (hasToolCall : Bool) : String :=
  match evt.response with
  | none => "end_turn"
  | some response =>
    match response.status with
    | .incomplete =>
      if response.incompleteDetails.map (·.reason) = some "max_output_tokens" then "max_tokens"
      else "end_turn"
    | .completed => if hasToolCall then "tool_use" else "end_turn"
    | _ => "end_turn"

/-- `resToAnthHandleCompleted`. -/
def handleCompleted (evt : ResponsesStreamEvent) (state : ResponsesEventToAnthropicState) :
    ToAnthropic :=
  if state.messageStopSent then (state, [])
  else
    let closed := closeCurrentBlock state
    let recovered := recoverTerminalText evt closed.1
    let usage := terminalUsage evt recovered.1.usage
    ({ recovered.1 with usage := usage, messageStopSent := true },
     closed.2 ++ recovered.2 ++
       messageEnd (terminalStopReason evt recovered.1.hasToolCall) usage)

end ToAnthropic

open ToAnthropic

/-- `ResponsesEventToAnthropicEvents`. -/
def responsesEventToAnthropicEvents (state : ResponsesEventToAnthropicState)
    (evt : ResponsesStreamEvent) : ToAnthropic :=
  match evt.type with
  | .created => handleCreated evt state
  | .outputItemAdded => handleOutputItemAdded evt state
  | .outputTextDelta => emitText evt.delta (textPartOf evt) state
  | .outputTextDone => handleTextDone evt state
  | .functionCallArgumentsDelta | .customToolCallInputDelta => handleFuncArgsDelta evt state
  | .functionCallArgumentsDone => handleFuncArgsDone evt state
  | .outputItemDone => handleOutputItemDone evt state
  | .reasoningSummaryTextDelta | .reasoningTextDelta => handleReasoningDelta evt state
  | .completed | .done | .incomplete | .failed => handleCompleted evt state
  | _ => (state, [])

/-- `FinalizeResponsesAnthropicStream`. -/
def finalizeResponsesAnthropicStream (state : ResponsesEventToAnthropicState) : ToAnthropic :=
  if !state.messageStartSent ∨ state.messageStopSent then (state, [])
  else
    let closed := closeCurrentBlock state
    ({ closed.1 with messageStopSent := true },
     closed.2 ++ messageEnd (if closed.1.hasToolCall then "tool_use" else "end_turn")
       closed.1.usage)

end Sub2api.ApiCompat
