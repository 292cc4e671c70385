import Sub2api.ApiCompat.Types
import Sub2api.Transducer.Observed

/-!
# Anthropic to Responses, streaming

The stateful converter of an Anthropic stream's events. A handler takes the state and gives the
state after it with the events it emits. The item ids come from random bytes, and which models
keep the signatures of their thinking is decided by another package: both are parameters.
-/

namespace Sub2api.ApiCompat

open Go Transducer

/-- The twelve bytes of each read of the random source, and
`claude.IsOpus55(model) || claude.IsSonnet55(model) || claude.IsHaiku55(model)`. -/
structure Surroundings where
  randomBytes : ℕ → List (Fin 256)
  keepsSignatures : String → Bool

/-- `AnthropicEventToResponsesState`; `generated` counts the ids made so far. -/
structure AnthropicEventToResponsesState where
  responseID : String := ""
  model : String := ""
  created : ℤ := 0
  sequenceNumber : ℤ := 0
  createdSent : Bool := false
  completedSent : Bool := false
  outputIndex : ℤ := 0
  currentItemID : String := ""
  currentItemType : Option ItemType := none
  contentIndex : ℤ := 0
  textAccum : String := ""
  currentCallID : String := ""
  currentName : String := ""
  currentContent : List ResponsesContentPart := []
  currentArgs : String := ""
  currentSummary : String := ""
  currentThinking : AnthropicContentBlock := { type := .other "" }
  preserveThinkingSignatures : Bool := false
  pendingToolInput : String := ""
  outputs : List ResponsesOutput := []
  inputTokens : ℤ := 0
  outputTokens : ℤ := 0
  cacheReadInputTokens : ℤ := 0
  cacheCreationInputTokens : ℤ := 0
  stopReason : String := ""
  generated : ℕ := 0

abbrev ToResponses := AnthropicEventToResponsesState × List ResponsesStreamEvent

namespace ToResponses

/-! ### Helpers -/

/-- The `type` of a block as the wire has it. -/
def blockTypeName : BlockType → String
  | .text => "text"
  | .thinking => "thinking"
  | .redactedThinking => "redacted_thinking"
  | .toolUse => "tool_use"
  | .serverToolUse => "server_tool_use"
  | .webSearchToolResult => "web_search_tool_result"
  | .other name => name

/-- `encodeAnthropicThinking`. -/
def encodeAnthropicThinking (block : AnthropicContentBlock) : String :=
  let omitEmpty (key value : String) :=
    if value = "" then [] else [(key, Json.marshalString value)]
  let payload := Json.object
    ([("type", Json.marshalString (blockTypeName block.type)),
      ("thinking", Json.marshalString block.thinking)] ++
      omitEmpty "signature" block.signature ++ omitEmpty "data" block.data)
  "anthropic-thinking-v1:" ++
    String.ofList (base64Encode (payload.toUTF8.toList.map UInt8.toNat))

/-- `toResponsesCallID`. -/
def toResponsesCallID (id : String) : String := id

/-- `generateItemID`. -/
def generateItemID (env : Surroundings) (s : AnthropicEventToResponsesState) :
    AnthropicEventToResponsesState × String :=
  ({ s with generated := s.generated + 1 }, "item_" ++ hexEncode (env.randomBytes s.generated))

/-- `anthropicResponsesStreamTerminalState`. -/
def anthropicResponsesStreamTerminalState (stopReason : String) :
    ResponsesStatus × Option ResponsesIncompleteDetails :=
  if stopReason = "max_tokens" then (.incomplete, some { reason := "max_output_tokens" })
  else (.completed, none)

/-- `seedToolArguments`. -/
def seedToolArguments (input : String) : String :=
  let trimmed := trimSpace input
  if trimmed = "" ∨ trimmed = "\x7b\x7d" ∨ trimmed = "null" then "" else trimmed

/-- `makeResponsesEvent`. -/
def makeResponsesEvent (s : AnthropicEventToResponsesState) (eventType : ResponsesEventType)
    (template : ResponsesStreamEvent) : ToResponses :=
  ({ s with sequenceNumber := s.sequenceNumber + 1 },
   [{ template with type := eventType, sequenceNumber := s.sequenceNumber }])

/-- `makeResponsesCreatedEvent`. -/
def makeResponsesCreatedEvent (s : AnthropicEventToResponsesState) : ToResponses :=
  ({ s with sequenceNumber := s.sequenceNumber + 1 },
   [{ type := .created
      sequenceNumber := s.sequenceNumber
      response := some
        { id := s.responseID, createdAt := s.created, model := s.model, status := .inProgress
          output := [] } }])

/-- `makeResponsesCompletedEvent`. -/
def makeResponsesCompletedEvent (s : AnthropicEventToResponsesState) (status : ResponsesStatus)
    (incompleteDetails : Option ResponsesIncompleteDetails) : ToResponses :=
  let totalInputTokens := s.inputTokens + s.cacheReadInputTokens + s.cacheCreationInputTokens
  let usage : ResponsesUsage :=
    { inputTokens := totalInputTokens
      outputTokens := s.outputTokens
      totalTokens := totalInputTokens + s.outputTokens
      cacheCreationInputTokens := s.cacheCreationInputTokens
      inputTokensDetails :=
        if s.cacheReadInputTokens > 0 then some { cachedTokens := s.cacheReadInputTokens }
        else none }
  ({ s with sequenceNumber := s.sequenceNumber + 1 },
   [{ type := if status = .incomplete then .incomplete else .completed
      sequenceNumber := s.sequenceNumber
      response := some
        { id := s.responseID, createdAt := s.created, model := s.model, status := status
          output := s.outputs, usage := some usage
          incompleteDetails := incompleteDetails } }])

/-- The item that `closeCurrentResponsesItem` assembles. -/
def currentItem (s : AnthropicEventToResponsesState) (type : ItemType) : ResponsesOutput :=
  let item : ResponsesOutput := { type := type, id := s.currentItemID, status := .completed }
  match type with
  | .message => { item with role := "assistant", content := s.currentContent }
  | .functionCall =>
    { item with
      callID := s.currentCallID
      name := s.currentName
      arguments := if s.currentArgs = "" then "\x7b\x7d" else s.currentArgs }
  | .reasoning =>
    { item with
      encryptedContent :=
        if s.preserveThinkingSignatures ∧
            (s.currentThinking.signature ≠ "" ∨ s.currentThinking.data ≠ "") then
          encodeAnthropicThinking { s.currentThinking with thinking := s.currentSummary }
        else ""
      summary :=
        if s.currentSummary = "" then [] else [{ type := .summaryText, text := s.currentSummary }] }
  | _ => item

/-- `closeCurrentResponsesItem`. -/
def closeCurrentResponsesItem (s : AnthropicEventToResponsesState) : ToResponses :=
  match s.currentItemType with
  | none => (s, [])
  | some type =>
    let item := currentItem s type
    makeResponsesEvent
      { s with
        outputs := s.outputs ++ [item]
        currentItemType := none
        currentItemID := ""
        currentCallID := ""
        currentName := ""
        currentContent := []
        currentArgs := ""
        pendingToolInput := ""
        currentSummary := ""
        currentThinking := { type := .other "" }
        textAccum := ""
        outputIndex := s.outputIndex + 1
        contentIndex := 0 }
      .outputItemDone { type := .outputItemDone, outputIndex := s.outputIndex, item := some item }

/-! ### Handlers -/

/-- `anthToResHandleMessageStart`. -/
def handleMessageStart (env : Surroundings) (evt : AnthropicStreamEvent)
    (s : AnthropicEventToResponsesState) : ToResponses :=
  let s :=
    match evt.message with
    | none => s
    | some message =>
      { s with
        responseID := message.id
        preserveThinkingSignatures :=
          s.preserveThinkingSignatures || env.keepsSignatures message.model
        model := if s.model = "" then message.model else s.model
        inputTokens :=
          if message.usage.inputTokens > 0 then message.usage.inputTokens else s.inputTokens
        cacheReadInputTokens :=
          if message.usage.cacheReadInputTokens > 0 then message.usage.cacheReadInputTokens
          else s.cacheReadInputTokens
        cacheCreationInputTokens :=
          if message.usage.cacheCreationInputTokens > 0 then
            message.usage.cacheCreationInputTokens
          else s.cacheCreationInputTokens }
  if s.createdSent then (s, [])
  else makeResponsesCreatedEvent { s with createdSent := true }

/-- A new current item of this type, announced with these fields. -/
def openItem (env : Surroundings) (s : AnthropicEventToResponsesState) (item : ResponsesOutput) :
    ToResponses :=
  let (s, id) := generateItemID env s
  makeResponsesEvent { s with currentItemID := id, currentItemType := some item.type }
    .outputItemAdded
    { type := .outputItemAdded, outputIndex := s.outputIndex, item := some { item with id := id } }

/-- The start of a thinking block. -/
def startThinking (env : Surroundings) (block : AnthropicContentBlock)
    (s : AnthropicEventToResponsesState) : ToResponses :=
  andThen (closeCurrentResponsesItem s) fun s =>
    openItem env
      { s with currentThinking := block, currentSummary := block.thinking, contentIndex := 0 }
      { type := .reasoning }

/-- The start of a text block, in the open message item or in a new one. -/
def startText (env : Surroundings) (s : AnthropicEventToResponsesState) : ToResponses :=
  andThen
    (if s.currentItemType ≠ some .message then
      andThen (closeCurrentResponsesItem s) fun s =>
        openItem env { s with contentIndex := 0 }
          { type := .message, role := "assistant", status := .inProgress }
    else (s, []))
    fun s =>
      makeResponsesEvent { s with textAccum := "" } .contentPartAdded
        { type := .contentPartAdded, outputIndex := s.outputIndex, contentIndex := s.contentIndex
          itemID := s.currentItemID, part := some { type := .outputText, text := "" } }

/-- The start of a tool call. -/
def startToolUse (env : Surroundings) (block : AnthropicContentBlock)
    (s : AnthropicEventToResponsesState) : ToResponses :=
  andThen (closeCurrentResponsesItem s) fun s =>
    openItem env
      { s with
        currentCallID := toResponsesCallID block.id
        currentName := block.name
        pendingToolInput := seedToolArguments block.input }
      { type := .functionCall, callID := toResponsesCallID block.id, name := block.name
        status := .inProgress }

/-- `anthToResHandleContentBlockStart`. -/
def handleContentBlockStart (env : Surroundings) (evt : AnthropicStreamEvent)
    (s : AnthropicEventToResponsesState) : ToResponses :=
  match evt.contentBlock with
  | none => (s, [])
  | some block =>
    match block.type with
    | .thinking | .redactedThinking => startThinking env block s
    | .text => startText env s
    | .toolUse => startToolUse env block s
    | _ => (s, [])

/-- A delta of the current call's arguments. -/
def argumentsDelta (s : AnthropicEventToResponsesState) (arguments : String) : ToResponses :=
  makeResponsesEvent s .functionCallArgumentsDelta
    { type := .functionCallArgumentsDelta, outputIndex := s.outputIndex, delta := arguments
      itemID := s.currentItemID, callID := s.currentCallID, name := s.currentName }

/-- `anthToResHandleContentBlockDelta`. -/
def handleContentBlockDelta (evt : AnthropicStreamEvent) (s : AnthropicEventToResponsesState) :
    ToResponses :=
  match evt.delta with
  | none => (s, [])
  | some delta =>
    match delta.type with
    | .text =>
      if delta.text = "" then (s, [])
      else
        makeResponsesEvent { s with textAccum := s.textAccum ++ delta.text } .outputTextDelta
          { type := .outputTextDelta, outputIndex := s.outputIndex, contentIndex := s.contentIndex
            delta := delta.text, itemID := s.currentItemID }
    | .thinking =>
      if delta.thinking = "" then (s, [])
      else
        makeResponsesEvent { s with currentSummary := s.currentSummary ++ delta.thinking }
          .reasoningSummaryTextDelta
          { type := .reasoningSummaryTextDelta, outputIndex := s.outputIndex, summaryIndex := 0
            delta := delta.thinking, itemID := s.currentItemID }
    | .inputJSON =>
      if delta.partialJSON = "" then (s, [])
      else
        argumentsDelta
          { s with pendingToolInput := "", currentArgs := s.currentArgs ++ delta.partialJSON }
          delta.partialJSON
    | .signature =>
      if s.preserveThinkingSignatures then
        ({ s with currentThinking :=
            { s.currentThinking with signature := s.currentThinking.signature ++ delta.signature } },
          [])
      else (s, [])
    | _ => (s, [])

/-- The stop of a thinking block. -/
def stopReasoning (s : AnthropicEventToResponsesState) : ToResponses :=
  andThen
    (makeResponsesEvent s .reasoningSummaryTextDone
      { type := .reasoningSummaryTextDone, outputIndex := s.outputIndex, summaryIndex := 0
        itemID := s.currentItemID })
    closeCurrentResponsesItem

/-- The stop of a tool call: arguments that only the start carried go out as one delta. -/
def stopFunctionCall (s : AnthropicEventToResponsesState) : ToResponses :=
  andThen
    (if s.currentArgs = "" ∧ s.pendingToolInput ≠ "" then
      argumentsDelta { s with currentArgs := s.pendingToolInput } s.pendingToolInput
    else (s, []))
    fun s =>
      andThen
        (makeResponsesEvent { s with pendingToolInput := "" } .functionCallArgumentsDone
          { type := .functionCallArgumentsDone, outputIndex := s.outputIndex
            itemID := s.currentItemID, callID := s.currentCallID, name := s.currentName
            arguments := s.currentArgs })
        closeCurrentResponsesItem

/-- The stop of a text block; the message item stays open. -/
def stopText (s : AnthropicEventToResponsesState) : ToResponses :=
  andThen
    (makeResponsesEvent
      { s with
        textAccum := ""
        currentContent := s.currentContent ++ [{ type := .outputText, text := s.textAccum }]
        contentIndex := s.contentIndex + 1 }
      .outputTextDone
      { type := .outputTextDone, outputIndex := s.outputIndex, contentIndex := s.contentIndex
        itemID := s.currentItemID, text := s.textAccum })
    fun after =>
      makeResponsesEvent after .contentPartDone
        { type := .contentPartDone, outputIndex := after.outputIndex
          contentIndex := s.contentIndex, itemID := after.currentItemID
          part := some { type := .outputText, text := s.textAccum } }

/-- `anthToResHandleContentBlockStop`. -/
def handleContentBlockStop (s : AnthropicEventToResponsesState) : ToResponses :=
  match s.currentItemType with
  | some .reasoning => stopReasoning s
  | some .functionCall => stopFunctionCall s
  | some .message => stopText s
  | _ => (s, [])

/-- `anthToResHandleMessageDelta`. -/
def handleMessageDelta (evt : AnthropicStreamEvent) (s : AnthropicEventToResponsesState) :
    ToResponses :=
  let s :=
    match evt.usage with
    | none => s
    | some usage =>
      { s with
        outputTokens := usage.outputTokens
        inputTokens := if usage.inputTokens > 0 then usage.inputTokens else s.inputTokens
        cacheReadInputTokens :=
          if usage.cacheReadInputTokens > 0 then usage.cacheReadInputTokens
          else s.cacheReadInputTokens
        cacheCreationInputTokens :=
          if usage.cacheCreationInputTokens > 0 then usage.cacheCreationInputTokens
          else s.cacheCreationInputTokens }
  match evt.delta with
  | none => (s, [])
  | some delta =>
    (if delta.stopReason ≠ "" then { s with stopReason := delta.stopReason } else s, [])

/-- The open item is closed and the terminal event is emitted. -/
def complete (s : AnthropicEventToResponsesState) : ToResponses :=
  andThen (closeCurrentResponsesItem s) fun s =>
    let (status, incompleteDetails) := anthropicResponsesStreamTerminalState s.stopReason
    makeResponsesCompletedEvent { s with completedSent := true } status incompleteDetails

/-- `anthToResHandleMessageStop`. -/
def handleMessageStop (s : AnthropicEventToResponsesState) : ToResponses :=
  if s.completedSent then (s, []) else complete s

/-- `FinalizeAnthropicResponsesStream`. -/
def finalizeAnthropicResponsesStream (s : AnthropicEventToResponsesState) : ToResponses :=
  if s.createdSent = false ∨ s.completedSent = true then (s, []) else complete s

/-- `AnthropicEventToResponsesEvents`. -/
def anthropicEventToResponsesEvents (env : Surroundings) (s : AnthropicEventToResponsesState)
    (evt : AnthropicStreamEvent) : ToResponses :=
  match evt.type with
  | .messageStart => handleMessageStart env evt s
  | .contentBlockStart => handleContentBlockStart env evt s
  | .contentBlockDelta => handleContentBlockDelta evt s
  | .contentBlockStop => handleContentBlockStop s
  | .messageDelta => handleMessageDelta evt s
  | .messageStop => handleMessageStop s
  | .other _ => (s, [])

/-- The Responses stream of some events, finalized; the caller may have set the model. -/
def responsesStream (env : Surroundings) (model : String) (created : ℤ)
    (events : List AnthropicStreamEvent) : List ResponsesStreamEvent :=
  (andThen (run (anthropicEventToResponsesEvents env) { model := model, created := created } events)
    finalizeAnthropicResponsesStream).2

end ToResponses

end Sub2api.ApiCompat
