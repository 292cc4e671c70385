import Mathlib.Data.List.Sort
import Sub2api.ApiCompat.ChatCompletions
import Sub2api.Transducer.Observed

/-!
# Chat Completions to Responses

A finished response, and the stateful converter of the stream's chunks. The loop over a chunk is a
run over its fragments, in the order in which the loop takes them. The maps of the source that are
keyed by the index of a call are one list of calls in the order of their arrival.
-/

namespace Sub2api.ApiCompat

open Go Transducer

/-! ### The finished response -/

namespace ChatResponse

/-- The output item of a call, unless its arguments are broken. -/
def callOutput (setting : ChatSetting) (call : ChatToolCall) : Option ResponsesOutput :=
  let arguments := finishedArguments call.function.arguments
  match customToolCallName setting call.function.name with
  | some customName =>
    some { type := .customToolCall, callID := call.id, name := customName
           input := extractCustomToolCallInput arguments, status := .completed }
  | none =>
    if setting.tools.toolSearchDeclared ∧ call.function.name = toolSearchProxyName then
      some { type := .toolSearchCall, callID := call.id, arguments := arguments
             status := .completed }
    else if Json.valid arguments = false then none
    else
      match setting.tools.namespaceTools.lookup call.function.name with
      | some ns =>
        some { type := .functionCall, callID := call.id, name := ns.name
               toolNamespace := ns.nameSpace, arguments := arguments, status := .completed }
      | none =>
        some { type := .functionCall, callID := call.id, name := call.function.name
               arguments := arguments, status := .completed }

def messageOutput (text : String) : ResponsesOutput :=
  { type := .message, role := "assistant"
    content := [{ type := .outputText, text := text }], status := .completed }

def reasoningOutput (text : String) : ResponsesOutput :=
  { type := .reasoning, summary := [{ type := .summaryText, text := text }] }

/-- The items get the ids that are generated one after the other. -/
def withItemIDs (setting : ChatSetting) (first : ℕ) (items : List ResponsesOutput) :
    List ResponsesOutput :=
  items.zipIdx.map fun (item, n) => { item with id := generatedItemID setting (first + n) }

/-- `chatMessageToResponsesOutput`, before the items get their ids. -/
def chatMessageToResponsesOutput (setting : ChatSetting) (message : ChatMessage) :
    List ResponsesOutput :=
  let reasoning := message.reasoningText
  let content := chatMessageContentText message.content
  let text :=
    if content = "" ∧ trimSpace reasoning ≠ "" ∧ message.toolCalls = [] then reasoning
    else content
  (if reasoning ≠ "" then [reasoningOutput reasoning] else []) ++
    (if text ≠ "" ∨ message.toolCalls = [] then [messageOutput text] else []) ++
    message.toolCalls.filterMap (callOutput setting)

end ChatResponse

open ChatResponse in
/-- `ChatCompletionsResponseToResponses`, at the time `now`. -/
def chatCompletionsResponseToResponses (setting : ChatSetting) (now : ℤ)
    (resp : ChatCompletionsResponse) (model : String) : ResponsesResponse :=
  let first := if resp.id = "" then 1 else 0
  let out : ResponsesResponse :=
    { id := if resp.id = "" then "resp_" ++ hexEncode (setting.randomBytes 0) else resp.id
      createdAt := if resp.created ≤ 0 then now else resp.created
      model := if model = "" then resp.model else model
      status := .completed
      serviceTier := resp.serviceTier
      usage := resp.usage.map chatUsageToResponsesUsage }
  match resp.choices with
  | [] => { out with output := withItemIDs setting first [messageOutput ""] }
  | choice :: _ =>
    let items := chatMessageToResponsesOutput setting choice.message
    let items := if items = [] then [messageOutput ""] else items
    let out := { out with output := withItemIDs setting first items }
    if choice.finishReason = "length" then
      { out with
        status := .incomplete
        incompleteDetails := some { reason := "max_output_tokens" } }
    else out

/-! ### The state of a stream -/

/-- A call of the stream: the upstream's index of it, the call so far, its item, and what was
decided about it when the item was announced. -/
structure StreamTool where
  index : ℤ
  id : String
  name : String
  arguments : String := ""
  itemID : String
  outputIndex : ℤ
  isCustom : Bool := false
  isToolSearch : Bool := false
  nameSpace : Option NamespacedToolName := none
  announced : Bool := false

/-- `ChatCompletionsToResponsesStreamState`; `degeneration` says whether the guard has found the
text to go in circles, and `generated` counts the reads of the random source. -/
structure ChatCompletionsToResponsesStreamState where
  responseID : String := ""
  model : String := ""
  created : ℤ := 0
  serviceTier : String := ""
  sequenceNumber : ℤ := 0
  createdSent : Bool := false
  completedSent : Bool := false
  nextOutputIndex : ℤ := 0
  reasoningItemID : String := ""
  reasoningIndex : ℤ := 0
  reasoningOpen : Bool := false
  reasoningDone : Bool := false
  messageItemID : String := ""
  messageIndex : ℤ := 0
  textPartOpen : Bool := false
  closedMessages : List ResponsesOutput := []
  text : String := ""
  reasoning : String := ""
  toolCalls : List StreamTool := []
  finishReason : String := ""
  usage : Option ResponsesUsage := none
  degeneration : Bool := false
  generated : ℕ := 0

abbrev ChatToResponses := ChatCompletionsToResponsesStreamState × List ResponsesStreamEvent

namespace ChatToResponses

open ChatCompletionsToResponsesStreamState

/-- `NewChatCompletionsToResponsesStreamState`. -/
def newState (setting : ChatSetting) (model : String) (created : ℤ) :
    ChatCompletionsToResponsesStreamState :=
  { responseID := "resp_" ++ hexEncode (setting.randomBytes 0), model := model
    created := created, generated := 1 }

/-- The stored call of an index. -/
def tool (s : ChatCompletionsToResponsesStreamState) (index : ℤ) : Option StreamTool :=
  s.toolCalls.find? fun stored => stored.index == index

/-- The stored call of an index is changed. -/
def setTool (s : ChatCompletionsToResponsesStreamState) (index : ℤ)
    (change : StreamTool → StreamTool) : ChatCompletionsToResponsesStreamState :=
  { s with toolCalls := s.toolCalls.map fun stored =>
      if stored.index = index then change stored else stored }

/-- `chatToResponsesEvent`. -/
def chatToResponsesEvent (s : ChatCompletionsToResponsesStreamState)
    (eventType : ResponsesEventType) (template : ResponsesStreamEvent) : ChatToResponses :=
  ({ s with sequenceNumber := s.sequenceNumber + 1 },
   [{ template with type := eventType, sequenceNumber := s.sequenceNumber }])

/-! ### Items of reasoning and of text -/

/-- `ensureChatToResponsesCreated`. -/
def ensureCreated (s : ChatCompletionsToResponsesStreamState) : ChatToResponses :=
  if s.createdSent then (s, [])
  else
    chatToResponsesEvent { s with createdSent := true } .created
      { type := .created
        response := some
          { id := s.responseID, createdAt := s.created, model := s.model, status := .inProgress
            serviceTier := s.serviceTier, output := [] } }

/-- The state once a reasoning item is opened, under the next index. -/
def openReasoning (setting : ChatSetting) (s : ChatCompletionsToResponsesStreamState) :
    ChatCompletionsToResponsesStreamState :=
  { s with
    reasoningOpen := true
    reasoningItemID := generatedItemID setting s.generated
    generated := s.generated + 1
    reasoningIndex := s.nextOutputIndex
    nextOutputIndex := s.nextOutputIndex + 1 }

/-- The events that announce the open reasoning item. -/
def beginReasoning (s : ChatCompletionsToResponsesStreamState) : ChatToResponses :=
  andThen
    (chatToResponsesEvent s .outputItemAdded
      { type := .outputItemAdded, outputIndex := s.reasoningIndex
        item := some { type := .reasoning, id := s.reasoningItemID, status := .inProgress } })
    fun s =>
      chatToResponsesEvent s .reasoningSummaryPartAdded
        { type := .reasoningSummaryPartAdded, outputIndex := s.reasoningIndex
          summaryIndex := 0, itemID := s.reasoningItemID
          part := some { type := .summaryText } }

/-- `ensureChatReasoningItem`. -/
def ensureReasoningItem (setting : ChatSetting) (s : ChatCompletionsToResponsesStreamState) :
    ChatToResponses :=
  if s.reasoningOpen ∨ s.reasoningDone then (s, []) else beginReasoning (openReasoning setting s)

/-- The events that end the reasoning item. -/
def endReasoning (s : ChatCompletionsToResponsesStreamState) : ChatToResponses :=
  andThen
    (chatToResponsesEvent s .reasoningSummaryTextDone
      { type := .reasoningSummaryTextDone, outputIndex := s.reasoningIndex, summaryIndex := 0
        text := s.reasoning, itemID := s.reasoningItemID })
    fun s => andThen
      (chatToResponsesEvent s .reasoningSummaryPartDone
        { type := .reasoningSummaryPartDone, outputIndex := s.reasoningIndex, summaryIndex := 0
          itemID := s.reasoningItemID
          part := some { type := .summaryText, text := s.reasoning } })
      fun s =>
        chatToResponsesEvent s .outputItemDone
          { type := .outputItemDone, outputIndex := s.reasoningIndex
            item := some
              { type := .reasoning, id := s.reasoningItemID, status := .completed
                summary := [{ type := .summaryText, text := s.reasoning }] } }

/-- `closeChatReasoningItem`. -/
def closeReasoningItem (s : ChatCompletionsToResponsesStreamState) : ChatToResponses :=
  if s.reasoningOpen = false then (s, [])
  else endReasoning { s with reasoningOpen := false, reasoningDone := true }

/-- The state once a message item is opened, under the next index. -/
def openMessage (setting : ChatSetting) (s : ChatCompletionsToResponsesStreamState) :
    ChatCompletionsToResponsesStreamState :=
  { s with
    messageItemID := generatedItemID setting s.generated
    generated := s.generated + 1
    messageIndex := s.nextOutputIndex
    nextOutputIndex := s.nextOutputIndex + 1 }

/-- The event that announces the open message item. -/
def beginMessage (s : ChatCompletionsToResponsesStreamState) : ChatToResponses :=
  chatToResponsesEvent s .outputItemAdded
    { type := .outputItemAdded, outputIndex := s.messageIndex
      item := some
        { type := .message, id := s.messageItemID, role := "assistant", status := .inProgress
          content := [{ type := .outputText }] } }

/-- `ensureChatToResponsesMessageItem`. -/
def ensureMessageItem (setting : ChatSetting) (s : ChatCompletionsToResponsesStreamState) :
    ChatToResponses :=
  if s.messageItemID ≠ "" then (s, []) else beginMessage (openMessage setting s)

/-- `ensureChatToResponsesTextPart`. -/
def ensureTextPart (s : ChatCompletionsToResponsesStreamState) : ChatToResponses :=
  if s.textPartOpen then (s, [])
  else
    chatToResponsesEvent { s with textPartOpen := true } .contentPartAdded
      { type := .contentPartAdded, outputIndex := s.messageIndex, contentIndex := 0
        itemID := s.messageItemID, part := some { type := .outputText, text := "" } }

/-- A delta of the open message's text. -/
def textDelta (s : ChatCompletionsToResponsesStreamState) (text : String) : ChatToResponses :=
  chatToResponsesEvent { s with text := s.text ++ text } .outputTextDelta
    { type := .outputTextDelta, outputIndex := s.messageIndex, contentIndex := 0, delta := text
      itemID := s.messageItemID }

/-- Text for a message item, which is opened when none is. -/
def writeText (setting : ChatSetting) (s : ChatCompletionsToResponsesStreamState)
    (text : String) : ChatToResponses :=
  andThen (ensureMessageItem setting s) fun s =>
    andThen (ensureTextPart s) fun s => textDelta s text

/-- The open message item, finished. -/
def messageItem (s : ChatCompletionsToResponsesStreamState) : ResponsesOutput :=
  { type := .message, id := s.messageItemID, role := "assistant"
    content := [{ type := .outputText, text := s.text }], status := .completed }

/-- The events that end the open part. -/
def endPart (s : ChatCompletionsToResponsesStreamState) : ChatToResponses :=
  andThen
    (chatToResponsesEvent s .outputTextDone
      { type := .outputTextDone, outputIndex := s.messageIndex, contentIndex := 0
        text := s.text, itemID := s.messageItemID })
    fun s =>
      chatToResponsesEvent s .contentPartDone
        { type := .contentPartDone, outputIndex := s.messageIndex, contentIndex := 0
          itemID := s.messageItemID, part := some { type := .outputText, text := s.text } }

/-- The events that end the open message item. -/
def endMessage (s : ChatCompletionsToResponsesStreamState) : ChatToResponses :=
  andThen (if s.textPartOpen then endPart s else (s, [])) fun s =>
    chatToResponsesEvent s .outputItemDone
      { type := .outputItemDone, outputIndex := s.messageIndex, item := some (messageItem s) }

/-- The state once the open message is kept among the closed ones. -/
def keepMessage (s : ChatCompletionsToResponsesStreamState) :
    ChatCompletionsToResponsesStreamState :=
  { s with
    closedMessages := s.closedMessages ++ [messageItem s]
    messageItemID := ""
    messageIndex := 0
    textPartOpen := false
    text := "" }

/-- `CloseChatMessageItem`. -/
def closeChatMessageItem (s : ChatCompletionsToResponsesStreamState) : ChatToResponses :=
  if s.messageItemID = "" then (s, [])
  else andThen (endMessage s) fun s => (keepMessage s, [])

/-! ### Calls -/

/-- The type of a call's item. -/
def itemType (stored : StreamTool) : ItemType :=
  if stored.isToolSearch then .toolSearchCall
  else if stored.isCustom then .customToolCall else .functionCall

/-- What is decided about a call when it is announced. -/
def decided (setting : ChatSetting) (stored : StreamTool) : StreamTool :=
  let isCustom := (customToolCallName setting stored.name).isSome
  let isToolSearch :=
    !isCustom && setting.tools.toolSearchDeclared && stored.name == toolSearchProxyName
  { stored with
    announced := true
    isCustom := isCustom
    isToolSearch := isToolSearch
    nameSpace :=
      if isCustom ∨ isToolSearch then none else setting.tools.namespaceTools.lookup stored.name }

/-- The client declared tools whose calls are told apart by their names. -/
def telling (tools : RequestTools) : Bool :=
  tools.customTools ≠ [] ∨ tools.functionTools ≠ [] ∨ tools.toolSearchDeclared ∨
    tools.namespaceTools ≠ []

/-- A delta of a call's arguments. -/
def argumentsDelta (s : ChatCompletionsToResponsesStreamState) (stored : StreamTool)
    (arguments : String) : ChatToResponses :=
  chatToResponsesEvent s .functionCallArgumentsDelta
    { type := .functionCallArgumentsDelta, outputIndex := stored.outputIndex
      itemID := stored.itemID, delta := arguments, callID := stored.id, name := stored.name }

/-- The item of a call as it is announced. -/
def announcedItem (setting : ChatSetting) (stored : StreamTool) : ResponsesOutput :=
  let known := decided setting stored
  { type := itemType known, id := stored.itemID, callID := stored.id
    name :=
      match customToolCallName setting stored.name, known.nameSpace with
      | some customName, _ => customName
      | none, some ns => ns.name
      | none, none => stored.name
    toolNamespace := (known.nameSpace.map (·.nameSpace)).getD ""
    status := .inProgress }

/-- The announcement of a call, and the arguments that came before it. -/
def announce (setting : ChatSetting) (s : ChatCompletionsToResponsesStreamState)
    (stored : StreamTool) : ChatToResponses :=
  let known := decided setting stored
  andThen
    (chatToResponsesEvent (setTool s stored.index (decided setting)) .outputItemAdded
      { type := .outputItemAdded, outputIndex := stored.outputIndex
        item := some (announcedItem setting stored) })
    fun s =>
      if known.isCustom = false ∧ known.isToolSearch = false ∧ stored.arguments ≠ "" then
        argumentsDelta s stored stored.arguments
      else (s, [])

/-- `announceChatToolItem`. -/
def announceChatToolItem (setting : ChatSetting) (force : Bool)
    (s : ChatCompletionsToResponsesStreamState) (index : ℤ) : ChatToResponses :=
  match tool s index with
  | none => (s, [])
  | some stored =>
    if stored.announced then (s, [])
    else if force = false ∧ stored.name = "" ∧ telling setting.tools then (s, [])
    else announce setting s stored

/-- A later fragment of a call may bring its id or its name. -/
def mergeCall (call : ChatToolCall) (stored : StreamTool) : StreamTool :=
  { stored with
    id := if call.id ≠ "" then call.id else stored.id
    name := if call.function.name ≠ "" then call.function.name else stored.name }

/-- The call that is stored at its first fragment: its arguments are added later. -/
def newCall (setting : ChatSetting) (s : ChatCompletionsToResponsesStreamState) (index : ℤ)
    (call : ChatToolCall) : StreamTool :=
  { index := index
    id := if call.id = "" then generatedItemID setting s.generated else call.id
    name := call.function.name
    itemID := generatedItemID setting (if call.id = "" then s.generated + 1 else s.generated)
    outputIndex := s.nextOutputIndex }

/-- The state once a new call has taken the next index. -/
def takeCall (setting : ChatSetting) (s : ChatCompletionsToResponsesStreamState) (index : ℤ)
    (call : ChatToolCall) : ChatCompletionsToResponsesStreamState :=
  { s with
    toolCalls := s.toolCalls ++ [newCall setting s index call]
    generated := if call.id = "" then s.generated + 2 else s.generated + 1
    nextOutputIndex := s.nextOutputIndex + 1 }

/-- A fragment's call is stored, or merged into the stored one. -/
def storeCall (setting : ChatSetting) (s : ChatCompletionsToResponsesStreamState) (index : ℤ)
    (call : ChatToolCall) : ChatToResponses :=
  match tool s index with
  | some _ => (setTool s index (mergeCall call), [])
  | none => andThen (closeReasoningItem s) fun s => (takeCall setting s index call, [])

def appendArguments (arguments : String) (stored : StreamTool) : StreamTool :=
  { stored with arguments := stored.arguments ++ arguments }

/-- More arguments of a stored call; those of an item that takes them later are kept back. -/
def addArguments (s : ChatCompletionsToResponsesStreamState) (index : ℤ) (arguments : String) :
    ChatToResponses :=
  match tool s index with
  | none => (s, [])
  | some stored =>
    if arguments = "" then (s, [])
    else
      let s := setTool s index (appendArguments arguments)
      if stored.announced ∧ stored.isCustom = false ∧ stored.isToolSearch = false then
        argumentsDelta s stored arguments
      else (s, [])

/-- A fragment of a call. -/
def handleToolCall (setting : ChatSetting) (s : ChatCompletionsToResponsesStreamState)
    (call : ChatToolCall) : ChatToResponses :=
  let index := call.index.getD 0
  andThen (storeCall setting s index call) fun s =>
    andThen (announceChatToolItem setting false s index) fun s =>
      addArguments s index call.function.arguments

/-! ### Chunks -/

/-- What a chunk brings, in the order in which it is taken; `head` is all of the chunk but its
choices. Between chunks the caller may close the message or find the text to go in circles. -/
inductive ChatInput where
  | head (chunk : ChatCompletionsChunk)
  | reasoning (text : String)
  | content (text : String)
  | toolCall (call : ChatToolCall)
  | finishReason (reason : String)
  | closeMessage
  | degenerated

/-- A chunk's fragments; a missing text is treated as an empty one. -/
def fragments (chunk : ChatCompletionsChunk) : List ChatInput :=
  .head chunk :: chunk.choices.flatMap fun choice =>
    [.reasoning (choice.delta.reasoningText.getD ""), .content (choice.delta.content.getD "")] ++
      choice.delta.toolCalls.map .toolCall ++ [.finishReason (choice.finishReason.getD "")]

def handleHead (chunk : ChatCompletionsChunk) (s : ChatCompletionsToResponsesStreamState) :
    ChatToResponses :=
  ensureCreated
    { s with
      responseID := if chunk.id ≠ "" ∧ s.createdSent = false then chunk.id else s.responseID
      model := if s.model = "" ∧ chunk.model ≠ "" then chunk.model else s.model
      serviceTier := if chunk.serviceTier ≠ "" then chunk.serviceTier else s.serviceTier
      usage := if chunk.usage.isSome then chunk.usage.map chatUsageToResponsesUsage else s.usage }

def handleReasoning (setting : ChatSetting) (text : String)
    (s : ChatCompletionsToResponsesStreamState) : ChatToResponses :=
  if text = "" then (s, [])
  else
    andThen (ensureReasoningItem setting s) fun s =>
      chatToResponsesEvent { s with reasoning := s.reasoning ++ text } .reasoningSummaryTextDelta
        { type := .reasoningSummaryTextDelta, outputIndex := s.reasoningIndex, summaryIndex := 0
          delta := text, itemID := s.reasoningItemID }

def handleContent (setting : ChatSetting) (text : String)
    (s : ChatCompletionsToResponsesStreamState) : ChatToResponses :=
  if text = "" then (s, [])
  else andThen (closeReasoningItem s) fun s => writeText setting s text

def handleInput (setting : ChatSetting) (s : ChatCompletionsToResponsesStreamState) :
    ChatInput → ChatToResponses
  | .head chunk => handleHead chunk s
  | .reasoning text => handleReasoning setting text s
  | .content text => handleContent setting text s
  | .toolCall call => handleToolCall setting s call
  | .finishReason reason =>
    (if reason ≠ "" then { s with finishReason := reason } else s, [])
  | .closeMessage => closeChatMessageItem s
  | .degenerated => ({ s with degeneration := true }, [])

/-- `ChatCompletionsChunkToResponsesEvents`. -/
def chatCompletionsChunkToResponsesEvents (setting : ChatSetting)
    (s : ChatCompletionsToResponsesStreamState) (chunk : ChatCompletionsChunk) : ChatToResponses :=
  run (handleInput setting) s (fragments chunk)

/-! ### The end -/

/-- `synthesizeChatReasoningFallbackMessage`. -/
def synthesizeReasoningFallback (setting : ChatSetting)
    (s : ChatCompletionsToResponsesStreamState) : ChatToResponses :=
  if s.messageItemID ≠ "" ∨ s.text ≠ "" ∨ s.reasoning = "" ∨ s.toolCalls ≠ [] then (s, [])
  else if trimSpace s.reasoning = "" then (s, [])
  else writeText setting s s.reasoning

/-- `orderedToolCallIndices`. -/
def orderedToolCallIndices (s : ChatCompletionsToResponsesStreamState) : List ℤ :=
  (s.toolCalls.insertionSort fun a b => a.outputIndex ≤ b.outputIndex).map (·.index)

/-- The finished item of a call. -/
def toolItem (setting : ChatSetting) (stored : StreamTool) (id : String) : ResponsesOutput :=
  let arguments := finishedArguments stored.arguments
  if stored.isCustom then
    { type := .customToolCall, id := id, callID := stored.id
      name := customNameForStreamTool setting stored.name
      input := extractCustomToolCallInput arguments, status := .completed }
  else if stored.isToolSearch then
    { type := .toolSearchCall, id := id, callID := stored.id, arguments := arguments
      status := .completed }
  else
    { type := .functionCall, id := id, callID := stored.id
      name := (stored.nameSpace.map (·.name)).getD stored.name
      toolNamespace := (stored.nameSpace.map (·.nameSpace)).getD ""
      arguments := arguments, status := .completed }

/-- The events that end a call whose item was announced. -/
def endTool (setting : ChatSetting) (s : ChatCompletionsToResponsesStreamState)
    (stored : StreamTool) : ChatToResponses :=
  let item := toolItem setting stored stored.itemID
  let itemDone (s : ChatCompletionsToResponsesStreamState) :=
    chatToResponsesEvent s .outputItemDone
      { type := .outputItemDone, outputIndex := stored.outputIndex, item := some item }
  if stored.isCustom then
    andThen
      (if item.input ≠ "" then
        chatToResponsesEvent s .customToolCallInputDelta
          { type := .customToolCallInputDelta, outputIndex := stored.outputIndex
            itemID := stored.itemID, delta := item.input }
      else (s, []))
      fun s => andThen
        (chatToResponsesEvent s .customToolCallInputDone
          { type := .customToolCallInputDone, outputIndex := stored.outputIndex
            itemID := stored.itemID, callID := item.callID, name := item.name
            input := item.input })
        itemDone
  else if stored.isToolSearch then itemDone s
  else
    andThen
      (chatToResponsesEvent s .functionCallArgumentsDone
        { type := .functionCallArgumentsDone, outputIndex := stored.outputIndex
          itemID := stored.itemID, callID := item.callID, name := item.name
          arguments := item.arguments })
      itemDone

/-- One round of `closeChatToolItems`; a call that was never announced is announced now. -/
def closeTool (setting : ChatSetting) (s : ChatCompletionsToResponsesStreamState) (index : ℤ) :
    ChatToResponses :=
  andThen (announceChatToolItem setting true s index) fun s =>
    match tool s index with
    | none => (s, [])
    | some stored => endTool setting s stored

/-- `closeChatToolItems`. -/
def closeChatToolItems (setting : ChatSetting) (s : ChatCompletionsToResponsesStreamState) :
    ChatToResponses :=
  run (closeTool setting) s (orderedToolCallIndices s)

/-- `nonEmpty`. -/
def nonEmpty (value fallback : String) : String := if value ≠ "" then value else fallback

/-- `chatOutput`; an id is generated for every item but the closed messages, and used when the
item has none. -/
def chatOutput (setting : ChatSetting) (s : ChatCompletionsToResponsesStreamState) :
    List ResponsesOutput :=
  let reasoning : List ResponsesOutput :=
    if s.reasoning ≠ "" then
      [{ type := .reasoning
         id := nonEmpty s.reasoningItemID (generatedItemID setting s.generated)
         summary := [{ type := .summaryText, text := s.reasoning }] }]
    else []
  let next := s.generated + reasoning.length
  let message : List ResponsesOutput :=
    if s.messageItemID ≠ "" ∨ s.toolCalls = [] then
      [{ messageItem s with
         id := nonEmpty s.messageItemID (generatedItemID setting next) }]
    else []
  let next := next + message.length
  let tools := (orderedToolCallIndices s).zipIdx.filterMap fun (index, n) =>
    (tool s index).map fun stored =>
      toolItem setting stored (nonEmpty stored.itemID (generatedItemID setting (next + n)))
  reasoning ++ s.closedMessages ++ message ++ tools

/-- The terminal event of `FinalizeChatCompletionsResponsesStream`. -/
def completeResponse (setting : ChatSetting) (s : ChatCompletionsToResponsesStreamState) :
    ChatToResponses :=
  let cut := s.finishReason = "length"
  chatToResponsesEvent { s with completedSent := true } (if cut then .incomplete else .completed)
    { type := .completed
      response := some
        { id := s.responseID, createdAt := s.created, model := s.model
          status := if cut then .incomplete else .completed
          serviceTier := s.serviceTier, output := chatOutput setting s, usage := s.usage
          incompleteDetails := if cut then some { reason := "max_output_tokens" } else none } }

/-- `FinalizeChatCompletionsResponsesStream`. -/
def finalizeChatCompletionsResponsesStream (setting : ChatSetting)
    (s : ChatCompletionsToResponsesStreamState) : ChatToResponses :=
  if s.completedSent then (s, [])
  else
    andThen (ensureCreated s) fun s =>
    andThen (closeReasoningItem s) fun s =>
    andThen (if s.degeneration then (s, []) else synthesizeReasoningFallback setting s) fun s =>
    andThen (if s.messageItemID ≠ "" then endMessage s else (s, [])) fun s =>
    andThen (closeChatToolItems setting s) fun s =>
    completeResponse setting s

/-! ### Whole streams -/

/-- What the caller does with the state before it finalizes the stream. -/
inductive ChatAction where
  | chunk (chunk : ChatCompletionsChunk)
  | closeMessage
  | degenerated

def act (setting : ChatSetting) (s : ChatCompletionsToResponsesStreamState) :
    ChatAction → ChatToResponses
  | .chunk chunk => chatCompletionsChunkToResponsesEvents setting s chunk
  | .closeMessage => handleInput setting s .closeMessage
  | .degenerated => handleInput setting s .degenerated

/-- The Responses stream of some actions, finalized. -/
def chatStream (setting : ChatSetting) (model : String) (created : ℤ)
    (actions : List ChatAction) : List ResponsesStreamEvent :=
  (andThen (run (act setting) (newState setting model created) actions)
    (finalizeChatCompletionsResponsesStream setting)).2

end ChatToResponses

end Sub2api.ApiCompat
