import Sub2api.Go.Json
import Sub2api.Transducer.Observed

/-!
# Wire types of the two streaming APIs

Responses items, responses and stream events, and Anthropic blocks, messages and stream events,
with the fields that the converters read or write. A `type` or `status` field is one of the names
the converters tell apart, or another name.
-/

namespace Sub2api.ApiCompat

/-! ### Responses -/

inductive ItemType where
  | message
  | reasoning
  | functionCall
  | customToolCall
  | toolSearchCall
  | webSearchCall
  | other (name : String)
  deriving DecidableEq

inductive PartType where
  | outputText
  | summaryText
  | other (name : String)
  deriving DecidableEq

inductive ResponsesStatus where
  | unset
  | inProgress
  | completed
  | incomplete
  | failed
  | other (name : String)
  deriving DecidableEq

structure ResponsesContentPart where
  type : PartType
  text : String := ""
  deriving DecidableEq

structure ResponsesSummary where
  type : PartType
  text : String
  deriving DecidableEq

structure WebSearchAction where
  query : String
  deriving DecidableEq

/-- One output item. -/
structure ResponsesOutput where
  type : ItemType
  id : String := ""
  role : String := ""
  content : List ResponsesContentPart := []
  status : ResponsesStatus := .unset
  encryptedContent : String := ""
  summary : List ResponsesSummary := []
  callID : String := ""
  name : String := ""
  arguments : String := ""
  toolNamespace : String := ""
  input : String := ""
  action : Option WebSearchAction := none
  deriving DecidableEq

structure ResponsesInputTokensDetails where
  cachedTokens : ℤ := 0
  cacheCreationTokens : ℤ := 0
  cacheWriteTokens : ℤ := 0

structure ResponsesUsage where
  inputTokens : ℤ
  outputTokens : ℤ
  totalTokens : ℤ := 0
  cacheCreationInputTokens : ℤ := 0
  inputTokensDetails : Option ResponsesInputTokensDetails := none

structure ResponsesIncompleteDetails where
  reason : String

structure ResponsesResponse where
  id : String := ""
  createdAt : ℤ := 0
  model : String := ""
  status : ResponsesStatus := .unset
  output : List ResponsesOutput := []
  usage : Option ResponsesUsage := none
  serviceTier : String := ""
  incompleteDetails : Option ResponsesIncompleteDetails := none

/-- The `type` of a Responses stream event; `response.done` is an alias of the terminal event. -/
inductive ResponsesEventType where
  | created
  | outputItemAdded
  | outputItemDone
  | contentPartAdded
  | contentPartDone
  | outputTextDelta
  | outputTextDone
  | functionCallArgumentsDelta
  | functionCallArgumentsDone
  | customToolCallInputDelta
  | customToolCallInputDone
  | reasoningSummaryPartAdded
  | reasoningSummaryPartDone
  | reasoningSummaryTextDelta
  | reasoningSummaryTextDone
  | reasoningTextDelta
  | completed
  | done
  | incomplete
  | failed
  | other (name : String)
  deriving DecidableEq

/-- The event ends the response. -/
def ResponsesEventType.terminal : ResponsesEventType → Bool
  | .completed | .done | .incomplete | .failed => true
  | _ => false

structure ResponsesStreamEvent where
  type : ResponsesEventType
  response : Option ResponsesResponse := none
  usage : Option ResponsesUsage := none
  item : Option ResponsesOutput := none
  outputIndex : ℤ := 0
  contentIndex : ℤ := 0
  delta : String := ""
  text : String := ""
  itemID : String := ""
  callID : String := ""
  name : String := ""
  arguments : String := ""
  input : String := ""
  summaryIndex : ℤ := 0
  part : Option ResponsesContentPart := none
  sequenceNumber : ℤ := 0

/-! ### Anthropic -/

inductive BlockType where
  | text
  | thinking
  | redactedThinking
  | toolUse
  | serverToolUse
  | webSearchToolResult
  | other (name : String)
  deriving DecidableEq

/-- A content block; `input` and `content` are JSON. -/
structure AnthropicContentBlock where
  type : BlockType
  text : String := ""
  thinking : String := ""
  signature : String := ""
  data : String := ""
  id : String := ""
  name : String := ""
  input : String := ""
  toolUseID : String := ""
  content : String := ""
  deriving DecidableEq

structure AnthropicUsage where
  inputTokens : ℤ := 0
  outputTokens : ℤ := 0
  cacheCreationInputTokens : ℤ := 0
  cacheReadInputTokens : ℤ := 0

structure AnthropicResponse where
  id : String := ""
  content : List AnthropicContentBlock := []
  model : String := ""
  stopReason : Option String := none
  usage : AnthropicUsage := {}

/-- The `type` of a delta; the delta of a message has none. -/
inductive DeltaType where
  | unset
  | text
  | inputJSON
  | thinking
  | signature
  | other (name : String)
  deriving DecidableEq

structure AnthropicDelta where
  type : DeltaType := .unset
  text : String := ""
  partialJSON : String := ""
  thinking : String := ""
  signature : String := ""
  stopReason : String := ""

inductive AnthropicEventType where
  | messageStart
  | contentBlockStart
  | contentBlockDelta
  | contentBlockStop
  | messageDelta
  | messageStop
  | other (name : String)
  deriving DecidableEq

structure AnthropicStreamEvent where
  type : AnthropicEventType
  message : Option AnthropicResponse := none
  index : Option ℤ := none
  contentBlock : Option AnthropicContentBlock := none
  delta : Option AnthropicDelta := none
  usage : Option AnthropicUsage := none

end Sub2api.ApiCompat

/-!
### Well-formed Anthropic streams

One message start, then blocks one after the other with indices from zero on, each with deltas of
its kind, then one message delta and one message stop.
-/

namespace Sub2api.ApiCompat

open Transducer

/-- How far a reader of the stream has come. -/
inductive Phase where
  | notStarted
  | between (next : ℤ)
  | inBlock (index : ℤ) (type : BlockType)
  | ending
  | ended
  deriving DecidableEq

/-- The deltas of a block. -/
def BlockType.takes : BlockType → DeltaType → Bool
  | .text, .text => true
  | .thinking, .thinking | .thinking, .signature => true
  | .toolUse, .inputJSON | .serverToolUse, .inputJSON => true
  | _, _ => false

/-- The next event of a well-formed stream. -/
def Phase.follow (phase : Phase) (evt : AnthropicStreamEvent) : Option Phase :=
  match phase, evt.type with
  | .notStarted, .messageStart => some (.between 0)
  | .between next, .contentBlockStart =>
    match evt.contentBlock with
    | some block => if evt.index = some next then some (.inBlock next block.type) else none
    | none => none
  | .between _, .messageDelta => some .ending
  | .inBlock index type, .contentBlockDelta =>
    match evt.delta with
    | some delta =>
      if evt.index = some index ∧ type.takes delta.type then some (.inBlock index type) else none
    | none => none
  | .inBlock index _, .contentBlockStop =>
    if evt.index = some index then some (.between (index + 1)) else none
  | .ending, .messageStop => some .ended
  | _, _ => none

/-- The stream is well-formed from its first event to its last. -/
def WellFormedStream (events : List AnthropicStreamEvent) : Prop :=
  observe Phase.follow .notStarted events = some .ended

instance (events : List AnthropicStreamEvent) : Decidable (WellFormedStream events) :=
  inferInstanceAs (Decidable (_ = _))

end Sub2api.ApiCompat
