import Sub2api.ApiCompat.Types

/-!
# Chat Completions, and what the bridge to Responses reads of it

Messages, chunks and tool calls of the Chat Completions API, the tools that the Responses client
declared, and how the name and the arguments of a lowered call are taken back. SHA-256 and the
random source are parameters.
-/

namespace Sub2api.ApiCompat

open Go

/-! ### Messages and chunks -/

structure ChatFunctionCall where
  name : String := ""
  arguments : String := ""
  deriving DecidableEq

structure ChatToolCall where
  index : Option ℤ := none
  id : String := ""
  function : ChatFunctionCall := {}
  deriving DecidableEq

structure ChatContentPart where
  type : String
  text : String := ""

/-- The JSON of a message's content: absent or `null`, a string, an array of parts, or neither. -/
inductive ChatContent where
  | absent
  | text (text : String)
  | parts (parts : List ChatContentPart)
  | other

structure ChatMessage where
  content : ChatContent := .absent
  reasoningContent : String := ""
  reasoning : String := ""
  toolCalls : List ChatToolCall := []

structure ChatTokenDetails where
  cachedTokens : ℤ := 0
  cacheCreationTokens : ℤ := 0
  cacheWriteTokens : ℤ := 0

structure ChatUsage where
  promptTokens : ℤ := 0
  completionTokens : ℤ := 0
  totalTokens : ℤ := 0
  promptTokensDetails : Option ChatTokenDetails := none

structure ChatChoice where
  message : ChatMessage
  finishReason : String := ""

structure ChatCompletionsResponse where
  id : String := ""
  created : ℤ := 0
  model : String := ""
  choices : List ChatChoice := []
  usage : Option ChatUsage := none
  serviceTier : String := ""

structure ChatDelta where
  content : Option String := none
  reasoningContent : Option String := none
  reasoning : Option String := none
  toolCalls : List ChatToolCall := []

structure ChatChunkChoice where
  delta : ChatDelta := {}
  finishReason : Option String := none

structure ChatCompletionsChunk where
  id : String := ""
  model : String := ""
  choices : List ChatChunkChoice := []
  usage : Option ChatUsage := none
  serviceTier : String := ""

/-- `ChatMessage.reasoningText`. -/
def ChatMessage.reasoningText (message : ChatMessage) : String :=
  if message.reasoningContent ≠ "" then message.reasoningContent else message.reasoning

/-- `ChatDelta.reasoningText`. -/
def ChatDelta.reasoningText (delta : ChatDelta) : Option String :=
  if delta.reasoningContent.isSome then delta.reasoningContent else delta.reasoning

/-- `chatMessageContentText`. -/
def chatMessageContentText : ChatContent → String
  | .text text => text
  | .parts parts =>
    String.intercalate "\n\n"
      ((parts.filter fun part => part.type = "text" ∧ part.text ≠ "").map (·.text))
  | .absent | .other => ""

/-- `ChatUsageToResponsesUsage`. -/
def chatUsageToResponsesUsage (usage : ChatUsage) : ResponsesUsage :=
  let out : ResponsesUsage :=
    { inputTokens := usage.promptTokens
      outputTokens := usage.completionTokens
      totalTokens :=
        if usage.totalTokens = 0 then usage.promptTokens + usage.completionTokens
        else usage.totalTokens }
  match usage.promptTokensDetails with
  | none => out
  | some details =>
    if details.cachedTokens > 0 ∨ details.cacheCreationTokens > 0 ∨ details.cacheWriteTokens > 0 then
      { out with
        inputTokensDetails := some
          { cachedTokens := details.cachedTokens
            cacheCreationTokens := details.cacheCreationTokens
            cacheWriteTokens := details.cacheWriteTokens }
        cacheCreationInputTokens :=
          if details.cacheWriteTokens > 0 then details.cacheWriteTokens
          else details.cacheCreationTokens }
    else out

/-! ### The client's tools -/

structure NamespacedToolName where
  nameSpace : String
  name : String

/-- The custom tools and the top-level functions by name, whether `tool_search` was declared, and
the flattened names of namespace tools. The maps have no order, and no name is empty. -/
structure RequestTools where
  customTools : List String := []
  functionTools : List String := []
  toolSearchDeclared : Bool := false
  namespaceTools : List (String × NamespacedToolName) := []

/-- What the conversion does not decide itself: the twelve bytes of each read of the random
source, SHA-256, and the client's tools. -/
structure ChatSetting where
  randomBytes : ℕ → List (Fin 256)
  sha256 : String → List (Fin 256)
  tools : RequestTools

/-- The runes of a text up to a number of bytes. -/
def takeBytes : ℕ → List Char → List Char
  | _, [] => []
  | room, c :: rest => if c.utf8Size ≤ room then c :: takeBytes (room - c.utf8Size) rest else []

/-- `flattenNamespaceToolName`. -/
def flattenNamespaceToolName (setting : ChatSetting) (nameSpace name : String) : String :=
  let full := nameSpace ++ "__" ++ name
  if full.utf8ByteSize ≤ 64 then full
  else
    let suffix := "__" ++ hexEncode ((setting.sha256 full).take 4)
    String.ofList (takeBytes (64 - suffix.utf8ByteSize) full.toList) ++ suffix

/-- The custom tools whose name, prefixed by one of the namespaces, is this one. -/
def prefixedCustomTools (setting : ChatSetting) (name : String) : List String :=
  setting.tools.customTools.filter fun customName =>
    setting.tools.namespaceTools.any fun tool =>
      flattenNamespaceToolName setting tool.2.nameSpace customName == name ||
        tool.2.nameSpace ++ "." ++ customName == name

/-- `customToolCallName`: a name that is prefixed is taken back when only one tool fits. -/
def customToolCallName (setting : ChatSetting) (name : String) : Option String :=
  let tools := setting.tools
  if name ∈ tools.functionTools then none
  else if name ∈ tools.customTools then some name
  else if (tools.namespaceTools.lookup name).isSome then none
  else if tools.namespaceTools.any fun tool =>
      name == tool.2.nameSpace ++ "." ++ tool.2.name ||
        name == "functions." ++ tool.2.nameSpace ++ "." ++ tool.2.name then none
  else
    let customName := String.ofList (name.toList.drop "functions.".length)
    if hasPrefix name "functions." ∧ customName ∈ tools.customTools then some customName
    else
      match (prefixedCustomTools setting name).dedup with
      | [customName] => some customName
      | _ => none

/-- `customNameForStreamTool`. -/
def customNameForStreamTool (setting : ChatSetting) (name : String) : String :=
  (customToolCallName setting name).getD name

/-- `toolSearchProxyName`. -/
def toolSearchProxyName : String := "tool_search"

/-- `extractCustomToolCallInput`. -/
def extractCustomToolCallInput (arguments : String) : String :=
  let trimmed := trimSpace arguments
  if trimmed = "" then ""
  else
    match Json.unmarshalMap trimmed with
    | none => trimmed
    | some obj =>
      match obj.lookup "input" with
      | some raw => (Json.unmarshalString raw).getD trimmed
      | none => if obj = [] then "" else trimmed

/-- The arguments of a finished call: blank ones are the empty object. -/
def finishedArguments (arguments : String) : String :=
  if trimSpace arguments = "" then "\x7b\x7d" else arguments

/-- `generateItemID`, at the `n`-th read of the random source. -/
def generatedItemID (setting : ChatSetting) (n : ℕ) : String :=
  "item_" ++ hexEncode (setting.randomBytes n)

theorem generatedItemID_ne {setting : ChatSetting} {n : ℕ} : generatedItemID setting n ≠ "" := by
  intro empty
  have := congrArg String.toList empty
  simp [generatedItemID] at this

end Sub2api.ApiCompat
