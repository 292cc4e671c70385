import Sub2api.ApiCompat.Types
import Sub2api.Go.Base64
import Sub2api.Go.JsonPrefix
import Sub2api.Go.JsonStruct

/-!
# Responses history to Anthropic messages

`convertResponsesInputToAnthropic`: each item of a Responses history becomes system text, a
message or nothing; then adjacent messages of one role are merged, calls and results are paired,
and what the pairing left side by side is merged again. The content of an item or of a message is
what `json.Unmarshal` finds in it, so raw JSON texts count up to the white space that
`json.Marshal` takes out.
-/

namespace Sub2api.ApiCompat

open Go

@[match_pattern] abbrev ItemType.functionCallOutput : ItemType := .other "function_call_output"

@[match_pattern] abbrev BlockType.toolResult : BlockType := .other "tool_result"

@[match_pattern] abbrev BlockType.image : BlockType := .other "image"

@[match_pattern] abbrev BlockType.document : BlockType := .other "document"

namespace AnthropicRequest

/-! ### Anthropic messages -/

structure AnthropicImageSource where
  type : String := ""
  mediaType : String := ""
  data : String := ""
  deriving DecidableEq

structure AnthropicCacheControl where
  type : String := ""
  ttl : String := ""
  deriving DecidableEq

/-- A content block of a request. -/
structure RequestBlock extends AnthropicContentBlock where
  cacheControl : Option AnthropicCacheControl := none
  source : Option AnthropicImageSource := none
  isError : Bool := false
  deriving DecidableEq

/-- `json.Marshal` succeeds: the raw fields are JSON. -/
def RequestBlock.marshals (b : RequestBlock) : Bool :=
  (b.input = "" || Json.valid b.input) && (b.content = "" || Json.valid b.content)

inductive MessageRole where
  | user
  | assistant
  deriving DecidableEq

/-- The content of a message: nothing at all, `null`, a string, an array of blocks, or JSON that is
none of these. -/
inductive MessageContent where
  | nothing
  | null
  | text (text : String)
  | blocks (blocks : List RequestBlock)
  | other
  deriving DecidableEq

structure AnthropicMessage where
  role : MessageRole
  content : MessageContent
  deriving DecidableEq

/-- `json.Marshal` of blocks with its error dropped: a block that does not marshal leaves nothing. -/
def marshalBlocks (blocks : List RequestBlock) : MessageContent :=
  if blocks = [] then .null else if blocks.all RequestBlock.marshals then .blocks blocks else .nothing

/-- `parseContentBlocks`. -/
def parseContentBlocks : MessageContent → List RequestBlock
  | .blocks blocks => blocks
  | .text text => [{ type := .text, text := text }]
  | .nothing | .null | .other => []

/-- `anthropicContentIsEmpty`. -/
def anthropicContentIsEmpty : MessageContent → Bool
  | .nothing | .null => true
  | .text text => text = ""
  | .blocks blocks => blocks = []
  | .other => false

/-- `anthropicContentIsOnlyBlankText`. -/
def anthropicContentIsOnlyBlankText (content : MessageContent) : Bool :=
  let blocks := parseContentBlocks content
  blocks ≠ [] && blocks.all fun b => b.type = .text && trimSpace b.text = ""

def AnthropicMessage.blocks (m : AnthropicMessage) : List RequestBlock :=
  parseContentBlocks m.content

/-! ### Responses items -/

inductive ItemRole where
  | system
  | developer
  | user
  | assistant
  | other (name : String)
  deriving DecidableEq

structure InputPart extends ResponsesContentPart where
  imageURL : String := ""
  fileData : String := ""

/-- Blocks that were read from JSON: their raw fields are JSON, and an array without elements would
have been one of parts. -/
structure PassedBlocks where
  blocks : List RequestBlock
  nonempty : blocks ≠ []
  marshals : blocks.all RequestBlock.marshals

/-- The content of an item: absent, a string or `null`, an array of parts, an array that is one of
Anthropic blocks only, or JSON that is none of these. -/
inductive ItemContent where
  | absent
  | text (text : String)
  | parts (parts : List InputPart)
  | blocks (passed : PassedBlocks)
  | other

/-- The output of a call: a string (empty when it is absent or `null`), or JSON that is an array of
parts or is not. -/
inductive ItemOutput where
  | text (text : String)
  | parts (raw : String) (parts : List InputPart)
  | other (raw : String)

structure ResponsesInputItem where
  type : ItemType := .message
  role : ItemRole := .other ""
  content : ItemContent := .absent
  encryptedContent : String := ""
  callID : String := ""
  name : String := ""
  arguments : String := ""
  output : ItemOutput := .text ""

/-! ### Contents -/

/-- `strings.TrimPrefix` when the prefix is there, as `strings.CutPrefix`. -/
def cutPrefix (s start : String) : Option String :=
  if hasPrefix s start then some (String.ofList (s.toList.drop start.toList.length)) else none

/-- `fromResponsesCallIDToAnthropic`. -/
def fromResponsesCallIDToAnthropic (id : String) : String :=
  let marked (id : String) := hasPrefix id "toolu_" || hasPrefix id "call_"
  match (cutPrefix id "fc_").filter marked with
  | some after => after
  | none => if marked id then id else "toolu_" ++ id

/-- `dataURIToAnthropicImageSource`. -/
def dataURIToAnthropicImageSource (dataURI : String) : Option AnthropicImageSource := do
  let rest ← cutPrefix dataURI "data:"
  let mediaType := rest.toList.takeWhile (· ≠ ';')
  let rest := rest.toList.dropWhile (· ≠ ';')
  if rest = [] then none
  else
    let data ← cutPrefix (String.ofList rest.tail) "base64,"
    some { type := "base64", mediaType := String.ofList mediaType, data := data }

/-- `dataURIToAnthropicFileSource`. -/
def dataURIToAnthropicFileSource (fileData : String) : Option AnthropicImageSource :=
  dataURIToAnthropicImageSource fileData

def textBlock (text : String) : RequestBlock := { type := .text, text := text }

/-- The text that a part stands for, where its type is one that carries text. -/
def partText (part : InputPart) : Option String :=
  match part.type with
  | .other "input_text" | .outputText | .other "text" =>
    if part.text = "" then none else some part.text
  | _ => none

/-- `extractTextFromContent`. -/
def extractTextFromContent : ItemContent → String
  | .text text => text
  | .parts parts => String.intercalate "\n\n" (parts.filterMap partText)
  | .absent | .blocks _ | .other => ""

/-- The block of a part of a user message. -/
def userPartBlock (part : InputPart) : Option RequestBlock :=
  match part.type with
  | .other "input_text" | .other "text" =>
    if part.text = "" then none else some (textBlock part.text)
  | .other "input_image" =>
    (dataURIToAnthropicImageSource part.imageURL).map fun source =>
      { type := .image, source := some source }
  | .other "input_file" =>
    (dataURIToAnthropicFileSource part.fileData).map fun source =>
      { type := .document, source := some source }
  | _ => none

/-- `convertResponsesUserToAnthropicContent`. -/
def convertResponsesUserToAnthropicContent : ItemContent → MessageContent
  | .absent => .text ""
  | .text text => .text text
  | .parts parts =>
    let blocks := parts.filterMap userPartBlock
    if blocks = [] then .text "" else marshalBlocks blocks
  | .blocks passed => .blocks passed.blocks
  | .other => .other

/-- The block of a part of an assistant message. -/
def assistantPartBlock (part : InputPart) : Option RequestBlock :=
  match part.type with
  | .outputText | .other "text" => if part.text = "" then none else some (textBlock part.text)
  | _ => none

/-- `convertResponsesAssistantToAnthropicContent`. -/
def convertResponsesAssistantToAnthropicContent : ItemContent → MessageContent
  | .absent => marshalBlocks [textBlock ""]
  | .text text => marshalBlocks [textBlock text]
  | .parts parts =>
    let blocks := parts.filterMap assistantPartBlock
    marshalBlocks (if blocks = [] then [textBlock ""] else blocks)
  | .blocks passed => .blocks passed.blocks
  | .other => .other

/-- The block of a part of a call's output. -/
def outputPartBlock (part : InputPart) : Option RequestBlock :=
  match part.type with
  | .other "input_text" | .outputText | .other "text" =>
    if part.text = "" then none else some (textBlock part.text)
  | .other "input_image" =>
    (dataURIToAnthropicImageSource part.imageURL).map fun source =>
      { type := .image, source := some source }
  | _ => none

/-- The JSON of a text or image block. -/
def blockJSON (block : RequestBlock) : String :=
  match block.source with
  | none =>
    Json.object [("text", Json.marshalString block.text), ("type", Json.marshalString "text")]
  | some source =>
    Json.object
      [("type", Json.marshalString "image"),
        ("source", Json.object
          [("type", Json.marshalString source.type),
            ("media_type", Json.marshalString source.mediaType),
            ("data", Json.marshalString source.data)])]

/-- `responsesFunctionOutputToAnthropicContent`. -/
def responsesFunctionOutputToAnthropicContent : ItemOutput → String
  | .text text => Json.marshalString (if text = "" then "(empty)" else text)
  | .parts raw parts =>
    let blocks := parts.filterMap outputPartBlock
    if blocks ≠ [] then "[" ++ String.intercalate "," (blocks.map blockJSON) ++ "]"
    else if parts = [] then Json.marshalString "(empty)"
    else Json.marshalString raw
  | .other raw => Json.marshalString raw

/-! ### Thinking envelopes -/

def anthropicThinkingEnvelopePrefix : String := "anthropic-thinking-v1:"

/-- How the conversion fails: the input does not parse, an envelope is no base64, what it holds is
no block, or none that is signed, or does not marshal. -/
inductive ConvertError where
  | parseInput
  | invalidEnvelope
  | invalidBlock
  | invalidSignedBlock
  | marshal
  deriving DecidableEq

/-- The type of a block that is named so. -/
def blockTypeNamed (name : String) : BlockType :=
  if name = "text" then .text
  else if name = "thinking" then .thinking
  else if name = "redacted_thinking" then .redactedThinking
  else if name = "tool_use" then .toolUse
  else if name = "server_tool_use" then .serverToolUse
  else if name = "web_search_tool_result" then .webSearchToolResult
  else .other name

/-- `json.Unmarshal` into a block. -/
def unmarshalBlock (text : String) : Option RequestBlock := do
  let members ← Json.structMembers text
  let type ← Json.stringField members "type"
  let cacheControl ← Json.pointerField (fun inner => do
    let type ← Json.stringField inner "type"
    let ttl ← Json.stringField inner "ttl"
    some ({ type := type, ttl := ttl } : AnthropicCacheControl)) members "cache_control"
  let text ← Json.stringField members "text"
  let thinking ← Json.stringField members "thinking"
  let signature ← Json.stringField members "signature"
  let data ← Json.stringField members "data"
  let source ← Json.pointerField (fun inner => do
    let type ← Json.stringField inner "type"
    let mediaType ← Json.stringField inner "media_type"
    let data ← Json.stringField inner "data"
    some ({ type := type, mediaType := mediaType, data := data } : AnthropicImageSource))
    members "source"
  let id ← Json.stringField members "id"
  let name ← Json.stringField members "name"
  let toolUseID ← Json.stringField members "tool_use_id"
  let isError ← Json.boolField members "is_error"
  some
    { type := blockTypeNamed type, text := text, thinking := thinking, signature := signature
      data := data, id := id, name := name, input := Json.rawField members "input"
      toolUseID := toolUseID, content := Json.rawField members "content"
      cacheControl := cacheControl, source := source, isError := isError }

/-- The block of an envelope, without the prefix. -/
def openEnvelope (envelope : String) : Except ConvertError RequestBlock :=
  match base64Decode envelope with
  | none => .error .invalidEnvelope
  | some raw =>
    match unmarshalBlock (textOf raw) with
    | none => .error .invalidBlock
    | some block =>
      if (block.type ≠ .thinking ∨ block.signature = "") ∧
          (block.type ≠ .redactedThinking ∨ block.data = "") then .error .invalidSignedBlock
      else if block.marshals then .ok block
      else .error .marshal

/-! ### Items -/

/-- What an item adds: system text and messages. -/
structure Converted where
  systemParts : List String := []
  messages : List AnthropicMessage := []

/-- The message of a `function_call`. -/
def functionCallMessage (item : ResponsesInputItem) : AnthropicMessage :=
  { role := .assistant
    content := marshalBlocks
      [{ type := .toolUse, id := fromResponsesCallIDToAnthropic item.callID, name := item.name
         input := if item.arguments = "" then "\x7b\x7d" else item.arguments }] }

/-- The message of a `function_call_output`. -/
def functionCallOutputMessage (item : ResponsesInputItem) : AnthropicMessage :=
  { role := .user
    content := marshalBlocks
      [{ type := .toolResult, toolUseID := fromResponsesCallIDToAnthropic item.callID
         content := responsesFunctionOutputToAnthropicContent item.output }] }

/-- A message that is left out when its content is empty. -/
def userMessage (content : MessageContent) : List AnthropicMessage :=
  if anthropicContentIsEmpty content then [] else [{ role := .user, content := content }]

/-- The body of the loop of `convertResponsesInputToAnthropic`. -/
def convertItem (preserveThinking : Bool) (item : ResponsesInputItem) :
    Except ConvertError Converted :=
  if item.role = .system ∨ item.role = .developer then
    let text := extractTextFromContent item.content
    .ok { systemParts := if text = "" then [] else [text] }
  else if item.type = .functionCall then .ok { messages := [functionCallMessage item] }
  else if item.type = .functionCallOutput then .ok { messages := [functionCallOutputMessage item] }
  else if item.type = .reasoning then
    match cutPrefix item.encryptedContent anthropicThinkingEnvelopePrefix with
    | some envelope =>
      if preserveThinking then do
        let block ← openEnvelope envelope
        pure { messages := [{ role := .assistant, content := marshalBlocks [block] }] }
      else .ok {}
    | none => .ok {}
  else
    match item.role with
    | .assistant =>
      let content := convertResponsesAssistantToAnthropicContent item.content
      if anthropicContentIsEmpty content || anthropicContentIsOnlyBlankText content then .ok {}
      else .ok { messages := [{ role := .assistant, content := content }] }
    | _ => .ok { messages := userMessage (convertResponsesUserToAnthropicContent item.content) }

/-! ### Merging and pairing -/

/-- `mergeConsecutiveMessages`, with the last of the merged messages in hand. -/
def mergeAfter (last : AnthropicMessage) : List AnthropicMessage → List AnthropicMessage
  | [] => [last]
  | msg :: rest =>
    if last.role ≠ msg.role then last :: mergeAfter msg rest
    else mergeAfter { last with content := marshalBlocks (last.blocks ++ msg.blocks) } rest

/-- `mergeConsecutiveMessages`. -/
def mergeConsecutiveMessages : List AnthropicMessage → List AnthropicMessage
  | [] => []
  | msg :: rest => mergeAfter msg rest

/-- The results that the pairing finds in the user messages, the last of an id first. -/
def indexedResults (messages : List AnthropicMessage) : List RequestBlock :=
  ((messages.filter fun m => m.role = .user).flatMap fun m =>
    m.blocks.filter fun b => b.type = .toolResult ∧ b.toolUseID ≠ "").reverse

/-- `results[id]`. -/
def resultFor (messages : List AnthropicMessage) (id : String) : Option RequestBlock :=
  (indexedResults messages).find? fun b => b.toolUseID = id

/-- `anthropicMessageFromBlocks`. -/
def anthropicMessageFromBlocks (role : MessageRole) (blocks : List RequestBlock) :
    AnthropicMessage :=
  { role := role, content := marshalBlocks blocks }

/-- What the pairing makes of a message, by the index of results. -/
def pairMessage (results : String → Option RequestBlock) (m : AnthropicMessage) :
    List AnthropicMessage :=
  match m.role with
  | .assistant =>
    let toolUses := m.blocks.filter fun b => b.type = .toolUse
    let others := m.blocks.filter fun b => b.type ≠ .toolUse
    let kept := toolUses.filter fun b => (results b.id).isSome
    if toolUses = [] then [m]
    else if kept = [] then
      if others = [] then [] else [anthropicMessageFromBlocks .assistant others]
    else
      [anthropicMessageFromBlocks .assistant (others ++ kept),
        anthropicMessageFromBlocks .user (kept.filterMap fun b => results b.id)]
  | .user =>
    let nonResult := m.blocks.filter fun b => b.type ≠ .toolResult
    if m.blocks.all fun b => b.type ≠ .toolResult then [m]
    else if nonResult = [] then [] else [anthropicMessageFromBlocks .user nonResult]

/-- `normalizeAnthropicToolPairing`. -/
def normalizeAnthropicToolPairing (messages : List AnthropicMessage) : List AnthropicMessage :=
  messages.flatMap (pairMessage (resultFor messages))

/-- The three passes over the items' messages. -/
def normalizeMessages (messages : List AnthropicMessage) : List AnthropicMessage :=
  mergeConsecutiveMessages (normalizeAnthropicToolPairing (mergeConsecutiveMessages messages))

/-- The input of a request: a string, a list of items, or JSON that is neither. -/
inductive ResponsesInput where
  | text (text : String)
  | items (items : List ResponsesInputItem)
  | other

/-- The system text. -/
def joinSystem (systemParts : List String) : Option String :=
  if systemParts = [] then none else some (String.intercalate "\n\n" systemParts)

/-- `convertResponsesInputToAnthropic`. -/
def convertResponsesInputToAnthropic (instructions : String) (input : ResponsesInput)
    (preserveThinking : Bool) : Except ConvertError (Option String × List AnthropicMessage) :=
  let systemParts := if trimSpace instructions = "" then [] else [trimSpace instructions]
  match input with
  | .text text => .ok (joinSystem systemParts, [{ role := .user, content := .text text }])
  | .items items => do
    let converted ← items.mapM (convertItem preserveThinking)
    pure (joinSystem (systemParts ++ converted.flatMap Converted.systemParts),
      normalizeMessages (converted.flatMap Converted.messages))
  | .other => .error .parseInput

end AnthropicRequest

end Sub2api.ApiCompat
