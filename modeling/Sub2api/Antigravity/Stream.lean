import Mathlib.Data.Int.Notation
import Mathlib.Data.Nat.Notation
import Sub2api.Go.Strings
import Sub2api.Transducer.Observed

/-!
# Gemini responses and Claude messages

The wire types that the converters read and write, and what they share: the usage, the text of the
grounding, and the names made for calls without one. `Args` is JSON text, or nothing where it is
absent or null.
-/

namespace Sub2api.Antigravity

open Go

/-! ### Gemini -/

structure GeminiInlineData where
  mimeType : String := ""
  data : String := ""

structure GeminiFunctionCall where
  name : String := ""
  args : Option String := none
  id : String := ""
  deriving DecidableEq

structure GeminiPart where
  text : String := ""
  thought : Bool := false
  thoughtSignature : String := ""
  inlineData : Option GeminiInlineData := none
  functionCall : Option GeminiFunctionCall := none

structure GeminiContent where
  parts : List GeminiPart := []

structure GeminiGroundingWeb where
  title : String := ""
  uri : String := ""

structure GeminiGroundingChunk where
  web : Option GeminiGroundingWeb := none

structure GeminiGroundingMetadata where
  webSearchQueries : List String := []
  groundingChunks : List GeminiGroundingChunk := []

structure GeminiCandidate where
  content : Option GeminiContent := none
  finishReason : String := ""
  groundingMetadata : Option GeminiGroundingMetadata := none

structure GeminiTokenDetail where
  modality : String := ""
  tokenCount : ℤ := 0

structure GeminiUsageMetadata where
  promptTokenCount : ℤ := 0
  candidatesTokenCount : ℤ := 0
  cachedContentTokenCount : ℤ := 0
  thoughtsTokenCount : ℤ := 0
  candidatesTokensDetails : List GeminiTokenDetail := []

structure GeminiResponse where
  candidates : List GeminiCandidate := []
  usageMetadata : Option GeminiUsageMetadata := none
  responseID : String := ""

structure V1InternalResponse where
  response : GeminiResponse := {}
  responseID : String := ""

/-- The parts of the first candidate. -/
def GeminiResponse.parts (resp : GeminiResponse) : List GeminiPart :=
  match resp.candidates with
  | [] => []
  | candidate :: _ => candidate.content.elim [] GeminiContent.parts

def GeminiResponse.finishReason (resp : GeminiResponse) : String :=
  match resp.candidates with
  | [] => ""
  | candidate :: _ => candidate.finishReason

def GeminiResponse.groundingMetadata (resp : GeminiResponse) : Option GeminiGroundingMetadata :=
  match resp.candidates with
  | [] => none
  | candidate :: _ => candidate.groundingMetadata

def GeminiUsageMetadata.imageOutputTokens (m : GeminiUsageMetadata) : ℤ :=
  match m.candidatesTokensDetails.find? (·.modality = "IMAGE") with
  | some d => d.tokenCount
  | none => 0

/-! ### Claude -/

/-- The `type` of a content block. -/
inductive ContentType where
  | text
  | thinking
  | toolUse
  deriving DecidableEq

/-- A content block; `input` is JSON text, or nothing where it is left out. -/
structure ClaudeContentItem where
  type : ContentType
  text : String := ""
  thinking : String := ""
  signature : String := ""
  id : String := ""
  name : String := ""
  input : Option String := none
  deriving DecidableEq

structure ClaudeUsage where
  inputTokens : ℤ := 0
  outputTokens : ℤ := 0
  cacheReadInputTokens : ℤ := 0
  imageOutputTokens : ℤ := 0
  deriving DecidableEq

/-- What Gemini counts as prompt tokens contains the cached ones, Claude's input tokens do not. -/
def GeminiUsageMetadata.claudeUsage (m : GeminiUsageMetadata) : ClaudeUsage where
  inputTokens := m.promptTokenCount - m.cachedContentTokenCount
  outputTokens := m.candidatesTokenCount + m.thoughtsTokenCount
  cacheReadInputTokens := m.cachedContentTokenCount
  imageOutputTokens := m.imageOutputTokens

/-! ### Texts -/

/-- A link of the grounding, with its number. -/
def groundingLink (chunk : GeminiGroundingChunk × ℕ) : Option String :=
  chunk.1.web.map fun web =>
    let title := trimSpace web.title
    let uri := trimSpace web.uri
    "[" ++ toString (chunk.2 + 1) ++ "] [" ++ (if title = "" then "Source" else title) ++ "](" ++
      (if uri = "" then "#" else uri) ++ ")"

def buildGroundingText (grounding : GeminiGroundingMetadata) : String :=
  let queries :=
    if grounding.webSearchQueries = [] then ""
    else "\n\n---\nWeb search queries: " ++ join grounding.webSearchQueries ", "
  let links := grounding.groundingChunks.zipIdx.filterMap groundingLink
  queries ++ if links = [] then "" else "\n\nSources:\n" ++ join links "\n"

def markdownImg (image : GeminiInlineData) : String :=
  "![image](data:" ++ image.mimeType ++ ";base64," ++ image.data ++ ")"

/-- The image of a part. -/
def GeminiPart.image (part : GeminiPart) : Option String :=
  part.inlineData.bind fun image => if image.data = "" then none else some (markdownImg image)

theorem markdownImg_nonempty (image : GeminiInlineData) : markdownImg image ≠ "" := by
  intro empty
  have chars : (markdownImg image).toList = [] := by
    rw [empty]
    rfl
  unfold markdownImg at chars
  simp only [String.toList_append, List.append_eq_nil_iff] at chars
  exact absurd chars.2 (by decide)

/-- An image is not an empty text. -/
theorem GeminiPart.image_nonempty {part : GeminiPart} {image : String}
    (shown : part.image = some image) : image ≠ "" := by
  unfold GeminiPart.image at shown
  rw [Option.bind_eq_some_iff] at shown
  obtain ⟨inline, _, made⟩ := shown
  split at made
  · cases made
  · cases made
    exact markdownImg_nonempty inline

/-- The id of a call, from the ids that are generated for calls without one. -/
def GeminiFunctionCall.toolID (fc : GeminiFunctionCall) (generateRandomID : ℕ → String)
    (generated : ℕ) : String :=
  if fc.id = "" then fc.name ++ "-" ++ generateRandomID generated else fc.id

/-- How many ids have been generated after a call. -/
def GeminiFunctionCall.generated (fc : GeminiFunctionCall) (generated : ℕ) : ℕ :=
  if fc.id = "" then generated + 1 else generated

end Sub2api.Antigravity

/-!
### The streaming converter

From the lines of a Gemini stream to Claude's events. `Unmarshal` reads the JSON of a line, wrapped
or not; `generateRandomID` and `generateAnthropicMsgID` are where ids come from.
-/

namespace Sub2api.Antigravity

open Go Transducer

inductive BlockType where
  | none
  | text
  | thinking
  | function
  deriving DecidableEq

inductive Delta where
  | thinking (thinking : String)
  | text (text : String)
  | signature (signature : String)
  | inputJSON (partialJSON : String)
  deriving DecidableEq

inductive ClaudeEvent where
  | messageStart (id model : String) (usage : ClaudeUsage)
  | contentBlockStart (index : ℤ) (contentBlock : ClaudeContentItem)
  | contentBlockDelta (index : ℤ) (delta : Delta)
  | contentBlockStop (index : ℤ)
  | messageDelta (stopReason : String) (usage : ClaudeUsage)
  | messageStop
  deriving DecidableEq

structure Unmarshal where
  v1 : String → Option V1InternalResponse
  direct : String → Option GeminiResponse

structure Ids where
  generateRandomID : ℕ → String
  generateAnthropicMsgID : String

structure StreamingProcessor where
  blockType : BlockType := .none
  blockIndex : ℤ := 0
  messageStartSent : Bool := false
  messageStopSent : Bool := false
  usedTool : Bool := false
  pendingSignature : String := ""
  trailingSignature : String := ""
  originalModel : String
  webSearchQueries : List String := []
  groundingChunks : List GeminiGroundingChunk := []
  usage : ClaudeUsage := {}
  hasContent : Bool := false
  generated : ℕ := 0

abbrev Emitted := StreamingProcessor × List ClaudeEvent

namespace StreamingProcessor

variable (ids : Ids) (p : StreamingProcessor)

/-! ### Blocks -/

def endBlock : Emitted :=
  if p.blockType = .none then (p, [])
  else
    let signature :=
      if p.blockType = .thinking ∧ p.pendingSignature ≠ "" then
        [.contentBlockDelta p.blockIndex (.signature p.pendingSignature)]
      else []
    ({ p with
      pendingSignature := if p.blockType = .thinking then "" else p.pendingSignature
      blockIndex := p.blockIndex + 1
      blockType := .none }, signature ++ [.contentBlockStop p.blockIndex])

def startBlock (blockType : BlockType) (contentBlock : ClaudeContentItem) : Emitted :=
  andThen p.endBlock fun p =>
    ({ p with blockType }, [.contentBlockStart p.blockIndex contentBlock])

def emitDelta (delta : Delta) : Emitted := (p, [.contentBlockDelta p.blockIndex delta])

def emitEmptyThinkingWithSignature (signature : String) : Emitted :=
  andThen (p.startBlock .thinking { type := .thinking }) fun p =>
    andThen (p.emitDelta (.thinking "")) fun p =>
      andThen (p.emitDelta (.signature signature)) endBlock

/-- The signature of an empty text is sent before the next block. -/
def emitTrailing : Emitted :=
  if p.trailingSignature ≠ "" then
    andThen p.endBlock fun p =>
      andThen (p.emitEmptyThinkingWithSignature p.trailingSignature) fun p =>
        ({ p with trailingSignature := "" }, [])
  else (p, [])

/-- The block goes on, or a new one starts. -/
def continueBlock (blockType : BlockType) (contentBlock : ClaudeContentItem) : Emitted :=
  if p.blockType ≠ blockType then p.startBlock blockType contentBlock else (p, [])

/-! ### Parts -/

def processThinking (text signature : String) : Emitted :=
  andThen p.emitTrailing fun p =>
    andThen (p.continueBlock .thinking { type := .thinking }) fun p =>
      andThen
        (if text ≠ "" then ({ p with hasContent := true } : StreamingProcessor).emitDelta
          (.thinking text) else (p, []))
        fun p => (if signature ≠ "" then { p with pendingSignature := signature } else p, [])

def processText (text signature : String) : Emitted :=
  if text = "" then
    (if signature ≠ "" then { p with trailingSignature := signature } else p, [])
  else
    andThen p.emitTrailing fun p =>
      if signature ≠ "" then
        andThen (p.startBlock .text { type := .text }) fun p =>
          andThen (p.emitDelta (.text text)) fun p =>
            andThen p.endBlock fun p => p.emitEmptyThinkingWithSignature signature
      else
        andThen (p.continueBlock .text { type := .text }) fun p =>
          ({ p with hasContent := true } : StreamingProcessor).emitDelta (.text text)

/-- The arguments of a call, where it has any. -/
def emitArgs (args : Option String) : Emitted :=
  match args with
  | some args => p.emitDelta (.inputJSON args)
  | none => (p, [])

def processFunctionCall (fc : GeminiFunctionCall) (signature : String) : Emitted :=
  let toolUse : ClaudeContentItem :=
    { type := .toolUse, id := fc.toolID ids.generateRandomID p.generated, name := fc.name,
      input := some "{}", signature }
  andThen
    (({ p with
      usedTool := true, hasContent := true, generated := fc.generated p.generated } :
        StreamingProcessor).startBlock .function toolUse)
    fun p => andThen (p.emitArgs fc.args) endBlock

def processPart (part : GeminiPart) : Emitted :=
  match part.functionCall with
  | some fc => andThen p.emitTrailing fun p => p.processFunctionCall ids fc part.thoughtSignature
  | none =>
    andThen
      (if part.text ≠ "" ∨ part.thought then
        if part.thought then p.processThinking part.text part.thoughtSignature
        else p.processText part.text part.thoughtSignature
      else (p, []))
      fun p =>
        match part.image with
        | some image => p.processText image ""
        | none => (p, [])

def processParts : List GeminiPart → StreamingProcessor → Emitted
  | [], p => (p, [])
  | part :: rest, p => andThen (p.processPart ids part) (processParts rest)

/-! ### Chunks -/

def emitMessageStart (resp : V1InternalResponse) : Emitted :=
  if p.messageStartSent then (p, [])
  else
    let usage := resp.response.usageMetadata.elim {} GeminiUsageMetadata.claudeUsage
    let responseID := if resp.responseID = "" then resp.response.responseID else resp.responseID
    let responseID := if responseID = "" then ids.generateAnthropicMsgID else responseID
    ({ p with messageStartSent := true }, [.messageStart responseID p.originalModel usage])

def captureGrounding (grounding : Option GeminiGroundingMetadata) : StreamingProcessor :=
  match grounding with
  | none => p
  | some grounding =>
    { p with
      webSearchQueries :=
        if grounding.webSearchQueries ≠ [] ∧ p.webSearchQueries = [] then
          grounding.webSearchQueries
        else p.webSearchQueries
      groundingChunks :=
        if grounding.groundingChunks ≠ [] ∧ p.groundingChunks = [] then grounding.groundingChunks
        else p.groundingChunks }

def emitGrounding : Emitted :=
  if p.webSearchQueries ≠ [] ∨ p.groundingChunks ≠ [] then
    let groundingText := buildGroundingText
      { webSearchQueries := p.webSearchQueries, groundingChunks := p.groundingChunks }
    if groundingText ≠ "" then
      andThen (p.startBlock .text { type := .text }) fun p =>
        andThen (p.emitDelta (.text groundingText)) endBlock
    else (p, [])
  else (p, [])

def stopReason (usedTool : Bool) (finishReason : String) : String :=
  if usedTool then "tool_use" else if finishReason = "MAX_TOKENS" then "max_tokens" else "end_turn"

def emitFinish (finishReason : String) : Emitted :=
  andThen p.endBlock fun p =>
    andThen p.emitTrailing fun p =>
      andThen p.emitGrounding fun p =>
        ({ p with messageStopSent := true },
          .messageDelta (stopReason p.usedTool finishReason) p.usage ::
            if p.messageStopSent then [] else [.messageStop])

/-- What a line says, `none` for one that is skipped. -/
def parseLine (unmarshal : Unmarshal) (line : String) : Option V1InternalResponse :=
  let line := trimSpace line
  if hasPrefix line "data:" then
    let data := trimSpace (String.ofList (line.toList.drop 5))
    if data = "" ∨ data = "[DONE]" then none
    else
      match unmarshal.v1 data with
      | some resp => some resp
      | none => (unmarshal.direct data).map fun resp =>
        { response := resp, responseID := resp.responseID }
  else none

def processChunk (resp : V1InternalResponse) : Emitted :=
  andThen (p.emitMessageStart ids resp) fun p =>
    let p := match resp.response.usageMetadata with
      | some usage => { p with usage := usage.claudeUsage }
      | none => p
    andThen (processParts ids resp.response.parts p) fun p =>
      let p := p.captureGrounding resp.response.groundingMetadata
      if resp.response.finishReason ≠ "" then p.emitFinish resp.response.finishReason else (p, [])

def processLine (unmarshal : Unmarshal) (line : String) : Emitted :=
  match parseLine unmarshal line with
  | none => (p, [])
  | some resp => p.processChunk ids resp

def finish : Emitted :=
  if p.messageStartSent then if p.messageStopSent then (p, []) else p.emitFinish ""
  else (p, [])

/-- All lines of a stream, and its end. -/
def convert (unmarshal : Unmarshal) (lines : List String) (originalModel : String) : Emitted :=
  andThen (run (fun p => processLine ids p unmarshal) { originalModel } lines) finish

/-- A line of data without blanks. -/
theorem parseLine_data {unmarshal : Unmarshal} {data : String} (noBlank : NoBlank data)
    (nonempty : data ≠ "") (undone : data ≠ "[DONE]") {resp : V1InternalResponse}
    (parsed : unmarshal.v1 data = some resp) :
    parseLine unmarshal ("data:" ++ data) = some resp := by
  have prefixed : NoBlank "data:" := by
    decide +kernel
  have begins : hasPrefix ("data:" ++ data) "data:" = true := by
    unfold hasPrefix
    rw [String.toList_append, List.isPrefixOf_iff_prefix]
    exact List.prefix_append _ _
  have rest : String.ofList (("data:" ++ data).toList.drop 5) = data := by
    rw [String.toList_append]
    rw [List.drop_append_of_le_length (by decide)]
    change String.ofList ([] ++ data.toList) = data
    rw [List.nil_append, String.ofList_toList]
  unfold parseLine
  dsimp only
  rw [trimSpace_of_noBlank (prefixed.append noBlank), if_pos begins, rest,
    trimSpace_of_noBlank noBlank, if_neg (not_or.mpr ⟨nonempty, undone⟩), parsed]

/-- Lines that are skipped change nothing. -/
theorem run_lines (unmarshal : Unmarshal) (lines : List String) :
    run (fun p => p.processLine ids unmarshal) p lines =
      run (fun p => processChunk ids p) p (lines.filterMap (parseLine unmarshal)) := by
  induction lines generalizing p with
  | nil => rfl
  | cons line rest ih =>
    rw [run_cons, ih]
    unfold processLine
    cases parsed : parseLine unmarshal line with
    | none =>
      rw [List.filterMap_cons_none parsed]
      rfl
    | some resp =>
      rw [List.filterMap_cons_some parsed]
      rfl

end StreamingProcessor

end Sub2api.Antigravity

/-!
### The converter of whole responses

Texts and thoughts are collected and flushed when something else comes.
-/

namespace Sub2api.Antigravity

structure NonStreamingProcessor where
  contentBlocks : List ClaudeContentItem := []
  textBuilder : String := ""
  thinkingBuilder : String := ""
  thinkingSignature : String := ""
  trailingSignature : String := ""
  hasToolCall : Bool := false
  generated : ℕ := 0

structure ClaudeResponse where
  id : String
  model : String
  content : List ClaudeContentItem
  stopReason : String
  usage : ClaudeUsage

namespace NonStreamingProcessor

variable (p : NonStreamingProcessor)

def append (item : ClaudeContentItem) : NonStreamingProcessor :=
  { p with contentBlocks := p.contentBlocks ++ [item] }

def flushText : NonStreamingProcessor :=
  if p.textBuilder = "" then p
  else { (p.append { type := .text, text := p.textBuilder }) with textBuilder := "" }

def flushThinking : NonStreamingProcessor :=
  if p.thinkingBuilder = "" ∧ p.thinkingSignature = "" then p
  else
    let item : ClaudeContentItem :=
      { type := .thinking, thinking := p.thinkingBuilder, signature := p.thinkingSignature }
    { p.append item with
      thinkingBuilder := ""
      thinkingSignature := "" }

/-- The signature of an empty text, after what `flush` adds. -/
def flushTrailing (flush : NonStreamingProcessor → NonStreamingProcessor) :
    NonStreamingProcessor :=
  if p.trailingSignature ≠ "" then
    { ((flush p).append { type := .thinking, signature := p.trailingSignature }) with
      trailingSignature := "" }
  else p

def processFunctionCall (ids : Ids) (fc : GeminiFunctionCall) (signature : String) :
    NonStreamingProcessor :=
  let p := p.flushThinking.flushText.flushTrailing id
  let item : ClaudeContentItem :=
    { type := .toolUse, id := fc.toolID ids.generateRandomID p.generated, name := fc.name,
      input := fc.args, signature }
  { p.append item with
    hasToolCall := true
    generated := fc.generated p.generated }

def processThinking (text signature : String) : NonStreamingProcessor :=
  let p := p.flushText.flushTrailing flushThinking
  { p with
    thinkingBuilder := p.thinkingBuilder ++ text
    thinkingSignature := if signature ≠ "" then signature else p.thinkingSignature }

def processText (text signature : String) : NonStreamingProcessor :=
  if text = "" then if signature ≠ "" then { p with trailingSignature := signature } else p
  else
    let p := p.flushThinking.flushTrailing flushText
    if signature ≠ "" then
      (p.append { type := .text, text }).append { type := .thinking, signature }
    else { p with textBuilder := p.textBuilder ++ text }

def processImage (image : String) : NonStreamingProcessor :=
  let p := p.flushThinking
  ({ p with textBuilder := p.textBuilder ++ image } : NonStreamingProcessor).flushText

def processPart (ids : Ids) (part : GeminiPart) : NonStreamingProcessor :=
  match part.functionCall with
  | some fc => p.processFunctionCall ids fc part.thoughtSignature
  | none =>
    -- the return after an empty text is not reached: such a part has no text to process
    let p :=
      if part.text ≠ "" ∨ part.thought then
        if part.thought then p.processThinking part.text part.thoughtSignature
        else p.processText part.text part.thoughtSignature
      else p
    match part.image with
    | some image => p.processImage image
    | none => p

def processGrounding (grounding : GeminiGroundingMetadata) : NonStreamingProcessor :=
  let groundingText := buildGroundingText grounding
  if groundingText = "" then p
  else
    let p := p.flushThinking.flushText
    ({ p with textBuilder := p.textBuilder ++ groundingText } : NonStreamingProcessor).flushText

def buildResponse (ids : Ids) (resp : GeminiResponse) (responseID originalModel : String) :
    ClaudeResponse :=
  let respID := if responseID = "" then resp.responseID else responseID
  { id := if respID = "" then ids.generateAnthropicMsgID else respID
    model := originalModel
    content := p.contentBlocks
    stopReason := StreamingProcessor.stopReason p.hasToolCall resp.finishReason
    usage := resp.usageMetadata.elim {} GeminiUsageMetadata.claudeUsage }

def process (ids : Ids) (resp : GeminiResponse) (responseID originalModel : String) : ClaudeResponse :=
  let p := resp.parts.foldl (fun p part => p.processPart ids part) p
  let p := resp.groundingMetadata.elim p p.processGrounding
  let p := p.flushThinking.flushText.flushTrailing id
  p.buildResponse ids resp responseID originalModel

end NonStreamingProcessor

end Sub2api.Antigravity
