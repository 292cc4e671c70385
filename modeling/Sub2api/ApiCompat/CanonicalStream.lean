import Sub2api.ApiCompat.ResponsesToAnthropic
import Sub2api.Go.JsonPrefix

/-!
# The canonical stream of a response, and reading an Anthropic stream

A finished response is streamed item by item, each text in pieces. A client of the Anthropic stream
applies every delta to the block it names; its blocks and stop reason are compared with those of the
finished message.
-/

namespace Sub2api.ApiCompat

open Go

/-! ### The canonical stream -/

/-- The pieces of a response's texts: by output index, and by part within the item. -/
abbrev Chunks := ℕ → ℕ → List String

/-- An item when it is added: without what is still to come. -/
def announced (item : ResponsesOutput) : ResponsesOutput :=
  { type := item.type, id := item.id, role := item.role, status := .inProgress
    callID := item.callID, name := item.name, toolNamespace := item.toolNamespace }

/-- A summary text of item `i`. -/
def summaryEvents (i : ℕ) (pieces : ℕ → List String) (summary : ResponsesSummary × ℕ) :
    List ResponsesStreamEvent :=
  let at_ : ResponsesStreamEvent :=
    { type := .reasoningSummaryPartAdded, outputIndex := i, summaryIndex := summary.2 }
  if summary.1.type = .summaryText then
    at_ :: (pieces summary.2).map (fun piece =>
        { at_ with type := .reasoningSummaryTextDelta, delta := piece }) ++
      [{ at_ with type := .reasoningSummaryTextDone, text := summary.1.text },
       { at_ with type := .reasoningSummaryPartDone }]
  else []

/-- The text deltas of a content part of item `i`. -/
def textEvents (i j : ℕ) (pieces : List String) : List ResponsesStreamEvent :=
  pieces.map fun piece =>
    { type := .outputTextDelta, outputIndex := i, contentIndex := j, delta := piece }

/-- A content part of item `i`. -/
def partEvents (i : ℕ) (pieces : ℕ → List String) (part : ResponsesContentPart × ℕ) :
    List ResponsesStreamEvent :=
  [{ type := .contentPartAdded, outputIndex := i, contentIndex := part.2
     part := some { part.1 with text := "" } }] ++
    (if part.1.type = .outputText then
      textEvents i part.2 (pieces part.2) ++
        [{ type := .outputTextDone, outputIndex := i, contentIndex := part.2
           text := part.1.text }]
    else []) ++
    [{ type := .contentPartDone, outputIndex := i, contentIndex := part.2, part := some part.1 }]

/-- The argument deltas of item `i`. -/
def argumentEvents (i : ℕ) (pieces : List String) : List ResponsesStreamEvent :=
  pieces.map fun piece =>
    { type := .functionCallArgumentsDelta, outputIndex := i, delta := piece }

/-- What is streamed between the addition of item `i` and its end. -/
def contentEvents (i : ℕ) (item : ResponsesOutput) (pieces : ℕ → List String) :
    List ResponsesStreamEvent :=
  match item.type with
  | .reasoning => item.summary.zipIdx.flatMap (summaryEvents i pieces)
  | .message => item.content.zipIdx.flatMap (partEvents i pieces)
  | .functionCall =>
    argumentEvents i (pieces 0) ++
      [{ type := .functionCallArgumentsDone, outputIndex := i, arguments := item.arguments }]
  | _ => []

/-- Item `i` of a response. -/
def itemEvents (chunks : Chunks) (item : ResponsesOutput × ℕ) : List ResponsesStreamEvent :=
  { type := .outputItemAdded, outputIndex := item.2, item := some (announced item.1) } ::
    contentEvents item.2 item.1 (chunks item.2) ++
    [{ type := .outputItemDone, outputIndex := item.2, item := some item.1 }]

/-- The stream of a response, with one of the terminal events. -/
def canonicalStream (resp : ResponsesResponse) (chunks : Chunks) (terminal : ResponsesEventType) :
    List ResponsesStreamEvent :=
  { type := .created
    response := some { id := resp.id, model := resp.model, status := .inProgress } } ::
    resp.output.zipIdx.flatMap (itemEvents chunks) ++
    [{ type := terminal, response := some resp }]

/-- The pieces are those of the item's texts. -/
def Pieces (item : ResponsesOutput) (pieces : ℕ → List String) : Prop :=
  match item.type with
  | .reasoning => ∀ summary ∈ item.summary.zipIdx, summary.1.type = .summaryText →
      String.join (pieces summary.2) = summary.1.text
  | .message => ∀ part ∈ item.content.zipIdx, part.1.type = .outputText →
      String.join (pieces part.2) = part.1.text
  | .functionCall => String.join (pieces 0) = item.arguments
  | _ => True

/-! ### Reading an Anthropic stream -/

/-- A block as it is read, with the JSON of its input so far. -/
structure Builder where
  index : ℤ
  block : AnthropicContentBlock
  json : String := ""

namespace Builder

def add (b : Builder) (delta : AnthropicDelta) : Builder :=
  match delta.type with
  | .text => { b with block := { b.block with text := b.block.text ++ delta.text } }
  | .thinking => { b with block := { b.block with thinking := b.block.thinking ++ delta.thinking } }
  | .signature => { b with block := { b.block with signature := delta.signature } }
  | .inputJSON => { b with json := b.json ++ delta.partialJSON }
  | _ => b

/-- The block; its streamed input replaces the one it started with. -/
def finish (b : Builder) : AnthropicContentBlock :=
  { b.block with input := if b.json = "" then b.block.input else b.json }

end Builder

/-- A message as it is read. -/
structure Assembly where
  blocks : List Builder := []
  stopReason : Option String := none

/-- One event of the stream. -/
def Assembly.read (a : Assembly) (evt : AnthropicStreamEvent) : Assembly :=
  match evt.type, evt.index, evt.contentBlock, evt.delta with
  | .contentBlockStart, some index, some block, _ =>
    { a with blocks := a.blocks ++ [{ index := index, block := block }] }
  | .contentBlockDelta, some index, _, some delta =>
    { a with blocks := a.blocks.map fun b => if b.index = index then b.add delta else b }
  | .messageDelta, _, _, some delta => { a with stopReason := some delta.stopReason }
  | _, _, _, _ => a

def Assembly.content (a : Assembly) : List AnthropicContentBlock := a.blocks.map Builder.finish

/-- The message that a stream assembles to. -/
def assemble (events : List AnthropicStreamEvent) : Assembly := events.foldl Assembly.read {}

/-! ### Comparing messages -/

/-- A text or thinking block with nothing in it. -/
def AnthropicContentBlock.empty (block : AnthropicContentBlock) : Bool :=
  (block.type = .text && block.text = "") ||
    (block.type = .thinking && block.thinking = "" && block.signature = "")

/-- The blocks without the empty ones, their inputs as JSON. -/
def comparable (blocks : List AnthropicContentBlock) : List AnthropicContentBlock :=
  (blocks.filter fun block => !block.empty).map fun block =>
    { block with input := Json.canonical block.input }

/-- A streamed message agrees with a finished one. -/
def Agrees (streamed : Assembly) (message : AnthropicResponse) : Prop :=
  comparable streamed.content = comparable message.content ∧
    streamed.stopReason = message.stopReason

instance (streamed : Assembly) (message : AnthropicResponse) :
    Decidable (Agrees streamed message) :=
  inferInstanceAs (Decidable (_ ∧ _))

end Sub2api.ApiCompat
