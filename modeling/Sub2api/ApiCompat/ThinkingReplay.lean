import Mathlib.Data.List.Pairwise
import Sub2api.ApiCompat.AnthropicHealing
import Sub2api.ApiCompat.AnthropicToResponses

/-!
# Replayed assistant turns

`AnthropicToResponsesResponse` makes output items of a finished Anthropic response. A client sends
the items back as input items, with an output for every call, and the conversion to Anthropic makes
one assistant message of them. A block comes back as it was when its kind of item carries all of
it, and the pairing moves the calls behind the other blocks.
-/

namespace Sub2api.ApiCompat.AnthropicRequest

open Go
open ToResponses (encodeAnthropicThinking toResponsesCallID)

/-! ### The response as output items -/

/-- The items so far, the text parts that wait for the end, and how many ids were generated. -/
structure Outputs where
  outputs : List ResponsesOutput := []
  msgParts : List ResponsesContentPart := []
  generated : ℕ := 0

/-- An item with an id of its own. -/
def Outputs.emit (s : Outputs) (env : Surroundings) (item : ResponsesOutput) : Outputs :=
  { s with
    outputs := s.outputs ++ [{ item with id := "item_" ++ hexEncode (env.randomBytes s.generated) }]
    generated := s.generated + 1 }

def summaryOf (thinking : String) : List ResponsesSummary :=
  if thinking = "" then [] else [{ type := .summaryText, text := thinking }]

/-- The body of the loop of `AnthropicToResponsesResponse`. -/
def outputBlock (env : Surroundings) (model : String) (s : Outputs) (block : AnthropicContentBlock) :
    Outputs :=
  match block.type with
  | .thinking | .redactedThinking =>
    if env.keepsSignatures model ∧ (block.signature ≠ "" ∨ block.data ≠ "") then
      s.emit env
        { type := .reasoning, encryptedContent := encodeAnthropicThinking block
          summary := summaryOf block.thinking }
    else if block.thinking = "" then s
    else s.emit env { type := .reasoning, summary := summaryOf block.thinking }
  | .text =>
    if block.text = "" then s
    else if env.keepsSignatures model then
      s.emit env
        { type := .message, role := "assistant", status := .completed
          content := [{ type := .outputText, text := block.text }] }
    else { s with msgParts := s.msgParts ++ [{ type := .outputText, text := block.text }] }
  | .toolUse =>
    s.emit env
      { type := .functionCall, callID := toResponsesCallID block.id, name := block.name
        arguments := if block.input = "" then "\x7b\x7d" else block.input, status := .completed }
  | _ => s

/-- The items after the loop: the text parts in one message, and never none at all. -/
def Outputs.assemble (s : Outputs) (env : Surroundings) : Outputs :=
  let message (content : List ResponsesContentPart) : ResponsesOutput :=
    { type := .message, role := "assistant", content := content, status := .completed }
  let s := if s.msgParts = [] then s else s.emit env (message s.msgParts)
  if s.outputs = [] then s.emit env (message [{ type := .outputText }]) else s

/-- `anthropicStopReasonToResponsesStatus`. -/
def anthropicStopReasonToResponsesStatus (stopReason : String) : ResponsesStatus :=
  if stopReason = "max_tokens" then .incomplete else .completed

/-- `AnthropicToResponsesResponse`; a generated response id takes the first of the random bytes. -/
def AnthropicToResponsesResponse (env : Surroundings) (now : ℤ) (resp : AnthropicResponse) :
    ResponsesResponse :=
  let start : Outputs := { generated := if resp.id = "" then 1 else 0 }
  let status := anthropicStopReasonToResponsesStatus (resp.stopReason.getD "")
  let totalInputTokens := resp.usage.inputTokens + resp.usage.cacheReadInputTokens +
    resp.usage.cacheCreationInputTokens
  { id := if resp.id = "" then "resp_" ++ hexEncode (env.randomBytes 0) else resp.id
    createdAt := now
    model := resp.model
    status := status
    output := ((resp.content.foldl (outputBlock env resp.model) start).assemble env).outputs
    incompleteDetails :=
      if status = .incomplete then some { reason := "max_output_tokens" } else none
    usage := some
      { inputTokens := totalInputTokens
        outputTokens := resp.usage.outputTokens
        totalTokens := totalInputTokens + resp.usage.outputTokens
        cacheCreationInputTokens := resp.usage.cacheCreationInputTokens
        inputTokensDetails :=
          if resp.usage.cacheReadInputTokens > 0 then
            some { cachedTokens := resp.usage.cacheReadInputTokens }
          else none } }

/-! ### Replaying -/

/-- The role that is named so. -/
def roleNamed (name : String) : ItemRole :=
  if name = "system" then .system
  else if name = "developer" then .developer
  else if name = "user" then .user
  else if name = "assistant" then .assistant
  else .other name

/-- An output item sent back as an input item. -/
def replayed (output : ResponsesOutput) : ResponsesInputItem :=
  { type := output.type
    role := roleNamed output.role
    content :=
      if output.content = [] then .absent
      else .parts (output.content.map fun part => { toResponsesContentPart := part })
    encryptedContent := output.encryptedContent
    callID := output.callID
    name := output.name
    arguments := output.arguments }

/-- The output of a call. -/
def outputOf (answer : ResponsesOutput → ItemOutput) (call : ResponsesOutput) : ResponsesInputItem :=
  { type := .functionCallOutput, callID := call.callID, output := answer call }

/-- The items of a response with an output for every call. -/
def replay (answer : ResponsesOutput → ItemOutput) (outputs : List ResponsesOutput) :
    List ResponsesInputItem :=
  outputs.map replayed ++
    (outputs.filter fun output => output.type = .functionCall).map (outputOf answer)

/-! ### Turns -/

/-- A block of an assistant turn; the input of a call is absent or JSON. -/
inductive TurnBlock where
  | thinking (thinking signature : String)
  | redactedThinking (data : String)
  | text (text : String)
  | toolUse (id name input : String) (json : input = "" ∨ Json.valid input = true)

namespace TurnBlock

def block : TurnBlock → AnthropicContentBlock
  | .thinking thought signature =>
    { type := .thinking, thinking := thought, signature := signature }
  | .redactedThinking data => { type := .redactedThinking, data := data }
  | .text spoken => { type := .text, text := spoken }
  | .toolUse id name input _ => { type := .toolUse, id := id, name := name, input := input }

def requestBlock (b : TurnBlock) : RequestBlock := { toAnthropicContentBlock := b.block }

/-- The block is a call. -/
def isCall : TurnBlock → Bool
  | .toolUse .. => true
  | _ => false

/-- The id is marked as one of Anthropic's calls. -/
def Marked (id : String) : Prop := hasPrefix id "toolu_" = true ∨ hasPrefix id "call_" = true

/-- The items carry all of a block: thinking that is signed, redacted thinking with data, text that
is not blank, and a call with an input, whose id is marked as Anthropic's. -/
def Carried : TurnBlock → Prop
  | .thinking _ signature => signature ≠ ""
  | .redactedThinking data => data ≠ ""
  | .text spoken => trimSpace spoken ≠ ""
  | .toolUse id _ input _ => Marked id ∧ input ≠ ""

/-- The block that comes back. -/
def back : TurnBlock → Option RequestBlock
  | .thinking thought signature =>
    if signature = "" then none else some (TurnBlock.thinking thought signature).requestBlock
  | .redactedThinking data =>
    if data = "" then none else some (TurnBlock.redactedThinking data).requestBlock
  | .text spoken => if trimSpace spoken = "" then none else some (textBlock spoken)
  | .toolUse id name input _ => some
    { type := .toolUse, id := fromResponsesCallIDToAnthropic id, name := name
      input := if input = "" then "\x7b\x7d" else input }

end TurnBlock

/-! ### Envelopes -/

theorem cutPrefix_append (start rest : String) : cutPrefix (start ++ rest) start = some rest := by
  simp [cutPrefix, hasPrefix]

/-- The block of a marked envelope that holds these members. -/
theorem openEnvelope_object {payload : String} {block : RequestBlock}
    (read : unmarshalBlock payload = some block)
    (signed : block.type = .thinking ∧ block.signature ≠ "" ∨
      block.type = .redactedThinking ∧ block.data ≠ "") (marshals : block.marshals = true) :
    openEnvelope (String.ofList (base64Encode (bytesOf payload))) = .ok block := by
  have kept : ¬((block.type ≠ .thinking ∨ block.signature = "") ∧
      (block.type ≠ .redactedThinking ∨ block.data = "")) := by
    rcases signed with ⟨type, present⟩ | ⟨type, present⟩
    · exact fun failing => failing.1.elim (· type) present
    · exact fun failing => failing.2.elim (· type) present
  unfold openEnvelope
  rw [base64Decode_encode (bytesOf_small payload)]
  simp only [textOf_bytesOf, read, if_neg kept, marshals, if_true]

/-- The member of a name, the last one. -/
def memberNamed (members : List (String × String)) (name : String) : String :=
  members.foldl (fun value member => if equalFold member.1 name then member.2 else value) ""

/-- The block of an object of strings. -/
theorem unmarshalBlock_strings {first : String × String} {members : List (String × String)}
    (absent : ∀ name ∈ ["cache_control", "source", "is_error", "input", "content"],
      ∀ member ∈ first :: members, equalFold member.1 name = false) :
    unmarshalBlock (Json.object
        ((first :: members).map Json.quoted)) =
      some
        { type := blockTypeNamed (memberNamed (first :: members) "type")
          text := memberNamed (first :: members) "text"
          thinking := memberNamed (first :: members) "thinking"
          signature := memberNamed (first :: members) "signature"
          data := memberNamed (first :: members) "data"
          id := memberNamed (first :: members) "id"
          name := memberNamed (first :: members) "name"
          toolUseID := memberNamed (first :: members) "tool_use_id" } := by
  have keyless (name : String)
      (listed : name ∈ ["cache_control", "source", "is_error", "input", "content"]) :
      ∀ member ∈ (first :: members).map Json.quoted,
        equalFold member.1 name = false := by
    intro member inside
    obtain ⟨plain, inside', rfl⟩ := List.mem_map.mp inside
    rw [Json.quoted]
    exact absent name listed plain inside'
  unfold unmarshalBlock
  rw [Json.structMembers_object]
  generalize first :: members = all at keyless ⊢
  have text (name : String) : Json.stringField (all.map Json.quoted) name =
      some (memberNamed all name) := Json.stringField_strings all name
  have next {α : Type} (a : α) (f : α → Option RequestBlock) : (some a >>= f) = f a := rfl
  rw [next, text, next, Json.pointerField_absent (keyless "cache_control" (by simp)), next, text,
    next, text, next, text, next, text, next,
    Json.pointerField_absent (keyless "source" (by simp)), next, text, next, text, next, text, next,
    Json.boolField_absent (keyless "is_error" (by simp)), next,
    Json.rawField_absent (keyless "input" (by simp)),
    Json.rawField_absent (keyless "content" (by simp))]

theorem unmarshal_thinking (thought signature : String) :
    unmarshalBlock (Json.object
        ((("type", "thinking") :: [("thinking", thought), ("signature", signature)]).map
          Json.quoted)) =
      some (TurnBlock.thinking thought signature).requestBlock := by
  have absent : ∀ name ∈ ["cache_control", "source", "is_error", "input", "content"],
      ∀ member ∈ ("type", "thinking") :: [("thinking", thought), ("signature", signature)],
        equalFold member.1 name = false := by
    simp only [List.mem_cons, List.not_mem_nil, or_false, forall_eq_or_imp, forall_eq]
    decide
  rw [unmarshalBlock_strings absent]
  simp +decide [memberNamed, TurnBlock.requestBlock, TurnBlock.block]

theorem unmarshal_redactedThinking (data : String) :
    unmarshalBlock (Json.object
        ((("type", "redacted_thinking") :: [("thinking", ""), ("data", data)]).map
          Json.quoted)) =
      some (TurnBlock.redactedThinking data).requestBlock := by
  have absent : ∀ name ∈ ["cache_control", "source", "is_error", "input", "content"],
      ∀ member ∈ ("type", "redacted_thinking") :: [("thinking", ""), ("data", data)],
        equalFold member.1 name = false := by
    simp only [List.mem_cons, List.not_mem_nil, or_false, forall_eq_or_imp, forall_eq]
    decide
  rw [unmarshalBlock_strings absent]
  simp +decide [memberNamed, TurnBlock.requestBlock, TurnBlock.block]

theorem encodeAnthropicThinking_eq {block : AnthropicContentBlock} {members : List (String × String)}
    (payload : [("type", Json.marshalString (ToResponses.blockTypeName block.type)),
        ("thinking", Json.marshalString block.thinking)] ++
      (if block.signature = "" then [] else [("signature", Json.marshalString block.signature)]) ++
      (if block.data = "" then [] else [("data", Json.marshalString block.data)]) = members) :
    encodeAnthropicThinking block = anthropicThinkingEnvelopePrefix ++
      String.ofList (base64Encode (bytesOf (Json.object members))) := by
  rw [← payload]
  rfl

/-- A signed block is opened as it was. -/
theorem opened_signed {b : TurnBlock}
    (signed : (∃ thought signature, b = .thinking thought signature ∧ signature ≠ "") ∨
      ∃ data, b = .redactedThinking data ∧ data ≠ "") :
    ∃ envelope, cutPrefix (encodeAnthropicThinking b.block) anthropicThinkingEnvelopePrefix =
      some envelope ∧ openEnvelope envelope = .ok b.requestBlock := by
  rcases signed with ⟨thought, signature, rfl, present⟩ | ⟨data, rfl, present⟩
  · have written : encodeAnthropicThinking (TurnBlock.thinking thought signature).block =
        anthropicThinkingEnvelopePrefix ++ String.ofList (base64Encode (bytesOf (Json.object
          ((("type", "thinking") :: [("thinking", thought), ("signature", signature)]).map
            Json.quoted)))) := by
      apply encodeAnthropicThinking_eq
      simp [TurnBlock.block, ToResponses.blockTypeName, present, Json.quoted]
    have opened := openEnvelope_object (unmarshal_thinking thought signature)
      (Or.inl ⟨rfl, present⟩) rfl
    rw [written, cutPrefix_append]
    exact ⟨_, rfl, opened⟩
  · have written : encodeAnthropicThinking (TurnBlock.redactedThinking data).block =
        anthropicThinkingEnvelopePrefix ++ String.ofList (base64Encode (bytesOf (Json.object
          ((("type", "redacted_thinking") :: [("thinking", ""), ("data", data)]).map
            Json.quoted)))) := by
      apply encodeAnthropicThinking_eq
      simp [TurnBlock.block, ToResponses.blockTypeName, present, Json.quoted]
    have opened := openEnvelope_object (unmarshal_redactedThinking data) (Or.inr ⟨rfl, present⟩) rfl
    rw [written, cutPrefix_append]
    exact ⟨_, rfl, opened⟩

/-! ### The items of a turn -/

/-- The item that a block is sent as, up to its id. -/
def TurnBlock.sent : TurnBlock → Option ResponsesOutput
  | .thinking thought signature =>
    if signature ≠ "" then some
      { type := .reasoning, summary := summaryOf thought
        encryptedContent := encodeAnthropicThinking (TurnBlock.thinking thought signature).block }
    else if thought = "" then none
    else some { type := .reasoning, summary := summaryOf thought }
  | .redactedThinking data =>
    if data = "" then none
    else some
      { type := .reasoning
        encryptedContent := encodeAnthropicThinking (TurnBlock.redactedThinking data).block }
  | .text spoken =>
    if spoken = "" then none
    else some
      { type := .message, role := "assistant", status := .completed
        content := [{ type := .outputText, text := spoken }] }
  | .toolUse id name input _ => some
    { type := .functionCall, callID := id, name := name, status := .completed
      arguments := if input = "" then "\x7b\x7d" else input }

/-- An item whatever its id. -/
def anonymous (output : ResponsesOutput) : ResponsesOutput := { output with id := "" }

theorem outputBlock_sent (env : Surroundings) {model : String}
    (keeps : env.keepsSignatures model = true) (s : Outputs) (b : TurnBlock) :
    (outputBlock env model s b.block).outputs.map anonymous =
        s.outputs.map anonymous ++ b.sent.toList ∧
      (outputBlock env model s b.block).msgParts = s.msgParts := by
  cases b with
  | thinking thought signature =>
    by_cases signed : signature = ""
    · by_cases empty : thought = ""
      · simp [outputBlock, TurnBlock.block, TurnBlock.sent, signed, empty]
      · simp [outputBlock, TurnBlock.block, TurnBlock.sent, signed, empty, Outputs.emit, anonymous]
    · simp [outputBlock, TurnBlock.block, TurnBlock.sent, signed, keeps, Outputs.emit, anonymous]
  | redactedThinking data =>
    by_cases empty : data = ""
    · simp [outputBlock, TurnBlock.block, TurnBlock.sent, empty]
    · simp [outputBlock, TurnBlock.block, TurnBlock.sent, empty, keeps, Outputs.emit, anonymous,
        summaryOf]
  | text spoken =>
    by_cases empty : spoken = ""
    · simp [outputBlock, TurnBlock.block, TurnBlock.sent, empty]
    · simp [outputBlock, TurnBlock.block, TurnBlock.sent, empty, keeps, Outputs.emit, anonymous]
  | toolUse id name input json =>
    constructor
    · simp only [outputBlock, TurnBlock.block, TurnBlock.sent, Outputs.emit, toResponsesCallID,
        List.map_append, List.map_cons, List.map_nil, Option.toList_some]
      rfl
    · rfl

theorem foldl_outputBlock (env : Surroundings) {model : String}
    (keeps : env.keepsSignatures model = true) (turn : List TurnBlock) (s : Outputs) :
    ((turn.map TurnBlock.block).foldl (outputBlock env model) s).outputs.map anonymous =
        s.outputs.map anonymous ++ turn.filterMap TurnBlock.sent ∧
      ((turn.map TurnBlock.block).foldl (outputBlock env model) s).msgParts = s.msgParts := by
  induction turn generalizing s with
  | nil => simp
  | cons b rest ih =>
    obtain ⟨outputs, parts⟩ := outputBlock_sent env keeps s b
    obtain ⟨later, later'⟩ := ih (outputBlock env model s b.block)
    rw [List.map_cons, List.foldl_cons]
    refine ⟨?_, later'.trans parts⟩
    rw [later, outputs, List.filterMap_cons]
    cases b.sent with
    | none => simp
    | some output => simp

/-- The items of a turn, up to their ids; a turn that sends nothing is an empty message. -/
theorem response_outputs (env : Surroundings) (now : ℤ) {resp : AnthropicResponse}
    {turn : List TurnBlock} (keeps : env.keepsSignatures resp.model = true)
    (content : resp.content = turn.map TurnBlock.block) :
    (AnthropicToResponsesResponse env now resp).output.map anonymous =
      if turn.filterMap TurnBlock.sent = [] then
        [{ type := .message, role := "assistant", content := [{ type := .outputText }]
           status := .completed }]
      else turn.filterMap TurnBlock.sent := by
  obtain ⟨outputs, parts⟩ := foldl_outputBlock env keeps turn
    { generated := if resp.id = "" then 1 else 0 }
  simp only [AnthropicToResponsesResponse, content]
  generalize (turn.map TurnBlock.block).foldl (outputBlock env resp.model)
    { generated := if resp.id = "" then 1 else 0 } = s at outputs parts ⊢
  simp only [List.map_nil, List.nil_append] at outputs
  rw [← outputs]
  have same : s.outputs.map anonymous = [] ↔ s.outputs = [] := List.map_eq_nil_iff
  simp only [Outputs.assemble, parts, if_true, same]
  split
  · next empty => simp [Outputs.emit, empty, anonymous]
  · rfl

/-! ### Items converted back -/

theorem blockJSON_isValue (block : RequestBlock) : Json.IsValue 2 (blockJSON block) := by
  unfold blockJSON
  split
  · apply Json.isValue_object
    intro member inside
    simp only [List.mem_cons, List.not_mem_nil, or_false] at inside
    rcases inside with rfl | rfl
    · exact Json.isValue_marshalString _ _
    · exact Json.isValue_marshalString _ _
  · apply Json.isValue_object
    intro member inside
    simp only [List.mem_cons, List.not_mem_nil, or_false] at inside
    rcases inside with rfl | rfl
    · exact Json.isValue_marshalString _ _
    · apply Json.isValue_object
      intro member inside
      simp only [List.mem_cons, List.not_mem_nil, or_false] at inside
      rcases inside with rfl | rfl | rfl
      · exact Json.isValue_marshalString 0 _
      · exact Json.isValue_marshalString 0 _
      · exact Json.isValue_marshalString 0 _

/-- The content of a result is JSON. -/
theorem outputContent_valid (output : ItemOutput) :
    Json.valid (responsesFunctionOutputToAnthropicContent output) = true := by
  cases output with
  | text text => exact Json.valid_marshalString _
  | other raw => exact Json.valid_marshalString _
  | parts raw parts =>
    simp only [responsesFunctionOutputToAnthropicContent]
    split
    · next some' =>
      cases shown : (parts.filterMap outputPartBlock).map blockJSON with
      | nil => exact absurd (List.map_eq_nil_iff.mp shown) some'
      | cons first rest =>
        apply Json.valid_array _ (show 2 < 10000 by decide)
        intro text inside
        rw [← shown] at inside
        obtain ⟨block, _, rfl⟩ := List.mem_map.mp inside
        exact blockJSON_isValue block
    · split
      · exact Json.valid_marshalString _
      · exact Json.valid_marshalString _

/-- A message of one block. -/
def single (role : MessageRole) (block : RequestBlock) : AnthropicMessage :=
  anthropicMessageFromBlocks role [block]

/-- The result that answers a call item. -/
def resultOf (answer : ResponsesOutput → ItemOutput) (call : ResponsesOutput) : RequestBlock :=
  { type := .toolResult, toolUseID := fromResponsesCallIDToAnthropic call.callID
    content := responsesFunctionOutputToAnthropicContent (answer call) }

theorem convertItem_outputOf (preserve : Bool) (answer : ResponsesOutput → ItemOutput)
    (call : ResponsesOutput) :
    convertItem preserve (outputOf answer call) =
      .ok { messages := [single .user (resultOf answer call)] } := rfl

/-- The message of a block that comes back. -/
def backMessages (b : TurnBlock) : List AnthropicMessage := b.back.toList.map (single .assistant)

theorem convertItem_sent {b : TurnBlock} {output : ResponsesOutput} (sent : b.sent = some output) :
    convertItem true (replayed output) = .ok { messages := backMessages b } := by
  cases b with
  | thinking thought signature =>
    by_cases signed : signature = ""
    · by_cases empty : thought = ""
      · simp [TurnBlock.sent, signed, empty] at sent
      · simp only [TurnBlock.sent, signed, ne_eq, not_true_eq_false, if_false, if_neg empty,
          Option.some.injEq] at sent
        subst sent
        simp [convertItem, replayed, roleNamed, cutPrefix, hasPrefix, backMessages, TurnBlock.back,
          signed, anthropicThinkingEnvelopePrefix]
    · obtain ⟨envelope, cut, opened⟩ :=
        opened_signed (.inl ⟨thought, signature, rfl, signed⟩)
      simp only [TurnBlock.sent, ne_eq, signed, not_false_eq_true, if_true,
        Option.some.injEq] at sent
      subst sent
      simp [convertItem, replayed, roleNamed, cut, opened, backMessages, TurnBlock.back, signed,
        bind, Except.bind, pure, Except.pure, single, anthropicMessageFromBlocks]
  | redactedThinking data =>
    by_cases empty : data = ""
    · simp [TurnBlock.sent, empty] at sent
    · obtain ⟨envelope, cut, opened⟩ := opened_signed (.inr ⟨data, rfl, empty⟩)
      simp only [TurnBlock.sent, if_neg empty, Option.some.injEq] at sent
      subst sent
      simp [convertItem, replayed, roleNamed, cut, opened, backMessages, TurnBlock.back, empty,
        bind, Except.bind, pure, Except.pure, single, anthropicMessageFromBlocks]
  | text spoken =>
    by_cases empty : spoken = ""
    · simp [TurnBlock.sent, empty] at sent
    · simp only [TurnBlock.sent, if_neg empty, Option.some.injEq] at sent
      subst sent
      have content : convertResponsesAssistantToAnthropicContent
          (.parts [{ type := .outputText, text := spoken }]) = .blocks [textBlock spoken] := by
        simp [convertResponsesAssistantToAnthropicContent, assistantPartBlock, empty,
          marshalBlocks, textBlock_marshals]
      by_cases blank : trimSpace spoken = ""
      · simp [convertItem, replayed, roleNamed, content, anthropicContentIsOnlyBlankText,
          parseContentBlocks, textBlock, blank, backMessages, TurnBlock.back]
      · simp [convertItem, replayed, roleNamed, content, anthropicContentIsOnlyBlankText,
          anthropicContentIsEmpty, parseContentBlocks, textBlock, blank, backMessages,
          TurnBlock.back, single, anthropicMessageFromBlocks, marshalBlocks,
          RequestBlock.marshals]
  | toolUse id name input json =>
    simp only [TurnBlock.sent, Option.some.injEq] at sent
    subst sent
    have present : (if input = "" then "\x7b\x7d" else input) ≠ "" := by
      split
      · decide
      · assumption
    simp [convertItem, replayed, roleNamed, functionCallMessage, present, backMessages,
      TurnBlock.back, single, anthropicMessageFromBlocks]

/-- A block that is not sent does not come back. -/
theorem back_of_unsent {b : TurnBlock} (unsent : b.sent = none) : b.back = none := by
  cases b with
  | thinking thought signature =>
    by_cases signed : signature = ""
    · simp [TurnBlock.back, signed]
    · simp [TurnBlock.sent, signed] at unsent
  | redactedThinking data =>
    by_cases empty : data = ""
    · simp [TurnBlock.back, empty]
    · simp [TurnBlock.sent, empty] at unsent
  | text spoken =>
    by_cases empty : spoken = ""
    · simp [TurnBlock.back, empty, trimSpace_empty]
    · simp [TurnBlock.sent, empty] at unsent
  | toolUse id name input json => simp [TurnBlock.sent] at unsent

theorem back_marshals {b : TurnBlock} {r : RequestBlock} (here : b.back = some r) :
    r.marshals = true := by
  cases b with
  | thinking thought signature =>
    by_cases signed : signature = ""
    · simp [TurnBlock.back, signed] at here
    · simp only [TurnBlock.back, if_neg signed, Option.some.injEq] at here
      subst here
      rfl
  | redactedThinking data =>
    by_cases empty : data = ""
    · simp [TurnBlock.back, empty] at here
    · simp only [TurnBlock.back, if_neg empty, Option.some.injEq] at here
      subst here
      rfl
  | text spoken =>
    by_cases blank : trimSpace spoken = ""
    · simp [TurnBlock.back, blank] at here
    · simp only [TurnBlock.back, if_neg blank, Option.some.injEq] at here
      subst here
      rfl
  | toolUse id name input json =>
    simp only [TurnBlock.back, Option.some.injEq] at here
    subst here
    have braces : Json.valid "\x7b\x7d" = true := by decide
    by_cases empty : input = ""
    · simp [RequestBlock.marshals, empty, braces]
    · simp [RequestBlock.marshals, empty, json.resolve_left empty]

/-! ### The messages of a replayed turn -/

theorem fold_singles {role : MessageRole} {first : RequestBlock} {rest : List RequestBlock}
    (marshal : ∀ b ∈ first :: rest, b.marshals = true) :
    ((rest.map (single role)).foldl AnthropicMessage.join (single role first)).blocks =
      first :: rest := by
  have each : ∀ n ∈ single role first :: rest.map (single role), n.Marshals := by
    intro n member
    rw [← List.map_cons] at member
    obtain ⟨b, _, rfl⟩ := List.mem_map.mp member
    exact fromBlocks_marshals role [b]
  have whole : ∀ blocks : List RequestBlock, (∀ b ∈ blocks, b.marshals = true) →
      (blocks.map (single role)).flatMap AnthropicMessage.blocks = blocks := by
    intro blocks marshal
    induction blocks with
    | nil => rfl
    | cons b rest ih =>
      have here : (single role b).blocks = [b] :=
        fromBlocks_blocks (by simpa using marshal b (by simp))
      rw [List.map_cons, List.flatMap_cons, here, ih fun c inside => marshal c (by simp [inside])]
      rfl
  rw [joinTurn_blocks each, ← List.map_cons]
  exact whole _ marshal

/-- Messages of one block each in one. -/
theorem merge_singles {role : MessageRole} {blocks : List RequestBlock} (some' : blocks ≠ [])
    (marshal : ∀ b ∈ blocks, b.marshals = true) {later : List AnthropicMessage}
    (apart : ∀ next ∈ later.head?, next.role ≠ role) :
    ∃ m, mergeConsecutiveMessages (blocks.map (single role) ++ later) =
        m :: mergeConsecutiveMessages later ∧
      m.role = role ∧ m.blocks = blocks := by
  cases blocks with
  | nil => exact absurd rfl some'
  | cons first rest =>
    have same : ∀ m ∈ rest.map (single role), m.role = (single role first).role := by
      intro m member
      obtain ⟨b, _, rfl⟩ := List.mem_map.mp member
      rfl
    refine ⟨_, mergeAfter_turn same apart, ?_, fold_singles marshal⟩
    exact joinTurn_role

/-- A message of results only vanishes. -/
theorem pairMessage_results (index : String → Option RequestBlock) {u : AnthropicMessage}
    (isUser : u.role = .user) (some' : u.blocks ≠ []) (only : ∀ r ∈ u.blocks, r.type = .toolResult) :
    pairMessage index u = [] := by
  have none' : u.blocks.filter (fun b => b.type ≠ .toolResult) = [] :=
    List.filter_eq_nil_iff.mpr (by simpa using only)
  have result : ¬(u.blocks.all fun b => b.type ≠ .toolResult) = true := by
    intro all
    obtain ⟨r, inside⟩ := List.exists_mem_of_ne_nil _ some'
    have other := List.all_eq_true.mp all r inside
    simp [only r inside] at other
  simp only [pairMessage, isUser, none', if_neg result, if_true]

/-- A message whose calls are all answered keeps them, behind its other blocks. -/
theorem pairMessage_answered {index : String → Option RequestBlock} {a : AnthropicMessage}
    (isAssistant : a.role = .assistant) (marshal : a.Marshals)
    (answered : ∀ b ∈ a.blocks, b.type = .toolUse → (index b.id).isSome) :
    ∃ first later, pairMessage index a = first :: later ∧ first.role = .assistant ∧
      (a.blocks ≠ [] → first.blocks = a.blocks.filter (fun b => b.type ≠ .toolUse) ++
        a.blocks.filter (fun b => b.type = .toolUse)) ∧
      (later = [] ∨ ∃ u, later = [u] ∧ u.role = .user) := by
  have kept : (a.blocks.filter fun b => b.type = .toolUse).filter
      (fun b => (index b.id).isSome) = a.blocks.filter fun b => b.type = .toolUse := by
    apply List.filter_eq_self.mpr
    intro b member
    obtain ⟨inside, isCall⟩ := List.mem_filter.mp member
    exact answered b inside (of_decide_eq_true isCall)
  simp only [pairMessage, isAssistant, kept]
  by_cases callless : a.blocks.filter (fun b => b.type = .toolUse) = []
  · rw [if_pos callless]
    refine ⟨a, [], rfl, isAssistant, fun _ => ?_, .inl rfl⟩
    have only : ∀ b ∈ a.blocks, b.type ≠ .toolUse := by
      simpa [List.filter_eq_nil_iff] using callless
    rw [callless, List.append_nil, List.filter_eq_self.mpr (by simpa using only)]
  · rw [if_neg callless, if_neg callless]
    refine ⟨_, _, rfl, ?_, ?_, .inr ⟨_, rfl, ?_⟩⟩
    · rfl
    · intro _
      apply fromBlocks_blocks
      intro b member
      rcases List.mem_append.mp member with inside | inside
      · exact marshal b (List.mem_filter.mp inside).1
      · exact marshal b (List.mem_filter.mp inside).1
    · rfl

/-- A turn of an assistant with the results of all its calls: one message with the calls behind the
other blocks, and the results. -/
theorem normalizeMessages_turn {blocks results : List RequestBlock} (some' : blocks ≠ [])
    (marshal : ∀ b ∈ blocks, b.marshals = true)
    (isResult : ∀ r ∈ results, r.type = .toolResult ∧ r.toolUseID ≠ "" ∧ r.marshals = true)
    (answered : ∀ b ∈ blocks, b.type = .toolUse → ∃ r ∈ results, r.toolUseID = b.id) :
    ∃ first later,
      normalizeMessages (blocks.map (single .assistant) ++ results.map (single .user)) =
        first :: later ∧
      first.role = .assistant ∧
      first.blocks = blocks.filter (fun b => b.type ≠ .toolUse) ++
        blocks.filter (fun b => b.type = .toolUse) ∧
      ∀ m ∈ later, m.role = .user := by
  have apart : ∀ next ∈ (results.map (single .user)).head?, next.role ≠ .assistant := by
    cases results with
    | nil => simp
    | cons r rest =>
      intro next here
      cases Option.some.inj here
      intro same
      cases same
  obtain ⟨a, merged, isAssistant, whole⟩ := merge_singles some' marshal apart
  -- The results are one user message, or none when there is no call.
  obtain ⟨users, mergedUsers, vanish, found⟩ : ∃ users,
      mergeConsecutiveMessages (results.map (single .user)) = users ∧
      (∀ index, users.flatMap (pairMessage index) = []) ∧
      ∀ r ∈ results, ∃ u ∈ users, u.role = .user ∧ r ∈ u.blocks := by
    by_cases silent : results = []
    · exact ⟨[], by rw [silent]; rfl, fun _ => rfl, by simp [silent]⟩
    · obtain ⟨u, mergedUser, isUser, wholeUser⟩ := @merge_singles .user results silent
        (fun r inside => (isResult r inside).2.2) [] (by simp)
      rw [List.append_nil] at mergedUser
      refine ⟨[u], mergedUser, ?_, fun r inside => ⟨u, by simp, isUser, by rwa [wholeUser]⟩⟩
      intro index
      have vanishes := pairMessage_results index isUser (by rwa [wholeUser])
        (fun r inside => (isResult r (by rwa [wholeUser] at inside)).1)
      simp [vanishes]
  have grouped : ∀ m ∈ a :: users, m.Marshals := by
    rw [← mergedUsers, ← merged]
    apply merge_marshals
    intro m member
    rcases List.mem_append.mp member with inside | inside
    · obtain ⟨b, _, rfl⟩ := List.mem_map.mp inside
      exact fromBlocks_marshals _ _
    · obtain ⟨b, _, rfl⟩ := List.mem_map.mp inside
      exact fromBlocks_marshals _ _
  have indexed : ∀ b ∈ a.blocks, b.type = .toolUse →
      (resultFor (a :: users) b.id).isSome := by
    intro b inside isCall
    rw [whole] at inside
    obtain ⟨r, here, same⟩ := answered b inside isCall
    obtain ⟨u, member, isUser, inU⟩ := found r here
    obtain ⟨isR, named, _⟩ := isResult r here
    apply List.find?_isSome.mpr
    refine ⟨r, ?_, by simpa using same⟩
    simp only [indexedResults, List.mem_reverse, List.mem_flatMap, List.mem_filter,
      decide_eq_true_eq]
    exact ⟨u, ⟨by simp [member], isUser⟩, inU, isR, named⟩
  obtain ⟨first, later, paired, role, shown, users'⟩ :=
    pairMessage_answered isAssistant (grouped a (by simp)) indexed
  have all : normalizeAnthropicToolPairing (a :: users) = first :: later := by
    rw [normalizeAnthropicToolPairing, List.flatMap_cons, paired, vanish, List.append_nil]
  refine ⟨first, later, ?_, role, ?_, ?_⟩
  · rw [normalizeMessages, merged, mergedUsers, all]
    rcases users' with rfl | ⟨u, rfl, isUser⟩
    · rfl
    · apply mergeAfter_cons_of_ne []
      rw [role, isUser]
      intro same
      cases same
  · rw [shown (by rwa [whole]), whole]
  · rcases users' with rfl | ⟨u, rfl, isUser⟩
    · simp
    · simpa using isUser

/-! ### What comes back -/

/-- The calls, by a test, come last. -/
def CallsLast {α : Type} (isCall : α → Prop) (blocks : List α) : Prop :=
  blocks.Pairwise fun b later => isCall b → isCall later

theorem callsLast_filter {blocks : List RequestBlock}
    (last : CallsLast (fun b => b.type = .toolUse) blocks) :
    blocks.filter (fun b => b.type ≠ .toolUse) ++ blocks.filter (fun b => b.type = .toolUse) =
      blocks := by
  induction blocks with
  | nil => rfl
  | cons b rest ih =>
    obtain ⟨here, later⟩ := List.pairwise_cons.mp last
    by_cases isCall : b.type = .toolUse
    · have only : ∀ c ∈ rest, c.type = .toolUse := fun c inside => here c inside isCall
      rw [List.filter_cons_of_neg (by simpa using isCall),
        List.filter_cons_of_pos (by simpa using isCall),
        List.filter_eq_nil_iff.mpr (by simpa using only),
        List.filter_eq_self.mpr (by simpa using only)]
      rfl
    · rw [List.filter_cons_of_pos (by simpa using isCall),
        List.filter_cons_of_neg (by simpa using isCall), List.cons_append, ih later]

theorem callsLast_of_filter (blocks : List RequestBlock) :
    CallsLast (fun b => b.type = .toolUse)
      (blocks.filter (fun b => b.type ≠ .toolUse) ++
        blocks.filter (fun b => b.type = .toolUse)) := by
  apply List.pairwise_append.mpr
  refine ⟨?_, ?_, ?_⟩
  · apply List.pairwise_of_forall_mem_list
    intro a ha b _ isCall
    exact absurd isCall (by simpa using (List.mem_filter.mp ha).2)
  · apply List.pairwise_of_forall_mem_list
    intro a _ b hb _
    simpa using (List.mem_filter.mp hb).2
  · intro a _ b hb _
    simpa using (List.mem_filter.mp hb).2

namespace TurnBlock

theorem isCall_iff (b : TurnBlock) : b.isCall = true ↔ b.requestBlock.type = .toolUse := by
  cases b <;> simp [isCall, requestBlock, block]

/-- What comes back has the block's type. -/
theorem back_type {b : TurnBlock} {r : RequestBlock} (here : b.back = some r) :
    r.type = b.requestBlock.type := by
  cases b with
  | thinking thought signature =>
    by_cases signed : signature = ""
    · simp [back, signed] at here
    · simp only [back, if_neg signed, Option.some.injEq] at here
      rw [← here]
  | redactedThinking data =>
    by_cases empty : data = ""
    · simp [back, empty] at here
    · simp only [back, if_neg empty, Option.some.injEq] at here
      rw [← here]
  | text spoken =>
    by_cases blank : trimSpace spoken = ""
    · simp [back, blank] at here
    · simp only [back, if_neg blank, Option.some.injEq] at here
      rw [← here]
      rfl
  | toolUse id name input json =>
    simp only [back, Option.some.injEq] at here
    rw [← here]
    rfl

theorem not_marked_empty : ¬Marked "" := by
  unfold Marked
  decide

theorem callID_cases (id : String) :
    (∃ after, cutPrefix id "fc_" = some after ∧ Marked after ∧
      fromResponsesCallIDToAnthropic id = after) ∨
    (Marked id ∧ fromResponsesCallIDToAnthropic id = id) ∨
    (¬Marked id ∧ fromResponsesCallIDToAnthropic id = "toolu_" ++ id) := by
  have reads (id : String) :
      (hasPrefix id "toolu_" || hasPrefix id "call_") = true ↔ Marked id := by
    simp [Marked]
  simp only [fromResponsesCallIDToAnthropic]
  cases cut : (cutPrefix id "fc_").filter
      (fun id => hasPrefix id "toolu_" || hasPrefix id "call_") with
  | some after =>
    obtain ⟨here, marked⟩ := Option.filter_eq_some_iff.mp cut
    exact .inl ⟨after, here, (reads after).mp marked, rfl⟩
  | none =>
    by_cases marked : Marked id
    · exact .inr (.inl ⟨marked, if_pos ((reads id).mpr marked)⟩)
    · exact .inr (.inr ⟨marked, if_neg fun shown => marked ((reads id).mp shown)⟩)

theorem cutPrefix_some {s start rest : String} (cut : cutPrefix s start = some rest) :
    s = start ++ rest := by
  unfold cutPrefix at cut
  split at cut
  · next starts =>
    simp only [hasPrefix, List.isPrefixOf_iff_prefix] at starts
    obtain ⟨later, shape⟩ := starts
    cases cut
    rw [← String.toList_inj, String.toList_append, String.toList_ofList, ← shape]
    simp
  · exact absurd cut (by simp)

/-- An id is kept exactly when it is marked as Anthropic's. -/
theorem fromResponsesCallIDToAnthropic_eq (id : String) :
    fromResponsesCallIDToAnthropic id = id ↔ Marked id := by
  have longer (start rest : String) (present : start ≠ "") : start ++ rest ≠ rest := by
    intro same
    have lengths := congrArg String.length same
    rw [String.length_append] at lengths
    have positive := String.length_eq_zero_iff.not.mpr present
    omega
  rcases callID_cases id with ⟨after, cut, _, result⟩ | ⟨marked, result⟩ | ⟨unmarked, result⟩
  · have shape := cutPrefix_some cut
    have unmarked : ¬Marked id := by
      simp only [Marked, hasPrefix, List.isPrefixOf_iff_prefix, shape, String.toList_append]
      rintro (⟨_, other⟩ | ⟨_, other⟩)
      · exact absurd (List.cons.inj other).1 (by decide)
      · exact absurd (List.cons.inj other).1 (by decide)
    have shorter : after ≠ id := by
      rw [shape]
      exact (longer "fc_" after (by decide)).symm
    exact ⟨fun same => absurd (result.symm.trans same) shorter, fun marked => absurd marked unmarked⟩
  · exact ⟨fun _ => marked, fun _ => result⟩
  · exact ⟨fun same => absurd (result.symm.trans same) (longer _ _ (by decide)),
      fun marked => absurd marked unmarked⟩

theorem fromResponsesCallIDToAnthropic_ne_empty (id : String) :
    fromResponsesCallIDToAnthropic id ≠ "" := by
  rcases callID_cases id with ⟨after, _, marked, result⟩ | ⟨marked, result⟩ | ⟨_, result⟩
  · rw [result]
    rintro rfl
    exact not_marked_empty marked
  · rw [result]
    rintro rfl
    exact not_marked_empty marked
  · simp [result]

/-- A block comes back as it was exactly when the items carry it. -/
theorem back_eq_iff (b : TurnBlock) : b.back = some b.requestBlock ↔ b.Carried := by
  cases b with
  | thinking thought signature => simp [back, Carried]
  | redactedThinking data => simp [back, Carried]
  | text spoken => simp [back, Carried, requestBlock, block, textBlock]
  | toolUse id name input json =>
    have same : (if input = "" then "\x7b\x7d" else input) = input ↔ input ≠ "" := by
      by_cases empty : input = ""
      · simp [empty]
      · simp [empty]
    simp [back, Carried, requestBlock, block, same, fromResponsesCallIDToAnthropic_eq]

end TurnBlock

/-- The blocks that come back, in the pairing's order, are those of the turn exactly when each is
carried and the calls come last. -/
theorem back_turn_iff (turn : List TurnBlock) :
    (turn.filterMap TurnBlock.back).filter (fun b => b.type ≠ .toolUse) ++
        (turn.filterMap TurnBlock.back).filter (fun b => b.type = .toolUse) =
      turn.map TurnBlock.requestBlock ↔
    (∀ b ∈ turn, b.Carried) ∧ CallsLast (fun b => b.isCall = true) turn := by
  have ordered (blocks : List RequestBlock) (same : blocks = turn.map TurnBlock.requestBlock) :
      CallsLast (fun b => b.type = .toolUse) blocks ↔ CallsLast (fun b => b.isCall = true) turn := by
    rw [same, CallsLast, List.pairwise_map]
    simp only [← TurnBlock.isCall_iff]
    rfl
  constructor
  · intro same
    have all : ∀ b ∈ turn, b.back.isSome := by
      apply List.filterMap_length_eq_length.mp
      have lengths := congrArg List.length same
      have parts := List.length_eq_countP_add_countP
        (fun b : RequestBlock => decide (b.type = .toolUse)) (l := turn.filterMap TurnBlock.back)
      rw [List.countP_eq_length_filter, List.countP_eq_length_filter] at parts
      simp only [List.length_append, List.length_map, decide_not] at lengths parts ⊢
      simp at parts
      omega
    have sorted := callsLast_of_filter (turn.filterMap TurnBlock.back)
    have last := (ordered _ same).mp sorted
    have unmoved : CallsLast (fun b => b.type = .toolUse) (turn.filterMap TurnBlock.back) := by
      apply List.pairwise_filterMap.mpr
      refine List.Pairwise.imp ?_ last
      intro b later kept r here r' there isCall
      rw [TurnBlock.back_type here, ← TurnBlock.isCall_iff] at isCall
      rw [TurnBlock.back_type there, ← TurnBlock.isCall_iff]
      exact kept isCall
    rw [callsLast_filter unmoved] at same
    refine ⟨?_, last⟩
    clear sorted unmoved ordered last
    induction turn with
    | nil => simp
    | cons b rest ih =>
      obtain ⟨r, here⟩ := Option.isSome_iff_exists.mp (all b (by simp))
      rw [List.filterMap_cons_some here, List.map_cons, List.cons.injEq] at same
      have carried : b.Carried := (TurnBlock.back_eq_iff b).mp (by rw [here, same.1])
      exact List.forall_mem_cons.mpr
        ⟨carried, ih same.2 fun c inside => all c (by simp [inside])⟩
  · rintro ⟨carried, last⟩
    have whole : turn.filterMap TurnBlock.back = turn.map TurnBlock.requestBlock := by
      rw [← List.filterMap_eq_map]
      exact List.filterMap_congr fun b inside => (TurnBlock.back_eq_iff b).mpr (carried b inside)
    rw [whole]
    exact callsLast_filter ((ordered _ rfl).mpr last)

/-! ### The replayed turn -/

section Replayed

variable {env : Surroundings} {now : ℤ} {resp : AnthropicResponse} {turn : List TurnBlock}
  (answer : ResponsesOutput → ItemOutput) (keeps : env.keepsSignatures resp.model = true)

variable (env now resp turn) in
/-- The output items of a response whose content is a turn. -/
def turnOutputs : List ResponsesOutput :=
  (AnthropicToResponsesResponse env now { resp with content := turn.map TurnBlock.block }).output

include keeps

theorem turnOutputs_shape :
    (turnOutputs env now resp turn).map anonymous =
      if turn.filterMap TurnBlock.sent = [] then
        [{ type := .message, role := "assistant", content := [{ type := .outputText }]
           status := .completed }]
      else turn.filterMap TurnBlock.sent :=
  response_outputs env now keeps rfl

/-- An output item is a sent block, or the empty message of a turn that sends nothing. -/
theorem mem_turnOutputs {output : ResponsesOutput} (inside : output ∈ turnOutputs env now resp turn) :
    (∃ b ∈ turn, b.sent = some (anonymous output)) ∨
      turn.filterMap TurnBlock.sent = [] ∧
        anonymous output =
          { type := .message, role := "assistant", content := [{ type := .outputText }]
            status := .completed } := by
  have shape := @turnOutputs_shape env now resp turn keeps
  have member := List.mem_map_of_mem (f := anonymous) inside
  rw [shape] at member
  split at member
  · next silent => exact .inr ⟨silent, List.mem_singleton.mp member⟩
  · exact .inl (List.mem_filterMap.mp member)

/-- The messages of the output items. -/
theorem turnOutputs_messages :
    (∀ output ∈ turnOutputs env now resp turn,
      ∃ converted, convertItem true (replayed output) = .ok converted) ∧
    (turnOutputs env now resp turn).flatMap (fun output => itemMessages true (replayed output)) =
      (turn.filterMap TurnBlock.back).map (single .assistant) := by
  have empty : convertItem true (replayed
      { type := .message, role := "assistant", content := [{ type := .outputText }]
        status := .completed }) = .ok {} := by
    rfl
  constructor
  · intro output inside
    have same : replayed output = replayed (anonymous output) := rfl
    rcases mem_turnOutputs keeps inside with ⟨b, _, sent⟩ | ⟨_, shape⟩
    · exact ⟨_, same ▸ convertItem_sent sent⟩
    · rw [same, shape]
      exact ⟨_, empty⟩
  · have shape := @turnOutputs_shape env now resp turn keeps
    have named : (turnOutputs env now resp turn).flatMap
        (fun output => itemMessages true (replayed output)) =
          ((turnOutputs env now resp turn).map anonymous).flatMap
            fun output => itemMessages true (replayed output) := by
      rw [List.flatMap_map]
      rfl
    have sent : ∀ turn : List TurnBlock,
        (turn.filterMap TurnBlock.sent).flatMap
          (fun output => itemMessages true (replayed output)) =
            (turn.filterMap TurnBlock.back).map (single .assistant) := by
      intro turn
      induction turn with
      | nil => rfl
      | cons b rest ih =>
        cases known : b.sent with
        | none => rw [List.filterMap_cons_none known, List.filterMap_cons_none
            (back_of_unsent known), ih]
        | some output =>
          have here : itemMessages true (replayed output) = backMessages b := by
            rw [itemMessages, convertItem_sent known]
          rw [List.filterMap_cons_some known, List.flatMap_cons, here, ih, backMessages]
          cases back : b.back with
          | none => rw [List.filterMap_cons_none back]; rfl
          | some r => rw [List.filterMap_cons_some back]; rfl
    rw [named, shape]
    split
    · next silent =>
      have back := sent turn
      rw [silent] at back
      rw [← back]
      simp [itemMessages, empty]
    · exact sent turn

/-- Every call that comes back has its result. -/
theorem turn_answered {r : RequestBlock} (inside : r ∈ turn.filterMap TurnBlock.back)
    (isCall : r.type = .toolUse) :
    ∃ result ∈ ((turnOutputs env now resp turn).filter fun output =>
      output.type = .functionCall).map (resultOf answer), result.toolUseID = r.id := by
  obtain ⟨b, here, back⟩ := List.mem_filterMap.mp inside
  have called := TurnBlock.back_type back
  rw [isCall] at called
  cases b with
  | thinking _ _ | redactedThinking _ | text _ => exact nomatch called
  | toolUse id name input json =>
    cases Option.some.inj back
    have shape := @turnOutputs_shape env now resp turn keeps
    have sent := List.mem_filterMap.mpr
      ⟨TurnBlock.toolUse id name input json, here, show TurnBlock.sent _ = some _ from rfl⟩
    rw [if_neg (List.ne_nil_of_mem sent)] at shape
    rw [← shape] at sent
    obtain ⟨output, member, same⟩ := List.mem_map.mp sent
    have type : output.type = .functionCall := congrArg ResponsesOutput.type same
    have callID : output.callID = id := congrArg ResponsesOutput.callID same
    exact ⟨resultOf answer output,
      List.mem_map_of_mem (List.mem_filter.mpr ⟨member, by simpa using type⟩),
      by rw [resultOf, callID]⟩

/-- The messages of the replayed turn. -/
theorem replay_messages (instructions : String) :
    ∃ system, convertResponsesInputToAnthropic instructions
        (.items (replay answer (turnOutputs env now resp turn))) true =
      .ok (system, normalizeMessages ((turn.filterMap TurnBlock.back).map (single .assistant) ++
        (((turnOutputs env now resp turn).filter fun output =>
          output.type = .functionCall).map (resultOf answer)).map (single .user))) := by
  obtain ⟨each, messages⟩ := @turnOutputs_messages env now resp turn keeps
  have opens : ∀ item ∈ replay answer (turnOutputs env now resp turn),
      EnvelopeOpens true item := by
    intro item member
    rw [← convertItem_ok_iff]
    rcases List.mem_append.mp member with inside | inside
    · obtain ⟨output, here, rfl⟩ := List.mem_map.mp inside
      exact each output here
    · obtain ⟨call, _, rfl⟩ := List.mem_map.mp inside
      exact ⟨_, convertItem_outputOf true answer call⟩
  obtain ⟨converted, done⟩ := mapM_convertItem_ok.mpr opens
  have outputs (calls : List ResponsesOutput) :
      (calls.map (outputOf answer)).flatMap (itemMessages true) =
        (calls.map (resultOf answer)).map (single .user) := by
    induction calls with
    | nil => rfl
    | cons call rest ih =>
      rw [List.map_cons, List.flatMap_cons, ih]
      rfl
  have whole : said true (replay answer (turnOutputs env now resp turn)) =
      (turn.filterMap TurnBlock.back).map (single .assistant) ++
        (((turnOutputs env now resp turn).filter fun output =>
          output.type = .functionCall).map (resultOf answer)).map (single .user) := by
    rw [said, replay, List.flatMap_append, outputs, ← messages, List.flatMap_map]
  refine ⟨joinSystem ((if trimSpace instructions = "" then [] else [trimSpace instructions]) ++
    converted.flatMap Converted.systemParts), ?_⟩
  simp only [convertResponsesInputToAnthropic, done, bind, Except.bind, pure, Except.pure]
  rw [mapM_convertItem_messages done, whole]

/-- What comes back of the turn makes the first message, the calls at its end. -/
theorem replay_assistant (something : turn.filterMap TurnBlock.back ≠ []) (instructions : String) :
    ∃ system first later,
      convertResponsesInputToAnthropic instructions
          (.items (replay answer (turnOutputs env now resp turn))) true =
        .ok (system, first :: later) ∧
      first.role = .assistant ∧
      first.blocks = (turn.filterMap TurnBlock.back).filter (fun b => b.type ≠ .toolUse) ++
        (turn.filterMap TurnBlock.back).filter (fun b => b.type = .toolUse) ∧
      ∀ m ∈ later, m.role = .user := by
  obtain ⟨system, done⟩ := @replay_messages env now resp turn answer keeps instructions
  have marshal : ∀ r ∈ turn.filterMap TurnBlock.back, r.marshals = true := by
    intro r inside
    obtain ⟨b, _, back⟩ := List.mem_filterMap.mp inside
    exact back_marshals back
  have isResult : ∀ r ∈ ((turnOutputs env now resp turn).filter fun output =>
      output.type = .functionCall).map (resultOf answer),
      r.type = .toolResult ∧ r.toolUseID ≠ "" ∧ r.marshals = true := by
    intro r inside
    obtain ⟨call, _, rfl⟩ := List.mem_map.mp inside
    exact ⟨rfl, TurnBlock.fromResponsesCallIDToAnthropic_ne_empty _,
      by simp [RequestBlock.marshals, resultOf, outputContent_valid]⟩
  obtain ⟨first, later, shape, isAssistant, blocks, users⟩ :=
    normalizeMessages_turn something marshal isResult
      fun b inside isCall => turn_answered answer keeps inside isCall
  rw [shape] at done
  exact ⟨system, first, later, done, isAssistant, blocks, users⟩

/-- A turn that is sent back with an output for every call makes an assistant message of the same
blocks in the same order exactly when it has a block, the items carry every one of them, and the
calls are the last of them. -/
theorem replayed_turn_iff (instructions : String) :
    (∃ system messages,
      convertResponsesInputToAnthropic instructions
          (.items (replay answer (turnOutputs env now resp turn))) true = .ok (system, messages) ∧
        ∃ m ∈ messages, m.role = .assistant ∧ m.blocks = turn.map TurnBlock.requestBlock) ↔
      turn ≠ [] ∧ (∀ b ∈ turn, b.Carried) ∧ CallsLast (fun b => b.isCall = true) turn := by
  by_cases nothing : turn.filterMap TurnBlock.back = []
  · -- Nothing comes back, so there are no calls, no results and no messages.
    have noCalls : (turnOutputs env now resp turn).filter
        (fun output => output.type = .functionCall) = [] := by
      apply List.filter_eq_nil_iff.mpr
      intro output inside isCall
      rcases mem_turnOutputs keeps inside with ⟨b, here, sent⟩ | ⟨_, shape⟩
      · have type : (anonymous output).type = .functionCall := by simpa [anonymous] using isCall
        cases b with
        | toolUse id name input json =>
          have back := List.mem_filterMap.mpr
            ⟨TurnBlock.toolUse id name input json, here, show TurnBlock.back _ = some _ from rfl⟩
          rw [nothing] at back
          exact absurd back List.not_mem_nil
        | thinking thought signature =>
          by_cases signed : signature = ""
          · by_cases empty : thought = ""
            · simp [TurnBlock.sent, signed, empty] at sent
            · simp only [TurnBlock.sent, signed, ne_eq, not_true_eq_false, if_false,
                if_neg empty, Option.some.injEq] at sent
              rw [← sent] at type
              exact nomatch type
          · simp only [TurnBlock.sent, ne_eq, signed, not_false_eq_true, if_true,
              Option.some.injEq] at sent
            rw [← sent] at type
            exact nomatch type
        | redactedThinking data =>
          by_cases empty : data = ""
          · simp [TurnBlock.sent, empty] at sent
          · simp only [TurnBlock.sent, if_neg empty, Option.some.injEq] at sent
            rw [← sent] at type
            exact nomatch type
        | text spoken =>
          by_cases empty : spoken = ""
          · simp [TurnBlock.sent, empty] at sent
          · simp only [TurnBlock.sent, if_neg empty, Option.some.injEq] at sent
            rw [← sent] at type
            exact nomatch type
      · have type : (anonymous output).type = .functionCall := by simpa [anonymous] using isCall
        rw [shape] at type
        exact nomatch type
    obtain ⟨system, done⟩ := @replay_messages env now resp turn answer keeps instructions
    rw [nothing, noCalls] at done
    constructor
    · rintro ⟨_, messages, done', m, inside, _⟩
      rw [done] at done'
      cases done'
      exact absurd inside List.not_mem_nil
    · rintro ⟨some', carried, _⟩
      obtain ⟨b, inside⟩ := List.exists_mem_of_ne_nil _ some'
      have back := List.mem_filterMap.mpr ⟨b, inside, (TurnBlock.back_eq_iff b).mpr (carried b inside)⟩
      rw [nothing] at back
      exact absurd back List.not_mem_nil
  · obtain ⟨system, first, later, done, isAssistant, blocks, users⟩ :=
      @replay_assistant env now resp turn answer keeps nothing instructions
    have some' : turn ≠ [] := by
      rintro rfl
      exact nothing rfl
    rw [← back_turn_iff, ← blocks]
    constructor
    · rintro ⟨_, messages, done', m, inside, role, same⟩
      rw [done] at done'
      cases done'
      rcases List.mem_cons.mp inside with rfl | inLater
      · exact ⟨some', same⟩
      · exact absurd (role.symm.trans (users m inLater)) (by decide)
    · rintro ⟨_, same⟩
      exact ⟨system, _, done, first, by simp, isAssistant, same⟩

end Replayed

namespace HistorySample

/-- The surroundings of an Opus 5.5 response. -/
def opus : Surroundings :=
  { randomBytes := fun n => [(UInt8.ofNat n).toFin],
    keepsSignatures := fun model => model = "claude-opus-5-5" }

/-- Signed thinking, text, and a call. -/
def callLast : List TurnBlock :=
  [.thinking "plan" "sig", .text "on it", .toolUse "toolu_1" "ls" "\x7b\x7d" (.inr (by decide))]

/-- Signed thinking, a call, and text after the call. -/
def textAfterCall : List TurnBlock :=
  [.thinking "plan" "sig", .toolUse "toolu_1" "ls" "\x7b\x7d" (.inr (by decide)), .text "done"]

end HistorySample

/-- A turn whose call comes last is replayed as it was. -/
theorem replayed_turn_callLast :
    ∃ system messages,
      convertResponsesInputToAnthropic ""
          (.items (replay (fun _ => .text "src")
            (turnOutputs HistorySample.opus 0 { model := "claude-opus-5-5" }
              HistorySample.callLast))) true = .ok (system, messages) ∧
        ∃ m ∈ messages, m.role = .assistant ∧
          m.blocks = HistorySample.callLast.map TurnBlock.requestBlock := by
  apply (replayed_turn_iff (fun _ => .text "src") (by decide) "").mpr
  refine ⟨by simp [HistorySample.callLast], ?_, ?_⟩
  · intro b inside
    simp only [HistorySample.callLast, List.mem_cons, List.not_mem_nil, or_false] at inside
    rcases inside with rfl | rfl | rfl
    · exact fun empty => absurd empty (by decide)
    · exact fun empty => absurd empty (by decide)
    · exact ⟨.inl (by decide), by decide⟩
  · simp [CallsLast, HistorySample.callLast, TurnBlock.isCall]

/-- The call is moved behind the text. -/
theorem textAfterCall_not_replayed :
    ¬∃ system messages,
      convertResponsesInputToAnthropic ""
          (.items (replay (fun _ => .text "src")
            (turnOutputs HistorySample.opus 0 { model := "claude-opus-5-5" }
              HistorySample.textAfterCall))) true = .ok (system, messages) ∧
        ∃ m ∈ messages, m.role = .assistant ∧
          m.blocks = HistorySample.textAfterCall.map TurnBlock.requestBlock := by
  rintro ⟨system, messages, done, m, inside, role, same⟩
  obtain ⟨_, first, later, made, -, blocks, users⟩ :=
    @replay_assistant HistorySample.opus 0 { model := "claude-opus-5-5" }
      HistorySample.textAfterCall (fun _ => .text "src") (by decide) (by decide) ""
  rw [made] at done
  cases done
  rcases List.mem_cons.mp inside with rfl | inLater
  · exact absurd (blocks.symm.trans same) (by decide)
  · exact absurd (role.symm.trans (users m inLater)) (by decide)

end Sub2api.ApiCompat.AnthropicRequest
