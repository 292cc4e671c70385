import Mathlib.Algebra.BigOperators.Group.List.Basic
import Mathlib.Tactic.TypeStar
import Sub2api.Go.Gjson
import Sub2api.Go.Strings

/-!
# Usage of upstream events

The counts of a usage object and how the events of a turn add up: an event before the end merges
its positive counts into the turn, a terminal event replaces them once it has tokens.
-/

namespace Sub2api.Relay

open Sub2api.Go Sub2api.Go.Gjson

@[ext] structure Usage where
  inputTokens : ℤ := 0
  imageInputTokens : ℤ := 0
  outputTokens : ℤ := 0
  cacheCreationInputTokens : ℤ := 0
  cacheReadInputTokens : ℤ := 0
  imageOutputTokens : ℤ := 0
  deriving DecidableEq

namespace Usage

instance : Zero Usage := ⟨{}⟩

/-- Field by field. -/
instance : Add Usage where
  add a b :=
    { inputTokens := a.inputTokens + b.inputTokens
      imageInputTokens := a.imageInputTokens + b.imageInputTokens
      outputTokens := a.outputTokens + b.outputTokens
      cacheCreationInputTokens := a.cacheCreationInputTokens + b.cacheCreationInputTokens
      cacheReadInputTokens := a.cacheReadInputTokens + b.cacheReadInputTokens
      imageOutputTokens := a.imageOutputTokens + b.imageOutputTokens }

theorem zero_def : (0 : Usage) = {} := rfl

theorem add_def (a b : Usage) : a + b =
    { inputTokens := a.inputTokens + b.inputTokens
      imageInputTokens := a.imageInputTokens + b.imageInputTokens
      outputTokens := a.outputTokens + b.outputTokens
      cacheCreationInputTokens := a.cacheCreationInputTokens + b.cacheCreationInputTokens
      cacheReadInputTokens := a.cacheReadInputTokens + b.cacheReadInputTokens
      imageOutputTokens := a.imageOutputTokens + b.imageOutputTokens } := rfl

instance : AddMonoid Usage where
  add_assoc a b c := by simp [add_def, Int.add_assoc]
  zero_add a := by simp [add_def, zero_def]
  add_zero a := by simp [add_def, zero_def]
  nsmul := nsmulRec

end Usage

def relayUsageHasTokens (usage : Usage) : Bool :=
  0 < usage.inputTokens || 0 < usage.outputTokens || 0 < usage.cacheCreationInputTokens ||
    0 < usage.cacheReadInputTokens || 0 < usage.imageInputTokens || 0 < usage.imageOutputTokens

def mergeRelayUsageNonZero (dst src : Usage) : Usage :=
  { inputTokens := if 0 < src.inputTokens then src.inputTokens else dst.inputTokens
    imageInputTokens :=
      if 0 < src.imageInputTokens then src.imageInputTokens else dst.imageInputTokens
    outputTokens := if 0 < src.outputTokens then src.outputTokens else dst.outputTokens
    cacheCreationInputTokens :=
      if 0 < src.cacheCreationInputTokens then src.cacheCreationInputTokens
      else dst.cacheCreationInputTokens
    cacheReadInputTokens :=
      if 0 < src.cacheReadInputTokens then src.cacheReadInputTokens else dst.cacheReadInputTokens
    imageOutputTokens :=
      if 0 < src.imageOutputTokens then src.imageOutputTokens else dst.imageOutputTokens }

/-! ### Event types -/

def isTerminalEvent (eventType : String) : Bool :=
  ["response.completed", "response.done", "response.failed", "response.incomplete",
    "response.cancelled", "response.canceled", "error"].contains (trimSpace eventType)

def shouldParseUsage (eventType : String) : Bool :=
  let eventType := trimSpace eventType
  if eventType = "error" ∨ isTerminalEvent eventType then true
  else hasPrefix eventType "response." && !hasSuffix eventType ".delta"

def isTokenEvent (eventType : String) : Bool :=
  let eventType := trimSpace eventType
  hasSuffix eventType ".delta" || eventType == "response.output_text.done" ||
    eventType == "response.function_call_arguments.done"

/-! ### The usage object -/

/-- The text of a frame: what its lookups find, and whether it has the bytes `"usage"`. -/
structure Payload where
  get : String → Result
  quotesUsage : Bool := true

/-- The count, `none` where it is missing but required or is no number. -/
def parseUsageIntField (value : Result) (required : Bool) : Option ℤ :=
  if !value.present then if required then none else some 0
  else if value.type ≠ .number then none
  else some value.int

def openAICacheCreationTokensFromUsage (value : Result) : ℤ :=
  match ["input_tokens_details.cache_write_tokens", "prompt_tokens_details.cache_write_tokens",
      "input_tokens_details.cache_creation_tokens",
      "prompt_tokens_details.cache_creation_tokens"].find? fun field =>
        (value.get field).present with
  | some field => max (value.get field).int 0
  | none =>
      ((["cache_write_tokens", "cache_creation_input_tokens", "cache_write_input_tokens",
        "cache_creation_tokens"].map fun field => (value.get field).int).find? (0 < ·)).getD 0

def includeIndependentReasoningTokens (input output total reasoning : ℤ) : ℤ :=
  if input < 0 ∨ output < 0 ∨ reasoning ≤ 0 ∨ total ≤ 0 then output
  else if total = input + output then output
  else
    let gap := total - input - output
    if gap ≤ 0 then output
    else output + if reasoning < gap then reasoning else gap

/-- The counts of an event, `none` where it has no usage object or a count does not parse. -/
def parseUsage (message : Payload) (eventType : String) : Option Usage :=
  if !shouldParseUsage eventType || !message.quotesUsage then none
  else
    let usageResult := (message.get "response.usage").orElse (message.get "usage")
    let usageRaw := trimSpace usageResult.raw
    if !usageResult.present || usageRaw = "" || !hasPrefix usageRaw "\x7b" then none
    else
      let inputResult := (usageResult.get "input_tokens").orElse (usageResult.get "prompt_tokens")
      let outputResult :=
        (usageResult.get "output_tokens").orElse (usageResult.get "completion_tokens")
      let cachedResult := (usageResult.get "input_tokens_details.cached_tokens").orElse
        (usageResult.get "prompt_tokens_details.cached_tokens")
      let imageTokens := (usageResult.get "output_tokens_details.image_tokens").int
      let imageTokens :=
        if imageTokens = 0 then (usageResult.get "completion_tokens_details.image_tokens").int
        else imageTokens
      let imageInputTokens := (usageResult.get "input_tokens_details.image_tokens").int
      let imageInputTokens :=
        if imageInputTokens ≤ 0 then (usageResult.get "prompt_tokens_details.image_tokens").int
        else imageInputTokens
      -- Counts of images made by the hosted tool stand in for the missing ones.
      let imageGen := (message.get "response.tool_usage.image_gen").orElse
        (message.get "tool_usage.image_gen")
      let imageTokens :=
        if imageTokens ≤ 0 then max (imageGen.get "output_tokens_details.image_tokens").int 0
        else imageTokens
      let imageInputTokens :=
        if imageInputTokens ≤ 0 then max (imageGen.get "input_tokens_details.image_tokens").int 0
        else imageInputTokens
      let requireTotals := isTerminalEvent (trimSpace eventType)
      match parseUsageIntField inputResult requireTotals,
          parseUsageIntField outputResult requireTotals,
          parseUsageIntField cachedResult false with
      | some inputTokens, some outputTokens, some cachedTokens =>
          let reasoningTokens := (usageResult.get "output_tokens_details.reasoning_tokens").int
          let reasoningTokens :=
            if reasoningTokens = 0 then
              (usageResult.get "completion_tokens_details.reasoning_tokens").int
            else reasoningTokens
          let outputTokens :=
            if 0 < reasoningTokens then
              includeIndependentReasoningTokens inputTokens outputTokens
                (usageResult.get "total_tokens").int reasoningTokens
            else outputTokens
          some
            { inputTokens := inputTokens
              imageInputTokens := imageInputTokens
              outputTokens := outputTokens
              cacheCreationInputTokens := openAICacheCreationTokensFromUsage usageResult
              cacheReadInputTokens := cachedTokens
              imageOutputTokens := imageTokens }
      -- No part of a usage that does not parse counts.
      | _, _, _ => none

/-- The usage of the turn after an event, and the event's own. -/
def parseUsageAndAccumulate (turnUsage : Usage) (message : Payload) (eventType : String) :
    Usage × Usage :=
  match parseUsage message eventType with
  | none => (turnUsage, 0)
  | some parsedUsage =>
      if isTerminalEvent (trimSpace eventType) then
        (if relayUsageHasTokens parsedUsage || !relayUsageHasTokens turnUsage then parsedUsage
          else turnUsage, parsedUsage)
      else (mergeRelayUsageNonZero turnUsage parsedUsage, 0)

end Sub2api.Relay
