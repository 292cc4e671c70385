import Mathlib.Data.List.Dedup
import Sub2api.Pricing.TokenCost

/-!
# What a request's pricing resolves to

`calculateTokenCost` for a resolved pricing: the interval of the request's context, the model's own
pricing policy, the peak hours, the breakdown and the multipliers on top. Times are seconds of the
Unix epoch, and no time is Go's zero time. What the code reads off a model's name with its tables of
spellings is the parameter `ModelNames`.
-/

namespace Sub2api.Pricing

open Go

structure PricingInterval where
  minTokens : ℤ
  maxTokens : Option ℤ := none
  inputPrice : Option ℚ := none
  outputPrice : Option ℚ := none
  cacheWritePrice : Option ℚ := none
  cacheWrite1hPrice : Option ℚ := none
  cacheReadPrice : Option ℚ := none
  inputMultiplier : Option ℚ := none
  outputMultiplier : Option ℚ := none
  cacheWriteMultiplier : Option ℚ := none
  cacheReadMultiplier : Option ℚ := none

/-- `timePricing` is the configuration's `MultiplierAt` for the instants that are not zero. -/
structure ChannelModelPricing where
  inputPrice : Option ℚ := none
  outputPrice : Option ℚ := none
  cacheWritePrice : Option ℚ := none
  cacheWrite1hPrice : Option ℚ := none
  cacheReadPrice : Option ℚ := none
  imageInputPrice : Option ℚ := none
  imageOutputPrice : Option ℚ := none
  timePricing : ℤ → ℚ := fun _ => 1

inductive BillingMode where
  | unset
  | token
  | perRequest
  | image
  | video
  deriving DecidableEq

inductive PricingSource where
  | group
  | channel
  | liteLLM
  | fallback
  deriving DecidableEq

structure ResolvedPricing where
  mode : BillingMode := .token
  basePricing : Option ModelPricing := none
  intervals : List PricingInterval := []
  source : PricingSource := .channel
  supportsCacheBreakdown : Bool := false
  channelPricing : Option ChannelModelPricing := none
  longContextPricingEnabled : Bool := true

/-- What the model name says, where the code looks it up in its tables of spellings. -/
structure ModelNames where
  isOpenAIGPT56Model : String → Bool := fun _ => false
  isGPT6SolOrLunaSpelling : String → Bool := fun _ => false
  isOpenAIGPT6AstraModel : String → Bool := fun _ => false
  isOpus55 : String → Bool := fun _ => false
  openAIModelFastPricingRatio : String → ℚ := fun _ => 0

/-! ### The interval of a context -/

def PricingInterval.matches (totalTokens : ℤ) (iv : PricingInterval) : Bool :=
  iv.minTokens < totalTokens && iv.maxTokens.all (totalTokens ≤ ·)

def findMatchingInterval (intervals : List PricingInterval) (totalTokens : ℤ) :
    Option PricingInterval :=
  intervals.find? (·.matches totalTokens)

def channelTierOverridePrice (baseStandard baseTier channelStandard : ℚ) : ℚ :=
  if 0 < baseStandard ∧ 0 < baseTier then channelStandard * (baseTier / baseStandard) else 0

/-- One price and its priority price, under an interval's own price or multiplier. -/
def intervalPrice (price multiplier : Option ℚ) (standard tier : ℚ) : ℚ × ℚ :=
  match price, multiplier with
  | some price, _ => (price, channelTierOverridePrice standard tier price)
  | none, some multiplier => (standard * multiplier, tier * multiplier)
  | none, none => (standard, tier)

def applyChannelImagePriceOverrides (chPricing : Option ChannelModelPricing)
    (pricing : ModelPricing) : ModelPricing :=
  match chPricing with
  | none => pricing
  | some chPricing =>
      { pricing with
        imageOutputPricePerToken :=
          chPricing.imageOutputPrice.getD pricing.imageOutputPricePerToken
        imageOutputPriceExplicit :=
          pricing.imageOutputPriceExplicit || chPricing.imageOutputPrice.isSome
        imageInputPricePerToken :=
          chPricing.imageInputPrice.getD pricing.imageInputPricePerToken }

/-- The two prices of cache writes; a lone price of the interval is that of both. -/
def intervalCacheWrites (iv : PricingInterval) (pricing : ModelPricing) : ℚ × ℚ :=
  let fiveMinutes := match iv.cacheWritePrice, iv.cacheWriteMultiplier with
    | some price, _ => price
    | none, some multiplier => pricing.cacheCreation5mPrice * multiplier
    | none, none => pricing.cacheCreation5mPrice
  let oneHour := match iv.cacheWrite1hPrice, iv.cacheWritePrice, iv.cacheWriteMultiplier with
    | some price, _, _ => price
    | none, some price, _ => price
    | none, none, some multiplier => pricing.cacheCreation1hPrice * multiplier
    | none, none, none => pricing.cacheCreation1hPrice
  (fiveMinutes, oneHour)

def intervalToModelPricing (iv : PricingInterval) (base : Option ModelPricing)
    (chPricing : Option ChannelModelPricing) : ModelPricing :=
  let pricing := base.getD {}
  let input := intervalPrice iv.inputPrice iv.inputMultiplier pricing.inputPricePerToken
    pricing.inputPricePerTokenPriority
  let output := intervalPrice iv.outputPrice iv.outputMultiplier pricing.outputPricePerToken
    pricing.outputPricePerTokenPriority
  let cacheWrite := intervalPrice iv.cacheWritePrice iv.cacheWriteMultiplier
    pricing.cacheCreationPricePerToken pricing.cacheCreationPricePerTokenPriority
  let cacheRead := intervalPrice iv.cacheReadPrice iv.cacheReadMultiplier
    pricing.cacheReadPricePerToken pricing.cacheReadPricePerTokenPriority
  let cacheWrites := intervalCacheWrites iv pricing
  applyChannelImagePriceOverrides chPricing
    { pricing with
      inputPricePerToken := input.1
      inputPricePerTokenPriority := input.2
      outputPricePerToken := output.1
      outputPricePerTokenPriority := output.2
      cacheCreationPricePerToken := cacheWrite.1
      cacheCreationPricePerTokenPriority := cacheWrite.2
      cacheCreationPriceExplicit :=
        pricing.cacheCreationPriceExplicit || iv.cacheWritePrice.isSome
      cacheCreation5mPrice := cacheWrites.1
      cacheCreation1hPrice := cacheWrites.2
      cacheReadPricePerToken := cacheRead.1
      cacheReadPricePerTokenPriority := cacheRead.2
      supportsCacheBreakdown :=
        pricing.supportsCacheBreakdown || iv.cacheWrite1hPrice.isSome }

def getIntervalPricing (resolved : ResolvedPricing) (totalContextTokens : ℤ) :
    Option ModelPricing :=
  match findMatchingInterval resolved.intervals totalContextTokens with
  | none => resolved.basePricing
  | some iv =>
      some { intervalToModelPricing iv resolved.basePricing resolved.channelPricing with
        supportsCacheBreakdown := resolved.supportsCacheBreakdown }

/-! ### The policies of the models -/

def lowerName (model : String) : List Char := (trimSpace model).toList.map lowerRune

def isDeepSeekModel (model : String) : Bool := "deepseek-".toList.isPrefixOf (lowerName model)

def isDeepSeekProModel (model : String) : Bool :=
  (lowerName model).tails.any ("deepseek-v4-pro".toList.isPrefixOf ·)

def deepseekProRoutesToFlashAt : ℤ := 1789358400

def deepseekProBilledAsFlash (pricingAt : ℤ) : Bool := deepseekProRoutesToFlashAt ≤ pricingAt

/-- Day 0 of the epoch was a Thursday; Sunday is 0 and Saturday 6. -/
def weekday (seconds : ℤ) : ℤ := (seconds / 86400 + 4) % 7

def deepseekPeakMultiplierAt (now : ℤ) : ℚ :=
  let beijing := weekday (now + 8 * 3600)
  let h := now % 86400 / 3600
  if beijing = 6 ∨ beijing = 0 then 1
  else if (1 ≤ h ∧ h < 4) ∨ (6 ≤ h ∧ h < 10) then 2
  else 1

/-- The prices of input, output and cache reads. -/
def deepseekFlashOffPeak : ℚ × ℚ × ℚ := (15 / 10 ^ 8, 60 / 10 ^ 8, 3 / 10 ^ 9)
def deepseekProOffPeak : ℚ × ℚ × ℚ := (66 / 10 ^ 8, 198 / 10 ^ 8, 22 / 10 ^ 9)

def enforceOpenAIFastPricingRatio (pricing : ModelPricing) (ratio : ℚ) : ModelPricing :=
  if ratio ≤ 0 then pricing
  else
    { pricing with
      inputPricePerTokenPriority := pricing.inputPricePerToken * ratio
      outputPricePerTokenPriority := pricing.outputPricePerToken * ratio
      cacheReadPricePerTokenPriority :=
        if 0 < pricing.cacheReadPricePerToken then pricing.cacheReadPricePerToken * ratio
        else pricing.cacheReadPricePerTokenPriority
      cacheCreationPricePerTokenPriority :=
        if 0 < pricing.cacheCreationPricePerToken then pricing.cacheCreationPricePerToken * ratio
        else pricing.cacheCreationPricePerTokenPriority }

/-- The official prices of a DeepSeek model, at off-peak hours. -/
def deepSeekPricing (model : String) (pricing : ModelPricing) (pricingAt : ℤ) : ModelPricing :=
  let offPeak :=
    if isDeepSeekProModel model && !deepseekProBilledAsFlash pricingAt then deepseekProOffPeak
    else deepseekFlashOffPeak
  { pricing with
    inputPricePerToken := offPeak.1
    outputPricePerToken := offPeak.2.1
    cacheReadPricePerToken := offPeak.2.2 }

/-- A model that pays a premium for cache writes and has no explicit price for them. -/
def cacheWritePremium (pricing : ModelPricing) : ModelPricing :=
  { pricing with
    cacheCreationPricePerToken :=
      if pricing.cacheCreationPricePerToken ≤ 0 then pricing.inputPricePerToken * (5 / 4)
      else pricing.cacheCreationPricePerToken
    cacheCreationPricePerTokenPriority :=
      if pricing.cacheCreationPricePerTokenPriority ≤ 0 then
        pricing.inputPricePerTokenPriority * (5 / 4)
      else pricing.cacheCreationPricePerTokenPriority }

def ownMultipliers (names : ModelNames) (model : String) (pricing : ModelPricing) :
    ModelPricing :=
  { pricing with
    ultrafastMultiplier :=
      if names.isOpenAIGPT6AstraModel model then 6 else pricing.ultrafastMultiplier
    fastMultiplier :=
      if names.isOpus55 model && pricing.fastMultiplier.isNone then some 2
      else pricing.fastMultiplier }

def premiumUnlessExplicit (names : ModelNames) (model : String) (pricing : ModelPricing) :
    ModelPricing :=
  if (names.isOpenAIGPT56Model model || names.isGPT6SolOrLunaSpelling model) &&
      !pricing.cacheCreationPriceExplicit then
    cacheWritePremium pricing
  else pricing

/-- An explicit price of cache writes is multiplied as well, for some models. -/
def fastCacheWrites (names : ModelNames) (model : String) (pricing : ModelPricing) :
    ModelPricing :=
  let fastRatio := names.openAIModelFastPricingRatio model
  if 0 < fastRatio ∧ names.isGPT6SolOrLunaSpelling model ∧ pricing.cacheCreationPriceExplicit then
    { pricing with
      cacheCreationPricePerTokenPriority := pricing.cacheCreationPricePerToken * fastRatio }
  else pricing

def applyModelSpecificPricingPolicyEx (names : ModelNames) (model : String)
    (pricing : ModelPricing) (forceDeepSeekRates : Bool) (pricingAt : ℤ) : ModelPricing :=
  if forceDeepSeekRates && isDeepSeekModel model then deepSeekPricing model pricing pricingAt
  else
    let usesCacheWritePremium :=
      names.isOpenAIGPT56Model model || names.isGPT6SolOrLunaSpelling model
    let needsCacheCreationPolicy :=
      usesCacheWritePremium && !pricing.cacheCreationPriceExplicit &&
        (pricing.cacheCreationPricePerToken ≤ 0 ||
          (0 < pricing.inputPricePerTokenPriority &&
            pricing.cacheCreationPricePerTokenPriority ≤ 0))
    let needsOpus55FastMultiplier := names.isOpus55 model && pricing.fastMultiplier.isNone
    if !needsCacheCreationPolicy && names.openAIModelFastPricingRatio model ≤ 0 &&
        !needsOpus55FastMultiplier then
      pricing
    else
      fastCacheWrites names model
        (enforceOpenAIFastPricingRatio
          (premiumUnlessExplicit names model (ownMultipliers names model pricing))
          (names.openAIModelFastPricingRatio model))

/-! ### The cost -/

structure CostInput where
  model : String
  tokens : UsageTokens
  rateMultiplier : ℚ := 1
  pricingAt : Option ℤ := none
  serviceTier : String := ""
  reasoningEffort : String := ""
  longContextBillingEnabled : Option Bool := none
  disableModelLongContextPricing : Bool := false

def applyCostBreakdownMultiplier (cost : CostBreakdown) (multiplier : ℚ) : CostBreakdown :=
  { cost with
    inputCost := cost.inputCost * multiplier
    imageInputCost := cost.imageInputCost * multiplier
    outputCost := cost.outputCost * multiplier
    imageOutputCost := cost.imageOutputCost * multiplier
    cacheCreationCost := cost.cacheCreationCost * multiplier
    cacheReadCost := cost.cacheReadCost * multiplier
    totalCost := cost.totalCost * multiplier
    actualCost := cost.actualCost * multiplier }

def resolvedChannelTimeMultiplier (resolved : ResolvedPricing) (pricingAt : Option ℤ) : ℚ :=
  match resolved.source, resolved.channelPricing, pricingAt with
  | .channel, some chPricing, some instant => chPricing.timePricing instant
  | _, _, _ => 1

/-- `NormalizeMaxReasoningEffort`, of an effort already trimmed and lowered. -/
def normalizeMaxReasoningEffort (effort : String) : String :=
  let value := String.ofList (effort.toList.filter fun c => c ≠ '-' ∧ c ≠ '_' ∧ c ≠ ' ')
  if value ∈ ["minimal", "low", "medium", "high", "xhigh", "max"] then value
  else if value = "extrahigh" then "xhigh"
  else ""

def reasoningEffortBillingMultiplier (effort : String) (multipliers : List (String × ℚ)) : ℚ :=
  let effort := String.ofList (lowerName effort)
  let effort := if effort = "none" then effort else normalizeMaxReasoningEffort effort
  if effort = "" then 1
  else
    let multiplier := (multipliers.lookup effort).getD 0
    if multiplier ≤ 0 then 1 else multiplier

def errModelPricingUnavailable : String := "pricing not found"

/-- The prices of a request of the given context, before the breakdown. -/
def requestPricing (names : ModelNames) (now : ℤ) (resolved : ResolvedPricing)
    (model : String) (pricingAt : Option ℤ) (pricingContext : ℤ) : Option ModelPricing :=
  (getIntervalPricing resolved pricingContext).map fun pricing =>
    let pricingAt := pricingAt.getD now
    let listed := resolved.source = .liteLLM
    let pricing := applyModelSpecificPricingPolicyEx names model pricing listed pricingAt
    let mult := deepseekPeakMultiplierAt pricingAt
    if listed ∧ isDeepSeekModel model ∧ 1 < mult then
      { pricing with
        inputPricePerToken := pricing.inputPricePerToken * mult
        outputPricePerToken := pricing.outputPricePerToken * mult
        cacheReadPricePerToken := pricing.cacheReadPricePerToken * mult }
    else pricing

def UsageTokens.context (tokens : UsageTokens) : ℤ :=
  tokens.inputTokens + tokens.cacheCreationTokens + tokens.cacheReadTokens

def calculateTokenCost (names : ModelNames) (now : ℤ) (resolved : ResolvedPricing)
    (input : CostInput) : Except String CostBreakdown :=
  let totalContext := input.tokens.context
  let contextTierPricingEnabled :=
    resolved.longContextPricingEnabled || input.longContextBillingEnabled.getD false
  -- one token picks the lowest tier
  let pricingContext := if contextTierPricingEnabled then totalContext else 1
  match requestPricing names now resolved input.model input.pricingAt pricingContext with
  | none =>
      .error ("no pricing available for model: " ++ input.model ++ ": " ++
        errModelPricingUnavailable)
  | some pricing =>
      let applyLongCtx := resolved.intervals.isEmpty && contextTierPricingEnabled &&
        !input.disableModelLongContextPricing
      let breakdown := computeTokenBreakdown pricing input.tokens input.rateMultiplier
        input.serviceTier applyLongCtx
      .ok (applyCostBreakdownMultiplier
        (applyCostBreakdownMultiplier breakdown
          (resolvedChannelTimeMultiplier resolved input.pricingAt))
        (reasoningEffortBillingMultiplier input.reasoningEffort
          pricing.reasoningEffortMultipliers))

end Sub2api.Pricing
