import Mathlib.Tactic.LinearCombination
import Sub2api.Database.Numeric
import Sub2api.Go.Strings

/-!
# The cost of a request's tokens

`computeTokenBreakdown` in exact arithmetic. What it charges is read as a `Bill`, a list of lines
that each count tokens at one price: a bill at one price costs that price for every token it
counts, and a bill that grows line by line does not get cheaper. `lines` is the bill behind the
components, and `totalCost_lines` says so.
-/

namespace Sub2api.Pricing

open Database Go

/-! ### Bills -/

/-- Lines of a number of tokens and the price of each. -/
abbrev Bill := List (ℤ × ℚ)

namespace Bill

def total (bill : Bill) : ℚ := (bill.map fun line => (line.1 : ℚ) * line.2).sum

def tokens (bill : Bill) : ℤ := (bill.map Prod.fst).sum

/-- `bill` is nowhere above `larger`, and owes the customer nothing. -/
def Within (bill larger : Bill) : Prop :=
  List.Forall₂ (fun line above => 0 ≤ line.1 ∧ line.1 ≤ above.1 ∧ 0 ≤ line.2 ∧ line.2 ≤ above.2)
    bill larger

@[simp] theorem total_nil : total [] = 0 := rfl

@[simp] theorem total_cons (line : ℤ × ℚ) (bill : Bill) :
    total (line :: bill) = line.1 * line.2 + total bill := rfl

@[simp] theorem tokens_nil : tokens [] = 0 := rfl

@[simp] theorem tokens_cons (line : ℤ × ℚ) (bill : Bill) :
    tokens (line :: bill) = line.1 + tokens bill := rfl

/-- Lines without tokens may have any price. -/
theorem total_of_price {bill : Bill} {p : ℚ} (priced : ∀ line ∈ bill, line.1 = 0 ∨ line.2 = p) :
    total bill = p * tokens bill := by
  induction bill with
  | nil => simp
  | cons line rest ih =>
      have later := ih fun other mem => priced other (List.mem_cons_of_mem line mem)
      rcases priced line List.mem_cons_self with none | same
      · simp [later, none]
      · simp only [total_cons, tokens_cons, later, same]
        push_cast
        ring

theorem total_le {bill larger : Bill} (within : Within bill larger) :
    total bill ≤ total larger := by
  induction within with
  | nil => exact le_rfl
  | @cons line above rest more first _ ih =>
      obtain ⟨counted, grows, priced, dearer⟩ := first
      have count : (line.1 : ℚ) ≤ above.1 := by exact_mod_cast grows
      have positive : (0 : ℚ) ≤ line.1 := by exact_mod_cast counted
      have lineLe : (line.1 : ℚ) * line.2 ≤ above.1 * above.2 :=
        mul_le_mul count dearer priced (positive.trans count)
      simpa using add_le_add lineLe ih

end Bill

/-! ### The source -/

structure ModelPricing where
  ultrafastMultiplier : ℚ := 0
  inputPricePerToken : ℚ := 0
  inputPricePerTokenPriority : ℚ := 0
  imageInputPricePerToken : ℚ := 0
  imageCacheReadPricePerToken : ℚ := 0
  outputPricePerToken : ℚ := 0
  outputPricePerTokenPriority : ℚ := 0
  cacheCreationPricePerToken : ℚ := 0
  cacheCreationPricePerTokenPriority : ℚ := 0
  cacheCreationPriceExplicit : Bool := false
  cacheReadPricePerToken : ℚ := 0
  cacheReadPricePerTokenPriority : ℚ := 0
  fastMultiplier : Option ℚ := none
  flexMultiplier : Option ℚ := none
  reasoningEffortMultipliers : List (String × ℚ) := []
  cacheCreation5mPrice : ℚ := 0
  cacheCreation1hPrice : ℚ := 0
  supportsCacheBreakdown : Bool := false
  longContextInputThreshold : ℤ := 0
  longContextThresholdInclusive : Bool := false
  longContextInputMultiplier : ℚ := 0
  longContextOutputMultiplier : ℚ := 0
  imageOutputPricePerToken : ℚ := 0
  imageOutputPriceExplicit : Bool := false

structure UsageTokens where
  inputTokens : ℤ := 0
  imageInputTokens : ℤ := 0
  imageCacheReadTokens : ℤ := 0
  outputTokens : ℤ := 0
  cacheCreationTokens : ℤ := 0
  cacheReadTokens : ℤ := 0
  cacheCreation5mTokens : ℤ := 0
  cacheCreation1hTokens : ℤ := 0
  imageOutputTokens : ℤ := 0
  deriving DecidableEq

structure CostBreakdown where
  inputCost : ℚ := 0
  imageInputCost : ℚ := 0
  outputCost : ℚ := 0
  imageOutputCost : ℚ := 0
  cacheCreationCost : ℚ := 0
  cacheReadCost : ℚ := 0
  totalCost : ℚ := 0
  actualCost : ℚ := 0
  longContextBillingApplied : Bool := false

def normalizeBillingServiceTier (serviceTier : String) : String :=
  String.ofList ((trimSpace serviceTier).toList.map lowerRune)

def usePriorityServiceTierPricing (serviceTier : String) (pricing : ModelPricing) : Bool :=
  let tier := normalizeBillingServiceTier serviceTier
  (tier == "priority" || tier == "fast") && pricing.fastMultiplier.isNone &&
    (0 < pricing.inputPricePerTokenPriority || 0 < pricing.outputPricePerTokenPriority ||
      0 < pricing.cacheCreationPricePerTokenPriority ||
      0 < pricing.cacheReadPricePerTokenPriority)

def openAIFastTierUltrafast : String := "ultrafast"

def serviceTierCostMultiplier (serviceTier : String) : ℚ :=
  let tier := normalizeBillingServiceTier serviceTier
  if tier = "priority" ∨ tier = "fast" ∨ tier = openAIFastTierUltrafast then 2
  else if tier = "flex" then 1 / 2
  else 1

def configuredServiceTierMultiplier (serviceTier : String) (pricing : ModelPricing) : ℚ :=
  let tier := normalizeBillingServiceTier serviceTier
  if tier = openAIFastTierUltrafast ∧ 0 < pricing.ultrafastMultiplier then
    pricing.ultrafastMultiplier
  else if tier = "priority" ∨ tier = "fast" then
    pricing.fastMultiplier.getD (serviceTierCostMultiplier serviceTier)
  else if tier = "flex" then pricing.flexMultiplier.getD (serviceTierCostMultiplier serviceTier)
  else serviceTierCostMultiplier serviceTier

/-- The local variables of `computeTokenBreakdown` that the tier and the long context set. -/
structure Rates where
  inputPrice : ℚ
  outputPrice : ℚ
  cacheReadPrice : ℚ
  cacheCreationPrice : ℚ
  cacheCreationMultiplier : ℚ := 1
  tierMultiplier : ℚ := 1

def positiveOr (price fallback : ℚ) : ℚ := if 0 < price then price else fallback

def tierRates (serviceTier : String) (pricing : ModelPricing) : Rates :=
  if usePriorityServiceTierPricing serviceTier pricing then
    { inputPrice := positiveOr pricing.inputPricePerTokenPriority pricing.inputPricePerToken
      outputPrice := positiveOr pricing.outputPricePerTokenPriority pricing.outputPricePerToken
      cacheReadPrice :=
        positiveOr pricing.cacheReadPricePerTokenPriority pricing.cacheReadPricePerToken
      cacheCreationPrice :=
        positiveOr pricing.cacheCreationPricePerTokenPriority pricing.cacheCreationPricePerToken }
  else
    { inputPrice := pricing.inputPricePerToken
      outputPrice := pricing.outputPricePerToken
      cacheReadPrice := pricing.cacheReadPricePerToken
      cacheCreationPrice := pricing.cacheCreationPricePerToken
      tierMultiplier := configuredServiceTierMultiplier serviceTier pricing }

def longContextMultiplierOrOne (m : ℚ) : ℚ := if m ≤ 0 then 1 else m

def Rates.longContext (pricing : ModelPricing) (rates : Rates) : Rates :=
  let longCtxInputMultiplier := longContextMultiplierOrOne pricing.longContextInputMultiplier
  { rates with
    inputPrice := rates.inputPrice * longCtxInputMultiplier
    outputPrice :=
      rates.outputPrice * longContextMultiplierOrOne pricing.longContextOutputMultiplier
    cacheReadPrice := rates.cacheReadPrice * longCtxInputMultiplier
    cacheCreationMultiplier := longCtxInputMultiplier }

def shouldApplySessionLongContextPricing (tokens : UsageTokens) (pricing : ModelPricing) : Bool :=
  let totalInputTokens := tokens.inputTokens + tokens.cacheCreationTokens + tokens.cacheReadTokens
  if pricing.longContextInputThreshold ≤ 0 then false
  else if pricing.longContextInputMultiplier ≤ 1 ∧ pricing.longContextOutputMultiplier ≤ 1 then
    false
  else if pricing.longContextThresholdInclusive then
    pricing.longContextInputThreshold ≤ totalInputTokens
  else pricing.longContextInputThreshold < totalInputTokens

/-- Caps contradictory details at a positive aggregate, in their reported ratio. -/
def normalizeCacheCreationBreakdown (tokens : UsageTokens) : ℤ × ℤ :=
  let fiveMinutes := max tokens.cacheCreation5mTokens 0
  let oneHour := max tokens.cacheCreation1hTokens 0
  let aggregate := tokens.cacheCreationTokens
  if aggregate ≤ 0 ∨ (fiveMinutes ≤ aggregate ∧ oneHour ≤ aggregate - fiveMinutes) then
    (fiveMinutes, oneHour)
  else
    let detailTotal : ℚ := fiveMinutes + oneHour
    let normalized := roundHalfAway (aggregate * fiveMinutes / detailTotal)
    let fiveMinutes := if aggregate ≤ normalized then aggregate else normalized
    (fiveMinutes, aggregate - fiveMinutes)

/-- Whether the five-minute and one-hour prices are used. -/
def ModelPricing.splits (pricing : ModelPricing) : Prop :=
  pricing.supportsCacheBreakdown ∧
    (0 < pricing.cacheCreation5mPrice ∨ 0 < pricing.cacheCreation1hPrice)

instance (pricing : ModelPricing) : Decidable pricing.splits :=
  inferInstanceAs (Decidable (_ ∧ _))

def computeCacheCreationCost (pricing : ModelPricing) (tokens : UsageTokens)
    (price multiplier : ℚ) : ℚ :=
  if pricing.splits then
    let (fiveMinutes, oneHour) := normalizeCacheCreationBreakdown tokens
    -- without details everything was written for five minutes
    if fiveMinutes = 0 ∧ oneHour = 0 ∧ 0 < tokens.cacheCreationTokens then
      tokens.cacheCreationTokens * pricing.cacheCreation5mPrice * multiplier
    else
      fiveMinutes * pricing.cacheCreation5mPrice * multiplier +
        oneHour * pricing.cacheCreation1hPrice * multiplier
  else tokens.cacheCreationTokens * price * multiplier

def imageInputPrice (pricing : ModelPricing) (inputPrice : ℚ) : ℚ :=
  if pricing.imageInputPricePerToken = 0 then inputPrice else pricing.imageInputPricePerToken

/-- `InputCost` and `ImageInputCost`. -/
def inputCosts (pricing : ModelPricing) (tokens : UsageTokens) (inputPrice : ℚ) : ℚ × ℚ :=
  if 0 < tokens.imageInputTokens then
    let (textInputTokens, imageInputTokens) :=
      if tokens.inputTokens - tokens.imageInputTokens < 0 then (0, tokens.inputTokens)
      else (tokens.inputTokens - tokens.imageInputTokens, tokens.imageInputTokens)
    (textInputTokens * inputPrice, imageInputTokens * imageInputPrice pricing inputPrice)
  else (tokens.inputTokens * inputPrice, 0)

def imageOutputPrice (pricing : ModelPricing) (outputPrice : ℚ) : ℚ :=
  if pricing.imageOutputPricePerToken = 0 ∧ !pricing.imageOutputPriceExplicit then outputPrice
  else pricing.imageOutputPricePerToken

/-- `OutputCost` and `ImageOutputCost`. Unlike the image input, the image output is not capped. -/
def outputCosts (pricing : ModelPricing) (tokens : UsageTokens) (outputPrice : ℚ) : ℚ × ℚ :=
  let textOutputTokens :=
    if tokens.outputTokens - tokens.imageOutputTokens < 0 then 0
    else tokens.outputTokens - tokens.imageOutputTokens
  (textOutputTokens * outputPrice,
    if 0 < tokens.imageOutputTokens then
      tokens.imageOutputTokens * imageOutputPrice pricing outputPrice
    else 0)

def imageCached (tokens : UsageTokens) : ℤ :=
  min (max tokens.imageCacheReadTokens 0) (max tokens.cacheReadTokens 0)

def cacheReadCost (pricing : ModelPricing) (tokens : UsageTokens) (cacheReadPrice : ℚ) : ℚ :=
  if 0 < imageCached tokens ∧ 0 < pricing.imageCacheReadPricePerToken then
    (tokens.cacheReadTokens - imageCached tokens) * cacheReadPrice +
      imageCached tokens * pricing.imageCacheReadPricePerToken
  else tokens.cacheReadTokens * cacheReadPrice

/-- The second half of `computeTokenBreakdown`, once the rates are known. -/
def breakdownAt (pricing : ModelPricing) (tokens : UsageTokens) (rateMultiplier : ℚ)
    (rates : Rates) : CostBreakdown :=
  let input := inputCosts pricing tokens rates.inputPrice
  let output := outputCosts pricing tokens rates.outputPrice
  let inputCost := input.1 * rates.tierMultiplier
  let imageInputCost := input.2 * rates.tierMultiplier
  let outputCost := output.1 * rates.tierMultiplier
  let imageOutputCost := output.2 * rates.tierMultiplier
  let cacheCreationCost :=
    computeCacheCreationCost pricing tokens rates.cacheCreationPrice
      rates.cacheCreationMultiplier * rates.tierMultiplier
  let cacheReadCost := cacheReadCost pricing tokens rates.cacheReadPrice * rates.tierMultiplier
  let totalCost := inputCost + imageInputCost + outputCost + imageOutputCost + cacheCreationCost +
    cacheReadCost
  { inputCost, imageInputCost, outputCost, imageOutputCost, cacheCreationCost, cacheReadCost,
    totalCost, actualCost := totalCost * rateMultiplier }

/-- The rates once the long context is decided. -/
def appliedRates (pricing : ModelPricing) (tokens : UsageTokens) (serviceTier : String)
    (applyLongCtx : Bool) : Rates :=
  if applyLongCtx && shouldApplySessionLongContextPricing tokens pricing then
    (tierRates serviceTier pricing).longContext pricing
  else tierRates serviceTier pricing

def computeTokenBreakdown (pricing : ModelPricing) (tokens : UsageTokens) (rateMultiplier : ℚ)
    (serviceTier : String) (applyLongCtx : Bool) : CostBreakdown :=
  let rateMultiplier := if rateMultiplier < 0 then 0 else rateMultiplier
  let longContextPricingEligible :=
    applyLongCtx && shouldApplySessionLongContextPricing tokens pricing
  let baselineCost := breakdownAt pricing tokens rateMultiplier (tierRates serviceTier pricing)
  let bd := breakdownAt pricing tokens rateMultiplier
    (appliedRates pricing tokens serviceTier applyLongCtx)
  { bd with longContextBillingApplied :=
      longContextPricingEligible && baselineCost.actualCost < bd.actualCost }

/-! ### The bill behind the components -/

def imageInputShare (tokens : UsageTokens) : ℤ :=
  min (max tokens.imageInputTokens 0) tokens.inputTokens

def cacheCreationLines (pricing : ModelPricing) (tokens : UsageTokens) (rates : Rates) : Bill :=
  let details := normalizeCacheCreationBreakdown tokens
  if pricing.splits then
    if details.1 = 0 ∧ details.2 = 0 ∧ 0 < tokens.cacheCreationTokens then
      [(tokens.cacheCreationTokens, pricing.cacheCreation5mPrice * rates.cacheCreationMultiplier)]
    else
      [(details.1, pricing.cacheCreation5mPrice * rates.cacheCreationMultiplier),
        (details.2, pricing.cacheCreation1hPrice * rates.cacheCreationMultiplier)]
  else [(tokens.cacheCreationTokens, rates.cacheCreationPrice * rates.cacheCreationMultiplier)]

def lines (pricing : ModelPricing) (tokens : UsageTokens) (rates : Rates) : Bill :=
  (tokens.inputTokens - imageInputShare tokens, rates.inputPrice) ::
    (imageInputShare tokens, imageInputPrice pricing rates.inputPrice) ::
    (max (tokens.outputTokens - tokens.imageOutputTokens) 0, rates.outputPrice) ::
    (max tokens.imageOutputTokens 0, imageOutputPrice pricing rates.outputPrice) ::
    (tokens.cacheReadTokens - imageCached tokens, rates.cacheReadPrice) ::
    (imageCached tokens, positiveOr pricing.imageCacheReadPricePerToken rates.cacheReadPrice) ::
    cacheCreationLines pricing tokens rates

variable {pricing : ModelPricing} {tokens : UsageTokens} {rates : Rates}

theorem inputCosts_sum (pricing : ModelPricing) (counted : 0 ≤ tokens.inputTokens) (inputPrice : ℚ) :
    (inputCosts pricing tokens inputPrice).1 + (inputCosts pricing tokens inputPrice).2 =
      ((tokens.inputTokens - imageInputShare tokens : ℤ) : ℚ) * inputPrice +
        imageInputShare tokens * imageInputPrice pricing inputPrice := by
  unfold inputCosts
  by_cases images : 0 < tokens.imageInputTokens
  · by_cases short : tokens.inputTokens - tokens.imageInputTokens < 0
    · have share : imageInputShare tokens = tokens.inputTokens := by
        unfold imageInputShare
        omega
      simp [images, short, share]
    · have share : imageInputShare tokens = tokens.imageInputTokens := by
        unfold imageInputShare
        omega
      simp [images, short, share]
  · have share : imageInputShare tokens = 0 := by
      unfold imageInputShare
      omega
    simp [images, share]

theorem outputCosts_sum (pricing : ModelPricing) (tokens : UsageTokens) (outputPrice : ℚ) :
    (outputCosts pricing tokens outputPrice).1 + (outputCosts pricing tokens outputPrice).2 =
      ((max (tokens.outputTokens - tokens.imageOutputTokens) 0 : ℤ) : ℚ) * outputPrice +
        (max tokens.imageOutputTokens 0 : ℤ) * imageOutputPrice pricing outputPrice := by
  have text : (if tokens.outputTokens - tokens.imageOutputTokens < 0 then 0
      else tokens.outputTokens - tokens.imageOutputTokens) =
      max (tokens.outputTokens - tokens.imageOutputTokens) 0 := by
    split <;> omega
  by_cases images : 0 < tokens.imageOutputTokens
  · have share : max tokens.imageOutputTokens 0 = tokens.imageOutputTokens := by omega
    simp only [outputCosts, text, images, if_true, share]
  · have share : max tokens.imageOutputTokens 0 = 0 := by omega
    simp only [outputCosts, text, images, if_false, share, Int.cast_zero, zero_mul]

theorem cacheReadCost_eq (pricing : ModelPricing) (tokens : UsageTokens) (cacheReadPrice : ℚ) :
    cacheReadCost pricing tokens cacheReadPrice =
      ((tokens.cacheReadTokens - imageCached tokens : ℤ) : ℚ) * cacheReadPrice +
        imageCached tokens *
          positiveOr pricing.imageCacheReadPricePerToken cacheReadPrice := by
  have share : 0 ≤ imageCached tokens := by
    unfold imageCached
    omega
  unfold cacheReadCost positiveOr
  by_cases cached : 0 < imageCached tokens
  · by_cases priced : 0 < pricing.imageCacheReadPricePerToken
    · simp [cached, priced]
    · simp only [priced, and_false, if_false]
      push_cast
      ring
  · have none : imageCached tokens = 0 := by omega
    simp [none]

theorem computeCacheCreationCost_eq (pricing : ModelPricing) (tokens : UsageTokens)
    (rates : Rates) :
    computeCacheCreationCost pricing tokens rates.cacheCreationPrice
        rates.cacheCreationMultiplier =
      (cacheCreationLines pricing tokens rates).total := by
  unfold computeCacheCreationCost cacheCreationLines
  by_cases split : pricing.splits
  · by_cases silent : (normalizeCacheCreationBreakdown tokens).1 = 0 ∧
        (normalizeCacheCreationBreakdown tokens).2 = 0 ∧ 0 < tokens.cacheCreationTokens
    · simp only [split, if_true, silent, and_self, Bill.total_cons, Bill.total_nil]
      ring
    · simp only [split, if_true, silent, if_false, Bill.total_cons, Bill.total_nil]
      ring
  · simp only [split, if_false, Bill.total_cons, Bill.total_nil]
    ring

theorem totalCost_lines (pricing : ModelPricing) (rates : Rates)
    (counted : 0 ≤ tokens.inputTokens) (rateMultiplier : ℚ) :
    (breakdownAt pricing tokens rateMultiplier rates).totalCost =
      rates.tierMultiplier * (lines pricing tokens rates).total := by
  have input := inputCosts_sum pricing counted rates.inputPrice
  have output := outputCosts_sum pricing tokens rates.outputPrice
  have cacheRead := cacheReadCost_eq pricing tokens rates.cacheReadPrice
  have cacheCreation := computeCacheCreationCost_eq pricing tokens rates
  simp only [breakdownAt, lines, Bill.total_cons]
  linear_combination rates.tierMultiplier * (input + output + cacheRead + cacheCreation)

theorem computeTokenBreakdown_totalCost (rateMultiplier : ℚ) (serviceTier : String)
    (applyLongCtx : Bool) :
    (computeTokenBreakdown pricing tokens rateMultiplier serviceTier applyLongCtx).totalCost =
      (breakdownAt pricing tokens (if rateMultiplier < 0 then 0 else rateMultiplier)
        (appliedRates pricing tokens serviceTier applyLongCtx)).totalCost := by
  unfold computeTokenBreakdown
  rfl

theorem computeTokenBreakdown_actualCost (rateMultiplier : ℚ) (serviceTier : String)
    (applyLongCtx : Bool) :
    (computeTokenBreakdown pricing tokens rateMultiplier serviceTier applyLongCtx).actualCost =
      (breakdownAt pricing tokens (if rateMultiplier < 0 then 0 else rateMultiplier)
        (appliedRates pricing tokens serviceTier applyLongCtx)).totalCost *
        if rateMultiplier < 0 then 0 else rateMultiplier := by
  unfold computeTokenBreakdown
  rfl

end Sub2api.Pricing
