import Sub2api.Pricing.TokenCost

/-!
# Every token billed once

What the breakdown of a request promises when counts and prices are not negative. The bill grows
with the input, output and cache-read tokens, also where that crosses the long-context threshold,
because there every rate can only rise; at one price its total is that price for each token of it.
-/

namespace Sub2api.Pricing

open Database

variable {pricing : ModelPricing} {tokens : UsageTokens} {rates : Rates}

/-! ### Counts and prices that are not negative -/

structure UsageTokens.NonNegative (tokens : UsageTokens) : Prop where
  inputTokens : 0 ≤ tokens.inputTokens
  imageInputTokens : 0 ≤ tokens.imageInputTokens
  imageCacheReadTokens : 0 ≤ tokens.imageCacheReadTokens
  outputTokens : 0 ≤ tokens.outputTokens
  cacheCreationTokens : 0 ≤ tokens.cacheCreationTokens
  cacheReadTokens : 0 ≤ tokens.cacheReadTokens
  cacheCreation5mTokens : 0 ≤ tokens.cacheCreation5mTokens
  cacheCreation1hTokens : 0 ≤ tokens.cacheCreation1hTokens
  imageOutputTokens : 0 ≤ tokens.imageOutputTokens

/-- `checkPricesNotNegative` asks this of the prices and of the fast and flex multipliers. -/
structure ModelPricing.NonNegative (pricing : ModelPricing) : Prop where
  inputPricePerToken : 0 ≤ pricing.inputPricePerToken
  imageInputPricePerToken : 0 ≤ pricing.imageInputPricePerToken
  outputPricePerToken : 0 ≤ pricing.outputPricePerToken
  cacheCreationPricePerToken : 0 ≤ pricing.cacheCreationPricePerToken
  cacheReadPricePerToken : 0 ≤ pricing.cacheReadPricePerToken
  cacheCreation5mPrice : 0 ≤ pricing.cacheCreation5mPrice
  cacheCreation1hPrice : 0 ≤ pricing.cacheCreation1hPrice
  imageOutputPricePerToken : 0 ≤ pricing.imageOutputPricePerToken
  fastMultiplier : ∀ m ∈ pricing.fastMultiplier, 0 < m
  flexMultiplier : ∀ m ∈ pricing.flexMultiplier, 0 < m

/-- Prices of one request next to prices that are no lower, at one tier. -/
structure Rates.AtMost (rates higher : Rates) : Prop where
  inputPrice : 0 ≤ rates.inputPrice ∧ rates.inputPrice ≤ higher.inputPrice
  outputPrice : 0 ≤ rates.outputPrice ∧ rates.outputPrice ≤ higher.outputPrice
  cacheReadPrice : 0 ≤ rates.cacheReadPrice ∧ rates.cacheReadPrice ≤ higher.cacheReadPrice
  cacheCreationPrice :
    0 ≤ rates.cacheCreationPrice ∧ rates.cacheCreationPrice ≤ higher.cacheCreationPrice
  cacheCreationMultiplier : 0 ≤ rates.cacheCreationMultiplier ∧
    rates.cacheCreationMultiplier ≤ higher.cacheCreationMultiplier
  tierMultiplier : 0 ≤ rates.tierMultiplier ∧ rates.tierMultiplier = higher.tierMultiplier

theorem positiveOr_nonneg {price fallback : ℚ} (nonneg : 0 ≤ fallback) :
    0 ≤ positiveOr price fallback := by
  unfold positiveOr
  split
  · exact le_of_lt ‹_›
  · exact nonneg

theorem positiveOr_mono (price : ℚ) {fallback higher : ℚ} (le : fallback ≤ higher) :
    positiveOr price fallback ≤ positiveOr price higher := by
  unfold positiveOr
  split
  · exact le_rfl
  · exact le

theorem serviceTierCostMultiplier_nonneg (serviceTier : String) :
    0 ≤ serviceTierCostMultiplier serviceTier := by
  unfold serviceTierCostMultiplier
  dsimp only
  split_ifs <;> norm_num

theorem getD_nonneg {multiplier : Option ℚ} (positive : ∀ m ∈ multiplier, 0 < m) {fallback : ℚ}
    (nonneg : 0 ≤ fallback) : 0 ≤ multiplier.getD fallback := by
  cases multiplier with
  | none => exact nonneg
  | some m => exact (positive m rfl).le

theorem configuredServiceTierMultiplier_nonneg (priced : pricing.NonNegative)
    (serviceTier : String) : 0 ≤ configuredServiceTierMultiplier serviceTier pricing := by
  have plain := serviceTierCostMultiplier_nonneg serviceTier
  unfold configuredServiceTierMultiplier
  dsimp only
  split_ifs with ultrafast
  · exact ultrafast.2.le
  · exact getD_nonneg priced.fastMultiplier plain
  · exact getD_nonneg priced.flexMultiplier plain
  · exact plain

theorem tierRates_atMost (priced : pricing.NonNegative) (serviceTier : String) :
    (tierRates serviceTier pricing).AtMost (tierRates serviceTier pricing) := by
  have tier := configuredServiceTierMultiplier_nonneg priced serviceTier
  unfold tierRates
  split
  · constructor
    · exact ⟨positiveOr_nonneg priced.inputPricePerToken, le_rfl⟩
    · exact ⟨positiveOr_nonneg priced.outputPricePerToken, le_rfl⟩
    · exact ⟨positiveOr_nonneg priced.cacheReadPricePerToken, le_rfl⟩
    · exact ⟨positiveOr_nonneg priced.cacheCreationPricePerToken, le_rfl⟩
    · exact ⟨zero_le_one, le_rfl⟩
    · exact ⟨zero_le_one, rfl⟩
  · constructor
    · exact ⟨priced.inputPricePerToken, le_rfl⟩
    · exact ⟨priced.outputPricePerToken, le_rfl⟩
    · exact ⟨priced.cacheReadPricePerToken, le_rfl⟩
    · exact ⟨priced.cacheCreationPricePerToken, le_rfl⟩
    · exact ⟨zero_le_one, le_rfl⟩
    · dsimp only
      exact ⟨tier, rfl⟩

theorem one_le_longContextMultiplierOrOne {m : ℚ} (surcharge : m ≤ 0 ∨ 1 ≤ m) :
    1 ≤ longContextMultiplierOrOne m := by
  unfold longContextMultiplierOrOne
  split
  · exact le_rfl
  · rcases surcharge with unset | set
    · contradiction
    · exact set

/-- The long-context multipliers are at least 1, or unset. -/
structure ModelPricing.Surcharges (pricing : ModelPricing) : Prop where
  input : pricing.longContextInputMultiplier ≤ 0 ∨ 1 ≤ pricing.longContextInputMultiplier
  output : pricing.longContextOutputMultiplier ≤ 0 ∨ 1 ≤ pricing.longContextOutputMultiplier

theorem Rates.AtMost.longContext {higher : Rates} (le : rates.AtMost higher)
    (plain : higher.cacheCreationMultiplier = 1) (surcharges : pricing.Surcharges) :
    rates.AtMost (higher.longContext pricing) := by
  have input := one_le_longContextMultiplierOrOne surcharges.input
  have output := one_le_longContextMultiplierOrOne surcharges.output
  have dearer {price above m : ℚ} (le : 0 ≤ price ∧ price ≤ above) (one : 1 ≤ m) :
      0 ≤ price ∧ price ≤ above * m :=
    ⟨le.1, le.2.trans (le_mul_of_one_le_right (le.1.trans le.2) one)⟩
  constructor
  · exact dearer le.inputPrice input
  · exact dearer le.outputPrice output
  · exact dearer le.cacheReadPrice input
  · exact le.cacheCreationPrice
  · exact ⟨le.cacheCreationMultiplier.1, (plain ▸ le.cacheCreationMultiplier.2).trans input⟩
  · exact le.tierMultiplier

@[simp] theorem tierRates_cacheCreationMultiplier (serviceTier : String) :
    (tierRates serviceTier pricing).cacheCreationMultiplier = 1 := by
  unfold tierRates
  split <;> rfl

/-! ### The details of the cache creation -/

theorem normalizeCacheCreationBreakdown_nonneg (tokens : UsageTokens) :
    0 ≤ (normalizeCacheCreationBreakdown tokens).1 ∧
      0 ≤ (normalizeCacheCreationBreakdown tokens).2 := by
  unfold normalizeCacheCreationBreakdown
  dsimp only
  split_ifs with fits capped
  · constructor <;> omega
  · constructor <;> dsimp only <;> omega
  · have aggregate : (0 : ℚ) ≤ tokens.cacheCreationTokens := by
      exact_mod_cast (by omega : 0 ≤ tokens.cacheCreationTokens)
    have fiveMinutes : (0 : ℚ) ≤ (max tokens.cacheCreation5mTokens 0 : ℤ) := by
      exact_mod_cast le_max_right _ _
    have oneHour : (0 : ℚ) ≤ (max tokens.cacheCreation1hTokens 0 : ℤ) := by
      exact_mod_cast le_max_right _ _
    have rounded := roundHalfAway_mono
      (div_nonneg (mul_nonneg aggregate fiveMinutes) (add_nonneg fiveMinutes oneHour))
    have zero := roundHalfAway_intCast 0
    rw [Int.cast_zero] at zero
    rw [zero] at rounded
    constructor
    · exact rounded
    · dsimp only
      omega

/-- What the two details say together, within a positive aggregate. -/
def detailTokens (tokens : UsageTokens) : ℤ :=
  max tokens.cacheCreation5mTokens 0 + max tokens.cacheCreation1hTokens 0

theorem normalizeCacheCreationBreakdown_sum (tokens : UsageTokens) :
    (normalizeCacheCreationBreakdown tokens).1 + (normalizeCacheCreationBreakdown tokens).2 =
      if tokens.cacheCreationTokens ≤ 0 then detailTokens tokens
      else min (detailTokens tokens) tokens.cacheCreationTokens := by
  unfold normalizeCacheCreationBreakdown detailTokens
  dsimp only
  split_ifs <;> dsimp only <;> omega

/-- The tokens that the cache creation is billed for: the aggregate, unless the two kinds of
writes have prices of their own and the details say how many there were. -/
def billedCacheCreationTokens (pricing : ModelPricing) (tokens : UsageTokens) : ℤ :=
  if pricing.splits ∧ detailTokens tokens ≠ 0 then
    if tokens.cacheCreationTokens ≤ 0 then detailTokens tokens
    else min (detailTokens tokens) tokens.cacheCreationTokens
  else tokens.cacheCreationTokens

theorem cacheCreationLines_tokens (pricing : ModelPricing) (rates : Rates)
    (counted : 0 ≤ tokens.cacheCreationTokens) :
    (cacheCreationLines pricing tokens rates).tokens =
      billedCacheCreationTokens pricing tokens := by
  have sum := normalizeCacheCreationBreakdown_sum tokens
  have nonneg := normalizeCacheCreationBreakdown_nonneg tokens
  have details : 0 ≤ detailTokens tokens := by
    unfold detailTokens
    omega
  unfold cacheCreationLines billedCacheCreationTokens
  by_cases split : pricing.splits
  · by_cases silent : (normalizeCacheCreationBreakdown tokens).1 = 0 ∧
        (normalizeCacheCreationBreakdown tokens).2 = 0 ∧ 0 < tokens.cacheCreationTokens
    · have none : detailTokens tokens = 0 := by
        split_ifs at sum <;> omega
      simp [split, silent, none]
    · simp only [split, silent, true_and, if_true, if_false, Bill.tokens_cons, Bill.tokens_nil]
      split_ifs at sum ⊢ <;> omega
  · simp [split]

/-! ### One price, and more tokens -/

theorem imageInputPrice_atMost (priced : pricing.NonNegative) {price higher : ℚ}
    (le : 0 ≤ price ∧ price ≤ higher) :
    0 ≤ imageInputPrice pricing price ∧
      imageInputPrice pricing price ≤ imageInputPrice pricing higher := by
  unfold imageInputPrice
  split
  · exact le
  · exact ⟨priced.imageInputPricePerToken, le_rfl⟩

theorem imageOutputPrice_atMost (priced : pricing.NonNegative) {price higher : ℚ}
    (le : 0 ≤ price ∧ price ≤ higher) :
    0 ≤ imageOutputPrice pricing price ∧
      imageOutputPrice pricing price ≤ imageOutputPrice pricing higher := by
  unfold imageOutputPrice
  split
  · exact le
  · exact ⟨priced.imageOutputPricePerToken, le_rfl⟩

/-- `tokens` with other numbers of input, output and cache-read tokens. -/
def UsageTokens.withTotals (tokens : UsageTokens) (input output cacheRead : ℤ) : UsageTokens :=
  { tokens with inputTokens := input, outputTokens := output, cacheReadTokens := cacheRead }

/-- `more` differs from `tokens` by further input, output and cache-read tokens at most. -/
structure UsageTokens.Grows (tokens more : UsageTokens) : Prop where
  inputTokens : tokens.inputTokens ≤ more.inputTokens
  outputTokens : tokens.outputTokens ≤ more.outputTokens
  cacheReadTokens : tokens.cacheReadTokens ≤ more.cacheReadTokens
  otherwise : more =
    tokens.withTotals more.inputTokens more.outputTokens more.cacheReadTokens

variable {more : UsageTokens}

theorem cacheCreationLines_within (priced : pricing.NonNegative) (counted : tokens.NonNegative)
    (grows : tokens.Grows more) {higher : Rates} (le : rates.AtMost higher) :
    (cacheCreationLines pricing tokens rates).Within (cacheCreationLines pricing more higher) := by
  have details : normalizeCacheCreationBreakdown more = normalizeCacheCreationBreakdown tokens := by
    rw [grows.otherwise]
    rfl
  have aggregate : more.cacheCreationTokens = tokens.cacheCreationTokens := by
    rw [grows.otherwise]
    rfl
  have nonneg := normalizeCacheCreationBreakdown_nonneg tokens
  have line {n : ℤ} (n0 : 0 ≤ n) {price above : ℚ} (p : 0 ≤ price ∧ price ≤ above) :
      0 ≤ n ∧ n ≤ n ∧ 0 ≤ price * rates.cacheCreationMultiplier ∧
        price * rates.cacheCreationMultiplier ≤ above * higher.cacheCreationMultiplier :=
    ⟨n0, le_rfl, mul_nonneg p.1 le.cacheCreationMultiplier.1,
      mul_le_mul p.2 le.cacheCreationMultiplier.2 le.cacheCreationMultiplier.1 (p.1.trans p.2)⟩
  unfold cacheCreationLines
  rw [details, aggregate]
  dsimp only
  split_ifs
  · exact .cons (line counted.cacheCreationTokens ⟨priced.cacheCreation5mPrice, le_rfl⟩) .nil
  · exact .cons (line nonneg.1 ⟨priced.cacheCreation5mPrice, le_rfl⟩)
      (.cons (line nonneg.2 ⟨priced.cacheCreation1hPrice, le_rfl⟩) .nil)
  · exact .cons (line counted.cacheCreationTokens le.cacheCreationPrice) .nil

theorem lines_within (priced : pricing.NonNegative) (counted : tokens.NonNegative)
    (grows : tokens.Grows more) {higher : Rates} (le : rates.AtMost higher) :
    (lines pricing tokens rates).Within (lines pricing more higher) := by
  have creation := cacheCreationLines_within priced counted grows le
  have imageInput : more.imageInputTokens = tokens.imageInputTokens := by
    rw [grows.otherwise]
    rfl
  have imageOutput : more.imageOutputTokens = tokens.imageOutputTokens := by
    rw [grows.otherwise]
    rfl
  have imageRead : more.imageCacheReadTokens = tokens.imageCacheReadTokens := by
    rw [grows.otherwise]
    rfl
  have input := grows.inputTokens
  have output := grows.outputTokens
  have cacheRead := grows.cacheReadTokens
  have input0 := counted.inputTokens
  have images0 := counted.imageInputTokens
  have cacheRead0 := counted.cacheReadTokens
  constructor
  · unfold imageInputShare
    exact ⟨by omega, by omega, le.inputPrice⟩
  constructor
  · unfold imageInputShare
    exact ⟨by omega, by omega, imageInputPrice_atMost priced le.inputPrice⟩
  constructor
  · exact ⟨by omega, by omega, le.outputPrice⟩
  constructor
  · exact ⟨by omega, by omega, imageOutputPrice_atMost priced le.outputPrice⟩
  constructor
  · unfold imageCached
    exact ⟨by omega, by omega, le.cacheReadPrice⟩
  constructor
  · unfold imageCached
    exact ⟨by omega, by omega, positiveOr_nonneg le.cacheReadPrice.1,
      positiveOr_mono _ le.cacheReadPrice.2⟩
  · exact creation

theorem shouldApplySessionLongContextPricing_mono (grows : tokens.Grows more)
    (applies : shouldApplySessionLongContextPricing tokens pricing = true) :
    shouldApplySessionLongContextPricing more pricing = true := by
  have creation : more.cacheCreationTokens = tokens.cacheCreationTokens := by
    rw [grows.otherwise]
    rfl
  have input := grows.inputTokens
  have cacheRead := grows.cacheReadTokens
  unfold shouldApplySessionLongContextPricing at applies ⊢
  dsimp only at applies ⊢
  split_ifs at applies ⊢
  · rw [decide_eq_true_eq] at applies ⊢
    omega
  · rw [decide_eq_true_eq] at applies ⊢
    omega

theorem Rates.AtMost.refl_right {higher : Rates} (le : rates.AtMost higher) :
    higher.AtMost higher := by
  constructor
  · exact ⟨le.inputPrice.1.trans le.inputPrice.2, le_rfl⟩
  · exact ⟨le.outputPrice.1.trans le.outputPrice.2, le_rfl⟩
  · exact ⟨le.cacheReadPrice.1.trans le.cacheReadPrice.2, le_rfl⟩
  · exact ⟨le.cacheCreationPrice.1.trans le.cacheCreationPrice.2, le_rfl⟩
  · exact ⟨le.cacheCreationMultiplier.1.trans le.cacheCreationMultiplier.2, le_rfl⟩
  · exact ⟨le.tierMultiplier.2 ▸ le.tierMultiplier.1, rfl⟩

theorem appliedRates_atMost (priced : pricing.NonNegative) (surcharges : pricing.Surcharges)
    (grows : tokens.Grows more) (serviceTier : String) (applyLongCtx : Bool) :
    (appliedRates pricing tokens serviceTier applyLongCtx).AtMost
      (appliedRates pricing more serviceTier applyLongCtx) := by
  have plain := tierRates_atMost priced serviceTier
  have long := plain.longContext (tierRates_cacheCreationMultiplier serviceTier) surcharges
  unfold appliedRates
  split_ifs with before after after
  · exact long.refl_right
  · rw [Bool.and_eq_true] at before
    rw [before.1, shouldApplySessionLongContextPricing_mono grows before.2] at after
    contradiction
  · exact long
  · exact plain

theorem appliedRates_nonneg (priced : pricing.NonNegative) (tokens : UsageTokens)
    (serviceTier : String) (applyLongCtx : Bool) :
    (appliedRates pricing tokens serviceTier applyLongCtx).AtMost
      (appliedRates pricing tokens serviceTier applyLongCtx) := by
  have plain := tierRates_atMost priced serviceTier
  have positive (m : ℚ) : 0 ≤ longContextMultiplierOrOne m := by
    unfold longContextMultiplierOrOne
    split
    · exact zero_le_one
    · exact le_of_not_ge ‹_›
  unfold appliedRates Rates.longContext
  split
  · constructor
    all_goals dsimp only
    · exact ⟨mul_nonneg plain.inputPrice.1 (positive _), le_rfl⟩
    · exact ⟨mul_nonneg plain.outputPrice.1 (positive _), le_rfl⟩
    · exact ⟨mul_nonneg plain.cacheReadPrice.1 (positive _), le_rfl⟩
    · exact ⟨plain.cacheCreationPrice.1, le_rfl⟩
    · exact ⟨positive _, le_rfl⟩
    · exact plain.tierMultiplier
  · exact plain

/-- Every price of the model is `p`; a priority price may also be unset. -/
structure ModelPricing.Flat (pricing : ModelPricing) (p : ℚ) : Prop where
  inputPricePerToken : pricing.inputPricePerToken = p
  inputPricePerTokenPriority :
    pricing.inputPricePerTokenPriority = 0 ∨ pricing.inputPricePerTokenPriority = p
  imageInputPricePerToken : pricing.imageInputPricePerToken = p
  imageCacheReadPricePerToken : pricing.imageCacheReadPricePerToken = p
  outputPricePerToken : pricing.outputPricePerToken = p
  outputPricePerTokenPriority :
    pricing.outputPricePerTokenPriority = 0 ∨ pricing.outputPricePerTokenPriority = p
  cacheCreationPricePerToken : pricing.cacheCreationPricePerToken = p
  cacheCreationPricePerTokenPriority :
    pricing.cacheCreationPricePerTokenPriority = 0 ∨
      pricing.cacheCreationPricePerTokenPriority = p
  cacheReadPricePerToken : pricing.cacheReadPricePerToken = p
  cacheReadPricePerTokenPriority :
    pricing.cacheReadPricePerTokenPriority = 0 ∨ pricing.cacheReadPricePerTokenPriority = p
  cacheCreation5mPrice : pricing.cacheCreation5mPrice = p
  cacheCreation1hPrice : pricing.cacheCreation1hPrice = p
  imageOutputPricePerToken : pricing.imageOutputPricePerToken = p

theorem positiveOr_flat {price p : ℚ} (flat : price = 0 ∨ price = p) : positiveOr price p = p := by
  unfold positiveOr
  rcases flat with rfl | rfl
  · simp
  · simp

theorem tierRates_flat {p : ℚ} (flat : pricing.Flat p) (serviceTier : String) :
    (tierRates serviceTier pricing).inputPrice = p ∧
      (tierRates serviceTier pricing).outputPrice = p ∧
      (tierRates serviceTier pricing).cacheReadPrice = p ∧
      (tierRates serviceTier pricing).cacheCreationPrice = p := by
  unfold tierRates
  split
  · simp only [flat.inputPricePerToken, flat.outputPricePerToken, flat.cacheReadPricePerToken,
      flat.cacheCreationPricePerToken, positiveOr_flat flat.inputPricePerTokenPriority,
      positiveOr_flat flat.outputPricePerTokenPriority,
      positiveOr_flat flat.cacheReadPricePerTokenPriority,
      positiveOr_flat flat.cacheCreationPricePerTokenPriority, and_self]
  · exact ⟨flat.inputPricePerToken, flat.outputPricePerToken, flat.cacheReadPricePerToken,
      flat.cacheCreationPricePerToken⟩

theorem cacheCreationLines_flat {p : ℚ} (flat : pricing.Flat p) (serviceTier : String)
    {line : ℤ × ℚ}
    (mem : line ∈ cacheCreationLines pricing tokens (tierRates serviceTier pricing)) :
    line.2 = p := by
  have creation := (tierRates_flat flat serviceTier).2.2.2
  unfold cacheCreationLines at mem
  simp only [tierRates_cacheCreationMultiplier, mul_one, creation, flat.cacheCreation5mPrice,
    flat.cacheCreation1hPrice] at mem
  split_ifs at mem
  · rw [List.mem_singleton] at mem
    rw [mem]
  · simp only [List.mem_cons, List.not_mem_nil, or_false] at mem
    rcases mem with rfl | rfl <;> rfl
  · rw [List.mem_singleton] at mem
    rw [mem]

theorem lines_flat {p : ℚ} (flat : pricing.Flat p) (serviceTier : String) {line : ℤ × ℚ}
    (mem : line ∈ lines pricing tokens (tierRates serviceTier pricing)) : line.2 = p := by
  obtain ⟨input, output, cacheRead, _⟩ := tierRates_flat flat serviceTier
  simp only [lines, List.mem_cons] at mem
  rcases mem with rfl | rfl | rfl | rfl | rfl | rfl | creation
  · dsimp only
    exact input
  · simp [imageInputPrice, flat.imageInputPricePerToken, input]
  · dsimp only
    exact output
  · simp [imageOutputPrice, flat.imageOutputPricePerToken, output]
  · dsimp only
    exact cacheRead
  · dsimp only
    rw [cacheRead]
    exact positiveOr_flat (.inr flat.imageCacheReadPricePerToken)
  · exact cacheCreationLines_flat flat serviceTier creation

theorem lines_tokens (counted : tokens.NonNegative) :
    (lines pricing tokens rates).tokens =
      tokens.inputTokens + max tokens.outputTokens tokens.imageOutputTokens +
        tokens.cacheReadTokens + billedCacheCreationTokens pricing tokens := by
  have creation := cacheCreationLines_tokens pricing rates counted.cacheCreationTokens
  have images := counted.imageOutputTokens
  simp only [lines, Bill.tokens_cons, creation]
  omega

/-- At one price and without multipliers, a request costs that price for each of its tokens. -/
theorem totalCost_flat (counted : tokens.NonNegative) {p : ℚ} (flat : pricing.Flat p)
    (rateMultiplier : ℚ) {serviceTier : String} {applyLongCtx : Bool}
    (noTier : (tierRates serviceTier pricing).tierMultiplier = 1)
    (short : (applyLongCtx && shouldApplySessionLongContextPricing tokens pricing) = false) :
    (computeTokenBreakdown pricing tokens rateMultiplier serviceTier applyLongCtx).totalCost =
      p * (tokens.inputTokens + max tokens.outputTokens tokens.imageOutputTokens +
        tokens.cacheReadTokens + billedCacheCreationTokens pricing tokens : ℤ) := by
  have rates : appliedRates pricing tokens serviceTier applyLongCtx =
      tierRates serviceTier pricing := by
    simp only [appliedRates, short, Bool.false_eq_true, if_false]
  rw [computeTokenBreakdown_totalCost, totalCost_lines pricing _ counted.inputTokens, rates, noTier, one_mul,
    Bill.total_of_price fun line mem => .inr (lines_flat flat serviceTier mem),
    lines_tokens counted]

/-! ### What a breakdown costs -/

structure CostBreakdown.NonNegative (bd : CostBreakdown) : Prop where
  inputCost : 0 ≤ bd.inputCost
  imageInputCost : 0 ≤ bd.imageInputCost
  outputCost : 0 ≤ bd.outputCost
  imageOutputCost : 0 ≤ bd.imageOutputCost
  cacheCreationCost : 0 ≤ bd.cacheCreationCost
  cacheReadCost : 0 ≤ bd.cacheReadCost
  actualCost : 0 ≤ bd.actualCost

theorem inputCosts_nonneg (counted : tokens.NonNegative) (priced : pricing.NonNegative)
    {inputPrice : ℚ} (price : 0 ≤ inputPrice) :
    0 ≤ (inputCosts pricing tokens inputPrice).1 ∧
      0 ≤ (inputCosts pricing tokens inputPrice).2 := by
  have image := (imageInputPrice_atMost priced ⟨price, le_rfl⟩).1
  have input := counted.inputTokens
  have cost {n : ℤ} (n0 : 0 ≤ n) {q : ℚ} (q0 : 0 ≤ q) : 0 ≤ (n : ℚ) * q :=
    mul_nonneg (by exact_mod_cast n0) q0
  unfold inputCosts
  by_cases images : 0 < tokens.imageInputTokens
  · by_cases short : tokens.inputTokens - tokens.imageInputTokens < 0
    · simp only [images, short, if_true]
      exact ⟨cost le_rfl price, cost input image⟩
    · simp only [images, short, if_true, if_false]
      exact ⟨cost (by omega) price, cost (by omega) image⟩
  · simp only [images, if_false]
    exact ⟨cost input price, le_rfl⟩

theorem outputCosts_nonneg (priced : pricing.NonNegative) (tokens : UsageTokens)
    {outputPrice : ℚ} (price : 0 ≤ outputPrice) :
    0 ≤ (outputCosts pricing tokens outputPrice).1 ∧
      0 ≤ (outputCosts pricing tokens outputPrice).2 := by
  have image := (imageOutputPrice_atMost priced ⟨price, le_rfl⟩).1
  have cost {n : ℤ} (n0 : 0 ≤ n) {q : ℚ} (q0 : 0 ≤ q) : 0 ≤ (n : ℚ) * q :=
    mul_nonneg (by exact_mod_cast n0) q0
  unfold outputCosts
  dsimp only
  constructor
  · exact cost (by split <;> omega) price
  · split
    · exact cost (by omega) image
    · exact le_rfl

theorem Bill.Within.nonneg {bill larger : Bill} (within : bill.Within larger) :
    0 ≤ bill.total := by
  induction within with
  | nil => exact le_rfl
  | @cons line above rest more first _ ih =>
      have counted : (0 : ℚ) ≤ line.1 := by exact_mod_cast first.1
      exact add_nonneg (mul_nonneg counted first.2.2.1) ih

theorem UsageTokens.Grows.refl (tokens : UsageTokens) : tokens.Grows tokens :=
  ⟨le_rfl, le_rfl, le_rfl, rfl⟩

theorem cacheReadCost_nonneg (pricing : ModelPricing) (counted : tokens.NonNegative)
    {cacheReadPrice : ℚ}
    (price : 0 ≤ cacheReadPrice) : 0 ≤ cacheReadCost pricing tokens cacheReadPrice := by
  have read := counted.cacheReadTokens
  have cost {n : ℤ} (n0 : 0 ≤ n) {q : ℚ} (q0 : 0 ≤ q) : 0 ≤ (n : ℚ) * q :=
    mul_nonneg (by exact_mod_cast n0) q0
  rw [cacheReadCost_eq]
  apply add_nonneg
  · apply cost _ price
    unfold imageCached
    omega
  · apply cost _ (positiveOr_nonneg price)
    unfold imageCached
    omega

theorem breakdownAt_nonneg (counted : tokens.NonNegative) (priced : pricing.NonNegative)
    (nonneg : rates.AtMost rates) {rateMultiplier : ℚ} (rate : 0 ≤ rateMultiplier) :
    (breakdownAt pricing tokens rateMultiplier rates).NonNegative := by
  have input := inputCosts_nonneg counted priced nonneg.inputPrice.1
  have output := outputCosts_nonneg priced tokens nonneg.outputPrice.1
  have creation := (cacheCreationLines_within priced counted (.refl tokens) nonneg).nonneg
  rw [← computeCacheCreationCost_eq] at creation
  have read := cacheReadCost_nonneg pricing counted nonneg.cacheReadPrice.1
  have tier := nonneg.tierMultiplier.1
  have total := totalCost_lines pricing rates counted.inputTokens rateMultiplier
  constructor
  · exact mul_nonneg input.1 tier
  · exact mul_nonneg input.2 tier
  · exact mul_nonneg output.1 tier
  · exact mul_nonneg output.2 tier
  · exact mul_nonneg creation tier
  · exact mul_nonneg read tier
  · have nonneg : 0 ≤ (breakdownAt pricing tokens rateMultiplier rates).totalCost := by
      rw [total]
      exact mul_nonneg tier (lines_within priced counted (.refl tokens) nonneg).nonneg
    exact mul_nonneg nonneg rate

theorem clampedRate_nonneg (rateMultiplier : ℚ) :
    0 ≤ if rateMultiplier < 0 then 0 else rateMultiplier := by
  split
  · exact le_rfl
  · exact le_of_not_gt ‹_›

theorem actualCost_le (counted : tokens.NonNegative) (priced : pricing.NonNegative)
    (surcharges : pricing.Surcharges) (grows : tokens.Grows more) (rateMultiplier : ℚ)
    (serviceTier : String) (applyLongCtx : Bool) :
    (computeTokenBreakdown pricing tokens rateMultiplier serviceTier applyLongCtx).actualCost ≤
      (computeTokenBreakdown pricing more rateMultiplier serviceTier applyLongCtx).actualCost := by
  have rates := appliedRates_atMost priced surcharges grows serviceTier applyLongCtx
  have bills := Bill.total_le (lines_within priced counted grows rates)
  have total := totalCost_lines pricing
    (appliedRates pricing tokens serviceTier applyLongCtx) counted.inputTokens
    (if rateMultiplier < 0 then 0 else rateMultiplier)
  have totalMore := totalCost_lines pricing
    (appliedRates pricing more serviceTier applyLongCtx)
    (counted.inputTokens.trans grows.inputTokens)
    (if rateMultiplier < 0 then 0 else rateMultiplier)
  rw [computeTokenBreakdown_actualCost, computeTokenBreakdown_actualCost, total, totalMore,
    ← rates.tierMultiplier.2]
  apply mul_le_mul_of_nonneg_right _ (clampedRate_nonneg rateMultiplier)
  exact mul_le_mul_of_nonneg_left bills rates.tierMultiplier.1

/-- The components are not negative and add up; at one price and without multipliers every token
is billed once, the cache creation by its details; and more tokens never cost less, also across
the long-context threshold. -/
theorem computeTokenBreakdown_bills (counted : tokens.NonNegative) (priced : pricing.NonNegative)
    (rateMultiplier : ℚ) (serviceTier : String) (applyLongCtx : Bool) :
    let bd := computeTokenBreakdown pricing tokens rateMultiplier serviceTier applyLongCtx
    bd.NonNegative ∧
      bd.totalCost = bd.inputCost + bd.imageInputCost + bd.outputCost + bd.imageOutputCost +
        bd.cacheCreationCost + bd.cacheReadCost ∧
      (∀ p, pricing.Flat p → (tierRates serviceTier pricing).tierMultiplier = 1 →
        (applyLongCtx && shouldApplySessionLongContextPricing tokens pricing) = false →
        tokens.imageOutputTokens ≤ tokens.outputTokens →
        bd.totalCost = p * (tokens.inputTokens + tokens.outputTokens + tokens.cacheReadTokens +
          billedCacheCreationTokens pricing tokens : ℤ)) ∧
      (pricing.Surcharges → ∀ more, tokens.Grows more → bd.actualCost ≤
        (computeTokenBreakdown pricing more rateMultiplier serviceTier applyLongCtx).actualCost) := by
  dsimp only
  constructor
  · have nonneg := breakdownAt_nonneg counted priced
      (appliedRates_nonneg priced tokens serviceTier applyLongCtx)
      (clampedRate_nonneg rateMultiplier)
    exact ⟨nonneg.1, nonneg.2, nonneg.3, nonneg.4, nonneg.5, nonneg.6, nonneg.7⟩
  constructor
  · rfl
  constructor
  · intro p flat noTier short within
    rw [totalCost_flat counted flat rateMultiplier noTier short, max_eq_left within]
  · intro surcharges more grows
    exact actualCost_le counted priced surcharges grows rateMultiplier serviceTier applyLongCtx

namespace Sample

def onePrice : ModelPricing :=
  { inputPricePerToken := 1
    imageInputPricePerToken := 1
    imageCacheReadPricePerToken := 1
    outputPricePerToken := 1
    cacheCreationPricePerToken := 1
    cacheReadPricePerToken := 1
    cacheCreation5mPrice := 1
    cacheCreation1hPrice := 1
    supportsCacheBreakdown := true
    longContextInputThreshold := 200
    longContextInputMultiplier := 2
    imageOutputPricePerToken := 1 }

/-- Ten of the hundred written tokens have no detail. -/
def usage : UsageTokens :=
  { inputTokens := 10, outputTokens := 5, cacheCreationTokens := 100, cacheReadTokens := 20
    cacheCreation5mTokens := 30, cacheCreation1hTokens := 60, imageOutputTokens := 2 }

theorem onePrice_nonNegative : onePrice.NonNegative := by
  constructor <;> decide +kernel

theorem usage_nonNegative : usage.NonNegative := by
  constructor <;> decide

theorem onePrice_flat : onePrice.Flat 1 := by
  constructor <;> decide +kernel

end Sample

theorem computeTokenBreakdown_bills_usage :
    (computeTokenBreakdown Sample.onePrice Sample.usage 1 "" true).totalCost = 1 * (125 : ℤ) ∧
      (computeTokenBreakdown Sample.onePrice Sample.usage 1 "" true).actualCost ≤
        (computeTokenBreakdown Sample.onePrice (Sample.usage.withTotals 10 5 120) 1 ""
          true).actualCost := by
  obtain ⟨_, _, once, monotone⟩ := computeTokenBreakdown_bills Sample.usage_nonNegative
    Sample.onePrice_nonNegative 1 "" true
  constructor
  · exact once 1 Sample.onePrice_flat (by decide +kernel) (by decide +kernel) (by decide)
  · apply monotone
    · exact ⟨.inr (by decide +kernel), .inl (by decide +kernel)⟩
    · exact ⟨by decide, by decide, by decide, by decide⟩

/-- The aggregate of the cache creation is not always what is billed. -/
theorem not_billed_by_aggregate :
    ¬ ∀ (pricing : ModelPricing) (tokens : UsageTokens) (p : ℚ), tokens.NonNegative →
      pricing.NonNegative → pricing.Flat p →
      (tierRates "" pricing).tierMultiplier = 1 →
      shouldApplySessionLongContextPricing tokens pricing = false →
      (computeTokenBreakdown pricing tokens 1 "" true).totalCost =
        p * (tokens.inputTokens + tokens.outputTokens + tokens.cacheReadTokens +
          tokens.cacheCreationTokens : ℤ) := by
  intro claim
  have total := claim Sample.onePrice Sample.usage 1 Sample.usage_nonNegative
    Sample.onePrice_nonNegative Sample.onePrice_flat (by decide +kernel) (by decide +kernel)
  revert total
  decide +kernel

end Sub2api.Pricing
