import Mathlib.Data.List.Sort
import Sub2api.Lists.Fallible
import Sub2api.Lists.Tiling
import Sub2api.Pricing.BilledOnce
import Sub2api.Pricing.TokenRequest

/-!
# The displayed context tiers

`resolveContextPricingSchedule` cuts the contexts at the breakpoints of the billing rules, probes
the billing function at two points of each segment and merges neighbours of equal prices. Within a
segment the billing charges constant prices (`chargedAt_congr`), so the probes find them
(`probeContextTier_prices`); the merge keeps the tiling and shows at each context a tier whose
prices count as the same. Probed prices are exact here: `roundContextPrice` only takes the noise of
floats off them.
-/

namespace Sub2api.Pricing

open Lists

/-! ### The source -/

structure ContextPricingTier where
  minTokens : ℤ
  maxTokens : Option ℤ
  input : Option ℚ := none
  output : Option ℚ := none
  cacheWrite : Option ℚ := none
  cacheWrite1h : Option ℚ := none
  cacheRead : Option ℚ := none
  deriving DecidableEq

structure ContextSegment where
  min : ℤ
  max : Option ℤ

def contextProbeDelta : ℤ := 1000

/-- The bounds of the plan; the other fields of it only label the tiers. -/
def contextPricingBreakpoints (names : ModelNames) (now : ℤ) (resolved : ResolvedPricing)
    (model : String) : List ℤ :=
  if !resolved.longContextPricingEnabled then []
  else if !resolved.intervals.isEmpty then
    (resolved.intervals.flatMap fun iv =>
      (if 0 < iv.minTokens then [iv.minTokens] else []) ++ iv.maxTokens.toList).dedup.mergeSort
  else
    match getIntervalPricing resolved 1 with
    | none => []
    | some pricing =>
        let pricing := applyModelSpecificPricingPolicyEx names model pricing true now
        let bound :=
          if pricing.longContextThresholdInclusive then pricing.longContextInputThreshold - 1
          else pricing.longContextInputThreshold
        if pricing.longContextInputThreshold ≤ 0 ∨ bound ≤ 0 then [] else [bound]

/-- The loop of `buildContextSegments` from `prev` on. -/
def contextSegmentsFrom (prev : ℤ) : List ℤ → List ContextSegment
  | [] => [⟨prev, none⟩]
  | b :: rest =>
      if b ≤ prev then contextSegmentsFrom prev rest
      else ⟨prev, some b⟩ :: contextSegmentsFrom b rest

def buildContextSegments (bounds : List ℤ) : List ContextSegment := contextSegmentsFrom 0 bounds

def probeComponentPrice (tokensAt : ℤ → UsageTokens) (start delta : ℤ)
    (probe : UsageTokens → Except String CostBreakdown) : Except String ℚ :=
  if delta ≤ 0 then do
    let n := if start ≤ 0 then 1 else start
    let cost ← probe (tokensAt n)
    pure (cost.actualCost / n)
  else do
    let lo ← probe (tokensAt start)
    let hi ← probe (tokensAt (start + delta))
    pure ((hi.actualCost - lo.actualCost) / delta)

structure ExplicitContextFields where
  input : Bool := false
  output : Bool := false
  cacheWrite : Bool := false
  cacheWrite1h : Bool := false
  cacheRead : Bool := false

def explicitContextPricingFields (resolved : ResolvedPricing) (contextTokens : ℤ) :
    ExplicitContextFields :=
  match resolved.channelPricing with
  | none => {}
  | some cp =>
      let out : ExplicitContextFields :=
        { input := cp.inputPrice.isSome
          output := cp.outputPrice.isSome
          cacheWrite := cp.cacheWritePrice.isSome
          cacheWrite1h := cp.cacheWrite1hPrice.isSome || cp.cacheWritePrice.isSome
          cacheRead := cp.cacheReadPrice.isSome }
      match findMatchingInterval resolved.intervals contextTokens with
      | none => out
      | some iv =>
          { input := out.input || iv.inputPrice.isSome
            output := out.output || iv.outputPrice.isSome
            cacheWrite := out.cacheWrite || iv.cacheWritePrice.isSome
            cacheWrite1h :=
              out.cacheWrite1h || iv.cacheWrite1hPrice.isSome || iv.cacheWritePrice.isSome
            cacheRead := out.cacheRead || iv.cacheReadPrice.isSome }

def contextPricePtr (v : ℚ) (explicit : Bool) : Option ℚ :=
  if v = 0 ∧ !explicit then none else some v

/-- How many tokens further the second probe of a segment goes. -/
def ContextSegment.delta (seg : ContextSegment) : ℤ :=
  match seg.max with
  | some top =>
      if top - seg.min - 1 < contextProbeDelta then top - seg.min - 1 else contextProbeDelta
  | none => contextProbeDelta

def probeContextTier (seg : ContextSegment) (resolved : ResolvedPricing)
    (probe : UsageTokens → Except String CostBreakdown) : Except String ContextPricingTier := do
  let c := seg.min + 1
  let delta := seg.delta
  let input ← probeComponentPrice (fun n => { inputTokens := n }) c delta probe
  let cacheRead ← probeComponentPrice (fun n => { cacheReadTokens := n }) c delta probe
  let cacheWrite ← probeComponentPrice (fun n => { cacheCreationTokens := n }) c delta probe
  let cacheWrite1h ← probeComponentPrice
    (fun n => { cacheCreationTokens := n, cacheCreation1hTokens := n }) c delta probe
  let output ← probeComponentPrice (fun n => { inputTokens := c, outputTokens := n }) 0
    contextProbeDelta probe
  let explicit := explicitContextPricingFields resolved c
  pure
    { minTokens := seg.min
      maxTokens := seg.max
      input := contextPricePtr input explicit.input
      output := contextPricePtr output explicit.output
      cacheWrite := contextPricePtr cacheWrite explicit.cacheWrite
      cacheWrite1h := contextPricePtr cacheWrite1h explicit.cacheWrite1h
      cacheRead := contextPricePtr cacheRead explicit.cacheRead }

def samePricePtr (a b : Option ℚ) : Bool :=
  match a, b with
  | some a, some b => a = b || |a - b| ≤ max |a| |b| * (1 / 10 ^ 9)
  | none, none => true
  | _, _ => false

def sameContextPrices (a b : ContextPricingTier) : Bool :=
  samePricePtr a.input b.input && samePricePtr a.output b.output &&
    samePricePtr a.cacheWrite b.cacheWrite && samePricePtr a.cacheWrite1h b.cacheWrite1h &&
    samePricePtr a.cacheRead b.cacheRead

/-- The loop of `mergeEqualContextTiers`, with the last tier merged so far. -/
def mergeInto (last : ContextPricingTier) : List ContextPricingTier → List ContextPricingTier
  | [] => [last]
  | t :: rest =>
      if sameContextPrices last t then mergeInto { last with maxTokens := t.maxTokens } rest
      else last :: mergeInto t rest

def mergeEqualContextTiers : List ContextPricingTier → List ContextPricingTier
  | [] => []
  | t :: rest => mergeInto t rest

/-- Segments of the schedule of a model. -/
def segmentsOf (names : ModelNames) (now : ℤ) (resolved : ResolvedPricing) (model : String) :
    List ContextSegment :=
  buildContextSegments (contextPricingBreakpoints names now resolved model)

/-- The probe of the schedule. -/
def probeOf (names : ModelNames) (now : ℤ) (resolved : ResolvedPricing) (model : String)
    (tokens : UsageTokens) : Except String CostBreakdown :=
  calculateTokenCost names now resolved { model, tokens }

/-- The tiers of a group's model, none for a mode that does not count tokens. -/
def resolveContextPricingSchedule (names : ModelNames) (now : ℤ) (resolved : ResolvedPricing)
    (model : String) : Except String (Option (List ContextPricingTier)) :=
  if resolved.mode ≠ .unset ∧ resolved.mode ≠ .token then .ok none
  else do
    let tiers ← (segmentsOf names now resolved model).mapM fun seg =>
      probeContextTier seg resolved (probeOf names now resolved model)
    pure (some (mergeEqualContextTiers tiers))

/-! ### The segments -/

theorem contextSegmentsFrom_tiles (prev : ℤ) (bounds : List ℤ) :
    Tiles ContextSegment.min ContextSegment.max prev (contextSegmentsFrom prev bounds) := by
  induction bounds generalizing prev with
  | nil => exact .last (⟨prev, none⟩ : ContextSegment) rfl
  | cons b rest ih =>
      unfold contextSegmentsFrom
      split
      · exact ih prev
      · rename_i beyond
        exact .cons (⟨prev, some b⟩ : ContextSegment) rfl (not_le.mp beyond) (ih b)

variable {seg : ContextSegment}

/-- No bound lies inside a segment. -/
theorem contextSegmentsFrom_uncut {prev : ℤ} {bounds : List ℤ} (sorted : bounds.Pairwise (· ≤ ·))
    (mem : seg ∈ contextSegmentsFrom prev bounds) {b : ℤ} (bound : b ∈ bounds) :
    b ≤ seg.min ∨ ∃ top ∈ seg.max, top ≤ b := by
  induction bounds generalizing prev with
  | nil => exact absurd bound List.not_mem_nil
  | cons first rest ih =>
      obtain ⟨least, sortedRest⟩ := List.pairwise_cons.mp sorted
      unfold contextSegmentsFrom at mem
      split at mem
      · rename_i before
        rcases List.mem_cons.mp bound with rfl | later
        · exact .inl (before.trans ((contextSegmentsFrom_tiles prev rest).start_le mem))
        · exact ih sortedRest mem later
      · rcases List.mem_cons.mp mem with rfl | mem
        · apply Or.inr
          rcases List.mem_cons.mp bound with rfl | later
          · exact ⟨b, rfl, le_rfl⟩
          · exact ⟨first, rfl, least b later⟩
        · rcases List.mem_cons.mp bound with rfl | later
          · exact .inl ((contextSegmentsFrom_tiles b rest).start_le mem)
          · exact ih sortedRest mem later

theorem contextPricingBreakpoints_sorted (names : ModelNames) (now : ℤ)
    (resolved : ResolvedPricing) (model : String) :
    (contextPricingBreakpoints names now resolved model).Pairwise (· ≤ ·) := by
  have single (p : Prop) [Decidable p] (b : ℤ) :
      (if p then [] else [b]).Pairwise (· ≤ ·) := by
    split
    · exact .nil
    · exact List.pairwise_singleton _ _
  unfold contextPricingBreakpoints
  split_ifs
  · exact .nil
  · have sorted := @List.pairwise_mergeSort ℤ (fun a b => decide (a ≤ b))
      (fun a b c ab bc => by rw [decide_eq_true_eq] at *; omega)
      (fun a b => by rw [Bool.or_eq_true, decide_eq_true_eq, decide_eq_true_eq]; omega)
      (resolved.intervals.flatMap fun iv =>
        (if 0 < iv.minTokens then [iv.minTokens] else []) ++ iv.maxTokens.toList).dedup
    simpa using sorted
  · split
    · exact .nil
    · exact single _ _

/-! ### What a context is charged -/

/-- The prices of one token at some context. -/
structure Prices where
  input : ℚ
  output : ℚ
  cacheWrite : ℚ
  cacheWrite1h : ℚ
  cacheRead : ℚ

/-- The tokens that are not written for an hour are written for five minutes. -/
def Prices.cost (prices : Prices) (tokens : UsageTokens) : ℚ :=
  tokens.inputTokens * prices.input + tokens.outputTokens * prices.output +
    ((tokens.cacheCreationTokens - tokens.cacheCreation1hTokens : ℤ) : ℚ) * prices.cacheWrite +
    tokens.cacheCreation1hTokens * prices.cacheWrite1h + tokens.cacheReadTokens * prices.cacheRead

/-- Usage without images whose details of the cache writes are absent or complete. -/
structure UsageTokens.Plain (tokens : UsageTokens) : Prop where
  counted : tokens.NonNegative
  imageInputTokens : tokens.imageInputTokens = 0
  imageCacheReadTokens : tokens.imageCacheReadTokens = 0
  imageOutputTokens : tokens.imageOutputTokens = 0
  details : (tokens.cacheCreation5mTokens = 0 ∧ tokens.cacheCreation1hTokens = 0) ∨
    tokens.cacheCreation5mTokens + tokens.cacheCreation1hTokens = tokens.cacheCreationTokens

def ratePrices (pricing : ModelPricing) (rates : Rates) : Prices where
  input := rates.inputPrice
  output := rates.outputPrice
  cacheWrite :=
    (if pricing.splits then pricing.cacheCreation5mPrice else rates.cacheCreationPrice) *
      rates.cacheCreationMultiplier
  cacheWrite1h :=
    (if pricing.splits then pricing.cacheCreation1hPrice else rates.cacheCreationPrice) *
      rates.cacheCreationMultiplier
  cacheRead := rates.cacheReadPrice

variable {names : ModelNames} {now : ℤ} {resolved : ResolvedPricing} {model : String}
  {pricing : ModelPricing} {rates : Rates} {tokens : UsageTokens}

theorem cacheCreationLines_plain (plain : tokens.Plain) :
    (cacheCreationLines pricing tokens rates).total =
      ((tokens.cacheCreationTokens - tokens.cacheCreation1hTokens : ℤ) : ℚ) *
          (ratePrices pricing rates).cacheWrite +
        tokens.cacheCreation1hTokens * (ratePrices pricing rates).cacheWrite1h := by
  have five0 := plain.counted.cacheCreation5mTokens
  have hour0 := plain.counted.cacheCreation1hTokens
  have aggregate0 := plain.counted.cacheCreationTokens
  have details := plain.details
  have normalized : normalizeCacheCreationBreakdown tokens =
      (tokens.cacheCreation5mTokens, tokens.cacheCreation1hTokens) := by
    unfold normalizeCacheCreationBreakdown
    rw [max_eq_left five0, max_eq_left hour0]
    dsimp only
    rw [if_pos (by omega)]
  unfold cacheCreationLines ratePrices
  rw [normalized]
  by_cases split : pricing.splits
  · by_cases silent : tokens.cacheCreation5mTokens = 0 ∧ tokens.cacheCreation1hTokens = 0 ∧
        0 < tokens.cacheCreationTokens
    · simp [split, silent]
    · have five : tokens.cacheCreation5mTokens =
          tokens.cacheCreationTokens - tokens.cacheCreation1hTokens := by omega
      simp only [split, silent, if_true, if_false, Bill.total_cons, Bill.total_nil, add_zero]
      rw [five]
  · simp only [split, if_false, Bill.total_cons, Bill.total_nil]
    push_cast
    ring

theorem lines_plain (plain : tokens.Plain) :
    (lines pricing tokens rates).total = (ratePrices pricing rates).cost tokens := by
  have input0 := plain.counted.inputTokens
  have output0 := plain.counted.outputTokens
  have read0 := plain.counted.cacheReadTokens
  have imageInput : imageInputShare tokens = 0 := by
    unfold imageInputShare
    rw [plain.imageInputTokens]
    omega
  have imageRead : imageCached tokens = 0 := by
    unfold imageCached
    rw [plain.imageCacheReadTokens]
    omega
  simp only [lines, Bill.total_cons, cacheCreationLines_plain plain, imageInput, imageRead,
    plain.imageOutputTokens, sub_zero, max_eq_left output0, max_self, Prices.cost]
  push_cast
  simp only [ratePrices]
  ring

@[simp] theorem tierRates_default : (tierRates "" pricing).tierMultiplier = 1 := by
  have tier : normalizeBillingServiceTier "" = "" := by decide +kernel
  simp [tierRates, usePriorityServiceTierPricing, configuredServiceTierMultiplier,
    serviceTierCostMultiplier, tier, openAIFastTierUltrafast]

theorem appliedRates_default (applyLongCtx : Bool) :
    (appliedRates pricing tokens "" applyLongCtx).tierMultiplier = 1 := by
  unfold appliedRates Rates.longContext
  split
  · dsimp only
    exact tierRates_default
  · exact tierRates_default

/-- The long context is decided by the context alone. -/
theorem appliedRates_context (applyLongCtx : Bool) :
    appliedRates pricing tokens "" applyLongCtx =
      appliedRates pricing { inputTokens := tokens.context } "" applyLongCtx := by
  unfold appliedRates shouldApplySessionLongContextPricing UsageTokens.context
  simp only [add_zero]

/-- The prices that a request of context `n` is charged at, none when the model has none. -/
def chargedAt (names : ModelNames) (now : ℤ) (resolved : ResolvedPricing) (model : String)
    (n : ℤ) : Option Prices :=
  (requestPricing names now resolved model none
    (if resolved.longContextPricingEnabled then n else 1)).map fun pricing =>
      ratePrices pricing (appliedRates pricing { inputTokens := n } ""
        (resolved.intervals.isEmpty && resolved.longContextPricingEnabled))

theorem requestPricing_instant {pricingAt : Option ℤ} (instant : pricingAt.getD now = now)
    (n : ℤ) : requestPricing names now resolved model pricingAt n =
      requestPricing names now resolved model none n := by
  unfold requestPricing
  rw [instant]
  rfl

@[simp] theorem applyCostBreakdownMultiplier_actualCost (cost : CostBreakdown) (multiplier : ℚ) :
    (applyCostBreakdownMultiplier cost multiplier).actualCost = cost.actualCost * multiplier :=
  rfl

@[simp] theorem reasoningEffortBillingMultiplier_none (multipliers : List (String × ℚ)) :
    reasoningEffortBillingMultiplier "" multipliers = 1 := by
  have effort : String.ofList (lowerName "") = "" := by decide +kernel
  have normalized : normalizeMaxReasoningEffort "" = "" := by decide +kernel
  simp [reasoningEffortBillingMultiplier, effort, normalized]

theorem breakdown_plain (plain : tokens.Plain) (applyLongCtx : Bool) :
    (computeTokenBreakdown pricing tokens 1 "" applyLongCtx).actualCost =
      (ratePrices pricing (appliedRates pricing { inputTokens := tokens.context } ""
        applyLongCtx)).cost tokens := by
  rw [computeTokenBreakdown_actualCost, totalCost_lines pricing _ plain.counted.inputTokens,
    lines_plain plain, appliedRates_default, appliedRates_context, if_neg (by norm_num)]
  ring

/-- A plain usage costs its tokens at the prices that its context is charged at. -/
theorem calculateTokenCost_of_charged (plain : tokens.Plain) {prices : Prices}
    (charged : chargedAt names now resolved model tokens.context = some prices)
    (pricingAt : Option ℤ) (instant : pricingAt.getD now = now) :
    ∃ bd, calculateTokenCost names now resolved { model, tokens, pricingAt } = .ok bd ∧
      bd.actualCost = prices.cost tokens * resolvedChannelTimeMultiplier resolved pricingAt := by
  unfold chargedAt at charged
  obtain ⟨pricing, request, rfl⟩ := Option.map_eq_some_iff.mp charged
  unfold calculateTokenCost
  simp only [Option.getD_none, Bool.or_false, requestPricing_instant instant, request, Bool.not_false,
    Bool.and_true]
  refine ⟨_, rfl, ?_⟩
  simp only [applyCostBreakdownMultiplier_actualCost, breakdown_plain plain,
    reasoningEffortBillingMultiplier_none, mul_one]

theorem calculateTokenCost_uncharged
    (uncharged : chargedAt names now resolved model tokens.context = none) (bd : CostBreakdown) :
    calculateTokenCost names now resolved { model, tokens } ≠ .ok bd := by
  unfold chargedAt at uncharged
  rw [Option.map_eq_none_iff] at uncharged
  unfold calculateTokenCost
  simp [uncharged]

/-! ### One price in a segment -/

/-- The threshold of the long context is as in `pricing`. -/
structure SameThreshold (pricing other : ModelPricing) : Prop where
  threshold : other.longContextInputThreshold = pricing.longContextInputThreshold
  inclusive : other.longContextThresholdInclusive = pricing.longContextThresholdInclusive

theorem SameThreshold.trans {other third : ModelPricing} (first : SameThreshold pricing other)
    (second : SameThreshold other third) : SameThreshold pricing third :=
  ⟨second.threshold.trans first.threshold, second.inclusive.trans first.inclusive⟩

theorem SameThreshold.ite {p : Prop} [Decidable p] {first second : ModelPricing}
    (left : SameThreshold pricing first) (right : SameThreshold pricing second) :
    SameThreshold pricing (if p then first else second) := by
  split
  · exact left
  · exact right

theorem SameThreshold.refl (pricing : ModelPricing) : SameThreshold pricing pricing := ⟨rfl, rfl⟩

theorem policy_threshold (names : ModelNames) (model : String) (pricing : ModelPricing)
    (forceDeepSeekRates : Bool) (pricingAt : ℤ) :
    SameThreshold pricing (applyModelSpecificPricingPolicyEx names model pricing
      forceDeepSeekRates pricingAt) := by
  have deepSeek : SameThreshold pricing (deepSeekPricing model pricing pricingAt) := by
    constructor <;> simp only [deepSeekPricing]
  have own : SameThreshold pricing (ownMultipliers names model pricing) := by
    constructor <;> simp only [ownMultipliers]
  have premium (p : ModelPricing) : SameThreshold p (premiumUnlessExplicit names model p) :=
    .ite ⟨rfl, rfl⟩ (.refl p)
  have ratio (p : ModelPricing) (r : ℚ) : SameThreshold p (enforceOpenAIFastPricingRatio p r) :=
    .ite (.refl p) ⟨rfl, rfl⟩
  have writes (p : ModelPricing) : SameThreshold p (fastCacheWrites names model p) :=
    .ite ⟨rfl, rfl⟩ (.refl p)
  unfold applyModelSpecificPricingPolicyEx
  apply SameThreshold.ite
  · exact deepSeek
  · apply SameThreshold.ite
    · exact .refl pricing
    · exact ((own.trans (premium _)).trans (ratio _ _)).trans (writes _)

theorem requestPricing_threshold {base requested : ModelPricing} {n : ℤ}
    (found : getIntervalPricing resolved n = some base)
    (request : requestPricing names now resolved model none n = some requested) :
    SameThreshold base requested := by
  unfold requestPricing at request
  rw [found, Option.map_some, Option.some.injEq] at request
  rw [← request]
  apply SameThreshold.ite
  · exact (policy_threshold _ _ _ _ _).trans ⟨rfl, rfl⟩
  · exact policy_threshold _ _ _ _ _

theorem getIntervalPricing_of_empty (empty : resolved.intervals = []) (n : ℤ) :
    getIntervalPricing resolved n = resolved.basePricing := by
  simp [getIntervalPricing, findMatchingInterval, empty]

theorem requestPricing_congr (names : ModelNames) (now : ℤ) (model : String) {n n' : ℤ}
    (same : getIntervalPricing resolved n = getIntervalPricing resolved n') :
    requestPricing names now resolved model none n =
      requestPricing names now resolved model none n' := by
  unfold requestPricing
  rw [same]

theorem mem_contextPricingBreakpoints (names : ModelNames) (now : ℤ) (model : String) (b : ℤ)
    (enabled : resolved.longContextPricingEnabled = true)
    (intervals : resolved.intervals ≠ []) :
    b ∈ contextPricingBreakpoints names now resolved model ↔
      ∃ iv ∈ resolved.intervals, (0 < iv.minTokens ∧ b = iv.minTokens) ∨ iv.maxTokens = some b := by
  have some : resolved.intervals.isEmpty = false := by simpa using intervals
  simp only [contextPricingBreakpoints, enabled, some, Bool.not_true, Bool.not_false,
    Bool.false_eq_true, if_false, if_true, List.mem_mergeSort, List.mem_dedup, List.mem_flatMap,
    List.mem_append, Option.mem_toList]
  constructor
  · rintro ⟨iv, mem, lower | upper⟩
    · split at lower
      · exact ⟨iv, mem, .inl ⟨‹_›, List.mem_singleton.mp lower⟩⟩
      · exact absurd lower List.not_mem_nil
    · exact ⟨iv, mem, .inr upper⟩
  · rintro ⟨iv, mem, ⟨positive, rfl⟩ | upper⟩
    · exact ⟨iv, mem, .inl (by simp [positive])⟩
    · exact ⟨iv, mem, .inr upper⟩

/-- Contexts on the same side of every breakpoint lie in the same intervals. -/
theorem findMatchingInterval_congr {intervals : List PricingInterval} {n n' : ℤ} (pos : 0 < n)
    (pos' : 0 < n') (same : ∀ iv ∈ intervals,
      (0 < iv.minTokens → (iv.minTokens < n ↔ iv.minTokens < n')) ∧
        ∀ top ∈ iv.maxTokens, top < n ↔ top < n') :
    findMatchingInterval intervals n = findMatchingInterval intervals n' := by
  unfold findMatchingInterval
  induction intervals with
  | nil => rfl
  | cons iv rest ih =>
      have first : iv.matches n = iv.matches n' := by
        obtain ⟨lower, upper⟩ := same iv List.mem_cons_self
        have lowerSame : iv.minTokens < n ↔ iv.minTokens < n' := by
          by_cases positive : 0 < iv.minTokens
          · exact lower positive
          · omega
        unfold PricingInterval.matches
        cases bounded : iv.maxTokens with
        | none => simp [lowerSame]
        | some top =>
            have upperSame := upper top bounded
            have within : n ≤ top ↔ n' ≤ top := by omega
            simp [lowerSame, within]
      rw [List.find?_cons, List.find?_cons, first,
        ih fun other mem => same other (List.mem_cons_of_mem iv mem)]

theorem shouldApply_congr {n n' : ℤ} (pos : 0 < n) (pos' : 0 < n')
    (same : 0 < pricing.longContextInputThreshold →
      let bound := if pricing.longContextThresholdInclusive then
        pricing.longContextInputThreshold - 1 else pricing.longContextInputThreshold
      0 < bound → (bound < n ↔ bound < n')) :
    shouldApplySessionLongContextPricing { inputTokens := n } pricing =
      shouldApplySessionLongContextPricing { inputTokens := n' } pricing := by
  unfold shouldApplySessionLongContextPricing
  simp only [add_zero]
  split
  · rfl
  · rename_i threshold
    have sides := same (not_le.mp threshold)
    split
    · rfl
    · split
      · rename_i inclusive
        simp only [inclusive, if_true] at sides
        rw [decide_eq_decide]
        omega
      · rename_i strict
        simp only [strict] at sides
        rw [decide_eq_decide]
        exact sides (not_le.mp threshold)

/-- Between two breakpoints the prices do not change. -/
theorem chargedAt_congr {n n' : ℤ} (pos : 0 < n) (pos' : 0 < n')
    (same : ∀ b ∈ contextPricingBreakpoints names now resolved model, b < n ↔ b < n') :
    chargedAt names now resolved model n = chargedAt names now resolved model n' := by
  unfold chargedAt
  by_cases enabled : resolved.longContextPricingEnabled = true
  · by_cases empty : resolved.intervals = []
    · have base := getIntervalPricing_of_empty empty
      have first (m : ℤ) : requestPricing names now resolved model none m =
          requestPricing names now resolved model none 1 :=
        requestPricing_congr names now model (by rw [base, base])
      rw [first, first (if resolved.longContextPricingEnabled = true then n' else 1)]
      cases request : requestPricing names now resolved model none 1 with
      | none => rfl
      | some requested =>
          cases found : getIntervalPricing resolved 1 with
          | none =>
              unfold requestPricing at request
              rw [found] at request
              cases request
          | some pricing =>
              obtain ⟨threshold, inclusive⟩ := requestPricing_threshold found request
              have applies : shouldApplySessionLongContextPricing { inputTokens := n } requested =
                  shouldApplySessionLongContextPricing { inputTokens := n' } requested := by
                apply shouldApply_congr pos pos'
                rw [threshold, inclusive]
                intro positive bound boundPos
                apply same
                obtain ⟨keeps, keepsInclusive⟩ := policy_threshold names model pricing true now
                simp only [contextPricingBreakpoints, enabled, empty, found, keeps, keepsInclusive]
                simp only [Bool.not_true, Bool.false_eq_true, if_false, List.isEmpty_nil]
                rw [if_neg (by omega)]
                exact List.mem_singleton_self _
              simp only [Option.map_some, appliedRates, applies]
    · have bounds (b : ℤ) := mem_contextPricingBreakpoints names now model b enabled empty
      have matched : getIntervalPricing resolved n = getIntervalPricing resolved n' := by
        unfold getIntervalPricing
        rw [findMatchingInterval_congr pos pos' fun iv mem =>
          ⟨fun positive => same _ ((bounds _).mpr ⟨iv, mem, .inl ⟨positive, rfl⟩⟩),
            fun top upper => same _ ((bounds _).mpr ⟨iv, mem, .inr upper⟩)⟩]
      have filled : resolved.intervals.isEmpty = false := by simpa using empty
      simp only [enabled, if_true, requestPricing_congr names now model matched, filled, Bool.false_and,
        appliedRates, Bool.false_eq_true, if_false]
  · simp [enabled, appliedRates]

/-! ### The probes -/

theorem resolvedChannelTimeMultiplier_none : resolvedChannelTimeMultiplier resolved none = 1 := by
  unfold resolvedChannelTimeMultiplier
  cases resolved.source <;> cases resolved.channelPricing <;> rfl

/-- Where the cost is affine in the probed tokens, the probes find the slope. -/
theorem probeComponentPrice_eq {tokensAt : ℤ → UsageTokens} {start delta : ℤ}
    {probe : UsageTokens → Except String CostBreakdown} (base : ℚ) {price : ℚ}
    (affine : ∀ n, n = start ∨ n = start + delta → ∃ bd, probe (tokensAt n) = .ok bd ∧
      bd.actualCost = base + n * price)
    (degenerate : delta ≤ 0 → 0 < start ∧ base = 0) :
    probeComponentPrice tokensAt start delta probe = .ok price := by
  obtain ⟨lo, probedLo, costLo⟩ := affine start (.inl rfl)
  obtain ⟨hi, probedHi, costHi⟩ := affine (start + delta) (.inr rfl)
  unfold probeComponentPrice
  by_cases single : delta ≤ 0
  · obtain ⟨pos, noBase⟩ := degenerate single
    have nonzero : (start : ℚ) ≠ 0 := by exact_mod_cast pos.ne'
    rw [if_pos single, if_neg (not_le.mpr pos)]
    dsimp only
    rw [probedLo]
    change Except.ok (lo.actualCost / start) = Except.ok price
    rw [costLo, noBase, zero_add, mul_div_cancel_left₀ _ nonzero]
  · have nonzero : (delta : ℚ) ≠ 0 := by exact_mod_cast (by omega : delta ≠ 0)
    rw [if_neg single, probedLo, probedHi]
    change Except.ok ((hi.actualCost - lo.actualCost) / delta) = Except.ok price
    have slope : hi.actualCost - lo.actualCost = delta * price := by
      rw [costHi, costLo]
      push_cast
      ring
    rw [slope, mul_div_cancel_left₀ _ nonzero]

theorem segmentsOf_tiles (names : ModelNames) (now : ℤ) (resolved : ResolvedPricing)
    (model : String) : Tiles ContextSegment.min ContextSegment.max 0
      (segmentsOf names now resolved model) :=
  contextSegmentsFrom_tiles 0 _

/-- Throughout a segment the prices are those of its first context. -/
theorem chargedAt_segment (mem : seg ∈ segmentsOf names now resolved model) {n : ℤ}
    (within : inTile ContextSegment.min ContextSegment.max n seg = true) :
    chargedAt names now resolved model n =
      chargedAt names now resolved model (seg.min + 1) := by
  obtain ⟨lower, upper⟩ := inTile_iff.mp within
  have start := (segmentsOf_tiles names now resolved model).start_le mem
  apply chargedAt_congr (by omega) (by omega)
  intro b bound
  rcases contextSegmentsFrom_uncut (contextPricingBreakpoints_sorted names now resolved model) mem
    bound with before | ⟨top, bounded, after⟩
  · constructor <;> intro <;> omega
  · have last := upper top bounded
    constructor <;> intro <;> omega

theorem probeOf_charged (plain : tokens.Plain) {prices : Prices}
    (charged : chargedAt names now resolved model tokens.context = some prices) :
    ∃ bd, probeOf names now resolved model tokens = .ok bd ∧
      bd.actualCost = prices.cost tokens := by
  obtain ⟨bd, ok, cost⟩ := calculateTokenCost_of_charged plain charged none rfl
  rw [resolvedChannelTimeMultiplier_none, mul_one] at cost
  exact ⟨bd, ok, cost⟩

theorem wide_of_mem (mem : seg ∈ segmentsOf names now resolved model) :
    ∀ top ∈ seg.max, seg.min < top :=
  (segmentsOf_tiles names now resolved model).wide mem

/-- Both probes of a segment lie in it. -/
theorem probed_within (mem : seg ∈ segmentsOf names now resolved model) {n : ℤ}
    (probed : n = seg.min + 1 ∨ n = seg.min + 1 + seg.delta) :
    inTile ContextSegment.min ContextSegment.max n seg = true ∧ 0 ≤ seg.delta := by
  have wide := wide_of_mem mem
  have delta : 0 ≤ seg.delta ∧ ∀ top ∈ seg.max, seg.min + 1 + seg.delta ≤ top := by
    unfold ContextSegment.delta contextProbeDelta
    cases bounded : seg.max with
    | none => simp
    | some top =>
        have := wide top bounded
        simp only [Option.mem_some_iff, forall_eq']
        split <;> omega
  refine ⟨inTile_iff.mpr ⟨by omega, fun top bounded => ?_⟩, delta.1⟩
  have := delta.2 top bounded
  omega

/-- A segment's probes of one kind of token find its price. -/
theorem probeComponentPrice_segment (mem : seg ∈ segmentsOf names now resolved model)
    {prices : Prices} (charged : chargedAt names now resolved model (seg.min + 1) = some prices)
    (tokensAt : ℤ → UsageTokens) (price : ℚ)
    (plain : ∀ n, 0 ≤ n → (tokensAt n).Plain ∧ (tokensAt n).context = n ∧
      prices.cost (tokensAt n) = n * price) :
    probeComponentPrice tokensAt (seg.min + 1) seg.delta
      (probeOf names now resolved model) = .ok price := by
  have start := (segmentsOf_tiles names now resolved model).start_le mem
  have deltaNonneg := (probed_within mem (.inl rfl)).2
  apply probeComponentPrice_eq 0
  · intro n probed
    obtain ⟨within, _⟩ := probed_within mem probed
    obtain ⟨shape, context, cost⟩ := plain n (by omega)
    rw [← context] at within
    obtain ⟨bd, ok, actual⟩ := probeOf_charged shape
      ((chargedAt_segment mem within).trans charged)
    exact ⟨bd, ok, by rw [actual, cost, zero_add]⟩
  · intro _
    exact ⟨by omega, rfl⟩

/-- What a tier shows, nothing counting as 0. -/
def ContextPricingTier.prices (tier : ContextPricingTier) : Prices where
  input := tier.input.getD 0
  output := tier.output.getD 0
  cacheWrite := tier.cacheWrite.getD 0
  cacheWrite1h := tier.cacheWrite1h.getD 0
  cacheRead := tier.cacheRead.getD 0

theorem contextPricePtr_getD (v : ℚ) (explicit : Bool) :
    (contextPricePtr v explicit).getD 0 = v := by
  unfold contextPricePtr
  split
  · rename_i zero
    exact zero.1.symm
  · rfl

theorem probeComponentPrice_error (tokensAt : ℤ → UsageTokens) {start : ℤ} (pos : 0 < start)
    (delta : ℤ) {probe : UsageTokens → Except String CostBreakdown} {message : String}
    (failed : probe (tokensAt start) = .error message) :
    probeComponentPrice tokensAt start delta probe = .error message := by
  unfold probeComponentPrice
  by_cases single : delta ≤ 0
  · rw [if_pos single, if_neg (not_le.mpr pos)]
    dsimp only
    rw [failed]
    rfl
  · rw [if_neg single, failed]
    rfl

theorem probeContextTier_uncharged (mem : seg ∈ segmentsOf names now resolved model)
    (uncharged : chargedAt names now resolved model (seg.min + 1) = none)
    (tier : ContextPricingTier) :
    probeContextTier seg resolved (probeOf names now resolved model) ≠ .ok tier := by
  have start := (segmentsOf_tiles names now resolved model).start_le mem
  cases failed : probeOf names now resolved model { inputTokens := seg.min + 1 } with
  | ok bd =>
      have none : chargedAt names now resolved model
          (UsageTokens.context { inputTokens := seg.min + 1 }) = none := by
        rw [← uncharged]
        simp [UsageTokens.context]
      exact absurd failed (calculateTokenCost_uncharged none bd)
  | error message =>
      have pos : 0 < seg.min + 1 := by omega
      have input := probeComponentPrice_error (fun n => { inputTokens := n }) pos seg.delta failed
      unfold probeContextTier
      dsimp only
      rw [input]
      intro ok
      cases ok

/-- A probed tier shows the prices that its segment is charged at. -/
theorem probeContextTier_prices (mem : seg ∈ segmentsOf names now resolved model)
    {tier : ContextPricingTier}
    (probed : probeContextTier seg resolved (probeOf names now resolved model) = .ok tier) :
    tier.minTokens = seg.min ∧ tier.maxTokens = seg.max ∧
      chargedAt names now resolved model (seg.min + 1) = some tier.prices := by
  have start := (segmentsOf_tiles names now resolved model).start_le mem
  cases charged : chargedAt names now resolved model (seg.min + 1) with
  | none => exact absurd probed (probeContextTier_uncharged mem charged tier)
  | some prices =>
      have input := probeComponentPrice_segment mem charged
        (fun n => { inputTokens := n }) prices.input fun n n0 =>
          ⟨⟨⟨n0, le_rfl, le_rfl, le_rfl, le_rfl, le_rfl, le_rfl, le_rfl, le_rfl⟩, rfl, rfl, rfl,
            .inl ⟨rfl, rfl⟩⟩, by simp [UsageTokens.context], by simp [Prices.cost]⟩
      have cacheRead := probeComponentPrice_segment mem charged
        (fun n => { cacheReadTokens := n }) prices.cacheRead fun n n0 =>
          ⟨⟨⟨le_rfl, le_rfl, le_rfl, le_rfl, le_rfl, n0, le_rfl, le_rfl, le_rfl⟩, rfl, rfl, rfl,
            .inl ⟨rfl, rfl⟩⟩, by simp [UsageTokens.context], by simp [Prices.cost]⟩
      have cacheWrite := probeComponentPrice_segment mem charged
        (fun n => { cacheCreationTokens := n }) prices.cacheWrite fun n n0 =>
          ⟨⟨⟨le_rfl, le_rfl, le_rfl, le_rfl, n0, le_rfl, le_rfl, le_rfl, le_rfl⟩, rfl, rfl, rfl,
            .inl ⟨rfl, rfl⟩⟩, by simp [UsageTokens.context], by simp [Prices.cost]⟩
      have cacheWrite1h := probeComponentPrice_segment mem charged
        (fun n => { cacheCreationTokens := n, cacheCreation1hTokens := n }) prices.cacheWrite1h
        fun n n0 =>
          ⟨⟨⟨le_rfl, le_rfl, le_rfl, le_rfl, n0, le_rfl, le_rfl, n0, le_rfl⟩, rfl, rfl, rfl,
            .inr (by simp)⟩, by simp [UsageTokens.context], by simp [Prices.cost]⟩
      have output : probeComponentPrice
          (fun n => { inputTokens := seg.min + 1, outputTokens := n }) 0 contextProbeDelta
          (probeOf names now resolved model) = .ok prices.output := by
        apply probeComponentPrice_eq ((seg.min + 1 : ℤ) * prices.input)
        · intro n probed
          have n0 : 0 ≤ n := by
            unfold contextProbeDelta at probed
            omega
          have plain : UsageTokens.Plain { inputTokens := seg.min + 1, outputTokens := n } :=
            ⟨⟨by dsimp only; omega, le_rfl, le_rfl, n0, le_rfl, le_rfl, le_rfl, le_rfl, le_rfl⟩,
              rfl, rfl, rfl, .inl ⟨rfl, rfl⟩⟩
          have context : chargedAt names now resolved model
              (UsageTokens.context { inputTokens := seg.min + 1, outputTokens := n }) =
              some prices := by
            simpa [UsageTokens.context] using charged
          obtain ⟨bd, ok, actual⟩ := probeOf_charged plain context
          exact ⟨bd, ok, by simp [actual, Prices.cost]⟩
        · unfold contextProbeDelta
          omega
      unfold probeContextTier at probed
      dsimp only at probed
      rw [input, cacheRead, cacheWrite, cacheWrite1h, output] at probed
      cases probed
      simp [ContextPricingTier.prices, contextPricePtr_getD]

/-! ### The merge -/

/-- Two prices count as the same: they are within one part in 10⁹ of each other. -/
def Near (a b : ℚ) : Prop := |a - b| ≤ max |a| |b| * (1 / 10 ^ 9)

structure Prices.Near (prices others : Prices) : Prop where
  input : Pricing.Near prices.input others.input
  output : Pricing.Near prices.output others.output
  cacheWrite : Pricing.Near prices.cacheWrite others.cacheWrite
  cacheWrite1h : Pricing.Near prices.cacheWrite1h others.cacheWrite1h
  cacheRead : Pricing.Near prices.cacheRead others.cacheRead

theorem Near.refl (a : ℚ) : Near a a := by
  unfold Near
  rw [sub_self, abs_zero]
  positivity

theorem near_of_samePricePtr {a b : Option ℚ} (same : samePricePtr a b = true) :
    Near (a.getD 0) (b.getD 0) := by
  cases a with
  | none =>
      cases b with
      | none => exact .refl 0
      | some b => cases same
  | some a =>
      cases b with
      | none => cases same
      | some b =>
          unfold samePricePtr at same
          rw [Bool.or_eq_true, decide_eq_true_eq, decide_eq_true_eq] at same
          rcases same with rfl | near
          · exact .refl a
          · exact near

theorem near_of_sameContextPrices {a b : ContextPricingTier}
    (same : sameContextPrices a b = true) : a.prices.Near b.prices := by
  unfold sameContextPrices at same
  simp only [Bool.and_eq_true] at same
  obtain ⟨⟨⟨⟨input, output⟩, cacheWrite⟩, cacheWrite1h⟩, cacheRead⟩ := same
  exact ⟨near_of_samePricePtr input, near_of_samePricePtr output, near_of_samePricePtr cacheWrite,
    near_of_samePricePtr cacheWrite1h, near_of_samePricePtr cacheRead⟩

theorem samePricePtr_self (a : Option ℚ) : samePricePtr a a = true := by
  cases a with
  | none => rfl
  | some a => simp [samePricePtr]

theorem sameContextPrices_self (tier : ContextPricingTier) :
    sameContextPrices tier tier = true := by
  simp [sameContextPrices, samePricePtr_self]

/-- Whether `n` lies in the tier. -/
abbrev ContextPricingTier.holds (n : ℤ) (tier : ContextPricingTier) : Bool :=
  inTile ContextPricingTier.minTokens ContextPricingTier.maxTokens n tier

/-- Wherever `tier` holds, one of `probed` holds whose prices count as the same. -/
def Shows (probed : List ContextPricingTier) (tier : ContextPricingTier) : Prop :=
  ∀ n, tier.holds n = true → ∃ t ∈ probed, t.holds n = true ∧ sameContextPrices tier t = true

theorem mergeInto_tiles {last : ContextPricingTier} {rest : List ContextPricingTier} {start : ℤ}
    (tiled : Tiles ContextPricingTier.minTokens ContextPricingTier.maxTokens start
      (last :: rest)) :
    Tiles ContextPricingTier.minTokens ContextPricingTier.maxTokens start
      (mergeInto last rest) := by
  induction rest generalizing last start with
  | nil => exact tiled
  | cons t rest ih =>
      unfold mergeInto
      split
      · exact ih (tiled.join rfl rfl)
      · cases tiled with
        | cons _ bounded wide later => exact .cons last bounded wide (ih later)

theorem mergeInto_shows {probed : List ContextPricingTier} {last : ContextPricingTier}
    {rest : List ContextPricingTier} {start : ℤ}
    (tiled : Tiles ContextPricingTier.minTokens ContextPricingTier.maxTokens start
      (last :: rest)) (shows : Shows probed last) (mem : ∀ t ∈ rest, t ∈ probed) :
    ∀ tier ∈ mergeInto last rest, Shows probed tier := by
  induction rest generalizing last start with
  | nil =>
      intro tier only
      rw [mergeInto, List.mem_singleton] at only
      exact only ▸ shows
  | cons t rest ih =>
      have tMem := mem t List.mem_cons_self
      have restMem : ∀ other ∈ rest, other ∈ probed := fun other later =>
        mem other (List.mem_cons_of_mem t later)
      unfold mergeInto
      split
      · rename_i same
        have joined : Tiles ContextPricingTier.minTokens ContextPricingTier.maxTokens start
            ({ last with maxTokens := t.maxTokens } :: rest) := tiled.join rfl rfl
        apply ih joined _ restMem
        intro n within
        obtain ⟨lower, upper⟩ := inTile_iff.mp within
        by_cases before : n ≤ t.minTokens
        · -- still in the part that was merged before
          apply shows n
          apply inTile_iff.mpr
          constructor
          · exact lower
          · intro top bounded
            rw [Option.mem_def, tiled.adjacent] at bounded
            cases bounded
            exact before
        · exact ⟨t, tMem, inTile_iff.mpr ⟨not_le.mp before, upper⟩, same⟩
      · intro tier found
        rcases List.mem_cons.mp found with rfl | found
        · exact shows
        · cases tiled with
          | cons _ _ _ later =>
              exact ih later (fun n within => ⟨t, tMem, within, sameContextPrices_self t⟩) restMem
                tier found

/-- The probed tiers tile the contexts, and each shows what its contexts are charged at. -/
theorem probedTiers_charged {found : List ContextPricingTier}
    (probed : ((segmentsOf names now resolved model).mapM fun seg =>
      probeContextTier seg resolved (probeOf names now resolved model)) = .ok found) :
    Tiles ContextPricingTier.minTokens ContextPricingTier.maxTokens 0 found ∧
      ∀ tier ∈ found, ∀ n, tier.holds n = true →
        chargedAt names now resolved model n = some tier.prices := by
  have each := (List.forall₂_and_left _ _).mpr ⟨fun _ mem => mem, Lists.mapM_ok.mp probed⟩
  constructor
  · apply (segmentsOf_tiles names now resolved model).of_forall₂
    apply each.imp
    rintro seg tier ⟨mem, ok⟩
    obtain ⟨lower, upper, _⟩ := probeContextTier_prices mem ok
    exact ⟨lower, upper⟩
  · intro tier listed n within
    obtain ⟨seg, _, mem, ok⟩ := Lists.right_of_forall₂ each listed
    obtain ⟨lower, upper, charged⟩ := probeContextTier_prices mem ok
    rw [← charged]
    apply chargedAt_segment mem
    unfold inTile
    rw [← lower, ← upper]
    exact within

/-- After the merge the tiers still tile the contexts, and each shows, within the tolerance, what
its contexts are charged at. -/
theorem mergedTiers_charged {found : List ContextPricingTier}
    (tiled : Tiles ContextPricingTier.minTokens ContextPricingTier.maxTokens 0 found)
    (charged : ∀ tier ∈ found, ∀ n, tier.holds n = true →
      chargedAt names now resolved model n = some tier.prices) :
    Tiles ContextPricingTier.minTokens ContextPricingTier.maxTokens 0
        (mergeEqualContextTiers found) ∧
      ∀ tier ∈ mergeEqualContextTiers found, ∀ n, tier.holds n = true →
        ∃ prices, chargedAt names now resolved model n = some prices ∧
          tier.prices.Near prices := by
  cases found with
  | nil => exact absurd rfl tiled.ne_nil
  | cons first rest =>
      constructor
      · exact mergeInto_tiles tiled
      · intro tier mem n within
        have shows := mergeInto_shows tiled
          (fun n within => ⟨first, List.mem_cons_self, within, sameContextPrices_self first⟩)
          (fun t later => List.mem_cons_of_mem first later) tier mem
        obtain ⟨shown, shownMem, holds, same⟩ := shows n within
        exact ⟨shown.prices, charged shown shownMem n holds, near_of_sameContextPrices same⟩

/-- The displayed tiers partition the contexts from 1 on, and a plain usage is charged, besides a
channel's time multiplier, at prices that count as the same as those of its context's tier. -/
theorem resolveContextPricingSchedule_charged {tiers : List ContextPricingTier}
    (shown : resolveContextPricingSchedule names now resolved model = .ok (some tiers)) :
    (∀ n, 0 < n → ∃ tier, tiers.filter (·.holds n) = [tier]) ∧
      ∀ tokens : UsageTokens, tokens.Plain → 1 ≤ tokens.context →
        ∀ tier ∈ tiers, tier.holds tokens.context = true →
          ∀ pricingAt : Option ℤ, pricingAt.getD now = now →
            ∃ bd charged,
              calculateTokenCost names now resolved { model, tokens, pricingAt } = .ok bd ∧
              bd.actualCost = charged.cost tokens *
                resolvedChannelTimeMultiplier resolved pricingAt ∧
              tier.prices.Near charged := by
  unfold resolveContextPricingSchedule at shown
  split at shown
  · cases shown
  · cases probed : (segmentsOf names now resolved model).mapM fun seg =>
        probeContextTier seg resolved (probeOf names now resolved model) with
    | error message =>
        rw [probed] at shown
        cases shown
    | ok found =>
        rw [probed] at shown
        cases shown
        obtain ⟨tiled, charged⟩ := probedTiers_charged probed
        obtain ⟨merged, near⟩ := mergedTiers_charged tiled charged
        constructor
        · exact fun n pos => merged.filter_eq pos
        · intro tokens plain _ tier mem within pricingAt instant
          obtain ⟨prices, context, shows⟩ := near tier mem tokens.context within
          obtain ⟨bd, ok, cost⟩ := calculateTokenCost_of_charged plain context pricingAt instant
          exact ⟨bd, prices, ok, cost, shows⟩

namespace Sample

/-- Two intervals whose input prices differ by one part in 10¹⁰. -/
def closeIntervals : ResolvedPricing :=
  { intervals :=
      [{ minTokens := 0, maxTokens := some 100, inputPrice := some (10 ^ 10) },
        { minTokens := 100, inputPrice := some (10 ^ 10 + 1) }] }

def closeTier : ContextPricingTier :=
  { minTokens := 0, maxTokens := none, input := some (10 ^ 10) }

theorem closeTier_shown :
    resolveContextPricingSchedule {} 0 closeIntervals "m" = .ok (some [closeTier]) := by
  decide +kernel

end Sample

theorem resolveContextPricingSchedule_charged_close :
    ∃ bd charged, calculateTokenCost {} 0 Sample.closeIntervals
        { model := "m", tokens := { inputTokens := 101 } } = .ok bd ∧
      bd.actualCost = charged.cost { inputTokens := 101 } *
        resolvedChannelTimeMultiplier Sample.closeIntervals none ∧
      Sample.closeTier.prices.Near charged :=
  (resolveContextPricingSchedule_charged Sample.closeTier_shown).2 { inputTokens := 101 }
    ⟨⟨by decide, by decide, by decide, by decide, by decide, by decide, by decide, by decide,
      by decide⟩, rfl, rfl, rfl, .inl ⟨rfl, rfl⟩⟩ (by decide) Sample.closeTier
    List.mem_cons_self (by decide) none rfl

/-- Neighbours that the merge takes for equal are not charged alike. -/
theorem not_charged_exactly :
    ¬ ∀ (resolved : ResolvedPricing) (tiers : List ContextPricingTier) (tokens : UsageTokens),
      resolveContextPricingSchedule {} 0 resolved "m" = .ok (some tiers) → tokens.Plain →
      1 ≤ tokens.context → ∀ tier ∈ tiers, tier.holds tokens.context = true →
      (calculateTokenCost {} 0 resolved { model := "m", tokens }).toOption.map (·.actualCost) =
        some (tier.prices.cost tokens) := by
  intro claim
  have charged := claim Sample.closeIntervals [Sample.closeTier] { inputTokens := 101 }
    Sample.closeTier_shown
    ⟨⟨by decide, by decide, by decide, by decide, by decide, by decide, by decide, by decide,
      by decide⟩, rfl, rfl, rfl, .inl ⟨rfl, rfl⟩⟩ (by decide) Sample.closeTier
    List.mem_cons_self (by decide)
  revert charged
  decide +kernel

end Sub2api.Pricing
