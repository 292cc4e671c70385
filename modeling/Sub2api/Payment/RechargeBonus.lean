import Mathlib.Data.List.Sort
import Sub2api.Payment.Amounts

/-!
# Recharge bonuses

Tiers are normalized when they are written, and read again leniently; a quote takes the tier that the
payment amount reaches. `math.MaxFloat64` as a bound is none here.
-/

namespace Sub2api.Payment

open Database Go

structure RechargeBonusTier where
  minAmount : ℚ
  bonusPercent : ℚ
  deriving DecidableEq

inductive RechargeBonusMode where
  | bonus
  | discount

def maxRechargeBonusTiers : ℕ := 20
def maxRechargeBonusPercent : ℕ := 1000
def rechargeBonusAmountEpsilon : ℚ := 1 / 10 ^ 9

/-- The mode, and whether the input is valid. -/
def normalizeRechargeBonusMode (raw : String) : RechargeBonusMode × Bool :=
  let mode := (trimSpace raw).toList.map lowerRune
  if mode = "".toList ∨ mode = "bonus".toList then (.bonus, true)
  else if mode = "discount".toList then (.discount, true)
  else (.bonus, false)

/-! ### Tiers -/

def rechargeBonusValueValid (v : ℚ) (max : Option ℚ) : Prop :=
  0 ≤ v ∧ (∀ bound ∈ max, v ≤ bound) ∧ v = roundScale 2 v

instance (v : ℚ) (max : Option ℚ) : Decidable (rechargeBonusValueValid v max) :=
  inferInstanceAs (Decidable (_ ∧ _ ∧ _))

/-- `String` of an amount with two decimal places. -/
def decimalString (amount : ℚ) : String :=
  let cents := (amount * 100).num.toNat
  let whole := toString (cents / 100)
  if cents % 100 = 0 then whole
  else if cents % 10 = 0 then whole ++ "." ++ toString (cents / 10 % 10)
  else whole ++ "." ++ toString (cents / 10 % 10) ++ toString (cents % 10)

def sortRechargeBonusTiers (tiers : List RechargeBonusTier) : List RechargeBonusTier :=
  tiers.insertionSort fun a b => a.minAmount ≤ b.minAmount

/-- The loop of `NormalizeRechargeBonusTiers`, after the minimal amounts seen. -/
def collectTiers (seen : List ℚ) : List RechargeBonusTier → Except String (List RechargeBonusTier)
  | [] => .ok []
  | tier :: rest =>
      if ¬ rechargeBonusValueValid tier.minAmount none then
        .error "recharge bonus tier min amount must be a non-negative number with at most 2 decimals"
      else if ¬ rechargeBonusValueValid tier.bonusPercent (some maxRechargeBonusPercent) then
        .error (s!"recharge bonus tier percent must be between 0 and {maxRechargeBonusPercent} " ++
          "with at most 2 decimals")
      else if roundScale 2 tier.minAmount ∈ seen then
        .error s!"duplicate recharge bonus tier min amount: {decimalString tier.minAmount}"
      else do
        let out ← collectTiers (roundScale 2 tier.minAmount :: seen) rest
        return tier :: out

def normalizeRechargeBonusTiers (raw : List RechargeBonusTier) :
    Except String (List RechargeBonusTier) := do
  if raw = [] then return []
  if maxRechargeBonusTiers < raw.length then
    throw s!"recharge bonus tiers exceed limit of {maxRechargeBonusTiers}"
  let out ← collectTiers [] raw
  return sortRechargeBonusTiers out

/-- The loop of `matchRechargeBonusTier`, from the tier matched so far. -/
def matchFrom (paymentAmount : ℚ) (matched : Option RechargeBonusTier) :
    List RechargeBonusTier → Option RechargeBonusTier
  | [] => matched
  | tier :: rest =>
      if paymentAmount + rechargeBonusAmountEpsilon < tier.minAmount then matched
      else matchFrom paymentAmount (some tier) rest

def matchRechargeBonusTier (tiers : List RechargeBonusTier) (paymentAmount : ℚ) :
    Option RechargeBonusTier :=
  if paymentAmount ≤ 0 then none else matchFrom paymentAmount none tiers

/-! ### Quotes -/

def calculateRechargeBonus (baseCredited bonusPercent : ℚ) : ℚ :=
  if baseCredited ≤ 0 ∨ bonusPercent ≤ 0 then 0
  else roundScale 2 (decimalDiv (baseCredited * bonusPercent) 100)

def addRechargeBonus (baseCredited bonus : ℚ) : ℚ := roundScale 2 (baseCredited + bonus)

def calculateDiscountedPayBase (paymentAmount discountPercent : ℚ) (currency : String) : ℚ :=
  roundScale (currencyMaxFractionDigits currency)
    (decimalDiv (paymentAmount * (100 - discountPercent)) 100)

structure RechargeBonusQuote where
  payBase : ℚ
  credited : ℚ
  bonus : ℚ := 0
  percent : ℚ := 0
  deriving DecidableEq

structure PaymentConfig where
  balanceRechargeMultiplier : ℚ
  rechargeBonusTiers : List RechargeBonusTier := []
  rechargeBonusMode : String := ""

/-- The quote of a tier that is matched, from the plain one. -/
def RechargeBonusQuote.discount (quote : RechargeBonusQuote) (multiplier : ℚ)
    (tier : RechargeBonusTier) (currency : String) : RechargeBonusQuote :=
  if 100 ≤ tier.bonusPercent then quote
  else
    let payBase := calculateDiscountedPayBase quote.payBase tier.bonusPercent currency
    if payBase ≤ 0 ∨ quote.payBase ≤ payBase then quote
    else
      let paidCredit := calculateCreditedBalance payBase multiplier
      { quote with
        payBase
        bonus := max (roundScale 2 (quote.credited - paidCredit)) 0
        percent := tier.bonusPercent }

def RechargeBonusQuote.addBonus (quote : RechargeBonusQuote) (tier : RechargeBonusTier) :
    RechargeBonusQuote :=
  let bonus := calculateRechargeBonus quote.credited tier.bonusPercent
  if bonus ≤ 0 then quote
  else
    { quote with
      bonus
      credited := addRechargeBonus quote.credited bonus
      percent := tier.bonusPercent }

def quoteRechargeBonus (cfg : Option PaymentConfig) (paymentAmount : ℚ) (currency : String) :
    RechargeBonusQuote :=
  let multiplier := match cfg with
    | none => defaultBalanceRechargeMultiplier
    | some cfg => cfg.balanceRechargeMultiplier
  let tiers := match cfg with
    | none => []
    | some cfg => cfg.rechargeBonusTiers
  let mode : RechargeBonusMode := match cfg with
    | none => .bonus
    | some cfg => (normalizeRechargeBonusMode cfg.rechargeBonusMode).1
  let quote : RechargeBonusQuote :=
    { payBase := paymentAmount, credited := calculateCreditedBalance paymentAmount multiplier }
  match matchRechargeBonusTier tiers paymentAmount with
  | none => quote
  | some tier =>
      if tier.bonusPercent ≤ 0 then quote
      else
        match mode with
        | .discount => quote.discount multiplier tier currency
        | .bonus => quote.addBonus tier

/-! ### Normalized tiers -/

/-- The tiers are in strict order of their minimal amounts, of two decimal places each. -/
structure Normalized (tiers : List RechargeBonusTier) : Prop where
  ordered : tiers.Pairwise fun a b => a.minAmount < b.minAmount
  valid : ∀ tier ∈ tiers, OnGrid 2 tier.minAmount ∧ 0 ≤ tier.bonusPercent

theorem collectTiers_ok {seen : List ℚ} {raw tiers : List RechargeBonusTier}
    (collected : collectTiers seen raw = .ok tiers) :
    tiers = raw ∧ (∀ tier ∈ raw, OnGrid 2 tier.minAmount ∧ 0 ≤ tier.bonusPercent) ∧
      (∀ tier ∈ raw, tier.minAmount ∉ seen) ∧ (raw.map RechargeBonusTier.minAmount).Nodup := by
  induction raw generalizing seen tiers with
  | nil =>
      cases collected
      simp
  | cons tier rest ih =>
      unfold collectTiers at collected
      split at collected
      · cases collected
      · rename_i amountValid
        split at collected
        · cases collected
        · rename_i percentValid
          split at collected
          · cases collected
          · rename_i new
            have round : roundScale 2 tier.minAmount = tier.minAmount :=
              (not_not.mp amountValid).2.2.symm
            rw [round] at collected new
            cases more : collectTiers (tier.minAmount :: seen) rest with
            | error error =>
                rw [more] at collected
                cases collected
            | ok out =>
                rw [more] at collected
                cases collected
                obtain ⟨rfl, valid, unseen, nodup⟩ := ih more
                have here : OnGrid 2 tier.minAmount ∧ 0 ≤ tier.bonusPercent :=
                  ⟨round ▸ onGrid_roundScale 2 tier.minAmount, (not_not.mp percentValid).1⟩
                refine ⟨rfl, ?_, ?_, ?_⟩
                · exact List.forall_mem_cons.mpr ⟨here, valid⟩
                · refine List.forall_mem_cons.mpr ⟨new, ?_⟩
                  intro other mem
                  exact List.not_mem_of_not_mem_cons (unseen other mem)
                · rw [List.map_cons, List.nodup_cons]
                  refine ⟨?_, nodup⟩
                  intro again
                  obtain ⟨other, mem, same⟩ := List.mem_map.mp again
                  exact unseen other mem (same ▸ List.mem_cons_self)

/-- Accepted tiers are those given, in strict order. -/
theorem normalizeRechargeBonusTiers_ok {raw tiers : List RechargeBonusTier}
    (accepted : normalizeRechargeBonusTiers raw = .ok tiers) :
    Normalized tiers ∧ ∀ tier, tier ∈ tiers ↔ tier ∈ raw := by
  unfold normalizeRechargeBonusTiers at accepted
  by_cases empty : raw = []
  · subst empty
    cases accepted
    exact ⟨⟨List.Pairwise.nil, by simp⟩, by simp⟩
  · simp only [if_neg empty] at accepted
    by_cases many : maxRechargeBonusTiers < raw.length
    · simp only [if_pos many] at accepted
      cases accepted
    · simp only [if_neg many] at accepted
      cases collected : collectTiers [] raw with
      | error error =>
          rw [collected] at accepted
          cases accepted
      | ok out =>
          rw [collected] at accepted
          cases accepted
          obtain ⟨rfl, valid, _, nodup⟩ := collectTiers_ok collected
          have perm := List.perm_insertionSort (fun a b => a.minAmount ≤ b.minAmount) out
          have sorted := List.pairwise_insertionSort
            (fun a b : RechargeBonusTier => a.minAmount ≤ b.minAmount) out
          have distinct : (sortRechargeBonusTiers out).Pairwise
              fun a b => a.minAmount ≠ b.minAmount :=
            List.pairwise_map.mp ((perm.map RechargeBonusTier.minAmount).nodup_iff.mpr nodup)
          refine ⟨⟨?_, ?_⟩, fun tier => perm.mem_iff⟩
          · exact (sorted.and distinct).imp fun both => lt_of_le_of_ne both.1 both.2
          · intro tier mem
            exact valid tier (perm.mem_iff.mp mem)

/-! ### The tier that is matched -/

/-- The greatest tier not above a bound. -/
def Greatest (tiers : List RechargeBonusTier) (bound : ℚ) (tier : RechargeBonusTier) : Prop :=
  tier ∈ tiers ∧ tier.minAmount ≤ bound ∧
    ∀ other ∈ tiers, other.minAmount ≤ bound → other.minAmount ≤ tier.minAmount

theorem matchFrom_cases {tiers : List RechargeBonusTier}
    (ordered : tiers.Pairwise fun a b => a.minAmount < b.minAmount) (amount : ℚ)
    (matched : Option RechargeBonusTier) :
    ((∀ tier ∈ tiers, amount + rechargeBonusAmountEpsilon < tier.minAmount) ∧
        matchFrom amount matched tiers = matched) ∨
      ∃ tier, Greatest tiers (amount + rechargeBonusAmountEpsilon) tier ∧
        matchFrom amount matched tiers = some tier := by
  induction tiers generalizing matched with
  | nil => exact Or.inl ⟨by simp, rfl⟩
  | cons tier rest ih =>
      obtain ⟨above, ordered⟩ := List.pairwise_cons.mp ordered
      unfold matchFrom
      by_cases beyond : amount + rechargeBonusAmountEpsilon < tier.minAmount
      · left
        rw [if_pos beyond]
        refine ⟨List.forall_mem_cons.mpr ⟨beyond, ?_⟩, rfl⟩
        intro other mem
        exact beyond.trans (above other mem)
      · right
        rw [if_neg beyond]
        rcases ih ordered (some tier) with ⟨none_, same⟩ | ⟨later, ⟨mem, below, greatest⟩, found⟩
        · refine ⟨tier, ⟨List.mem_cons_self, not_lt.mp beyond, ?_⟩, same⟩
          refine List.forall_mem_cons.mpr ⟨fun _ => le_rfl, ?_⟩
          intro other mem low
          exact absurd low (not_le.mpr (none_ other mem))
        · refine ⟨later, ⟨List.mem_cons_of_mem _ mem, below, ?_⟩, found⟩
          exact List.forall_mem_cons.mpr ⟨fun _ => (above later mem).le, greatest⟩

theorem Greatest.unique {tiers : List RechargeBonusTier} {bound : ℚ} {a b : RechargeBonusTier}
    (ordered : tiers.Pairwise fun a b => a.minAmount < b.minAmount)
    (first : Greatest tiers bound a) (second : Greatest tiers bound b) : a = b := by
  have nodup : (tiers.map RechargeBonusTier.minAmount).Nodup :=
    List.pairwise_map.mpr (ordered.imp fun less => less.ne)
  exact List.inj_on_of_nodup_map nodup first.1 second.1
    (le_antisymm (second.2.2 a first.1 first.2.1) (first.2.2 b second.1 second.2.1))

/-- A positive amount that the currency can express. -/
def ValidPaymentAmount (amount : ℚ) (currency : String) : Prop :=
  0 < amount ∧ ∃ minor, amountToMinorUnit amount currency = .ok minor

instance (amount : ℚ) (currency : String) : Decidable (ValidPaymentAmount amount currency) :=
  match found : amountToMinorUnit amount currency with
  | .ok minor => decidable_of_iff (0 < amount) (by simp [ValidPaymentAmount, found])
  | .error _ => isFalse (by simp [ValidPaymentAmount, found])

/-- The tolerance decides nothing between amounts of three decimal places. -/
theorem le_add_epsilon_iff {amount bound : ℚ} (amountGrid : OnGrid 3 amount)
    (boundGrid : OnGrid 3 bound) :
    bound ≤ amount + rechargeBonusAmountEpsilon ↔ bound ≤ amount := by
  obtain ⟨m, rfl⟩ := amountGrid
  obtain ⟨n, rfl⟩ := boundGrid
  unfold rechargeBonusAmountEpsilon
  constructor
  · intro near
    by_contra above
    have more : (m : ℚ) + 1 ≤ n := by
      have less : (m : ℚ) < n := by
        rw [not_le, div_lt_div_iff_of_pos_right (by positivity)] at above
        exact above
      exact_mod_cast less
    rw [div_le_iff₀ (by positivity), add_mul, div_mul_cancel₀ _ (by positivity)] at near
    norm_num at near
    linarith
  · intro below
    linarith [show (0 : ℚ) < 1 / 10 ^ 9 by positivity]

theorem matchRechargeBonusTier_iff {tiers : List RechargeBonusTier} {amount : ℚ}
    (normalized : Normalized tiers) (positive : 0 < amount) (grid : OnGrid 3 amount)
    (tier : RechargeBonusTier) :
    matchRechargeBonusTier tiers amount = some tier ↔ Greatest tiers amount tier := by
  have tolerant : ∀ other ∈ tiers,
      (other.minAmount ≤ amount + rechargeBonusAmountEpsilon ↔ other.minAmount ≤ amount) :=
    fun other mem => le_add_epsilon_iff grid ((normalized.valid other mem).1.mono (by omega))
  have greatest : ∀ tier, Greatest tiers (amount + rechargeBonusAmountEpsilon) tier ↔
      Greatest tiers amount tier := by
    intro tier
    constructor
    · rintro ⟨mem, below, most⟩
      exact ⟨mem, (tolerant tier mem).mp below, fun other here low =>
        most other here ((tolerant other here).mpr low)⟩
    · rintro ⟨mem, below, most⟩
      exact ⟨mem, (tolerant tier mem).mpr below, fun other here low =>
        most other here ((tolerant other here).mp low)⟩
  unfold matchRechargeBonusTier
  rw [if_neg (not_le.mpr positive), ← greatest]
  rcases matchFrom_cases normalized.ordered amount none with
    ⟨none_, same⟩ | ⟨found, most, same⟩
  · rw [same]
    constructor
    · intro absurd_
      cases absurd_
    · intro most
      exact absurd most.2.1 (not_le.mpr (none_ tier most.1))
  · rw [same]
    constructor
    · intro equal
      cases equal
      exact most
    · intro other
      rw [most.unique normalized.ordered other]

/-! ### What a quote adds up to -/

/-- What is credited without being paid for is between nothing and all, and what is paid for is
credited by the multiplier. -/
structure Consistent (multiplier paymentAmount : ℚ) (quote : RechargeBonusQuote) : Prop where
  paid : quote.credited - quote.bonus = calculateCreditedBalance quote.payBase multiplier
  bonus_nonneg : 0 ≤ quote.bonus
  bonus_le : quote.bonus ≤ quote.credited
  payBase_pos : 0 < quote.payBase
  payBase_le : quote.payBase ≤ paymentAmount

section Quotes

variable {multiplier paymentAmount : ℚ} (scaled : 0 < multiplier) (positive : 0 < paymentAmount)

include scaled

theorem calculateCreditedBalance_mono {amount amount' : ℚ} (le : amount ≤ amount') :
    calculateCreditedBalance amount multiplier ≤ calculateCreditedBalance amount' multiplier := by
  unfold calculateCreditedBalance normalizeBalanceRechargeMultiplier
  rw [if_neg (not_le.mpr scaled)]
  exact roundScale_mono (mul_le_mul_of_nonneg_right le scaled.le)

theorem calculateCreditedBalance_nonneg {amount : ℚ} (nonneg : 0 ≤ amount) :
    0 ≤ calculateCreditedBalance amount multiplier := by
  unfold calculateCreditedBalance normalizeBalanceRechargeMultiplier
  rw [if_neg (not_le.mpr scaled)]
  exact roundScale_nonneg (mul_nonneg nonneg scaled.le)

include positive

theorem consistent_plain : Consistent multiplier paymentAmount
    { payBase := paymentAmount, credited := calculateCreditedBalance paymentAmount multiplier } where
  paid := sub_zero _
  bonus_nonneg := le_rfl
  bonus_le := calculateCreditedBalance_nonneg scaled positive.le
  payBase_pos := positive
  payBase_le := le_rfl

/-- The discount of a tier: what is paid is less, and the rest of the credit is free. -/
theorem consistent_discount (tier : RechargeBonusTier) (currency : String) :
    Consistent multiplier paymentAmount (RechargeBonusQuote.discount
      { payBase := paymentAmount, credited := calculateCreditedBalance paymentAmount multiplier }
      multiplier tier currency) := by
  unfold RechargeBonusQuote.discount
  split
  · exact consistent_plain scaled positive
  · dsimp only
    generalize calculateDiscountedPayBase paymentAmount tier.bonusPercent currency = payBase
    split
    · exact consistent_plain scaled positive
    · rename_i between
      obtain ⟨some_, less⟩ := not_or.mp between
      have credit := calculateCreditedBalance_mono scaled (not_le.mp less).le
      have paidNonneg := calculateCreditedBalance_nonneg scaled (not_le.mp some_).le
      have grid : OnGrid 2 (calculateCreditedBalance paymentAmount multiplier -
          calculateCreditedBalance payBase multiplier) :=
        (onGrid_roundScale 2 _).sub (onGrid_roundScale 2 _)
      rw [roundScale_of_onGrid grid, max_eq_left (sub_nonneg.mpr credit)]
      constructor
      · exact sub_sub_cancel _ _
      · exact sub_nonneg.mpr credit
      · exact sub_le_self _ paidNonneg
      · exact not_le.mp some_
      · exact (not_le.mp less).le

/-- The bonus of a tier is credited beside what is paid for. -/
theorem consistent_addBonus (tier : RechargeBonusTier) :
    Consistent multiplier paymentAmount (RechargeBonusQuote.addBonus
      { payBase := paymentAmount, credited := calculateCreditedBalance paymentAmount multiplier }
      tier) := by
  have credit := calculateCreditedBalance_nonneg scaled positive.le
  unfold RechargeBonusQuote.addBonus
  dsimp only
  have grid : OnGrid 2 (calculateRechargeBonus (calculateCreditedBalance paymentAmount multiplier)
      tier.bonusPercent) := by
    unfold calculateRechargeBonus
    split
    · exact onGrid_zero
    · exact onGrid_roundScale 2 _
  generalize calculateRechargeBonus (calculateCreditedBalance paymentAmount multiplier)
    tier.bonusPercent = bonus at grid
  split
  · exact consistent_plain scaled positive
  · rename_i some_
    have sum : addRechargeBonus (calculateCreditedBalance paymentAmount multiplier) bonus =
        calculateCreditedBalance paymentAmount multiplier + bonus :=
      roundScale_of_onGrid ((onGrid_roundScale 2 _).add grid)
    rw [sum]
    constructor
    · exact add_sub_cancel_right _ _
    · exact (not_le.mp some_).le
    · exact le_add_of_nonneg_left credit
    · exact positive
    · exact le_rfl

end Quotes

/-- A quote takes the greatest tier not above the amount, is consistent, and is the plain credit
where no tier is matched or the tier gives nothing. -/
theorem quoteRechargeBonus_consistent (cfg : PaymentConfig) (raw : List RechargeBonusTier)
    (paymentAmount : ℚ) (currency : String)
    (accepted : normalizeRechargeBonusTiers raw = .ok cfg.rechargeBonusTiers)
    (scaled : 0 < cfg.balanceRechargeMultiplier)
    (valid : ValidPaymentAmount paymentAmount currency) :
    (∀ tier, matchRechargeBonusTier cfg.rechargeBonusTiers paymentAmount = some tier ↔
      Greatest raw paymentAmount tier) ∧
    Consistent cfg.balanceRechargeMultiplier paymentAmount
      (quoteRechargeBonus (some cfg) paymentAmount currency) ∧
    ((∀ tier, matchRechargeBonusTier cfg.rechargeBonusTiers paymentAmount = some tier →
        tier.bonusPercent ≤ 0) →
      quoteRechargeBonus (some cfg) paymentAmount currency =
        { payBase := paymentAmount
          credited := calculateCreditedBalance paymentAmount cfg.balanceRechargeMultiplier }) := by
  obtain ⟨normalized, same⟩ := normalizeRechargeBonusTiers_ok accepted
  obtain ⟨positive, minor, converted⟩ := valid
  refine ⟨?_, ?_, ?_⟩
  · intro tier
    rw [matchRechargeBonusTier_iff normalized positive (amountToMinorUnit_onGrid converted)]
    unfold Greatest
    simp only [same]
  · unfold quoteRechargeBonus
    dsimp only
    split
    · exact consistent_plain scaled positive
    · rename_i tier _
      split
      · exact consistent_plain scaled positive
      · split
        · exact consistent_discount scaled positive tier currency
        · exact consistent_addBonus scaled positive tier
  · intro nothing
    unfold quoteRechargeBonus
    dsimp only
    split
    · rfl
    · rename_i tier matched
      exact if_pos (nothing tier matched)

/-- 30 % from 1000 on, at a multiplier of 0.14. -/
def summerTiers : List RechargeBonusTier := [⟨1000, 30⟩, ⟨100, 10⟩]

def summerConfig : PaymentConfig where
  balanceRechargeMultiplier := 14 / 100
  rechargeBonusTiers := [⟨100, 10⟩, ⟨1000, 30⟩]

theorem summer_consistent :
    quoteRechargeBonus (some summerConfig) 1000 "CNY" = ⟨1000, 182, 42, 30⟩ ∧
      Consistent (14 / 100) 1000 ⟨1000, 182, 42, 30⟩ := by
  have quoted : quoteRechargeBonus (some summerConfig) 1000 "CNY" = ⟨1000, 182, 42, 30⟩ := by
    decide +kernel
  have consistent := (quoteRechargeBonus_consistent summerConfig summerTiers 1000 "CNY"
    (by decide +kernel) (by decide +kernel) (by decide +kernel)).2.1
  rw [quoted] at consistent
  exact ⟨quoted, consistent⟩

end Sub2api.Payment
