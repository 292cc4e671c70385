import Mathlib.Algebra.Order.BigOperators.Group.List
import Sub2api.Database.Numeric
import Sub2api.Go.Strings
import Sub2api.Redeem.Codes

/-!
# Payment amounts

The amounts of an order in its currency, what it credits and what a refund of it takes back.
-/

namespace Sub2api.Payment

open Database
open Billing (Time)

inductive OrderStatus where
  | pending
  | paid
  | recharging
  | completed
  | expired
  | cancelled
  | failed
  | refundRequested
  | refunding
  | refundPending
  | partiallyRefunded
  | refunded
  | refundFailed
  deriving DecidableEq

end Sub2api.Payment

/-!
### Payment currencies

How many decimal places the amounts of a currency have, and how close two amounts count as one.
-/

namespace Sub2api.Payment

open Database Go

def defaultPaymentCurrency : String := "CNY"

structure PaymentCurrencyAmountUnit where
  apiMinorUnit : ℕ
  maxFractionDigits : ℕ

def zeroDecimalAmountUnit : PaymentCurrencyAmountUnit := ⟨0, 0⟩
def twoDecimalAmountUnit : PaymentCurrencyAmountUnit := ⟨2, 2⟩
def threeDecimalAmountUnit : PaymentCurrencyAmountUnit := ⟨3, 3⟩
def stripeLegacyZeroAmount : PaymentCurrencyAmountUnit := ⟨2, 0⟩

def paymentCurrencyAmountUnits : List (String × PaymentCurrencyAmountUnit) :=
  ["BIF", "CLP", "DJF", "GNF", "JPY", "KMF", "KRW", "MGA", "PYG", "RWF", "VND", "VUV", "XAF", "XOF",
      "XPF"].map (·, zeroDecimalAmountUnit) ++
    ["ISK", "UGX"].map (·, stripeLegacyZeroAmount) ++
    ["BHD", "IQD", "JOD", "KWD", "LYD", "OMR", "TND"].map (·, threeDecimalAmountUnit)

/-- `unicode.ToUpper`, as far as the result is an ASCII letter: besides the small letters only the
dotless i and the long s have one. -/
def upperRune (c : Char) : Char :=
  if 'a' ≤ c ∧ c ≤ 'z' then Char.ofNat (c.toNat - 32)
  else if c.toNat = 0x131 then 'I'
  else if c.toNat = 0x17f then 'S'
  else c

def normalizePaymentCurrency (raw : String) : Except String String :=
  let currency := (trimSpace raw).toList.map upperRune
  if currency = [] then .ok defaultPaymentCurrency
  else if currency.length ≠ 3 ∨ currency.any (fun ch => ch < 'A' || 'Z' < ch) then
    .error "payment currency must be a 3-letter ISO currency code"
  else .ok (String.ofList currency)

def paymentCurrencyAmountUnitFor (currency : String) : PaymentCurrencyAmountUnit :=
  match normalizePaymentCurrency currency with
  | .error _ => twoDecimalAmountUnit
  | .ok normalized =>
      (paymentCurrencyAmountUnits.lookup normalized).getD twoDecimalAmountUnit

def currencyMinorUnit (currency : String) : ℕ :=
  (paymentCurrencyAmountUnitFor currency).apiMinorUnit

def currencyMaxFractionDigits (currency : String) : ℕ :=
  (paymentCurrencyAmountUnitFor currency).maxFractionDigits

/-- The amount in minor units; an amount of more decimal places than the currency has is refused. -/
def amountToMinorUnit (amount : ℚ) (currency : String) : Except String ℤ := do
  let normalizedCurrency ← normalizePaymentCurrency currency
  let amountUnit := paymentCurrencyAmountUnitFor normalizedCurrency
  if ¬ OnGrid amountUnit.maxFractionDigits amount then
    if amountUnit.maxFractionDigits = 0 then
      throw s!"payment amount for {normalizedCurrency} must be a whole number"
    throw (s!"payment amount for {normalizedCurrency} must not have more than " ++
      s!"{amountUnit.maxFractionDigits} decimal places")
  let minorAmount := amount * 10 ^ amountUnit.apiMinorUnit
  return minorAmount.num.tdiv minorAmount.den

def amountToleranceCNY : ℚ := 1 / 100

def paymentAmountToleranceForCurrency (currency : String) : ℚ :=
  if currencyMinorUnit currency ≤ 2 then amountToleranceCNY
  else 1 / 10 ^ currencyMinorUnit currency / 2

theorem paymentCurrencyAmountUnitFor_mem (currency : String) :
    paymentCurrencyAmountUnitFor currency = twoDecimalAmountUnit ∨
      ∃ normalized, (normalized, paymentCurrencyAmountUnitFor currency) ∈
        paymentCurrencyAmountUnits := by
  unfold paymentCurrencyAmountUnitFor
  split
  · exact Or.inl rfl
  · rename_i normalized _
    cases found : paymentCurrencyAmountUnits.lookup normalized with
    | none => exact Or.inl rfl
    | some unit =>
        obtain ⟨before, after, same, _⟩ := List.lookup_eq_some_iff.mp found
        exact Or.inr ⟨normalized, by simp [same]⟩

/-- No currency has more than three decimal places. -/
theorem currencyMaxFractionDigits_le (currency : String) :
    currencyMaxFractionDigits currency ≤ 3 := by
  have listed : ∀ entry ∈ paymentCurrencyAmountUnits, entry.2.maxFractionDigits ≤ 3 := by decide
  unfold currencyMaxFractionDigits
  rcases paymentCurrencyAmountUnitFor_mem currency with two | ⟨normalized, mem⟩
  · rw [two]
    decide
  · generalize paymentCurrencyAmountUnitFor currency = unit at mem
    exact listed (normalized, unit) mem

/-- What is converted has no more decimal places than any currency has. -/
theorem amountToMinorUnit_onGrid {amount : ℚ} {currency : String} {minor : ℤ}
    (converted : amountToMinorUnit amount currency = .ok minor) : OnGrid 3 amount := by
  unfold amountToMinorUnit at converted
  cases normalized : normalizePaymentCurrency currency with
  | error error =>
      rw [normalized] at converted
      cases converted
  | ok normalizedCurrency =>
      rw [normalized] at converted
      simp only [bind, Except.bind] at converted
      have digits := currencyMaxFractionDigits_le normalizedCurrency
      unfold currencyMaxFractionDigits at digits
      generalize paymentCurrencyAmountUnitFor normalizedCurrency = amountUnit at converted digits
      by_contra off
      have coarse : ¬ OnGrid amountUnit.maxFractionDigits amount := fun grid => off (grid.mono digits)
      rw [if_pos coarse] at converted
      split at converted <;> cases converted

end Sub2api.Payment

/-!
### Credits and refunds of a payment

Amounts are exact decimals, and a quotient has sixteen decimal places. `PrepareRefund` is modelled
from the order on, where its provider allows refunds.
-/

namespace Sub2api.Payment

open Database

def defaultBalanceRechargeMultiplier : ℚ := 1

def normalizeBalanceRechargeMultiplier (multiplier : ℚ) : ℚ :=
  if multiplier ≤ 0 then defaultBalanceRechargeMultiplier else multiplier

def calculateCreditedBalance (paymentAmount multiplier : ℚ) : ℚ :=
  roundScale 2 (paymentAmount * normalizeBalanceRechargeMultiplier multiplier)

/-- `decimal.Decimal.Div`. -/
def decimalDiv (a b : ℚ) : ℚ := roundScale 16 (a / b)

def calculateGatewayRefundAmount (orderAmount payAmount refundAmount : ℚ) (currency : String) : ℚ :=
  if orderAmount ≤ 0 ∨ payAmount ≤ 0 ∨ refundAmount ≤ 0 then 0
  else
    let fractionDigits := currencyMaxFractionDigits currency
    if |refundAmount - orderAmount| ≤ paymentAmountToleranceForCurrency currency then
      roundScale fractionDigits payAmount
    else roundScale fractionDigits (decimalDiv (payAmount * refundAmount) orderAmount)

/-- What `PrepareRefund` reads of an order. -/
structure PaidOrder where
  status : OrderStatus := .completed
  amount : Numeric 2
  payAmount : Numeric 2
  currency : String := defaultPaymentCurrency

structure RefundPlan where
  refundAmount : ℚ
  gatewayAmount : ℚ
  deriving DecidableEq

structure RefundError where
  reason : String
  message : String
  deriving DecidableEq

def prepareRefund (o : PaidOrder) (amt : ℚ) : Except RefundError RefundPlan :=
  if o.status ∉ [.completed, .refundRequested, .refundFailed] then
    .error ⟨"INVALID_STATUS", "order status does not allow refund"⟩
  else
    let amt := if amt ≤ 0 then o.amount.value else amt
    if paymentAmountToleranceForCurrency o.currency < amt - o.amount.value then
      .error ⟨"REFUND_AMOUNT_EXCEEDED", "refund amount exceeds recharge"⟩
    else .ok {
      refundAmount := amt
      gatewayAmount := calculateGatewayRefundAmount o.amount.value o.payAmount.value amt o.currency }

/-! ### Gateway amounts -/

section Gateway

theorem decimalDiv_mono {a a' b : ℚ} (positive : 0 < b) (le : a ≤ a') :
    decimalDiv a b ≤ decimalDiv a' b :=
  roundScale_mono (div_le_div_of_nonneg_right le positive.le)

variable {o : PaidOrder} {amt : ℚ} {plan : RefundPlan}

/-- A plan's amounts, and how much the refund may exceed the order. -/
theorem prepareRefund_ok (prepared : prepareRefund o amt = .ok plan) :
    plan.refundAmount = (if amt ≤ 0 then o.amount.value else amt) ∧
      plan.gatewayAmount = calculateGatewayRefundAmount o.amount.value o.payAmount.value
        plan.refundAmount o.currency ∧
      plan.refundAmount - o.amount.value ≤ paymentAmountToleranceForCurrency o.currency := by
  unfold prepareRefund at prepared
  dsimp only at prepared
  generalize (if amt ≤ 0 then o.amount.value else amt) = refundAmount at prepared ⊢
  split at prepared
  · cases prepared
  · split at prepared
    · cases prepared
    · rename_i exceeds
      cases prepared
      exact ⟨rfl, rfl, not_lt.mp exceeds⟩

/-- A proportional amount is at most the proportion and half a unit of both roundings. -/
theorem share_le (orderAmount payAmount refundAmount : ℚ) (digits : ℕ) :
    roundScale digits (decimalDiv (payAmount * refundAmount) orderAmount) ≤
      payAmount * refundAmount / orderAmount + 1 / 2 / 10 ^ 16 + 1 / 2 / 10 ^ digits := by
  have outer := (abs_le.mp (abs_roundScale_sub_le digits
    (decimalDiv (payAmount * refundAmount) orderAmount))).2
  have inner := (abs_le.mp (abs_roundScale_sub_le 16
    (payAmount * refundAmount / orderAmount))).2
  unfold decimalDiv at *
  linarith

/-- Without an amount that was paid nothing is refunded. -/
theorem gateway_of_nothing (nothing : o.amount.value ≤ 0 ∨ o.payAmount.value ≤ 0)
    (refundAmount : ℚ) : calculateGatewayRefundAmount o.amount.value o.payAmount.value refundAmount
      o.currency = 0 :=
  if_pos (nothing.imp_right Or.inl)

variable (paid : 0 < o.amount.value) (received : 0 < o.payAmount.value) {refundAmount : ℚ}

include paid in
theorem refundAmount_pos (prepared : prepareRefund o amt = .ok plan) : 0 < plan.refundAmount := by
  rw [(prepareRefund_ok prepared).1]
  split
  · exact paid
  · rename_i some_
    exact not_le.mp some_

include paid received

/-- The amount of a refund of the whole order. -/
theorem gateway_of_whole (some_ : 0 < refundAmount)
    (near : |refundAmount - o.amount.value| ≤ paymentAmountToleranceForCurrency o.currency) :
    calculateGatewayRefundAmount o.amount.value o.payAmount.value refundAmount o.currency =
      roundScale (currencyMaxFractionDigits o.currency) o.payAmount.value := by
  unfold calculateGatewayRefundAmount
  rw [if_neg (by simp [paid, received, some_])]
  exact if_pos near

/-- The amount of a refund of a part. -/
theorem gateway_of_part (some_ : 0 < refundAmount)
    (away : ¬ |refundAmount - o.amount.value| ≤ paymentAmountToleranceForCurrency o.currency) :
    calculateGatewayRefundAmount o.amount.value o.payAmount.value refundAmount o.currency =
      roundScale (currencyMaxFractionDigits o.currency)
        (decimalDiv (o.payAmount.value * refundAmount) o.amount.value) := by
  unfold calculateGatewayRefundAmount
  rw [if_neg (by simp [paid, received, some_])]
  exact if_neg away

/-- A part is less than the whole. -/
theorem gateway_part_le (less : refundAmount ≤ o.amount.value) :
    roundScale (currencyMaxFractionDigits o.currency)
        (decimalDiv (o.payAmount.value * refundAmount) o.amount.value) ≤
      roundScale (currencyMaxFractionDigits o.currency) o.payAmount.value := by
  have whole : decimalDiv (o.payAmount.value * o.amount.value) o.amount.value =
      o.payAmount.value := by
    unfold decimalDiv
    rw [mul_div_cancel_right₀ _ paid.ne',
      roundScale_of_onGrid (o.payAmount.onGrid_value.mono (by omega))]
  apply roundScale_mono
  rw [← whole]
  exact decimalDiv_mono paid (by rw [whole]; exact mul_le_mul_of_nonneg_left less received.le)

theorem gateway_le (some_ : 0 < refundAmount)
    (accepted : refundAmount - o.amount.value ≤ paymentAmountToleranceForCurrency o.currency) :
    calculateGatewayRefundAmount o.amount.value o.payAmount.value refundAmount o.currency ≤
      roundScale (currencyMaxFractionDigits o.currency) o.payAmount.value := by
  by_cases near : |refundAmount - o.amount.value| ≤ paymentAmountToleranceForCurrency o.currency
  · exact (gateway_of_whole paid received some_ near).le
  · rw [gateway_of_part paid received some_ near]
    apply gateway_part_le paid received
    by_contra more
    rw [abs_of_pos (sub_pos.mpr (not_le.mp more))] at near
    exact near accepted

theorem gateway_mono {refundAmount' : ℚ} (some_ : 0 < refundAmount)
    (le : refundAmount ≤ refundAmount')
    (accepted : refundAmount' - o.amount.value ≤ paymentAmountToleranceForCurrency o.currency) :
    calculateGatewayRefundAmount o.amount.value o.payAmount.value refundAmount o.currency ≤
      calculateGatewayRefundAmount o.amount.value o.payAmount.value refundAmount' o.currency := by
  have some' : 0 < refundAmount' := some_.trans_le le
  by_cases near : |refundAmount' - o.amount.value| ≤ paymentAmountToleranceForCurrency o.currency
  · rw [gateway_of_whole paid received some' near]
    exact gateway_le paid received some_ (by linarith)
  · have away : ¬ |refundAmount - o.amount.value| ≤
        paymentAmountToleranceForCurrency o.currency := by
      intro close
      exact near (abs_le.mpr ⟨by linarith [(abs_le.mp close).1], accepted⟩)
    rw [gateway_of_part paid received some' near, gateway_of_part paid received some_ away]
    exact roundScale_mono (decimalDiv_mono paid (mul_le_mul_of_nonneg_left le received.le))

end Gateway

/-- The refunds are accepted one by one, each of a part of the order. -/
def Parts (o : PaidOrder) (plans : List RefundPlan) : Prop :=
  ∀ plan ∈ plans, (∃ amt, prepareRefund o amt = .ok plan) ∧
    paymentAmountToleranceForCurrency o.currency < |plan.refundAmount - o.amount.value|

/-- Half a unit of the currency, and of the quotient. -/
def roundingSlack (currency : String) : ℚ :=
  1 / 2 / 10 ^ currencyMaxFractionDigits currency + 1 / 2 / 10 ^ 16

theorem parts_sum_le {o : PaidOrder} (paid : 0 < o.amount.value) (received : 0 < o.payAmount.value)
    {plans : List RefundPlan} (parts : Parts o plans) :
    (plans.map RefundPlan.gatewayAmount).sum ≤
      o.payAmount.value * (plans.map RefundPlan.refundAmount).sum / o.amount.value +
        plans.length * roundingSlack o.currency := by
  induction plans with
  | nil => simp
  | cons plan rest ih =>
      have later := ih fun other mem => parts other (List.mem_cons_of_mem _ mem)
      obtain ⟨⟨amt, prepared⟩, away⟩ := parts plan List.mem_cons_self
      have one : plan.gatewayAmount ≤
          o.payAmount.value * plan.refundAmount / o.amount.value + roundingSlack o.currency := by
        rw [(prepareRefund_ok prepared).2.1, gateway_of_part paid received
          (refundAmount_pos paid prepared) (not_le.mpr away)]
        have share := share_le o.amount.value o.payAmount.value plan.refundAmount
          (currencyMaxFractionDigits o.currency)
        unfold roundingSlack
        linarith
      simp only [List.map_cons, List.sum_cons, List.length_cons, Nat.cast_succ]
      rw [mul_add, add_div]
      linarith

/-- The gateway amounts of an order grow with the refund, are bounded by the rounded pay amount, and
come to it for the whole order; those of its parts exceed the pay amount by the roundings at most.
Where nothing was ordered or paid they are zero. -/
theorem gatewayAmounts_sound (o : PaidOrder) :
    (o.amount.value ≤ 0 ∨ o.payAmount.value ≤ 0 → ∀ amt plan, prepareRefund o amt = .ok plan →
      plan.gatewayAmount = 0) ∧
    (0 < o.amount.value → 0 < o.payAmount.value →
      (∀ amt amt' plan plan', prepareRefund o amt = .ok plan → prepareRefund o amt' = .ok plan' →
        plan.refundAmount ≤ plan'.refundAmount → plan.gatewayAmount ≤ plan'.gatewayAmount) ∧
      (∀ amt plan, prepareRefund o amt = .ok plan →
        plan.gatewayAmount ≤ roundScale (currencyMaxFractionDigits o.currency) o.payAmount.value) ∧
      (∀ amt plan, prepareRefund o amt = .ok plan →
        |plan.refundAmount - o.amount.value| ≤ paymentAmountToleranceForCurrency o.currency →
        plan.gatewayAmount = roundScale (currencyMaxFractionDigits o.currency) o.payAmount.value) ∧
      ∀ plans, Parts o plans → (plans.map RefundPlan.refundAmount).sum = o.amount.value →
        (plans.map RefundPlan.gatewayAmount).sum ≤
          o.payAmount.value + plans.length * roundingSlack o.currency) := by
  constructor
  · intro nothing amt plan prepared
    rw [(prepareRefund_ok prepared).2.1]
    exact gateway_of_nothing nothing _
  intro paid received
  refine ⟨?_, ?_, ?_, ?_⟩
  · intro amt amt' plan plan' prepared prepared' le
    rw [(prepareRefund_ok prepared).2.1, (prepareRefund_ok prepared').2.1]
    exact gateway_mono paid received (refundAmount_pos paid prepared) le
      (prepareRefund_ok prepared').2.2
  · intro amt plan prepared
    rw [(prepareRefund_ok prepared).2.1]
    exact gateway_le paid received (refundAmount_pos paid prepared) (prepareRefund_ok prepared).2.2
  · intro amt plan prepared near
    rw [(prepareRefund_ok prepared).2.1]
    exact gateway_of_whole paid received (refundAmount_pos paid prepared) near
  · intro plans parts whole
    have sum := parts_sum_le paid received parts
    rw [whole, mul_div_cancel_right₀ _ paid.ne'] at sum
    exact sum

/-- An order over 1.00 that was paid with 1.01. -/
def oddOrder : PaidOrder where
  amount := ⟨100⟩
  payAmount := ⟨101⟩

theorem oddOrder_sound :
    prepareRefund oddOrder (1 / 2) = .ok ⟨1 / 2, 51 / 100⟩ ∧
      (51 / 100 : ℚ) ≤ roundScale (currencyMaxFractionDigits oddOrder.currency)
        oddOrder.payAmount.value := by
  have prepared : prepareRefund oddOrder (1 / 2) = .ok ⟨1 / 2, 51 / 100⟩ := by decide +kernel
  have sound := (gatewayAmounts_sound oddOrder).2 (by decide +kernel) (by decide +kernel)
  exact ⟨prepared, sound.2.1 _ _ prepared⟩

/-- An order whose credit was rounded down to nothing. -/
def emptyOrder : PaidOrder where
  amount := ⟨0⟩
  payAmount := ⟨1⟩

/-- The two halves come to more than was paid, and of an order without a credit nothing is refunded,
though all of it is. -/
theorem oddOrder_halves :
    (prepareRefund oddOrder (1 / 2) = .ok ⟨1 / 2, 51 / 100⟩ ∧
      (1 / 2 : ℚ) + 1 / 2 = oddOrder.amount.value ∧
      roundScale (currencyMaxFractionDigits oddOrder.currency) oddOrder.payAmount.value <
        51 / 100 + 51 / 100) ∧
    prepareRefund emptyOrder 0 = .ok ⟨0, 0⟩ ∧
      0 < roundScale (currencyMaxFractionDigits emptyOrder.currency) emptyOrder.payAmount.value := by
  decide +kernel

end Sub2api.Payment
