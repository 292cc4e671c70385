import Sub2api.Database.Numeric
import Sub2api.Database.Table
import Sub2api.Database.Transaction
import Sub2api.Go.Strings

/-!
# Usage commands and the tables they change

Rows carry the columns the billing statements read or write. Money columns are `Numeric` of the
scale their migration declares; the quota numbers of an account live in a JSON document and are
unbounded numerics. Instants are microseconds since the epoch.
-/

namespace Sub2api.Billing

open Database

/-- A `timestamptz`, in microseconds since the epoch. -/
abbrev Time := ℤ

def second : Time := 1000000
def hour : Time := 3600 * second
def day : Time := 24 * hour

/-- The time-zone database and the session's `TimeZone`: `AT TIME ZONE` in both directions. -/
structure Calendar where
  sessionTimezone : String
  toLocal : String → Time → Time
  ofLocal : String → Time → Time

namespace Calendar

/-- `date_trunc('day', …)` of a local timestamp. -/
def truncDay (t : Time) : Time := t / day * day

/-- `EXTRACT(DOW FROM …)` of a local timestamp; the epoch was a Thursday. -/
def dayOfWeek (t : Time) : ℤ := (t / day + 4) % 7

/-- `date_trunc('day', NOW())` in the session's time zone. -/
def startOfDay (cal : Calendar) (now : Time) : Time :=
  cal.ofLocal cal.sessionTimezone (truncDay (cal.toLocal cal.sessionTimezone now))

/-- `'1970-01-01'::timestamptz`. -/
def epochDay (cal : Calendar) : Time := cal.ofLocal cal.sessionTimezone 0

/-- The calendar of UTC. -/
def utc : Calendar := { sessionTimezone := "UTC", toLocal := fun _ t => t, ofLocal := fun _ t => t }

end Calendar

structure User where
  balance : Numeric 8
  frozenBalance : Numeric 8 := ⟨0⟩
  deleted : Bool := false

structure Group where
  deleted : Bool := false

structure UserSubscription where
  groupID : ℤ
  dailyUsageUSD : Numeric 10 := ⟨0⟩
  weeklyUsageUSD : Numeric 10 := ⟨0⟩
  monthlyUsageUSD : Numeric 10 := ⟨0⟩
  deleted : Bool := false

inductive APIKeyStatus where
  | active
  | disabled
  | quotaExhausted
  | expired
  deriving DecidableEq

/-- One rolling rate-limit window of an API key: its usage and its start column. -/
structure RateLimitWindow where
  usage : Numeric 8 := ⟨0⟩
  start : Option Time := none

structure APIKey where
  quota : Numeric 8 := ⟨0⟩
  quotaUsed : Numeric 8 := ⟨0⟩
  status : APIKeyStatus := .active
  window5h : RateLimitWindow := {}
  window1d : RateLimitWindow := {}
  window7d : RateLimitWindow := {}
  deleted : Bool := false

/-- The daily or weekly quota of an account, as the keys of its `extra` document; an absent key
is `none`. `fixed` tells the reset mode `"fixed"` from rolling. -/
structure PeriodQuota where
  used : Option (WithTop ℚ) := none
  limit : Option (WithTop ℚ) := none
  start : Option Time := none
  fixed : Bool := false
  resetAt : Option Time := none
  resetHour : Option ℤ := none
  resetDay : Option ℤ := none

structure Account where
  quotaUsed : Option (WithTop ℚ) := none
  quotaLimit : Option (WithTop ℚ) := none
  daily : PeriodQuota := {}
  weekly : PeriodQuota := {}
  resetTimezone : Option String := none
  deleted : Bool := false

/-- The unique index of the dedup tables: request id and API key. -/
abbrev DedupKey := String × ℤ

structure DedupRow where
  requestFingerprint : String
  createdAt : Time

structure Db where
  users : Table ℤ User := fun _ => none
  groups : Table ℤ Group := fun _ => none
  subscriptions : Table ℤ UserSubscription := fun _ => none
  apiKeys : Table ℤ APIKey := fun _ => none
  accounts : Table ℤ Account := fun _ => none
  /-- Accounts with a pending `account_changed` event. -/
  schedulerOutbox : List ℤ := []
  usageBillingDedup : Table DedupKey DedupRow := fun _ => none
  usageBillingDedupArchive : Table DedupKey DedupRow := fun _ => none

inductive BillingError where
  | usageBillingRequestIDRequired
  | usageBillingRequestConflict
  | subscriptionNotFound
  | userNotFound
  | apiKeyNotFound
  | accountNotFound
  | batchImageInsufficientBalance
  | batchImageSettlementCostExceedsHold
  | frozenBalanceInsufficient
  /-- `sql.ErrNoRows` out of a row that vanished between two statements. -/
  | noRows
  /-- A value the column's type refuses. -/
  | numericOverflow
  /-- The database or the connection failed. -/
  | database
  deriving DecidableEq

/-- A billing transaction's body. -/
abbrev BillingTx (α : Type) := Tx Db BillingError α

/-- A parameter of a `NUMERIC(p, s)` expression; an infinite one overflows the column. -/
def numericParam : WithTop ℚ → Except BillingError ℚ
  | some v => .ok v
  | none => .error .numericOverflow

end Sub2api.Billing

/-!
### Billing commands

`UsageBillingCommand` is one billable request and `BatchImageBalanceHoldCommand` one operation on
a batch's hold. Both carry a request id and a fingerprint, which `Normalize` derives from the raw
amounts when the caller gave none; a usage command's amounts are quantized only after that.

`onGrid_of_quantize_positive` is why a column of eight decimal places takes an amount unrounded.
-/

namespace Sub2api.Billing

open Database Go

/-- Parts of Go that the commands rest on: `hex(sha256(·))`, the verb `%0.10f`, and the product
and difference of two `float64` by the shortest decimals of operands and result. -/
structure Runtime where
  sha256Hex : String → String
  formatFixed10 : Float64 → String
  mulFloat64 : ℚ → ℚ → ℚ := (· * ·)
  subFloat64 : ℚ → ℚ → ℚ := (· - ·)

structure UsageBillingCommand where
  requestID : String := ""
  apiKeyID : ℤ := 0
  requestFingerprint : String := ""
  requestPayloadHash : String := ""
  userID : ℤ := 0
  accountID : ℤ := 0
  subscriptionID : Option ℤ := none
  accountType : String := ""
  model : String := ""
  serviceTier : String := ""
  reasoningEffort : String := ""
  billingType : ℤ := 0
  inputTokens : ℤ := 0
  outputTokens : ℤ := 0
  cacheCreationTokens : ℤ := 0
  cacheReadTokens : ℤ := 0
  imageCount : ℤ := 0
  mediaType : String := ""
  balanceCost : Float64 := .finite 0
  subscriptionCost : Float64 := .finite 0
  apiKeyQuotaCost : Float64 := .finite 0
  apiKeyRateLimitCost : Float64 := .finite 0
  accountQuotaCost : Float64 := .finite 0
  deriving DecidableEq

def usageBillingMonetaryScale : ℕ := 8

/-- Decimal rounding of the shortest decimal; zero, NaN and the infinities pass through. -/
def quantizeUsageBillingAmount : Float64 → Float64
  | .finite v => if v = 0 then .finite v else .finite (roundScale usageBillingMonetaryScale v)
  | v => v

def joinFields (fields : List String) : String := String.intercalate "|" fields

/-- Appends the payload hash to the fingerprint's text when there is one. -/
def withPayloadHash (raw payloadHash : String) : String :=
  if trimSpace payloadHash ≠ "" then raw ++ "|" ++ trimSpace payloadHash else raw

namespace UsageBillingCommand

def buildUsageBillingFingerprint (rt : Runtime) (c : UsageBillingCommand) : String :=
  let raw := joinFields
    [ toString c.userID, toString c.accountID, toString c.apiKeyID,
      trimSpace c.accountType, trimSpace c.model, trimSpace c.serviceTier,
      trimSpace c.reasoningEffort, toString c.billingType, toString c.inputTokens,
      toString c.outputTokens, toString c.cacheCreationTokens, toString c.cacheReadTokens,
      toString c.imageCount, trimSpace c.mediaType, toString (c.subscriptionID.getD 0),
      rt.formatFixed10 c.balanceCost, rt.formatFixed10 c.subscriptionCost,
      rt.formatFixed10 c.apiKeyQuotaCost, rt.formatFixed10 c.apiKeyRateLimitCost,
      rt.formatFixed10 c.accountQuotaCost ]
  rt.sha256Hex (withPayloadHash raw c.requestPayloadHash)

def quantizeMonetaryFields (c : UsageBillingCommand) : UsageBillingCommand :=
  { c with
    balanceCost := quantizeUsageBillingAmount c.balanceCost
    subscriptionCost := quantizeUsageBillingAmount c.subscriptionCost
    apiKeyQuotaCost := quantizeUsageBillingAmount c.apiKeyQuotaCost
    apiKeyRateLimitCost := quantizeUsageBillingAmount c.apiKeyRateLimitCost
    accountQuotaCost := quantizeUsageBillingAmount c.accountQuotaCost }

/-- The fingerprint the caller gave, or the derived one when it is blank. -/
def fingerprinted (rt : Runtime) (c : UsageBillingCommand) : UsageBillingCommand :=
  if trimSpace c.requestFingerprint = "" then
    { c with requestFingerprint := buildUsageBillingFingerprint rt c }
  else c

def normalize (rt : Runtime) (c : UsageBillingCommand) : UsageBillingCommand :=
  (fingerprinted rt { c with requestID := trimSpace c.requestID }).quantizeMonetaryFields

/-- The pair the dedup tables are unique in. -/
def dedupKey (c : UsageBillingCommand) : DedupKey := (c.requestID, c.apiKeyID)

end UsageBillingCommand

structure BatchImageBalanceHoldCommand where
  requestID : String
  apiKeyID : ℤ
  requestFingerprint : String := ""
  requestPayloadHash : String := ""
  userID : ℤ
  batchID : String
  holdAmount : ℚ
  actualAmount : ℚ := 0

namespace BatchImageBalanceHoldCommand

def buildBatchImageBalanceHoldFingerprint (rt : Runtime) (c : BatchImageBalanceHoldCommand) :
    String :=
  let raw := joinFields
    [ toString c.userID, toString c.apiKeyID, trimSpace c.batchID,
      rt.formatFixed10 (.finite c.holdAmount), rt.formatFixed10 (.finite c.actualAmount) ]
  rt.sha256Hex (withPayloadHash raw c.requestPayloadHash)

/-- The fingerprint the caller gave, or the derived one when it is blank. -/
def fingerprinted (rt : Runtime) (c : BatchImageBalanceHoldCommand) :
    BatchImageBalanceHoldCommand :=
  if trimSpace c.requestFingerprint = "" then
    { c with requestFingerprint := buildBatchImageBalanceHoldFingerprint rt c }
  else c

def normalize (rt : Runtime) (c : BatchImageBalanceHoldCommand) : BatchImageBalanceHoldCommand :=
  fingerprinted rt
    { c with requestID := trimSpace c.requestID, batchID := trimSpace c.batchID }

end BatchImageBalanceHoldCommand

/-- A finite amount that survives quantizing as positive is on the grid of the money columns. -/
theorem onGrid_of_quantize_positive {v : Float64} {amount : ℚ}
    (positive : (quantizeUsageBillingAmount v).positive = some (amount : WithTop ℚ)) :
    OnGrid 8 amount := by
  cases v with
  | finite v =>
    by_cases zero : v = 0
    · simp [quantizeUsageBillingAmount, Float64.positive, zero] at positive
    · simp only [quantizeUsageBillingAmount, Float64.positive, zero, if_false] at positive
      split at positive
      · simp only [Option.some.injEq, WithTop.coe_inj] at positive
        exact positive ▸ onGrid_roundScale 8 v
      · simp at positive
  | posInf => simp [quantizeUsageBillingAmount, Float64.positive] at positive
  | negInf => simp [quantizeUsageBillingAmount, Float64.positive] at positive
  | nan => simp [quantizeUsageBillingAmount, Float64.positive] at positive

end Sub2api.Billing
