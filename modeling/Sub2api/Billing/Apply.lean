import Sub2api.Billing.Effects

/-!
# Applying a usage command

`apply` is one call of the repository: normalize, claim, bill the five effects and commit. What a
committed command costs each row is its `Charge`, with the rules by which an effect is skipped,
and `applyUsageBillingEffects_ok` says that the effects charge exactly that.
-/

namespace Sub2api.Billing

open Database Go

structure UsageBillingApplyResult where
  applied : Bool := false
  apiKeyQuotaExhausted : Bool := false
  newBalance : Option ℚ := none
  balanceOverdrafted : Bool := false
  quotaState : Option AccountQuotaState := none
  deriving DecidableEq

def accountTypeAPIKey : String := "apikey"
def accountTypeBedrock : String := "bedrock"

/-- The account types whose quota is billed. -/
def billsAccountQuota (accountType : String) : Bool :=
  equalFold accountType accountTypeAPIKey || equalFold accountType accountTypeBedrock

def billSubscription (cmd : UsageBillingCommand) : BillingTx Unit :=
  match cmd.subscriptionCost.positive, cmd.subscriptionID with
  | some cost, some id => incrementUsageBillingSubscription id cost
  | _, _ => pure ()

def billBalance (cmd : UsageBillingCommand) (result : UsageBillingApplyResult) :
    BillingTx UsageBillingApplyResult :=
  match cmd.balanceCost.positive with
  | some cost => do
    let (newBalance, sufficient) ← deductUsageBillingBalance cmd.userID cost
    pure { result with newBalance := some newBalance, balanceOverdrafted := !sufficient }
  | none => pure result

/-- A key that is gone is not an error: its own counters are skipped. -/
def billAPIKeyQuota (cmd : UsageBillingCommand) (result : UsageBillingApplyResult) :
    BillingTx UsageBillingApplyResult :=
  match cmd.apiKeyQuotaCost.positive with
  | some cost => do
    let exhausted ← incrementUsageBillingAPIKeyQuota cmd.apiKeyID cost
    pure { result with apiKeyQuotaExhausted := exhausted.getD false }
  | none => pure result

def billAPIKeyRateLimit (cal : Calendar) (now : Time) (cmd : UsageBillingCommand) :
    BillingTx Unit :=
  match cmd.apiKeyRateLimitCost.positive with
  | some cost => do
    let _ ← incrementUsageBillingAPIKeyRateLimit cal now cmd.apiKeyID cost
    pure ()
  | none => pure ()

def billAccountQuota (cal : Calendar) (now : Time) (cmd : UsageBillingCommand)
    (result : UsageBillingApplyResult) : BillingTx UsageBillingApplyResult :=
  match cmd.accountQuotaCost.positive with
  | some cost =>
    if billsAccountQuota cmd.accountType then do
      let state ← incrementUsageBillingAccountQuota cal now cmd.accountID cost
      pure { result with quotaState := some state }
    else pure result
  | none => pure result

def applyUsageBillingEffects (cal : Calendar) (now : Time) (cmd : UsageBillingCommand)
    (result : UsageBillingApplyResult) : BillingTx UsageBillingApplyResult := do
  billSubscription cmd
  let result ← billBalance cmd result
  let result ← billAPIKeyQuota cmd result
  billAPIKeyRateLimit cal now cmd
  billAccountQuota cal now cmd result

def applyBody (cal : Calendar) (now : Time) (cmd : UsageBillingCommand) :
    BillingTx (Ending UsageBillingApplyResult) := do
  let applied ← claimUsageBillingRequest cmd.dedupKey cmd.requestFingerprint now
  if applied then
    let result ← applyUsageBillingEffects cal now cmd { applied := true }
    pure (.commit result)
  else pure (.rollback { applied := false })

/-- `usageBillingRepository.Apply`: its answer and the database after it. -/
def apply (rt : Runtime) (cal : Calendar) (now : Time) (faults : Faults BillingError)
    (cmd : Option UsageBillingCommand) (db : Db) :
    Except BillingError UsageBillingApplyResult × Db :=
  match cmd with
  | none => (.ok {}, db)
  | some cmd =>
    let cmd := cmd.normalize rt
    if cmd.requestID = "" then (.error .usageBillingRequestIDRequired, db)
    else transact (applyBody cal now cmd) faults db

/-! ### Charges -/

def balanceOf (db : Db) : ℤ → ℚ := db.users.read (·.balance.value)
def dailyUsageOf (db : Db) : ℤ → ℚ := db.subscriptions.read (·.dailyUsageUSD.value)
def weeklyUsageOf (db : Db) : ℤ → ℚ := db.subscriptions.read (·.weeklyUsageUSD.value)
def monthlyUsageOf (db : Db) : ℤ → ℚ := db.subscriptions.read (·.monthlyUsageUSD.value)
def apiKeyQuotaUsedOf (db : Db) : ℤ → ℚ := db.apiKeys.read (·.quotaUsed.value)
def accountQuotaUsedOf (db : Db) : ℤ → WithTop ℚ := db.accounts.read (·.quotaUsed.getD 0)

/-- Whether the key exists and is not deleted. -/
def apiKeyLive (db : Db) (id : ℤ) : Bool :=
  match db.apiKeys id with
  | some key => !key.deleted
  | none => false

/-- The amount a positive cost moves a bounded column by. -/
def amountOf (cost : Float64) : ℚ :=
  match cost.positive with
  | some (some amount) => amount
  | _ => 0

/-- What a committed command costs each row. -/
structure Charge where
  balance : ℤ → ℚ
  subscription : ℤ → ℚ
  apiKeyQuota : ℤ → ℚ
  accountQuota : ℤ → WithTop ℚ

/-- The charge of a command, with the effects its data or a missing key skip. -/
def chargeOf (keyLive : ℤ → Bool) (cmd : UsageBillingCommand) : Charge :=
  { balance := fun user => if user = cmd.userID then amountOf cmd.balanceCost else 0
    subscription := fun sub =>
      if some sub = cmd.subscriptionID then amountOf cmd.subscriptionCost else 0
    apiKeyQuota := fun key =>
      if key = cmd.apiKeyID ∧ keyLive key then amountOf cmd.apiKeyQuotaCost else 0
    accountQuota := fun account =>
      if account = cmd.accountID ∧ billsAccountQuota cmd.accountType then
        cmd.accountQuotaCost.positive.getD 0
      else 0 }

/-- `db'` is `db` with one command's charge on it; claims and the liveness of keys stay. -/
structure Charged (cmd : UsageBillingCommand) (db db' : Db) : Prop where
  balance : ∀ u, balanceOf db' u = balanceOf db u - (chargeOf (apiKeyLive db) cmd).balance u
  daily : ∀ i, dailyUsageOf db' i =
    dailyUsageOf db i + (chargeOf (apiKeyLive db) cmd).subscription i
  weekly : ∀ i, weeklyUsageOf db' i =
    weeklyUsageOf db i + (chargeOf (apiKeyLive db) cmd).subscription i
  monthly : ∀ i, monthlyUsageOf db' i =
    monthlyUsageOf db i + (chargeOf (apiKeyLive db) cmd).subscription i
  apiKeyQuota : ∀ k, apiKeyQuotaUsedOf db' k =
    apiKeyQuotaUsedOf db k + (chargeOf (apiKeyLive db) cmd).apiKeyQuota k
  accountQuota : ∀ a, accountQuotaUsedOf db' a =
    accountQuotaUsedOf db a + (chargeOf (apiKeyLive db) cmd).accountQuota a
  keyLive : apiKeyLive db' = apiKeyLive db
  live : db'.usageBillingDedup = db.usageBillingDedup
  archive : db'.usageBillingDedupArchive = db.usageBillingDedupArchive

/-- The amounts of a normalized command are on the grid of the money columns. -/
structure Quantized (cmd : UsageBillingCommand) : Prop where
  balance : ∀ q : ℚ, cmd.balanceCost.positive = some (q : WithTop ℚ) → OnGrid 8 q
  subscription : ∀ q : ℚ, cmd.subscriptionCost.positive = some (q : WithTop ℚ) → OnGrid 8 q
  apiKeyQuota : ∀ q : ℚ, cmd.apiKeyQuotaCost.positive = some (q : WithTop ℚ) → OnGrid 8 q

theorem quantizeMonetaryFields_quantized (cmd : UsageBillingCommand) :
    Quantized cmd.quantizeMonetaryFields :=
  { balance := fun _ positive => onGrid_of_quantize_positive positive
    subscription := fun _ positive => onGrid_of_quantize_positive positive
    apiKeyQuota := fun _ positive => onGrid_of_quantize_positive positive }

theorem normalize_quantized (rt : Runtime) (cmd : UsageBillingCommand) :
    Quantized (cmd.normalize rt) := by
  unfold UsageBillingCommand.normalize
  exact quantizeMonetaryFields_quantized _

section Steps

variable {cal : Calendar} {now : Time} {cmd : UsageBillingCommand}
  {result out : UsageBillingApplyResult} {faults : Faults BillingError} {n m : ℕ} {db db' : Db}

/-- A subscription cost that is not positive, or names no subscription, changes nothing. -/
theorem billSubscription_skipped
    (skipped : ∀ cost id, cmd.subscriptionCost.positive = some cost →
      cmd.subscriptionID = some id → False)
    (ran : billSubscription cmd faults (n, db) = .ok ((), (m, db'))) :
    db' = db ∧ ∀ i, (chargeOf (apiKeyLive db) cmd).subscription i = 0 := by
  cases positive : cmd.subscriptionCost.positive with
  | none =>
    simp only [billSubscription, positive, Tx.pure_eq_ok, true_and] at ran
    exact ⟨ran.2.symm, fun i => by simp [chargeOf, amountOf, positive]⟩
  | some cost =>
    cases subscribed : cmd.subscriptionID with
    | none =>
      simp only [billSubscription, positive, subscribed, Tx.pure_eq_ok, true_and] at ran
      exact ⟨ran.2.symm, fun i => by simp [chargeOf, subscribed]⟩
    | some id => exact (skipped cost id positive subscribed).elim

theorem billSubscription_ok (quantized : Quantized cmd)
    (ran : billSubscription cmd faults (n, db) = .ok ((), (m, db'))) :
    ∃ table, db' = { db with subscriptions := table } ∧ ∀ i,
      dailyUsageOf db' i = dailyUsageOf db i + (chargeOf (apiKeyLive db) cmd).subscription i ∧
      weeklyUsageOf db' i = weeklyUsageOf db i + (chargeOf (apiKeyLive db) cmd).subscription i ∧
      monthlyUsageOf db' i =
        monthlyUsageOf db i + (chargeOf (apiKeyLive db) cmd).subscription i := by
  by_cases billed : ∃ cost id, cmd.subscriptionCost.positive = some cost ∧
      cmd.subscriptionID = some id
  · obtain ⟨cost, id, positive, subscribed⟩ := billed
    simp only [billSubscription, positive, subscribed] at ran
    obtain ⟨us, amount, rfl, found, rfl⟩ := incrementUsageBillingSubscription_ok ran
    have grid : OnGrid 10 amount := (quantized.subscription amount positive).mono (by decide)
    have charge (i : ℤ) : (chargeOf (apiKeyLive db) cmd).subscription i =
        if i = id then amount else 0 := by
      simp only [chargeOf, amountOf, positive, subscribed, Option.some.injEq]
    refine ⟨_, rfl, fun i => ?_⟩
    simp only [charge]
    refine ⟨?_, ?_, ?_⟩
    · exact Table.read_update_add found (Numeric.value_store_add us.dailyUsageUSD grid) i
    · exact Table.read_update_add found (Numeric.value_store_add us.weeklyUsageUSD grid) i
    · exact Table.read_update_add found (Numeric.value_store_add us.monthlyUsageUSD grid) i
  · obtain ⟨rfl, charge⟩ := billSubscription_skipped
      (fun cost id positive subscribed => billed ⟨cost, id, positive, subscribed⟩) ran
    exact ⟨db'.subscriptions, rfl, fun i => by simp [charge]⟩

theorem billBalance_ok (quantized : Quantized cmd)
    (ran : billBalance cmd result faults (n, db) = .ok (out, (m, db'))) :
    ∃ table, db' = { db with users := table } ∧ ∀ u,
      balanceOf db' u = balanceOf db u - (chargeOf (apiKeyLive db) cmd).balance u := by
  cases positive : cmd.balanceCost.positive with
  | some cost =>
    simp only [billBalance, positive, Tx.bind_eq_ok, Tx.pure_eq_ok] at ran
    obtain ⟨answer, k, db₁, deducted, _, _, rfl⟩ := ran
    obtain ⟨user, amount, rfl, found, rfl⟩ := deductUsageBillingBalance_ok deducted
    refine ⟨_, rfl, fun u => ?_⟩
    have moved : (Numeric.store 8 (user.balance.value - amount)).value =
        user.balance.value + -amount :=
      (Numeric.value_store_sub _ (quantized.balance amount positive)).trans (sub_eq_add_neg _ _)
    have charge : (chargeOf (apiKeyLive db) cmd).balance u =
        if u = cmd.userID then amount else 0 := by
      simp only [chargeOf, amountOf, positive]
    rw [charge]
    refine (Table.read_update_add found moved u).trans ?_
    split <;> simp [balanceOf, sub_eq_add_neg]
  | none =>
    simp only [billBalance, positive, Tx.pure_eq_ok] at ran
    obtain ⟨_, _, rfl⟩ := ran
    exact ⟨db.users, rfl, fun u => by simp [chargeOf, amountOf, positive]⟩

/-- Rewriting a key's row without its deletion mark leaves every key as live as it was. -/
theorem apiKeyLive_update {id : ℤ} {key new : APIKey} (found : db.apiKeys id = some key)
    (kept : new.deleted = key.deleted) :
    apiKeyLive { db with apiKeys := Function.update db.apiKeys id (some new) } = apiKeyLive db := by
  funext k
  unfold apiKeyLive
  by_cases same : k = id
  · subst same
    simp [found, kept]
  · simp [same]

theorem billAPIKeyQuota_ok (quantized : Quantized cmd)
    (ran : billAPIKeyQuota cmd result faults (n, db) = .ok (out, (m, db'))) :
    ∃ table, db' = { db with apiKeys := table } ∧ apiKeyLive db' = apiKeyLive db ∧ ∀ k,
      apiKeyQuotaUsedOf db' k =
        apiKeyQuotaUsedOf db k + (chargeOf (apiKeyLive db) cmd).apiKeyQuota k := by
  cases positive : cmd.apiKeyQuotaCost.positive with
  | some cost =>
    simp only [billAPIKeyQuota, positive, Tx.bind_eq_ok, Tx.pure_eq_ok] at ran
    obtain ⟨exhausted, k, db₁, incremented, _, _, rfl⟩ := ran
    rcases incrementUsageBillingAPIKeyQuota_ok incremented with
      ⟨rfl, gone⟩ | ⟨key, status, amount, rfl, found, live, rfl⟩
    · have dead : apiKeyLive db₁ cmd.apiKeyID = false := by
        unfold apiKeyLive
        cases found : db₁.apiKeys cmd.apiKeyID with
        | none => rfl
        | some key => simp [gone key found]
      refine ⟨db₁.apiKeys, rfl, rfl, fun k => ?_⟩
      by_cases same : k = cmd.apiKeyID
      · subst same; simp [chargeOf, dead]
      · simp [chargeOf, same]
    · refine ⟨_, rfl, apiKeyLive_update found rfl, fun k => ?_⟩
      have grid := quantized.apiKeyQuota amount positive
      have isLive : apiKeyLive db cmd.apiKeyID = true := by simp [apiKeyLive, found, live]
      have charge : (chargeOf (apiKeyLive db) cmd).apiKeyQuota k =
          if k = cmd.apiKeyID then amount else 0 := by
        by_cases same : k = cmd.apiKeyID
        · subst same
          simp only [chargeOf, isLive, amountOf, positive, and_self, if_true]
        · simp [chargeOf, same]
      rw [charge]
      exact Table.read_update_add found (Numeric.value_store_add key.quotaUsed grid) k
  | none =>
    simp only [billAPIKeyQuota, positive, Tx.pure_eq_ok] at ran
    obtain ⟨_, _, rfl⟩ := ran
    exact ⟨db.apiKeys, rfl, rfl, fun k => by simp [chargeOf, amountOf, positive]⟩

/-- The rate-limit windows are no part of the charge. -/
theorem billAPIKeyRateLimit_ok
    (ran : billAPIKeyRateLimit cal now cmd faults (n, db) = .ok ((), (m, db'))) :
    ∃ table, db' = { db with apiKeys := table } ∧ apiKeyLive db' = apiKeyLive db ∧ ∀ k,
      apiKeyQuotaUsedOf db' k = apiKeyQuotaUsedOf db k := by
  cases positive : cmd.apiKeyRateLimitCost.positive with
  | some cost =>
    simp only [billAPIKeyRateLimit, positive, Tx.bind_eq_ok, Tx.pure_eq_ok, true_and] at ran
    obtain ⟨row, k, db₁, incremented, _, rfl⟩ := ran
    rcases incrementUsageBillingAPIKeyRateLimit_ok incremented with rfl | ⟨key, q, found, rfl⟩
    · exact ⟨db₁.apiKeys, rfl, rfl, fun _ => rfl⟩
    · exact ⟨_, rfl, apiKeyLive_update found rfl, fun k => Table.read_update_keep found (by rfl) k⟩
  | none =>
    simp only [billAPIKeyRateLimit, positive, Tx.pure_eq_ok, true_and] at ran
    obtain ⟨_, rfl⟩ := ran
    exact ⟨db.apiKeys, rfl, rfl, fun _ => rfl⟩

theorem billAccountQuota_ok
    (ran : billAccountQuota cal now cmd result faults (n, db) = .ok (out, (m, db'))) :
    ∃ table outbox, db' = { db with accounts := table, schedulerOutbox := outbox } ∧ ∀ a,
      accountQuotaUsedOf db' a =
        accountQuotaUsedOf db a + (chargeOf (apiKeyLive db) cmd).accountQuota a := by
  cases positive : cmd.accountQuotaCost.positive with
  | some cost =>
    cases billed : billsAccountQuota cmd.accountType with
    | true =>
      simp only [billAccountQuota, positive, billed, if_true, Tx.bind_eq_ok,
        Tx.pure_eq_ok] at ran
      obtain ⟨state, k, db₁, incremented, _, _, rfl⟩ := ran
      obtain ⟨row, outbox, found, rfl⟩ := incrementUsageBillingAccountQuota_ok incremented
      refine ⟨_, outbox, rfl, fun a => ?_⟩
      have charge : (chargeOf (apiKeyLive db) cmd).accountQuota a =
          if a = cmd.accountID then cost else 0 := by
        simp only [chargeOf, billed, and_true, positive, Option.getD_some]
      rw [charge]
      exact Table.read_update_add found rfl a
    | false =>
      simp only [billAccountQuota, positive, billed, Bool.false_eq_true, if_false,
        Tx.pure_eq_ok] at ran
      obtain ⟨_, _, rfl⟩ := ran
      exact ⟨db.accounts, db.schedulerOutbox, rfl, fun a => by simp [chargeOf, billed]⟩
  | none =>
    simp only [billAccountQuota, positive, Tx.pure_eq_ok] at ran
    obtain ⟨_, _, rfl⟩ := ran
    exact ⟨db.accounts, db.schedulerOutbox, rfl, fun a => by simp [chargeOf, positive]⟩

/-- The effects that went through charge the command, and nothing else. -/
theorem applyUsageBillingEffects_ok (quantized : Quantized cmd)
    (ran : applyUsageBillingEffects cal now cmd result faults (n, db) = .ok (out, (m, db'))) :
    Charged cmd db db' := by
  simp only [applyUsageBillingEffects, Tx.bind_eq_ok] at ran
  obtain ⟨⟨⟩, _, db₁, first, r₁, _, db₂, second, r₂, _, db₃, third, ⟨⟩, _, db₄, fourth, fifth⟩ := ran
  obtain ⟨subscriptions, rfl, subscribed⟩ := billSubscription_ok quantized first
  obtain ⟨users, rfl, deducted⟩ := billBalance_ok quantized second
  obtain ⟨keys, rfl, live, quota⟩ := billAPIKeyQuota_ok quantized third
  obtain ⟨windows, rfl, live', kept⟩ := billAPIKeyRateLimit_ok fourth
  obtain ⟨accounts, outbox, rfl, billed⟩ := billAccountQuota_ok fifth
  refine
    { balance := deducted
      daily := fun i => (subscribed i).1
      weekly := fun i => (subscribed i).2.1
      monthly := fun i => (subscribed i).2.2
      apiKeyQuota := fun k => (kept k).trans (quota k)
      accountQuota := fun a => ?_
      keyLive := live'.trans live
      live := rfl
      archive := rfl }
  exact billed a

/-- None of the effects touches the flag the call set. -/
theorem applyUsageBillingEffects_applied
    (ran : applyUsageBillingEffects cal now cmd result faults (n, db) = .ok (out, (m, db'))) :
    out.applied = result.applied := by
  simp only [applyUsageBillingEffects, Tx.bind_eq_ok] at ran
  obtain ⟨⟨⟩, _, _, _, r₁, _, _, second, r₂, _, _, third, ⟨⟩, _, _, _, fifth⟩ := ran
  have deducted : r₁.applied = result.applied := by
    cases positive : cmd.balanceCost.positive with
    | none =>
      simp only [billBalance, positive, Tx.pure_eq_ok] at second
      rw [second.1]
    | some cost =>
      simp only [billBalance, positive, Tx.bind_eq_ok, Tx.pure_eq_ok] at second
      obtain ⟨_, _, _, _, rfl, _⟩ := second
      rfl
  have counted : r₂.applied = r₁.applied := by
    cases positive : cmd.apiKeyQuotaCost.positive with
    | none =>
      simp only [billAPIKeyQuota, positive, Tx.pure_eq_ok] at third
      rw [third.1]
    | some cost =>
      simp only [billAPIKeyQuota, positive, Tx.bind_eq_ok, Tx.pure_eq_ok] at third
      obtain ⟨_, _, _, _, rfl, _⟩ := third
      rfl
  have billed : out.applied = r₂.applied := by
    cases positive : cmd.accountQuotaCost.positive with
    | none =>
      simp only [billAccountQuota, positive, Tx.pure_eq_ok] at fifth
      rw [fifth.1]
    | some cost =>
      simp only [billAccountQuota, positive] at fifth
      split at fifth
      · simp only [Tx.bind_eq_ok, Tx.pure_eq_ok] at fifth
        obtain ⟨_, _, _, _, rfl, _⟩ := fifth
        rfl
      · simp only [Tx.pure_eq_ok] at fifth
        rw [fifth.1]
  rw [billed, counted, deducted]

end Steps

end Sub2api.Billing
