import Sub2api.Billing.Claims

/-!
# The five effects of a usage command

One statement, or two, for each of: the subscription's usages, the user's balance, the API key's
quota, the API key's rate-limit windows and the account's quota. Each has an inversion lemma
(`incrementUsageBillingSubscription_ok`, `deductUsageBillingBalance_ok`, …) that says which row it
changed and how.
-/

namespace Sub2api.Billing

open Database Go

/-! ### Subscription -/

/-- `UPDATE user_subscriptions … FROM groups`: the row after it. -/
def updateSubscription (subscriptionID : ℤ) (costUSD : WithTop ℚ) :
    BillingTx (Option UserSubscription) :=
  Tx.updateRow Db.subscriptions (fun table db => { db with subscriptions := table }) subscriptionID
    (fun db us => !us.deleted && ((db.groups us.groupID).map (!·.deleted)).getD false)
    fun us => do
      let cost ← numericParam costUSD
      .ok { us with
        dailyUsageUSD := .store 10 (us.dailyUsageUSD.value + cost)
        weeklyUsageUSD := .store 10 (us.weeklyUsageUSD.value + cost)
        monthlyUsageUSD := .store 10 (us.monthlyUsageUSD.value + cost) }

def incrementUsageBillingSubscription (subscriptionID : ℤ) (costUSD : WithTop ℚ) :
    BillingTx Unit := do
  let affected ← updateSubscription subscriptionID costUSD
  match affected with
  | some _ => pure ()
  | none => Tx.fail .subscriptionNotFound

/-! ### Balance -/

/-- `UPDATE users SET balance = balance - $1 WHERE … RETURNING balance`, with the balance guard
or without. -/
def deductBalance (userID : ℤ) (amount : WithTop ℚ) (guarded : Bool) :
    BillingTx (Option User) :=
  Tx.updateRow Db.users (fun table db => { db with users := table }) userID
    (fun _ u => !u.deleted && (!guarded || decide (amount ≤ (u.balance.value : WithTop ℚ))))
    fun u => do
      let amount ← numericParam amount
      .ok { u with balance := .store 8 (u.balance.value - amount) }

/-- The balance after the deduction, and whether it was sufficient. -/
def deductUsageBillingBalance (userID : ℤ) (amount : WithTop ℚ) : BillingTx (ℚ × Bool) := do
  let covered ← deductBalance userID amount true
  match covered with
  | some u => pure (u.balance.value, true)
  | none =>
    let overdrawn ← deductBalance userID amount false
    match overdrawn with
    | some u => pure (u.balance.value, false)
    | none => Tx.fail .userNotFound

/-! ### API key -/

/-- `UPDATE api_keys SET quota_used = quota_used + $1, status = CASE …`: the row after it. -/
def updateAPIKeyQuota (apiKeyID : ℤ) (amount : WithTop ℚ) : BillingTx (Option APIKey) :=
  Tx.updateRow Db.apiKeys (fun table db => { db with apiKeys := table }) apiKeyID
    (fun _ key => !key.deleted)
    fun key => do
      let amount ← numericParam amount
      let crosses : Bool := 0 < key.quota.value && key.status == .active &&
        key.quotaUsed.value < key.quota.value && key.quota.value ≤ key.quotaUsed.value + amount
      .ok { key with
        quotaUsed := .store 8 (key.quotaUsed.value + amount)
        status := if crosses then .quotaExhausted else key.status }

/-- Whether the increment made the key reach its quota; `none` is `ErrAPIKeyNotFound`. -/
def incrementUsageBillingAPIKeyQuota (apiKeyID : ℤ) (amount : WithTop ℚ) :
    BillingTx (Option Bool) := do
  let row ← updateAPIKeyQuota apiKeyID amount
  pure <| row.map fun key =>
    0 < key.quota.value && key.quota.value ≤ key.quotaUsed.value &&
      decide ((key.quotaUsed.value : WithTop ℚ) < key.quota.value + amount)

/-- `start + INTERVAL` of the three windows: hours are absolute, days are calendar days of the
session's time zone. -/
def Calendar.plusDays (cal : Calendar) (t : Time) (days : ℤ) : Time :=
  cal.ofLocal cal.sessionTimezone (cal.toLocal cal.sessionTimezone t + days * day)

/-- The columns of one window after a cost: an expired window restarts, an unset one starts, and
in both the new start is `restart`. -/
def RateLimitWindow.bill (ends : Time → Time) (restart now : Time) (cost : ℚ)
    (w : RateLimitWindow) : RateLimitWindow :=
  match w.start with
  | none => { usage := .store 8 (w.usage.value + cost), start := some restart }
  | some start =>
    if ends start ≤ now then { usage := .store 8 cost, start := some restart }
    else { usage := .store 8 (w.usage.value + cost), start := some start }

/-- The key's columns after a cost billed at `now`. -/
def APIKey.billWindows (cal : Calendar) (now : Time) (cost : ℚ) (key : APIKey) : APIKey :=
  { key with
    window5h := key.window5h.bill (· + 5 * hour) now now cost
    window1d := key.window1d.bill (· + 24 * hour) (cal.startOfDay now) now cost
    window7d := key.window7d.bill (cal.plusDays · 7) (cal.startOfDay now) now cost }

/-- The key's row after the update; `none` is `ErrAPIKeyNotFound`. -/
def incrementUsageBillingAPIKeyRateLimit (cal : Calendar) (now : Time) (apiKeyID : ℤ)
    (cost : WithTop ℚ) : BillingTx (Option APIKey) :=
  Tx.updateRow Db.apiKeys (fun table db => { db with apiKeys := table }) apiKeyID
    (fun _ key => !key.deleted)
    fun key => do
      let cost ← numericParam cost
      .ok (key.billWindows cal now cost)

/-! ### Account -/

/-- `dailyExpiredExpr` and `weeklyExpiredExpr`, by the length of the rolling period. -/
def PeriodQuota.expired (cal : Calendar) (length now : Time) (p : PeriodQuota) : Bool :=
  if p.fixed then p.resetAt.getD cal.epochDay ≤ now
  else p.start.getD cal.epochDay + length ≤ now

/-- The reset point of today in the account's time zone, as a local timestamp. -/
def resetPointToday (cal : Calendar) (tz : String) (now : Time) (p : PeriodQuota) : Time :=
  Calendar.truncDay (cal.toLocal tz now) + p.resetHour.getD 0 * hour

/-- `nextDailyResetAtExpr`. -/
def nextDailyResetAt (cal : Calendar) (tz : String) (now : Time) (p : PeriodQuota) :
    Option Time :=
  if p.fixed then
    let today := resetPointToday cal tz now p
    if cal.ofLocal tz today ≤ now then some (cal.ofLocal tz (today + day))
    else some (cal.ofLocal tz today)
  else none

/-- `nextWeeklyResetAtExpr`. -/
def nextWeeklyResetAt (cal : Calendar) (tz : String) (now : Time) (p : PeriodQuota) :
    Option Time :=
  if p.fixed then
    let today := resetPointToday cal tz now p
    let daysForward :=
      (p.resetDay.getD 1 - Calendar.dayOfWeek (cal.toLocal tz now) + 7).tmod 7
    if daysForward = 0 ∧ cal.ofLocal tz today ≤ now then some (cal.ofLocal tz (today + 7 * day))
    else some (cal.ofLocal tz (today + daysForward * day))
  else none

/-- One period of the document after an increment; a period without a limit is left alone. -/
def PeriodQuota.bill (cal : Calendar) (length : Time) (next : Option Time) (now : Time)
    (amount : WithTop ℚ) (p : PeriodQuota) : PeriodQuota :=
  if 0 < p.limit.getD 0 then
    if p.expired cal length now then
      { p with
        used := some amount
        start := some now
        resetAt := match next with
          | some t => some t
          | none => p.resetAt }
    else
      { p with used := some (p.used.getD 0 + amount), start := some (p.start.getD now) }
  else p

/-- The document after an increment. -/
def Account.bill (cal : Calendar) (now : Time) (amount : WithTop ℚ) (a : Account) : Account :=
  let tz := a.resetTimezone.getD "UTC"
  { a with
    quotaUsed := some (a.quotaUsed.getD 0 + amount)
    daily := a.daily.bill cal (24 * hour) (nextDailyResetAt cal tz now a.daily) now amount
    weekly := a.weekly.bill cal (168 * hour) (nextWeeklyResetAt cal tz now a.weekly) now amount }

structure AccountQuotaState where
  totalUsed : WithTop ℚ
  totalLimit : WithTop ℚ
  dailyUsed : WithTop ℚ
  dailyLimit : WithTop ℚ
  weeklyUsed : WithTop ℚ
  weeklyLimit : WithTop ℚ
  deriving DecidableEq

def Account.quotaState (a : Account) : AccountQuotaState :=
  { totalUsed := a.quotaUsed.getD 0
    totalLimit := a.quotaLimit.getD 0
    dailyUsed := a.daily.used.getD 0
    dailyLimit := a.daily.limit.getD 0
    weeklyUsed := a.weekly.used.getD 0
    weeklyLimit := a.weekly.limit.getD 0 }

/-- `limit > 0 && used >= limit && used - amount < limit`; `Inf - Inf` compares false. -/
def crossed (used limit amount : WithTop ℚ) : Bool :=
  decide (0 < limit) && decide (limit ≤ used) &&
    match used, amount with
    | some used, some amount => decide (((used - amount : ℚ) : WithTop ℚ) < limit)
    | _, _ => false

def AccountQuotaState.crossedAny (s : AccountQuotaState) (amount : WithTop ℚ) : Bool :=
  crossed s.totalUsed s.totalLimit amount || crossed s.dailyUsed s.dailyLimit amount ||
    crossed s.weeklyUsed s.weeklyLimit amount

/-- The `account_changed` event, unless one is pending. -/
def enqueueSchedulerOutbox (accountID : ℤ) (db : Db) : Unit × Db :=
  ((), if accountID ∈ db.schedulerOutbox then db
    else { db with schedulerOutbox := db.schedulerOutbox ++ [accountID] })

def incrementUsageBillingAccountQuota (cal : Calendar) (now : Time) (accountID : ℤ)
    (amount : WithTop ℚ) : BillingTx AccountQuotaState := do
  let row ← Tx.updateRow Db.accounts (fun table db => { db with accounts := table }) accountID
    (fun _ a => !a.deleted) (fun a => .ok (a.bill cal now amount))
  match row with
  | none => Tx.fail .accountNotFound
  | some a =>
    if a.quotaState.crossedAny amount then
      Tx.stmt (enqueueSchedulerOutbox accountID)
    pure a.quotaState

/-! ### What each effect did -/

section Inversion

variable {faults : Faults BillingError} {n m : ℕ} {db db' : Db}

theorem numericParam_bind_ok {α : Type} {v : WithTop ℚ} {f : ℚ → Except BillingError α} {a : α}
    (ok : numericParam v >>= f = .ok a) : ∃ q : ℚ, v = q ∧ f q = .ok a := by
  cases v with
  | top => cases ok
  | coe q => exact ⟨q, rfl, ok⟩

theorem incrementUsageBillingSubscription_ok {id : ℤ} {cost : WithTop ℚ}
    (ran : incrementUsageBillingSubscription id cost faults (n, db) = .ok ((), (m, db'))) :
    ∃ (us : UserSubscription) (amount : ℚ), cost = amount ∧ db.subscriptions id = some us ∧
      db' = { db with
        subscriptions := Function.update db.subscriptions id (some { us with
          dailyUsageUSD := .store 10 (us.dailyUsageUSD.value + amount)
          weeklyUsageUSD := .store 10 (us.weeklyUsageUSD.value + amount)
          monthlyUsageUSD := .store 10 (us.monthlyUsageUSD.value + amount) }) } := by
  simp only [incrementUsageBillingSubscription, Tx.bind_eq_ok] at ran
  obtain ⟨affected, k, db₁, updated, rest⟩ := ran
  cases affected with
  | none => exact absurd rest (by simp)
  | some new =>
    obtain ⟨us, found, _, made, rfl⟩ := Tx.updateRow_some updated
    obtain ⟨amount, rfl, made⟩ := numericParam_bind_ok made
    simp only [Tx.pure_eq_ok, true_and] at rest
    obtain ⟨_, rfl⟩ := rest
    cases made
    exact ⟨us, amount, rfl, found, rfl⟩

theorem deductBalance_some {id : ℤ} {amount : WithTop ℚ} {guarded : Bool} {new : User}
    (ran : deductBalance id amount guarded faults (n, db) = .ok (some new, (m, db'))) :
    ∃ (u : User) (q : ℚ), amount = q ∧ db.users id = some u ∧
      db' = { db with
        users := Function.update db.users id
          (some { u with balance := .store 8 (u.balance.value - q) }) } := by
  obtain ⟨u, found, _, made, rfl⟩ := Tx.updateRow_some ran
  obtain ⟨q, rfl, made⟩ := numericParam_bind_ok made
  cases made
  exact ⟨u, q, rfl, found, rfl⟩

/-- Whether or not the balance covered it, the amount is taken. -/
theorem deductUsageBillingBalance_ok {id : ℤ} {amount : WithTop ℚ} {out : ℚ × Bool}
    (ran : deductUsageBillingBalance id amount faults (n, db) = .ok (out, (m, db'))) :
    ∃ (u : User) (q : ℚ), amount = q ∧ db.users id = some u ∧
      db' = { db with
        users := Function.update db.users id
          (some { u with balance := .store 8 (u.balance.value - q) }) } := by
  simp only [deductUsageBillingBalance, Tx.bind_eq_ok] at ran
  obtain ⟨covered, k, db₁, first, rest⟩ := ran
  cases covered with
  | some new =>
    simp only [Tx.pure_eq_ok] at rest
    obtain ⟨_, _, rfl⟩ := rest
    exact deductBalance_some first
  | none =>
    obtain ⟨rfl, _⟩ := Tx.updateRow_none first
    simp only [Tx.bind_eq_ok] at rest
    obtain ⟨overdrawn, k', db₂, second, rest⟩ := rest
    cases overdrawn with
    | none => exact absurd rest (by simp)
    | some new =>
      simp only [Tx.pure_eq_ok] at rest
      obtain ⟨_, _, rfl⟩ := rest
      exact deductBalance_some second

/-- A live key is charged, and a key that is gone is passed over. -/
theorem incrementUsageBillingAPIKeyQuota_ok {id : ℤ} {amount : WithTop ℚ} {out : Option Bool}
    (ran : incrementUsageBillingAPIKeyQuota id amount faults (n, db) = .ok (out, (m, db'))) :
    (db' = db ∧ ∀ key, db.apiKeys id = some key → key.deleted = true) ∨
    ∃ (key : APIKey) (status : APIKeyStatus) (q : ℚ), amount = q ∧ db.apiKeys id = some key ∧
      key.deleted = false ∧
      db' = { db with
        apiKeys := Function.update db.apiKeys id
          (some { key with quotaUsed := .store 8 (key.quotaUsed.value + q), status := status }) } := by
  simp only [incrementUsageBillingAPIKeyQuota, Tx.bind_eq_ok, Tx.pure_eq_ok] at ran
  obtain ⟨row, k, db₁, updated, _, _, rfl⟩ := ran
  cases row with
  | none =>
    obtain ⟨rfl, refused⟩ := Tx.updateRow_none updated
    exact Or.inl ⟨rfl, by simpa using refused⟩
  | some new =>
    obtain ⟨key, found, live, made, rfl⟩ := Tx.updateRow_some updated
    obtain ⟨q, rfl, made⟩ := numericParam_bind_ok made
    cases made
    exact Or.inr ⟨key, _, q, rfl, found, by simpa using live, rfl⟩

theorem incrementUsageBillingAPIKeyRateLimit_ok {cal : Calendar} {now : Time} {id : ℤ}
    {cost : WithTop ℚ} {out : Option APIKey}
    (ran : incrementUsageBillingAPIKeyRateLimit cal now id cost faults (n, db) =
      .ok (out, (m, db'))) :
    db' = db ∨ ∃ (key : APIKey) (q : ℚ), db.apiKeys id = some key ∧
      db' = { db with
        apiKeys := Function.update db.apiKeys id (some (key.billWindows cal now q)) } := by
  cases out with
  | none =>
    obtain ⟨rfl, _⟩ := Tx.updateRow_none ran
    exact Or.inl rfl
  | some new =>
    obtain ⟨key, found, _, made, rfl⟩ := Tx.updateRow_some ran
    obtain ⟨q, rfl, made⟩ := numericParam_bind_ok made
    cases made
    exact Or.inr ⟨key, q, found, rfl⟩

theorem incrementUsageBillingAccountQuota_ok {cal : Calendar} {now : Time} {id : ℤ}
    {amount : WithTop ℚ} {out : AccountQuotaState}
    (ran : incrementUsageBillingAccountQuota cal now id amount faults (n, db) =
      .ok (out, (m, db'))) :
    ∃ (a : Account) (outbox : List ℤ), db.accounts id = some a ∧
      db' = { db with
        accounts := Function.update db.accounts id (some (a.bill cal now amount))
        schedulerOutbox := outbox } := by
  simp only [incrementUsageBillingAccountQuota, Tx.bind_eq_ok] at ran
  obtain ⟨row, k, db₁, updated, rest⟩ := ran
  cases row with
  | none => exact absurd rest (by simp)
  | some new =>
    obtain ⟨a, found, _, made, rfl⟩ := Tx.updateRow_some updated
    cases made
    dsimp only at rest
    split at rest
    · simp only [Tx.bind_eq_ok, Tx.stmt_eq_ok, Tx.pure_eq_ok] at rest
      obtain ⟨_, _, db₂, ⟨_, enqueued, _⟩, _, _, rfl⟩ := rest
      simp only [enqueueSchedulerOutbox, Prod.mk.injEq, true_and] at enqueued
      split at enqueued
      · exact ⟨a, db.schedulerOutbox, found, enqueued.symm⟩
      · exact ⟨a, db.schedulerOutbox ++ [id], found, enqueued.symm⟩
    · simp only [Tx.pure_eq_ok] at rest
      obtain ⟨_, _, rfl⟩ := rest
      exact ⟨a, db.schedulerOutbox, found, rfl⟩

end Inversion

end Sub2api.Billing
