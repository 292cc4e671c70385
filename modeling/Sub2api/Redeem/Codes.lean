import Sub2api.Billing.Command
import Sub2api.Interleave.Owned

/-!
# Redeem codes

A code is redeemed in a transaction that marks it used, under a condition on its status, and
grants its benefit. A row that a transaction has updated is locked until the transaction ends, so
the other writers of the row wait; readers see what was committed. Administrators rewrite the
status of codes after a separate read, or without one. `grants` and `found` are history: the
benefits granted, and the statuses that administrators' writes of a status found.
-/

namespace Sub2api.Redeem

open Database
open Interleave
open Billing (Time day)

inductive CodeStatus where
  | unused
  | used
  | expired
  | disabled
  deriving DecidableEq

inductive RedeemType where
  | balance
  | concurrency
  | subscription
  | invitation
  | other (name : String)

/-- A row of `redeem_codes`. -/
structure RedeemCode where
  type : RedeemType := .balance
  value : Numeric 8 := ⟨0⟩
  status : CodeStatus := .unused
  usedBy : Option ℤ := none
  usedAt : Option Time := none
  notes : String := ""
  expiresAt : Option Time := none
  groupID : Option ℤ := none
  validityDays : ℤ := 30

inductive RedeemError where
  | rateLimited
  | locked
  | notFound
  | expired
  | used
  | missingGroupID
  | unsupportedType
  | userNotFound
  /-- An administrator's input is refused. -/
  | invalid (reason : String)
  | deleteUsed
  /-- The database failed, or the benefit could not be granted. -/
  | failed

/-- `IsExpiredAt`. -/
def RedeemCode.isExpiredAt (now : Time) (c : RedeemCode) : Bool :=
  match c.status with
  | .expired => true
  | .unused =>
    match c.expiresAt with
    | some at' => decide (at' ≤ now)
    | none => false
  | _ => false

/-- `CanUse`. -/
def RedeemCode.canUse (now : Time) (c : RedeemCode) : Bool :=
  decide (c.status = .unused) && !c.isExpiredAt now

/-! ### Benefits -/

/-- What a code grants. -/
inductive Benefit where
  | balance (amount : ℚ)
  | concurrency (delta : ℤ)
  | subscription (groupID : ℤ) (validityDays : ℤ)
  deriving DecidableEq

/-- The benefit of a code of a redeemable type. -/
def RedeemCode.benefit (c : RedeemCode) : Except RedeemError Benefit :=
  match c.type with
  | .balance => .ok (.balance c.value.value)
  | .concurrency => .ok (.concurrency (c.value.value.num.tdiv c.value.value.den))
  | .subscription =>
    match c.groupID with
    | some group => .ok (.subscription group (if c.validityDays = 0 then 30 else c.validityDays))
    | none => .error .missingGroupID
  | _ => .error .unsupportedType

structure User where
  balance : Numeric 8 := ⟨0⟩
  totalRecharged : Numeric 8 := ⟨0⟩
  concurrency : ℤ := 0
  deleted : Bool := false

inductive SubscriptionStatus where
  | active
  | expired
  | suspended

structure UserSubscription where
  startsAt : Time
  expiresAt : Time
  status : SubscriptionStatus := .active

/-- The rows that benefits change. -/
structure Accounts where
  users : Table ℤ User := fun _ => none
  /-- The groups that sell subscriptions. -/
  subscriptionGroups : List ℤ := []
  /-- By user and group. -/
  subscriptions : Table (ℤ × ℤ) UserSubscription := fun _ => none

def maxValidityDays : ℤ := 36500

/-- `MaxExpiresAt`, the last second of 2099. -/
def maxExpiresAt : Time := 4102444799 * Billing.second

/-- An update of a live user's row. -/
def Accounts.updateUser (a : Accounts) (user : ℤ) (f : User → User) : Option Accounts :=
  match a.users user with
  | some u =>
    if u.deleted then none else some { a with users := Function.update a.users user (some (f u)) }
  | none => none

/-- `UpdateBalance`, and `ApplyRedeemBalanceAdjustment` for what is taken away. -/
def User.addBalance (amount : ℚ) (u : User) : User :=
  if amount < 0 then { u with balance := .store 8 (max (u.balance.value + amount) 0) }
  else
    { u with
      balance := .store 8 (u.balance.value + amount)
      totalRecharged := .store 8 (u.totalRecharged.value + amount) }

/-- `UpdateConcurrency`, and `ApplyRedeemConcurrencyAdjustment` for what is taken away. -/
def User.addConcurrency (delta : ℤ) (u : User) : User :=
  if delta < 0 then { u with concurrency := max (u.concurrency + delta) 0 }
  else { u with concurrency := u.concurrency + delta }

/-- `updateExistingSubscriptionTerm` of a subscription that is there, `createSubscription` where
there is none. -/
def renewSubscription (now : Time) (days : ℤ) (sub : Option UserSubscription) :
    UserSubscription :=
  let days := min (if days ≤ 0 then 30 else days) maxValidityDays
  match sub with
  | some sub =>
    if sub.expiresAt ≤ now then
      { startsAt := now, expiresAt := min (now + days * day) maxExpiresAt }
    else { sub with expiresAt := min (sub.expiresAt + days * day) maxExpiresAt, status := .active }
  | none => { startsAt := now, expiresAt := min (now + days * day) maxExpiresAt }

/-- `AssignOrExtendSubscription`. -/
def Accounts.assignOrExtendSubscription (a : Accounts) (now : Time) (user group days : ℤ) :
    Option Accounts :=
  if group ∈ a.subscriptionGroups then
    some { a with
      subscriptions := Function.update a.subscriptions (user, group)
        (some (renewSubscription now days (a.subscriptions (user, group)))) }
  else none

/-- `reduceOrCancelSubscription`. -/
def Accounts.reduceOrCancelSubscription (a : Accounts) (now : Time) (user group days : ℤ) :
    Option Accounts :=
  match a.subscriptions (user, group) with
  | some sub =>
    let expiresAt := sub.expiresAt - days * day
    let reduced : UserSubscription :=
      if expiresAt ≤ now then { sub with expiresAt := now, status := .expired }
      else { sub with expiresAt := expiresAt }
    some { a with subscriptions := Function.update a.subscriptions (user, group) (some reduced) }
  | none => none

/-- Grant a benefit; `none` where a statement of it fails. -/
def Benefit.grant (now : Time) (user : ℤ) (a : Accounts) : Benefit → Option Accounts
  | .balance amount => a.updateUser user (·.addBalance amount)
  | .concurrency delta => a.updateUser user (·.addConcurrency delta)
  | .subscription group days =>
    if days < 0 then a.reduceOrCancelSubscription now user group (-days)
    else a.assignOrExtendSubscription now user group days

/-! ### The state -/

/-- A benefit that was granted. -/
structure Grant where
  codeID : ℤ
  userID : ℤ
  benefit : Benefit
  deriving DecidableEq

structure State where
  codes : Table ℤ RedeemCode
  /-- The unique index on `code`; no operation changes that column. -/
  byCode : String → Option ℤ
  accounts : Accounts := {}
  /-- The transaction that has updated a row of `codes` and not ended. -/
  locks : ℤ → Option ℕ := fun _ => none
  grants : List Grant := []
  found : List CodeStatus := []

structure Env where
  /-- The statement, or the commit, fails. -/
  fails : Bool := false
  now : Time := 0
  /-- What the rate limit and the lock of the cache answer. -/
  refused : Option RedeemError := none

abbrev Op (α : Type) := Prog State Env α

/-! ### Statements -/

/-- `GetByID`. -/
def getByID (id : ℤ) : Op (Option RedeemCode) :=
  .atomic fun env s => (if env.fails then none else s.codes id, s)

/-- `GetByCode`. -/
def getByCode (code : String) : Op (Option (ℤ × RedeemCode)) :=
  .atomic fun env s =>
    (if env.fails then none
      else (s.byCode code).bind fun id => (s.codes id).map fun row => (id, row), s)

/-- `userRepo.GetByID`. -/
def getUser (user : ℤ) : Op (Option User) :=
  .atomic fun env s =>
    (if env.fails then none else (s.accounts.users user).filter (!·.deleted), s)

/-- `Use`, the first statement of the redemption's transaction: it waits while another
transaction holds the row, and then holds it when the code is unused. -/
def use (me : ℕ) (id : ℤ) : Op (Option Bool) :=
  .waiting fun env s =>
    if env.fails then some (none, s)
    else
      match s.locks id with
      | some _ => none
      | none =>
        match s.codes id with
        | some row =>
          if row.status = .unused then
            some (some true, { s with locks := Function.update s.locks id (some me) })
          else some (some false, s)
        | none => some (some false, s)

/-- Give the row up without a change. -/
def State.rollback (s : State) (id : ℤ) : State :=
  { s with locks := Function.update s.locks id none }

/-- The rest of the transaction: grant the benefit and commit, or roll back. -/
def finishRedeem (id userID : ℤ) (benefit : Benefit) : Op (Except RedeemError Unit) :=
  .atomic fun env s =>
    if env.fails then (.error .failed, s.rollback id)
    else
      match benefit.grant env.now userID s.accounts with
      | none => (.error .failed, s.rollback id)
      | some accounts =>
        (.ok (), { s with
          codes := Function.update s.codes id ((s.codes id).map fun row =>
            { row with status := .used, usedBy := some userID, usedAt := some env.now })
          accounts := accounts
          locks := Function.update s.locks id none
          grants := s.grants ++ [{ codeID := id, userID := userID, benefit := benefit }] })

/-! ### Redeeming -/

/-- The transaction of a redemption. -/
def redeemTx (me : ℕ) (id userID : ℤ) (benefit : Benefit) : Op (Except RedeemError Unit) := do
  let claimed ← use me id
  match claimed with
  | none => pure (.error .failed)
  | some false => pure (.error .used)
  | some true => finishRedeem id userID benefit

/-- `redeem`. -/
def redeem (me : ℕ) (userID : ℤ) (code : String) : Op (Except RedeemError Unit) := do
  let refused ← Prog.ask fun env : Env => env.refused
  match refused with
  | some err => pure (.error err)
  | none => do
    let got ← getByCode code
    match got with
    | none => pure (.error .notFound)
    | some (id, row) => do
      let now ← Prog.ask fun env : Env => env.now
      if row.isExpiredAt now then pure (.error .expired)
      else if !row.canUse now then pure (.error .used)
      else
        match row.benefit with
        | .error err => pure (.error err)
        | .ok benefit => do
          let user ← getUser userID
          match user with
          | none => pure (.error .userNotFound)
          | some _ => redeemTx me id userID benefit

/-! ### Administration -/

/-- `RedeemCodeBatchUpdateFields`; an inner `none` clears the column. -/
structure RedeemCodeBatchUpdateFields where
  status : Option CodeStatus := none
  expiresAt : Option (Option Time) := none
  notes : Option String := none
  groupID : Option (Option ℤ) := none
  type : Option RedeemType := none
  value : Option (Numeric 8) := none

namespace RedeemCodeBatchUpdateFields

def hasChanges (f : RedeemCodeBatchUpdateFields) : Bool :=
  f.status.isSome || f.expiresAt.isSome || f.notes.isSome || f.groupID.isSome || f.type.isSome ||
    f.value.isSome

def hasCoreFieldChanges (f : RedeemCodeBatchUpdateFields) : Bool :=
  f.type.isSome || f.value.isSome

def touchesUsedSensitiveFields (f : RedeemCodeBatchUpdateFields) : Bool :=
  f.status.isSome || f.expiresAt.isSome || f.groupID.isSome

/-- The assignments of the `UPDATE`. -/
def apply (f : RedeemCodeBatchUpdateFields) (c : RedeemCode) : RedeemCode :=
  { c with
    status := f.status.getD c.status
    notes := f.notes.getD c.notes
    expiresAt := f.expiresAt.getD c.expiresAt
    groupID := f.groupID.getD c.groupID }

/-- The checks of the service's `BatchUpdate`. -/
def refused (f : RedeemCodeBatchUpdateFields) (ids : List ℤ) (now : Time) :
    Option RedeemError :=
  if ids = [] then some (.invalid "REDEEM_CODE_BATCH_UPDATE_IDS_REQUIRED")
  else if !f.hasChanges then some (.invalid "REDEEM_CODE_BATCH_UPDATE_EMPTY")
  else if f.hasCoreFieldChanges then some (.invalid "REDEEM_CODE_CORE_FIELDS_IMMUTABLE")
  else if ∃ id ∈ ids, id ≤ 0 then some (.invalid "REDEEM_CODE_BATCH_UPDATE_INVALID_ID")
  else if f.status = some .used ∨ f.status = some .expired then
    some (.invalid "REDEEM_CODE_STATUS_INVALID")
  else if ∃ at' ∈ f.expiresAt.join, at' ≤ now then
    some (.invalid "REDEEM_CODE_EXPIRES_AT_INVALID")
  else if ∃ group ∈ f.groupID.join, group ≤ 0 then some (.invalid "REDEEM_CODE_GROUP_ID_INVALID")
  else none

end RedeemCodeBatchUpdateFields

/-- The `SELECT` of `batchUpdate`, which locks nothing. -/
def selectByIDs (ids : List ℤ) : Op (Option (List RedeemCode)) :=
  .atomic fun env s => (if env.fails then none else some (ids.filterMap s.codes), s)

/-- The statuses that the rows have. -/
def State.statuses (s : State) (ids : List ℤ) : List CodeStatus :=
  (ids.filterMap s.codes).map (·.status)

/-- The `UPDATE` of `batchUpdate` and its commit: it hits the rows whatever their status is, and
is rolled back where one is gone. -/
def updateByIDs (ids : List ℤ) (f : RedeemCodeBatchUpdateFields) : Op (Except RedeemError Unit) :=
  .waiting fun env s =>
    if env.fails then some (.error .failed, s)
    else if ∃ id ∈ ids, s.locks id ≠ none then none
    else if ∃ id ∈ ids, s.codes id = none then some (.error .notFound, s)
    else
      some (.ok (), { s with
        codes := fun id => if id ∈ ids then (s.codes id).map f.apply else s.codes id
        found := s.found ++ if f.status.isSome then s.statuses ids else [] })

/-- `BatchUpdate`, of the service and of the repository. -/
def batchUpdate (ids : List ℤ) (f : RedeemCodeBatchUpdateFields) :
    Op (Except RedeemError Unit) := do
  let now ← Prog.ask fun env : Env => env.now
  match f.refused ids now with
  | some err => pure (.error err)
  | none => do
    let existing ← selectByIDs ids.dedup
    match existing with
    | none => pure (.error .failed)
    | some rows =>
      if rows.length ≠ ids.dedup.length then pure (.error .notFound)
      else if f.touchesUsedSensitiveFields ∧ ∃ row ∈ rows, row.status = .used then
        pure (.error .used)
      else updateByIDs ids.dedup f

/-- `Update`: every column of the row, whatever its status is. -/
def update (id : ℤ) (row : RedeemCode) : Op (Except RedeemError Unit) :=
  .waiting fun env s =>
    if env.fails then some (.error .failed, s)
    else
      match s.locks id with
      | some _ => none
      | none =>
        match s.codes id with
        | none => some (.error .notFound, s)
        | some _ =>
          some (.ok (), { s with
            codes := Function.update s.codes id (some row)
            found := s.found ++ s.statuses [id] })

/-- `ExpireRedeemCode`. -/
def expireRedeemCode (id : ℤ) : Op (Except RedeemError Unit) := do
  let got ← getByID id
  match got with
  | none => pure (.error .notFound)
  | some row => update id { row with status := .expired }

/-- `Delete` of the repository. -/
def deleteRow (id : ℤ) : Op (Except RedeemError Unit) :=
  .waiting fun env s =>
    if env.fails then some (.error .failed, s)
    else
      match s.locks id with
      | some _ => none
      | none => some (.ok (), { s with codes := Function.update s.codes id none })

/-- `RedeemService.Delete`, which refuses used codes. -/
def delete (id : ℤ) : Op (Except RedeemError Unit) := do
  let got ← getByID id
  match got with
  | none => pure (.error .notFound)
  | some row => if row.status = .used then pure (.error .deleteUsed) else deleteRow id

/-- `BatchDeleteRedeemCodes`; `DeleteRedeemCode` is the case of one id. -/
def batchDeleteRedeemCodes : List ℤ → Op Unit
  | [] => pure ()
  | id :: rest => do
    let _ ← deleteRow id
    batchDeleteRedeemCodes rest

inductive Call where
  | redeem (userID : ℤ) (code : String)
  | batchUpdate (ids : List ℤ) (fields : RedeemCodeBatchUpdateFields)
  | expire (id : ℤ)
  | delete (id : ℤ)
  | batchDelete (ids : List ℤ)

def Call.program (me : ℕ) : Call → Op Unit
  | .redeem userID code => do
    let _ ← Redeem.redeem me userID code
    pure ()
  | .batchUpdate ids fields => do
    let _ ← Redeem.batchUpdate ids fields
    pure ()
  | .expire id => do
    let _ ← expireRedeemCode id
    pure ()
  | .delete id => do
    let _ ← Redeem.delete id
    pure ()
  | .batchDelete ids => batchDeleteRedeemCodes ids

/-- The pool of all calls after a schedule of turns. -/
def run (calls : ℕ → Call) (s : State) (schedule : List (ℕ × Env)) : Pool ℕ (Op Unit) State :=
  Pool.run Prog.step schedule { shared := s, threads := fun me => (calls me).program me }

end Sub2api.Redeem
