import Sub2api.BatchImage.Job
import Sub2api.Interleave.Program

/-!
# The batch-image repository

The shared state of all calls and the repository's operations on it, each one atomic action. A
repository transaction either happens or, when `fails` says so, leaves everything as it was; the
billing transactions get a fault plan of their own.

Three fields are history that no operation reads: `creator` (which call created a job), `moves`
(the updates of holds that hit a user's row) and `calls` (every call of a hold operation, with
what it found before it ran).
-/

namespace Sub2api.BatchImage

open Database Go Billing Interleave
open Interleave.Prog (ask)

/-- An update of a hold that hit a user's row. -/
structure HoldMove where
  kind : HoldKind
  batchID : String
  userID : ℤ
  hold : ℚ
  actual : ℚ
  deriving DecidableEq

/-- A call of a hold operation and the state it found. -/
structure HoldCall where
  kind : HoldKind
  batchID : String
  hold : ℚ
  actual : ℚ
  /-- The release of this batch was claimed. -/
  releaseClaimed : Bool
  /-- The hold was moved before by the other of capture and release. -/
  closedByOther : Bool
  /-- The request id was claimed. -/
  claimed : Bool
  /-- The balance of the user, when live. -/
  balance : Option ℚ
  /-- The frozen balance of the user, when live. -/
  frozen : Option ℚ
  /-- The call's error was nil, or the conflict that a release takes for nil. -/
  accepted : Bool

structure State where
  billing : Billing.Db
  jobs : Table String BatchImageJob := fun _ => none
  creator : Table String ℕ := fun _ => none
  moves : List HoldMove := []
  calls : List HoldCall := []

inductive ProviderState where
  | queued
  | running
  | succeeded
  | failed
  | expired
  | cancelled
  | unknown
  deriving DecidableEq

structure ProviderStatus where
  state : ProviderState
  outputRef : String := ""
  errorCode : String := ""

/-- Why a provider's cleanup fails. -/
inductive CleanupFailure where
  | unsafePath
  | other (reason : String)
  deriving DecidableEq

/-- What the environment answers to one action; an action reads the fields it needs. -/
structure Env where
  now : Time := 0
  /-- The repository call fails. -/
  fails : Bool := false
  /-- The statements of a billing transaction that fail. -/
  faults : ℕ → Bool := fun _ => false
  randomBytes : List (Fin 256) := []
  /-- Whether a call outside the repositories succeeds. -/
  succeeds : Bool := true
  /-- The pricing resolver's answer. -/
  price : Option ℚ := none
  /-- The name of the provider's job, when its submission succeeds. -/
  providerJob : Option String := none
  /-- The provider's status, when the query succeeds. -/
  providerStatus : Option (Option ProviderStatus) := none
  /-- The indexer's counts, or why it failed. -/
  index : Except BatchImageError (ℤ × ℤ) := .ok (0, 0)
  /-- The rows a scan of the job table meets. -/
  candidates : List String := []
  /-- Why the provider's cleanup failed, when it did. -/
  cleanupFailure : Option CleanupFailure := none

abbrev Op (α : Type) := Prog State Env α

def Env.billingFaults (env : Env) : Faults BillingError :=
  fun n => if env.faults n then some .database else none

def State.putJob (s : State) (id : String) (job : BatchImageJob) : State :=
  { s with jobs := Function.update s.jobs id (some job) }

/-! ### Jobs -/

/-- A repository call on one job's row, which it may refuse or rewrite. -/
def onJob {β : Type} (id : String)
    (f : Env → BatchImageJob → Except BatchImageError (β × BatchImageJob)) :
    Op (Except BatchImageError β) :=
  .atomic fun env s =>
    if env.fails then (.error .database, s)
    else
      match s.jobs id with
      | none => (.error .jobNotFound, s)
      | some job =>
        match f env job with
        | .error e => (.error e, s)
        | .ok (answer, job') => (.ok answer, s.putJob id job')

/-- The request that `Submit` has validated, priced and matched to a provider. The version is the
one of the `Submit` that runs: it is 1, and was 0 before jobs had price snapshots. -/
structure SubmitRequest where
  userID : ℤ
  apiKeyID : ℤ
  accountID : ℤ
  provider : String
  model : String
  itemCount : ℤ
  estimatedCost : ℚ
  holdAmount : ℚ
  billableUnitPrice : ℚ
  pricingSnapshotVersion : ℤ := 1
  requestHash : String

/-- The row a request is inserted as. -/
def SubmitRequest.job (req : SubmitRequest) (batchID : String) (now : Time) : BatchImageJob :=
  { batchID := batchID
    userID := req.userID
    apiKeyID := some req.apiKeyID
    accountID := some req.accountID
    provider := req.provider
    model := req.model
    itemCount := req.itemCount
    estimatedCost := .store 10 req.estimatedCost
    holdAmount := some (.store 10 req.holdAmount)
    billableUnitPrice := .store 10 req.billableUnitPrice
    pricingSnapshotVersion := req.pricingSnapshotVersion
    requestHash := some req.requestHash
    updatedAt := now }

/-- `NewBatchImageID` and `CreateBatchImageJob`, called by call number `me`. -/
def createBatchImageJob (me : ℕ) (req : SubmitRequest) :
    Op (Except BatchImageError BatchImageJob) :=
  .atomic fun env s =>
    let id := newBatchImageID env.randomBytes
    if env.fails then (.error .database, s)
    else
      match s.jobs id with
      | some _ => (.error .jobExists, s)
      | none =>
        (.ok (req.job id env.now),
          { s.putJob id (req.job id env.now) with
            creator := Function.update s.creator id (some me) })

def getBatchImageJobByBatchID (id : String) : Op (Except BatchImageError BatchImageJob) :=
  onJob id fun _ job => .ok (job, job)

def getBatchImageJobByBatchIDForOwner (userID apiKeyID : ℤ) (id : String) :
    Op (Except BatchImageError BatchImageJob) :=
  onJob id fun _ job =>
    if job.userID = userID ∧ job.apiKeyID = some apiKeyID ∧ job.userDeleted = false then
      .ok (job, job)
    else .error .jobNotFound

def transitionBatchImageJobStatus (id : String) (target : JobStatus)
    (errorCode : Option String := none) : Op (Except BatchImageError Unit) :=
  onJob id fun env job =>
    if job.status.canTransition target then
      .ok ((), { job with
        status := target
        updatedAt := env.now
        lastErrorCode := if target = .failed then errorCode else job.lastErrorCode })
    else .error .invalidTransition

/-- The heartbeat's touch; a row in another status is left alone. -/
def touchBatchImageJobSubmitting (id : String) : Op (Except BatchImageError Unit) :=
  onJob id fun env job =>
    if job.status = .created ∨ job.status = .uploading then
      .ok ((), { job with updatedAt := env.now })
    else .ok ((), job)

/-- An audit event, which nothing modelled reads: whether it was written. -/
def appendBatchImageEvent : Op Bool := ask fun env => !env.fails

/-- Whether the row was failed, and the error, which may come with a failed row when only the
event could not be written. -/
def failStaleUnsubmittedBatchImageJob (id : String) (cutoff : Time) (code : String) :
    Op (Bool × Option BatchImageError) := do
  let updated ← onJob id fun env job =>
    if (job.status = .created ∨ job.status = .uploading) ∧ job.providerJobName = none ∧
        job.updatedAt ≤ cutoff then
      .ok (true, { job with status := .failed, lastErrorCode := some code, updatedAt := env.now })
    else .ok (false, job)
  match updated with
  | .error .jobNotFound => pure (false, none)
  | .error e => pure (false, some e)
  | .ok false => pure (false, none)
  | .ok true => do
    let written ← appendBatchImageEvent
    pure (true, if written then none else some .database)

def updateBatchImageJobProviderOutputRef (id ref : String) : Op (Except BatchImageError Unit) :=
  onJob id fun env job => .ok ((), { job with providerOutputRef := some ref, updatedAt := env.now })

def updateBatchImageJobProviderSubmit (id providerJobName : String) :
    Op (Except BatchImageError Unit) :=
  onJob id fun env job =>
    if job.status.canTransition .submitted then
      .ok ((), { job with
        status := .submitted
        providerJobName := some providerJobName
        updatedAt := env.now })
    else .error .invalidTransition

/-- `RecordBatchImageJobSubmitFailure`; every caller drops its error. The status is written
whatever it was. -/
def recordBatchImageJobSubmitFailure (id code : String) (markFailed : Bool) : Op Unit := do
  let updated ← onJob id fun env job =>
    .ok ((), { job with
      status := if markFailed then .failed else job.status
      lastErrorCode := some code
      updatedAt := env.now
      overwrites := if markFailed ∧ job.status.ended then job.overwrites + 1
        else job.overwrites })
  match updated with
  | .error _ => pure ()
  | .ok () => do
    let _ ← appendBatchImageEvent
    pure ()

def markBatchImageJobUserDeleted (userID apiKeyID : ℤ) (id : String) : Op Unit := do
  let _ ← onJob id fun env job =>
    if job.userID = userID ∧ job.apiKeyID = some apiKeyID ∧ job.userDeleted = false ∧
        job.status.terminal then
      .ok ((), { job with userDeleted := true, updatedAt := env.now })
    else .ok ((), job)
  pure ()

def markBatchImageJobSettled (id : String) (actualCost : ℚ) (manifestHash : String) :
    Op (Except BatchImageError Unit) :=
  onJob id fun env job =>
    if job.status = .settling ∧ (BatchImageJob.text job.manifestHash = "" ∨
        job.manifestHash = some manifestHash) then
      .ok ((), { job with
        status := .completed
        actualCost := some (.store 10 actualCost)
        manifestHash := some manifestHash
        updatedAt := env.now })
    else if job.status = .settling then .error .settlementManifestConflict
    else if job.status = .completed then .error .alreadySettled
    else .error .settlementInvalidStatus

/-- The retry count after the failure; the update checks no status, and is not undone when the
event cannot be written. -/
def setBatchImageJobSettlementFailed (id code : String) : Op (Except BatchImageError ℤ) := do
  let updated ← onJob id fun env job =>
    .ok (job.retryCount + 1, { job with
      lastErrorCode := some code
      retryCount := job.retryCount + 1
      updatedAt := env.now })
  match updated with
  | .error e => pure (.error e)
  | .ok retryCount => do
    let written ← appendBatchImageEvent
    pure (if written then .ok retryCount else .error .database)

/-- `ReplaceBatchImageItemsForJob`, as far as the job's row goes. -/
def replaceBatchImageItemsForJob (id : String) (counts : ℤ × ℤ) :
    Op (Except BatchImageError Unit) :=
  onJob id fun env job =>
    if job.status = .indexing then
      .ok ((), { job with
        successCount := counts.1
        failCount := counts.2
        updatedAt := env.now })
    else .error .indexStateConflict

/-- `ListStaleUnsubmittedBatchImageJobs`: the rows the scan meets that are stale, up to a limit. -/
def listStaleUnsubmittedBatchImageJobs (cutoff : Time) (limit : ℕ) :
    Op (Except BatchImageError (List BatchImageJob)) :=
  .atomic fun env s =>
    if env.fails then (.error .database, s)
    else
      let stale (job : BatchImageJob) : Bool :=
        (job.status = .created || job.status = .uploading) && job.providerJobName = none &&
          0 < job.rawHold && job.updatedAt ≤ cutoff
      (.ok (((env.candidates.filterMap s.jobs).filter stale).take limit), s)

/-! ### Holds -/

/-- A column of a user's row, when live. -/
def ofLiveUser (db : Billing.Db) (userID : ℤ) (column : User → ℚ) : Option ℚ :=
  match db.users userID with
  | some u => if u.deleted then none else some (column u)
  | none => none

theorem ofLiveUser_eq {db : Billing.Db} {userID : ℤ} {u : User} (found : db.users userID = some u)
    (live : u.deleted = false) (column : User → ℚ) :
    ofLiveUser db userID column = some (column u) := by
  simp [ofLiveUser, found, live]

/-- What closes a hold beside this operation. -/
def otherClosing : HoldKind → HoldKind → Bool
  | .capture, .release => true
  | .release, .capture => true
  | _, _ => false

/-- Whether an answer is nil to the caller of a release. -/
def acceptedAnswer : Except BillingError BatchImageBalanceHoldResult → Bool
  | .ok _ => true
  | .error .usageBillingRequestConflict => true
  | .error _ => false

/-- The record of a call, by the state it found and its answer. -/
def recordCall (kind : HoldKind) (cmd : BatchImageBalanceHoldCommand) (s : State)
    (answer : Except BillingError BatchImageBalanceHoldResult) : HoldCall :=
  { kind := kind
    batchID := cmd.batchID
    hold := cmd.holdAmount
    actual := cmd.actualAmount
    releaseClaimed :=
      (claimOf s.billing (batchImageReleaseRequestID cmd.batchID, cmd.apiKeyID)).isSome
    closedByOther := s.moves.any fun m => otherClosing kind m.kind && m.batchID == cmd.batchID
    claimed := (claimOf s.billing (trimSpace cmd.requestID, cmd.apiKeyID)).isSome
    balance := ofLiveUser s.billing cmd.userID (·.balance.value)
    frozen := ofLiveUser s.billing cmd.userID (·.frozenBalance.value)
    accepted := acceptedAnswer answer }

def moveOf (kind : HoldKind) (cmd : BatchImageBalanceHoldCommand) : HoldMove :=
  { kind := kind
    batchID := cmd.batchID
    userID := cmd.userID
    hold := cmd.holdAmount
    actual := cmd.actualAmount }

/-- The move of a call whose answer carries the updated balance. -/
def recordMove (kind : HoldKind) (cmd : BatchImageBalanceHoldCommand)
    (answer : Except BillingError BatchImageBalanceHoldResult) : List HoldMove :=
  match answer with
  | .ok result => if result.newBalance.isSome then [moveOf kind cmd] else []
  | .error _ => []

/-- The state after a call with this answer. -/
def State.called (s : State) (kind : HoldKind) (cmd : BatchImageBalanceHoldCommand)
    (answer : Except BillingError BatchImageBalanceHoldResult) (db : Billing.Db) : State :=
  { s with
    billing := db
    moves := s.moves ++ recordMove kind cmd answer
    calls := s.calls ++ [recordCall kind cmd s answer] }

/-- One call of the billing repository on a hold. -/
def holdCall (rt : Runtime) (kind : HoldKind) (cmd : BatchImageBalanceHoldCommand) :
    Op (Except BillingError BatchImageBalanceHoldResult) :=
  .atomic fun env s =>
    let out := applyBatchImageBalanceHold rt env.now env.billingFaults kind cmd s.billing
    (out.1, s.called kind cmd out.1 out.2)

def reserveBatchImageBalanceHold (rt : Runtime) (job : BatchImageJob) (payloadHash : String) :
    Op (Except BatchImageError Unit) :=
  match buildBatchImageHoldCommand job (batchImageHoldRequestID job.batchID) 0 payloadHash with
  | .error e => pure (.error e)
  | .ok cmd =>
    if cmd.holdAmount ≤ 0 then pure (.ok ())
    else do
      let answer ← holdCall rt .reserve cmd
      match answer with
      | .ok _ => pure (.ok ())
      | .error .batchImageInsufficientBalance => pure (.error .insufficientBalance)
      | .error _ => pure (.error .billingHoldFailed)

def captureBatchImageBalanceHold (rt : Runtime) (job : BatchImageJob) (actualAmount : ℚ)
    (payloadHash : String) : Op (Except BatchImageError Unit) :=
  match buildBatchImageHoldCommand job (batchImageCaptureRequestID job.batchID) actualAmount
      payloadHash with
  | .error e => pure (.error e)
  | .ok cmd => do
    let answer ← holdCall rt .capture cmd
    match answer with
    | .ok _ => pure (.ok ())
    | .error _ => pure (.error .settlementBillingFailed)

/-- A fingerprint conflict counts as released: an earlier release was committed. -/
def releaseBatchImageBalanceHold (rt : Runtime) (job : BatchImageJob) (payloadHash : String) :
    Op (Except BatchImageError Unit) :=
  match buildBatchImageHoldCommand job (batchImageReleaseRequestID job.batchID) 0 payloadHash with
  | .error e => pure (.error e)
  | .ok cmd =>
    if cmd.holdAmount ≤ 0 then pure (.ok ())
    else do
      let answer ← holdCall rt .release cmd
      match answer with
      | .ok _ => pure (.ok ())
      | .error .usageBillingRequestConflict => pure (.ok ())
      | .error _ => pure (.error .billingHoldFailed)

end Sub2api.BatchImage
