import Sub2api.BatchImage.Store

/-!
# The calls on batch-image jobs

`Submit`, `Settle`, the pipeline worker's `Process`, `Cancel` and the stale recovery, each as a
program of repository actions, and the pool in which any number of them run interleaved.
-/

namespace Sub2api.BatchImage

open Database Go Billing Interleave
open Interleave.Prog (ask)

/-! ### Submit -/

/-- `releaseFailedSubmitHold`: the error to return, when there is one. -/
def releaseFailedSubmitHold (rt : Runtime) (job : BatchImageJob) (requestHash : String) :
    Op (Option BatchImageError) := do
  let released ← releaseBatchImageBalanceHold rt job requestHash
  match released with
  | .ok () => pure none
  | .error _ => do
    recordBatchImageJobSubmitFailure job.batchID "BILLING_RELEASE_FAILED" true
    let _ ← ask Env.succeeds
    pure (some .billingHoldFailed)

/-- Records a failed submission and hides the job from its owner. -/
def failSubmit (req : SubmitRequest) (job : BatchImageJob) (code : String) : Op Unit := do
  recordBatchImageJobSubmitFailure job.batchID code true
  markBatchImageJobUserDeleted req.userID req.apiKeyID job.batchID

/-- Gives the hold back, then records the failure, unless giving back failed. -/
def abandonSubmit (rt : Runtime) (req : SubmitRequest) (job : BatchImageJob) (code : String)
    (error : BatchImageError) : Op (Except BatchImageError Unit) := do
  let releaseError ← releaseFailedSubmitHold rt job req.requestHash
  match releaseError with
  | some e => pure (.error e)
  | none => do
    failSubmit req job code
    pure (.error error)

/-- From the provider's job on: register it with ours and queue the batch. -/
def registerSubmitted (job : BatchImageJob) (providerJobName : String) :
    Op (Except BatchImageError Unit) := do
  let registered ← updateBatchImageJobProviderSubmit job.batchID providerJobName
  match registered with
  | .error e => do
    -- The provider's job is cancelled and cleaned up on a best-effort basis.
    let _ ← ask Env.succeeds
    let _ ← appendBatchImageEvent
    pure (.error e)
  | .ok () => do
    let queued ← ask Env.succeeds
    if queued then do
      let created ← getBatchImageJobByBatchID job.batchID
      match created with
      | .error e => pure (.error e)
      | .ok _ => pure (.ok ())
    else do
      recordBatchImageJobSubmitFailure job.batchID "QUEUE_FAILED" false
      pure (.error .queueFailed)

/-- From the reserved hold on: the items, the `uploading` status and the provider's submission. -/
def uploadReserved (rt : Runtime) (req : SubmitRequest) (job : BatchImageJob) :
    Op (Except BatchImageError Unit) := do
  let items ← ask Env.succeeds
  if items then do
    let uploading ← transitionBatchImageJobStatus job.batchID .uploading
    match uploading with
    | .error .invalidTransition => do
      -- A concurrent cancel ended the job: its status is left alone.
      let releaseError ← releaseFailedSubmitHold rt job req.requestHash
      pure (.error (releaseError.getD .invalidTransition))
    | .error e => abandonSubmit rt req job "UPLOAD_TRANSITION_FAILED" e
    | .ok () => do
      let submitted ← ask Env.providerJob
      match submitted with
      | none => abandonSubmit rt req job "PROVIDER_SUBMIT_FAILED" .providerSubmitFailed
      | some name =>
        if trimSpace name = "" then
          abandonSubmit rt req job "PROVIDER_SUBMIT_FAILED" .providerSubmitFailed
        else registerSubmitted job name
  else abandonSubmit rt req job "ITEM_CREATE_FAILED" .queueFailed

/-- `Submit`, from the insertion of the job on, as call number `me`. -/
def submit (rt : Runtime) (me : ℕ) (req : SubmitRequest) : Op (Except BatchImageError Unit) := do
  let created ← createBatchImageJob me req
  match created with
  | .error e => pure (.error e)
  | .ok job => do
    let reserved ← reserveBatchImageBalanceHold rt job req.requestHash
    match reserved with
    | .error e => do
      failSubmit req job
        (if e = .insufficientBalance then "INSUFFICIENT_BALANCE" else "BILLING_HOLD_FAILED")
      pure (.error e)
    | .ok () => uploadReserved rt req job

/-! ### Settle -/

/-- Releases the hold and fails the job: the error `Settle` returns. -/
def failExhaustedSettlement (rt : Runtime) (job : BatchImageJob) : Op BatchImageError := do
  let released ← releaseBatchImageBalanceHold rt job (BatchImageJob.text job.requestHash)
  match released with
  | .error _ => do
    let _ ← setBatchImageJobSettlementFailed job.batchID "SETTLEMENT_RELEASE_FAILED"
    pure .settlementBillingFailed
  | .ok () => do
    let failed ← transitionBatchImageJobStatus job.batchID .failed
      (some "SETTLEMENT_BILLING_RETRY_EXHAUSTED")
    match failed with
    | .error e => pure e
    | .ok () => pure .settlementBillingFailed

/-- Counts a failure; at the limit the job is failed, and that error replaces `error`. -/
def recordSettlementFailure (rt : Runtime) (job : BatchImageJob) (code : String)
    (error : BatchImageError) : Op (Except BatchImageError Unit) := do
  let counted ← setBatchImageJobSettlementFailed job.batchID code
  match counted with
  | .error _ => pure (.error error)
  | .ok retryCount =>
    if 5 ≤ retryCount then do
      let e ← failExhaustedSettlement rt
        { job with retryCount := retryCount, lastErrorCode := some code }
      pure (.error e)
    else pure (.error error)

/-- The snapshot's unit price, or for a job without one the resolver's answer. -/
def settlementUnitPrice (job : BatchImageJob) : Op (Option ℚ) :=
  if 1 ≤ job.pricingSnapshotVersion then
    if job.billableUnitPrice.value < 0 then pure none
    else pure (some job.billableUnitPrice.value)
  else ask Env.price

/-- From a cost that fits the hold on: capture, then mark the job settled. -/
def captureAndSettle (rt : Runtime) (job : BatchImageJob) (actualCost : ℚ)
    (manifestHash : String) : Op (Except BatchImageError Unit) := do
  let captured ← captureBatchImageBalanceHold rt job actualCost manifestHash
  match captured with
  | .error e => recordSettlementFailure rt job "SETTLEMENT_BILLING_FAILED" e
  | .ok () => markBatchImageJobSettled job.batchID actualCost manifestHash

/-- From the job's own checks on: its counts, its manifest and its price. -/
def settleJob (rt : Runtime) (job : BatchImageJob) : Op (Except BatchImageError Unit) :=
  let manifestHash := job.settlementManifestHash rt
  if job.successCount < 0 ∨ job.failCount < 0 ∨ job.itemCount < 0 ∨
      job.itemCount < job.successCount + job.failCount then
    recordSettlementFailure rt job "SETTLEMENT_INVALID_COUNTS" .settlementInvalidCounts
  else if trimSpace (BatchImageJob.text job.manifestHash) ≠ "" ∧
      BatchImageJob.text job.manifestHash ≠ manifestHash then
    recordSettlementFailure rt job "SETTLEMENT_MANIFEST_CONFLICT" .settlementManifestConflict
  else do
    let price ← settlementUnitPrice job
    match price with
    | none => recordSettlementFailure rt job "SETTLEMENT_PRICING_MISSING" .settlementPricingMissing
    | some unitPrice =>
      if unitPrice < 0 then
        recordSettlementFailure rt job "SETTLEMENT_PRICING_MISSING" .settlementPricingMissing
      else
        let actualCost := rt.mulFloat64 job.successCount unitPrice
        if rt.subFloat64 actualCost job.rawHold > holdTolerance then
          recordSettlementFailure rt job "SETTLEMENT_COST_EXCEEDS_HOLD" .settlementCostExceedsHold
        else captureAndSettle rt job actualCost manifestHash

/-- `BatchImageSettlementService.Settle`. -/
def settle (rt : Runtime) (batchID : String) : Op (Except BatchImageError Unit) := do
  let found ← getBatchImageJobByBatchID batchID
  match found with
  | .error e => pure (.error e)
  | .ok job =>
    if job.status = .completed then pure (.ok ())
    else if job.status ≠ .settling then pure (.error .settlementInvalidStatus)
    else if job.apiKeyID.getD 0 ≤ 0 then pure (.error .settlementMissingAPIKeyID)
    else if job.accountID.getD 0 ≤ 0 then pure (.error .settlementMissingAccountID)
    else if job.settlementRetryExhausted then do
      let e ← failExhaustedSettlement rt job
      pure (.error e)
    else settleJob rt job

/-! ### The worker -/

inductive ProcessResult where
  | terminal
  | requeue

/-- `releaseTerminalHold`, for the status the worker believes the job in. -/
def releaseTerminalHold (rt : Runtime) (job : BatchImageJob) : Op (Except BatchImageError Unit) :=
  if job.status = .failed ∨ job.status = .cancelled then
    releaseBatchImageBalanceHold rt job (BatchImageJob.text job.requestHash)
  else pure (.ok ())

/-- Ends the job in a status and gives its hold back. -/
def endJob (rt : Runtime) (job : BatchImageJob) (target : JobStatus) (code : Option String) :
    Op (Except BatchImageError ProcessResult) := do
  let ended ← transitionBatchImageJobStatus job.batchID target code
  match ended with
  | .error e => pure (.error e)
  | .ok () => do
    let released ← releaseTerminalHold rt { job with status := target }
    match released with
    | .error e => pure (.error e)
    | .ok () => pure (.ok .terminal)

/-- The indexer: parse the provider's output and rebuild the items. -/
def indexOutput (job : BatchImageJob) : Op (Except BatchImageError Unit) := do
  let parsed ← ask Env.index
  match parsed with
  | .error e => pure (.error e)
  | .ok counts => replaceBatchImageItemsForJob job.batchID counts

/-- `indexAndSettle`: rebuild the items and hand the job to settlement. -/
def indexAndSettle (rt : Runtime) (job : BatchImageJob) :
    Op (Except BatchImageError ProcessResult) := do
  let indexed ← indexOutput job
  match indexed with
  | .error .indexOutputMissing => pure (.error .indexOutputMissing)
  | .error .indexStateConflict => pure (.ok .requeue)
  | .error _ => endJob rt job .failed (some "INDEX_PARSE_FAILED")
  | .ok () => do
    let settling ← transitionBatchImageJobStatus job.batchID .settling
    match settling with
    | .error e => pure (.error e)
    | .ok () => pure (.ok .requeue)

/-- `persistProviderOutputRef`. -/
def persistProviderOutputRef (job : BatchImageJob) (ref : String) :
    Op (Except BatchImageError Unit) :=
  if trimSpace ref = "" ∨ BatchImageJob.text job.providerOutputRef = trimSpace ref then
    pure (.ok ())
  else updateBatchImageJobProviderOutputRef job.batchID (trimSpace ref)

/-- What the worker does with the provider's status. -/
def followProvider (rt : Runtime) (job : BatchImageJob) (status : ProviderStatus) :
    Op (Except BatchImageError ProcessResult) := do
  let persisted ← persistProviderOutputRef job status.outputRef
  match persisted with
  | .error e => pure (.error e)
  | .ok () =>
    match status.state with
    | .running =>
      if job.status ≠ .running then do
        let running ← transitionBatchImageJobStatus job.batchID .running
        match running with
        | .error e => pure (.error e)
        | .ok () => pure (.ok .requeue)
      else pure (.ok .requeue)
    | .succeeded => do
      let indexing ← transitionBatchImageJobStatus job.batchID .indexing
      match indexing with
      | .error e => pure (.error e)
      | .ok () => indexAndSettle rt { job with status := .indexing }
    | .failed | .expired =>
      endJob rt job .failed (some (if trimSpace status.errorCode = "" then
        if status.state = .expired then "PROVIDER_BATCH_EXPIRED" else "PROVIDER_BATCH_FAILED"
        else trimSpace status.errorCode))
    | .cancelled => endJob rt job .cancelled none
    | .queued | .unknown => pure (.ok .requeue)

/-- `BatchImageProviderProcessor.Process`. -/
def processProvider (rt : Runtime) (batchID : String) :
    Op (Except BatchImageError ProcessResult) := do
  let found ← getBatchImageJobByBatchID batchID
  match found with
  | .error e => pure (.error e)
  | .ok job =>
    if job.status.processorDone then do
      let released ← releaseTerminalHold rt job
      match released with
      | .error e => pure (.error e)
      | .ok () => pure (.ok .terminal)
    else if job.accountID.getD 0 ≤ 0 then pure (.error .missingAccountID)
    else do
      -- The provider is registered, the account resolves and the provider supports it.
      let resolved ← ask Env.succeeds
      if !resolved then pure (.error .unsupportedProvider)
      else if trimSpace (BatchImageJob.text job.providerJobName) = "" then
        pure (.error .missingProviderJobName)
      else if job.status = .indexing then indexAndSettle rt job
      else do
        let answer ← ask Env.providerStatus
        match answer with
        | some (some status) => followProvider rt job status
        | _ => pure (.ok .requeue)

/-- `BatchImagePipelineProcessor.Process`. -/
def process (rt : Runtime) (batchID : String) : Op (Except BatchImageError ProcessResult) := do
  let found ← getBatchImageJobByBatchID batchID
  match found with
  | .error e => pure (.error e)
  | .ok job =>
    if job.status = .settling then do
      let settled ← settle rt batchID
      match settled with
      | .ok () => pure (.ok .terminal)
      | .error .settlementBillingFailed => do
        let updated ← getBatchImageJobByBatchID batchID
        match updated with
        | .ok job => pure (.ok (if job.status.terminal then .terminal else .requeue))
        | .error _ => pure (.ok .requeue)
      | .error e => pure (.error e)
    else processProvider rt batchID

/-! ### Cancel and recovery -/

/-- The end of `Cancel`: the job as it is now. -/
def updatedPublicJob (userID apiKeyID : ℤ) (batchID : String) :
    Op (Except BatchImageError Unit) := do
  let updated ← getBatchImageJobByBatchIDForOwner userID apiKeyID batchID
  match updated with
  | .error e => pure (.error e)
  | .ok _ => pure (.ok ())

/-- `BatchImagePublicService.Cancel`. -/
def cancel (rt : Runtime) (userID apiKeyID : ℤ) (batchID : String) :
    Op (Except BatchImageError Unit) := do
  let found ← getBatchImageJobByBatchIDForOwner userID apiKeyID batchID
  match found with
  | .error e => pure (.error e)
  | .ok job =>
    if job.status.processorDone then
      if job.status = .failed ∨ job.status = .cancelled then do
        let released ← releaseBatchImageBalanceHold rt job (BatchImageJob.text job.requestHash)
        match released with
        | .error _ => do
          let _ ← ask Env.succeeds
          pure (.error .cancelFailed)
        | .ok () => pure (.ok ())
      else pure (.ok ())
    else if trimSpace (BatchImageJob.text job.providerJobName) ≠ "" then do
      let asked ← ask Env.succeeds
      if asked then do
        let _ ← appendBatchImageEvent
        updatedPublicJob userID apiKeyID batchID
      else pure (.error .cancelFailed)
    else do
      let cancelled ← transitionBatchImageJobStatus job.batchID .cancelled
      match cancelled with
      | .error e => pure (.error e)
      | .ok () => do
        let released ← releaseBatchImageBalanceHold rt job (BatchImageJob.text job.requestHash)
        match released with
        | .error _ => do
          let _ ← ask Env.succeeds
          pure (.error .cancelFailed)
        | .ok () => updatedPublicJob userID apiKeyID batchID

/-- The jobs of one recovery scan, one after the other. -/
def recoverStale (rt : Runtime) (cutoff : Time) : List BatchImageJob → Op Unit
  | [] => pure ()
  | job :: rest => do
    let (applied, _) ← failStaleUnsubmittedBatchImageJob job.batchID cutoff
      "SUBMIT_STALE_BEFORE_PROVIDER"
    if applied then do
      let released ← releaseBatchImageBalanceHold rt { job with status := .failed }
        (BatchImageJob.text job.requestHash)
      match released with
      | .error _ => do
        let _ ← ask Env.succeeds
        recoverStale rt cutoff rest
      | .ok () => recoverStale rt cutoff rest
    else recoverStale rt cutoff rest

/-- `ReleaseStaleUnsubmittedOnce`. -/
def releaseStaleUnsubmittedOnce (rt : Runtime) (staleAfter : Time) (limit : ℕ) : Op Unit := do
  let now ← ask Env.now
  let listed ← listStaleUnsubmittedBatchImageJobs (now - staleAfter) limit
  match listed with
  | .error _ => pure ()
  | .ok jobs => recoverStale rt (now - staleAfter) jobs

/-! ### Any number of calls -/

/-- A call some party makes. `reserve` is a call of `reserveBatchImageBalanceHold` of its own. -/
inductive Call where
  | submit (req : SubmitRequest)
  | heartbeat (batchID : String)
  | reserve (batchID payloadHash : String)
  | settle (batchID : String)
  | process (batchID : String)
  | cancel (userID apiKeyID : ℤ) (batchID : String)
  | recover (staleAfter : Time) (limit : ℕ)

/-- The program of call number `me`; what it returns is dropped. -/
def Call.program (rt : Runtime) (me : ℕ) : Call → Op Unit
  | .submit req => do
    let _ ← BatchImage.submit rt me req
    pure ()
  | .heartbeat batchID => do
    let _ ← touchBatchImageJobSubmitting batchID
    pure ()
  | .reserve batchID payloadHash => do
    let found ← getBatchImageJobByBatchID batchID
    match found with
    | .error _ => pure ()
    | .ok job => do
      let _ ← reserveBatchImageBalanceHold rt job payloadHash
      pure ()
  | .settle batchID => do
    let _ ← BatchImage.settle rt batchID
    pure ()
  | .process batchID => do
    let _ ← BatchImage.process rt batchID
    pure ()
  | .cancel userID apiKeyID batchID => do
    let _ ← BatchImage.cancel rt userID apiKeyID batchID
    pure ()
  | .recover staleAfter limit => releaseStaleUnsubmittedOnce rt staleAfter limit

/-- The calls, numbered, none of them begun. -/
def start (rt : Runtime) (calls : ℕ → Call) (s : State) : Pool ℕ (Op Unit) State :=
  { shared := s, threads := fun me => (calls me).program rt me }

/-- The pool after a schedule of turns. -/
def run (rt : Runtime) (calls : ℕ → Call) (s : State) (schedule : List (ℕ × Env)) :
    Pool ℕ (Op Unit) State :=
  (start rt calls s).run Prog.step schedule

end Sub2api.BatchImage
