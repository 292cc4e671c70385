import Sub2api.Billing.Holds

/-!
# Batch-image jobs

The job row, its status machine and the commands on its hold. `canTransition_pastSubmit` is what
the status machine gives to the accounting of holds: only the provider-submitted update takes a
job into the statuses that end in settlement.
-/

namespace Sub2api.BatchImage

open Database Go Billing

inductive JobStatus where
  | created
  | uploading
  | submitted
  | running
  | indexing
  | settling
  | completed
  | failed
  | cancelled
  | outputDeleted
  deriving DecidableEq

namespace JobStatus

/-- `IsTerminalBatchImageJobStatus`. -/
def terminal : JobStatus → Bool
  | .completed | .failed | .cancelled | .outputDeleted => true
  | _ => false

/-- The job has ended otherwise than by a failure. -/
def ended (status : JobStatus) : Bool := status.terminal && status != .failed

/-- `isBatchImageProcessorDoneStatus`. -/
def processorDone (status : JobStatus) : Bool := status == .settling || status.terminal

/-- `CanTransitionBatchImageJob`. -/
def canTransition (source target : JobStatus) : Bool :=
  if source.terminal then target == .outputDeleted && source != .outputDeleted
  else if target == .failed then true
  else
    match source, target with
    | .created, .uploading | .created, .submitted | .created, .cancelled => true
    | .uploading, .submitted | .uploading, .cancelled => true
    | .submitted, .running | .submitted, .indexing | .submitted, .cancelled => true
    | .running, .running | .running, .indexing | .running, .cancelled => true
    | .indexing, .settling => true
    | .settling, .completed => true
    | _, _ => false

/-- The statuses on the way from a submitted batch to a settled one. -/
def pastSubmit : JobStatus → Bool
  | .submitted | .running | .indexing | .settling | .completed => true
  | _ => false

theorem canTransition_pastSubmit {source target : JobStatus}
    (allowed : source.canTransition target = true) (past : target.pastSubmit = true)
    (other : target ≠ .submitted) : source.pastSubmit = true := by
  cases source <;> cases target <;> simp_all [canTransition, terminal, pastSubmit]

end JobStatus

inductive BatchImageError where
  | jobNotFound
  | jobExists
  | invalidTransition
  | alreadySettled
  | settlementInvalidStatus
  | settlementMissingAPIKeyID
  | settlementMissingAccountID
  | settlementInvalidCounts
  | settlementManifestConflict
  | settlementPricingMissing
  | settlementCostExceedsHold
  | settlementBillingFailed
  | billingHoldFailed
  | insufficientBalance
  | queueFailed
  | providerSubmitFailed
  | cancelFailed
  | unsupportedProvider
  | missingAccountID
  | missingProviderJobName
  | indexStateConflict
  | indexOutputMissing
  | indexFailed
  | database
  deriving DecidableEq

/-- A row of `batch_image_jobs`; the money columns are `DECIMAL(20,10)`. -/
structure BatchImageJob where
  batchID : String
  userID : ℤ
  apiKeyID : Option ℤ
  accountID : Option ℤ
  provider : String
  model : String
  status : JobStatus := .created
  itemCount : ℤ
  successCount : ℤ := 0
  failCount : ℤ := 0
  estimatedCost : Numeric 10
  holdAmount : Option (Numeric 10)
  billableUnitPrice : Numeric 10
  pricingSnapshotVersion : ℤ
  providerJobName : Option String := none
  providerOutputRef : Option String := none
  requestHash : Option String
  manifestHash : Option String := none
  actualCost : Option (Numeric 10) := none
  retryCount : ℤ := 0
  lastErrorCode : Option String := none
  userDeleted : Bool := false
  inputDeletedAt : Option Time := none
  outputDeletedAt : Option Time := none
  updatedAt : Time
  /-- History: how often a failed submission was recorded for a job that had ended otherwise. -/
  overwrites : ℕ := 0

/-- `NewBatchImageID`, from sixteen random bytes. -/
def newBatchImageID (bytes : List (Fin 256)) : String := "imgbatch_" ++ hexEncode bytes

theorem noBlank_newBatchImageID (bytes : List (Fin 256)) : NoBlank (newBatchImageID bytes) := by
  have named : NoBlank "imgbatch_" := by decide
  exact named.append (noBlank_hexEncode bytes)

namespace BatchImageJob

/-- `batchImageDerefString` of an optional column. -/
def text (column : Option String) : String := column.getD ""

/-- The amount to hold: the hold column when it is set, else the estimate. -/
def rawHold (job : BatchImageJob) : ℚ :=
  match job.holdAmount with
  | some hold => hold.value
  | none => job.estimatedCost.value

/-- The hold amount of the job's commands, not negative. -/
def heldAmount (job : BatchImageJob) : ℚ := if job.rawHold < 0 then 0 else job.rawHold

/-- `BuildBatchImageSettlementManifestHash`. -/
def settlementManifestHash (rt : Runtime) (job : BatchImageJob) : String :=
  rt.sha256Hex (String.intercalate (String.ofList [Char.ofNat 0])
    [ trimSpace job.batchID, trimSpace job.provider, trimSpace job.model,
      text job.providerJobName, text job.providerOutputRef, toString job.successCount,
      toString job.failCount, toString job.itemCount ])

/-- `isBatchImageSettlementRetryExhausted`; the limit is five retries. -/
def settlementRetryExhausted (job : BatchImageJob) : Bool :=
  job.status == .settling && 5 ≤ job.retryCount && hasPrefix (text job.lastErrorCode) "SETTLEMENT_"

end BatchImageJob

/-- `buildBatchImageHoldCommand`. -/
def buildBatchImageHoldCommand (job : BatchImageJob) (requestID : String) (actualAmount : ℚ)
    (payloadHash : String) : Except BatchImageError BatchImageBalanceHoldCommand :=
  match job.apiKeyID with
  | none => .error .settlementMissingAPIKeyID
  | some apiKeyID =>
    if apiKeyID ≤ 0 then .error .settlementMissingAPIKeyID
    else
      .ok
        { requestID := requestID
          apiKeyID := apiKeyID
          userID := job.userID
          batchID := job.batchID
          holdAmount := job.heldAmount
          actualAmount := if actualAmount < 0 then 0 else actualAmount
          requestPayloadHash := trimSpace payloadHash }

/-- What a job's row never changes: whose hold it is and how much. -/
structure SameTerms (job job' : BatchImageJob) : Prop where
  batchID : job'.batchID = job.batchID
  userID : job'.userID = job.userID
  apiKeyID : job'.apiKeyID = job.apiKeyID
  hold : job'.heldAmount = job.heldAmount

theorem SameTerms.refl (job : BatchImageJob) : SameTerms job job := ⟨rfl, rfl, rfl, rfl⟩

theorem SameTerms.trans {job job' job'' : BatchImageJob} (first : SameTerms job job')
    (second : SameTerms job' job'') : SameTerms job job'' :=
  ⟨second.batchID.trans first.batchID, second.userID.trans first.userID,
    second.apiKeyID.trans first.apiKeyID, second.hold.trans first.hold⟩

theorem SameTerms.symm {job job' : BatchImageJob} (same : SameTerms job job') :
    SameTerms job' job :=
  ⟨same.batchID.symm, same.userID.symm, same.apiKeyID.symm, same.hold.symm⟩

/-- The command a job's terms determine, apart from the fingerprint's ingredients. -/
theorem buildBatchImageHoldCommand_ok {job : BatchImageJob} {requestID payloadHash : String}
    {actualAmount : ℚ} {cmd : BatchImageBalanceHoldCommand}
    (built : buildBatchImageHoldCommand job requestID actualAmount payloadHash = .ok cmd) :
    job.apiKeyID = some cmd.apiKeyID ∧ cmd.requestID = requestID ∧ cmd.userID = job.userID ∧
      cmd.batchID = job.batchID ∧ cmd.holdAmount = job.heldAmount ∧ 0 ≤ cmd.actualAmount := by
  unfold buildBatchImageHoldCommand at built
  cases key : job.apiKeyID with
  | none => rw [key] at built; cases built
  | some apiKeyID =>
      rw [key] at built
      dsimp only at built
      split at built
      · cases built
      · cases built
        refine ⟨rfl, rfl, rfl, rfl, rfl, ?_⟩
        show 0 ≤ if actualAmount < 0 then 0 else actualAmount
        split
        · exact le_rfl
        · exact not_lt.mp ‹_›

end Sub2api.BatchImage
