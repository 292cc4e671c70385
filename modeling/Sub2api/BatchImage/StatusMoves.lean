import Sub2api.BatchImage.Programs

/-!
# Cleaning up after batch-image jobs, and the moves of their status

The cleanup of a job's inputs and outputs at its provider, by a sweep or for its owner, and the
pool in which it runs beside the other calls. The columns of times by which the sweep selects its
rows are not in the row: a sweep meets the rows that the environment names.
-/

namespace Sub2api.BatchImage

open Database Go Billing Interleave
open Interleave.Prog (ask)

inductive CleanupTarget where
  | input
  | output

inductive CleanupError where
  | repository (e : BatchImageError)
  | cleanupFailed
  | outputDeleteNotReady
  | cleanupUnsafePath
  | providerCleanupFailed

/-! ### The repository -/

/-- A row's update and its event, whose failure does not undo the update. -/
def updateWithEvent (id : String) (f : Env → BatchImageJob → BatchImageJob) :
    Op (Except CleanupError Unit) := do
  let updated ← onJob id fun env job => .ok ((), f env job)
  match updated with
  | .error e => pure (.error (.repository e))
  | .ok () => do
    let written ← appendBatchImageEvent
    pure (if written then .ok () else .error (.repository .database))

def markBatchImageInputDeleted (id : String) : Op (Except CleanupError Unit) :=
  updateWithEvent id fun env job => { job with
    inputDeletedAt := some (job.inputDeletedAt.getD env.now)
    updatedAt := env.now }

/-- `MarkBatchImageOutputDeleted`: only a completed job changes its status. -/
def markBatchImageOutputDeleted (id : String) : Op (Except CleanupError Unit) :=
  updateWithEvent id fun env job => { job with
    status := if job.status = .completed then .outputDeleted else job.status
    outputDeletedAt := some (job.outputDeletedAt.getD env.now)
    updatedAt := env.now }

def recordBatchImageCleanupFailure (id code : String) : Op (Except CleanupError Unit) :=
  updateWithEvent id fun env job => { job with
    lastErrorCode := some code
    retryCount := job.retryCount + 1
    updatedAt := env.now }

/-! ### The service -/

/-- `callProviderCleanup`: what is not found is cleaned up. -/
def callProviderCleanup (job : BatchImageJob) : Op (Option CleanupFailure) := do
  let registered ← ask Env.succeeds
  if !registered then pure (some (.other "BATCH_IMAGE_UNSUPPORTED_PROVIDER"))
  else if job.accountID.getD 0 ≤ 0 then pure (some (.other "BATCH_IMAGE_MISSING_ACCOUNT_ID"))
  else ask Env.cleanupFailure

/-- `cleanupFailureCode`. -/
def CleanupFailure.code : CleanupFailure → String
  | .unsafePath => "BATCH_IMAGE_CLEANUP_UNSAFE_PATH"
  | .other reason =>
      if trimSpace reason = "" then "BATCH_IMAGE_PROVIDER_CLEANUP_FAILED" else trimSpace reason

/-- From the provider's cleanup on. -/
def cleanupAtProvider (job : BatchImageJob) (target : CleanupTarget) :
    Op (Except CleanupError Unit) := do
  let _ ← appendBatchImageEvent
  let failure ← callProviderCleanup job
  match failure with
  | some failure => do
    let _ ← recordBatchImageCleanupFailure job.batchID failure.code
    let _ ← appendBatchImageEvent
    pure (.error (if failure = .unsafePath then .cleanupUnsafePath else .providerCleanupFailed))
  | none =>
    match target with
    | .input => markBatchImageInputDeleted job.batchID
    | .output => markBatchImageOutputDeleted job.batchID

/-- `cleanupJob`, on a job as it was read. -/
def cleanupJob (job : BatchImageJob) (target : CleanupTarget) : Op (Except CleanupError Unit) :=
  match target with
  | .input =>
    if job.inputDeletedAt.isSome then pure (.ok ())
    else if job.status.terminal then cleanupAtProvider job .input
    else pure (.error .cleanupFailed)
  | .output =>
    if job.outputDeletedAt.isSome ∨ job.status = .outputDeleted then pure (.ok ())
    else if job.status.terminal then cleanupAtProvider job .output
    else pure (.error .outputDeleteNotReady)

/-- `CleanupInput` and `CleanupOutput`. -/
def cleanup (batchID : String) (target : CleanupTarget) : Op (Except CleanupError Unit) := do
  let found ← getBatchImageJobByBatchID batchID
  match found with
  | .error e => pure (.error (.repository e))
  | .ok job => cleanupJob job target

/-- `DeleteOutputsForOwner`. -/
def deleteOutputsForOwner (userID apiKeyID : ℤ) (batchID : String) :
    Op (Except CleanupError Unit) := do
  let found ← getBatchImageJobByBatchIDForOwner userID apiKeyID batchID
  match found with
  | .error e => pure (.error (.repository e))
  | .ok job =>
    if job.status = .outputDeleted ∨ job.outputDeletedAt.isSome then pure (.ok ())
    else if job.status ≠ .completed then pure (.error .outputDeleteNotReady)
    else do
      let _ ← appendBatchImageEvent
      let cleaned ← cleanupJob job .output
      match cleaned with
      | .error e => pure (.error e)
      | .ok () => do
        let updated ← getBatchImageJobByBatchIDForOwner userID apiKeyID batchID
        match updated with
        | .error e => pure (.error (.repository e))
        | .ok _ => pure (.ok ())

/-- The rows a scan meets that are due, up to a limit. -/
def listBatchImageJobsDueForCleanup (target : CleanupTarget) (limit : ℕ) :
    Op (Except BatchImageError (List BatchImageJob)) :=
  .atomic fun env s =>
    if env.fails then (.error .database, s)
    else
      let due (job : BatchImageJob) : Bool :=
        match target with
        | .input => job.inputDeletedAt.isNone && job.status.terminal
        | .output =>
          job.outputDeletedAt.isNone && job.providerOutputRef.isSome && job.status = .completed
      (.ok (((env.candidates.filterMap s.jobs).filter due).take limit), s)

def cleanupJobs (target : CleanupTarget) : List BatchImageJob → Op Unit
  | [] => pure ()
  | job :: rest => do
    let _ ← cleanupJob job target
    cleanupJobs target rest

/-- `RunOnce` of the cleanup service. -/
def cleanupRunOnce (limit : ℕ) : Op Unit := do
  let inputs ← listBatchImageJobsDueForCleanup .input limit
  match inputs with
  | .error _ => pure ()
  | .ok inputs => do
    cleanupJobs .input inputs
    let outputs ← listBatchImageJobsDueForCleanup .output limit
    match outputs with
    | .error _ => pure ()
    | .ok outputs => cleanupJobs .output outputs

/-! ### Any number of parties -/

inductive Party where
  | call (made : Call)
  | cleanup (batchID : String) (target : CleanupTarget)
  | deleteOutputs (userID apiKeyID : ℤ) (batchID : String)
  | cleanupRun (limit : ℕ)

def Party.program (rt : Runtime) (me : ℕ) : Party → Op Unit
  | .call made => made.program rt me
  | .cleanup batchID target => do
    let _ ← BatchImage.cleanup batchID target
    pure ()
  | .deleteOutputs userID apiKeyID batchID => do
    let _ ← deleteOutputsForOwner userID apiKeyID batchID
    pure ()
  | .cleanupRun limit => cleanupRunOnce limit

/-- The state after a schedule of turns. -/
def stateAfter (rt : Runtime) (parties : ℕ → Party) (s : State) (schedule : List (ℕ × Env)) :
    State :=
  (Pool.run Prog.step schedule
    { shared := s, threads := fun me => (parties me).program rt me }).shared

end Sub2api.BatchImage

/-!
### Batch-image jobs move along their state machine

Every action changes the status of a job as the state machine allows, with one exception: the
record of a failed submission writes `failed` whatever it finds. `overwrites` counts where that
was a job which had ended otherwise.

* `StatusStep` — what an action does to the rows;
* `recordBatchImageJobSubmitFailure_lawful` — the exception.
-/

namespace Sub2api.BatchImage

open Database Go Billing Interleave

/-! ### Steps -/

/-- A row after an action: moved as allowed, or failed although it had ended otherwise. -/
def RowStep (job job' : BatchImageJob) : Prop :=
  (job'.overwrites = job.overwrites ∧
      (job'.status ≠ job.status → job.status.canTransition job'.status = true)) ∨
    (job'.overwrites = job.overwrites + 1 ∧ job'.status ≠ job.status ∧
      job.status.canTransition job'.status = false)

theorem RowStep.refl (job : BatchImageJob) : RowStep job job :=
  Or.inl ⟨rfl, fun differ => absurd rfl differ⟩

/-- A row whose status stays. -/
theorem RowStep.stays {job job' : BatchImageJob} (status : job'.status = job.status)
    (same : job'.overwrites = job.overwrites) : RowStep job job' :=
  Or.inl ⟨same, fun differ => absurd status differ⟩

theorem RowStep.moves {job job' : BatchImageJob}
    (allowed : job.status.canTransition job'.status = true)
    (same : job'.overwrites = job.overwrites) : RowStep job job' :=
  Or.inl ⟨same, fun _ => allowed⟩

/-- What an action does to the rows: none is lost, and a new one has never been overwritten. -/
structure StatusStep (s s' : State) : Prop where
  rows : ∀ id job, s.jobs id = some job → ∃ job', s'.jobs id = some job' ∧ RowStep job job'
  fresh : ∀ id job', s.jobs id = none → s'.jobs id = some job' → job'.overwrites = 0

/-- An action that leaves the rows alone. -/
theorem StatusStep.of_jobs {s s' : State} (same : s'.jobs = s.jobs) : StatusStep s s' where
  rows id job found := ⟨job, same ▸ found, RowStep.refl job⟩
  fresh id job' none found := by
    rw [same, none] at found
    cases found

theorem StatusStep.refl (s : State) : StatusStep s s := .of_jobs rfl

/-- Every action of the program moves statuses so. -/
structure Lawful {α : Type} (prog : Op α) : Prop where
  only : prog.Only StatusStep

section Steps

variable {α β : Type} {id : String}

theorem lawful_ret {a : α} : Lawful (pure a : Op α) := ⟨Prog.Only.ret⟩

theorem Lawful.andThen {prog : Op α} {k : α → Op β} (first : Lawful prog)
    (second : ∀ a, Lawful (k a)) : Lawful (prog >>= k) :=
  ⟨Prog.Only.bind first.only fun a => (second a).only⟩

theorem lawful_ask {answer : Env → α} : Lawful (Prog.ask answer) :=
  ⟨Prog.Only.ask StatusStep.refl⟩

theorem onJob_lawful {f : Env → BatchImageJob → Except BatchImageError (β × BatchImageJob)}
    (steps : ∀ env job answer job', f env job = .ok (answer, job') → RowStep job job') :
    Lawful (onJob id f) := by
  refine ⟨Prog.Only.atomic fun env s => ?_⟩
  by_cases fails : env.fails
  · rw [if_pos fails]
    exact .refl s
  · rw [if_neg fails]
    cases found : s.jobs id with
    | none => exact .refl s
    | some job =>
        dsimp only
        cases wrote : f env job with
        | error e => exact .refl s
        | ok out =>
            obtain ⟨answer, job'⟩ := out
            constructor
            · intro other row isRow
              by_cases same : other = id
              · subst same
                rw [found] at isRow
                cases isRow
                exact ⟨job', Function.update_self .., steps env job answer job' wrote⟩
              · exact ⟨row, (Function.update_of_ne same ..).trans isRow, RowStep.refl row⟩
            · intro other row none isRow
              by_cases same : other = id
              · rw [same, found] at none
                cases none
              · have unchanged : s.jobs other = some row :=
                  (Function.update_of_ne same ..).symm.trans isRow
                rw [none] at unchanged
                cases unchanged

/-! ### The repository -/

theorem createBatchImageJob_lawful {me : ℕ} {req : SubmitRequest} :
    Lawful (createBatchImageJob me req) := by
  refine ⟨Prog.Only.atomic fun env s => ?_⟩
  by_cases fails : env.fails
  · rw [if_pos fails]
    exact .refl s
  · rw [if_neg fails]
    cases found : s.jobs (newBatchImageID env.randomBytes) with
    | some job => exact .refl s
    | none =>
        constructor
        · intro other row isRow
          have differ : other ≠ newBatchImageID env.randomBytes := by
            rintro rfl
            rw [found] at isRow
            cases isRow
          exact ⟨row, (Function.update_of_ne differ ..).trans isRow, RowStep.refl row⟩
        · intro other row none isRow
          by_cases same : other = newBatchImageID env.randomBytes
          · subst same
            have inserted := (Function.update_self ..).symm.trans isRow
            cases inserted
            rfl
          · have unchanged : s.jobs other = some row :=
              (Function.update_of_ne same ..).symm.trans isRow
            rw [none] at unchanged
            cases unchanged

theorem getBatchImageJobByBatchID_lawful : Lawful (getBatchImageJobByBatchID id) := by
  refine onJob_lawful fun env job answer job' wrote => ?_
  cases wrote
  exact .refl job

theorem getBatchImageJobByBatchIDForOwner_lawful {userID apiKeyID : ℤ} :
    Lawful (getBatchImageJobByBatchIDForOwner userID apiKeyID id) := by
  refine onJob_lawful fun env job answer job' wrote => ?_
  split at wrote
  · cases wrote
    exact .refl job
  · cases wrote

theorem transitionBatchImageJobStatus_lawful {target : JobStatus} {code : Option String} :
    Lawful (transitionBatchImageJobStatus id target code) := by
  refine onJob_lawful fun env job answer job' wrote => ?_
  split at wrote
  · rename_i allowed
    cases wrote
    exact .moves allowed rfl
  · cases wrote

theorem touchBatchImageJobSubmitting_lawful : Lawful (touchBatchImageJobSubmitting id) := by
  refine onJob_lawful fun env job answer job' wrote => ?_
  split at wrote
  · cases wrote
    exact .stays rfl rfl
  · cases wrote
    exact .refl job

theorem appendBatchImageEvent_lawful : Lawful appendBatchImageEvent := lawful_ask

theorem failStaleUnsubmittedBatchImageJob_lawful {cutoff : Time} {code : String} :
    Lawful (failStaleUnsubmittedBatchImageJob id cutoff code) := by
  refine Lawful.andThen (onJob_lawful fun env job answer job' wrote => ?_) fun updated => ?_
  · split at wrote
    · rename_i unsubmitted
      cases wrote
      refine .moves ?_ rfl
      rcases unsubmitted.1 with created | uploading
      · rw [created]
        rfl
      · rw [uploading]
        rfl
    · cases wrote
      exact .refl job
  · split
    · exact lawful_ret
    · exact lawful_ret
    · exact lawful_ret
    · exact Lawful.andThen appendBatchImageEvent_lawful fun _ => lawful_ret

theorem updateBatchImageJobProviderOutputRef_lawful {ref : String} :
    Lawful (updateBatchImageJobProviderOutputRef id ref) := by
  refine onJob_lawful fun env job answer job' wrote => ?_
  cases wrote
  exact .stays rfl rfl

theorem updateBatchImageJobProviderSubmit_lawful {name : String} :
    Lawful (updateBatchImageJobProviderSubmit id name) := by
  refine onJob_lawful fun env job answer job' wrote => ?_
  split at wrote
  · rename_i allowed
    cases wrote
    exact .moves allowed rfl
  · cases wrote

/-- The record of a failed submission fails any job; it is counted where the state machine would
not have let it. -/
theorem recordBatchImageJobSubmitFailure_lawful {code : String} {markFailed : Bool} :
    Lawful (recordBatchImageJobSubmitFailure id code markFailed) := by
  refine Lawful.andThen (onJob_lawful fun env job answer job' wrote => ?_) fun updated => ?_
  · cases wrote
    cases markFailed with
    | false => exact .stays rfl rfl
    | true =>
        by_cases ended : job.status.ended
        · refine Or.inr ⟨by simp [ended], ?_⟩
          cases status : job.status <;>
            simp_all [JobStatus.ended, JobStatus.terminal, JobStatus.canTransition]
        · refine Or.inl ⟨by simp [ended], ?_⟩
          cases status : job.status <;>
            simp_all [JobStatus.ended, JobStatus.terminal, JobStatus.canTransition]
  · split
    · exact lawful_ret
    · exact Lawful.andThen appendBatchImageEvent_lawful fun _ => lawful_ret

theorem markBatchImageJobUserDeleted_lawful {userID apiKeyID : ℤ} :
    Lawful (markBatchImageJobUserDeleted userID apiKeyID id) := by
  refine Lawful.andThen (onJob_lawful fun env job answer job' wrote => ?_) fun _ => lawful_ret
  split at wrote
  · cases wrote
    exact .stays rfl rfl
  · cases wrote
    exact .refl job

theorem markBatchImageJobSettled_lawful {actualCost : ℚ} {manifestHash : String} :
    Lawful (markBatchImageJobSettled id actualCost manifestHash) := by
  refine onJob_lawful fun env job answer job' wrote => ?_
  split at wrote
  · rename_i settling
    cases wrote
    refine .moves ?_ rfl
    rw [settling.1]
    rfl
  · split at wrote
    · cases wrote
    · split at wrote <;> cases wrote

theorem setBatchImageJobSettlementFailed_lawful {code : String} :
    Lawful (setBatchImageJobSettlementFailed id code) := by
  refine Lawful.andThen (onJob_lawful fun env job answer job' wrote => ?_) fun updated => ?_
  · cases wrote
    exact .stays rfl rfl
  · split
    · exact lawful_ret
    · exact Lawful.andThen appendBatchImageEvent_lawful fun _ => lawful_ret

theorem replaceBatchImageItemsForJob_lawful {counts : ℤ × ℤ} :
    Lawful (replaceBatchImageItemsForJob id counts) := by
  refine onJob_lawful fun env job answer job' wrote => ?_
  split at wrote
  · cases wrote
    exact .stays rfl rfl
  · cases wrote

theorem listStaleUnsubmittedBatchImageJobs_lawful {cutoff : Time} {limit : ℕ} :
    Lawful (listStaleUnsubmittedBatchImageJobs cutoff limit) := by
  refine ⟨Prog.Only.atomic fun env s => .of_jobs ?_⟩
  dsimp only
  split <;> rfl

/-! ### Holds -/

variable {rt : Runtime} {job : BatchImageJob} {payloadHash : String}

/-- A call of the billing repository leaves the rows alone. -/
theorem called_jobs {kind : HoldKind} {cmd : BatchImageBalanceHoldCommand}
    {answer : Except BillingError BatchImageBalanceHoldResult} {db : Billing.Db} (s : State) :
    (s.called kind cmd answer db).jobs = s.jobs :=
  rfl

theorem holdCall_lawful {kind : HoldKind} {cmd : BatchImageBalanceHoldCommand} :
    Lawful (holdCall rt kind cmd) :=
  ⟨Prog.Only.atomic fun _ s => .of_jobs (called_jobs s)⟩

theorem reserveBatchImageBalanceHold_lawful :
    Lawful (reserveBatchImageBalanceHold rt job payloadHash) := by
  unfold reserveBatchImageBalanceHold
  split
  · exact lawful_ret
  · split
    · exact lawful_ret
    · refine Lawful.andThen holdCall_lawful fun answer => ?_
      split <;> exact lawful_ret

theorem captureBatchImageBalanceHold_lawful {actualAmount : ℚ} :
    Lawful (captureBatchImageBalanceHold rt job actualAmount payloadHash) := by
  unfold captureBatchImageBalanceHold
  split
  · exact lawful_ret
  · refine Lawful.andThen holdCall_lawful fun answer => ?_
    split <;> exact lawful_ret

theorem releaseBatchImageBalanceHold_lawful :
    Lawful (releaseBatchImageBalanceHold rt job payloadHash) := by
  unfold releaseBatchImageBalanceHold
  split
  · exact lawful_ret
  · split
    · exact lawful_ret
    · refine Lawful.andThen holdCall_lawful fun answer => ?_
      split <;> exact lawful_ret

end Steps

end Sub2api.BatchImage
