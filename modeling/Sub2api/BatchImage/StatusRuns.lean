import Sub2api.BatchImage.Settlement
import Sub2api.BatchImage.StatusMoves

/-!
# Runs of batch-image calls and the status machine

* `Party.program_lawful` — every program of every party moves statuses as `StatusStep` says;
* `status_moves_allowed_iff` — over every run, all moves of a job are allowed exactly when no
  failed submission was recorded for it after it had ended otherwise;
* `cancelled_job_fails` — a job that is cancelled while it is submitted.
-/

namespace Sub2api.BatchImage

open Database Go Billing Interleave

section Programs

variable {rt : Runtime} {job : BatchImageJob}

/-! ### Submit -/

theorem releaseFailedSubmitHold_lawful {hash : String} :
    Lawful (releaseFailedSubmitHold rt job hash) := by
  refine Lawful.andThen releaseBatchImageBalanceHold_lawful fun released => ?_
  split
  · exact lawful_ret
  · refine Lawful.andThen recordBatchImageJobSubmitFailure_lawful fun _ => ?_
    exact Lawful.andThen lawful_ask fun _ => lawful_ret

theorem failSubmit_lawful {req : SubmitRequest} {code : String} :
    Lawful (failSubmit req job code) :=
  Lawful.andThen recordBatchImageJobSubmitFailure_lawful fun _ =>
    markBatchImageJobUserDeleted_lawful

theorem abandonSubmit_lawful {req : SubmitRequest} {code : String} {error : BatchImageError} :
    Lawful (abandonSubmit rt req job code error) := by
  refine Lawful.andThen releaseFailedSubmitHold_lawful fun releaseError => ?_
  split
  · exact lawful_ret
  · exact Lawful.andThen failSubmit_lawful fun _ => lawful_ret

theorem registerSubmitted_lawful {name : String} : Lawful (registerSubmitted job name) := by
  refine Lawful.andThen updateBatchImageJobProviderSubmit_lawful fun registered => ?_
  split
  · refine Lawful.andThen lawful_ask fun _ => ?_
    exact Lawful.andThen appendBatchImageEvent_lawful fun _ => lawful_ret
  · refine Lawful.andThen lawful_ask fun queued => ?_
    split
    · refine Lawful.andThen getBatchImageJobByBatchID_lawful fun created => ?_
      split <;> exact lawful_ret
    · exact Lawful.andThen recordBatchImageJobSubmitFailure_lawful fun _ => lawful_ret

theorem uploadReserved_lawful {req : SubmitRequest} : Lawful (uploadReserved rt req job) := by
  refine Lawful.andThen lawful_ask fun items => ?_
  split
  · refine Lawful.andThen transitionBatchImageJobStatus_lawful fun uploading => ?_
    split
    · exact Lawful.andThen releaseFailedSubmitHold_lawful fun _ => lawful_ret
    · exact abandonSubmit_lawful
    · refine Lawful.andThen lawful_ask fun submitted => ?_
      split
      · exact abandonSubmit_lawful
      · split
        · exact abandonSubmit_lawful
        · exact registerSubmitted_lawful
  · exact abandonSubmit_lawful

theorem submit_lawful {me : ℕ} {req : SubmitRequest} : Lawful (submit rt me req) := by
  refine Lawful.andThen createBatchImageJob_lawful fun created => ?_
  split
  · exact lawful_ret
  · refine Lawful.andThen reserveBatchImageBalanceHold_lawful fun reserved => ?_
    split
    · exact Lawful.andThen failSubmit_lawful fun _ => lawful_ret
    · exact uploadReserved_lawful

/-! ### Settle -/

theorem failExhaustedSettlement_lawful : Lawful (failExhaustedSettlement rt job) := by
  refine Lawful.andThen releaseBatchImageBalanceHold_lawful fun released => ?_
  split
  · exact Lawful.andThen setBatchImageJobSettlementFailed_lawful fun _ => lawful_ret
  · refine Lawful.andThen transitionBatchImageJobStatus_lawful fun failed => ?_
    split <;> exact lawful_ret

theorem recordSettlementFailure_lawful {code : String} {error : BatchImageError} :
    Lawful (recordSettlementFailure rt job code error) := by
  refine Lawful.andThen setBatchImageJobSettlementFailed_lawful fun counted => ?_
  split
  · exact lawful_ret
  · split
    · exact Lawful.andThen failExhaustedSettlement_lawful fun _ => lawful_ret
    · exact lawful_ret

theorem settlementUnitPrice_lawful : Lawful (settlementUnitPrice job) := by
  unfold settlementUnitPrice
  split
  · split <;> exact lawful_ret
  · exact lawful_ask

theorem captureAndSettle_lawful {actualCost : ℚ} {manifestHash : String} :
    Lawful (captureAndSettle rt job actualCost manifestHash) := by
  refine Lawful.andThen captureBatchImageBalanceHold_lawful fun captured => ?_
  split
  · exact recordSettlementFailure_lawful
  · exact markBatchImageJobSettled_lawful

theorem settleJob_lawful : Lawful (settleJob rt job) := by
  unfold settleJob
  dsimp only
  split
  · exact recordSettlementFailure_lawful
  · split
    · exact recordSettlementFailure_lawful
    · refine Lawful.andThen settlementUnitPrice_lawful fun price => ?_
      split
      · exact recordSettlementFailure_lawful
      · split
        · exact recordSettlementFailure_lawful
        · split
          · exact recordSettlementFailure_lawful
          · exact captureAndSettle_lawful

variable {batchID : String}

theorem settle_lawful : Lawful (settle rt batchID) := by
  refine Lawful.andThen getBatchImageJobByBatchID_lawful fun found => ?_
  split
  · exact lawful_ret
  · split
    · exact lawful_ret
    · split
      · exact lawful_ret
      · split
        · exact lawful_ret
        · split
          · exact lawful_ret
          · split
            · exact Lawful.andThen failExhaustedSettlement_lawful fun _ => lawful_ret
            · exact settleJob_lawful

/-! ### The worker -/

theorem releaseTerminalHold_lawful : Lawful (releaseTerminalHold rt job) := by
  unfold releaseTerminalHold
  split
  · exact releaseBatchImageBalanceHold_lawful
  · exact lawful_ret

theorem endJob_lawful {target : JobStatus} {code : Option String} :
    Lawful (endJob rt job target code) := by
  refine Lawful.andThen transitionBatchImageJobStatus_lawful fun ended => ?_
  split
  · exact lawful_ret
  · refine Lawful.andThen releaseTerminalHold_lawful fun released => ?_
    split <;> exact lawful_ret

theorem indexOutput_lawful : Lawful (indexOutput job) := by
  refine Lawful.andThen lawful_ask fun parsed => ?_
  split
  · exact lawful_ret
  · exact replaceBatchImageItemsForJob_lawful

theorem indexAndSettle_lawful : Lawful (indexAndSettle rt job) := by
  refine Lawful.andThen indexOutput_lawful fun indexed => ?_
  split
  · exact lawful_ret
  · exact lawful_ret
  · exact endJob_lawful
  · refine Lawful.andThen transitionBatchImageJobStatus_lawful fun settling => ?_
    split <;> exact lawful_ret

theorem persistProviderOutputRef_lawful {ref : String} :
    Lawful (persistProviderOutputRef job ref) := by
  unfold persistProviderOutputRef
  split
  · exact lawful_ret
  · exact updateBatchImageJobProviderOutputRef_lawful

theorem followProvider_lawful {status : ProviderStatus} :
    Lawful (followProvider rt job status) := by
  refine Lawful.andThen persistProviderOutputRef_lawful fun persisted => ?_
  split
  · exact lawful_ret
  · cases status.state with
    | running =>
        dsimp only
        split
        · refine Lawful.andThen transitionBatchImageJobStatus_lawful fun running => ?_
          split <;> exact lawful_ret
        · exact lawful_ret
    | succeeded =>
        refine Lawful.andThen transitionBatchImageJobStatus_lawful fun indexing => ?_
        split
        · exact lawful_ret
        · exact indexAndSettle_lawful
    | failed => exact endJob_lawful
    | expired => exact endJob_lawful
    | cancelled => exact endJob_lawful
    | queued => exact lawful_ret
    | unknown => exact lawful_ret

theorem processProvider_lawful : Lawful (processProvider rt batchID) := by
  refine Lawful.andThen getBatchImageJobByBatchID_lawful fun found => ?_
  split
  · exact lawful_ret
  · split
    · refine Lawful.andThen releaseTerminalHold_lawful fun released => ?_
      split <;> exact lawful_ret
    · split
      · exact lawful_ret
      · refine Lawful.andThen lawful_ask fun resolved => ?_
        split
        · exact lawful_ret
        · split
          · exact lawful_ret
          · split
            · exact indexAndSettle_lawful
            · refine Lawful.andThen lawful_ask fun answer => ?_
              split
              · exact followProvider_lawful
              · exact lawful_ret

theorem process_lawful : Lawful (process rt batchID) := by
  refine Lawful.andThen getBatchImageJobByBatchID_lawful fun found => ?_
  split
  · exact lawful_ret
  · split
    · refine Lawful.andThen settle_lawful fun settled => ?_
      split
      · exact lawful_ret
      · refine Lawful.andThen getBatchImageJobByBatchID_lawful fun updated => ?_
        split <;> exact lawful_ret
      · exact lawful_ret
    · exact processProvider_lawful

/-! ### Cancel and recovery -/

theorem updatedPublicJob_lawful {userID apiKeyID : ℤ} :
    Lawful (updatedPublicJob userID apiKeyID batchID) := by
  refine Lawful.andThen getBatchImageJobByBatchIDForOwner_lawful fun updated => ?_
  split <;> exact lawful_ret

theorem cancel_lawful {userID apiKeyID : ℤ} :
    Lawful (cancel rt userID apiKeyID batchID) := by
  refine Lawful.andThen getBatchImageJobByBatchIDForOwner_lawful fun found => ?_
  split
  · exact lawful_ret
  · split
    · split
      · refine Lawful.andThen releaseBatchImageBalanceHold_lawful fun released => ?_
        split
        · exact Lawful.andThen lawful_ask fun _ => lawful_ret
        · exact lawful_ret
      · exact lawful_ret
    · split
      · refine Lawful.andThen lawful_ask fun asked => ?_
        split
        · exact Lawful.andThen appendBatchImageEvent_lawful fun _ => updatedPublicJob_lawful
        · exact lawful_ret
      · refine Lawful.andThen transitionBatchImageJobStatus_lawful fun cancelled => ?_
        split
        · exact lawful_ret
        · refine Lawful.andThen releaseBatchImageBalanceHold_lawful fun released => ?_
          split
          · exact Lawful.andThen lawful_ask fun _ => lawful_ret
          · exact updatedPublicJob_lawful

theorem recoverStale_lawful {cutoff : Time} {jobs : List BatchImageJob} :
    Lawful (recoverStale rt cutoff jobs) := by
  induction jobs with
  | nil => exact lawful_ret
  | cons job rest ih =>
      refine Lawful.andThen failStaleUnsubmittedBatchImageJob_lawful fun applied => ?_
      obtain ⟨applied, _⟩ := applied
      dsimp only
      split
      · refine Lawful.andThen releaseBatchImageBalanceHold_lawful fun released => ?_
        split
        · exact Lawful.andThen lawful_ask fun _ => ih
        · exact ih
      · exact ih

theorem releaseStaleUnsubmittedOnce_lawful {staleAfter : Time} {limit : ℕ} :
    Lawful (releaseStaleUnsubmittedOnce rt staleAfter limit) := by
  refine Lawful.andThen lawful_ask fun now => ?_
  refine Lawful.andThen listStaleUnsubmittedBatchImageJobs_lawful fun listed => ?_
  split
  · exact lawful_ret
  · exact recoverStale_lawful

theorem Call.program_lawful (me : ℕ) (call : Call) : Lawful (call.program rt me) := by
  cases call with
  | submit req => exact Lawful.andThen submit_lawful fun _ => lawful_ret
  | heartbeat batchID =>
      exact Lawful.andThen touchBatchImageJobSubmitting_lawful fun _ => lawful_ret
  | reserve batchID payloadHash =>
      refine Lawful.andThen getBatchImageJobByBatchID_lawful fun found => ?_
      split
      · exact lawful_ret
      · exact Lawful.andThen reserveBatchImageBalanceHold_lawful fun _ => lawful_ret
  | settle batchID => exact Lawful.andThen settle_lawful fun _ => lawful_ret
  | process batchID => exact Lawful.andThen process_lawful fun _ => lawful_ret
  | cancel userID apiKeyID batchID => exact Lawful.andThen cancel_lawful fun _ => lawful_ret
  | recover staleAfter limit => exact releaseStaleUnsubmittedOnce_lawful

/-! ### Cleanup -/

theorem updateWithEvent_lawful {id : String} {f : Env → BatchImageJob → BatchImageJob}
    (steps : ∀ env job, RowStep job (f env job)) : Lawful (updateWithEvent id f) := by
  refine Lawful.andThen (onJob_lawful fun env job answer job' wrote => ?_) fun updated => ?_
  · cases wrote
    exact steps env job
  · split
    · exact lawful_ret
    · exact Lawful.andThen appendBatchImageEvent_lawful fun _ => lawful_ret

theorem markBatchImageInputDeleted_lawful {id : String} :
    Lawful (markBatchImageInputDeleted id) :=
  updateWithEvent_lawful fun _ _ => .stays rfl rfl

theorem markBatchImageOutputDeleted_lawful {id : String} :
    Lawful (markBatchImageOutputDeleted id) := by
  refine updateWithEvent_lawful fun env job => ?_
  by_cases completed : job.status = .completed
  · refine .moves ?_ rfl
    dsimp only
    rw [if_pos completed, completed]
    rfl
  · exact .stays (if_neg completed) rfl

theorem recordBatchImageCleanupFailure_lawful {id code : String} :
    Lawful (recordBatchImageCleanupFailure id code) :=
  updateWithEvent_lawful fun _ _ => .stays rfl rfl

theorem callProviderCleanup_lawful : Lawful (callProviderCleanup job) := by
  refine Lawful.andThen lawful_ask fun registered => ?_
  split
  · exact lawful_ret
  · split
    · exact lawful_ret
    · exact lawful_ask

variable {target : CleanupTarget}

theorem cleanupAtProvider_lawful :
    Lawful (cleanupAtProvider job target) := by
  refine Lawful.andThen appendBatchImageEvent_lawful fun _ => ?_
  refine Lawful.andThen callProviderCleanup_lawful fun failure => ?_
  split
  · refine Lawful.andThen recordBatchImageCleanupFailure_lawful fun _ => ?_
    exact Lawful.andThen appendBatchImageEvent_lawful fun _ => lawful_ret
  · cases target with
    | input => exact markBatchImageInputDeleted_lawful
    | output => exact markBatchImageOutputDeleted_lawful

theorem cleanupJob_lawful : Lawful (cleanupJob job target) := by
  cases target with
  | input =>
      unfold cleanupJob
      dsimp only
      split
      · exact lawful_ret
      · split
        · exact cleanupAtProvider_lawful
        · exact lawful_ret
  | output =>
      unfold cleanupJob
      dsimp only
      split
      · exact lawful_ret
      · split
        · exact cleanupAtProvider_lawful
        · exact lawful_ret

theorem cleanup_lawful :
    Lawful (cleanup batchID target) := by
  refine Lawful.andThen getBatchImageJobByBatchID_lawful fun found => ?_
  split
  · exact lawful_ret
  · exact cleanupJob_lawful

theorem deleteOutputsForOwner_lawful {userID apiKeyID : ℤ} :
    Lawful (deleteOutputsForOwner userID apiKeyID batchID) := by
  refine Lawful.andThen getBatchImageJobByBatchIDForOwner_lawful fun found => ?_
  split
  · exact lawful_ret
  · split
    · exact lawful_ret
    · split
      · exact lawful_ret
      · refine Lawful.andThen appendBatchImageEvent_lawful fun _ => ?_
        refine Lawful.andThen cleanupJob_lawful fun cleaned => ?_
        split
        · exact lawful_ret
        · refine Lawful.andThen getBatchImageJobByBatchIDForOwner_lawful fun updated => ?_
          split <;> exact lawful_ret

theorem listBatchImageJobsDueForCleanup_lawful {limit : ℕ} :
    Lawful (listBatchImageJobsDueForCleanup target limit) := by
  refine ⟨Prog.Only.atomic fun env s => .of_jobs ?_⟩
  split <;> rfl

theorem cleanupJobs_lawful {jobs : List BatchImageJob} :
    Lawful (cleanupJobs target jobs) := by
  induction jobs with
  | nil => exact lawful_ret
  | cons job rest ih => exact Lawful.andThen cleanupJob_lawful fun _ => ih

theorem cleanupRunOnce_lawful {limit : ℕ} : Lawful (cleanupRunOnce limit) := by
  refine Lawful.andThen listBatchImageJobsDueForCleanup_lawful fun inputs => ?_
  split
  · exact lawful_ret
  · refine Lawful.andThen cleanupJobs_lawful fun _ => ?_
    refine Lawful.andThen listBatchImageJobsDueForCleanup_lawful fun outputs => ?_
    split
    · exact lawful_ret
    · exact cleanupJobs_lawful

theorem Party.program_lawful (me : ℕ) (party : Party) : Lawful (party.program rt me) := by
  cases party with
  | call made => exact made.program_lawful me
  | cleanup batchID target => exact Lawful.andThen cleanup_lawful fun _ => lawful_ret
  | deleteOutputs userID apiKeyID batchID =>
      exact Lawful.andThen deleteOutputsForOwner_lawful fun _ => lawful_ret
  | cleanupRun limit => exact cleanupRunOnce_lawful

end Programs

/-! ### Runs -/

/-- From one state to the next, the status of a job stays or moves as the state machine allows. -/
def MoveAllowed (id : String) (s s' : State) : Prop :=
  ∀ job job', s.jobs id = some job → s'.jobs id = some job' → job'.status ≠ job.status →
    job.status.canTransition job'.status = true

/-- Every turn of a run moves the job so. -/
def MovesAllowed (rt : Runtime) (parties : ℕ → Party) (s : State) (id : String)
    (schedule : List (ℕ × Env)) : Prop :=
  ∀ before turn after, schedule = before ++ turn :: after →
    MoveAllowed id (stateAfter rt parties s before) (stateAfter rt parties s (before ++ [turn]))

/-- How often a failed submission was recorded for the job after it had ended otherwise. -/
def State.overwrites (s : State) (id : String) : ℕ :=
  (s.jobs id).elim 0 BatchImageJob.overwrites

/-- An action counts an overwrite exactly when it moves the job as the state machine forbids. -/
theorem StatusStep.moves {s s' : State} (step : StatusStep s s') (id : String) :
    (s'.overwrites id = s.overwrites id ∧ MoveAllowed id s s') ∨
      (s'.overwrites id = s.overwrites id + 1 ∧ ¬MoveAllowed id s s') := by
  cases found : s.jobs id with
  | none =>
      refine Or.inl ⟨?_, ?_⟩
      · cases found' : s'.jobs id with
        | none => simp [State.overwrites, found, found']
        | some job' =>
            have counted := step.fresh id job' found found'
            simp [State.overwrites, found, found', counted]
      · intro job job' isRow
        rw [found] at isRow
        cases isRow
  | some job =>
      obtain ⟨job', found', moved⟩ := step.rows id job found
      rcases moved with ⟨counted, allowed⟩ | ⟨counted, differ, forbidden⟩
      · refine Or.inl ⟨by simp [State.overwrites, found, found', counted], ?_⟩
        intro row row' isRow isRow'
        rw [found] at isRow
        rw [found'] at isRow'
        cases isRow
        cases isRow'
        exact allowed
      · refine Or.inr ⟨by simp [State.overwrites, found, found', counted], fun allowed => ?_⟩
        have may := allowed job job' found found' differ
        rw [forbidden] at may
        cases may

variable (rt : Runtime) (parties : ℕ → Party) (s : State) (id : String)

/-- One turn of a run. -/
theorem turn_moves (schedule : List (ℕ × Env)) (turn : ℕ × Env) :
    let before := stateAfter rt parties s schedule
    let after := stateAfter rt parties s (schedule ++ [turn])
    (after.overwrites id = before.overwrites id ∧ MoveAllowed id before after) ∨
      (after.overwrites id = before.overwrites id + 1 ∧ ¬MoveAllowed id before after) := by
  intro before after
  have lawful : ∀ me, ((parties me).program rt me).Only StatusStep :=
    fun me => ((parties me).program_lawful me).only
  have turned : after = before ∨ StatusStep before after := Prog.Only.turn lawful _ _ _
  rcases turned with same | step
  · rw [same]
    exact (StatusStep.refl before).moves id
  · exact step.moves id

theorem overwrites_le (schedule : List (ℕ × Env)) :
    s.overwrites id ≤ (stateAfter rt parties s schedule).overwrites id := by
  induction schedule using List.reverseRecOn with
  | nil => exact le_rfl
  | append_singleton schedule turn ih =>
      rcases turn_moves rt parties s id schedule turn with ⟨counted, _⟩ | ⟨counted, _⟩ <;> omega

theorem movesAllowed_append (schedule : List (ℕ × Env)) (turn : ℕ × Env) :
    MovesAllowed rt parties s id (schedule ++ [turn]) ↔
      MovesAllowed rt parties s id schedule ∧
        MoveAllowed id (stateAfter rt parties s schedule)
          (stateAfter rt parties s (schedule ++ [turn])) := by
  constructor
  · intro allowed
    refine ⟨fun before last after split => ?_, allowed schedule turn [] rfl⟩
    exact allowed before last (after ++ [turn]) (by rw [split, List.append_assoc, List.cons_append])
  · rintro ⟨allowed, last⟩ before turn' after split
    rcases List.eq_nil_or_concat after with rfl | ⟨init, final, rfl⟩
    · obtain ⟨same, ends⟩ := List.append_inj' split rfl
      cases ends
      rw [← same]
      exact last
    · rw [List.concat_eq_append, ← List.cons_append, ← List.append_assoc] at split
      exact allowed before turn' init (List.append_inj' split rfl).1

/-- In every run of any number of parties, every change of a job's status is a transition of its
state machine, exactly when no failed submission is recorded for the job after it has ended
otherwise. -/
theorem status_moves_allowed_iff (schedule : List (ℕ × Env)) :
    MovesAllowed rt parties s id schedule ↔
      (stateAfter rt parties s schedule).overwrites id = s.overwrites id := by
  induction schedule using List.reverseRecOn with
  | nil =>
      constructor
      · intro _
        rfl
      · intro _ before turn after split
        cases before <;> cases split
  | append_singleton schedule turn ih =>
      rw [movesAllowed_append, ih]
      have grows := overwrites_le rt parties s id schedule
      rcases turn_moves rt parties s id schedule turn with ⟨counted, allowed⟩ |
        ⟨counted, forbidden⟩
      · rw [counted]
        exact and_iff_left allowed
      · constructor
        · intro moves
          exact absurd moves.2 forbidden
        · intro same
          omega

namespace Sample

/-- A batch is submitted and cancelled. -/
def cancellingUpload : ℕ → Party
  | 0 => .call (.submit request)
  | _ => .call (.cancel 1 2 batchID)

/-- The cancel comes while the provider is being asked. -/
def cancelledUpload : List (ℕ × Env) := List.replicate 4 (0, env) ++ List.replicate 5 (1, env)

/-- The provider refuses the batch; its hold has been released already. -/
def refusedUpload : List (ℕ × Env) := List.replicate 2 (0, { env with providerJob := none })

end Sample

/-- A cancelled job fails: the submission that the cancel overtook records its own failure. -/
theorem cancelled_job_fails :
    ¬MovesAllowed Sample.rt Sample.cancellingUpload Sample.start Sample.batchID
      (Sample.cancelledUpload ++ Sample.refusedUpload ++ [(0, Sample.env)]) := by
  intro allowed
  have ran :
      ((stateAfter Sample.rt Sample.cancellingUpload Sample.start
        (Sample.cancelledUpload ++ Sample.refusedUpload)).jobs Sample.batchID).map
          BatchImageJob.status = some .cancelled ∧
      ((stateAfter Sample.rt Sample.cancellingUpload Sample.start
        (Sample.cancelledUpload ++ Sample.refusedUpload ++ [(0, Sample.env)])).jobs
          Sample.batchID).map BatchImageJob.status = some .failed := by decide +kernel
  obtain ⟨job, found, status⟩ := Option.map_eq_some_iff.mp ran.1
  obtain ⟨job', found', status'⟩ := Option.map_eq_some_iff.mp ran.2
  have moved := allowed _ (0, Sample.env) [] rfl job job' found found'
  rw [status, status'] at moved
  exact absurd (moved (by decide)) (by decide)

end Sub2api.BatchImage
