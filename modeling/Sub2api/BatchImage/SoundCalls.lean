import Sub2api.BatchImage.Sound

/-!
# Every call keeps the books

The programs of `Submit`, `Settle`, the worker, `Cancel` and the recovery, from the repository's
operations up. A program on a job needs to know the job's terms (`Tells`); only the way from a
reserved hold to the provider and the way from a settling job to its capture need the hold.
-/

namespace Sub2api.BatchImage

open Database Go Billing Interleave

/-- What is known tells the job's terms. -/
def Tells (K : Fact State) (job : BatchImageJob) : Prop := ∀ s, K.holds s → Known job s

theorem Tells.transfer {K : Fact State} {job job' : BatchImageJob} (tells : Tells K job)
    (same : SameTerms job job') : Tells K job' :=
  fun s facts => (tells s facts).transfer same

section Programs

variable {s₀ : State} {K : Fact State} {rt : Runtime} {job : BatchImageJob}

/-! ### Submit -/

theorem releaseFailedSubmitHold_sound {hash : String} (tells : Tells K job) :
    Sound (Inv s₀) K (releaseFailedSubmitHold rt job hash) fun _ => Fact.none := by
  refine Sound.andThen (releaseBatchImageBalanceHold_sound tells) fun released => ?_
  split
  · exact .ret fun _ _ => trivial
  · refine Sound.andThen recordBatchImageJobSubmitFailure_sound fun _ => ?_
    exact Sound.andThen Sound.ask fun _ => .ret fun _ _ => trivial

theorem failSubmit_sound {req : SubmitRequest} {code : String} :
    Sound (Inv s₀) K (failSubmit req job code) fun _ => Fact.none :=
  Sound.andThen recordBatchImageJobSubmitFailure_sound fun _ => markBatchImageJobUserDeleted_sound

theorem abandonSubmit_sound {req : SubmitRequest} {code : String} {error : BatchImageError}
    (tells : Tells K job) :
    Sound (Inv s₀) K (abandonSubmit rt req job code error) fun _ => Fact.none := by
  refine Sound.andThen (releaseFailedSubmitHold_sound tells) fun releaseError => ?_
  split
  · exact .ret fun _ _ => trivial
  · exact Sound.andThen failSubmit_sound fun _ => .ret fun _ _ => trivial

theorem registerSubmitted_sound {name : String} :
    Sound (Inv s₀) ((known job).and (held job)) (registerSubmitted job name)
      fun _ => Fact.none := by
  refine Sound.andThen updateBatchImageJobProviderSubmit_sound fun registered => ?_
  split
  · refine Sound.andThen Sound.ask fun _ => ?_
    exact Sound.andThen appendBatchImageEvent_sound fun _ => .ret fun _ _ => trivial
  · refine Sound.andThen Sound.ask fun queued => ?_
    split
    · refine Sound.bind getBatchImageJobByBatchID_sound fun created => ?_
      split <;> exact .ret fun _ _ => trivial
    · exact Sound.andThen recordBatchImageJobSubmitFailure_sound fun _ =>
        .ret fun _ _ => trivial

theorem uploadReserved_sound {req : SubmitRequest} :
    Sound (Inv s₀) ((known job).and (held job)) (uploadReserved rt req job)
      fun _ => Fact.none := by
  have tells : Tells ((known job).and (held job)) job := fun _ facts => facts.1
  refine Sound.andThen Sound.ask fun items => ?_
  split
  · refine Sound.andThen (transitionBatchImageJobStatus_sound (by decide)) fun uploading => ?_
    split
    · exact Sound.andThen (releaseFailedSubmitHold_sound tells) fun _ => .ret fun _ _ => trivial
    · exact abandonSubmit_sound tells
    · refine Sound.andThen Sound.ask fun submitted => ?_
      split
      · exact abandonSubmit_sound tells
      · split
        · exact abandonSubmit_sound tells
        · exact registerSubmitted_sound
  · exact abandonSubmit_sound tells

theorem submit_sound {me : ℕ} {req : SubmitRequest} :
    Sound (Inv s₀) K (submit rt me req) fun _ => Fact.none := by
  refine Sound.bind createBatchImageJob_sound fun created => ?_
  split
  · exact .ret fun _ _ => trivial
  · rename_i job
    have reserve := @reserveBatchImageBalanceHold_sound s₀ rt job req.requestHash
    refine Sound.bind (reserve.mono (fun _ facts => facts.2) fun _ _ post => post)
      fun reserved => ?_
    split
    · exact Sound.andThen failSubmit_sound fun _ => .ret fun _ _ => trivial
    · exact uploadReserved_sound.mono (fun _ facts => ⟨facts.1.2, facts.2⟩) fun _ _ post => post

/-! ### Settle -/

theorem failExhaustedSettlement_sound (tells : Tells K job) :
    Sound (Inv s₀) K (failExhaustedSettlement rt job) fun _ => Fact.none := by
  refine Sound.andThen (releaseBatchImageBalanceHold_sound tells) fun released => ?_
  split
  · exact Sound.andThen setBatchImageJobSettlementFailed_sound fun _ => .ret fun _ _ => trivial
  · refine Sound.andThen (transitionBatchImageJobStatus_sound (by decide)) fun failed => ?_
    split <;> exact .ret fun _ _ => trivial

theorem recordSettlementFailure_sound {code : String} {error : BatchImageError}
    (tells : Tells K job) :
    Sound (Inv s₀) K (recordSettlementFailure rt job code error) fun _ => Fact.none := by
  refine Sound.andThen setBatchImageJobSettlementFailed_sound fun counted => ?_
  split
  · exact .ret fun _ _ => trivial
  · split
    · exact Sound.andThen
        (failExhaustedSettlement_sound (tells.transfer ⟨rfl, rfl, rfl, rfl⟩)) fun _ =>
          .ret fun _ _ => trivial
    · exact .ret fun _ _ => trivial

theorem settlementUnitPrice_sound : Sound (Inv s₀) K (settlementUnitPrice job) fun _ => Fact.none := by
  unfold settlementUnitPrice
  split
  · split <;> exact .ret fun _ _ => trivial
  · exact Sound.ask

theorem captureAndSettle_sound {actualCost : ℚ} {manifestHash : String} :
    Sound (Inv s₀) ((known job).and (held job))
      (captureAndSettle rt job actualCost manifestHash) fun _ => Fact.none := by
  refine Sound.andThen captureBatchImageBalanceHold_sound fun captured => ?_
  split
  · exact recordSettlementFailure_sound fun _ facts => facts.1
  · exact markBatchImageJobSettled_sound

theorem settleJob_sound :
    Sound (Inv s₀) ((known job).and (held job)) (settleJob rt job) fun _ => Fact.none := by
  have tells : Tells ((known job).and (held job)) job := fun _ facts => facts.1
  unfold settleJob
  dsimp only
  split
  · exact recordSettlementFailure_sound tells
  · split
    · exact recordSettlementFailure_sound tells
    · refine Sound.andThen settlementUnitPrice_sound fun price => ?_
      split
      · exact recordSettlementFailure_sound tells
      · split
        · exact recordSettlementFailure_sound tells
        · split
          · exact recordSettlementFailure_sound tells
          · exact captureAndSettle_sound

variable {batchID : String}

theorem settle_sound :
    Sound (Inv s₀) K (settle rt batchID) fun _ => Fact.none := by
  refine Sound.bind getBatchImageJobByBatchID_sound fun found => ?_
  split
  · exact .ret fun _ _ => trivial
  · rename_i job
    split
    · exact .ret fun _ _ => trivial
    · split
      · exact .ret fun _ _ => trivial
      · rename_i settling
        split
        · exact .ret fun _ _ => trivial
        · split
          · exact .ret fun _ _ => trivial
          · split
            · exact Sound.andThen (failExhaustedSettlement_sound fun _ facts => facts.2.1) fun _ =>
                .ret fun _ _ => trivial
            · -- A settling job is past submission, so its hold is reserved.
              refine settleJob_sound.mono (fun _ facts => ⟨facts.2.1, facts.2.2 ?_⟩)
                fun _ _ post => post
              rw [not_not.mp settling]
              rfl

/-! ### The worker -/

theorem releaseTerminalHold_sound (tells : Tells K job) :
    Sound (Inv s₀) K (releaseTerminalHold rt job) fun _ => Fact.none := by
  unfold releaseTerminalHold
  split
  · exact releaseBatchImageBalanceHold_sound tells
  · exact .ret fun _ _ => trivial

theorem endJob_sound {target : JobStatus} {code : Option String} (other : target ≠ .submitted)
    (tells : Tells K job) : Sound (Inv s₀) K (endJob rt job target code) fun _ => Fact.none := by
  refine Sound.andThen (transitionBatchImageJobStatus_sound other) fun ended => ?_
  split
  · exact .ret fun _ _ => trivial
  · refine Sound.andThen (releaseTerminalHold_sound (tells.transfer ⟨rfl, rfl, rfl, rfl⟩))
      fun released => ?_
    split <;> exact .ret fun _ _ => trivial

theorem indexOutput_sound : Sound (Inv s₀) K (indexOutput job) fun _ => Fact.none := by
  refine Sound.andThen Sound.ask fun parsed => ?_
  split
  · exact .ret fun _ _ => trivial
  · exact replaceBatchImageItemsForJob_sound

theorem indexAndSettle_sound (tells : Tells K job) :
    Sound (Inv s₀) K (indexAndSettle rt job) fun _ => Fact.none := by
  refine Sound.andThen indexOutput_sound fun indexed => ?_
  split
  · exact .ret fun _ _ => trivial
  · exact .ret fun _ _ => trivial
  · exact endJob_sound (by decide) tells
  · refine Sound.andThen (transitionBatchImageJobStatus_sound (by decide)) fun settling => ?_
    split <;> exact .ret fun _ _ => trivial

theorem persistProviderOutputRef_sound {ref : String} :
    Sound (Inv s₀) K (persistProviderOutputRef job ref) fun _ => Fact.none := by
  unfold persistProviderOutputRef
  split
  · exact .ret fun _ _ => trivial
  · exact updateBatchImageJobProviderOutputRef_sound

theorem followProvider_sound {status : ProviderStatus} (tells : Tells K job) :
    Sound (Inv s₀) K (followProvider rt job status) fun _ => Fact.none := by
  refine Sound.andThen persistProviderOutputRef_sound fun persisted => ?_
  split
  · exact .ret fun _ _ => trivial
  · cases status.state with
    | running =>
        dsimp only
        split
        · refine Sound.andThen (transitionBatchImageJobStatus_sound (by decide)) fun running => ?_
          split <;> exact .ret fun _ _ => trivial
        · exact .ret fun _ _ => trivial
    | succeeded =>
        refine Sound.andThen (transitionBatchImageJobStatus_sound (by decide)) fun indexing => ?_
        split
        · exact .ret fun _ _ => trivial
        · exact indexAndSettle_sound (tells.transfer ⟨rfl, rfl, rfl, rfl⟩)
    | failed => exact endJob_sound (by decide) tells
    | expired => exact endJob_sound (by decide) tells
    | cancelled => exact endJob_sound (by decide) tells
    | queued => exact .ret fun _ _ => trivial
    | unknown => exact .ret fun _ _ => trivial

theorem processProvider_sound :
    Sound (Inv s₀) K (processProvider rt batchID) fun _ => Fact.none := by
  refine Sound.bind getBatchImageJobByBatchID_sound fun found => ?_
  split
  · exact .ret fun _ _ => trivial
  · rename_i job
    have tells : Tells (K.and (seen job)) job := fun _ facts => facts.2.1
    split
    · refine Sound.andThen (releaseTerminalHold_sound tells) fun released => ?_
      split <;> exact .ret fun _ _ => trivial
    · split
      · exact .ret fun _ _ => trivial
      · refine Sound.andThen Sound.ask fun resolved => ?_
        split
        · exact .ret fun _ _ => trivial
        · split
          · exact .ret fun _ _ => trivial
          · split
            · exact indexAndSettle_sound tells
            · refine Sound.andThen Sound.ask fun answer => ?_
              split
              · exact followProvider_sound tells
              · exact .ret fun _ _ => trivial

theorem process_sound :
    Sound (Inv s₀) K (process rt batchID) fun _ => Fact.none := by
  refine Sound.bind getBatchImageJobByBatchID_sound fun found => ?_
  split
  · exact .ret fun _ _ => trivial
  · split
    · refine Sound.andThen settle_sound fun settled => ?_
      split
      · exact .ret fun _ _ => trivial
      · refine Sound.bind getBatchImageJobByBatchID_sound fun updated => ?_
        split <;> exact .ret fun _ _ => trivial
      · exact .ret fun _ _ => trivial
    · exact processProvider_sound

/-! ### Cancel and recovery -/

theorem updatedPublicJob_sound {userID apiKeyID : ℤ} :
    Sound (Inv s₀) K (updatedPublicJob userID apiKeyID batchID) fun _ => Fact.none := by
  refine Sound.bind getBatchImageJobByBatchIDForOwner_sound fun updated => ?_
  split <;> exact .ret fun _ _ => trivial

theorem cancel_sound {userID apiKeyID : ℤ} :
    Sound (Inv s₀) K (cancel rt userID apiKeyID batchID) fun _ => Fact.none := by
  refine Sound.bind getBatchImageJobByBatchIDForOwner_sound fun found => ?_
  split
  · exact .ret fun _ _ => trivial
  · rename_i job
    have tells : Tells (K.and (seen job)) job := fun _ facts => facts.2.1
    split
    · split
      · refine Sound.andThen (releaseBatchImageBalanceHold_sound tells) fun released => ?_
        split
        · exact Sound.andThen Sound.ask fun _ => .ret fun _ _ => trivial
        · exact .ret fun _ _ => trivial
      · exact .ret fun _ _ => trivial
    · split
      · refine Sound.andThen Sound.ask fun asked => ?_
        split
        · exact Sound.andThen appendBatchImageEvent_sound fun _ => updatedPublicJob_sound
        · exact .ret fun _ _ => trivial
      · refine Sound.andThen (transitionBatchImageJobStatus_sound (by decide)) fun cancelled => ?_
        split
        · exact .ret fun _ _ => trivial
        · refine Sound.andThen (releaseBatchImageBalanceHold_sound tells) fun released => ?_
          split
          · exact Sound.andThen Sound.ask fun _ => .ret fun _ _ => trivial
          · exact updatedPublicJob_sound

theorem recoverStale_sound {cutoff : Time} {jobs : List BatchImageJob}
    (tells : ∀ job ∈ jobs, Tells K job) :
    Sound (Inv s₀) K (recoverStale rt cutoff jobs) fun _ => Fact.none := by
  induction jobs with
  | nil => exact .ret fun _ _ => trivial
  | cons job rest ih =>
      have later : Sound (Inv s₀) K (recoverStale rt cutoff rest) fun _ => Fact.none :=
        ih fun other member => tells other (List.mem_cons_of_mem _ member)
      refine Sound.andThen failStaleUnsubmittedBatchImageJob_sound fun applied => ?_
      obtain ⟨applied, _⟩ := applied
      dsimp only
      split
      · refine Sound.andThen (releaseBatchImageBalanceHold_sound
          ((tells job (List.mem_cons_self ..)).transfer ⟨rfl, rfl, rfl, rfl⟩)) fun released => ?_
        split
        · exact Sound.andThen Sound.ask fun _ => later
        · exact later
      · exact later

theorem releaseStaleUnsubmittedOnce_sound {staleAfter : Time} {limit : ℕ} :
    Sound (Inv s₀) K (releaseStaleUnsubmittedOnce rt staleAfter limit) fun _ => Fact.none := by
  refine Sound.andThen Sound.ask fun now => ?_
  refine Sound.bind listStaleUnsubmittedBatchImageJobs_sound fun listed => ?_
  split
  · exact .ret fun _ _ => trivial
  · exact recoverStale_sound fun job member _ facts => facts.2 job member

/-! ### Runs -/

/-- Every call keeps the books. -/
theorem program_sound (me : ℕ) (call : Call) :
    Sound (Inv s₀) Fact.none (call.program rt me) fun _ => Fact.none := by
  cases call with
  | submit req => exact Sound.andThen submit_sound fun _ => .ret fun _ _ => trivial
  | heartbeat batchID =>
      exact Sound.andThen touchBatchImageJobSubmitting_sound fun _ => .ret fun _ _ => trivial
  | reserve batchID payloadHash =>
      refine Sound.bind getBatchImageJobByBatchID_sound fun found => ?_
      split
      · exact .ret fun _ _ => trivial
      · rename_i job
        have reserve := @reserveBatchImageBalanceHold_sound s₀ rt job payloadHash
        exact Sound.bind (reserve.mono (fun _ facts => facts.2.1) fun _ _ post => post) fun _ =>
          .ret fun _ _ => trivial
  | settle batchID => exact Sound.andThen settle_sound fun _ => .ret fun _ _ => trivial
  | process batchID => exact Sound.andThen process_sound fun _ => .ret fun _ _ => trivial
  | cancel userID apiKeyID batchID =>
      exact Sound.andThen cancel_sound fun _ => .ret fun _ _ => trivial
  | recover staleAfter limit => exact releaseStaleUnsubmittedOnce_sound

/-- The invariant holds after every schedule of every choice of calls. -/
theorem run_inv (calls : ℕ → Call) {s : State} (inv : Inv s₀ s) (schedule : List (ℕ × Env)) :
    Inv s₀ (run rt calls s schedule).shared :=
  (Sound.run inv (fun me => program_sound me (calls me)) schedule).1

end Programs

end Sub2api.BatchImage
