import Sub2api.BatchImage.Accounting

/-!
# Every operation keeps the books

`Sound (Inv s₀) K prog M` is the triple in which all parties, `prog` and the others, keep the invariant
and never lose a job, a move or a call. Its assertions are `Fact`s, which no step falsifies, so
what a program has learned is never taken from it: `Sound.bind` carries facts along.

One lemma for each program says what it needs to know and what it tells; `program_sound` collects
them, and `run_inv` is the run lemma.
-/

namespace Sub2api.BatchImage

open Database Go Billing Interleave

/-! ### Facts -/

def known (job : BatchImageJob) : Fact State :=
  ⟨Known job, fun _ _ grows known => Known.lasts grows known⟩

def held (job : BatchImageJob) : Fact State :=
  ⟨Held job, fun _ _ grows held => Held.lasts grows held⟩

/-- What reading a job's row tells. -/
def seen (job : BatchImageJob) : Fact State :=
  (known job).and (.when (job.status.pastSubmit = true) (held job))

/-! ### Writes on a job's row -/

section Rows

variable {α : Type} {s₀ : State} {K : Fact State} {M : α → Fact State}

theorem onJob_sound {id : String}
    {f : Env → BatchImageJob → Except BatchImageError (α × BatchImageJob)}
    (writes : ∀ env s row a row', Inv s₀ s → K.holds s → s.jobs id = some row →
      f env row = .ok (a, row') → SameTerms row row' ∧
        (row'.status.pastSubmit = true → row.status.pastSubmit = true ∨ Held row s) ∧
        (M a).holds s) :
    Sound (Inv s₀) K (onJob id f) (Fact.onOk M) := by
  refine Sound.act fun env s inv holds => ?_
  by_cases fails : env.fails
  · simp only [fails, if_true]
    exact ⟨inv, .refl s, trivial⟩
  · simp only [fails, Bool.false_eq_true, if_false]
    cases found : s.jobs id with
    | none => exact ⟨inv, .refl s, trivial⟩
    | some row =>
        dsimp only
        cases wrote : f env row with
        | error e => exact ⟨inv, .refl s, trivial⟩
        | ok answer =>
            obtain ⟨a, row'⟩ := answer
            obtain ⟨same, past, post⟩ := writes env s row a row' inv holds found wrote
            have grows := putJob_extends found same
            exact ⟨inv.putJob found same past, grows, (M a).lasts _ _ grows post⟩

/-- A write within the terms that leads to no status past submission. -/
theorem onJob_quiet {id : String}
    {f : Env → BatchImageJob → Except BatchImageError (α × BatchImageJob)}
    (writes : ∀ env row a row', f env row = .ok (a, row') → SameTerms row row' ∧
      (row'.status.pastSubmit = true → row.status.pastSubmit = true)) :
    Sound (Inv s₀) K (onJob id f) fun _ => Fact.none := by
  refine Sound.mono (onJob_sound (M := fun _ => Fact.none) ?_) (fun _ pre => pre) ?_
  · intro env s row a row' _ _ _ wrote
    obtain ⟨same, past⟩ := writes env row a row' wrote
    exact ⟨same, fun isPast => Or.inl (past isPast), trivial⟩
  · exact fun _ _ _ => trivial

end Rows

/-! ### The repository -/

section Repository

variable {s₀ : State} {K : Fact State} {id : String} {job : BatchImageJob}

theorem createBatchImageJob_sound {me : ℕ} {req : SubmitRequest} :
    Sound (Inv s₀) K (createBatchImageJob me req) (Fact.onOk known) := by
  refine Sound.act fun env s inv _ => ?_
  by_cases fails : env.fails
  · simp only [fails, if_true]
    exact ⟨inv, .refl s, trivial⟩
  · simp only [fails, Bool.false_eq_true, if_false]
    cases absent : s.jobs (newBatchImageID env.randomBytes) with
    | some row => exact ⟨inv, .refl s, trivial⟩
    | none =>
        have named : (req.job (newBatchImageID env.randomBytes) env.now).batchID =
            newBatchImageID env.randomBytes ∧ NoBlank (newBatchImageID env.randomBytes) :=
          ⟨rfl, noBlank_newBatchImageID env.randomBytes⟩
        obtain ⟨inv', grows⟩ := inv.createJob absent named rfl
        refine ⟨inv'.recordCreator _, ⟨grows.moves, grows.calls, grows.jobs⟩, ?_⟩
        exact ⟨_, by simp [State.putJob, SubmitRequest.job], .refl _⟩

theorem getBatchImageJobByBatchID_sound :
    Sound (Inv s₀) K (getBatchImageJobByBatchID id) (Fact.onOk seen) := by
  refine onJob_sound ?_
  intro env s row a row' inv _ found wrote
  cases wrote
  have named := (inv.books.named _ _ found).1
  exact ⟨.refl row, Or.inl, ⟨row, by rw [named, found], .refl row⟩,
    fun isPast => inv.books.submitted _ _ found isPast⟩

theorem getBatchImageJobByBatchIDForOwner_sound {userID apiKeyID : ℤ} :
    Sound (Inv s₀) K (getBatchImageJobByBatchIDForOwner userID apiKeyID id) (Fact.onOk seen) := by
  refine onJob_sound ?_
  intro env s row a row' inv _ found wrote
  split at wrote
  · cases wrote
    have named := (inv.books.named _ _ found).1
    exact ⟨.refl row, Or.inl, ⟨row, by rw [named, found], .refl row⟩,
      fun isPast => inv.books.submitted _ _ found isPast⟩
  · cases wrote

theorem transitionBatchImageJobStatus_sound {target : JobStatus} {code : Option String}
    (other : target ≠ .submitted) :
    Sound (Inv s₀) K (transitionBatchImageJobStatus id target code) fun _ => Fact.none := by
  refine onJob_quiet ?_
  intro env row a row' wrote
  split at wrote
  · rename_i allowed
    cases wrote
    exact ⟨⟨rfl, rfl, rfl, rfl⟩, fun past => JobStatus.canTransition_pastSubmit allowed past other⟩
  · cases wrote

theorem touchBatchImageJobSubmitting_sound :
    Sound (Inv s₀) K (touchBatchImageJobSubmitting id) fun _ => Fact.none := by
  refine onJob_quiet ?_
  intro env row a row' wrote
  split at wrote <;> cases wrote <;> exact ⟨⟨rfl, rfl, rfl, rfl⟩, fun past => past⟩

theorem appendBatchImageEvent_sound : Sound (Inv s₀) K appendBatchImageEvent fun _ => Fact.none :=
  Sound.ask

theorem failStaleUnsubmittedBatchImageJob_sound {cutoff : Time} {code : String} :
    Sound (Inv s₀) K (failStaleUnsubmittedBatchImageJob id cutoff code) fun _ => Fact.none := by
  refine Sound.andThen (onJob_quiet ?_) fun updated => ?_
  · intro env row a row' wrote
    split at wrote <;> cases wrote
    · exact ⟨⟨rfl, rfl, rfl, rfl⟩, fun past => by cases past⟩
    · exact ⟨.refl _, fun past => past⟩
  · split
    · exact .ret fun _ _ => trivial
    · exact .ret fun _ _ => trivial
    · exact .ret fun _ _ => trivial
    · exact Sound.andThen appendBatchImageEvent_sound fun _ => .ret fun _ _ => trivial

theorem updateBatchImageJobProviderOutputRef_sound {ref : String} :
    Sound (Inv s₀) K (updateBatchImageJobProviderOutputRef id ref) fun _ => Fact.none := by
  refine onJob_quiet ?_
  intro env row a row' wrote
  cases wrote
  exact ⟨⟨rfl, rfl, rfl, rfl⟩, fun past => past⟩

/-- The one way past submission: the caller knows that the hold is reserved. -/
theorem updateBatchImageJobProviderSubmit_sound {name : String} :
    Sound (Inv s₀) ((known job).and (held job))
      (updateBatchImageJobProviderSubmit job.batchID name) fun _ => Fact.none := by
  refine Sound.mono (onJob_sound (M := fun _ => Fact.none) ?_) (fun _ pre => pre)
    fun _ _ _ => trivial
  intro env s row a row' _ holds found wrote
  obtain ⟨⟨row₁, found₁, same⟩, held⟩ := holds
  rw [found] at found₁
  cases found₁
  split at wrote
  · cases wrote
    exact ⟨⟨rfl, rfl, rfl, rfl⟩, fun _ => Or.inr (Held.transfer same held), trivial⟩
  · cases wrote

theorem recordBatchImageJobSubmitFailure_sound {code : String} {markFailed : Bool} :
    Sound (Inv s₀) K (recordBatchImageJobSubmitFailure id code markFailed) fun _ => Fact.none := by
  refine Sound.andThen (onJob_quiet ?_) fun updated => ?_
  · intro env row a row' wrote
    cases wrote
    cases markFailed
    · exact ⟨⟨rfl, rfl, rfl, rfl⟩, fun past => past⟩
    · exact ⟨⟨rfl, rfl, rfl, rfl⟩, fun past => by cases past⟩
  · split
    · exact .ret fun _ _ => trivial
    · exact Sound.andThen appendBatchImageEvent_sound fun _ => .ret fun _ _ => trivial

theorem markBatchImageJobUserDeleted_sound {userID apiKeyID : ℤ} :
    Sound (Inv s₀) K (markBatchImageJobUserDeleted userID apiKeyID id) fun _ => Fact.none := by
  refine Sound.andThen (onJob_quiet ?_) fun _ => .ret fun _ _ => trivial
  intro env row a row' wrote
  split at wrote <;> cases wrote <;> exact ⟨⟨rfl, rfl, rfl, rfl⟩, fun past => past⟩

theorem markBatchImageJobSettled_sound {actualCost : ℚ} {manifestHash : String} :
    Sound (Inv s₀) K (markBatchImageJobSettled id actualCost manifestHash) fun _ => Fact.none := by
  refine onJob_quiet ?_
  intro env row a row' wrote
  split at wrote
  · rename_i settling
    cases wrote
    exact ⟨⟨rfl, rfl, rfl, rfl⟩, fun _ => by rw [settling.1]; rfl⟩
  · split at wrote
    · cases wrote
    · split at wrote <;> cases wrote

theorem setBatchImageJobSettlementFailed_sound {code : String} :
    Sound (Inv s₀) K (setBatchImageJobSettlementFailed id code) fun _ => Fact.none := by
  refine Sound.andThen (onJob_quiet ?_) fun updated => ?_
  · intro env row a row' wrote
    cases wrote
    exact ⟨⟨rfl, rfl, rfl, rfl⟩, fun past => past⟩
  · split
    · exact .ret fun _ _ => trivial
    · exact Sound.andThen appendBatchImageEvent_sound fun _ => .ret fun _ _ => trivial

theorem replaceBatchImageItemsForJob_sound {counts : ℤ × ℤ} :
    Sound (Inv s₀) K (replaceBatchImageItemsForJob id counts) fun _ => Fact.none := by
  refine onJob_quiet ?_
  intro env row a row' wrote
  split at wrote
  · cases wrote
    exact ⟨⟨rfl, rfl, rfl, rfl⟩, fun past => past⟩
  · cases wrote

theorem listStaleUnsubmittedBatchImageJobs_sound {cutoff : Time} {limit : ℕ} :
    Sound (Inv s₀) K (listStaleUnsubmittedBatchImageJobs cutoff limit)
      (Fact.onOk fun jobs => Fact.all fun job => Fact.when (job ∈ jobs) (known job)) := by
  refine Sound.act fun env s inv _ => ?_
  by_cases fails : env.fails
  · simp only [fails, if_true]
    exact ⟨inv, .refl s, trivial⟩
  · simp only [fails, Bool.false_eq_true, if_false]
    refine ⟨inv, .refl s, fun job member => ?_⟩
    have listed := (List.mem_filter.mp (List.mem_of_mem_take member)).1
    obtain ⟨id, _, found⟩ := List.mem_filterMap.mp listed
    exact ⟨job, by rw [(inv.books.named _ _ found).1, found], .refl job⟩

end Repository

/-! ### Holds -/

section Holds

variable {s₀ s : State} {K : Fact State} {rt : Runtime} {job : BatchImageJob} {payloadHash : String}
variable {cmd : BatchImageBalanceHoldCommand}

/-- The command built for a known job is issued for it. -/
theorem issued_of_built (kind : HoldKind) {actualAmount : ℚ} (inv : Inv s₀ s) (known : Known job s)
    (built : buildBatchImageHoldCommand job (kind.requestID job.batchID) actualAmount payloadHash =
      .ok cmd)
    (needed : kind ≠ .capture → 0 < cmd.holdAmount) (held : kind = .capture → Held job s) :
    Issued kind cmd s := by
  obtain ⟨apiKeyID, requestID, userID, batchID, hold, _⟩ := buildBatchImageHoldCommand_ok built
  obtain ⟨row, found, same⟩ := known
  refine
    { row := ⟨row, batchID ▸ found, same.userID.trans userID.symm, same.apiKeyID.trans apiKeyID,
        same.hold.trans hold.symm⟩
      requestID := by rw [requestID, batchID]
      printed := batchID ▸ (inv.books.named _ _ found).2
      needed := needed
      backed := ?_ }
  intro capture
  rw [hold, batchID]
  exact held capture

/-- An answer without an error leaves the request claimed. -/
theorem claimed_of_ok {kind : HoldKind} {db db' : Billing.Db} {result : BatchImageBalanceHoldResult}
    (outcome : HoldOutcome kind cmd db (.ok result) db') :
    claimOf db' (cmd.requestID, cmd.apiKeyID) ≠ none := by
  cases outcome with
  | unchanged _ _ claimed => exact claimed (Or.inl ⟨_, rfl⟩)
  | idle fingerprint now _ _ => simp [claimOf_withClaim]
  | moved fingerprint now result _ _ _ _ shifted =>
      obtain ⟨_, _, _, _, rfl⟩ := shifted
      show claimOf (withClaim _ _ _ _) _ ≠ none
      simp [claimOf_withClaim]

theorem holdCall_sound {kind : HoldKind} (issued : ∀ s, Inv s₀ s → K.holds s → Issued kind cmd s) :
    Sound (Inv s₀) K (holdCall rt kind cmd)
      (Fact.onOk fun _ => Fact.when (kind = .reserve)
        ⟨fun s => Moved s .reserve cmd.batchID, fun _ _ grows moved => moved.lasts grows⟩) := by
  refine Sound.act fun env s inv holds => ?_
  have command := issued s inv holds
  have outcome := @hold_outcome rt cmd env.now env.billingFaults kind s.billing command.printed
    command.requestID (by intro k; unfold Env.billingFaults; split <;> simp)
  dsimp only
  generalize applyBatchImageBalanceHold rt env.now env.billingFaults kind cmd s.billing = out
    at outcome
  obtain ⟨answer, db'⟩ := out
  have inv' := inv.called command outcome
  refine ⟨inv', called_extends, ?_⟩
  cases answer with
  | error e => trivial
  | ok result =>
      rintro rfl
      have claim := claimed_of_ok outcome
      rw [command.requestID] at claim
      exact inv'.books.claimed _ _ command.printed claim

theorem reserveBatchImageBalanceHold_sound :
    Sound (Inv s₀) (known job) (reserveBatchImageBalanceHold rt job payloadHash)
      (Fact.onOk fun _ => held job) := by
  unfold reserveBatchImageBalanceHold
  split
  · exact .ret fun _ _ => trivial
  · rename_i cmd built
    obtain ⟨_, _, _, batchID, hold, _⟩ := buildBatchImageHoldCommand_ok built
    split
    · rename_i free
      exact .ret fun _ _ => Or.inl (hold ▸ free)
    · rename_i needed
      refine Sound.bind (holdCall_sound fun s inv known =>
        issued_of_built .reserve inv known built (fun _ => not_le.mp needed)
          (fun other => by cases other)) fun answer => ?_
      split
      · exact .ret fun s facts => Or.inr (batchID ▸ facts.2 rfl)
      · exact .ret fun _ _ => trivial
      · exact .ret fun _ _ => trivial

theorem captureBatchImageBalanceHold_sound {actualAmount : ℚ} :
    Sound (Inv s₀) ((known job).and (held job))
      (captureBatchImageBalanceHold rt job actualAmount payloadHash) fun _ => Fact.none := by
  unfold captureBatchImageBalanceHold
  split
  · exact .ret fun _ _ => trivial
  · rename_i cmd built
    refine Sound.bind (holdCall_sound fun s inv facts =>
      issued_of_built .capture inv facts.1 built (fun other => absurd rfl other)
        (fun _ => facts.2)) fun answer => ?_
    split <;> exact .ret fun _ _ => trivial

theorem releaseBatchImageBalanceHold_sound (knows : ∀ s, K.holds s → Known job s) :
    Sound (Inv s₀) K (releaseBatchImageBalanceHold rt job payloadHash) fun _ => Fact.none := by
  unfold releaseBatchImageBalanceHold
  split
  · exact .ret fun _ _ => trivial
  · rename_i cmd built
    split
    · exact .ret fun _ _ => trivial
    · rename_i needed
      refine Sound.bind (holdCall_sound fun s inv holds =>
        issued_of_built .release inv (knows s holds) built (fun _ => not_le.mp needed)
          (fun other => by cases other)) fun answer => ?_
      split <;> exact .ret fun _ _ => trivial

end Holds

end Sub2api.BatchImage
