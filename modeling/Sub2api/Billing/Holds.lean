import Sub2api.Billing.Claims

/-!
# Batch-image holds

A hold moves money from a user's `balance` to the `frozen_balance` and, once, out of it again: a
capture returns what is left over the actual cost, a release returns all of it. Each of the three
is a transaction of its own with its own claim. `hold_cases` says everything a call can do, and
the three inversion lemmas what its `UPDATE` did:

* `reserveUsageBillingBatchImageBalance_ok`
* `captureUsageBillingBatchImageBalance_ok`
* `releaseUsageBillingBatchImageBalance_ok`
-/

namespace Sub2api.Billing

open Database Go

structure BatchImageBalanceHoldResult where
  applied : Bool := false
  newBalance : Option ℚ := none
  frozenBalance : Option ℚ := none

def batchImageHoldRequestPrefix : String := "batch_image_hold:"
def batchImageCaptureRequestPrefix : String := "batch_image_capture:"
def batchImageReleaseRequestPrefix : String := "batch_image_release:"

def batchImageHoldRequestID (batchID : String) : String :=
  batchImageHoldRequestPrefix ++ trimSpace batchID
def batchImageCaptureRequestID (batchID : String) : String :=
  batchImageCaptureRequestPrefix ++ trimSpace batchID
def batchImageReleaseRequestID (batchID : String) : String :=
  batchImageReleaseRequestPrefix ++ trimSpace batchID

/-- The three operations on a hold. -/
inductive HoldKind where
  | reserve
  | capture
  | release
  deriving DecidableEq

/-- The request id of an operation on a batch's hold. -/
def HoldKind.requestID : HoldKind → String → String
  | .reserve => batchImageHoldRequestID
  | .capture => batchImageCaptureRequestID
  | .release => batchImageReleaseRequestID

/-- The row after `balance + b`, `frozen_balance + f`, each rounded to its column. -/
def User.shift (b f : ℚ) (u : User) : User :=
  { u with
    balance := .store 8 (u.balance.value + b)
    frozenBalance := .store 8 (u.frozenBalance.value + f) }

/-- `UPDATE users SET balance = …, frozen_balance = … WHERE id = $2 AND deleted_at IS NULL AND …`. -/
def shiftUser (userID : ℤ) (guard : User → Bool) (b f : ℚ) : BillingTx (Option User) :=
  Tx.updateRow Db.users (fun table db => { db with users := table }) userID
    (fun _ u => !u.deleted && guard u) (fun u => .ok (u.shift b f))

def userExistsForBilling (userID : ℤ) : BillingTx Bool :=
  Tx.stmt fun db =>
    (match db.users userID with
      | some u => !u.deleted
      | none => false, db)

/-- Whether the hold's own claim is in the dedup table or the archive. -/
def batchImageHoldClaimExists (holdRequestID : String) (apiKeyID : ℤ) : BillingTx Bool := do
  let live ← Tx.stmt fun db => ((db.usageBillingDedup (holdRequestID, apiKeyID)).isSome, db)
  if live then pure true
  else Tx.stmt fun db => ((db.usageBillingDedupArchive (holdRequestID, apiKeyID)).isSome, db)

/-- The answer from the updated row, or the error that explains why no row was updated. -/
def holdAnswer (row : Option User) (userID : ℤ) (refusal : BillingError) :
    BillingTx BatchImageBalanceHoldResult :=
  match row with
  | some u =>
    pure { newBalance := some u.balance.value, frozenBalance := some u.frozenBalance.value }
  | none => do
    let userExists ← userExistsForBilling userID
    if userExists then Tx.fail refusal else Tx.fail .userNotFound

def reserveUsageBillingBatchImageBalance (cmd : BatchImageBalanceHoldCommand) :
    BillingTx BatchImageBalanceHoldResult :=
  if cmd.holdAmount ≤ 0 then pure {}
  else do
    let row ← shiftUser cmd.userID (fun u => cmd.holdAmount ≤ u.balance.value)
      (-cmd.holdAmount) cmd.holdAmount
    holdAnswer row cmd.userID .batchImageInsufficientBalance

/-- `1e-8`, the tolerance of the comparison with the hold. -/
def holdTolerance : ℚ := 1 / 100000000

def captureUsageBillingBatchImageBalance (rt : Runtime) (cmd : BatchImageBalanceHoldCommand) :
    BillingTx BatchImageBalanceHoldResult :=
  if cmd.holdAmount ≤ 0 ∧ cmd.actualAmount ≤ 0 then pure {}
  else if rt.subFloat64 cmd.actualAmount cmd.holdAmount > holdTolerance then
    Tx.fail .batchImageSettlementCostExceedsHold
  else do
    let surplus := if cmd.holdAmount > cmd.actualAmount then cmd.holdAmount - cmd.actualAmount else 0
    let under := if cmd.actualAmount > cmd.holdAmount then cmd.actualAmount - cmd.holdAmount else 0
    let row ← shiftUser cmd.userID (fun u => cmd.holdAmount ≤ u.frozenBalance.value)
      (surplus - under) (-cmd.holdAmount)
    holdAnswer row cmd.userID .frozenBalanceInsufficient

/-- A release looks only at whether the hold was ever claimed. -/
def releaseUsageBillingBatchImageBalance (cmd : BatchImageBalanceHoldCommand) :
    BillingTx BatchImageBalanceHoldResult :=
  if cmd.holdAmount ≤ 0 then pure {}
  else do
    let held ← batchImageHoldClaimExists (batchImageHoldRequestID cmd.batchID) cmd.apiKeyID
    if held then do
      let row ← shiftUser cmd.userID (fun u => cmd.holdAmount ≤ u.frozenBalance.value)
        cmd.holdAmount (-cmd.holdAmount)
      holdAnswer row cmd.userID .frozenBalanceInsufficient
    else pure {}

def HoldKind.effect (rt : Runtime) :
    HoldKind → BatchImageBalanceHoldCommand → BillingTx BatchImageBalanceHoldResult
  | .reserve => reserveUsageBillingBatchImageBalance
  | .capture => captureUsageBillingBatchImageBalance rt
  | .release => releaseUsageBillingBatchImageBalance

def holdBody (rt : Runtime) (now : Time) (kind : HoldKind) (cmd : BatchImageBalanceHoldCommand) :
    BillingTx (Ending BatchImageBalanceHoldResult) := do
  let applied ← claimUsageBillingRequest (cmd.requestID, cmd.apiKeyID) cmd.requestFingerprint now
  if applied then
    let result ← kind.effect rt cmd
    pure (.commit { result with applied := true })
  else pure (.rollback { applied := false })

/-- `ReserveBatchImageBalance`, `CaptureBatchImageBalance` and `ReleaseBatchImageBalance`. -/
def applyBatchImageBalanceHold (rt : Runtime) (now : Time) (faults : Faults BillingError)
    (kind : HoldKind) (cmd : BatchImageBalanceHoldCommand) (db : Db) :
    Except BillingError BatchImageBalanceHoldResult × Db :=
  let cmd := cmd.normalize rt
  if cmd.requestID = "" then (.error .usageBillingRequestIDRequired, db)
  else transact (holdBody rt now kind cmd) faults db

/-! ### Request ids -/

theorem noBlank_requestID (kind : HoldKind) {batchID : String} (printed : NoBlank batchID) :
    NoBlank (kind.requestID batchID) := by
  have hold : NoBlank batchImageHoldRequestPrefix := by decide
  have capture : NoBlank batchImageCaptureRequestPrefix := by decide
  have release : NoBlank batchImageReleaseRequestPrefix := by decide
  cases kind with
  | reserve => exact hold.append (by rwa [trimSpace_of_noBlank printed])
  | capture => exact capture.append (by rwa [trimSpace_of_noBlank printed])
  | release => exact release.append (by rwa [trimSpace_of_noBlank printed])

/-- The request id tells the operation and the batch. -/
theorem requestID_injective {kind kind' : HoldKind} {batchID batchID' : String}
    (printed : NoBlank batchID) (printed' : NoBlank batchID')
    (same : kind.requestID batchID = kind'.requestID batchID') :
    kind = kind' ∧ batchID = batchID' := by
  have chars := congrArg String.toList same
  cases kind <;> cases kind' <;>
    simp [HoldKind.requestID, batchImageHoldRequestID, batchImageCaptureRequestID,
      batchImageReleaseRequestID, batchImageHoldRequestPrefix, batchImageCaptureRequestPrefix,
      batchImageReleaseRequestPrefix, trimSpace_of_noBlank printed,
      trimSpace_of_noBlank printed'] at chars ⊢
  all_goals exact String.toList_inj.mp chars

/-! ### What the update of each operation did -/

/-- The row of a live user was shifted, and nothing else. -/
def Shifted (userID : ℤ) (guard : User → Prop) (b f : ℚ) (db db' : Db) : Prop :=
  ∃ u, db.users userID = some u ∧ u.deleted = false ∧ guard u ∧
    db' = { db with users := Function.update db.users userID (some (u.shift b f)) }

section Inversion

variable {rt : Runtime} {cmd : BatchImageBalanceHoldCommand} {faults : Faults BillingError}
  {n m : ℕ} {db db' : Db} {out : BatchImageBalanceHoldResult}

/-- An answer with a balance in it comes from a shifted row. -/
theorem shiftUser_answered {guard : User → Bool} {b f : ℚ} {userID : ℤ} {refusal : BillingError}
    (ran : (shiftUser userID guard b f >>= fun row => holdAnswer row userID refusal)
      faults (n, db) = .ok (out, (m, db'))) :
    out.newBalance.isSome = true ∧ Shifted userID (fun u => guard u = true) b f db db' := by
  simp only [Tx.bind_eq_ok] at ran
  obtain ⟨row, k, db₁, updated, answered⟩ := ran
  cases row with
  | none =>
    simp only [holdAnswer, Tx.bind_eq_ok] at answered
    obtain ⟨userExists, _, _, _, refused⟩ := answered
    cases userExists
    · exact absurd refused (by simp)
    · exact absurd refused (by simp)
  | some new =>
    obtain ⟨u, found, passed, made, rfl⟩ := Tx.updateRow_some updated
    simp only [holdAnswer, Tx.pure_eq_ok] at answered
    obtain ⟨rfl, _, rfl⟩ := answered
    simp only [Bool.and_eq_true, Bool.not_eq_true'] at passed
    cases made
    exact ⟨rfl, u, found, passed.1, passed.2, rfl⟩

theorem reserveUsageBillingBatchImageBalance_ok
    (ran : reserveUsageBillingBatchImageBalance cmd faults (n, db) = .ok (out, (m, db'))) :
    (cmd.holdAmount ≤ 0 ∧ out = {} ∧ db' = db) ∨
    (0 < cmd.holdAmount ∧ out.newBalance.isSome = true ∧
      Shifted cmd.userID (fun u => cmd.holdAmount ≤ u.balance.value)
        (-cmd.holdAmount) cmd.holdAmount db db') := by
  unfold reserveUsageBillingBatchImageBalance at ran
  by_cases none : cmd.holdAmount ≤ 0
  · simp only [none, if_true, Tx.pure_eq_ok] at ran
    exact Or.inl ⟨none, ran.1.symm, ran.2.2.symm⟩
  · simp only [none, if_false] at ran
    have answered := shiftUser_answered ran
    exact Or.inr ⟨not_le.mp none, answered.1, by simpa using answered.2⟩

/-- What a capture adds back to the balance is the hold less the actual amount. -/
theorem capture_difference (hold actual : ℚ) :
    (if hold > actual then hold - actual else 0) - (if actual > hold then actual - hold else 0) =
      hold - actual := by
  rcases lt_trichotomy hold actual with less | same | more
  · rw [if_neg (not_lt.mpr less.le), if_pos less]
    ring
  · subst same
    simp
  · rw [if_pos more, if_neg (not_lt.mpr more.le)]
    ring

theorem captureUsageBillingBatchImageBalance_ok
    (ran : captureUsageBillingBatchImageBalance rt cmd faults (n, db) = .ok (out, (m, db'))) :
    (cmd.holdAmount ≤ 0 ∧ cmd.actualAmount ≤ 0 ∧ out = {} ∧ db' = db) ∨
    (out.newBalance.isSome = true ∧
      Shifted cmd.userID (fun u => cmd.holdAmount ≤ u.frozenBalance.value)
        (cmd.holdAmount - cmd.actualAmount) (-cmd.holdAmount) db db') := by
  unfold captureUsageBillingBatchImageBalance at ran
  by_cases none : cmd.holdAmount ≤ 0 ∧ cmd.actualAmount ≤ 0
  · simp only [none, and_self, if_true, Tx.pure_eq_ok] at ran
    exact Or.inl ⟨none.1, none.2, ran.1.symm, ran.2.2.symm⟩
  · rw [if_neg none] at ran
    by_cases exceeds : rt.subFloat64 cmd.actualAmount cmd.holdAmount > holdTolerance
    · rw [if_pos exceeds] at ran
      exact absurd ran (by simp)
    · rw [if_neg exceeds] at ran
      have answered := shiftUser_answered ran
      rw [capture_difference] at answered
      exact Or.inr ⟨answered.1, by simpa using answered.2⟩

/-- The claim a release looks for, found in either table. -/
theorem batchImageHoldClaimExists_ok {holdRequestID : String} {apiKeyID : ℤ} {held : Bool}
    (ran : batchImageHoldClaimExists holdRequestID apiKeyID faults (n, db) =
      .ok (held, (m, db'))) :
    db' = db ∧ held = (claimOf db (holdRequestID, apiKeyID)).isSome := by
  simp only [batchImageHoldClaimExists, Tx.bind_eq_ok, Tx.stmt_eq_ok, Prod.mk.injEq] at ran
  obtain ⟨live, k, db₁, ⟨_, ⟨found, rfl⟩, _⟩, rest⟩ := ran
  cases row : db.usageBillingDedup (holdRequestID, apiKeyID) with
  | some existing =>
    rw [row] at found
    subst found
    simp only [Option.isSome_some, if_true, Tx.pure_eq_ok] at rest
    exact ⟨rest.2.2.symm, by simp [← rest.1, claimOf, row]⟩
  | none =>
    rw [row] at found
    subst found
    simp only [Option.isSome_none, Bool.false_eq_true, if_false, Tx.stmt_eq_ok,
      Prod.mk.injEq] at rest
    exact ⟨rest.2.1.2.symm, by simp [← rest.2.1.1, claimOf, row]⟩

theorem releaseUsageBillingBatchImageBalance_ok
    (ran : releaseUsageBillingBatchImageBalance cmd faults (n, db) = .ok (out, (m, db'))) :
    ((cmd.holdAmount ≤ 0 ∨
        claimOf db (batchImageHoldRequestID cmd.batchID, cmd.apiKeyID) = none) ∧
      out = {} ∧ db' = db) ∨
    (0 < cmd.holdAmount ∧
      claimOf db (batchImageHoldRequestID cmd.batchID, cmd.apiKeyID) ≠ none ∧
      out.newBalance.isSome = true ∧
      Shifted cmd.userID (fun u => cmd.holdAmount ≤ u.frozenBalance.value)
        cmd.holdAmount (-cmd.holdAmount) db db') := by
  unfold releaseUsageBillingBatchImageBalance at ran
  by_cases none : cmd.holdAmount ≤ 0
  · simp only [none, if_true, Tx.pure_eq_ok] at ran
    exact Or.inl ⟨Or.inl none, ran.1.symm, ran.2.2.symm⟩
  · rw [if_neg none] at ran
    simp only [Tx.bind_eq_ok] at ran
    obtain ⟨held, k, db₁, looked, rest⟩ := ran
    obtain ⟨rfl, found⟩ := batchImageHoldClaimExists_ok looked
    cases held with
    | false =>
      simp only [Bool.false_eq_true, if_false, Tx.pure_eq_ok] at rest
      exact Or.inl ⟨Or.inr (by simpa using found), rest.1.symm, rest.2.2.symm⟩
    | true =>
      simp only [if_true] at rest
      have answered := shiftUser_answered rest
      refine Or.inr ⟨not_le.mp none, ?_, answered.1, by simpa using answered.2⟩
      intro absent
      rw [absent] at found
      cases found

/-- The effects refuse with errors of their own, none of them a fingerprint conflict. -/
theorem shiftUser_no_conflict {guard : User → Bool} {b f : ℚ} {userID : ℤ}
    {refusal : BillingError} (other : refusal ≠ .usageBillingRequestConflict)
    (ran : (shiftUser userID guard b f >>= fun row => holdAnswer row userID refusal)
      faults (n, db) = .error .usageBillingRequestConflict) :
    ∃ k, faults k = some .usageBillingRequestConflict := by
  simp only [Tx.bind_eq_error] at ran
  rcases ran with failed | ⟨row, k, db₁, _, failed⟩
  · exact ⟨n, Tx.updateRow_error_of_ok (fun _ => ⟨_, rfl⟩) failed⟩
  · cases row with
    | some u => exact absurd failed (by simp [holdAnswer])
    | none =>
      simp only [holdAnswer, Tx.bind_eq_error] at failed
      rcases failed with looked | ⟨userExists, j, db₂, _, refused⟩
      · exact ⟨k, by simpa [userExistsForBilling] using looked⟩
      · cases userExists
        · exact absurd refused (by simp)
        · exact absurd refused (by simpa using other)

theorem effect_no_conflict {kind : HoldKind}
    (ran : kind.effect rt cmd faults (n, db) = .error .usageBillingRequestConflict) :
    ∃ k, faults k = some .usageBillingRequestConflict := by
  cases kind with
  | reserve =>
    simp only [HoldKind.effect, reserveUsageBillingBatchImageBalance] at ran
    split at ran
    · exact absurd ran (by simp)
    · exact shiftUser_no_conflict (by decide) ran
  | capture =>
    simp only [HoldKind.effect, captureUsageBillingBatchImageBalance] at ran
    split at ran
    · exact absurd ran (by simp)
    · split at ran
      · exact absurd ran (by simp)
      · exact shiftUser_no_conflict (by decide) ran
  | release =>
    simp only [HoldKind.effect, releaseUsageBillingBatchImageBalance] at ran
    split at ran
    · exact absurd ran (by simp)
    · simp only [Tx.bind_eq_error] at ran
      rcases ran with looked | ⟨held, k, db₁, _, failed⟩
      · simp only [batchImageHoldClaimExists, Tx.bind_eq_error, Tx.stmt_eq_error] at looked
        rcases looked with first | ⟨live, k, db₁, _, second⟩
        · exact ⟨n, first⟩
        · cases live
          · exact ⟨k, by simpa using second⟩
          · exact absurd second (by simp)
      · cases held
        · exact absurd failed (by simp)
        · exact shiftUser_no_conflict (by decide) failed

/-- A call on a hold fails and changes nothing, or finds its request claimed and changes nothing,
or claims it and has its effect. -/
theorem hold_cases (rt : Runtime) (now : Time) (faults : Faults BillingError) (kind : HoldKind)
    (cmd : BatchImageBalanceHoldCommand) (db : Db) :
    (∃ e, applyBatchImageBalanceHold rt now faults kind cmd db = (.error e, db) ∧
      (e = .usageBillingRequestConflict → (∃ k, faults k = some e) ∨
        claimOf db ((cmd.normalize rt).requestID, (cmd.normalize rt).apiKeyID) ≠ none)) ∨
    (applyBatchImageBalanceHold rt now faults kind cmd db = (.ok {}, db) ∧
      claimOf db ((cmd.normalize rt).requestID, (cmd.normalize rt).apiKeyID) ≠ none) ∨
    (∃ result n m db', applyBatchImageBalanceHold rt now faults kind cmd db =
        (.ok { result with applied := true }, db') ∧
      claimOf db ((cmd.normalize rt).requestID, (cmd.normalize rt).apiKeyID) = none ∧
      kind.effect rt (cmd.normalize rt) faults
        (n, withClaim ((cmd.normalize rt).requestID, (cmd.normalize rt).apiKeyID)
          (cmd.normalize rt).requestFingerprint now db) = .ok (result, (m, db'))) := by
  unfold applyBatchImageBalanceHold
  generalize cmd.normalize rt = cmd
  dsimp only
  split
  · exact Or.inl ⟨_, rfl, by simp⟩
  · rcases transact_cases (holdBody rt now kind cmd) faults db with
      ⟨e, out, cause⟩ | ⟨a, n, s, ran, out⟩ | ⟨a, n, s, ran, out⟩
    · refine Or.inl ⟨e, out, ?_⟩
      rintro rfl
      rcases cause with planned | failed
      · exact Or.inl planned
      · simp only [holdBody, Tx.bind_eq_error] at failed
        rcases failed with refused | ⟨fresh, k, db₁, _, rest⟩
        · rcases claim_refused refused with planned | ⟨_, row, found, _⟩
          · exact Or.inl planned
          · exact Or.inr (by simp [found])
        · cases fresh
          · exact absurd rest (by simp)
          · simp only [if_true, Tx.bind_eq_error, Tx.pure_eq_error, and_false, exists_false,
              or_false] at rest
            exact Or.inl (effect_no_conflict rest)
    · right; left
      simp only [holdBody, Tx.bind_eq_ok] at ran
      obtain ⟨fresh, k, db₁, claimed, rest⟩ := ran
      cases fresh with
      | true =>
        simp only [if_true, Tx.bind_eq_ok, Tx.pure_eq_ok] at rest
        obtain ⟨_, _, _, _, impossible, _⟩ := rest
        cases impossible
      | false =>
        simp only [Bool.false_eq_true, if_false, Tx.pure_eq_ok, Ending.rollback.injEq] at rest
        obtain ⟨rfl, _⟩ := rest
        obtain ⟨row, found, _⟩ := claim_taken claimed
        exact ⟨out, by simp [found]⟩
    · right; right
      simp only [holdBody, Tx.bind_eq_ok] at ran
      obtain ⟨fresh, k, db₁, claimed, rest⟩ := ran
      cases fresh with
      | true =>
        simp only [if_true, Tx.bind_eq_ok, Tx.pure_eq_ok, Ending.commit.injEq] at rest
        obtain ⟨result, _, _, effected, rfl, _, rfl⟩ := rest
        obtain ⟨unclaimed, rfl⟩ := claim_fresh claimed
        exact ⟨result, _, _, _, out, unclaimed, effected⟩
      | false =>
        simp only [Bool.false_eq_true, if_false, Tx.pure_eq_ok] at rest
        obtain ⟨impossible, _⟩ := rest
        cases impossible

end Inversion

/-! ### The outcome of a call -/

section Outcome

/-- What the `UPDATE` of an operation asks of the user's row. -/
def HoldKind.guard (cmd : BatchImageBalanceHoldCommand) : HoldKind → User → Prop
  | .reserve => fun u => cmd.holdAmount ≤ u.balance.value
  | .capture => fun u => cmd.holdAmount ≤ u.frozenBalance.value
  | .release => fun u => cmd.holdAmount ≤ u.frozenBalance.value

def HoldKind.balanceShift (cmd : BatchImageBalanceHoldCommand) : HoldKind → ℚ
  | .reserve => -cmd.holdAmount
  | .capture => cmd.holdAmount - cmd.actualAmount
  | .release => cmd.holdAmount

def HoldKind.frozenShift (cmd : BatchImageBalanceHoldCommand) : HoldKind → ℚ
  | .reserve => cmd.holdAmount
  | .capture => -cmd.holdAmount
  | .release => -cmd.holdAmount

/-- When an operation commits its claim without an update. -/
def HoldKind.idle (cmd : BatchImageBalanceHoldCommand) (db : Db) : HoldKind → Prop
  | .reserve => cmd.holdAmount ≤ 0
  | .capture => cmd.holdAmount ≤ 0 ∧ cmd.actualAmount ≤ 0
  | .release => cmd.holdAmount ≤ 0 ∨
      claimOf db (batchImageHoldRequestID cmd.batchID, cmd.apiKeyID) = none

/-- What an update of an operation tells beside its guard. -/
def HoldKind.moves (cmd : BatchImageBalanceHoldCommand) (db : Db) : HoldKind → Prop
  | .reserve => 0 < cmd.holdAmount
  | .capture => True
  | .release => 0 < cmd.holdAmount ∧
      claimOf db (batchImageHoldRequestID cmd.batchID, cmd.apiKeyID) ≠ none

/-- The answers and databases a call on a hold can end in. -/
inductive HoldOutcome (kind : HoldKind) (cmd : BatchImageBalanceHoldCommand) (db : Db) :
    Except BillingError BatchImageBalanceHoldResult → Db → Prop where
  /-- An error, or a duplicate's answer. -/
  | unchanged (answer : Except BillingError BatchImageBalanceHoldResult)
      (quiet : ∀ result, answer = .ok result → result.newBalance = none)
      (claimed : (∃ result, answer = .ok result) ∨ answer = .error .usageBillingRequestConflict →
        claimOf db (cmd.requestID, cmd.apiKeyID) ≠ none) :
      HoldOutcome kind cmd db answer db
  /-- The claim alone. -/
  | idle (fingerprint : String) (now : Time)
      (unclaimed : claimOf db (cmd.requestID, cmd.apiKeyID) = none) (idle : kind.idle cmd db) :
      HoldOutcome kind cmd db (.ok { applied := true })
        (withClaim (cmd.requestID, cmd.apiKeyID) fingerprint now db)
  /-- The claim and the update. -/
  | moved (fingerprint : String) (now : Time) (result : BatchImageBalanceHoldResult) (db' : Db)
      (unclaimed : claimOf db (cmd.requestID, cmd.apiKeyID) = none)
      (moves : kind.moves cmd db) (answered : result.newBalance.isSome = true)
      (shifted : Shifted cmd.userID (kind.guard cmd) (kind.balanceShift cmd) (kind.frozenShift cmd)
        (withClaim (cmd.requestID, cmd.apiKeyID) fingerprint now db) db') :
      HoldOutcome kind cmd db (.ok { result with applied := true }) db'

variable {rt : Runtime} {cmd : BatchImageBalanceHoldCommand}

/-- Normalizing a command with printed ids only fingerprints it. -/
theorem normalize_of_noBlank (rt : Runtime) (request : NoBlank cmd.requestID) (batch : NoBlank cmd.batchID) :
    ∃ fingerprint, cmd.normalize rt = { cmd with requestFingerprint := fingerprint } := by
  unfold BatchImageBalanceHoldCommand.normalize BatchImageBalanceHoldCommand.fingerprinted
  rw [trimSpace_of_noBlank request, trimSpace_of_noBlank batch]
  split
  · exact ⟨_, rfl⟩
  · exact ⟨cmd.requestFingerprint, rfl⟩

/-- Claiming another request does not change what a release finds of the hold. -/
theorem claimOf_hold_withClaim {fingerprint fingerprint' : String} {now : Time} {db : Db}
    (other : batchImageHoldRequestID cmd.batchID ≠ cmd.requestID) :
    claimOf (withClaim (cmd.requestID, cmd.apiKeyID) fingerprint now db)
        (batchImageHoldRequestID { cmd with requestFingerprint := fingerprint' }.batchID,
          { cmd with requestFingerprint := fingerprint' }.apiKeyID) =
      claimOf db (batchImageHoldRequestID cmd.batchID, cmd.apiKeyID) := by
  rw [claimOf_withClaim, if_neg]
  simp [other]

/-- Every call on a hold with printed ids, under a request id of its own kind, has an outcome. -/
theorem hold_outcome (now : Time) (faults : Faults BillingError) (kind : HoldKind) (db : Db)
    (batch : NoBlank cmd.batchID) (named : cmd.requestID = kind.requestID cmd.batchID)
    (database : ∀ k, faults k ≠ some .usageBillingRequestConflict) :
    HoldOutcome kind cmd db (applyBatchImageBalanceHold rt now faults kind cmd db).1
      (applyBatchImageBalanceHold rt now faults kind cmd db).2 := by
  have request : NoBlank cmd.requestID := named ▸ noBlank_requestID kind batch
  obtain ⟨fingerprint, normal⟩ := normalize_of_noBlank rt request batch
  have cases := hold_cases rt now faults kind cmd db
  rw [normal] at cases
  rcases cases with ⟨e, out, conflict⟩ | ⟨out, claimed⟩ | ⟨result, n, m, db', out, unclaimed, ran⟩
  · rw [out]
    refine .unchanged _ (fun result ok => by cases ok) ?_
    rintro (⟨result, ok⟩ | refused)
    · cases ok
    · rcases conflict (by simpa using refused) with ⟨k, planned⟩ | claimed
      · rw [show e = .usageBillingRequestConflict by simpa using refused] at planned
        exact absurd planned (database k)
      · exact claimed
  · rw [out]
    exact .unchanged _ (fun result ok => by cases ok; rfl) (fun _ => claimed)
  · rw [out]
    cases kind with
    | reserve =>
      rcases reserveUsageBillingBatchImageBalance_ok ran with
        ⟨none, rfl, rfl⟩ | ⟨some, answered, shifted⟩
      · exact .idle fingerprint now unclaimed none
      · exact .moved fingerprint now result db' unclaimed some answered shifted
    | capture =>
      rcases captureUsageBillingBatchImageBalance_ok ran with
        ⟨none, free, rfl, rfl⟩ | ⟨answered, shifted⟩
      · exact .idle fingerprint now unclaimed ⟨none, free⟩
      · exact .moved fingerprint now result db' unclaimed trivial answered shifted
    | release =>
      have other : batchImageHoldRequestID cmd.batchID ≠ cmd.requestID := by
        rw [named]
        intro same
        exact absurd (@requestID_injective .reserve .release _ _ batch batch same).1 (by decide)
      rcases releaseUsageBillingBatchImageBalance_ok ran with
        ⟨reason, rfl, rfl⟩ | ⟨some, held, answered, shifted⟩
      · refine .idle fingerprint now unclaimed (reason.imp id fun absent => ?_)
        rwa [claimOf_hold_withClaim other] at absent
      · refine .moved fingerprint now result db' unclaimed ⟨some, ?_⟩ answered shifted
        rwa [claimOf_hold_withClaim other] at held

end Outcome

end Sub2api.Billing
