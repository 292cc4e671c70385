import Sub2api.Billing.Command

/-!
# Claiming a request

`claimUsageBillingRequest` is the idempotence guard of every billing transaction: it inserts into
the live dedup table and looks the key up in the archive. `claimOf` is what both tables say about
a key together, and the guard is read through it:

* `claim_fresh` — a fresh answer means that the key was unclaimed and is claimed now;
* `claim_taken` — a duplicate answer means that it was claimed with the same fingerprint;
* `claim_refused` — a refusal is a failed statement or a claim with another fingerprint;
* `claim_run` — the guard's decision when its statements go through;
* `claimOf_moveToArchive` — moving rows to the archive changes no claim.
-/

namespace Sub2api.Billing

open Database Go

/-- Inserts the live row; whether there was none. -/
def insertDedup (key : DedupKey) (fingerprint : String) (now : Time) (db : Db) : Bool × Db :=
  let (inserted, table) := db.usageBillingDedup.insertNew key
    { requestFingerprint := fingerprint, createdAt := now }
  (inserted, { db with usageBillingDedup := table })

/-- `true` when the request is claimed now, `false` when it was before. -/
def claimUsageBillingRequest (key : DedupKey) (requestFingerprint : String) (now : Time) :
    BillingTx Bool := do
  let inserted ← Tx.stmt (insertDedup key requestFingerprint now)
  if inserted then
    let archived ← Tx.stmt fun db => (db.usageBillingDedupArchive key, db)
    match archived with
    | some row =>
      if trimSpace row.requestFingerprint ≠ trimSpace requestFingerprint then
        Tx.fail .usageBillingRequestConflict
      else pure false
    | none => pure true
  else
    let existing ← Tx.stmt fun db => (db.usageBillingDedup key, db)
    match existing with
    | some row =>
      if trimSpace row.requestFingerprint ≠ trimSpace requestFingerprint then
        Tx.fail .usageBillingRequestConflict
      else pure false
    | none => Tx.fail .noRows

/-- What the live table and the archive say about a key. -/
def claimOf (db : Db) (key : DedupKey) : Option DedupRow :=
  match db.usageBillingDedup key with
  | some row => some row
  | none => db.usageBillingDedupArchive key

/-- No key is in both tables. -/
def DedupDisjoint (db : Db) : Prop :=
  ∀ key, db.usageBillingDedup key = none ∨ db.usageBillingDedupArchive key = none

/-- The tables after a fresh claim. -/
def withClaim (key : DedupKey) (fingerprint : String) (now : Time) (db : Db) : Db :=
  { db with
    usageBillingDedup := Function.update db.usageBillingDedup key
      (some { requestFingerprint := fingerprint, createdAt := now }) }

/-- The rows one batch of `CleanupUsageBillingDedup` picks: victims older than the cutoff. -/
def isVictim (victims : List DedupKey) (cutoff : Time) (db : Db) (key : DedupKey) : Bool :=
  match db.usageBillingDedup key with
  | some row => key ∈ victims && row.createdAt < cutoff
  | none => false

/-- One batch of `CleanupUsageBillingDedup`: the victims go to the archive, where a row that is
already there stays, and leave the live table. -/
def moveToArchive (victims : List DedupKey) (cutoff : Time) (db : Db) : Db :=
  { db with
    usageBillingDedup := fun key =>
      if isVictim victims cutoff db key then none else db.usageBillingDedup key
    usageBillingDedupArchive := fun key =>
      match db.usageBillingDedupArchive key with
      | some row => some row
      | none => if isVictim victims cutoff db key then db.usageBillingDedup key else none }

section Guard

variable {key : DedupKey} {fingerprint : String} {now : Time} {faults : Faults BillingError}
  {n m : ℕ} {db db' : Db}

theorem insertDedup_eq (key : DedupKey) (fingerprint : String) (now : Time) (db : Db) :
    insertDedup key fingerprint now db =
      match db.usageBillingDedup key with
      | some _ => (false, db)
      | none => (true, withClaim key fingerprint now db) := by
  unfold insertDedup Table.insertNew withClaim
  cases db.usageBillingDedup key <;> rfl

/-- The guard as a decision on `claimOf`, when its two statements go through. -/
theorem claim_run (first : faults n = none) (second : faults (n + 1) = none) :
    claimUsageBillingRequest key fingerprint now faults (n, db) =
      match claimOf db key with
      | none => .ok (true, (n + 2, withClaim key fingerprint now db))
      | some row =>
        if trimSpace row.requestFingerprint ≠ trimSpace fingerprint then
          .error .usageBillingRequestConflict
        else .ok (false, (n + 2, (insertDedup key fingerprint now db).2)) := by
  unfold claimUsageBillingRequest
  rw [Tx.bind_run, Tx.stmt_run, first, insertDedup_eq]
  cases live : db.usageBillingDedup key with
  | some row =>
    simp only [claimOf, live, Bool.false_eq_true, if_false]
    rw [Tx.bind_run, Tx.stmt_run, second]
    simp only [live]
    split <;> rfl
  | none =>
    simp only [claimOf, live, if_true]
    rw [Tx.bind_run, Tx.stmt_run, second]
    have kept : (withClaim key fingerprint now db).usageBillingDedupArchive key =
        db.usageBillingDedupArchive key := rfl
    simp only [kept]
    cases db.usageBillingDedupArchive key with
    | some row => dsimp only; split <;> rfl
    | none => rfl

/-- An answer of the guard means that both of its statements went through. -/
theorem claim_ok_faultless {fresh : Bool}
    (ran : claimUsageBillingRequest key fingerprint now faults (n, db) =
      .ok (fresh, (m, db'))) : faults n = none ∧ faults (n + 1) = none := by
  unfold claimUsageBillingRequest at ran
  simp only [Tx.bind_eq_ok, Tx.stmt_eq_ok] at ran
  obtain ⟨inserted, k, db₁, ⟨first, _, rfl⟩, rest⟩ := ran
  refine ⟨first, ?_⟩
  split at rest <;> simp only [Tx.bind_eq_ok, Tx.stmt_eq_ok] at rest
  · obtain ⟨_, _, _, ⟨second, _⟩, _⟩ := rest
    exact second
  · obtain ⟨_, _, _, ⟨second, _⟩, _⟩ := rest
    exact second

/-- A fresh answer: nothing had claimed the key, and the body goes on with it claimed. -/
theorem claim_fresh
    (ran : claimUsageBillingRequest key fingerprint now faults (n, db) = .ok (true, (m, db'))) :
    claimOf db key = none ∧ db' = withClaim key fingerprint now db := by
  obtain ⟨first, second⟩ := claim_ok_faultless ran
  rw [claim_run first second] at ran
  cases claimed : claimOf db key with
  | none => simp only [claimed, Except.ok.injEq, Prod.mk.injEq] at ran; exact ⟨rfl, ran.2.2.symm⟩
  | some row => simp only [claimed] at ran; split at ran <;> simp at ran

/-- A duplicate answer: the key was claimed with the same fingerprint. -/
theorem claim_taken
    (ran : claimUsageBillingRequest key fingerprint now faults (n, db) = .ok (false, (m, db'))) :
    ∃ row, claimOf db key = some row ∧
      trimSpace row.requestFingerprint = trimSpace fingerprint := by
  obtain ⟨first, second⟩ := claim_ok_faultless ran
  rw [claim_run first second] at ran
  cases claimed : claimOf db key with
  | none => simp [claimed] at ran
  | some row =>
    simp only [claimed] at ran
    split at ran
    · simp at ran
    · rename_i same
      exact ⟨row, rfl, not_not.mp same⟩

/-- A refusal: a statement failed, or the key is claimed with another fingerprint. -/
theorem claim_refused {e : BillingError}
    (ran : claimUsageBillingRequest key fingerprint now faults (n, db) = .error e) :
    (∃ k, faults k = some e) ∨
      (e = .usageBillingRequestConflict ∧ ∃ row, claimOf db key = some row ∧
        trimSpace row.requestFingerprint ≠ trimSpace fingerprint) := by
  cases first : faults n with
  | some e' =>
    rw [claimUsageBillingRequest, Tx.bind_run, Tx.stmt_run, first] at ran
    exact Or.inl ⟨n, by simpa [first] using ran⟩
  | none =>
    cases second : faults (n + 1) with
    | some e' =>
      rw [claimUsageBillingRequest, Tx.bind_run, Tx.stmt_run, first] at ran
      refine Or.inl ⟨n + 1, ?_⟩
      dsimp only at ran
      split at ran <;> rw [Tx.bind_run, Tx.stmt_run, second] at ran <;> simpa [second] using ran
    | none =>
      rw [claim_run first second] at ran
      cases claimed : claimOf db key with
      | none => simp [claimed] at ran
      | some row =>
        simp only [claimed] at ran
        split at ran
        · rename_i differs
          exact Or.inr ⟨by simpa using ran.symm, row, rfl, differs⟩
        · simp at ran

end Guard

section Archive

variable (victims : List DedupKey) (cutoff : Time) (db : Db)

theorem isVictim_of_absent {key : DedupKey} (absent : db.usageBillingDedup key = none) :
    isVictim victims cutoff db key = false := by
  simp [isVictim, absent]

/-- Moving rows to the archive keeps the two tables disjoint. -/
theorem moveToArchive_disjoint (disjoint : DedupDisjoint db) :
    DedupDisjoint (moveToArchive victims cutoff db) := by
  intro key
  simp only [moveToArchive]
  cases chosen : isVictim victims cutoff db key with
  | true => exact Or.inl rfl
  | false =>
    rcases disjoint key with absent | unarchived
    · exact Or.inl (by simpa using absent)
    · exact Or.inr (by simp [unarchived])

/-- Moving rows to the archive changes no claim. -/
theorem claimOf_moveToArchive (disjoint : DedupDisjoint db) (key : DedupKey) :
    claimOf (moveToArchive victims cutoff db) key = claimOf db key := by
  simp only [claimOf, moveToArchive]
  cases chosen : isVictim victims cutoff db key with
  | true =>
    rcases disjoint key with absent | unarchived
    · rw [isVictim_of_absent victims cutoff db absent] at chosen
      cases chosen
    · simp only [unarchived, if_true]
      cases db.usageBillingDedup key <;> rfl
  | false =>
    simp only [Bool.false_eq_true, if_false]
    cases db.usageBillingDedup key with
    | some row => rfl
    | none => cases db.usageBillingDedupArchive key <;> rfl

end Archive

/-- What a fresh claim adds to the claims. -/
theorem claimOf_withClaim (key other : DedupKey) (fingerprint : String) (now : Time) (db : Db) :
    claimOf (withClaim key fingerprint now db) other =
      if other = key then some { requestFingerprint := fingerprint, createdAt := now }
      else claimOf db other := by
  unfold claimOf withClaim
  by_cases same : other = key
  · subst same; simp
  · simp [same]

theorem withClaim_disjoint {key : DedupKey} {fingerprint : String} {now : Time} {db : Db}
    (disjoint : DedupDisjoint db) (unclaimed : claimOf db key = none) :
    DedupDisjoint (withClaim key fingerprint now db) := by
  intro other
  by_cases same : other = key
  · subst same
    right
    unfold claimOf at unclaimed
    split at unclaimed
    · cases unclaimed
    · exact unclaimed
  · simpa [withClaim, Function.update_of_ne same] using disjoint other

end Sub2api.Billing
