import Sub2api.Billing.Apply
import Mathlib.Algebra.BigOperators.Group.List.Basic

/-!
# Exactly-once usage billing

A run is any sequence of calls of `apply`, each with its own clock reading and fault plan, and of
batches moved to the archive. The run remembers the commands that were committed with
`Applied=true`; nothing of the program reads that list.

* `Reached` — the invariant of runs: the two dedup tables hold exactly the committed pairs, and
  every column is its initial value with the charges of the committed commands on it;
* `apply_cases` — everything one call can do;
* `usage_billed_exactly_once` — the result over all runs, with what a duplicate is answered.
-/

namespace Sub2api.Billing

open Database Go

inductive BillingEvent where
  | apply (cmd : Option UsageBillingCommand) (now : Time) (faults : Faults BillingError)
  | archive (victims : List DedupKey) (cutoff : Time)

structure BillingRun where
  db : Db
  committed : List UsageBillingCommand := []

namespace BillingRun

/-- One event; a call that answers `Applied=true` is remembered, normalized. -/
def step (rt : Runtime) (cal : Calendar) (r : BillingRun) : BillingEvent → BillingRun
  | .apply cmd now faults =>
    let (answer, db) := Billing.apply rt cal now faults cmd r.db
    match answer, cmd with
    | .ok result, some cmd =>
      if result.applied then { db := db, committed := r.committed ++ [cmd.normalize rt] }
      else { r with db := db }
    | _, _ => { r with db := db }
  | .archive victims cutoff => { r with db := moveToArchive victims cutoff r.db }

def run (rt : Runtime) (cal : Calendar) (events : List BillingEvent) (db : Db) : BillingRun :=
  events.foldl (step rt cal) { db := db }

end BillingRun

section OneCall

variable (rt : Runtime) (cal : Calendar) (now : Time) (faults : Faults BillingError)

/-- A call fails on a statement of it or on its own checks and changes nothing, or finds the
request claimed with its fingerprint and changes nothing, or claims it and charges it. -/
theorem apply_cases (cmd : UsageBillingCommand) (db : Db) :
    (∃ e, apply rt cal now faults (some cmd) db = (.error e, db)) ∨
    (apply rt cal now faults (some cmd) db = (.ok {}, db) ∧
      ∃ row, claimOf db (cmd.normalize rt).dedupKey = some row ∧
        trimSpace row.requestFingerprint = trimSpace (cmd.normalize rt).requestFingerprint) ∨
    (∃ result db', apply rt cal now faults (some cmd) db = (.ok result, db') ∧
      result.applied = true ∧ claimOf db (cmd.normalize rt).dedupKey = none ∧
      Charged (cmd.normalize rt)
        (withClaim (cmd.normalize rt).dedupKey (cmd.normalize rt).requestFingerprint now db) db') := by
  unfold apply
  dsimp only
  split
  · exact Or.inl ⟨_, rfl⟩
  · rcases transact_cases (applyBody cal now (cmd.normalize rt)) faults db with
      ⟨e, out, _⟩ | ⟨a, n, s, ran, out⟩ | ⟨a, n, s, ran, out⟩
    · exact Or.inl ⟨e, out⟩
    · right; left
      simp only [applyBody, Tx.bind_eq_ok] at ran
      obtain ⟨fresh, k, db₁, claimed, rest⟩ := ran
      cases fresh with
      | true =>
        simp only [if_true, Tx.bind_eq_ok, Tx.pure_eq_ok] at rest
        obtain ⟨_, _, _, _, impossible, _⟩ := rest
        cases impossible
      | false =>
        simp only [Bool.false_eq_true, if_false, Tx.pure_eq_ok, Ending.rollback.injEq] at rest
        obtain ⟨rfl, _⟩ := rest
        exact ⟨out, claim_taken claimed⟩
    · right; right
      simp only [applyBody, Tx.bind_eq_ok] at ran
      obtain ⟨fresh, k, db₁, claimed, rest⟩ := ran
      cases fresh with
      | true =>
        simp only [if_true, Tx.bind_eq_ok, Tx.pure_eq_ok, Ending.commit.injEq] at rest
        obtain ⟨result, _, _, billed, rfl, _, rfl⟩ := rest
        obtain ⟨unclaimed, rfl⟩ := claim_fresh claimed
        exact ⟨result, _, out, applyUsageBillingEffects_applied billed, unclaimed,
          applyUsageBillingEffects_ok (normalize_quantized rt cmd) billed⟩
      | false =>
        simp only [Bool.false_eq_true, if_false, Tx.pure_eq_ok] at rest
        obtain ⟨impossible, _⟩ := rest
        cases impossible

/-- A call that reports an error leaves every table as it was. -/
theorem apply_error {cmd : Option UsageBillingCommand} {db : Db} {e : BillingError}
    (failed : (apply rt cal now faults cmd db).1 = .error e) :
    (apply rt cal now faults cmd db).2 = db := by
  cases cmd with
  | none => rfl
  | some cmd =>
    rcases apply_cases rt cal now faults cmd db with
      ⟨e', out⟩ | ⟨out, _⟩ | ⟨result, db', out, _⟩
    · rw [out]
    · rw [out]
    · rw [out] at failed; cases failed

/-- A request that is claimed already: the call changes nothing, and unless one of its statements
fails it answers by the fingerprint. -/
theorem apply_claimed {cmd : UsageBillingCommand} {db : Db} {row : DedupRow}
    (identified : (cmd.normalize rt).requestID ≠ "")
    (claimed : claimOf db (cmd.normalize rt).dedupKey = some row) :
    (apply rt cal now faults (some cmd) db).2 = db ∧
    ((apply rt cal now faults (some cmd) db).1 =
        (if trimSpace row.requestFingerprint = trimSpace (cmd.normalize rt).requestFingerprint then
          .ok {}
        else .error .usageBillingRequestConflict) ∨
      ∃ k e, faults k = some e ∧
        (apply rt cal now faults (some cmd) db).1 = .error e) := by
  have unchanged : (apply rt cal now faults (some cmd) db).2 = db := by
    rcases apply_cases rt cal now faults cmd db with
      ⟨e, out⟩ | ⟨out, _⟩ | ⟨_, _, _, _, unclaimed, _⟩
    · rw [out]
    · rw [out]
    · rw [claimed] at unclaimed; cases unclaimed
  refine ⟨unchanged, ?_⟩
  have body : apply rt cal now faults (some cmd) db =
      transact (applyBody cal now (cmd.normalize rt)) faults db := by
    simp only [apply, identified, if_false]
  rw [body]
  unfold transact
  cases opened : faults 0 with
  | some e => exact Or.inr ⟨0, e, opened, rfl⟩
  | none =>
    cases ran : claimUsageBillingRequest (cmd.normalize rt).dedupKey
        (cmd.normalize rt).requestFingerprint now faults (1, db) with
    | error e =>
      have failed : applyBody cal now (cmd.normalize rt) faults (1, db) = .error e := by
        rw [applyBody, Tx.bind_run, ran]
      simp only [failed]
      rcases claim_refused ran with ⟨k, planned⟩ | ⟨rfl, other, found, differs⟩
      · exact Or.inr ⟨k, e, planned, rfl⟩
      · rw [claimed] at found
        cases found
        exact Or.inl (by rw [if_neg differs])
    | ok out =>
      obtain ⟨fresh, k, db₁⟩ := out
      cases fresh with
      | true =>
        rw [(claim_fresh ran).1] at claimed
        cases claimed
      | false =>
        obtain ⟨other, found, same⟩ := claim_taken ran
        rw [claimed] at found
        cases found
        have rolled : applyBody cal now (cmd.normalize rt) faults (1, db) =
            .ok (.rollback {}, (k, db₁)) := by
          rw [applyBody, Tx.bind_run, ran]
          rfl
        simp only [rolled]
        exact Or.inl (by rw [if_pos same])

end OneCall

/-! ### Runs -/

/-- The sum of one component of the charges of the committed commands. -/
def totalCharge {M : Type} [AddMonoid M] (db : Db) (committed : List UsageBillingCommand)
    (component : Charge → M) : M :=
  (committed.map fun cmd => component (chargeOf (apiKeyLive db) cmd)).sum

theorem totalCharge_append {M : Type} [AddMonoid M] (db : Db)
    (committed : List UsageBillingCommand) (cmd : UsageBillingCommand) (component : Charge → M) :
    totalCharge db (committed ++ [cmd]) component =
      totalCharge db committed component + component (chargeOf (apiKeyLive db) cmd) := by
  simp [totalCharge]

/-- Every column is its value in `db₀` with the committed charges on it. -/
structure Ledger (db₀ : Db) (r : BillingRun) : Prop where
  balance : ∀ u, balanceOf r.db u =
    balanceOf db₀ u - totalCharge db₀ r.committed (·.balance u)
  daily : ∀ i, dailyUsageOf r.db i =
    dailyUsageOf db₀ i + totalCharge db₀ r.committed (·.subscription i)
  weekly : ∀ i, weeklyUsageOf r.db i =
    weeklyUsageOf db₀ i + totalCharge db₀ r.committed (·.subscription i)
  monthly : ∀ i, monthlyUsageOf r.db i =
    monthlyUsageOf db₀ i + totalCharge db₀ r.committed (·.subscription i)
  apiKeyQuota : ∀ k, apiKeyQuotaUsedOf r.db k =
    apiKeyQuotaUsedOf db₀ k + totalCharge db₀ r.committed (·.apiKeyQuota k)
  accountQuota : ∀ a, accountQuotaUsedOf r.db a =
    accountQuotaUsedOf db₀ a + totalCharge db₀ r.committed (·.accountQuota a)

/-- The invariant of runs from `db₀`. -/
structure Reached (db₀ : Db) (r : BillingRun) : Prop where
  ledger : Ledger db₀ r
  keyLive : apiKeyLive r.db = apiKeyLive db₀
  disjoint : DedupDisjoint r.db
  distinct : (r.committed.map (·.dedupKey)).Nodup
  claimed : ∀ cmd ∈ r.committed, cmd.requestID ≠ "" ∧ ∃ row, claimOf r.db cmd.dedupKey = some row ∧
    row.requestFingerprint = cmd.requestFingerprint
  known : ∀ key row, claimOf r.db key = some row → ∃ cmd ∈ r.committed, cmd.dedupKey = key

section Runs

variable {rt : Runtime} {cal : Calendar} {db₀ : Db}

theorem reached_start (live : ∀ key, db₀.usageBillingDedup key = none)
    (archive : ∀ key, db₀.usageBillingDedupArchive key = none) : Reached db₀ { db := db₀ } := by
  refine
    { ledger := ⟨?_, ?_, ?_, ?_, ?_, ?_⟩
      keyLive := rfl
      disjoint := fun key => Or.inl (live key)
      distinct := List.nodup_nil
      claimed := fun cmd member => by cases member
      known := fun key row found => ?_ }
  all_goals try (intro id; simp [totalCharge])
  simp [claimOf, live key, archive key] at found

/-- A charged command extends the ledger by its charge. -/
theorem Ledger.charged {r : BillingRun} {cmd : UsageBillingCommand} {db db' : Db}
    (ledger : Ledger db₀ r) (keyLive : apiKeyLive r.db = apiKeyLive db₀)
    (same : db = { r.db with usageBillingDedup := db.usageBillingDedup })
    (charged : Charged cmd db db') :
    Ledger db₀ { db := db', committed := r.committed ++ [cmd] } := by
  have live : apiKeyLive db = apiKeyLive db₀ := by rw [same]; exact keyLive
  have users : balanceOf db = balanceOf r.db := by rw [same]; rfl
  have days : dailyUsageOf db = dailyUsageOf r.db := by rw [same]; rfl
  have weeks : weeklyUsageOf db = weeklyUsageOf r.db := by rw [same]; rfl
  have months : monthlyUsageOf db = monthlyUsageOf r.db := by rw [same]; rfl
  have keys : apiKeyQuotaUsedOf db = apiKeyQuotaUsedOf r.db := by rw [same]; rfl
  have accounts : accountQuotaUsedOf db = accountQuotaUsedOf r.db := by rw [same]; rfl
  refine ⟨?_, ?_, ?_, ?_, ?_, ?_⟩
  · intro u
    rw [charged.balance, users, ledger.balance, live, totalCharge_append]
    ring
  · intro i
    rw [charged.daily, days, ledger.daily, live, totalCharge_append, add_assoc]
  · intro i
    rw [charged.weekly, weeks, ledger.weekly, live, totalCharge_append, add_assoc]
  · intro i
    rw [charged.monthly, months, ledger.monthly, live, totalCharge_append, add_assoc]
  · intro k
    rw [charged.apiKeyQuota, keys, ledger.apiKeyQuota, live, totalCharge_append, add_assoc]
  · intro a
    rw [charged.accountQuota, accounts, ledger.accountQuota, live, totalCharge_append, add_assoc]

theorem claimOf_congr {db db' : Db} (live : db'.usageBillingDedup = db.usageBillingDedup)
    (archive : db'.usageBillingDedupArchive = db.usageBillingDedupArchive) :
    claimOf db' = claimOf db := by
  funext key
  simp only [claimOf, live, archive]

/-- A fresh command claims its pair and charges itself. -/
theorem Reached.commit {r : BillingRun} {cmd : UsageBillingCommand} {now : Time} {db' : Db}
    (reached : Reached db₀ r) (identified : cmd.requestID ≠ "")
    (unclaimed : claimOf r.db cmd.dedupKey = none)
    (charged : Charged cmd (withClaim cmd.dedupKey cmd.requestFingerprint now r.db) db') :
    Reached db₀ { db := db', committed := r.committed ++ [cmd] } := by
  have claims : claimOf db' =
      claimOf (withClaim cmd.dedupKey cmd.requestFingerprint now r.db) :=
    claimOf_congr charged.live charged.archive
  have fresh : ∀ other ∈ r.committed, other.dedupKey ≠ cmd.dedupKey := by
    intro other member same
    obtain ⟨_, row, found, _⟩ := reached.claimed other member
    rw [same, unclaimed] at found
    cases found
  refine
    { ledger := reached.ledger.charged reached.keyLive rfl charged
      keyLive := charged.keyLive.trans reached.keyLive
      disjoint := fun key => ?_
      distinct := ?_
      claimed := ?_
      known := ?_ }
  · show db'.usageBillingDedup key = none ∨ db'.usageBillingDedupArchive key = none
    rw [charged.live, charged.archive]
    exact withClaim_disjoint reached.disjoint unclaimed key
  · simp only [List.map_append, List.map_cons, List.map_nil]
    refine List.Nodup.append reached.distinct (List.nodup_singleton _) ?_
    simpa [List.disjoint_singleton] using fresh
  · intro other member
    rcases List.mem_append.mp member with old | new
    · obtain ⟨named, row, found, same⟩ := reached.claimed other old
      refine ⟨named, row, ?_, same⟩
      rw [claims, claimOf_withClaim, if_neg (fresh other old), found]
    · rw [List.mem_singleton] at new
      subst new
      exact ⟨identified, _, by rw [claims, claimOf_withClaim, if_pos rfl], rfl⟩
  · intro key row found
    rw [claims, claimOf_withClaim] at found
    split at found
    · rename_i same
      exact ⟨cmd, by simp, same.symm⟩
    · obtain ⟨other, member, same⟩ := reached.known key row found
      exact ⟨other, List.mem_append_left _ member, same⟩

/-- One event keeps the invariant. -/
theorem Reached.step {r : BillingRun} (reached : Reached db₀ r) (event : BillingEvent) :
    Reached db₀ (r.step rt cal event) := by
  cases event with
  | archive victims cutoff =>
    have claims := claimOf_moveToArchive victims cutoff r.db reached.disjoint
    exact
      { ledger := ⟨reached.ledger.balance, reached.ledger.daily, reached.ledger.weekly,
          reached.ledger.monthly, reached.ledger.apiKeyQuota, reached.ledger.accountQuota⟩
        keyLive := reached.keyLive
        disjoint := moveToArchive_disjoint victims cutoff r.db reached.disjoint
        distinct := reached.distinct
        claimed := fun cmd member => by
          simpa only [BillingRun.step, claims] using reached.claimed cmd member
        known := fun key row found => reached.known key row ((claims key).symm.trans found) }
  | apply cmd now faults =>
    cases cmd with
    | none => exact reached
    | some cmd =>
      rcases apply_cases rt cal now faults cmd r.db with
        ⟨e, out⟩ | ⟨out, _⟩ | ⟨result, db', out, applied, unclaimed, charged⟩
      · simpa only [BillingRun.step, out] using reached
      · simp only [BillingRun.step, out, Bool.false_eq_true, if_false]
        exact reached
      · have identified : (cmd.normalize rt).requestID ≠ "" := by
          intro blank
          simp only [apply, blank, if_true, Prod.mk.injEq] at out
          cases out.1
        simp only [BillingRun.step, out, applied, if_true]
        exact reached.commit identified unclaimed charged

theorem reached_run (rt : Runtime) (cal : Calendar) (live : ∀ key, db₀.usageBillingDedup key = none)
    (archive : ∀ key, db₀.usageBillingDedupArchive key = none) (events : List BillingEvent) :
    Reached db₀ (BillingRun.run rt cal events db₀) := by
  have steps : ∀ (events : List BillingEvent) (r : BillingRun), Reached db₀ r →
      Reached db₀ (events.foldl (BillingRun.step rt cal) r) := by
    intro events
    induction events with
    | nil => exact fun r reached => reached
    | cons event rest ih => exact fun r reached => ih _ (reached.step event)
  exact steps events _ (reached_start live archive)

end Runs

/-- **Exactly-once usage billing.** After any run over empty dedup tables the committed pairs are
distinct and every column is the initial one with the committed charges on it; any further call
that fails changes nothing, and a further call on a committed pair changes nothing and is
answered by its fingerprint unless a statement of it fails. -/
theorem usage_billed_exactly_once (rt : Runtime) (cal : Calendar) (db₀ : Db)
    (live : ∀ key, db₀.usageBillingDedup key = none)
    (archive : ∀ key, db₀.usageBillingDedupArchive key = none) (events : List BillingEvent) :
    ((BillingRun.run rt cal events db₀).committed.map (·.dedupKey)).Nodup ∧
    Ledger db₀ (BillingRun.run rt cal events db₀) ∧
    ∀ (cmd : UsageBillingCommand) (now : Time) (faults : Faults BillingError),
      (∀ e, (apply rt cal now faults (some cmd) (BillingRun.run rt cal events db₀).db).1 =
          .error e →
        (apply rt cal now faults (some cmd) (BillingRun.run rt cal events db₀).db).2 =
          (BillingRun.run rt cal events db₀).db) ∧
      ∀ first ∈ (BillingRun.run rt cal events db₀).committed,
        first.dedupKey = (cmd.normalize rt).dedupKey →
        (apply rt cal now faults (some cmd) (BillingRun.run rt cal events db₀).db).2 =
          (BillingRun.run rt cal events db₀).db ∧
        ((apply rt cal now faults (some cmd) (BillingRun.run rt cal events db₀).db).1 =
            (if trimSpace first.requestFingerprint =
                trimSpace (cmd.normalize rt).requestFingerprint then .ok { applied := false }
              else .error .usageBillingRequestConflict) ∨
          ∃ k e, faults k = some e ∧
            (apply rt cal now faults (some cmd) (BillingRun.run rt cal events db₀).db).1 =
              .error e) := by
  have reached := reached_run rt cal live archive events
  refine ⟨reached.distinct, reached.ledger, ?_⟩
  intro cmd now faults
  constructor
  · intro e failed
    exact apply_error rt cal now faults failed
  · intro first member same
    obtain ⟨named, row, found, printed⟩ := reached.claimed first member
    have sameID : first.requestID = (cmd.normalize rt).requestID := by
      simp only [UsageBillingCommand.dedupKey, Prod.mk.injEq] at same
      exact same.1
    have identified : (cmd.normalize rt).requestID ≠ "" :=
      fun blank => named (sameID.trans blank)
    rw [same] at found
    rw [← printed]
    exact apply_claimed rt cal now faults identified found

/-! ### A run on a deleted key and an account that is not billed by quota -/

namespace Sample

/-- A printed fingerprint needs no hashing, so any runtime gives the same run. -/
def rt : Runtime := { sha256Hex := id, formatFixed10 := fun _ => "" }

def db : Db :=
  { users := fun id => if id = 1 then some { balance := ⟨1000000000⟩ } else none
    apiKeys := fun id => if id = 2 then some { deleted := true } else none
    accounts := fun id => if id = 3 then some {} else none }

def cmd : UsageBillingCommand :=
  { requestID := "r", apiKeyID := 2, requestFingerprint := "f", userID := 1, accountID := 3,
    accountType := "oauth", balanceCost := .finite 1, apiKeyQuotaCost := .finite 1,
    accountQuotaCost := .finite 1 }

/-- The command, its row moved to the archive, and a retry. -/
def events : List BillingEvent :=
  [ .apply (some cmd) 0 noFaults, .archive [("r", 2)] 1, .apply (some cmd) 2 noFaults ]

end Sample

/-- A committed command need not move every column by its cost, and a fingerprint that differs by
blanks is no conflict. -/
theorem usage_billing_skips :
    (BillingRun.run Sample.rt .utc Sample.events Sample.db).committed = [Sample.cmd] ∧
    balanceOf (BillingRun.run Sample.rt .utc Sample.events Sample.db).db 1 = 9 ∧
    apiKeyQuotaUsedOf (BillingRun.run Sample.rt .utc Sample.events Sample.db).db 2 ≠
      apiKeyQuotaUsedOf Sample.db 2 + amountOf Sample.cmd.apiKeyQuotaCost ∧
    accountQuotaUsedOf (BillingRun.run Sample.rt .utc Sample.events Sample.db).db 3 ≠
      accountQuotaUsedOf Sample.db 3 + Sample.cmd.accountQuotaCost.positive.getD 0 ∧
    (apply Sample.rt .utc 3 noFaults (some { Sample.cmd with requestFingerprint := " f" })
      (BillingRun.run Sample.rt .utc Sample.events Sample.db).db).1 ≠
      .error .usageBillingRequestConflict := by
  decide +kernel

theorem usage_billed_exactly_once_sample :
    ((BillingRun.run Sample.rt .utc Sample.events Sample.db).committed.map (·.dedupKey)).Nodup ∧
    Ledger Sample.db (BillingRun.run Sample.rt .utc Sample.events Sample.db) :=
  have billed := usage_billed_exactly_once Sample.rt .utc Sample.db (fun _ => rfl) (fun _ => rfl)
    Sample.events
  ⟨billed.1, billed.2.1⟩

end Sub2api.Billing
