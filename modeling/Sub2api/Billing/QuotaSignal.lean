import Sub2api.Billing.Apply

/-!
# The signal that an API key's quota is used up

Increments come one after the other, each as `Apply` issues it: a positive amount quantized to the
column's eight decimal places. `Crosses` is the increment that first reaches the quota.
-/

namespace Sub2api.Billing

open Database Go

/-- What an increment answers, and the key's row after it. -/
structure QuotaAnswer where
  exhausted : Option Bool
  row : Option APIKey

/-- Increments of one key, one after the other. -/
def incrementAll (faults : Faults BillingError) (apiKeyID : ℤ) :
    List ℚ → ℕ × Db → Except BillingError (List QuotaAnswer)
  | [], _ => .ok []
  | amount :: rest, s =>
    match incrementUsageBillingAPIKeyQuota apiKeyID (amount : WithTop ℚ) faults s with
    | .error e => .error e
    | .ok (exhausted, s) =>
      match incrementAll faults apiKeyID rest s with
      | .error e => .error e
      | .ok answers => .ok ({ exhausted := exhausted, row := s.2.apiKeys apiKeyID } :: answers)

/-- An amount that `Apply` increments a quota by: a normalized command's positive cost. -/
def IsQuotaCost (amount : ℚ) : Prop :=
  ∃ (rt : Runtime) (cmd : UsageBillingCommand),
    (cmd.normalize rt).apiKeyQuotaCost.positive = some (amount : WithTop ℚ)

variable {amount : ℚ}

theorem IsQuotaCost.onGrid (cost : IsQuotaCost amount) : OnGrid 8 amount := by
  obtain ⟨rt, cmd, positive⟩ := cost
  exact onGrid_of_quantize_positive positive

theorem pos_of_positive {v : Float64} (positive : v.positive = some (amount : WithTop ℚ)) :
    0 < amount := by
  cases v with
  | finite v =>
    change (if 0 < v then some (v : WithTop ℚ) else none) = _ at positive
    split at positive
    · rename_i pos
      rw [Option.some.injEq, WithTop.coe_inj] at positive
      rwa [← positive]
    · cases positive
  | posInf => cases positive
  | negInf => cases positive
  | nan => cases positive

theorem IsQuotaCost.pos (cost : IsQuotaCost amount) : 0 < amount := by
  obtain ⟨rt, cmd, positive⟩ := cost
  exact pos_of_positive positive

/-- These are the positive amounts on the grid of the column. -/
theorem isQuotaCost_iff : IsQuotaCost amount ↔ 0 < amount ∧ OnGrid 8 amount := by
  constructor
  · intro cost
    exact ⟨cost.pos, cost.onGrid⟩
  · rintro ⟨pos, onGrid⟩
    refine ⟨{ sha256Hex := fun text => text, formatFixed10 := fun _ => "" },
      { apiKeyQuotaCost := .finite amount }, ?_⟩
    have same : quantizeUsageBillingAmount (.finite amount) = .finite amount := by
      simp only [quantizeUsageBillingAmount, pos.ne', if_false, usageBillingMonetaryScale]
      rw [roundScale_of_onGrid onGrid]
    change (quantizeUsageBillingAmount (.finite amount)).positive = _
    rw [same]
    exact if_pos pos

/-- The increment at place `i` is the one with which the quota is reached. -/
def Crosses (key : APIKey) (amounts : List ℚ) (i : ℕ) : Prop :=
  key.quotaUsed.value + (amounts.take i).sum < key.quota.value ∧
    key.quota.value ≤ key.quotaUsed.value + (amounts.take (i + 1)).sum

/-- The key's status once so much is used. -/
def statusAt (key : APIKey) (used : ℚ) : APIKeyStatus :=
  if used < key.quota.value then .active else .quotaExhausted

section Increments

variable {faults : Faults BillingError} {n m : ℕ} {db db' : Db} {id : ℤ} {key : APIKey}

/-- The signal and the change of status, of one increment. -/
theorem incrementUsageBillingAPIKeyQuota_signal {amount : ℚ} {exhausted : Option Bool}
    (found : db.apiKeys id = some key) (live : key.deleted = false)
    (limited : 0 < key.quota.value) (standing : key.status = statusAt key key.quotaUsed.value)
    (onGrid : OnGrid 8 amount) (pos : 0 < amount)
    (ran : incrementUsageBillingAPIKeyQuota id (amount : WithTop ℚ) faults (n, db) =
      .ok (exhausted, (m, db'))) :
    exhausted = some (decide (key.quotaUsed.value < key.quota.value ∧
        key.quota.value ≤ key.quotaUsed.value + amount)) ∧
      db'.apiKeys id = some { key with
        quotaUsed := .store 8 (key.quotaUsed.value + amount)
        status := statusAt key (key.quotaUsed.value + amount) } := by
  have stored : (Numeric.store 8 (key.quotaUsed.value + amount)).value =
      key.quotaUsed.value + amount := Numeric.value_store_add _ onGrid
  simp only [incrementUsageBillingAPIKeyQuota, Tx.bind_eq_ok, Tx.pure_eq_ok] at ran
  obtain ⟨row, k, db₁, updated, answered, _, rfl⟩ := ran
  cases row with
  | none =>
    obtain ⟨-, refused⟩ := Tx.updateRow_none updated
    have gone := refused key found
    rw [live] at gone
    cases gone
  | some new =>
    obtain ⟨key', found', -, made, rfl⟩ := Tx.updateRow_some updated
    rw [found] at found'
    cases found'
    obtain ⟨q, same, made⟩ := numericParam_bind_ok made
    rw [WithTop.coe_inj] at same
    subst same
    cases made
    constructor
    · rw [← answered, Option.map_some]
      have before : ((key.quotaUsed.value + amount : ℚ) : WithTop ℚ) <
          (key.quota.value : WithTop ℚ) + (amount : WithTop ℚ) ↔
            key.quotaUsed.value < key.quota.value := by
        rw [← WithTop.coe_add, WithTop.coe_lt_coe, add_lt_add_iff_right]
      simp only [stored, limited, before, decide_true, Bool.true_and, Bool.decide_and]
      rw [Bool.and_comm]
    · dsimp only
      rw [Function.update_self, standing]
      congr 2
      unfold statusAt
      by_cases below : key.quotaUsed.value < key.quota.value
      · by_cases reached : key.quota.value ≤ key.quotaUsed.value + amount
        · simp [limited, below, reached]
        · simp [limited, below, reached, lt_of_not_ge reached]
      · have spent : ¬key.quotaUsed.value + amount < key.quota.value := by linarith
        simp [limited, below, spent]

end Increments

/-- Only one increment crosses: the sums grow. -/
theorem Crosses.unique {key : APIKey} {amounts : List ℚ} {i j : ℕ}
    (positive : ∀ amount ∈ amounts, 0 < amount) (first : Crosses key amounts i)
    (second : Crosses key amounts j) : i = j := by
  have grows {a b : ℕ} (le : a ≤ b) : (amounts.take a).sum ≤ (amounts.take b).sum := by
    rw [← List.take_append_drop a (amounts.take b), List.take_take, min_eq_left le, List.sum_append]
    have more : 0 ≤ ((amounts.take b).drop a).sum := by
      apply List.sum_nonneg
      intro amount here
      exact (positive amount (List.mem_of_mem_take (List.mem_of_mem_drop here))).le
    linarith
  rcases lt_trichotomy i j with lt | rfl | gt
  · have below := second.1
    have reached := first.2
    have le := grows lt
    linarith
  · rfl
  · have below := first.1
    have reached := second.2
    have le := grows gt
    linarith

theorem crosses_zero {key : APIKey} {rest : List ℚ} :
    Crosses key (amount :: rest) 0 ↔ key.quotaUsed.value < key.quota.value ∧
      key.quota.value ≤ key.quotaUsed.value + amount := by
  simp [Crosses]

theorem crosses_succ {key key' : APIKey} {rest : List ℚ} {i : ℕ} (quota : key'.quota = key.quota)
    (used : key'.quotaUsed.value = key.quotaUsed.value + amount) :
    Crosses key (amount :: rest) (i + 1) ↔ Crosses key' rest i := by
  unfold Crosses
  rw [quota, used, List.take_succ_cons, List.take_succ_cons, List.sum_cons, List.sum_cons,
    add_assoc, add_assoc]

/-- What the answers say, from any point of a sequence on. -/
theorem incrementAll_answers {faults : Faults BillingError} {n : ℕ} {db : Db} {id : ℤ}
    {key : APIKey} {amounts : List ℚ} {answers : List QuotaAnswer}
    (found : db.apiKeys id = some key) (live : key.deleted = false)
    (standing : key.status = statusAt key key.quotaUsed.value) (limited : 0 < key.quota.value)
    (costs : ∀ amount ∈ amounts, IsQuotaCost amount)
    (ran : incrementAll faults id amounts (n, db) = .ok answers) :
    answers.length = amounts.length ∧
      ∀ i answer, answers[i]? = some answer →
        (answer.exhausted = some true ↔ Crosses key amounts i) ∧
        ∃ row, answer.row = some row ∧
          row.quotaUsed.value = key.quotaUsed.value + (amounts.take (i + 1)).sum ∧
          row.status = statusAt key (key.quotaUsed.value + (amounts.take (i + 1)).sum) := by
  induction amounts generalizing n db key answers with
  | nil =>
    cases ran
    exact ⟨rfl, by simp⟩
  | cons amount rest ih =>
    have cost := costs amount (List.mem_cons_self ..)
    unfold incrementAll at ran
    split at ran
    · cases ran
    · rename_i exhausted s stepped
      obtain ⟨m, db'⟩ := s
      obtain ⟨signal, row⟩ := incrementUsageBillingAPIKeyQuota_signal found live limited standing
        cost.onGrid cost.pos stepped
      obtain ⟨key', row, quota, used, live', status⟩ : ∃ key', db'.apiKeys id = some key' ∧
          key'.quota = key.quota ∧ key'.quotaUsed.value = key.quotaUsed.value + amount ∧
          key'.deleted = false ∧ key'.status = statusAt key (key.quotaUsed.value + amount) :=
        ⟨_, row, rfl, Numeric.value_store_add _ cost.onGrid, live, rfl⟩
      have same (sum : ℚ) : statusAt key' sum = statusAt key sum := by
        unfold statusAt
        rw [quota]
      split at ran
      · cases ran
      · rename_i later laterRan
        cases ran
        obtain ⟨length, each⟩ := ih row live' (by rw [same, used, status]) (by rwa [quota])
          (fun amount here => costs amount (List.mem_cons_of_mem _ here)) laterRan
        refine ⟨by simp [length], ?_⟩
        rintro (_ | i) answer here
        · cases here
          refine ⟨?_, key', row, ?_, ?_⟩
          · rw [crosses_zero, signal]
            simp
          · simp [used]
          · simp [status]
        · obtain ⟨crossing, row', found', sum, after⟩ := each i answer (by simpa using here)
          refine ⟨crossing.trans (crosses_succ quota used).symm, row', found', ?_, ?_⟩
          · rw [sum, used, List.take_succ_cons, List.sum_cons, add_assoc]
          · rw [after, same, used, List.take_succ_cons, List.sum_cons, add_assoc]

/-- A key that starts active below its quota is signalled as exhausted by the one increment that
reaches the quota, which alone changes its status. -/
theorem exhaustion_signalled_once {faults : Faults BillingError} {n : ℕ} {db : Db} {id : ℤ}
    {key : APIKey} {amounts : List ℚ} {answers : List QuotaAnswer}
    (found : db.apiKeys id = some key) (live : key.deleted = false)
    (active : key.status = .active) (limited : 0 < key.quota.value)
    (below : key.quotaUsed.value < key.quota.value) (costs : ∀ amount ∈ amounts, IsQuotaCost amount)
    (ran : incrementAll faults id amounts (n, db) = .ok answers) :
    answers.length = amounts.length ∧
      (∀ i answer, answers[i]? = some answer →
        (answer.exhausted = some true ↔ Crosses key amounts i) ∧
        ∃ row, answer.row = some row ∧
          row.quotaUsed.value = key.quotaUsed.value + (amounts.take (i + 1)).sum ∧
          row.status = statusAt key (key.quotaUsed.value + (amounts.take (i + 1)).sum)) ∧
      ∀ i j, Crosses key amounts i → Crosses key amounts j → i = j := by
  have standing : key.status = statusAt key key.quotaUsed.value := by
    rw [active, statusAt, if_pos below]
  obtain ⟨length, each⟩ := incrementAll_answers found live standing limited costs ran
  refine ⟨length, each, ?_⟩
  intro i j first second
  exact first.unique (fun amount here => (costs amount here).pos) second

/-- A key with a quota of one. -/
def oneDollarKey : Db :=
  { apiKeys := fun id => if id = 1 then some { quota := ⟨100000000⟩ } else none }

theorem oneDollarKey_signalled : ∃ answers,
    incrementAll noFaults 1 [2 / 5, 3 / 5, 1 / 2] (0, oneDollarKey) = .ok answers ∧
      answers.map QuotaAnswer.exhausted = [some false, some true, some false] ∧
      answers.length = 3 ∧ ∀ i j, Crosses { quota := ⟨100000000⟩ } [2 / 5, 3 / 5, 1 / 2] i →
        Crosses { quota := ⟨100000000⟩ } [2 / 5, 3 / 5, 1 / 2] j → i = j := by
  have costs : ∀ amount ∈ ([2 / 5, 3 / 5, 1 / 2] : List ℚ), IsQuotaCost amount := by
    simp only [isQuotaCost_iff]
    decide +kernel
  have once {answers : List QuotaAnswer} (ran : incrementAll noFaults 1 [2 / 5, 3 / 5, 1 / 2]
      (0, oneDollarKey) = .ok answers) :=
    exhaustion_signalled_once (show oneDollarKey.apiKeys 1 = some { quota := ⟨100000000⟩ } from rfl)
      rfl rfl (by decide +kernel) (by decide +kernel) costs ran
  exact ⟨_, rfl, by decide +kernel, (once rfl).1, (once rfl).2.2⟩

end Sub2api.Billing
