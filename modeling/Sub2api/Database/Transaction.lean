import Sub2api.Database.Table
import Mathlib.Data.List.Basic
import Mathlib.Tactic.Tauto

/-!
# Transactions whose statements may fail

A transaction body is a sequence of statements on the tables `σ`. The statements are numbered as
they are issued, and a fault plan says which of them fail and with what error; opening the
transaction and committing it are statements too. `transact` runs a body: its effects reach the
tables only when the body asks for a commit and the commit goes through.

* `transact_error` — a call that reports an error leaves the tables as they were;
* `transact_cases` — everything a call can do: fail, roll back with an answer, or commit;
* `bind_eq_ok`, `stmt_eq_ok` — inversion of a body that went through.
-/

namespace Database

variable {σ ε α β : Type}

/-- The error of the statement with a given number, when that one fails. -/
abbrev Faults (ε : Type) := ℕ → Option ε

/-- No statement fails. -/
def noFaults : Faults ε := fun _ => none

/-- A transaction body, which threads the number of the next statement and the tables. -/
abbrev Tx (σ ε α : Type) := ReaderT (Faults ε) (StateT (ℕ × σ) (Except ε)) α

namespace Tx

/-- One statement that the database may refuse: its answer and the tables after it. -/
def tryStmt (f : σ → Except ε (α × σ)) : Tx σ ε α := fun faults (n, s) =>
  match faults n with
  | some e => Except.error e
  | none =>
    match f s with
    | .error e => Except.error e
    | .ok (a, s') => Except.ok (a, (n + 1, s'))

/-- One statement that the database accepts. -/
def stmt (f : σ → α × σ) : Tx σ ε α := tryStmt fun s => Except.ok (f s)

/-- `UPDATE … WHERE key = k AND … RETURNING` on one of the tables: the new row, when one was
updated. -/
def updateRow {K V : Type} [DecidableEq K] (get : σ → Table K V) (set : Table K V → σ → σ) (k : K)
    (cond : σ → V → Bool) (f : V → Except ε V) : Tx σ ε (Option V) :=
  tryStmt fun s =>
    match (get s).tryUpdateWhere k (cond s) f with
    | .error e => Except.error e
    | .ok (row, table) => Except.ok (row, set table s)

/-- Leave the body with an error of the program itself. -/
def fail (e : ε) : Tx σ ε α := fun _ _ => Except.error e

variable {faults : Faults ε} {n m : ℕ} {s t : σ} {a : α}

/-- A sequence runs its second part from where the first one went through. -/
theorem bind_run {x : Tx σ ε β} {f : β → Tx σ ε α} :
    (x >>= f) faults (n, s) =
      match x faults (n, s) with
      | .error e => .error e
      | .ok (b, (k, u)) => f b faults (k, u) := by
  simp only [bind, ReaderT.bind, StateT.bind, Except.bind]
  cases x faults (n, s) with
  | error e => rfl
  | ok out => rfl

theorem stmt_run {f : σ → α × σ} :
    stmt f faults (n, s) =
      match faults n with
      | some e => .error e
      | none => .ok ((f s).1, (n + 1, (f s).2)) := rfl

@[simp] theorem pure_eq_ok {b : α} :
    (pure b : Tx σ ε α) faults (n, s) = .ok (a, (m, t)) ↔ b = a ∧ n = m ∧ s = t := by
  change (Except.ok (b, (n, s)) : Except ε (α × ℕ × σ)) = .ok (a, (m, t)) ↔ _
  simp

@[simp] theorem bind_eq_ok {x : Tx σ ε β} {f : β → Tx σ ε α} :
    (x >>= f) faults (n, s) = .ok (a, (m, t)) ↔
      ∃ b k u, x faults (n, s) = .ok (b, (k, u)) ∧ f b faults (k, u) = .ok (a, (m, t)) := by
  rw [bind_run]
  cases ran : x faults (n, s) with
  | error e => simp
  | ok out => obtain ⟨b, k, u⟩ := out; simp

@[simp] theorem tryStmt_eq_ok {f : σ → Except ε (α × σ)} :
    tryStmt f faults (n, s) = .ok (a, (m, t)) ↔
      faults n = none ∧ f s = .ok (a, t) ∧ m = n + 1 := by
  unfold tryStmt
  cases planned : faults n with
  | some e => simp [planned]
  | none =>
      cases ran : f s with
      | error e => simp [planned, ran]
      | ok out =>
          obtain ⟨b, u⟩ := out
          simp only [planned, ran, Except.ok.injEq, Prod.mk.injEq, true_and]
          tauto

@[simp] theorem stmt_eq_ok {f : σ → α × σ} :
    stmt f faults (n, s) = .ok (a, (m, t)) ↔ faults n = none ∧ f s = (a, t) ∧ m = n + 1 := by
  simp [stmt]

@[simp] theorem fail_eq_ok {e : ε} :
    (fail e : Tx σ ε α) faults (n, s) = .ok (a, (m, t)) ↔ False := by
  simp [fail]

variable {e : ε}

@[simp] theorem pure_eq_error {b : α} :
    (pure b : Tx σ ε α) faults (n, s) = .error e ↔ False := by
  change (Except.ok (b, (n, s)) : Except ε (α × ℕ × σ)) = .error e ↔ _
  simp

@[simp] theorem bind_eq_error {x : Tx σ ε β} {f : β → Tx σ ε α} :
    (x >>= f) faults (n, s) = .error e ↔
      x faults (n, s) = .error e ∨
        ∃ b k u, x faults (n, s) = .ok (b, (k, u)) ∧ f b faults (k, u) = .error e := by
  rw [bind_run]
  cases ran : x faults (n, s) with
  | error e' => simp
  | ok out => obtain ⟨b, k, u⟩ := out; simp

@[simp] theorem tryStmt_eq_error {f : σ → Except ε (α × σ)} :
    tryStmt f faults (n, s) = .error e ↔
      faults n = some e ∨ (faults n = none ∧ f s = .error e) := by
  unfold tryStmt
  cases planned : faults n with
  | some e' => simp [planned]
  | none =>
      cases ran : f s with
      | error e' => simp [planned, ran]
      | ok out => simp [planned, ran]

@[simp] theorem stmt_eq_error {f : σ → α × σ} :
    stmt f faults (n, s) = .error e ↔ faults n = some e := by
  simp [stmt]

@[simp] theorem fail_eq_error {e' : ε} :
    (fail e' : Tx σ ε α) faults (n, s) = .error e ↔ e' = e := by
  simp [fail]

section Updates

variable {K V : Type} [DecidableEq K] {get : σ → Table K V} {set : Table K V → σ → σ} {k : K}
  {cond : σ → V → Bool} {f : V → Except ε V}

theorem updateRow_some {new : V}
    (ran : updateRow get set k cond f faults (n, s) = .ok (some new, (m, t))) :
    ∃ row, get s k = some row ∧ cond s row = true ∧ f row = .ok new ∧
      t = set (Function.update (get s) k (some new)) s := by
  simp only [updateRow, tryStmt_eq_ok] at ran
  obtain ⟨_, answered, _⟩ := ran
  split at answered
  · cases answered
  · rename_i updated
    simp only [Except.ok.injEq, Prod.mk.injEq] at answered
    obtain ⟨rfl, rfl⟩ := answered
    obtain ⟨row, found, passed, made, rfl⟩ := Table.tryUpdateWhere_some updated
    exact ⟨row, found, passed, made, rfl⟩

theorem updateRow_none
    (ran : updateRow get set k cond f faults (n, s) = .ok (none, (m, t))) :
    t = set (get s) s ∧ ∀ row, get s k = some row → cond s row = false := by
  simp only [updateRow, tryStmt_eq_ok] at ran
  obtain ⟨_, answered, _⟩ := ran
  split at answered
  · cases answered
  · rename_i updated
    simp only [Except.ok.injEq, Prod.mk.injEq] at answered
    obtain ⟨rfl, rfl⟩ := answered
    obtain ⟨rfl, refused⟩ := Table.tryUpdateWhere_none updated
    exact ⟨rfl, refused⟩

/-- An update whose assignment is always accepted fails only as a statement. -/
theorem updateRow_error_of_ok {e : ε} (accepted : ∀ row, ∃ new, f row = .ok new)
    (ran : updateRow get set k cond f faults (n, s) = .error e) : faults n = some e := by
  simp only [updateRow, tryStmt_eq_error] at ran
  rcases ran with planned | ⟨_, refused⟩
  · exact planned
  · split at refused
    · rename_i e' updated
      unfold Table.tryUpdateWhere at updated
      split at updated
      · cases updated
      · split at updated
        · split at updated
          · rename_i made
            obtain ⟨new, ok⟩ := accepted _
            rw [ok] at made
            cases made
          · cases updated
        · cases updated
    · cases refused

end Updates

end Tx

/-- How a body that met no error ends. -/
inductive Ending (α : Type) where
  | commit (a : α)
  | rollback (a : α)

/-- Open a transaction, run its body and commit or roll back; with the tables afterwards. -/
def transact (body : Tx σ ε (Ending α)) (faults : Faults ε) (s : σ) : Except ε α × σ :=
  match faults 0 with
  | some e => (.error e, s)
  | none =>
    match body faults (1, s) with
    | .error e => (.error e, s)
    | .ok (.rollback a, _) => (.ok a, s)
    | .ok (.commit a, (n, s')) =>
      match faults n with
      | some e => (.error e, s)
      | none => (.ok a, s')

variable {body : Tx σ ε (Ending α)} {faults : Faults ε} {s : σ}

/-- A call either reports an error, of a statement or of the body, or rolls back with an answer,
or commits one. -/
theorem transact_cases (body : Tx σ ε (Ending α)) (faults : Faults ε) (s : σ) :
    (∃ e, transact body faults s = (.error e, s) ∧
      ((∃ k, faults k = some e) ∨ body faults (1, s) = .error e)) ∨
    (∃ a n s', body faults (1, s) = .ok (.rollback a, (n, s')) ∧
      transact body faults s = (.ok a, s)) ∨
    (∃ a n s', body faults (1, s) = .ok (.commit a, (n, s')) ∧
      transact body faults s = (.ok a, s')) := by
  unfold transact
  cases opened : faults 0 with
  | some e => exact Or.inl ⟨e, rfl, Or.inl ⟨0, opened⟩⟩
  | none =>
      cases ran : body faults (1, s) with
      | error e => exact Or.inl ⟨e, rfl, Or.inr rfl⟩
      | ok out =>
          obtain ⟨ending, n, s'⟩ := out
          cases ending with
          | rollback a => exact Or.inr (Or.inl ⟨a, n, s', rfl, rfl⟩)
          | commit a =>
              cases committed : faults n with
              | some e => exact Or.inl ⟨e, by simp [committed], Or.inl ⟨n, committed⟩⟩
              | none => exact Or.inr (Or.inr ⟨a, n, s', rfl, by simp [committed]⟩)

/-- A call that reports an error leaves the tables as they were. -/
theorem transact_error {e : ε} (failed : (transact body faults s).1 = .error e) :
    (transact body faults s).2 = s := by
  rcases transact_cases body faults s with ⟨e', out, _⟩ | ⟨a, n, s', _, out⟩ | ⟨a, n, s', _, out⟩
  · rw [out]
  · rw [out]
  · rw [out] at failed; cases failed

end Database
