import Mathlib.Logic.Function.Basic
import Mathlib.Data.Option.Basic
import Mathlib.Algebra.Group.Defs

/-!
# Tables keyed by a unique index

A table is a partial function from the key of a unique index to rows. The three statement forms
the developments use are `updateWhere` (an `UPDATE … WHERE key = k AND … RETURNING`),
`insertNew` (an `INSERT … ON CONFLICT DO NOTHING RETURNING`) and plain lookup.
-/

namespace Database

universe u v w

/-- Rows by the key of a unique index. -/
abbrev Table (K : Type u) (V : Type v) := K → Option V

namespace Table

variable {K : Type u} {V : Type v} [DecidableEq K]

/-- `UPDATE … SET f WHERE key = k AND cond RETURNING`: the new row, when one was updated. -/
def updateWhere (t : Table K V) (k : K) (cond : V → Bool) (f : V → V) : Option V × Table K V :=
  match t k with
  | none => (none, t)
  | some row => if cond row then (some (f row), Function.update t k (some (f row))) else (none, t)

/-- The same, for an assignment that the columns' types may refuse. -/
def tryUpdateWhere {ε : Type*} (t : Table K V) (k : K) (cond : V → Bool) (f : V → Except ε V) :
    Except ε (Option V × Table K V) :=
  match t k with
  | none => .ok (none, t)
  | some row =>
    if cond row then
      match f row with
      | .error e => .error e
      | .ok new => .ok (some new, Function.update t k (some new))
    else .ok (none, t)

/-- `INSERT … ON CONFLICT DO NOTHING RETURNING`: whether a row was inserted. -/
def insertNew (t : Table K V) (k : K) (row : V) : Bool × Table K V :=
  match t k with
  | some _ => (false, t)
  | none => (true, Function.update t k (some row))

variable {t t' : Table K V} {k j : K} {cond : V → Bool} {f : V → V}

theorem tryUpdateWhere_none {ε : Type*} {f : V → Except ε V}
    (missed : t.tryUpdateWhere k cond f = .ok (none, t')) :
    t' = t ∧ ∀ row, t k = some row → cond row = false := by
  unfold tryUpdateWhere at missed
  cases found : t k with
  | none =>
      simp only [found, Except.ok.injEq, Prod.mk.injEq, true_and] at missed
      exact ⟨missed.symm, by simp⟩
  | some row =>
      simp only [found] at missed
      split at missed
      · split at missed <;> simp at missed
      · rename_i refused
        simp only [Except.ok.injEq, Prod.mk.injEq, true_and] at missed
        exact ⟨missed.symm, by simpa using refused⟩

theorem tryUpdateWhere_some {ε : Type*} {f : V → Except ε V} {new : V}
    (hit : t.tryUpdateWhere k cond f = .ok (some new, t')) :
    ∃ row, t k = some row ∧ cond row = true ∧ f row = .ok new ∧
      t' = Function.update t k (some new) := by
  unfold tryUpdateWhere at hit
  cases found : t k with
  | none => simp [found] at hit
  | some row =>
      simp only [found] at hit
      split at hit
      · rename_i passed
        split at hit
        · cases hit
        · rename_i made
          simp only [Except.ok.injEq, Prod.mk.injEq, Option.some.injEq] at hit
          obtain ⟨rfl, rfl⟩ := hit
          exact ⟨row, rfl, passed, made, rfl⟩
      · simp at hit

/-- A number kept in the rows, zero where there is no row. -/
def read {M : Type w} [Zero M] (t : Table K V) (view : V → M) (k : K) : M :=
  match t k with
  | some row => view row
  | none => 0

/-- Adding to the number of one row adds to that row's reading alone. -/
theorem read_update_add {M : Type w} [AddMonoid M] {view : V → M} {row new : V} {d : M}
    (found : t k = some row) (moved : view new = view row + d) (j : K) :
    read (Function.update t k (some new)) view j = read t view j + if j = k then d else 0 := by
  by_cases same : j = k
  · subst same
    simp [read, found, moved]
  · simp [read, same]

theorem read_update_keep {M : Type w} [AddMonoid M] {view : V → M} {row new : V}
    (found : t k = some row) (kept : view new = view row) (j : K) :
    read (Function.update t k (some new)) view j = read t view j := by
  have moved : view new = view row + 0 := by rw [kept, add_zero]
  rw [read_update_add found moved, ite_self, add_zero]

end Table

end Database
