import Mathlib.Data.Int.Log
import Mathlib.Algebra.Order.Floor.Ring
import Mathlib.Data.Rat.Floor
import Mathlib.Tactic.Positivity
import Mathlib.Tactic.Linarith
import Mathlib.Tactic.FieldSimp
import Mathlib.Tactic.Ring

/-!
# Numbers of so many significant digits

`nearest base digits` takes a rational to the nearest one that has so many digits in the base, of
two nearest ones to that whose last digit is even: doubles have 53 binary digits, and `%.14g` writes
14 decimal ones. The exponent has no bounds, and sums are of numbers that are not negative.

* `sub_half_le_roundHalfEven` — an integer loses half a unit at most;
* `le_nearest` — so a number keeps all but half a unit of its last place;
* `le_doubleSum` — and a sum of doubles, in its order, loses that with each of them.
-/

namespace Significant

def roundHalfEven (x : ℚ) : ℤ :=
  let below := x - ⌊x⌋
  if below < 1 / 2 ∨ below = 1 / 2 ∧ ⌊x⌋ % 2 = 0 then ⌊x⌋ else ⌊x⌋ + 1

/-- The unit of the last of the digits. -/
def lastPlace (base digits : ℕ) (x : ℚ) : ℚ := (base : ℚ) ^ (Int.log base |x| - digits + 1)

def nearest (base digits : ℕ) (x : ℚ) : ℚ :=
  roundHalfEven (x / lastPlace base digits x) * lastPlace base digits x

theorem sub_half_le_roundHalfEven (x : ℚ) : x - 1 / 2 ≤ roundHalfEven x := by
  have floor := Int.lt_floor_add_one x
  unfold roundHalfEven
  dsimp only
  split
  · rename_i low
    have low : x - ⌊x⌋ ≤ 1 / 2 := low.elim le_of_lt fun half => half.1.le
    linarith
  · push_cast
    linarith

theorem le_nearest {base : ℕ} (digits : ℕ) {x : ℚ} (wide : 1 < base) (nonneg : 0 ≤ x) :
    (1 - (base : ℚ) / base ^ digits / 2) * x ≤ nearest base digits x := by
  rcases nonneg.eq_or_lt with rfl | positive
  · simp [nearest, roundHalfEven]
  have unit : (0 : ℚ) < base := by exact_mod_cast (by omega : 0 < base)
  have place : 0 < lastPlace base digits x := zpow_pos unit _
  have small : lastPlace base digits x ≤ (base : ℚ) / base ^ digits * x := by
    have leading := Int.zpow_log_le_self wide positive
    unfold lastPlace
    rw [abs_of_pos positive, zpow_add₀ unit.ne', zpow_sub₀ unit.ne', zpow_natCast, zpow_one]
    calc (base : ℚ) ^ Int.log base x / base ^ digits * base
        = (base : ℚ) / base ^ digits * base ^ Int.log base x := by ring
      _ ≤ (base : ℚ) / base ^ digits * x := by gcongr
  have rounded := mul_le_mul_of_nonneg_right
    (sub_half_le_roundHalfEven (x / lastPlace base digits x)) place.le
  rw [sub_mul, div_mul_cancel₀ _ place.ne'] at rounded
  unfold nearest
  linarith

/-! ### Doubles -/

def double (x : ℚ) : ℚ := nearest 2 53 x

/-- The doubles added one after the other. -/
def doubleSum (vals : List ℚ) : ℚ := vals.foldl (fun sum val => double (sum + val)) 0

/-- What a double keeps of a number. -/
def unit : ℚ := 1 - 1 / 2 ^ 53

theorem unit_pos : 0 < unit := by norm_num [unit]

theorem unit_le_one : unit ≤ 1 := by norm_num [unit]

theorem le_double {x : ℚ} (nonneg : 0 ≤ x) : unit * x ≤ double x := by
  have close := le_nearest 53 (by decide : 1 < 2) nonneg
  norm_num at close
  norm_num [unit, double]
  exact close

theorem double_nonneg {x : ℚ} (nonneg : 0 ≤ x) : 0 ≤ double x :=
  (mul_nonneg unit_pos.le nonneg).trans (le_double nonneg)

/-- A sum that is not above a limit as a double is not far above it. -/
theorem le_of_double_le {x limit : ℚ} (positive : 0 < limit) (le : double x ≤ limit) :
    unit * x ≤ limit := by
  rcases le_total 0 x with nonneg | negative
  · exact (le_double nonneg).trans le
  · exact (mul_nonpos_of_nonneg_of_nonpos unit_pos.le negative).trans positive.le

theorem le_foldl_double {vals : List ℚ} (nonneg : ∀ val ∈ vals, 0 ≤ val) {sum : ℚ}
    (start : 0 ≤ sum) : unit ^ vals.length * (sum + vals.sum) ≤
      vals.foldl (fun sum val => double (sum + val)) sum := by
  induction vals generalizing sum with
  | nil => simp
  | cons val rest ih =>
      obtain ⟨first, later⟩ := List.forall_mem_cons.mp nonneg
      have step := le_double (add_nonneg start first)
      refine le_trans ?_ (ih later (double_nonneg (add_nonneg start first)))
      have less : unit * rest.sum ≤ rest.sum :=
        mul_le_of_le_one_left (List.sum_nonneg later) unit_le_one
      have power : 0 ≤ unit ^ rest.length := pow_nonneg unit_pos.le _
      rw [List.length_cons, List.sum_cons, pow_succ, mul_assoc]
      exact mul_le_mul_of_nonneg_left (by linarith) power

theorem le_doubleSum {vals : List ℚ} (nonneg : ∀ val ∈ vals, 0 ≤ val) :
    unit ^ vals.length * vals.sum ≤ doubleSum vals := by
  have summed := le_foldl_double nonneg le_rfl
  rwa [zero_add] at summed

theorem doubleSum_nonneg {vals : List ℚ} (nonneg : ∀ val ∈ vals, 0 ≤ val) : 0 ≤ doubleSum vals :=
  (mul_nonneg (pow_nonneg unit_pos.le _) (List.sum_nonneg nonneg)).trans (le_doubleSum nonneg)

end Significant
