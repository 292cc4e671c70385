import Mathlib.Data.Rat.Floor
import Mathlib.Tactic.Ring
import Mathlib.Tactic.FieldSimp
import Mathlib.Tactic.Positivity

/-!
# Fixed-point columns

A `NUMERIC(p, s)` column holds integer multiples of `10 ^ -s`. `Numeric s` is that type: its
values are counted in units, so a value off the grid cannot be built, and writing an exact
rational to the column is `Numeric.store`, which rounds half away from zero.

* `value_store_of_onGrid` — a rational on the grid is stored as it is;
* `value_store_add`, `value_store_sub` — hence a column updated by an amount on its grid moves by
  exactly that amount;
* `onGrid_roundScale` — rounding to a scale lands on the grid of that scale;
* `roundScale_mono`, `abs_roundScale_sub_le` — rounding keeps the order, and moves a rational by
  half a unit at most.
-/

namespace Database

/-- Nearest integer, halves away from zero. -/
def roundHalfAway (q : ℚ) : ℤ := if 0 ≤ q then ⌊q + 1 / 2⌋ else -⌊-q + 1 / 2⌋

@[simp] theorem roundHalfAway_intCast (n : ℤ) : roundHalfAway (n : ℚ) = n := by
  have half (m : ℤ) : ⌊(m : ℚ) + 1 / 2⌋ = m := by
    rw [Int.floor_eq_iff]
    constructor <;> norm_num
  unfold roundHalfAway
  split
  · exact half n
  · rw [← Int.cast_neg, half, neg_neg]

theorem roundHalfAway_mono {p q : ℚ} (le : p ≤ q) : roundHalfAway p ≤ roundHalfAway q := by
  unfold roundHalfAway
  split_ifs with low high high
  · exact Int.floor_le_floor (by linarith)
  · linarith
  · have below : (0 : ℤ) ≤ ⌊-p + 1 / 2⌋ := Int.floor_nonneg.mpr (by linarith)
    have above : (0 : ℤ) ≤ ⌊q + 1 / 2⌋ := Int.floor_nonneg.mpr (by linarith)
    omega
  · have floors : ⌊-q + 1 / 2⌋ ≤ ⌊-p + 1 / 2⌋ := Int.floor_le_floor (by linarith)
    omega

/-- Rounding moves a number by half a unit at most. -/
theorem abs_roundHalfAway_sub_le (q : ℚ) : |(roundHalfAway q : ℚ) - q| ≤ 1 / 2 := by
  unfold roundHalfAway
  split_ifs
  · have low := Int.floor_le (q + 1 / 2)
    have high := Int.lt_floor_add_one (q + 1 / 2)
    rw [abs_le]
    constructor <;> linarith
  · have low := Int.floor_le (-q + 1 / 2)
    have high := Int.lt_floor_add_one (-q + 1 / 2)
    push_cast
    rw [abs_le]
    constructor <;> linarith

/-- A column of `scale` decimal places, in units of its last place. -/
structure Numeric (scale : ℕ) where
  units : ℤ

/-- The rationals with at most `scale` decimal places. -/
def OnGrid (scale : ℕ) (q : ℚ) : Prop := ∃ n : ℤ, q = n / 10 ^ scale

/-- Rounding to `scale` decimal places, halves away from zero. -/
def roundScale (scale : ℕ) (q : ℚ) : ℚ := roundHalfAway (q * 10 ^ scale) / 10 ^ scale

section Grid

variable {scale : ℕ} {p q : ℚ}

theorem onGrid_iff_den : OnGrid scale q ↔ (q * 10 ^ scale).den = 1 := by
  have unit : (10 : ℚ) ^ scale ≠ 0 := by positivity
  rw [Rat.den_eq_one_iff]
  constructor
  · rintro ⟨n, rfl⟩
    rw [div_mul_cancel₀ _ unit, Rat.num_intCast]
  · intro whole
    exact ⟨(q * 10 ^ scale).num, by rw [whole, mul_div_cancel_right₀ _ unit]⟩

instance : Decidable (OnGrid scale q) := decidable_of_iff _ onGrid_iff_den.symm

theorem onGrid_zero : OnGrid scale 0 := ⟨0, by simp⟩

theorem OnGrid.add (hp : OnGrid scale p) (hq : OnGrid scale q) : OnGrid scale (p + q) := by
  obtain ⟨m, rfl⟩ := hp
  obtain ⟨n, rfl⟩ := hq
  exact ⟨m + n, by push_cast; ring⟩

theorem OnGrid.neg (hq : OnGrid scale q) : OnGrid scale (-q) := by
  obtain ⟨n, rfl⟩ := hq
  exact ⟨-n, by push_cast; ring⟩

theorem OnGrid.sub (hp : OnGrid scale p) (hq : OnGrid scale q) : OnGrid scale (p - q) := by
  rw [sub_eq_add_neg]
  exact hp.add hq.neg

/-- Decimals are at least a unit of their last place apart. -/
theorem OnGrid.le_of_lt (hp : OnGrid scale p) (hq : OnGrid scale q)
    (less : p < q + 1 / 10 ^ scale) : p ≤ q := by
  obtain ⟨m, rfl⟩ := hp
  obtain ⟨n, rfl⟩ := hq
  rw [← add_div, div_lt_div_iff_of_pos_right (by positivity)] at less
  have steps : m < n + 1 := by exact_mod_cast less
  exact div_le_div_of_nonneg_right (by exact_mod_cast Int.lt_add_one_iff.mp steps) (by positivity)

/-- A coarser grid is part of a finer one. -/
theorem OnGrid.mono {finer : ℕ} (le : scale ≤ finer) (hq : OnGrid scale q) :
    OnGrid finer q := by
  obtain ⟨n, rfl⟩ := hq
  obtain ⟨more, rfl⟩ := Nat.exists_eq_add_of_le le
  refine ⟨n * 10 ^ more, ?_⟩
  push_cast
  rw [pow_add]
  field_simp

theorem onGrid_roundScale (scale : ℕ) (q : ℚ) : OnGrid scale (roundScale scale q) :=
  ⟨roundHalfAway (q * 10 ^ scale), rfl⟩

theorem roundScale_of_onGrid (hq : OnGrid scale q) : roundScale scale q = q := by
  obtain ⟨n, rfl⟩ := hq
  have unit : (10 : ℚ) ^ scale ≠ 0 := by positivity
  unfold roundScale
  rw [div_mul_cancel₀ _ unit, roundHalfAway_intCast]

theorem roundScale_mono (le : p ≤ q) : roundScale scale p ≤ roundScale scale q := by
  have unit : (0 : ℚ) < 10 ^ scale := by positivity
  unfold roundScale
  apply div_le_div_of_nonneg_right _ unit.le
  exact_mod_cast roundHalfAway_mono (mul_le_mul_of_nonneg_right le unit.le)

theorem roundScale_nonneg (nonneg : 0 ≤ q) : 0 ≤ roundScale scale q := by
  calc (0 : ℚ) = roundScale scale 0 := (roundScale_of_onGrid onGrid_zero).symm
    _ ≤ roundScale scale q := roundScale_mono nonneg

theorem abs_roundScale_sub_le (scale : ℕ) (q : ℚ) : |roundScale scale q - q| ≤ 1 / 2 / 10 ^ scale := by
  have unit : (0 : ℚ) < 10 ^ scale := by positivity
  have exact_ := abs_roundHalfAway_sub_le (q * 10 ^ scale)
  unfold roundScale
  rw [le_div_iff₀ unit]
  calc |roundHalfAway (q * 10 ^ scale) / 10 ^ scale - q| * 10 ^ scale
      = |(roundHalfAway (q * 10 ^ scale) / 10 ^ scale - q) * 10 ^ scale| := by
        rw [abs_mul, abs_of_pos unit]
    _ = |(roundHalfAway (q * 10 ^ scale) : ℚ) - q * 10 ^ scale| := by
        rw [sub_mul, div_mul_cancel₀ _ unit.ne']
    _ ≤ 1 / 2 := exact_

end Grid

namespace Numeric

variable {scale : ℕ}

/-- The rational a column value denotes. -/
def value (c : Numeric scale) : ℚ := c.units / 10 ^ scale

/-- Write an exact rational to the column. -/
def store (scale : ℕ) (q : ℚ) : Numeric scale := ⟨roundHalfAway (q * 10 ^ scale)⟩

theorem onGrid_value (c : Numeric scale) : OnGrid scale c.value := ⟨c.units, rfl⟩

theorem value_store (q : ℚ) : (store scale q).value = roundScale scale q := rfl

theorem value_store_of_onGrid {q : ℚ} (hq : OnGrid scale q) : (store scale q).value = q := by
  rw [value_store, roundScale_of_onGrid hq]

theorem value_store_add (c : Numeric scale) {q : ℚ} (hq : OnGrid scale q) :
    (store scale (c.value + q)).value = c.value + q :=
  value_store_of_onGrid (c.onGrid_value.add hq)

theorem value_store_sub (c : Numeric scale) {q : ℚ} (hq : OnGrid scale q) :
    (store scale (c.value - q)).value = c.value - q :=
  value_store_of_onGrid (c.onGrid_value.sub hq)

end Numeric

end Database
