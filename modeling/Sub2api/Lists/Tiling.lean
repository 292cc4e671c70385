import Mathlib.Data.List.Basic
import Mathlib.Order.Basic
import Mathlib.Algebra.Order.Ring.Int

/-!
# Tilings of a half-line

Tiles are half-open intervals `(low, high]`, the last of them without an upper end. `Tiles low high
start tiles` holds when they follow each other from `start` on; then exactly one tile has a given
number (`Tiles.filter_eq`).
-/

namespace Lists

variable {α : Type*} {low : α → ℤ} {high : α → Option ℤ}

/-- Whether `n` lies in `(low tile, high tile]`. -/
def inTile (low : α → ℤ) (high : α → Option ℤ) (n : ℤ) (tile : α) : Bool :=
  low tile < n && (high tile).all (n ≤ ·)

theorem inTile_iff {n : ℤ} {tile : α} :
    inTile low high n tile = true ↔ low tile < n ∧ ∀ top ∈ high tile, n ≤ top := by
  cases top : high tile with
  | none => simp [inTile, top]
  | some top => simp [inTile, top]

/-- The tiles follow each other from `start` on, and the last has no upper end. -/
inductive Tiles (low : α → ℤ) (high : α → Option ℤ) : ℤ → List α → Prop where
  | last (tile : α) (unbounded : high tile = none) : Tiles low high (low tile) [tile]
  | cons (tile : α) {top : ℤ} {rest : List α} (bounded : high tile = some top)
      (wide : low tile < top) (later : Tiles low high top rest) :
      Tiles low high (low tile) (tile :: rest)

namespace Tiles

variable {start n : ℤ} {tiles : List α}

theorem ne_nil (tiled : Tiles low high start tiles) : tiles ≠ [] := by
  cases tiled <;> exact List.cons_ne_nil _ _

theorem start_le (tiled : Tiles low high start tiles) {tile : α} (mem : tile ∈ tiles) :
    start ≤ low tile := by
  induction tiled with
  | last _ _ =>
      rw [List.mem_singleton] at mem
      rw [mem]
  | cons _ _ wide _ ih =>
      rcases List.mem_cons.mp mem with rfl | later
      · exact le_rfl
      · exact (le_of_lt wide).trans (ih later)

theorem wide (tiled : Tiles low high start tiles) {tile : α} (mem : tile ∈ tiles) :
    ∀ top ∈ high tile, low tile < top := by
  induction tiled with
  | last other unbounded =>
      rw [List.mem_singleton] at mem
      rw [mem, unbounded]
      intro top none
      cases none
  | cons other bounded wide _ ih =>
      rcases List.mem_cons.mp mem with rfl | later
      · intro top some
        rw [Option.mem_def, bounded] at some
        cases some
        exact wide
      · exact ih later

theorem filter_of_le (tiled : Tiles low high start tiles) (before : n ≤ start) :
    tiles.filter (inTile low high n) = [] := by
  rw [List.filter_eq_nil_iff]
  intro tile mem holds
  have above := tiled.start_le mem
  have := (inTile_iff.mp holds).1
  omega

/-- Every number after the start lies in exactly one tile. -/
theorem filter_eq (tiled : Tiles low high start tiles) (after : start < n) :
    ∃ tile, tiles.filter (inTile low high n) = [tile] := by
  induction tiled with
  | last tile unbounded =>
      have holds : inTile low high n tile = true := inTile_iff.mpr ⟨after, by simp [unbounded]⟩
      exact ⟨tile, by simp [holds]⟩
  | @cons tile top rest bounded _ later ih =>
      by_cases within : n ≤ top
      · have holds : inTile low high n tile = true :=
          inTile_iff.mpr ⟨after, by simpa [bounded] using within⟩
        exact ⟨tile, by simp [holds, later.filter_of_le within]⟩
      · have outside : ¬ inTile low high n tile = true := fun holds =>
          within ((inTile_iff.mp holds).2 top bounded)
        obtain ⟨found, only⟩ := ih (by omega)
        exact ⟨found, by simp [outside, only]⟩

/-- Tiles of the same ends tile alike. -/
theorem of_forall₂ {β : Type*} {low' : β → ℤ} {high' : β → Option ℤ} {others : List β}
    (tiled : Tiles low high start tiles)
    (alike : List.Forall₂ (fun tile other => low' other = low tile ∧ high' other = high tile)
      tiles others) : Tiles low' high' start others := by
  induction tiled generalizing others with
  | last tile unbounded =>
      cases alike with
      | @cons _ other _ rest same none =>
          cases none
          rw [← same.1]
          exact .last other (same.2.trans unbounded)
  | cons tile bounded wide _ ih =>
      cases alike with
      | @cons _ other _ rest same alike =>
          rw [← same.1]
          exact .cons other (same.2.trans bounded) (same.1 ▸ wide) (ih alike)

/-- The second tile starts where the first ends. -/
theorem adjacent {first second : α} (tiled : Tiles low high start (first :: second :: tiles)) :
    high first = some (low second) := by
  cases tiled with
  | cons _ bounded _ later => cases later <;> exact bounded

/-- One tile in the place of the first two. -/
theorem join {first second joined : α}
    (tiled : Tiles low high start (first :: second :: tiles))
    (lower : low joined = low first) (upper : high joined = high second) :
    Tiles low high start (joined :: tiles) := by
  cases tiled with
  | cons _ bounded wide later =>
      rw [← lower] at wide ⊢
      cases later with
      | last _ unbounded => exact .last joined (upper.trans unbounded)
      | cons _ bounded' wide' later' =>
          exact .cons joined (upper.trans bounded') (wide.trans wide') later'

end Tiles

end Lists
