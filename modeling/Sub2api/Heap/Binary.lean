import Mathlib.Order.WithBot
import Mathlib.Data.Nat.Basic

/-!
# Binary heaps in an array

`up` and `down` move one element of an array to where it belongs, as the loops of Go's
`container/heap` do: a position is compared with its parent, or with the smaller of its children, and
swapped. The proofs look at an array through `keyAt`, the key at a position, which is `⊤` behind the
end, so that they do not speak of bounds.
-/

namespace Heap

variable {α β γ : Type*}

def parent (c : ℕ) : ℕ := (c - 1) / 2

/-- `up`: an element is swapped with its parent until it is not less. -/
def up (less : α → α → Bool) : ℕ → Array α → ℕ → Array α
  | 0, xs, _ => xs
  | fuel + 1, xs, j =>
    if bound : j < xs.size ∧ parent j ≠ j then
      have above : parent j < xs.size := by
        unfold parent
        omega
      if less xs[j] xs[parent j] then up less fuel (xs.swap (parent j) j) (parent j) else xs
    else xs

/-- The smaller child of a position that has one. -/
def child (less : α → α → Bool) (xs : Array α) (i : ℕ) : ℕ :=
  if bound : 2 * i + 2 < xs.size then
    if less xs[2 * i + 2] xs[2 * i + 1] then 2 * i + 2 else 2 * i + 1
  else 2 * i + 1

theorem child_cases (less : α → α → Bool) (xs : Array α) (i : ℕ) :
    child less xs i = 2 * i + 1 ∨ (child less xs i = 2 * i + 2 ∧ 2 * i + 2 < xs.size) := by
  unfold child
  split
  · split
    · exact Or.inr ⟨rfl, by assumption⟩
    · exact Or.inl rfl
  · exact Or.inl rfl

/-- `down`: an element is swapped with its smaller child until that is not less. -/
def down (less : α → α → Bool) : ℕ → Array α → ℕ → Array α
  | 0, xs, _ => xs
  | fuel + 1, xs, i =>
    if bound : 2 * i + 1 < xs.size then
      have below : child less xs i < xs.size := by
        rcases child_cases less xs i with left | ⟨right, inside⟩ <;> omega
      if less xs[child less xs i] xs[i] then
        down less fuel (xs.swap i (child less xs i)) (child less xs i)
      else xs
    else xs

/-- `heap.Push`. -/
def push (less : α → α → Bool) (xs : Array α) (x : α) : Array α :=
  up less (xs.size + 1) (xs.push x) xs.size

/-- `heap.Fix` of the first position. -/
def fixRoot (less : α → α → Bool) (xs : Array α) : Array α := down less xs.size xs 0

/-! ### The same elements -/

theorem up_perm (less : α → α → Bool) (fuel : ℕ) :
    ∀ (xs : Array α) (j : ℕ), (up less fuel xs j).Perm xs := by
  induction fuel with
  | zero =>
      intro xs j
      exact Array.Perm.refl _
  | succ fuel ih =>
      intro xs j
      rw [up]
      split
      · dsimp only
        split
        · exact (ih _ _).trans (Array.swap_perm _ _)
        · exact Array.Perm.refl _
      · exact Array.Perm.refl _

theorem down_perm (less : α → α → Bool) (fuel : ℕ) :
    ∀ (xs : Array α) (i : ℕ), (down less fuel xs i).Perm xs := by
  induction fuel with
  | zero =>
      intro xs i
      exact Array.Perm.refl _
  | succ fuel ih =>
      intro xs i
      rw [down]
      split
      · dsimp only
        split
        · exact (ih _ _).trans (Array.swap_perm _ _)
        · exact Array.Perm.refl _
      · exact Array.Perm.refl _

/-! ### Order -/

section Keys

variable [LinearOrder γ] {f : ℕ → γ}

/-- No position has a smaller key than its parent. -/
def Ordered (f : ℕ → γ) : Prop := ∀ c, 0 < c → f (parent c) ≤ f c

/-- The keys of two positions are exchanged. -/
def swapped (f : ℕ → γ) (i j : ℕ) : ℕ → γ :=
  fun k => if k = i then f j else if k = j then f i else f k

/-- Only the key at `j` may be too small for its parent. -/
structure UpReady (f : ℕ → γ) (j : ℕ) : Prop where
  others : ∀ c, 0 < c → c ≠ j → f (parent c) ≤ f c
  around : 0 < j → ∀ c, 0 < c → parent c = j → f (parent j) ≤ f c

/-- Only the key at `i` may be too large for its children. -/
structure DownReady (f : ℕ → γ) (i : ℕ) : Prop where
  others : ∀ c, 0 < c → parent c ≠ i → f (parent c) ≤ f c
  around : 0 < i → ∀ c, 0 < c → parent c = i → f (parent i) ≤ f c

theorem parent_lt {c : ℕ} (some_ : 0 < c) : parent c < c := by
  unfold parent
  omega

theorem UpReady.done {j : ℕ} (ready : UpReady f j) (stop : 0 < j → f (parent j) ≤ f j) :
    Ordered f := by
  intro c some_
  by_cases here : c = j
  · subst here
    exact stop some_
  · exact ready.others c some_ here

theorem UpReady.step {j : ℕ} (ready : UpReady f j) (some_ : 0 < j) (less : f j < f (parent j)) :
    UpReady (swapped f (parent j) j) (parent j) := by
  have above := parent_lt some_
  constructor
  · intro c some_c notParent
    unfold swapped
    by_cases here : c = j
    · subst here
      rw [if_pos rfl, if_neg (Nat.ne_of_gt above), if_pos rfl]
      exact less.le
    · rw [if_neg notParent, if_neg here]
      by_cases sibling : parent c = parent j
      · rw [if_pos sibling]
        exact less.le.trans (sibling ▸ ready.others c some_c here)
      · rw [if_neg sibling]
        by_cases below : parent c = j
        · rw [if_pos below]
          exact ready.around some_ c some_c below
        · rw [if_neg below]
          exact ready.others c some_c here
  · intro some_p c some_c below
    have higher := parent_lt some_p
    have grand : f (parent (parent j)) ≤ f (parent j) :=
      ready.others (parent j) some_p (Nat.ne_of_lt above)
    unfold swapped
    have notSelf : parent (parent j) ≠ parent j := Nat.ne_of_lt higher
    have notJ : parent (parent j) ≠ j := by omega
    rw [if_neg notSelf, if_neg notJ]
    have notParent : c ≠ parent j := by
      have := parent_lt some_c
      omega
    rw [if_neg notParent]
    by_cases here : c = j
    · rw [if_pos here]
      exact grand
    · rw [if_neg here]
      exact grand.trans (below ▸ ready.others c some_c here)

theorem DownReady.done {i : ℕ} (ready : DownReady f i)
    (stop : ∀ c, 0 < c → parent c = i → f i ≤ f c) : Ordered f := by
  intro c some_
  by_cases below : parent c = i
  · rw [below]
    exact stop c some_ below
  · exact ready.others c some_ below

theorem DownReady.step {i j : ℕ} (ready : DownReady f i) (some_ : 0 < j) (below : parent j = i)
    (smallest : ∀ c, 0 < c → parent c = i → f j ≤ f c) (less : f j < f i) :
    DownReady (swapped f i j) j := by
  have above : i < j := below ▸ parent_lt some_
  constructor
  · intro c some_c notBelow
    unfold swapped
    by_cases here : c = j
    · subst here
      rw [if_pos below, if_neg (Nat.ne_of_gt above), if_pos rfl]
      exact less.le
    · by_cases top : c = i
      · subst top
        have higher := parent_lt some_c
        rw [if_neg (Nat.ne_of_lt higher), if_neg (show parent c ≠ j by omega), if_pos rfl]
        exact ready.around some_c j some_ below
      · rw [if_neg top, if_neg here]
        by_cases sibling : parent c = i
        · rw [if_pos sibling]
          exact smallest c some_c sibling
        · rw [if_neg sibling, if_neg notBelow]
          exact ready.others c some_c sibling
  · intro _ c some_c under
    have deeper : j < c := under ▸ parent_lt some_c
    unfold swapped
    rw [below, if_pos rfl, if_neg (show c ≠ i by omega), if_neg (Nat.ne_of_gt deeper)]
    have := ready.others c some_c (by omega)
    rwa [under] at this

/-- The first key is the smallest. -/
theorem Ordered.root_le (ordered : Ordered f) (k : ℕ) : f 0 ≤ f k := by
  induction k using Nat.strong_induction_on with
  | _ k ih =>
      rcases Nat.eq_zero_or_pos k with rfl | some_
      · exact le_refl _
      · exact (ih _ (parent_lt some_)).trans (ordered k some_)

end Keys

/-! ### Keys of an array -/

section Array

variable {rank : α → β} {less : α → α → Bool}

/-- The key at a position. -/
def keyAt (rank : α → β) (xs : Array α) (k : ℕ) : WithTop β :=
  if bound : k < xs.size then some (rank xs[k]) else ⊤

variable {xs : Array α}

theorem keyAt_eq {k : ℕ} (bound : k < xs.size) :
    keyAt rank xs k = ((rank xs[k] : β) : WithTop β) := dif_pos bound

theorem keyAt_eq_top {k : ℕ} (bound : xs.size ≤ k) : keyAt rank xs k = ⊤ :=
  dif_neg (Nat.not_lt.mpr bound)

theorem keyAt_swap {i j : ℕ} (hi : i < xs.size) (hj : j < xs.size) :
    keyAt rank (xs.swap i j) = swapped (keyAt rank xs) i j := by
  funext k
  unfold swapped
  by_cases bound : k < xs.size
  · rw [keyAt_eq (by simpa using bound), Array.getElem_swap]
    split
    · rw [keyAt_eq hj]
    · split
      · rw [keyAt_eq hi]
      · rw [keyAt_eq bound]
  · rw [keyAt_eq_top (by simpa using bound), if_neg (by rintro rfl; exact bound hi),
      if_neg (by rintro rfl; exact bound hj), keyAt_eq_top (Nat.not_lt.mp bound)]

variable [LinearOrder β] (compares : ∀ a b, less a b = true ↔ rank a < rank b)

include compares

theorem less_iff {i j : ℕ} (hi : i < xs.size) (hj : j < xs.size) :
    less xs[i] xs[j] = true ↔ keyAt rank xs i < keyAt rank xs j := by
  rw [compares, keyAt_eq hi, keyAt_eq hj, WithTop.coe_lt_coe]

/-- The smaller child is not greater than any child. -/
theorem child_le {i : ℕ} (bound : 2 * i + 1 < xs.size) :
    ∀ c, 0 < c → parent c = i → keyAt rank xs (child less xs i) ≤ keyAt rank xs c := by
  intro c some_ below
  have sides : c = 2 * i + 1 ∨ c = 2 * i + 2 := by
    unfold parent at below
    omega
  unfold child
  by_cases two : 2 * i + 2 < xs.size
  · rw [dif_pos two]
    split
    · rename_i right
      rw [less_iff compares two bound] at right
      rcases sides with rfl | rfl
      · exact right.le
      · exact le_refl _
    · rename_i left
      rw [less_iff compares two bound, not_lt] at left
      rcases sides with rfl | rfl
      · exact le_refl _
      · exact left
  · rw [dif_neg two]
    rcases sides with rfl | rfl
    · exact le_refl _
    · rw [keyAt_eq_top (Nat.not_lt.mp two)]
      exact le_top

theorem ordered_up (fuel : ℕ) : ∀ (xs : Array α) (j : ℕ), j < fuel → j < xs.size →
    UpReady (keyAt rank xs) j → Ordered (keyAt rank (up less fuel xs j)) := by
  induction fuel with
  | zero =>
      intro xs j enough
      exact absurd enough (Nat.not_lt_zero _)
  | succ fuel ih =>
      intro xs j enough inside ready
      rw [up]
      split
      · rename_i bound
        have some_ : 0 < j := by
          rcases Nat.eq_zero_or_pos j with rfl | some_
          · exact absurd rfl bound.2
          · exact some_
        have above := parent_lt some_
        dsimp only
        split
        · rename_i smaller
          rw [less_iff compares inside (by omega)] at smaller
          apply ih _ _ (by omega) (by rw [Array.size_swap]; omega)
          rw [keyAt_swap]
          exact ready.step some_ smaller
        · rename_i stop
          rw [less_iff compares inside (by omega), not_lt] at stop
          exact ready.done fun _ => stop
      · rename_i root
        apply ready.done
        intro some_
        exact absurd ⟨inside, Nat.ne_of_lt (parent_lt some_)⟩ root

theorem ordered_down (fuel : ℕ) : ∀ (xs : Array α) (i : ℕ), xs.size ≤ fuel + i →
    DownReady (keyAt rank xs) i → Ordered (keyAt rank (down less fuel xs i)) := by
  have leaf : ∀ (xs : Array α) (i : ℕ), ¬2 * i + 1 < xs.size → DownReady (keyAt rank xs) i →
      Ordered (keyAt rank xs) := by
    intro xs i outside ready
    apply ready.done
    intro c some_ below
    have behind : xs.size ≤ c := by
      unfold parent at below
      omega
    rw [keyAt_eq_top behind]
    exact le_top
  induction fuel with
  | zero =>
      intro xs i enough ready
      exact leaf xs i (by omega) ready
  | succ fuel ih =>
      intro xs i enough ready
      rw [down]
      split
      · rename_i bound
        have sides := child_cases less xs i
        have below : parent (child less xs i) = i := by
          unfold parent
          rcases sides with left | ⟨right, _⟩ <;> omega
        have some_ : 0 < child less xs i := by
          rcases sides with left | ⟨right, _⟩ <;> omega
        have deeper : i < child less xs i := by
          rcases sides with left | ⟨right, _⟩ <;> omega
        have inside : child less xs i < xs.size := by
          rcases sides with left | ⟨right, _⟩ <;> omega
        have smallest := child_le compares bound
        dsimp only
        split
        · rename_i smaller
          rw [less_iff compares inside (by omega)] at smaller
          apply ih _ _ (by rw [Array.size_swap]; omega)
          rw [keyAt_swap]
          exact ready.step some_ below smallest smaller
        · rename_i stop
          rw [less_iff compares inside (by omega), not_lt] at stop
          apply ready.done
          intro c some_c under
          exact stop.trans (smallest c some_c under)
      · rename_i outside
        exact leaf xs i outside ready

/-- A pushed element takes its place. -/
theorem ordered_push (ordered : Ordered (keyAt rank xs)) (x : α) :
    Ordered (keyAt rank (push less xs x)) := by
  have before : ∀ k < xs.size, keyAt rank (xs.push x) k = keyAt rank xs k := by
    intro k bound
    rw [keyAt_eq (by rw [Array.size_push]; omega), keyAt_eq bound, Array.getElem_push_lt bound]
  unfold push
  apply ordered_up compares _ _ _ (by omega) (by rw [Array.size_push]; omega)
  constructor
  · intro c some_ notLast
    have above := parent_lt some_
    by_cases bound : c < xs.size
    · rw [before c bound, before (parent c) (by omega)]
      exact ordered c some_
    · rw [keyAt_eq_top (k := c) (by rw [Array.size_push]; omega)]
      exact le_top
  · intro _ c some_ below
    have above := parent_lt some_
    rw [keyAt_eq_top (k := c) (by rw [Array.size_push]; omega)]
    exact le_top

/-- The heap is in order again when its first element has been replaced. -/
theorem ordered_fixRoot (ordered : Ordered (keyAt rank xs)) (some_ : 0 < xs.size) (x : α) :
    Ordered (keyAt rank (fixRoot less (xs.set 0 x))) := by
  have others : ∀ k, 0 < k → keyAt rank (xs.set 0 x) k = keyAt rank xs k := by
    intro k later
    by_cases bound : k < xs.size
    · rw [keyAt_eq (by rwa [Array.size_set]), keyAt_eq bound,
        Array.getElem_set_ne _ bound (Nat.ne_of_lt later)]
    · rw [keyAt_eq_top (by rw [Array.size_set]; omega), keyAt_eq_top (by omega)]
  unfold fixRoot
  apply ordered_down compares _ _ _ (by omega)
  constructor
  · intro c later notRoot
    rw [others c later, others (parent c) (Nat.pos_of_ne_zero notRoot)]
    exact ordered c later
  · intro absurd_
    exact absurd absurd_ (Nat.lt_irrefl 0)

omit compares in
/-- The first element of a heap has the smallest key. -/
theorem root_le (ordered : Ordered (keyAt rank xs)) (some_ : 0 < xs.size) :
    ∀ x ∈ xs, rank xs[0] ≤ rank x := by
  intro x mem
  obtain ⟨k, bound, rfl⟩ := Array.getElem_of_mem mem
  have least := ordered.root_le k
  rwa [keyAt_eq some_, keyAt_eq bound, WithTop.coe_le_coe] at least

end Array

end Heap
