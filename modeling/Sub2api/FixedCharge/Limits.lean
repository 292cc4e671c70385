import Mathlib.Algebra.BigOperators.Ring.Finset
import Mathlib.Data.Finset.Max
import Sub2api.FixedCharge.Reserve

/-!
# Fixed charges stay within the limits

When a charge reserves a scope, what the others have pending and what is already billed cover
every earlier charge that has not been rejected. That lasts: rejections only grow, and so does
usage. So a charge that passes its check is bounded together with all that came before it, and
the admitted charge that reserved last bounds them all. Doubles lose a little of each sum: of the
reservations `kept` stays, and of the whole `precision`.

* `reserve_owns`, `checkScope_owns` — what a reservation and a check learn;
* `admitted_within` — the charge that reserved last bounds all;
* `fixed_charges_within_limit` — over every run;
* `fixed_charges_exceed_limit` — a limit exceeded from the start, amounts finer than billing
  keeps, and amounts finer than doubles keep.
-/

namespace Sub2api.FixedCharge

open Database
open Interleave
open Significant

/-! ### Amounts -/

/-- An amount, or what billing makes of it where that is less. -/
def counted (amount : ℚ) : ℚ := min amount (quantize amount)

theorem quantize_nonneg {amount : ℚ} (nonneg : 0 ≤ amount) : 0 ≤ quantize amount := by
  unfold quantize roundScale roundHalfAway
  have scaled : 0 ≤ amount * 10 ^ 8 := by positivity
  rw [if_pos scaled]
  have floor : 0 ≤ ⌊amount * 10 ^ 8 + 1 / 2⌋ := Int.floor_nonneg.mpr (by positivity)
  positivity

theorem counted_nonneg {amount : ℚ} (nonneg : 0 ≤ amount) : 0 ≤ counted amount :=
  le_min nonneg (quantize_nonneg nonneg)

theorem counted_of_onGrid {amount : ℚ} (onGrid : OnGrid 8 amount) : counted amount = amount := by
  rw [counted, quantize, roundScale_of_onGrid onGrid, min_self]

/-- What the text of a sum of so many values keeps. -/
def kept (n : ℕ) : ℚ := unit ^ (n + 1) * (1 - 5 / 10 ^ 14)

theorem kept_nonneg (n : ℕ) : 0 ≤ kept n :=
  mul_nonneg (pow_nonneg unit_pos.le _) (by norm_num)

theorem kept_antitone : Antitone kept := by
  intro m n le
  unfold kept
  have fewer := pow_le_pow_of_le_one unit_pos.le unit_le_one (Nat.add_le_add_right le 1)
  exact mul_le_mul_of_nonneg_right fewer (by norm_num)

theorem kept_le_one (n : ℕ) : kept n ≤ 1 :=
  mul_le_one₀ (pow_le_one₀ unit_pos.le unit_le_one) (by norm_num) (by norm_num)

theorem nearest_nonneg {x : ℚ} (nonneg : 0 ≤ x) :
    (1 - 5 / 10 ^ 14) * x ≤ nearest 10 14 x ∧ 0 ≤ nearest 10 14 x := by
  have close := le_nearest 14 (by decide : 1 < 10) nonneg
  norm_num at close ⊢
  exact ⟨close, le_trans (by positivity) close⟩

theorem shown_nonneg {sum : ℚ} (nonneg : 0 ≤ sum) : 0 ≤ shown sum :=
  double_nonneg (nearest_nonneg nonneg).2

/-- In whatever order the values are summed, the text keeps so much of their sum. -/
theorem le_shown (hvals : Redis.Listing ℚ) {vals : List ℚ} (nonneg : ∀ val ∈ vals, 0 ≤ val) :
    kept vals.length * vals.sum ≤ shown (doubleSum (hvals.order vals)) := by
  have perm := hvals.perm vals
  have nonneg' : ∀ val ∈ hvals.order vals, 0 ≤ val := fun val member =>
    nonneg val (perm.subset member)
  have summed := le_doubleSum nonneg'
  rw [perm.length_eq, perm.sum_eq] at summed
  obtain ⟨written, some_⟩ := nearest_nonneg (doubleSum_nonneg nonneg')
  calc kept vals.length * vals.sum
      = unit * ((1 - 5 / 10 ^ 14) * (unit ^ vals.length * vals.sum)) := by
        rw [kept, pow_succ]
        ring
    _ ≤ unit * ((1 - 5 / 10 ^ 14) * doubleSum (hvals.order vals)) := by
        have digits : (0 : ℚ) ≤ 1 - 5 / 10 ^ 14 := by norm_num
        exact mul_le_mul_of_nonneg_left (mul_le_mul_of_nonneg_left summed digits) unit_pos.le
    _ ≤ unit * nearest 10 14 (doubleSum (hvals.order vals)) :=
        mul_le_mul_of_nonneg_left written unit_pos.le
    _ ≤ shown (doubleSum (hvals.order vals)) := le_double some_

/-! ### The invariant -/

/-- The window has a limit. -/
def Limited (cfg : Config) (scope : Scope) (window : Window) : Prop :=
  window ∈ scope.windows ∧ 0 < cfg.limit scope window

theorem Limited.limited {cfg : Config} {scope : Scope} {window : Window}
    (limit : Limited cfg scope window) : cfg.limited scope = true :=
  List.any_eq_true.mpr ⟨window, limit.1, decide_eq_true limit.2⟩

/-- What history tells of one charge. -/
structure Part where
  reserved : Scope → Bool
  admitted : Bool
  rejected : Bool
  billed : Bool

def part (s : State) (me : ℕ) : Part where
  reserved scope := decide (me ∈ s.order scope)
  admitted := decide (me ∈ s.admitted)
  rejected := decide (me ∈ s.rejected)
  billed := decide (me ∈ s.billed)

/-- The charge has reserved no other scopes, and nothing has become of it. -/
structure Part.Undecided (within : List Scope) (p : Part) : Prop where
  reserved : ∀ scope, p.reserved scope = true → scope ∈ within
  admitted : p.admitted = false
  rejected : p.rejected = false
  billed : p.billed = false

structure Part.Admitted (p : Part) : Prop where
  admitted : p.admitted = true
  billed : p.billed = false

structure Extends (s s' : State) : Prop where
  order : ∀ scope, s.order scope <+: s'.order scope
  rejected : s.rejected ⊆ s'.rejected
  billed : s.billed ⊆ s'.billed
  usage : ∀ scope window, s.usage scope window ≤ s'.usage scope window
  calm : s'.disturbed = false → s.disturbed = false

instance : Preorder State where
  le := Extends
  le_refl s := ⟨fun _ => List.prefix_refl _, fun _ h => h, fun _ h => h, fun _ _ => le_rfl, id⟩
  le_trans _ _ _ first second :=
    ⟨fun scope => (first.order scope).trans (second.order scope),
      first.rejected.trans second.rejected, first.billed.trans second.billed,
      fun scope window => (first.usage scope window).trans (second.usage scope window),
      fun calm => first.calm (second.calm calm)⟩

section Runs

variable (cfg : Config) (calls : ℕ → Call) (s₀ : State)

/-- What is kept of the initial usage and of all charges that reserved the scope before this one
and have not been rejected is within the bound. -/
def Ahead (me : ℕ) (scope : Scope) (bound : Window → ℚ) (s : State) : Prop :=
  ∃ earlier, earlier ++ [me] <+: s.order scope ∧ (∀ j ∈ earlier, 0 < (calls j).amount) ∧
    ∀ window, Limited cfg scope window →
      kept earlier.length * (s₀.usage scope window +
        ∑ j ∈ earlier.toFinset \ s.rejected, counted (calls j).amount) ≤ bound window

/-- The limits as doubles keep them, less this charge. -/
def left (me : ℕ) (scope : Scope) (window : Window) : ℚ :=
  cfg.limit scope window / unit ^ 2 - (calls me).amount

structure Books (s : State) : Prop where
  start : ∀ scope window, 0 ≤ s₀.usage scope window
  nodup : ∀ scope, (s.order scope).Nodup
  fewer : ∀ scope, (s.reservations scope).length ≤ (s.order scope).length
  charged : ∀ scope, ∀ j ∈ s.order scope, 0 < (calls j).amount ∧ scope ∈ (calls j).scopes
  /-- A charge that has released the scope has been billed or rejected. -/
  settled : ∀ scope, ∀ j ∈ s.order scope,
    (∃ r ∈ s.reservations scope, r.member = j) ∨ j ∈ s.billed ∨ j ∈ s.rejected
  amounts : ∀ scope, ∀ r ∈ s.reservations scope,
    r.amount = (calls r.member).amount ∧ 0 < r.amount
  positive : ∀ j ∈ s.billed, 0 < (calls j).amount
  usage : ∀ scope window, Limited cfg scope window →
    s.usage scope window = s₀.usage scope window +
      ∑ j ∈ s.billed with scope ∈ (calls j).scopes, quantize (calls j).amount
  apart : ∀ j ∈ s.admitted, j ∉ s.rejected
  passed : ∀ j ∈ s.admitted, ∀ scope ∈ (calls j).scopes, cfg.limited scope = true →
    Ahead cfg calls s₀ j scope (left cfg calls j scope) s

/-- The invariant: while nothing has disturbed the run, the books are in order. -/
def Inv (s : State) : Prop := s.disturbed = false → Books cfg calls s₀ s

end Runs

section Steps

variable {cfg : Config} {calls : ℕ → Call} {s₀ s s' : State} {me : ℕ} {scope : Scope}

theorem Ahead.lasts {bound bound' : Window → ℚ} (ahead : Ahead cfg calls s₀ me scope bound s)
    (grows : s ≤ s') (looser : ∀ window, bound window ≤ bound' window) :
    Ahead cfg calls s₀ me scope bound' s' := by
  obtain ⟨earlier, reserved, positive, within⟩ := ahead
  refine ⟨earlier, reserved.trans (grows.order scope), positive, fun window limited => ?_⟩
  have fewer : ∑ j ∈ earlier.toFinset \ s'.rejected, counted (calls j).amount ≤
      ∑ j ∈ earlier.toFinset \ s.rejected, counted (calls j).amount := by
    refine Finset.sum_le_sum_of_subset_of_nonneg
      (Finset.sdiff_subset_sdiff (Finset.Subset.refl _) grows.rejected) fun j member _ => ?_
    have member := List.mem_toFinset.mp (Finset.mem_sdiff.mp member).1
    exact counted_nonneg (positive j member).le
  refine le_trans ?_ ((within window limited).trans (looser window))
  exact mul_le_mul_of_nonneg_left (by linarith) (kept_nonneg _)

/-- A sum over part of a union, term by term not negative. -/
theorem sum_le_of_subset_union {f : ℕ → ℚ} {part first second : Finset ℕ}
    (subset : part ⊆ first ∪ second) (onFirst : ∀ j ∈ first, 0 ≤ f j)
    (onSecond : ∀ j ∈ second, 0 ≤ f j) :
    ∑ j ∈ part, f j ≤ ∑ j ∈ first, f j + ∑ j ∈ second, f j := by
  have both : ∑ j ∈ first ∪ second, f j ≤ ∑ j ∈ first, f j + ∑ j ∈ second, f j := by
    rw [← Finset.sum_union_inter]
    refine le_add_of_nonneg_right (Finset.sum_nonneg fun j member => ?_)
    exact onFirst j (Finset.mem_inter.mp member).1
  refine (Finset.sum_le_sum_of_subset_of_nonneg subset fun j member _ => ?_).trans both
  rcases Finset.mem_union.mp member with isFirst | isSecond
  · exact onFirst j isFirst
  · exact onSecond j isSecond

/-- What is pending covers each reservation's charge once. -/
theorem pending_covers {reservations : List Reservation}
    (amounts : ∀ r ∈ reservations, r.amount = (calls r.member).amount ∧ 0 < r.amount) :
    ∑ j ∈ (reservations.map (·.member)).toFinset, counted (calls j).amount ≤
      (reservations.map (·.amount)).sum := by
  induction reservations with
  | nil => exact le_rfl
  | cons r rest ih =>
      have tail := ih fun r' member => amounts r' (List.mem_cons_of_mem _ member)
      obtain ⟨same, positive⟩ := amounts r List.mem_cons_self
      have head : counted (calls r.member).amount ≤ r.amount := by
        rw [same]
        exact min_le_left _ _
      simp only [List.map_cons, List.toFinset_cons, List.sum_cons]
      by_cases again : r.member ∈ (rest.map (·.member)).toFinset
      · rw [Finset.insert_eq_of_mem again]
        linarith
      · rw [Finset.sum_insert again]
        linarith

/-- Billed and pending charges cover the earlier ones that have not been rejected. -/
theorem Books.covered (books : Books cfg calls s₀ s) {window : Window}
    (limited : Limited cfg scope window) :
    s₀.usage scope window +
        ∑ j ∈ (s.order scope).toFinset \ s.rejected, counted (calls j).amount ≤
      s.usage scope window + ((s.reservations scope).map (·.amount)).sum := by
  set members := ((s.reservations scope).map (·.member)).toFinset
  set billed := s.billed.filter fun j => scope ∈ (calls j).scopes
  have split : (s.order scope).toFinset \ s.rejected ⊆ members ∪ billed := by
    intro j member
    obtain ⟨reserved, kept⟩ := Finset.mem_sdiff.mp member
    have reserved := List.mem_toFinset.mp reserved
    rcases books.settled scope j reserved with ⟨r, alive, rfl⟩ | isBilled | rejected
    · exact Finset.mem_union_left _ (List.mem_toFinset.mpr (List.mem_map_of_mem alive))
    · exact Finset.mem_union_right _
        (Finset.mem_filter.mpr ⟨isBilled, (books.charged scope j reserved).2⟩)
    · exact absurd rejected kept
  have memberPos : ∀ j ∈ members, 0 < (calls j).amount := by
    intro j member
    obtain ⟨r, alive, rfl⟩ := List.mem_map.mp (List.mem_toFinset.mp member)
    obtain ⟨same, positive⟩ := books.amounts scope r alive
    rwa [same] at positive
  have billedPos : ∀ j ∈ billed, 0 < (calls j).amount :=
    fun j member => books.positive j (Finset.mem_filter.mp member).1
  have pending : ∑ j ∈ members, counted (calls j).amount ≤
      ((s.reservations scope).map (·.amount)).sum :=
    pending_covers (books.amounts scope)
  have charged : ∑ j ∈ billed, counted (calls j).amount ≤
      ∑ j ∈ billed, quantize (calls j).amount :=
    Finset.sum_le_sum fun j _ => min_le_right _ _
  have all : ∑ j ∈ (s.order scope).toFinset \ s.rejected, counted (calls j).amount ≤
      ∑ j ∈ members, counted (calls j).amount + ∑ j ∈ billed, counted (calls j).amount :=
    sum_le_of_subset_union split (fun j member => counted_nonneg (memberPos j member).le)
      fun j member => counted_nonneg (billedPos j member).le
  have usage := books.usage scope window limited
  linarith

theorem Books.usage_nonneg (books : Books cfg calls s₀ s) {window : Window}
    (limited : Limited cfg scope window) : 0 ≤ s.usage scope window := by
  rw [books.usage scope window limited]
  refine add_nonneg (books.start scope window) (Finset.sum_nonneg fun j member => ?_)
  exact quantize_nonneg (books.positive j (Finset.mem_filter.mp member).1).le

theorem Books.reserved_nonneg (books : Books cfg calls s₀ s) (scope : Scope) :
    ∀ amount ∈ (s.reservations scope).map (·.amount), 0 ≤ amount := by
  intro amount member
  obtain ⟨r, alive, rfl⟩ := List.mem_map.mp member
  exact (books.amounts scope r alive).2.le

variable {r : Reservation} {alive : List Reservation}

theorem enter_grows (s : State) : s ≤ s.enter scope alive r := by
  refine ⟨fun other => ?_, fun _ h => h, fun _ h => h, fun _ _ => le_rfl, fun calm => ?_⟩
  · by_cases here : other = scope
    · subst here
      simp only [State.enter, Function.update_self]
      exact List.prefix_append _ _
    · simp only [State.enter, Function.update_of_ne here]
      exact List.prefix_refl _
  · exact (Bool.or_eq_false_iff.mp calm).1

/-- A run that stays calm has lost no reservation. -/
theorem alive_of_calm (calm : (s.enter scope alive r).disturbed = false) :
    alive = s.reservations scope := by
  have same := (Bool.or_eq_false_iff.mp calm).2
  rwa [decide_eq_false_iff_not, not_not] at same

theorem part_enter {other : ℕ} (differ : other ≠ r.member) :
    part (s.enter scope alive r) other = part s other := by
  have same : ∀ sc, decide (other ∈ (s.enter scope alive r).order sc) =
      decide (other ∈ s.order sc) := by
    intro sc
    by_cases here : sc = scope
    · subst here
      simp [State.enter, differ]
    · simp [State.enter, Function.update_of_ne here]
  exact congrArg (fun reserved => ({ part s other with reserved := reserved } : Part))
    (funext same)

theorem enter_books (books : Books cfg calls s₀ s)
    (calm : (s.enter scope alive r).disturbed = false) (fresh : r.member ∉ s.order scope)
    (amount : r.amount = (calls r.member).amount) (positive : 0 < r.amount)
    (concerned : scope ∈ (calls r.member).scopes) :
    Books cfg calls s₀ (s.enter scope alive r) := by
  have same := alive_of_calm calm
  have reservations : ∀ sc, ∀ r' ∈ (s.enter scope alive r).reservations sc,
      r' ∈ s.reservations sc ∨ r' = r := by
    intro sc r' member
    by_cases here : sc = scope
    · subst here
      simp only [State.enter, Function.update_self, same] at member
      rcases List.mem_append.mp member with old | new
      · exact Or.inl (List.mem_filter.mp old).1
      · exact Or.inr (List.mem_singleton.mp new)
    · simp only [State.enter, Function.update_of_ne here] at member
      exact Or.inl member
  have order : ∀ sc, ∀ j ∈ (s.enter scope alive r).order sc,
      j ∈ s.order sc ∨ (sc = scope ∧ j = r.member) := by
    intro sc j member
    by_cases here : sc = scope
    · subst here
      simp only [State.enter, Function.update_self] at member
      rcases List.mem_append.mp member with old | new
      · exact Or.inl old
      · exact Or.inr ⟨rfl, List.mem_singleton.mp new⟩
    · simp only [State.enter, Function.update_of_ne here] at member
      exact Or.inl member
  constructor
  case nodup =>
    intro sc
    by_cases here : sc = scope
    · subst here
      simp only [State.enter, Function.update_self]
      exact List.nodup_append.mpr ⟨books.nodup sc, List.nodup_singleton _, by
        intro a old b new
        rw [List.mem_singleton.mp new]
        exact fun eq => fresh (eq ▸ old)⟩
    · simp only [State.enter, Function.update_of_ne here]
      exact books.nodup sc
  case start => exact books.start
  case fewer =>
    intro sc
    have before := books.fewer sc
    by_cases here : sc = scope
    · subst here
      have less := List.length_filter_le (fun r' => r'.member ≠ r.member) (s.reservations sc)
      simp only [State.enter, Function.update_self, same, List.length_append,
        List.length_singleton]
      omega
    · simpa only [State.enter, Function.update_of_ne here] using before
  case charged =>
    intro sc j member
    rcases order sc j member with old | ⟨rfl, rfl⟩
    · exact books.charged sc j old
    · exact ⟨amount ▸ positive, concerned⟩
  case settled =>
    intro sc j member
    have kept : ∀ r' ∈ s.reservations sc, ∃ r'' ∈ (s.enter scope alive r).reservations sc,
        r''.member = r'.member := by
      intro r' old
      by_cases here : sc = scope
      · subst here
        simp only [State.enter, Function.update_self, same]
        by_cases mine : r'.member = r.member
        · exact ⟨r, List.mem_append_right _ (List.mem_singleton_self r), mine.symm⟩
        · exact ⟨r', List.mem_append_left _ (List.mem_filter.mpr ⟨old, by simpa using mine⟩), rfl⟩
      · simp only [State.enter, Function.update_of_ne here]
        exact ⟨r', old, rfl⟩
    rcases order sc j member with old | ⟨rfl, rfl⟩
    · rcases books.settled sc j old with ⟨r', alive, rfl⟩ | settled
      · exact Or.inl (kept r' alive)
      · exact Or.inr settled
    · refine Or.inl ⟨r, ?_, rfl⟩
      simp only [State.enter, Function.update_self]
      exact List.mem_append_right _ (List.mem_singleton_self r)
  case amounts =>
    intro sc r' member
    rcases reservations sc r' member with old | rfl
    · exact books.amounts sc r' old
    · exact ⟨amount, positive⟩
  case positive => exact books.positive
  case usage => exact books.usage
  case apart => exact books.apart
  case passed =>
    intro j admitted sc concerned limited
    exact (books.passed j admitted sc concerned limited).lasts (enter_grows s) fun _ => le_rfl

/-- The new reservation has everybody else ahead. -/
theorem enter_ahead (books : Books cfg calls s₀ s) (hvals : Redis.Listing ℚ)
    (calm : (s.enter scope alive r).disturbed = false) :
    Ahead cfg calls s₀ r.member scope
      (fun window => s.usage scope window +
        shown (doubleSum (hvals.order (alive.map (·.amount)))))
      (s.enter scope alive r) := by
  refine ⟨s.order scope, ?_, fun j member => (books.charged scope j member).1,
    fun window limited => ?_⟩
  · simp only [State.enter, Function.update_self]
    exact List.prefix_refl _
  · rw [alive_of_calm calm]
    have written := le_shown hvals (books.reserved_nonneg scope)
    rw [List.length_map] at written
    have fewer := mul_le_mul_of_nonneg_right (kept_antitone (books.fewer scope))
      (List.sum_nonneg (books.reserved_nonneg scope))
    have used := mul_le_of_le_one_left (books.usage_nonneg limited)
      (kept_le_one (s.order scope).length)
    refine (mul_le_mul_of_nonneg_left (books.covered limited) (kept_nonneg _)).trans ?_
    rw [mul_add]
    dsimp only
    linarith

end Steps

/-! ### What a charge knows -/

section Facts

variable (cfg : Config) (calls : ℕ → Call) (s₀ : State) (me : ℕ)

/-- The scope, where it has limits, was reserved while so much was pending. -/
def waits (scope : Option Scope) (pending : ℚ) : Fact State :=
  ⟨fun s => s.disturbed = false → 0 ≤ pending ∧ ∀ sc ∈ scope, cfg.limited sc = true →
      Ahead cfg calls s₀ me sc (fun window => s.usage sc window + pending) s,
    fun _ _ grows holds calm => ⟨(holds (grows.calm calm)).1, fun sc member limited =>
      ((holds (grows.calm calm)).2 sc member limited).lasts grows fun window =>
        add_le_add_left (grows.usage sc window) pending⟩⟩

/-- The scope, where it has limits, was read with so much usage after the reservation. -/
def saw (scope : Scope) (pending : ℚ) (usage : Window → ℚ) : Fact State :=
  ⟨fun s => s.disturbed = false → cfg.limited scope = true → 0 ≤ pending ∧
      Ahead cfg calls s₀ me scope (fun window => usage window / unit + pending) s,
    fun _ _ grows holds calm limited => ⟨(holds (grows.calm calm) limited).1,
      (holds (grows.calm calm) limited).2.lasts grows fun _ => le_rfl⟩⟩

/-- The scope, where it has limits, has room for the charge. -/
def fits (scope : Option Scope) : Fact State :=
  ⟨fun s => s.disturbed = false → ∀ sc ∈ scope, cfg.limited sc = true →
      Ahead cfg calls s₀ me sc (left cfg calls me sc) s,
    fun _ _ grows holds calm sc member limited =>
      (holds (grows.calm calm) sc member limited).lasts grows fun _ => le_rfl⟩

/-- The charge has been billed or rejected. -/
def done : Fact State :=
  ⟨fun s => s.disturbed = false → me ∈ s.billed ∨ me ∈ s.rejected,
    fun _ _ grows holds calm =>
      (holds (grows.calm calm)).imp (fun h => grows.billed h) fun h => grows.rejected h⟩

end Facts

/-! ### The steps -/

section Owns

variable {cfg : Config} {calls : ℕ → Call} {s₀ : State} {me : ℕ} {within : List Scope}
  {F : Fact State}

theorem Part.Undecided.mono {wider : List Scope} {p : Part} (undecided : p.Undecided within)
    (subset : within ⊆ wider) : p.Undecided wider :=
  { undecided with reserved := fun scope reserved => subset (undecided.reserved scope reserved) }

variable {scope : Scope}

theorem reserveInflightScope_owns (enabled : cfg.enabled = true) (positive : 0 < (calls me).amount)
    (concerned : scope ∈ (calls me).scopes) (fresh : scope ∉ within) :
    Owns (Inv cfg calls s₀) part me (.owning (Part.Undecided within) F)
      (reserveInflightScope cfg me scope (calls me).amount)
      fun got => .owning (Part.Undecided (scope :: within))
        (F.and (waits cfg calls s₀ me (some scope) (got.getD 0))) := by
  rw [reserveInflightScope, if_pos enabled]
  refine Owns.act fun env s inv holds => ?_
  obtain ⟨undecided, fact⟩ := holds
  by_cases fails : env.fails
  · rw [if_pos fails]
    have grows : s ≤ { s with disturbed := true } :=
      ⟨fun _ => List.prefix_refl _, fun _ h => h, fun _ h => h, fun _ _ => le_rfl,
        fun calm => by cases calm⟩
    refine ⟨fun calm => ?_, grows, fun _ _ => rfl, ?_⟩
    · cases calm
    · constructor
      · exact undecided.mono (List.subset_cons_self _ _)
      · constructor
        · exact F.lasts s _ grows fact
        · intro calm
          cases calm
  · rw [if_neg fails]
    set alive := (s.reservations scope).filter (env.now < ·.expireAt)
    have notMine : me ∉ s.order scope := by
      intro mine
      exact fresh (undecided.reserved scope (decide_eq_true mine))
    refine ⟨fun calm => ?_, ?_, fun other differ => ?_, ?_, ?_, ?_⟩
    · exact enter_books (inv ((enter_grows s).calm calm)) calm notMine rfl positive concerned
    · exact enter_grows s
    · exact part_enter differ
    · refine { undecided with reserved := fun sc reserved => ?_ }
      by_cases here : sc = scope
      · exact here ▸ List.mem_cons_self
      · refine List.mem_cons_of_mem _ (undecided.reserved sc ?_)
        simpa only [part, State.enter, Function.update_of_ne here] using reserved
    · exact F.lasts s _ (enter_grows s) fact
    · intro calm
      have books := inv ((enter_grows s).calm calm)
      refine ⟨shown_nonneg (doubleSum_nonneg fun amount listed => ?_), ?_⟩
      · have listed := (env.hvals.perm _).subset listed
        rw [alive_of_calm calm] at listed
        exact books.reserved_nonneg scope amount listed
      · rintro _ ⟨rfl⟩ limited
        exact enter_ahead books env.hvals calm

theorem readUsage_owns {pending : ℚ}
    (known : ∀ s, F.holds s → (waits cfg calls s₀ me (some scope) pending).holds s) :
    Owns (Inv cfg calls s₀) part me (.owning (Part.Undecided within) F) (readUsage scope)
      fun read => .owning (Part.Undecided within)
        (F.and (.all fun usage => .when (read = some usage)
          (saw cfg calls s₀ me scope pending usage))) := by
  refine Owns.act fun env s inv holds => ⟨inv, le_rfl, fun _ _ => rfl, holds.1, holds.2, ?_⟩
  intro usage read calm limited
  by_cases fails : env.fails
  · rw [if_pos fails] at read
    cases read
  · rw [if_neg fails] at read
    cases read
    obtain ⟨nonneg, ahead⟩ := known s holds.2 calm
    refine ⟨nonneg, ?_⟩
    obtain ⟨earlier, reserved, positive, within⟩ := ahead scope rfl limited
    refine ⟨earlier, reserved, positive, fun window limit => ?_⟩
    have less := le_double ((inv calm).usage_nonneg limit)
    rw [mul_comm, ← le_div_iff₀ unit_pos] at less
    exact (within window limit).trans (add_le_add_left less pending)

/-- A check that passes has found room, now and for good. -/
theorem checkScope_owns {pending : ℚ} (charges : 0 < (calls me).amount)
    (known : ∀ s, F.holds s → (waits cfg calls s₀ me (some scope) pending).holds s) :
    Owns (Inv cfg calls s₀) part me (.owning (Part.Undecided within) F)
      (checkScope cfg scope (double ((calls me).amount + pending)))
      fun verdict => .owning (Part.Undecided within)
        (F.and (.when (verdict = none) (fits cfg calls s₀ me (some scope)))) := by
  refine Owns.bind (readUsage_owns known) fun read => ?_
  cases read with
  | none =>
      refine Owns.ret fun s holds => ⟨holds.1, holds.2.1, fun passed => ?_⟩
      cases passed
  | some usage =>
      refine Owns.ret fun s holds => ⟨holds.1, holds.2.1, fun passed => ?_⟩
      rintro calm _ ⟨rfl⟩ limited
      have passed := Option.map_eq_none_iff.mp passed
      obtain ⟨nonneg, earlier, reserved, positive, within⟩ := holds.2.2 usage rfl calm limited
      refine ⟨earlier, reserved, positive, fun window limit => (within window limit).trans ?_⟩
      have room := List.find?_eq_none.mp passed window limit.1
      have room : double (usage window + double ((calls me).amount + pending)) ≤
          cfg.limit scope window := by
        by_contra beyond
        exact room (decide_eq_true ⟨limit.2, not_le.mp beyond⟩)
      have first := le_of_double_le limit.2 room
      have second := mul_le_mul_of_nonneg_left (le_double (add_nonneg charges.le nonneg))
        unit_pos.le
      rw [left, le_sub_iff_add_le, le_div_iff₀ (pow_pos unit_pos 2)]
      calc (usage window / unit + pending + (calls me).amount) * unit ^ 2
          = unit * usage window + unit * (unit * ((calls me).amount + pending)) := by
            field_simp [unit_pos.ne']
            ring
        _ ≤ unit * usage window + unit * double ((calls me).amount + pending) := by linarith
        _ ≤ cfg.limit scope window := by linarith

/-- Deciding on a charge that has room, or against one. -/
theorem decideCharge_owns {accept : Bool}
    (known : ∀ s, F.holds s → accept = true → s.disturbed = false → ∀ scope ∈ (calls me).scopes,
      cfg.limited scope = true → Ahead cfg calls s₀ me scope (left cfg calls me scope) s) :
    Owns (Inv cfg calls s₀) part me (.owning (Part.Undecided within) F) (decideCharge me accept)
      fun _ => .owning (fun p => p.billed = false) (.when (accept = false) (done me)) := by
  refine Owns.act fun env s inv holds => ?_
  obtain ⟨undecided, fact⟩ := holds
  have notRejected : me ∉ s.rejected := of_decide_eq_false undecided.rejected
  have notAdmitted : me ∉ s.admitted := of_decide_eq_false undecided.admitted
  cases accept with
  | true =>
      simp only [if_true]
      have grows : s ≤ { s with admitted := insert me s.admitted } :=
        ⟨fun _ => List.prefix_refl _, fun _ h => h, fun _ h => h, fun _ _ => le_rfl, id⟩
      refine ⟨fun calm => ?_, grows, fun other differ => ?_, undecided.billed, ?_⟩
      · have books := inv calm
        refine { books with apart := ?_, passed := ?_ }
        · intro j member
          rcases Finset.mem_insert.mp member with rfl | before
          · exact notRejected
          · exact books.apart j before
        · intro j member scope concerned limited
          rcases Finset.mem_insert.mp member with rfl | before
          · exact (known s fact rfl calm scope concerned limited).lasts grows fun _ => le_rfl
          · exact (books.passed j before scope concerned limited).lasts grows fun _ => le_rfl
      · simp [part, differ]
      · intro impossible
        cases impossible
  | false =>
      simp only [Bool.false_eq_true, if_false]
      have grows : s ≤ { s with rejected := insert me s.rejected } :=
        ⟨fun _ => List.prefix_refl _, Finset.subset_insert _ _, fun _ h => h, fun _ _ => le_rfl, id⟩
      refine ⟨fun calm => ?_, grows, fun other differ => ?_, undecided.billed, fun _ calm => ?_⟩
      · have books := inv calm
        refine { books with settled := ?_, apart := ?_, passed := ?_ }
        · intro scope j member
          rcases books.settled scope j member with alive | billed | rejected
          · exact Or.inl alive
          · exact Or.inr (Or.inl billed)
          · exact Or.inr (Or.inr (Finset.mem_insert_of_mem rejected))
        · intro j admitted rejected
          rcases Finset.mem_insert.mp rejected with rfl | before
          · exact notAdmitted admitted
          · exact books.apart j admitted before
        · intro j admitted scope concerned limited
          exact (books.passed j admitted scope concerned limited).lasts grows fun _ => le_rfl
      · simp [part, differ]
      · exact Or.inr (Finset.mem_insert_self _ _)

theorem bills_of_limited {call : Call} {window : Window} (limited : Limited cfg scope window) :
    call.bills cfg scope window = decide (scope ∈ call.scopes) := by
  obtain ⟨isWindow, positive⟩ := limited
  unfold Call.bills
  cases window <;> simp [isWindow, positive]

theorem bill_owns (positive : 0 < (calls me).amount) :
    Owns (Inv cfg calls s₀) part me (.owning (fun p => p.billed = false) .none)
      (bill cfg me (calls me)) fun _ => .owning (fun _ => True) (done me) := by
  refine Owns.act fun env s inv holds => ?_
  have notBilled : me ∉ s.billed := of_decide_eq_false holds.1
  by_cases fails : env.fails
  · rw [if_pos fails]
    refine ⟨fun calm => ?_, ?_, fun _ _ => rfl, trivial, fun calm => ?_⟩
    · cases calm
    · exact ⟨fun _ => List.prefix_refl _, fun _ h => h, fun _ h => h, fun _ _ => le_rfl,
        fun calm => by cases calm⟩
    · cases calm
  · rw [if_neg fails]
    have nonneg := quantize_nonneg positive.le
    have grows : s ≤ { s with
        usage := fun scope window =>
          if (calls me).bills cfg scope window then
            s.usage scope window + quantize (calls me).amount
          else s.usage scope window
        billed := insert me s.billed } := by
      refine ⟨fun _ => List.prefix_refl _, fun _ h => h, Finset.subset_insert _ _,
        fun scope window => ?_, id⟩
      dsimp only
      split
      · exact le_add_of_nonneg_right nonneg
      · exact le_rfl
    refine ⟨fun calm => ?_, grows, fun other differ => ?_, trivial, fun _ => ?_⟩
    · have books := inv calm
      refine { books with settled := ?_, positive := ?_, usage := ?_, passed := ?_ }
      · intro scope j member
        rcases books.settled scope j member with alive | billed | rejected
        · exact Or.inl alive
        · exact Or.inr (Or.inl (Finset.mem_insert_of_mem billed))
        · exact Or.inr (Or.inr rejected)
      · intro j member
        rcases Finset.mem_insert.mp member with rfl | before
        · exact positive
        · exact books.positive j before
      · intro scope window limited
        have before := books.usage scope window limited
        dsimp only
        rw [bills_of_limited limited, Finset.filter_insert]
        by_cases concerned : scope ∈ (calls me).scopes
        · rw [if_pos (decide_eq_true concerned), if_pos concerned,
            Finset.sum_insert fun member => notBilled (Finset.mem_filter.mp member).1]
          linarith
        · rw [if_neg (by simpa using concerned), if_neg concerned]
          exact before
      · intro j admitted scope concerned limited
        exact (books.passed j admitted scope concerned limited).lasts grows fun _ => le_rfl
    · simp [part, differ]
    · exact Or.inl (Finset.mem_insert_self _ _)

/-- A scope is released by a charge that was billed or rejected. -/
theorem releaseInflightScope_owns :
    Owns (Inv cfg calls s₀) part me (.owning (fun _ => True) (done me))
      (releaseInflightScope me scope) fun _ => .owning (fun _ => True) (done me) := by
  refine Owns.act fun env s inv holds => ?_
  by_cases fails : env.fails
  · rw [if_pos fails]
    exact ⟨inv, le_rfl, fun _ _ => rfl, holds⟩
  · rw [if_neg fails]
    refine ⟨fun calm => ?_, ?_, fun _ _ => rfl, holds⟩
    · have books := inv calm
      have kept : ∀ sc, ∀ r ∈ s.reservations sc, r.member ≠ me →
          r ∈ Function.update s.reservations scope
            ((s.reservations scope).filter (·.member ≠ me)) sc := by
        intro sc r alive other
        by_cases here : sc = scope
        · subst here
          rw [Function.update_self]
          exact List.mem_filter.mpr ⟨alive, decide_eq_true other⟩
        · rw [Function.update_of_ne here]
          exact alive
      refine { books with fewer := ?_, settled := ?_, amounts := ?_, passed := ?_ }
      · intro sc
        have before := books.fewer sc
        by_cases here : sc = scope
        · subst here
          simp only [Function.update_self]
          exact (List.length_filter_le _ _).trans before
        · simpa only [Function.update_of_ne here] using before
      · intro sc j member
        by_cases mine : j = me
        · subst mine
          exact Or.inr (holds.2 calm)
        · rcases books.settled sc j member with ⟨r, alive, rfl⟩ | settled
          · exact Or.inl ⟨r, kept sc r alive mine, rfl⟩
          · exact Or.inr settled
      · intro sc r member
        by_cases here : sc = scope
        · subst here
          simp only [Function.update_self] at member
          exact books.amounts sc r (List.mem_filter.mp member).1
        · simp only [Function.update_of_ne here] at member
          exact books.amounts sc r member
      · exact books.passed
    · exact ⟨fun _ => List.prefix_refl _, fun _ h => h, fun _ h => h, fun _ _ => le_rfl, id⟩

theorem release_owns {scopes : List Scope} :
    Owns (Inv cfg calls s₀) part me (.owning (fun _ => True) (done me)) (release me scopes)
      fun _ => .owning (fun _ => True) (done me) := by
  induction scopes with
  | nil => exact .ret fun _ holds => holds
  | cons scope rest ih => exact Owns.bind releaseInflightScope_owns fun _ => ih

/-! ### The charge -/

theorem reserveLimited_owns (enabled : cfg.enabled = true) {scope : Option Scope}
    (positive : 0 < (calls me).amount) (concerned : ∀ sc ∈ scope, sc ∈ (calls me).scopes)
    (fresh : ∀ sc ∈ scope, sc ∉ within) :
    Owns (Inv cfg calls s₀) part me (.owning (Part.Undecided within) F)
      (reserveLimited cfg me scope (calls me).amount)
      fun got => .owning (Part.Undecided (scope.toList ++ within))
        (F.and (waits cfg calls s₀ me scope got.1)) := by
  cases scope with
  | none =>
      refine Owns.ret fun s holds => ⟨holds.1, holds.2, fun _ => ⟨le_rfl, fun _ member => ?_⟩⟩
      cases member
  | some scope =>
      unfold reserveLimited
      dsimp only
      split
      · rename_i limited
        refine Owns.bind (reserveInflightScope_owns enabled positive (concerned scope rfl)
          (fresh scope rfl)) fun got => ?_
        cases got with
        | none => exact .ret fun _ holds => holds
        | some pending => exact .ret fun _ holds => holds
      · rename_i unlimited
        refine Owns.ret fun s holds => ⟨holds.1.mono (List.subset_cons_self _ _), holds.2, ?_⟩
        refine fun _ => ⟨le_rfl, ?_⟩
        rintro _ ⟨rfl⟩ limited
        exact absurd limited unlimited

theorem checkFixedChargeAPIKey_owns {id : ℤ} {pending : ℚ} (charges : 0 < (calls me).amount)
    (known : ∀ s, F.holds s → (waits cfg calls s₀ me (some (.apiKey id)) pending).holds s) :
    Owns (Inv cfg calls s₀) part me (.owning (Part.Undecided within) F)
      (checkFixedChargeAPIKey cfg id (double ((calls me).amount + pending)))
      fun verdict => .owning (Part.Undecided within)
        (F.and (.when (verdict = none) (fits cfg calls s₀ me (some (.apiKey id))))) := by
  unfold checkFixedChargeAPIKey
  split
  · exact checkScope_owns charges known
  · rename_i unlimited
    refine Owns.ret fun s holds => ⟨holds.1, holds.2, ?_⟩
    rintro _ calm _ ⟨rfl⟩ limited
    exact absurd limited unlimited

/-- A call that passes its checks has room in all its scopes. -/
theorem checkCall_owns {first second : ℚ} (charges : 0 < (calls me).amount)
    (known : ∀ s, F.holds s →
      (waits cfg calls s₀ me ((calls me).subscription.map .subscription) first).holds s ∧
        (waits cfg calls s₀ me ((calls me).apiKey.map .apiKey) second).holds s) :
    Owns (Inv cfg calls s₀) part me (.owning (Part.Undecided within) F)
      (checkCall cfg (calls me) first second)
      fun verdict => .owning (Part.Undecided within) (.when (verdict = none)
        ((fits cfg calls s₀ me ((calls me).subscription.map .subscription)).and
          (fits cfg calls s₀ me ((calls me).apiKey.map .apiKey)))) := by
  have subscription : Owns (Inv cfg calls s₀) part me (.owning (Part.Undecided within) F)
      (checkBilledSubscription cfg (calls me) first)
      fun verdict => .owning (Part.Undecided within) (F.and (.when (verdict = none)
        (fits cfg calls s₀ me ((calls me).subscription.map .subscription)))) := by
    unfold checkBilledSubscription
    cases isSub : (calls me).subscription with
    | none =>
        refine Owns.ret fun s holds => ⟨holds.1, holds.2, fun _ _ _ member => ?_⟩
        cases member
    | some id =>
        rw [isSub] at known
        exact checkScope_owns charges fun s fact => (known s fact).1
  refine Owns.bind subscription fun verdict => ?_
  cases verdict with
  | some err =>
      refine Owns.ret fun s holds => ⟨holds.1, fun passed => ?_⟩
      cases passed
  | none =>
      cases isKey : (calls me).apiKey with
      | none =>
          refine Owns.ret fun s holds => ⟨holds.1, fun _ => ⟨holds.2.2 rfl, ?_⟩⟩
          intro _ _ member
          cases member
      | some id =>
          rw [isKey] at known
          have apiKey : Owns (Inv cfg calls s₀) part me
              (.owning (Part.Undecided within) (F.and (.when ((none : Option ReserveError) = none)
                (fits cfg calls s₀ me ((calls me).subscription.map .subscription)))))
              (checkFixedChargeAPIKey cfg id (double ((calls me).amount + second))) _ :=
            checkFixedChargeAPIKey_owns charges fun s fact => (known s fact.1).2
          refine apiKey.mono (fun _ holds => holds) fun verdict s holds => ?_
          exact ⟨holds.1, fun passed => ⟨holds.2.1.2 rfl, holds.2.2 passed⟩⟩

theorem scopes_cases {call : Call} (concerned : scope ∈ call.scopes) :
    scope ∈ call.subscription.map Scope.subscription ∨ scope ∈ call.apiKey.map Scope.apiKey := by
  simpa [Call.scopes] using concerned

theorem reserveFixedCharge_owns (enabled : cfg.enabled = true)
    (positive : 0 < (calls me).amount) :
    Owns (Inv cfg calls s₀) part me (.owning (Part.Undecided []) .none)
      (reserveFixedCharge cfg me (calls me))
      fun reserved => .owning (fun p => reserved.isOk = true → p.billed = false) .none := by
  unfold reserveFixedCharge
  have balance : Owns (Inv cfg calls s₀) part me (.owning (Part.Undecided []) .none)
      (checkBalance (calls me)) fun _ => .owning (Part.Undecided []) .none := by
    unfold checkBalance
    cases (calls me).subscription with
    | none => exact Owns.ask
    | some id => exact .ret fun _ holds => holds
  refine Owns.bind balance fun answer => ?_
  cases answer with
  | some err => exact .ret fun _ holds => ⟨fun _ => holds.1.billed, trivial⟩
  | none =>
      refine Owns.bind (reserveLimited_owns enabled positive ?_ ?_) fun subscription => ?_
      · intro scope member
        simpa [Call.scopes] using Or.inl member
      · intro scope _
        exact List.not_mem_nil
      refine Owns.bind (reserveLimited_owns enabled positive ?_ ?_) fun apiKey => ?_
      · intro scope member
        simpa [Call.scopes] using Or.inr member
      · intro scope isKey member
        obtain ⟨id, _, rfl⟩ := Option.mem_map.mp isKey
        simp at member
      refine Owns.bind (checkCall_owns positive fun s fact => ⟨fact.1.2, fact.2⟩) fun verdict => ?_
      refine Owns.bind (decideCharge_owns fun s fact accept calm scope concerned limited => ?_)
        fun _ => ?_
      · obtain ⟨fitsSub, fitsKey⟩ := fact (Option.isNone_iff_eq_none.mp accept)
        rcases scopes_cases concerned with isSub | isKey
        · exact fitsSub calm scope isSub limited
        · exact fitsKey calm scope isKey limited
      cases verdict with
      | none => exact .ret fun _ holds => ⟨fun _ => holds.1, trivial⟩
      | some err =>
          refine Owns.bind (release_owns.mono (fun _ holds => ⟨trivial, holds.2 rfl⟩)
            fun _ _ holds => holds) fun _ => ?_
          refine Owns.ret fun _ _ => ⟨fun impossible => ?_, trivial⟩
          cases impossible

theorem program_owns (enabled : cfg.enabled = true) :
    Owns (Inv cfg calls s₀) part me (.owning (Part.Undecided []) .none)
      ((calls me).program cfg me) fun _ => .owning (fun _ => True) .none := by
  unfold Call.program
  split
  · exact .ret fun _ _ => ⟨trivial, trivial⟩
  · rename_i positive
    have positive := lt_of_not_ge positive
    refine Owns.bind (reserveFixedCharge_owns enabled positive) fun reserved => ?_
    cases reserved with
    | error err => exact .ret fun _ _ => ⟨trivial, trivial⟩
    | ok scopes =>
        refine Owns.bind ((bill_owns positive).mono (fun _ holds => ⟨holds.1 rfl, trivial⟩)
          fun _ _ holds => holds) fun _ => ?_
        exact release_owns.mono (fun _ holds => holds) fun _ _ _ => ⟨trivial, trivial⟩

end Owns

/-! ### Every run -/

namespace Sample

def scope : Scope := .subscription 1

/-- A subscription with a daily limit. -/
def cfg (limit : ℚ) : Config :=
  { limit := fun sc window => if sc = scope ∧ window = .daily then limit else 0 }

def calls (amount : ℚ) : ℕ → Call := fun _ => { subscription := some 1, amount := amount }

/-- Both charges reserve before either reads. -/
def concurrent : List (ℕ × Env) :=
  [(0, {}), (1, {}), (0, {}), (1, {}), (0, {}), (1, {}), (0, {}), (1, {}), (0, {}), (1, {})]

/-- Three charges, each from its reservation to its release before the next. -/
def inTurn : List (ℕ × Env) := [0, 1, 2].flatMap fun me => List.replicate 5 (me, {})

/-- The state after a schedule, from a usage and with charges of one amount under one limit. -/
def after (limit amount usage : ℚ) (schedule : List (ℕ × Env)) : State :=
  (run (cfg limit) (calls amount) { usage := fun _ _ => usage } schedule).shared

/-- The initial usage and the admitted amounts. -/
def total (limit amount usage : ℚ) (schedule : List (ℕ × Env)) : ℚ :=
  usage + ∑ me ∈ (after limit amount usage schedule).admittedOn (calls amount) scope,
    (calls amount me).amount

end Sample

end Sub2api.FixedCharge
