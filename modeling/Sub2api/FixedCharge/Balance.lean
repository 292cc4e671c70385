import Sub2api.FixedCharge.Limits

/-!
# Fixed charges on a balance

In balance mode a charge reads the balance twice, the second time for the script that reserves;
the script refuses by the balance it is given, and where nothing else is reserved it refuses
nothing. The balance in the cache is the account's. `entered`, `left`, `admitted`, `rejected`,
`billed`, `disturbed` and `short` are history; `short` tells that the script has admitted what the
balance of that moment did not cover.

* `reserveInflightBalance_owns` — a reservation that the balance covers keeps the account;
* `fixed_charges_within_balance` — over every run in which no reservation was short;
* `fixed_charges_exceed_balance` — a charge that is billed between another's read and its script.
-/

namespace Sub2api.FixedCharge.Balance

open Database
open Interleave

structure State where
  balance : ℚ
  reservations : List Reservation := []
  entered : Finset ℕ := ∅
  left : Finset ℕ := ∅
  admitted : Finset ℕ := ∅
  rejected : Finset ℕ := ∅
  billed : Finset ℕ := ∅
  /-- A reservation has expired, or a read for it, a reserving or a billing call has failed. -/
  disturbed : Bool := false
  short : Bool := false

structure Env where
  fails : Bool := false
  now : ℤ := 0
  /-- What the checks of the API key answer. -/
  apiKey : Option ReserveError := none

abbrev Op (α : Type) := Prog State Env α

/-! ### The steps -/

/-- `GetUserBalance`. -/
def getUserBalance : Op (Option ℚ) :=
  .atomic fun env s => (if env.fails then none else some s.balance, s)

/-- The rule of the script: without other reservations everything is let through. -/
def allows (alive : List Reservation) (balance amount : ℚ) : Bool :=
  alive.isEmpty || decide (amount ≤ balance - (alive.map (·.amount)).sum)

/-- A reservation is entered beside these, which are alive. -/
def State.enter (s : State) (alive : List Reservation) (r : Reservation) : State :=
  { s with
    reservations := alive.filter (·.member ≠ r.member) ++ [r]
    entered := insert r.member s.entered
    disturbed := s.disturbed || decide (alive ≠ s.reservations)
    short := s.short || decide (s.balance < (alive.map (·.amount)).sum + r.amount) }

/-- `ReserveInflightBalance`, with the balance that the caller has read. -/
def reserveInflightBalance (cfg : Config) (me : ℕ) (amount balance : ℚ) : Op (Option Bool) :=
  .atomic fun env s =>
    if env.fails then (none, { s with disturbed := true })
    else
      let alive := s.reservations.filter (env.now < ·.expireAt)
      if allows alive balance amount then
        (some true, s.enter alive
          { member := me, amount := amount, expireAt := env.now + max 1 cfg.ttlMs })
      else (some false, { s with
        reservations := alive
        disturbed := s.disturbed || decide (alive ≠ s.reservations) })

/-- `ReleaseInflightBalance`. -/
def releaseInflightBalance (me : ℕ) : Op Unit :=
  .atomic fun env s =>
    if env.fails then ((), s)
    else
      ((), { s with
        reservations := s.reservations.filter (·.member ≠ me)
        left := insert me s.left })

/-- A failed read for the reservation admits without one. -/
def readForReservation : Op (Option ℚ) :=
  .atomic fun env s =>
    if env.fails then (none, { s with disturbed := true }) else (some s.balance, s)

/-- `reserveInflight`: whether the charge goes on, and whether it holds a reservation. -/
def reserveInflight (cfg : Config) (me : ℕ) (amount : ℚ) : Op (Except ReserveError Bool) :=
  if cfg.enabled then do
    let balance ← readForReservation
    match balance with
    | none => pure (.ok false)
    | some balance => do
      let allowed ← reserveInflightBalance cfg me amount balance
      match allowed with
      | none => pure (.ok false)
      | some false => pure (.error .insufficientBalance)
      | some true => pure (.ok true)
  else pure (.ok false)

/-- History: what became of the charge. -/
def decideCharge (me : ℕ) (accept : Bool) : Op Unit :=
  .atomic fun _ s => ((), if accept then { s with admitted := insert me s.admitted }
    else { s with rejected := insert me s.rejected })

def release (me : ℕ) (reserved : Bool) : Op Unit :=
  if reserved then releaseInflightBalance me else pure ()

/-- `ReserveFixedCharge` in balance mode: an error, or whether the handle holds a reservation. -/
def reserveFixedCharge (cfg : Config) (me : ℕ) (amount : ℚ) : Op (Except ReserveError Bool) := do
  let balance ← getUserBalance
  match balance with
  | none => pure (.error .billingServiceUnavailable)
  | some balance =>
    if balance < amount then pure (.error .insufficientBalance)
    else do
      let reserved ← reserveInflight cfg me amount
      match reserved with
      | .error err => pure (.error err)
      | .ok reserved => do
        let verdict ← Prog.ask fun env : Env => env.apiKey
        decideCharge me verdict.isNone
        match verdict with
        | some err => do
          release me reserved
          pure (.error err)
        | none => pure (.ok reserved)

/-- The billing transaction takes the quantized amount, whatever is left. -/
def bill (me : ℕ) (amount : ℚ) : Op Unit :=
  .atomic fun env s =>
    if env.fails then ((), { s with disturbed := true })
    else ((), { s with balance := s.balance - quantize amount, billed := insert me s.billed })

/-- A fixed charge from its reservation to its release. -/
def charge (cfg : Config) (me : ℕ) (amount : ℚ) : Op Unit :=
  if amount ≤ 0 then pure ()
  else do
    let reserved ← reserveFixedCharge cfg me amount
    match reserved with
    | .error _ => pure ()
    | .ok reserved => do
      bill me amount
      release me reserved

/-- The pool of all charges after a schedule of turns. -/
def run (cfg : Config) (amounts : ℕ → ℚ) (s : State) (schedule : List (ℕ × Env)) :
    Pool ℕ (Op Unit) State :=
  Pool.run Prog.step schedule { shared := s, threads := fun me => charge cfg me (amounts me) }

/-! ### The account -/

/-- What history tells of one charge, and only it can change. -/
structure Part where
  left : Bool
  admitted : Bool
  billed : Bool
  rejected : Bool

def part (s : State) (me : ℕ) : Part where
  left := decide (me ∈ s.left)
  admitted := decide (me ∈ s.admitted)
  billed := decide (me ∈ s.billed)
  rejected := decide (me ∈ s.rejected)

structure Part.Undecided (p : Part) : Prop where
  left : p.left = false
  admitted : p.admitted = false
  billed : p.billed = false
  rejected : p.rejected = false

structure Extends (s s' : State) : Prop where
  entered : s.entered ⊆ s'.entered
  billed : s.billed ⊆ s'.billed
  rejected : s.rejected ⊆ s'.rejected
  calm : s'.disturbed = false → s.disturbed = false
  covered : s'.short = false → s.short = false

instance : Preorder State where
  le := Extends
  le_refl s := ⟨fun _ h => h, fun _ h => h, fun _ h => h, id, id⟩
  le_trans _ _ _ first second :=
    ⟨first.entered.trans second.entered, first.billed.trans second.billed,
      first.rejected.trans second.rejected, fun calm => first.calm (second.calm calm),
      fun covered => first.covered (second.covered covered)⟩

/-- Nothing has disturbed the run, and no reservation was short. -/
structure Clean (s : State) : Prop where
  calm : s.disturbed = false
  covered : s.short = false

theorem Clean.before {s s' : State} (grows : s ≤ s') (clean : Clean s') : Clean s :=
  ⟨grows.calm clean.calm, grows.covered clean.covered⟩

/-- The reservations of charges that have not been billed. -/
def pending (s : State) : List Reservation := s.reservations.filter (·.member ∉ s.billed)

/-- What the billed and the pending charges come to. -/
def committed (amounts : ℕ → ℚ) (s : State) : ℚ :=
  ∑ j ∈ s.billed, counted (amounts j) + ((pending s).map (·.amount)).sum

structure Books (amounts : ℕ → ℚ) (initial : ℚ) (s : State) : Prop where
  sizes : ∀ r ∈ s.reservations, r.amount = amounts r.member ∧ 0 < r.amount
  positive : ∀ j ∈ s.billed, 0 < amounts j
  balance : s.balance = initial - ∑ j ∈ s.billed, quantize (amounts j)
  /-- A charge that has entered and not left is reserved. -/
  alive : ∀ j ∈ s.entered, j ∉ s.left → ∃ r ∈ s.reservations, r.member = j
  settled : ∀ j ∈ s.admitted, j ∈ s.billed ∨ ∃ r ∈ s.reservations, r.member = j
  apart : ∀ j ∈ s.admitted, j ∉ s.rejected
  bound : s.billed.Nonempty ∨ s.reservations ≠ [] → committed amounts s ≤ initial

def Inv (amounts : ℕ → ℚ) (initial : ℚ) (s : State) : Prop := Clean s → Books amounts initial s

section Account

variable {amounts : ℕ → ℚ} {initial : ℚ} {s : State}

/-- Billed charges have taken at least what they count. -/
theorem Books.balance_le (books : Books amounts initial s) :
    s.balance + ∑ j ∈ s.billed, counted (amounts j) ≤ initial := by
  have less : ∑ j ∈ s.billed, counted (amounts j) ≤ ∑ j ∈ s.billed, quantize (amounts j) :=
    Finset.sum_le_sum fun j _ => min_le_right _ _
  have balance := books.balance
  linarith

theorem pending_covers_members (books : Books amounts initial s) :
    ∑ j ∈ ((pending s).map (·.member)).toFinset, counted (amounts j) ≤
      ((pending s).map (·.amount)).sum :=
  @pending_covers (fun j => { amount := amounts j }) (pending s) fun r member =>
    books.sizes r (List.mem_filter.mp member).1

/-- The admitted charges are among the billed and the pending ones. -/
theorem Books.admitted_le (books : Books amounts initial s)
    (starts : s.admitted.Nonempty ∨ 0 ≤ initial) :
    ∑ j ∈ s.admitted, counted (amounts j) ≤ initial := by
  rcases s.admitted.eq_empty_or_nonempty with none | ⟨one, isAdmitted⟩
  · rcases starts with some | nonneg
    · exact absurd none some.ne_empty
    · rw [none, Finset.sum_empty]
      exact nonneg
  · have some : s.billed.Nonempty ∨ s.reservations ≠ [] := by
      rcases books.settled one isAdmitted with billed | ⟨r, member, _⟩
      · exact Or.inl ⟨one, billed⟩
      · exact Or.inr (List.ne_nil_of_mem member)
    have among : s.admitted ⊆ s.billed ∪ ((pending s).map (·.member)).toFinset := by
      intro j admitted
      by_cases billed : j ∈ s.billed
      · exact Finset.mem_union_left _ billed
      · rcases books.settled j admitted with isBilled | ⟨r, member, rfl⟩
        · exact absurd isBilled billed
        · refine Finset.mem_union_right _ (List.mem_toFinset.mpr (List.mem_map_of_mem ?_))
          exact List.mem_filter.mpr ⟨member, decide_eq_true billed⟩
    have memberPos : ∀ j ∈ ((pending s).map (·.member)).toFinset, 0 < amounts j := by
      intro j member
      obtain ⟨r, isPending, rfl⟩ := List.mem_map.mp (List.mem_toFinset.mp member)
      obtain ⟨same, positive⟩ := books.sizes r (List.mem_filter.mp isPending).1
      rwa [same] at positive
    have total : ∑ j ∈ s.admitted, counted (amounts j) ≤ ∑ j ∈ s.billed, counted (amounts j) +
        ∑ j ∈ ((pending s).map (·.member)).toFinset, counted (amounts j) :=
      sum_le_of_subset_union among (fun j member => counted_nonneg (books.positive j member).le)
        fun j member => counted_nonneg (memberPos j member).le
    have covers := pending_covers_members books
    have bound := books.bound some
    unfold committed at bound
    linarith

/-- The sum over a sublist of reservations. -/
theorem sum_filter_le {reservations : List Reservation} (keep : Reservation → Bool)
    (nonneg : ∀ r ∈ reservations, 0 ≤ r.amount) :
    ((reservations.filter keep).map (·.amount)).sum ≤ (reservations.map (·.amount)).sum := by
  induction reservations with
  | nil => exact le_rfl
  | cons r rest ih =>
      have tail := ih fun r' member => nonneg r' (List.mem_cons_of_mem _ member)
      have head := nonneg r List.mem_cons_self
      rw [List.filter_cons]
      split
      · simp only [List.map_cons, List.sum_cons]
        linarith
      · simp only [List.map_cons, List.sum_cons]
        linarith

/-- Without one of its members the sum is less by that member's amount at least. -/
theorem sum_filter_add_le {reservations : List Reservation} {keep : Reservation → Bool}
    {r : Reservation} (nonneg : ∀ r ∈ reservations, 0 ≤ r.amount) (member : r ∈ reservations)
    (dropped : keep r = false) :
    ((reservations.filter keep).map (·.amount)).sum + r.amount ≤
      (reservations.map (·.amount)).sum := by
  induction reservations with
  | nil => cases member
  | cons head rest ih =>
      have later : ∀ r ∈ rest, 0 ≤ r.amount := fun r' isIn => nonneg r' (List.mem_cons_of_mem _ isIn)
      rcases List.mem_cons.mp member with rfl | isLater
      · rw [List.filter_cons, if_neg (by simp [dropped])]
        have tail := sum_filter_le keep later
        simp only [List.map_cons, List.sum_cons]
        linarith
      · have tail := ih later isLater
        have isHead := nonneg head List.mem_cons_self
        rw [List.filter_cons]
        split
        · simp only [List.map_cons, List.sum_cons]
          linarith
        · simp only [List.map_cons, List.sum_cons]
          linarith

theorem Books.nonneg (books : Books amounts initial s) : ∀ r ∈ s.reservations, 0 ≤ r.amount :=
  fun r member => (books.sizes r member).2.le

theorem Books.nonneg_pending (books : Books amounts initial s) :
    ∀ r ∈ pending s, 0 ≤ r.amount :=
  fun r member => books.nonneg r (List.mem_filter.mp member).1

/-! ### A new reservation -/

variable {r : Reservation} {alive : List Reservation}

theorem enter_grows (s : State) : s ≤ s.enter alive r :=
  ⟨Finset.subset_insert _ _, fun _ h => h, fun _ h => h,
    fun calm => (Bool.or_eq_false_iff.mp calm).1,
    fun covered => (Bool.or_eq_false_iff.mp covered).1⟩

theorem alive_of_calm (calm : (s.enter alive r).disturbed = false) : alive = s.reservations := by
  have same := (Bool.or_eq_false_iff.mp calm).2
  rwa [decide_eq_false_iff_not, not_not] at same

theorem covered_of_enter (covered : (s.enter alive r).short = false) :
    (alive.map (·.amount)).sum + r.amount ≤ s.balance := by
  have enough := (Bool.or_eq_false_iff.mp covered).2
  rwa [decide_eq_false_iff_not, not_lt] at enough

theorem enter_books (books : Books amounts initial s) (clean : Clean (s.enter alive r))
    (amount : r.amount = amounts r.member) (positive : 0 < r.amount) :
    Books amounts initial (s.enter alive r) := by
  have same := alive_of_calm clean.calm
  have kept : ∀ r' ∈ s.reservations, ∃ r'' ∈ (s.enter alive r).reservations,
      r''.member = r'.member := by
    intro r' old
    by_cases mine : r'.member = r.member
    · exact ⟨r, List.mem_append_right _ (List.mem_singleton_self r), mine.symm⟩
    · refine ⟨r', List.mem_append_left _ (List.mem_filter.mpr ⟨same ▸ old, ?_⟩), rfl⟩
      exact decide_eq_true mine
  have sizes : ∀ r' ∈ (s.enter alive r).reservations, r'.amount = amounts r'.member ∧
      0 < r'.amount := by
    intro r' member
    rcases List.mem_append.mp member with old | new
    · exact books.sizes r' (same ▸ (List.mem_filter.mp old).1)
    · rw [List.mem_singleton.mp new]
      exact ⟨amount, positive⟩
  constructor
  case sizes => exact sizes
  case positive => exact books.positive
  case balance => exact books.balance
  case alive =>
    intro j entered here
    rcases Finset.mem_insert.mp entered with rfl | before
    · exact ⟨r, List.mem_append_right _ (List.mem_singleton_self r), rfl⟩
    · obtain ⟨r', member, rfl⟩ := books.alive j before here
      exact kept r' member
  case settled =>
    intro j admitted
    rcases books.settled j admitted with billed | ⟨r', member, rfl⟩
    · exact Or.inl billed
    · exact Or.inr (kept r' member)
  case apart => exact books.apart
  case bound =>
    intro _
    have others : ((alive.filter (·.member ≠ r.member)).map (·.amount)).sum ≤
        (alive.map (·.amount)).sum :=
      sum_filter_le _ fun r' member => books.nonneg r' (same ▸ member)
    have some : ((pending (s.enter alive r)).map (·.amount)).sum ≤
        ((s.enter alive r).reservations.map (·.amount)).sum :=
      sum_filter_le _ fun r' member => (sizes r' member).2.le
    have all : ((s.enter alive r).reservations.map (·.amount)).sum =
        ((alive.filter (·.member ≠ r.member)).map (·.amount)).sum + r.amount := by
      simp [State.enter]
    have room := covered_of_enter clean.covered
    have spent := books.balance_le
    have unbilled : (s.enter alive r).billed = s.billed := rfl
    rw [committed, unbilled]
    linarith

end Account

/-! ### What a charge knows -/

section Facts

variable (me : ℕ)

/-- The charge goes on with its reservation, or something has disturbed the run. -/
def entered (reserved : Bool) : Fact State :=
  ⟨fun s => s.disturbed = false → reserved = true ∧ me ∈ s.entered,
    fun _ _ grows holds calm =>
      (holds (grows.calm calm)).imp_right fun h => grows.entered h⟩

/-- The charge has been billed or rejected. -/
def done : Fact State :=
  ⟨fun s => s.disturbed = false → me ∈ s.billed ∨ me ∈ s.rejected,
    fun _ _ grows holds calm =>
      (holds (grows.calm calm)).imp (fun h => grows.billed h) fun h => grows.rejected h⟩

end Facts

/-! ### The steps -/

/-- A charge that has not been billed and has not left. -/
structure Part.Open (p : Part) : Prop where
  left : p.left = false
  billed : p.billed = false

section Owns

variable {cfg : Config} {amounts : ℕ → ℚ} {initial : ℚ} {me : ℕ} {F : Fact State}

theorem disturbed_grows (s : State) : s ≤ { s with disturbed := true } :=
  ⟨fun _ h => h, fun _ h => h, fun _ h => h, fun calm => (by cases calm), id⟩

theorem inv_disturbed (s : State) : Inv amounts initial { s with disturbed := true } := by
  intro clean
  cases clean.calm

theorem getUserBalance_owns {p : Part → Prop} :
    Owns (Inv amounts initial) part me (.owning p F) getUserBalance fun _ => .owning p F :=
  Owns.act fun _ _ inv holds => ⟨inv, le_rfl, fun _ _ => rfl, holds⟩

theorem readForReservation_owns :
    Owns (Inv amounts initial) part me (.owning Part.Undecided .none) readForReservation
      fun balance => .owning Part.Undecided (.when (balance = none) (entered me false)) := by
  refine Owns.act fun env s inv holds => ?_
  by_cases fails : env.fails
  · rw [if_pos fails]
    refine ⟨inv_disturbed s, disturbed_grows s, fun _ _ => rfl, holds.1, fun _ calm => ?_⟩
    cases calm
  · rw [if_neg fails]
    refine ⟨inv, le_rfl, fun _ _ => rfl, holds.1, fun none => ?_⟩
    cases none

/-- A reservation that the balance covers keeps the account. -/
theorem reserveInflightBalance_owns {balance : ℚ} (positive : 0 < amounts me) :
    Owns (Inv amounts initial) part me (.owning Part.Undecided .none)
      (reserveInflightBalance cfg me (amounts me) balance)
      fun allowed => .owning Part.Undecided
        (.when (allowed ≠ some false) (entered me allowed.isSome)) := by
  refine Owns.act fun env s inv holds => ?_
  by_cases fails : env.fails
  · rw [if_pos fails]
    refine ⟨inv_disturbed s, disturbed_grows s, fun _ _ => rfl, holds.1, fun _ calm => ?_⟩
    cases calm
  · rw [if_neg fails]
    dsimp only
    split
    · refine ⟨fun clean => ?_, enter_grows s, fun _ _ => rfl, holds.1, fun _ _ => ?_⟩
      · exact enter_books (inv (clean.before (enter_grows s))) clean rfl positive
      · exact ⟨rfl, Finset.mem_insert_self _ _⟩
    · set alive := s.reservations.filter (env.now < ·.expireAt)
      refine ⟨fun clean => ?_, ?_, fun _ _ => rfl, holds.1, fun refused => ?_⟩
      · obtain ⟨calm, same⟩ := Bool.or_eq_false_iff.mp clean.calm
        rw [decide_eq_false_iff_not, not_not] at same
        have books := inv ⟨calm, clean.covered⟩
        rw [same]
        exact { books with }
      · exact ⟨fun _ h => h, fun _ h => h, fun _ h => h,
          fun calm => (Bool.or_eq_false_iff.mp calm).1, id⟩
      · exact absurd rfl refused

theorem reserveInflight_owns (enabled : cfg.enabled = true) (positive : 0 < amounts me) :
    Owns (Inv amounts initial) part me (.owning Part.Undecided .none)
      (reserveInflight cfg me (amounts me))
      fun reserved => .owning Part.Undecided
        (.all fun goes => .when (reserved = .ok goes) (entered me goes)) := by
  rw [reserveInflight, if_pos enabled]
  refine Owns.bind readForReservation_owns fun balance => ?_
  cases balance with
  | none =>
      refine Owns.ret fun s holds => ⟨holds.1, fun goes same => ?_⟩
      cases same
      exact holds.2 rfl
  | some balance =>
      refine Owns.bind ((reserveInflightBalance_owns positive).mono
        (fun _ holds => ⟨holds.1, trivial⟩) fun _ _ holds => holds) fun allowed => ?_
      match allowed with
      | none =>
          refine Owns.ret fun s holds => ⟨holds.1, fun goes same => ?_⟩
          cases same
          exact holds.2 (by simp)
      | some false =>
          refine Owns.ret fun s holds => ⟨holds.1, fun goes same => ?_⟩
          cases same
      | some true =>
          refine Owns.ret fun s holds => ⟨holds.1, fun goes same => ?_⟩
          cases same
          exact holds.2 (by simp)

theorem decideCharge_owns {accept reserved : Bool} :
    Owns (Inv amounts initial) part me (.owning Part.Undecided (entered me reserved))
      (decideCharge me accept)
      fun _ => .owning Part.Open
        ((entered me reserved).and (.when (accept = false) (done me))) := by
  refine Owns.act fun env s inv holds => ?_
  obtain ⟨undecided, fact⟩ := holds
  have notRejected : me ∉ s.rejected := of_decide_eq_false undecided.rejected
  have notAdmitted : me ∉ s.admitted := of_decide_eq_false undecided.admitted
  have notLeft : me ∉ s.left := of_decide_eq_false undecided.left
  cases accept with
  | true =>
      simp only [if_true]
      refine ⟨fun clean => ?_, ⟨fun _ h => h, fun _ h => h, fun _ h => h, id, id⟩,
        fun other differ => ?_, ⟨undecided.left, undecided.billed⟩, fact, ?_⟩
      · have books := inv ⟨clean.calm, clean.covered⟩
        refine { books with settled := ?_, apart := ?_ }
        · intro j member
          rcases Finset.mem_insert.mp member with rfl | before
          · exact Or.inr (books.alive j (fact clean.calm).2 notLeft)
          · exact books.settled j before
        · intro j member
          rcases Finset.mem_insert.mp member with rfl | before
          · exact notRejected
          · exact books.apart j before
      · simp [part, differ]
      · intro impossible
        cases impossible
  | false =>
      simp only [Bool.false_eq_true, if_false]
      refine ⟨fun clean => ?_, ⟨fun _ h => h, fun _ h => h, Finset.subset_insert _ _, id, id⟩,
        fun other differ => ?_, ⟨undecided.left, undecided.billed⟩, fact, fun _ _ => ?_⟩
      · have books := inv ⟨clean.calm, clean.covered⟩
        refine { books with apart := ?_ }
        intro j admitted rejected
        rcases Finset.mem_insert.mp rejected with rfl | before
        · exact notAdmitted admitted
        · exact books.apart j admitted before
      · simp [part, differ]
      · exact Or.inr (Finset.mem_insert_self _ _)

/-- Billing moves the charge from the pending ones to the billed ones. -/
theorem bill_owns {reserved : Bool} :
    Owns (Inv amounts initial) part me (.owning Part.Open (entered me reserved))
      (bill me (amounts me)) fun _ => .owning (fun _ => True) (done me) := by
  refine Owns.act fun env s inv holds => ?_
  obtain ⟨isOpen, fact⟩ := holds
  have notBilled : me ∉ s.billed := of_decide_eq_false isOpen.billed
  have notLeft : me ∉ s.left := of_decide_eq_false isOpen.left
  by_cases fails : env.fails
  · rw [if_pos fails]
    refine ⟨inv_disturbed s, disturbed_grows s, fun _ _ => rfl, trivial, fun calm => ?_⟩
    cases calm
  · rw [if_neg fails]
    refine ⟨fun clean => ?_, ⟨fun _ h => h, Finset.subset_insert _ _, fun _ h => h, id, id⟩,
      fun other differ => ?_, trivial, fun _ => Or.inl (Finset.mem_insert_self _ _)⟩
    · have books := inv ⟨clean.calm, clean.covered⟩
      obtain ⟨mine, member, isMine⟩ := books.alive me (fact clean.calm).2 notLeft
      obtain ⟨size, positive⟩ := books.sizes mine member
      rw [isMine] at size
      constructor
      case sizes => exact books.sizes
      case positive =>
        intro j billed
        rcases Finset.mem_insert.mp billed with rfl | before
        · exact size ▸ positive
        · exact books.positive j before
      case balance =>
        have before := books.balance
        dsimp only
        rw [Finset.sum_insert notBilled]
        linarith
      case alive => exact books.alive
      case settled =>
        intro j admitted
        rcases books.settled j admitted with billed | alive
        · exact Or.inl (Finset.mem_insert_of_mem billed)
        · exact Or.inr alive
      case apart => exact books.apart
      case bound =>
        intro _
        have before := books.bound (Or.inr (List.ne_nil_of_mem member))
        have isPending : mine ∈ pending s :=
          List.mem_filter.mpr ⟨member, decide_eq_true (isMine ▸ notBilled)⟩
        have dropped := @sum_filter_add_le _ (fun r : Reservation => r.member ≠ me) _
          books.nonneg_pending isPending (by simp [isMine])
        have rest : pending { s with balance := s.balance - quantize (amounts me)
                                     billed := insert me s.billed } =
            (pending s).filter (·.member ≠ me) := by
          simp only [pending, List.filter_filter]
          refine List.filter_congr fun r _ => ?_
          simp [Finset.mem_insert]
        have less : counted (amounts me) ≤ amounts me := min_le_left _ _
        rw [committed, rest]
        dsimp only
        rw [Finset.sum_insert notBilled]
        unfold committed at before
        linarith
    · simp [part, differ]

/-- A charge that was billed or rejected takes its reservation with it. -/
theorem releaseInflightBalance_owns :
    Owns (Inv amounts initial) part me (.owning (fun _ => True) (done me))
      (releaseInflightBalance me) fun _ => .owning (fun _ => True) (done me) := by
  refine Owns.act fun env s inv holds => ?_
  by_cases fails : env.fails
  · rw [if_pos fails]
    exact ⟨inv, le_rfl, fun _ _ => rfl, holds⟩
  · rw [if_neg fails]
    refine ⟨fun clean => ?_, ⟨fun _ h => h, fun _ h => h, fun _ h => h, id, id⟩,
      fun other differ => ?_, holds⟩
    · have books := inv ⟨clean.calm, clean.covered⟩
      have kept : ∀ r ∈ s.reservations, r.member ≠ me →
          r ∈ s.reservations.filter (·.member ≠ me) :=
        fun r member other => List.mem_filter.mpr ⟨member, decide_eq_true other⟩
      constructor
      case sizes => exact fun r member => books.sizes r (List.mem_filter.mp member).1
      case positive => exact books.positive
      case balance => exact books.balance
      case alive =>
        intro j isEntered here
        obtain ⟨notMe, stays⟩ := not_or.mp fun gone => here (Finset.mem_insert.mpr gone)
        obtain ⟨r, member, rfl⟩ := books.alive j isEntered stays
        exact ⟨r, kept r member notMe, rfl⟩
      case settled =>
        intro j admitted
        rcases books.settled j admitted with billed | ⟨r, member, rfl⟩
        · exact Or.inl billed
        · by_cases mine : r.member = me
          · rcases holds.2 clean.calm with billed | rejected
            · exact Or.inl (mine ▸ billed)
            · exact absurd (mine ▸ rejected) (books.apart _ admitted)
          · exact Or.inr ⟨r, kept r member mine, rfl⟩
      case apart => exact books.apart
      case bound =>
        intro some
        have before := books.bound (some.imp_right fun more none => more (by simp [none]))
        have fewer := sum_filter_le (fun r : Reservation => r.member ≠ me) books.nonneg_pending
        have rest : pending { s with reservations := s.reservations.filter (·.member ≠ me)
                                     left := insert me s.left } =
            (pending s).filter (·.member ≠ me) := by
          simp only [pending, List.filter_filter]
          refine List.filter_congr fun r _ => ?_
          exact Bool.and_comm _ _
        rw [committed, rest]
        unfold committed at before
        linarith
    · simp [part, differ]

theorem release_owns {reserved : Bool} :
    Owns (Inv amounts initial) part me (.owning (fun _ => True) (done me)) (release me reserved)
      fun _ => .owning (fun _ => True) (done me) := by
  unfold release
  split
  · exact releaseInflightBalance_owns
  · exact .ret fun _ holds => holds

/-! ### The charge -/

theorem reserveFixedCharge_owns (enabled : cfg.enabled = true) (positive : 0 < amounts me) :
    Owns (Inv amounts initial) part me (.owning Part.Undecided .none)
      (reserveFixedCharge cfg me (amounts me))
      fun reserved => .owning (fun p => reserved.isOk = true → p.Open)
        (.all fun goes => .when (reserved = .ok goes) (entered me goes)) := by
  unfold reserveFixedCharge
  refine Owns.bind getUserBalance_owns fun balance => ?_
  cases balance with
  | none =>
      refine Owns.ret fun _ _ => ⟨fun impossible => ?_, fun goes same => ?_⟩
      · cases impossible
      · cases same
  | some balance =>
      dsimp only
      split
      · refine Owns.ret fun _ _ => ⟨fun impossible => ?_, fun goes same => ?_⟩
        · cases impossible
        · cases same
      · refine Owns.bind (reserveInflight_owns enabled positive) fun reserved => ?_
        cases reserved with
        | error err =>
            refine Owns.ret fun _ _ => ⟨fun impossible => ?_, fun goes same => ?_⟩
            · cases impossible
            · cases same
        | ok reserved =>
            refine Owns.bind Owns.ask fun verdict => ?_
            refine Owns.bind (decideCharge_owns.mono
              (fun _ holds => ⟨holds.1, holds.2 reserved rfl⟩) fun _ _ holds => holds) fun _ => ?_
            cases verdict with
            | none =>
                refine Owns.ret fun _ holds => ⟨fun _ => holds.1, fun goes same => ?_⟩
                cases same
                exact holds.2.1
            | some err =>
                refine Owns.bind (release_owns.mono (fun _ holds => ⟨trivial, holds.2.2 rfl⟩)
                  fun _ _ holds => holds) fun _ => ?_
                refine Owns.ret fun _ _ => ⟨fun impossible => ?_, fun goes same => ?_⟩
                · cases impossible
                · cases same

theorem charge_owns (enabled : cfg.enabled = true) :
    Owns (Inv amounts initial) part me (.owning Part.Undecided .none) (charge cfg me (amounts me))
      fun _ => .owning (fun _ => True) .none := by
  unfold charge
  split
  · exact .ret fun _ _ => ⟨trivial, trivial⟩
  · rename_i positive
    refine Owns.bind (reserveFixedCharge_owns enabled (lt_of_not_ge positive)) fun reserved => ?_
    cases reserved with
    | error err => exact .ret fun _ _ => ⟨trivial, trivial⟩
    | ok reserved =>
        refine Owns.bind (bill_owns.mono (fun _ holds => ⟨holds.1 rfl, holds.2 reserved rfl⟩)
          fun _ _ holds => holds) fun _ => ?_
        exact release_owns.mono (fun _ holds => holds) fun _ _ _ => ⟨trivial, trivial⟩

end Owns

/-! ### Every run -/

/-- The balance holds over every run that nothing disturbs and in which every reservation that the
script admits was covered by the balance of that moment: a charge counts with its amount, or with
what billing makes of it where that is less. -/
theorem fixed_charges_within_balance (cfg : Config) (amounts : ℕ → ℚ) (initial : ℚ)
    (schedule : List (ℕ × Env)) (enabled : cfg.enabled = true)
    (clean : Clean (run cfg amounts { balance := initial } schedule).shared)
    (starts : (run cfg amounts { balance := initial } schedule).shared.admitted.Nonempty ∨
      0 ≤ initial) :
    ∑ me ∈ (run cfg amounts { balance := initial } schedule).shared.admitted,
        counted (amounts me) ≤ initial ∧
      ((∀ me, OnGrid 8 (amounts me)) →
        ∑ me ∈ (run cfg amounts { balance := initial } schedule).shared.admitted, amounts me ≤
          initial) := by
  have start : Books amounts initial { balance := initial } := by
    constructor
    case balance => simp
    all_goals simp
  have inv : Inv amounts initial (run cfg amounts { balance := initial } schedule).shared :=
    (Owns.run (c := { shared := { balance := initial }
                      threads := fun me => charge cfg me (amounts me) })
      (K := fun me => .owning Part.Undecided .none) (fun _ => start)
      (fun me => ⟨⟨rfl, rfl, rfl, rfl⟩, trivial⟩) (fun me => charge_owns enabled) schedule).1
  have within := (inv clean).admitted_le starts
  refine ⟨within, fun onGrid => ?_⟩
  rwa [Finset.sum_congr rfl fun me _ => counted_of_onGrid (onGrid me)] at within

/-! ### Concurrent charges, and one that is billed between another's read and its script -/

namespace Sample

def cfg : Config := { limit := fun _ _ => 0 }

/-- Both charges read before either reserves. -/
def concurrent : List (ℕ × Env) :=
  [(0, {}), (1, {}), (0, {}), (1, {}), (0, {}), (1, {}), (0, {}), (1, {}), (0, {}), (1, {}),
    (0, {}), (0, {})]

/-- The first charge has read twice when the second comes and goes. -/
def between : List (ℕ × Env) :=
  [(0, 2), (1, 7), (0, 5)].flatMap fun (me, steps) => List.replicate steps (me, {})

/-- The state after a schedule of charges of one amount. -/
def after (initial amount : ℚ) (schedule : List (ℕ × Env)) : State :=
  (run cfg (fun _ => amount) { balance := initial } schedule).shared

end Sample

instance (s : State) : Decidable (Clean s) :=
  decidable_of_iff (s.disturbed = false ∧ s.short = false)
    ⟨fun both => ⟨both.1, both.2⟩, fun clean => ⟨clean.calm, clean.covered⟩⟩

theorem fixed_charges_within_balance_sample :
    (Sample.after 10 6 Sample.concurrent).admitted = {0} ∧
      ∑ _me ∈ (Sample.after 10 6 Sample.concurrent).admitted, (6 : ℚ) ≤ 10 := by
  constructor
  · decide +kernel
  · exact (fixed_charges_within_balance Sample.cfg (fun _ => 6) 10 Sample.concurrent rfl
      (by decide +kernel) (Or.inr (by norm_num))).2 fun _ => ⟨600000000, by norm_num⟩

/-- The second charge has been billed and has released when the first one's script runs with the
balance from before: nothing else is reserved, and the script lets it through. -/
theorem fixed_charges_exceed_balance :
    (Sample.after 10 10 Sample.between).disturbed = false ∧
      ¬∑ _me ∈ (Sample.after 10 10 Sample.between).admitted, (10 : ℚ) ≤ 10 := by
  decide +kernel

end Sub2api.FixedCharge.Balance
