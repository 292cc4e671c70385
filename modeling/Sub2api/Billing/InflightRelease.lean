import Sub2api.Billing.InflightReservation

/-!
# An in-flight reservation is released once, and not too early

What a call has done stands in its place in the code, so each count of the shared state is a tally
over the threads.
-/

namespace Sub2api.Billing.InflightReservation

open Interleave

namespace Thread

/-- It runs the caller's guarded function, and the reference is not given back yet. -/
def ahead (x : Caller) : Thread → ℤ
  | .stopping c .decrement | .awaiting c .decrement | .decrementing c => if c = x then 1 else 0
  | _ => 0

/-- It runs the caller's guarded function, and the reference is given back. -/
def past (x : Caller) : Thread → ℤ
  | .stopping c .release | .awaiting c .release | .releasing c | .storing c | .calling c _
  | .finishing c => if c = x then 1 else 0
  | _ => 0

def waits (x : Caller) : Thread → ℤ
  | .entering c => if c = x then 1 else 0
  | _ => 0

/-- It is about to clear the count. -/
def stores : Thread → ℤ
  | .storing _ => 1
  | _ => 0

def calls : Thread → ℤ
  | .calling _ _ => 1
  | _ => 0

/-- On its way to `releaseOnce`. -/
def toRelease : Thread → ℤ
  | .stopping _ .release | .awaiting _ .release | .releasing _ => 1
  | _ => 0

/-- Whose release it is, until the count is cleared. -/
def releaseFor : Thread → Option Caller
  | .stopping c .release | .awaiting c .release | .releasing c | .storing c => some c
  | _ => none

theorem ahead_nonneg (x : Caller) (t : Thread) : 0 ≤ t.ahead x := by
  unfold ahead
  split <;> omega

theorem past_nonneg (x : Caller) (t : Thread) : 0 ≤ t.past x := by
  unfold past
  split <;> omega

theorem waits_nonneg (x : Caller) (t : Thread) : 0 ≤ t.waits x := by
  unfold waits
  split
  · split <;> omega
  · omega

theorem stores_nonneg (t : Thread) : 0 ≤ t.stores := by
  unfold stores
  split <;> omega

theorem calls_nonneg (t : Thread) : 0 ≤ t.calls := by
  unfold calls
  split <;> omega

theorem toRelease_nonneg (t : Thread) : 0 ≤ t.toRelease := by
  unfold toRelease
  split <;> omega

end Thread

section Counts

variable {ι : Type*} [Fintype ι]

/-- The guarded function of a caller runs in one thread at most, and gives one reference back. -/
structure Guarded (c : Pool ι Thread World) (x : Caller) : Prop where
  running : c.tally (Thread.ahead x) + c.tally (Thread.past x) =
    if c.shared.once x = .running then 1 else 0
  returned : (if x ∈ c.shared.returned then 1 else 0) =
    (if c.shared.once x = .done then 1 else 0) + c.tally (Thread.past x)
  called : x ∈ c.shared.called ↔
    c.shared.once x ≠ .fresh ∨ 0 < c.tally (Thread.waits x)

variable [DecidableEq ι] {h : Handle} {c : Pool ι Thread World} {i : ι} {thread' : Thread}
  {w' : World} {x : Caller}

theorem Guarded.moves (guarded : Guarded c x) (named : x ≠ .explicit)
    (moves : Moves h c.shared (c.threads i) thread' w') :
    Guarded { shared := w', threads := Function.update c.threads i thread' } x := by
  obtain ⟨running, returned, called⟩ := guarded
  have aheadNow := Pool.le_tally (Thread.ahead_nonneg x) c i
  have pastNow := Pool.le_tally (Thread.past_nonneg x) c i
  have waitsNow := Pool.le_tally (Thread.waits_nonneg x) c i
  have pastAll := Pool.tally_nonneg (Thread.past_nonneg x) c
  have aheadAll := Pool.tally_nonneg (Thread.ahead_nonneg x) c
  have waitsAll := Pool.tally_nonneg (Thread.waits_nonneg x) c
  have aheadThen := Pool.tally_update (Thread.ahead x) c w' i thread'
  have pastThen := Pool.tally_update (Thread.past x) c w' i thread'
  have waitsThen := Pool.tally_update (Thread.waits x) c w' i thread'
  generalize c.threads i = thread at moves aheadNow pastNow waitsNow aheadThen pastThen waitsThen
  suffices after : _ ∧ _ ∧ _ from ⟨after.1, after.2.1, after.2.2⟩
  rw [aheadThen, pastThen, waitsThen]
  clear aheadThen pastThen waitsThen
  generalize c.tally (Thread.ahead x) = A at *
  generalize c.tally (Thread.past x) = B at *
  generalize c.tally (Thread.waits x) = C at *
  cases moves
  case enter caller fresh =>
    cases caller <;>
      grind [Thread.ahead, Thread.past, Thread.waits, Caller.start, Function.update_apply]
  case skip caller after _ =>
    cases after <;> grind [Thread.ahead, Thread.past, Thread.waits, After.next]
  case stop caller after _ => cases after <;> grind [Thread.ahead, Thread.past, Thread.waits]
  case stopped caller after _ =>
    cases after <;> grind [Thread.ahead, Thread.past, Thread.waits, After.next]
  case finish caller =>
    unfold World.finish
    split <;> grind [Thread.ahead, Thread.past, Thread.waits, Function.update_apply]
  all_goals grind [Thread.ahead, Thread.past, Thread.waits]

/-! ### The release -/

/-- What holds of each thread by itself. -/
structure Placed (h : Handle) (w : World) (t : Thread) : Prop where
  explicitAhead : t.ahead .explicit = 0
  explicitWaits : t.waits .explicit = 0
  explicitPast : t.past .explicit ≠ 0 → .explicit ∈ w.called
  swapping : ∀ cur, t = .swapping cur → 0 < cur
  awaiting : ∀ caller after, t = .awaiting caller after →
    h.renews = true ∧ w.stopRenew = true

/-- `releaseOnce` guards one run of the release. -/
structure Opened (h : Handle) (c : Pool ι Thread World) : Prop where
  running : c.tally Thread.stores + c.tally Thread.calls =
    if c.shared.releaseOnce = .running then 1 else 0
  stored : (if c.shared.stored then 1 else 0) =
    (if c.shared.releaseOnce = .done then 1 else 0) + c.tally Thread.calls
  untouched : c.shared.stored = false → c.shared.cacheCalls = []
  calling : ∀ i caller rest, c.threads i = .calling caller rest →
    c.shared.cacheCalls ++ rest = h.releases
  done : c.shared.releaseOnce = .done → c.shared.cacheCalls = h.releases

variable {thread : Thread} {w : World}

theorem Moves.called_subset (moves : Moves h w thread thread' w') :
    w.called ⊆ w'.called := by
  cases moves <;> grind [World.finish]

theorem Moves.stopRenew (moves : Moves h w thread thread' w') (closed : w.stopRenew = true) :
    w'.stopRenew = true := by
  cases moves <;> grind [World.finish]

omit [Fintype ι] in
theorem Placed.moves (placed : ∀ i, Placed h c.shared (c.threads i))
    (moves : Moves h c.shared (c.threads i) thread' w') (j : ι) :
    Placed h w' (Function.update c.threads i thread' j) := by
  have later := moves.called_subset
  by_cases own : j = i
  · subst own
    rw [Function.update_self]
    obtain ⟨ahead, waits, past, swapping, awaiting⟩ := placed j
    generalize c.threads j = thread at moves ahead waits past swapping awaiting
    cases moves
    case enter caller _ =>
      cases caller <;> constructor <;> grind [Thread.ahead, Thread.past, Thread.waits, Caller.start]
    case skip caller after _ =>
      cases after <;> constructor <;> grind [Thread.ahead, Thread.past, Thread.waits, After.next]
    case stop caller after _ =>
      cases after <;> constructor <;> grind [Thread.ahead, Thread.past, Thread.waits]
    case stopped caller after _ =>
      cases after <;> constructor <;> grind [Thread.ahead, Thread.past, Thread.waits, After.next]
    all_goals constructor <;> grind [Thread.ahead, Thread.past, Thread.waits]
  · rw [Function.update_of_ne own]
    obtain ⟨ahead, waits, past, swapping, awaiting⟩ := placed j
    exact ⟨ahead, waits, fun held => later (past held), swapping, fun caller after at_ =>
      ⟨(awaiting caller after at_).1, moves.stopRenew (awaiting caller after at_).2⟩⟩

/-- What a step does to the release: nothing, or one step of it. -/
theorem Moves.release_cases (moves : Moves h w thread thread' w') :
    (thread'.stores = thread.stores ∧ thread'.calls = thread.calls ∧
        (∀ x rest, thread' = .calling x rest → thread = .calling x rest) ∧
        w'.releaseOnce = w.releaseOnce ∧ w'.stored = w.stored ∧ w'.cacheCalls = w.cacheCalls) ∨
      (∃ x, thread = .releasing x ∧ thread' = .storing x ∧ w.releaseOnce = .fresh ∧
        w' = { w with releaseOnce := .running }) ∨
      (∃ x, thread = .storing x ∧ thread' = .calling x h.releases ∧
        w' = { w with refs := 0, stored := true }) ∨
      (∃ x call rest, thread = .calling x (call :: rest) ∧ thread' = .calling x rest ∧
        w' = { w with cacheCalls := w.cacheCalls ++ [call] }) ∨
      ∃ x, thread = .calling x [] ∧ thread' = .finishing x ∧
        w' = { w with releaseOnce := .done } := by
  cases moves
  case first caller fresh => exact Or.inr (Or.inl ⟨caller, rfl, rfl, fresh, rfl⟩)
  case store caller => exact Or.inr (Or.inr (Or.inl ⟨caller, rfl, rfl, rfl⟩))
  case cacheCall caller call rest =>
    exact Or.inr (Or.inr (Or.inr (Or.inl ⟨caller, call, rest, rfl, rfl, rfl⟩)))
  case through caller => exact Or.inr (Or.inr (Or.inr (Or.inr ⟨caller, rfl, rfl, rfl⟩)))
  case renewal => exact Or.inl ⟨rfl, rfl, fun _ _ same => same, rfl, rfl, rfl⟩
  case' enter caller _ => cases caller
  case' skip caller after _ => cases after
  case' stopped caller after _ => cases after
  case' finish caller => cases caller
  all_goals
    refine Or.inl ⟨rfl, rfl, ?_, rfl, rfl, rfl⟩
    intro x rest impossible
    cases impossible

/-- One thread at most is in the release. -/
theorem Opened.alone (opened : Opened h c) {j : ι} {caller : Caller} {rest : List CacheCall}
    (at_ : c.threads j = .calling caller rest) (other : j ≠ i) :
    (c.threads i).stores = 0 ∧ (c.threads i).calls = 0 := by
  have running := opened.running
  have storesNow := Pool.le_tally Thread.stores_nonneg c i
  have callsNow := Pool.le_tally Thread.calls_nonneg c j
  have both := Pool.pair_le_tally Thread.calls_nonneg c other
  have stores := Thread.stores_nonneg (c.threads i)
  have calls := Thread.calls_nonneg (c.threads i)
  rw [at_] at callsNow both
  have one : (Thread.calling caller rest).calls = 1 := rfl
  rw [one] at callsNow both
  split at running <;> omega

theorem Opened.moves (opened : Opened h c)
    (moves : Moves h c.shared (c.threads i) thread' w') :
    Opened h { shared := w', threads := Function.update c.threads i thread' } := by
  have alone := @Opened.alone _ _ _ _ _ i opened
  obtain ⟨running, stored, untouched, calling, done⟩ := opened
  have storesThen := Pool.tally_update Thread.stores c w' i thread'
  have callsThen := Pool.tally_update Thread.calls c w' i thread'
  have storesAll := Pool.tally_nonneg Thread.stores_nonneg c
  have callsAll := Pool.tally_nonneg Thread.calls_nonneg c
  have callsNow := Pool.le_tally Thread.calls_nonneg c i
  have storesNow := Pool.le_tally Thread.stores_nonneg c i
  rcases moves.release_cases with ⟨stores, calls, back, once, still, same⟩ |
    ⟨x, at_, rfl, fresh, rfl⟩ | ⟨x, at_, rfl, rfl⟩ | ⟨x, call, rest, at_, rfl, rfl⟩ |
    ⟨x, at_, rfl, rfl⟩
  · rw [stores] at storesThen
    rw [calls] at callsThen
    constructor
    · rw [storesThen, callsThen, once, ← running]
      omega
    · rw [callsThen, once, still, stored]
      omega
    · rw [still, same]
      exact untouched
    · intro j caller rest now
      rw [same]
      rcases Pool.update_cases now with ⟨rfl, arrived⟩ | ⟨_, before⟩
      · exact calling _ _ _ (back _ _ arrived)
      · exact calling j caller rest before
    · rw [once, same]
      exact done
  · rw [at_] at storesThen callsThen
    simp only [Thread.stores, Thread.calls] at storesThen callsThen
    rw [fresh] at running stored
    simp only [reduceCtorEq, if_false] at running stored
    constructor
    · rw [storesThen, callsThen, if_pos rfl]
      omega
    · rw [callsThen, stored]
      simp
    · exact untouched
    · intro j caller rest now
      rcases Pool.update_cases now with ⟨_, arrived⟩ | ⟨_, before⟩
      · cases arrived
      · exact calling j caller rest before
    · intro impossible
      cases impossible
  · rw [at_] at storesThen callsThen storesNow
    simp only [Thread.stores, Thread.calls] at storesThen callsThen storesNow
    have busy : c.shared.releaseOnce = .running := by
      by_contra other
      rw [if_neg other] at running
      omega
    rw [if_pos busy] at running
    rw [busy] at stored
    have unstored : c.shared.stored = false := by
      cases here : c.shared.stored with
      | false => rfl
      | true =>
        rw [here] at stored
        simp only [reduceCtorEq, if_false, if_true] at stored
        omega
    constructor
    · rw [storesThen, callsThen, if_pos busy]
      omega
    · rw [callsThen]
      simp only [busy, reduceCtorEq, if_false, if_true]
      omega
    · intro impossible
      cases impossible
    · intro j caller rest now
      change c.shared.cacheCalls ++ rest = h.releases
      rcases Pool.update_cases now with ⟨_, arrived⟩ | ⟨_, before⟩
      · cases arrived
        rw [untouched unstored, List.nil_append]
      · exact calling j caller rest before
    · intro finished
      rw [show c.shared.releaseOnce = .done from finished] at busy
      cases busy
  · rw [at_] at storesThen callsThen callsNow
    simp only [Thread.stores, Thread.calls] at storesThen callsThen callsNow
    have busy : c.shared.releaseOnce = .running := by
      by_contra other
      rw [if_neg other] at running
      omega
    constructor
    · rw [storesThen, callsThen, ← running]
      omega
    · rw [callsThen, stored]
      simp
    · intro unstored
      rw [show c.shared.stored = false from unstored, busy] at stored
      simp only [Bool.false_eq_true, reduceCtorEq, if_false] at stored
      omega
    · intro j caller left now
      rcases Pool.update_cases now with ⟨_, arrived⟩ | ⟨other, before⟩
      · cases arrived
        rw [List.append_assoc]
        exact calling i x (call :: rest) at_
      · have idle := (alone before other).2
        rw [at_] at idle
        cases idle
    · intro finished
      rw [show c.shared.releaseOnce = .done from finished] at busy
      cases busy
  · rw [at_] at storesThen callsThen callsNow
    simp only [Thread.stores, Thread.calls] at storesThen callsThen callsNow
    have busy : c.shared.releaseOnce = .running := by
      by_contra other
      rw [if_neg other] at running
      omega
    rw [if_pos busy] at running
    rw [busy] at stored
    simp only [reduceCtorEq, if_false] at stored
    constructor
    · rw [storesThen, callsThen]
      simp only [reduceCtorEq, if_false]
      omega
    · rw [callsThen, if_pos rfl, stored]
      omega
    · exact untouched
    · intro j caller left now
      rcases Pool.update_cases now with ⟨_, arrived⟩ | ⟨other, before⟩
      · cases arrived
      · have idle := (alone before other).2
        rw [at_] at idle
        cases idle
    · intro _
      exact (List.append_nil _).symm.trans (calling i x [] at_)

/-- The references: one of the handler's and one of each `Acquire`, less those given back. -/
structure Counted (c : Pool ι Thread World) : Prop where
  counted : c.shared.stored = false →
    c.shared.refs = 1 + c.shared.acquired - c.shared.returned.card
  cleared : c.shared.stored = true → c.shared.refs ≤ 0
  /-- Where the count was not cleared by an explicit `Release`, it had come to zero. -/
  enough : c.shared.stored = true → .explicit ∉ c.shared.called →
    1 + c.shared.acquired ≤ c.shared.returned.card
  /-- A release other than an explicit one follows a count of zero. -/
  early : ∀ i x, (c.threads i).releaseFor = some x → x ≠ .explicit → c.shared.refs ≤ 0
  /-- Where a release is due, one has begun, or a thread is on its way. -/
  due : c.shared.refs ≤ 0 ∨ .explicit ∈ c.shared.called →
    c.shared.releaseOnce ≠ .fresh ∨ 0 < c.tally Thread.toRelease
  known : ∀ id, .task id ∈ c.shared.called → id < c.shared.acquired
  guarded : .explicit ∉ c.shared.returned

/-- No step raises a count that is not positive. -/
theorem Moves.refs_nonpos (moves : Moves h w thread thread' w') (placed : Placed h w thread)
    (few : w.refs ≤ 0) : w'.refs ≤ 0 ∧ w'.acquired = w.acquired := by
  have positive := placed.swapping
  cases moves <;> grind [World.finish]

/-- What a step does to the references. -/
theorem Moves.refs_cases (moves : Moves h w thread thread' w') :
    (w'.refs = w.refs ∧ w'.acquired = w.acquired ∧ w'.returned = w.returned ∧
        w'.stored = w.stored) ∨
      (∃ cur, thread = .swapping cur ∧ w.refs = cur ∧ w'.refs = cur + 1 ∧
        w'.acquired = w.acquired + 1 ∧ w'.returned = w.returned ∧ w'.stored = w.stored) ∨
      (∃ x, thread = .decrementing x ∧ w'.refs = w.refs - 1 ∧ w'.acquired = w.acquired ∧
        w'.returned = insert x w.returned ∧ w'.stored = w.stored) ∨
      ∃ x, thread = .storing x ∧ w'.refs = 0 ∧ w'.acquired = w.acquired ∧
        w'.returned = w.returned ∧ w'.stored = true := by
  cases moves <;> grind [World.finish]

theorem Moves.releaseFor (moves : Moves h w thread thread' w') (for_ : thread'.releaseFor = some x)
    (named : x ≠ .explicit) :
    w'.refs ≤ 0 ∨ thread.releaseFor = some x := by
  cases moves
  case enter caller _ => cases caller <;> grind [Thread.releaseFor, Caller.start]
  case skip caller after _ => cases after <;> grind [Thread.releaseFor, After.next]
  case stop caller after _ => cases after <;> grind [Thread.releaseFor]
  case stopped caller after _ => cases after <;> grind [Thread.releaseFor, After.next]
  all_goals grind [Thread.releaseFor]

/-- Where a release becomes due, the thread is on its way to it, or it has begun. -/
theorem Moves.due (moves : Moves h w thread thread' w')
    (begun : 0 < thread.stores → w.releaseOnce ≠ .fresh) (elsewhere : thread'.toRelease = 0) :
    w'.releaseOnce ≠ .fresh ∨ thread.toRelease = 0 ∧ w'.releaseOnce = w.releaseOnce ∧
      (w'.refs ≤ 0 ∨ .explicit ∈ w'.called → w.refs ≤ 0 ∨ .explicit ∈ w.called) := by
  cases moves
  case enter caller _ => cases caller <;> grind [Thread.toRelease, Caller.start]
  case skip caller after _ => cases after <;> grind [Thread.toRelease, After.next]
  case stop caller after _ => cases after <;> grind [Thread.toRelease]
  case stopped caller after _ => cases after <;> grind [Thread.toRelease, After.next]
  all_goals grind [Thread.toRelease, Thread.stores, World.finish]

theorem Moves.known (moves : Moves h w thread thread' w')
    (known : ∀ id, .task id ∈ w.called → id < w.acquired) (id : ℕ) (called : .task id ∈ w'.called) :
    id < w'.acquired := by
  have before := known id
  cases moves <;> grind [World.finish]

theorem Counted.moves (counted : Counted c) (guarded : ∀ x, x ≠ .explicit → Guarded c x)
    (placed : ∀ i, Placed h c.shared (c.threads i)) (opened : Opened h c)
    (moves : Moves h c.shared (c.threads i) thread' w') :
    Counted { shared := w', threads := Function.update c.threads i thread' } := by
  have later := moves.called_subset
  have nonpos := moves.refs_nonpos (placed i)
  have new : ∀ x, c.threads i = .decrementing x → x ∉ c.shared.returned ∧ x ≠ .explicit := by
    intro x at_
    have named : x ≠ .explicit := by
      rintro rfl
      have none_ := (placed i).explicitAhead
      rw [at_] at none_
      simp [Thread.ahead] at none_
    obtain ⟨running, returned, _⟩ := guarded x named
    have here := Pool.le_tally (Thread.ahead_nonneg x) c i
    have pastAll := Pool.tally_nonneg (Thread.past_nonneg x) c
    rw [at_] at here
    exact ⟨by grind [Thread.ahead], named⟩
  have clears : ∀ x, c.threads i = .storing x →
      c.shared.stored = false ∧ (x = .explicit → .explicit ∈ c.shared.called) := by
    intro x at_
    have here := Pool.le_tally Thread.stores_nonneg c i
    have callsAll := Pool.tally_nonneg Thread.calls_nonneg c
    obtain ⟨running, stored, _⟩ := opened
    have past := (placed i).explicitPast
    rw [at_] at here past
    constructor
    · grind [Thread.stores]
    · rintro rfl
      exact past (by simp [Thread.past])
  obtain ⟨counts, cleared, enough, early, due, known, explicitless⟩ := counted
  have refs := moves.refs_cases
  constructor
  · intro unstored
    rcases refs with ⟨same, gained, back, still⟩ | ⟨cur, _, held, up, gained, back, still⟩ |
      ⟨x, at_, down, gained, back, still⟩ | ⟨x, _, _, _, _, stores⟩
    · grind
    · grind
    · have fresh := (new x at_).1
      have one := Finset.card_insert_of_notMem fresh
      grind
    · grind
  · intro stored
    rcases refs with ⟨same, gained, back, still⟩ | ⟨cur, at_, held, up, gained, back, still⟩ |
      ⟨x, at_, down, gained, back, still⟩ | ⟨x, _, zero, _, _, stores⟩
    · grind
    · exact (nonpos (cleared (still ▸ stored))).1
    · grind
    · grind
  · intro stored silent
    have silentThen : .explicit ∉ c.shared.called := fun called => silent (later called)
    rcases refs with ⟨same, gained, back, still⟩ | ⟨cur, at_, held, up, gained, back, still⟩ |
      ⟨x, at_, down, gained, back, still⟩ | ⟨x, at_, zero, gained, back, stores⟩
    · grind
    · grind
    · have fresh := (new x at_).1
      have one := Finset.card_insert_of_notMem fresh
      grind
    · have named : x ≠ .explicit := fun own => silentThen ((clears x at_).2 own)
      have few := early i x (by rw [at_]; rfl) named
      have count := counts (clears x at_).1
      grind
  · intro j x for_ named
    by_cases own : j = i
    · subst own
      have for' : thread'.releaseFor = some x := by
        simpa only [Function.update_self] using for_
      rcases moves.releaseFor for' named with few | before
      · exact few
      · exact (nonpos (early j x before named)).1
    · have before : (c.threads j).releaseFor = some x := by
        simpa only [Function.update_of_ne own] using for_
      exact (nonpos (early j x before named)).1
  · intro now
    have then_ := Pool.tally_update Thread.toRelease c w' i thread'
    have all := Pool.tally_nonneg Thread.toRelease_nonneg
      { shared := w', threads := Function.update c.threads i thread' }
    have here := Pool.le_tally Thread.toRelease_nonneg
      { shared := w', threads := Function.update c.threads i thread' } i
    simp only [Function.update_self] at here
    have begun : 0 < (c.threads i).stores → c.shared.releaseOnce ≠ .fresh := by
      intro stores
      have here := Pool.le_tally Thread.stores_nonneg c i
      have callsAll := Pool.tally_nonneg Thread.calls_nonneg c
      have running := opened.running
      grind
    by_cases way : thread'.toRelease = 0
    · rcases moves.due begun way with opened' | ⟨off, same, before⟩
      · exact Or.inl opened'
      · have was := due (before now)
        grind
    · have nonneg := Thread.toRelease_nonneg thread'
      exact Or.inr (by omega)
  · exact moves.known known
  · rcases refs with ⟨_, _, back, _⟩ | ⟨cur, _, _, _, _, back, _⟩ | ⟨x, at_, _, _, back, _⟩ |
      ⟨x, _, _, _, back, _⟩
    · exact back ▸ explicitless
    · exact back ▸ explicitless
    · intro mem
      rw [show w'.returned = insert x c.shared.returned from back] at mem
      rcases Finset.mem_insert.mp mem with own | before
      · exact (new x at_).2 own.symm
      · exact explicitless before
    · exact back ▸ explicitless

/-- What holds of every reachable pool. -/
structure Consistent (h : Handle) (c : Pool ι Thread World) : Prop where
  guarded : ∀ x, x ≠ .explicit → Guarded c x
  placed : ∀ i, Placed h c.shared (c.threads i)
  opened : Opened h c
  counted : Counted c
  renewal : h.renews = true → c.shared.renewal ≠ .none

theorem Consistent.moves (consistent : Consistent h c)
    (moves : Moves h c.shared (c.threads i) thread' w') :
    Consistent h { shared := w', threads := Function.update c.threads i thread' } where
  guarded x named := (consistent.guarded x named).moves named moves
  placed := Placed.moves consistent.placed moves
  opened := consistent.opened.moves moves
  counted := consistent.counted.moves consistent.guarded consistent.placed consistent.opened moves
  renewal renews := by
    have before := consistent.renewal renews
    generalize c.threads i = thread at moves
    cases moves <;> grind [World.finish]

end Counts

/-! ### What a run releases -/

section Releases

variable {ι : Type*} [Fintype ι] {h : Handle} {c : Pool ι Thread World}

theorem consistent_initially : Consistent h (initialPool (ι := ι) h) where
  guarded x _ := by
    constructor <;> simp [initialPool, Pool.tally, Thread.ahead, Thread.past, Thread.waits]
  placed i := by
    constructor <;> simp [initialPool, Thread.ahead, Thread.past, Thread.waits]
  opened := by
    constructor <;> simp [initialPool, Pool.tally, Thread.stores, Thread.calls]
  counted := by
    constructor <;> simp [initialPool, Pool.tally, Thread.releaseFor]
  renewal renews := by simp [initialPool, renews]

variable (consistent : Consistent h c)

include consistent

theorem Consistent.cleared (opened : c.shared.releaseOnce ≠ .fresh) :
    c.shared.stored = true ∨ ∃ i x, c.threads i = .storing x := by
  obtain ⟨running, stored, _⟩ := consistent.opened
  have storesAll := Pool.tally_nonneg Thread.stores_nonneg c
  by_cases storing : 0 < c.tally Thread.stores
  · obtain ⟨i, here⟩ := Pool.exists_of_tally_pos storing
    unfold Thread.stores at here
    split at here
    · rename_i x at_
      exact Or.inr ⟨i, x, at_⟩
    · omega
  · left
    cases once : c.shared.releaseOnce <;> grind

/-- What was released is the beginning of one release. -/
theorem Consistent.once : c.shared.cacheCalls <+: h.releases := by
  obtain ⟨running, stored, untouched, calling, done⟩ := consistent.opened
  have storesAll := Pool.tally_nonneg Thread.stores_nonneg c
  by_cases called : 0 < c.tally Thread.calls
  · obtain ⟨i, here⟩ := Pool.exists_of_tally_pos called
    unfold Thread.calls at here
    split at here
    · rename_i caller rest at_
      exact ⟨rest, calling i caller rest at_⟩
    · omega
  · have callsAll := Pool.tally_nonneg Thread.calls_nonneg c
    by_cases through : c.shared.releaseOnce = .done
    · rw [done through]
    · rw [untouched (by grind)]
      exact List.nil_prefix

/-- Every reference was given back where a release has begun without an explicit one. -/
theorem Consistent.all_returned (begun : c.shared.releaseOnce ≠ .fresh)
    (silent : .explicit ∉ c.shared.called) :
    1 + c.shared.acquired ≤ c.shared.returned.card := by
  rcases consistent.cleared begun with stored | ⟨i, x, at_⟩
  · exact consistent.counted.enough stored silent
  · have named : x ≠ .explicit := by
      rintro rfl
      have past := (consistent.placed i).explicitPast
      rw [at_] at past
      exact silent (past (by simp [Thread.past]))
    have few := consistent.counted.early i x (by rw [at_]; rfl) named
    cases stored : c.shared.stored with
    | true => exact consistent.counted.enough stored silent
    | false =>
      have count := consistent.counted.counted stored
      omega

/-- Who gave a reference back was called. -/
theorem Consistent.returned_called (x : Caller) (back : x ∈ c.shared.returned) :
    x ∈ c.shared.called ∧ x ≠ .explicit := by
  have named : x ≠ .explicit := by
    rintro rfl
    exact consistent.counted.guarded back
  obtain ⟨running, returned, called⟩ := consistent.guarded x named
  have aheadAll := Pool.tally_nonneg (Thread.ahead_nonneg x) c
  refine ⟨called.mpr (Or.inl ?_), named⟩
  intro fresh
  rw [fresh] at running returned
  rw [if_pos back] at returned
  simp at running returned
  omega

/-- The callers of whom a reference is held at one time or another. -/
def callers (acquired : ℕ) : Finset Caller :=
  insert .handler ((Finset.range acquired).image .task)

omit consistent [Fintype ι] in
theorem card_callers (acquired : ℕ) : (callers acquired).card = 1 + acquired := by
  unfold callers
  rw [Finset.card_insert_of_notMem (by simp), Finset.card_image_of_injective _ (by
    intro a b same
    cases same
    rfl), Finset.card_range]
  omega

omit consistent [Fintype ι] in
theorem callers_subset {acquired : ℕ} {called : Finset Caller} :
    callers acquired ⊆ called ↔
      .handler ∈ called ∧ ∀ id < acquired, .task id ∈ called := by
  unfold callers
  rw [Finset.insert_subset_iff, Finset.image_subset_iff]
  simp only [Finset.mem_range]

theorem Consistent.returned_callers : c.shared.returned ⊆ callers c.shared.acquired := by
  intro x back
  obtain ⟨called, named⟩ := consistent.returned_called x back
  cases x with
  | handler => simp [callers]
  | task id => simp [callers, consistent.counted.known id called]
  | explicit => exact absurd rfl named

/-- Without an explicit release, the handler's end and every done function were called. -/
theorem Consistent.not_early (begun : c.shared.releaseOnce ≠ .fresh)
    (silent : .explicit ∉ c.shared.called) : callers c.shared.acquired ⊆ c.shared.called := by
  have full : c.shared.returned = callers c.shared.acquired := by
    apply Finset.eq_of_subset_of_card_le consistent.returned_callers
    rw [card_callers]
    exact consistent.all_returned begun silent
  intro x mem
  rw [← full] at mem
  exact (consistent.returned_called x mem).1

/-- Once every call has returned, what is due is released. -/
theorem Consistent.released (quiet : ∀ i, c.threads i = .idle)
    (due : callers c.shared.acquired ⊆ c.shared.called ∨ .explicit ∈ c.shared.called) :
    c.shared.cacheCalls = h.releases := by
  have zero : ∀ f : Thread → ℤ, f .idle = 0 → c.tally f = 0 := by
    intro f idle
    exact Pool.tally_eq_zero fun i => by rw [quiet i, idle]
  obtain ⟨running, stored, untouched, calling, done⟩ := consistent.opened
  rw [zero _ rfl, zero _ rfl] at running
  rw [zero _ rfl] at stored
  have wants : c.shared.refs ≤ 0 ∨ .explicit ∈ c.shared.called := by
    rcases due with all | explicit
    · left
      cases state : c.shared.stored with
      | true => exact consistent.counted.cleared state
      | false =>
        have back : callers c.shared.acquired ⊆ c.shared.returned := by
          intro x mem
          have named : x ≠ .explicit := by
            rintro rfl
            simp [callers] at mem
          obtain ⟨running, returned, called⟩ := consistent.guarded x named
          rw [zero _ rfl, zero _ rfl] at running
          rw [zero _ rfl] at returned
          rw [zero _ rfl] at called
          have was := called.mp (all mem)
          cases now : c.shared.once x <;> grind
        have count := consistent.counted.counted state
        have card := Finset.card_le_card back
        rw [card_callers] at card
        omega
    · exact Or.inr explicit
  have begun := consistent.counted.due wants
  rw [zero _ rfl] at begun
  apply done
  cases once : c.shared.releaseOnce <;> grind

end Releases

/-! ### Calls come to their end -/

section Ends

variable {ι : Type*} [Fintype ι] [DecidableEq ι] {h : Handle} {c : Pool ι Thread World} {i : ι}
  {thread' : Thread} {w' : World} {x : Caller}

/-- Turns that begin no call: they go on, or end the renewing goroutine. -/
def Event.finishes (event : Event) : Prop :=
  event = .go ∨ event = .renewed false ∨ event = .renewStop

/-- How far a thread is from the end of its call. -/
def Thread.weight (h : Handle) : Thread → ℤ
  | .idle => 0
  | .loading | .swapping _ | .finishing _ => 1
  | .calling _ rest => 2 + rest.length
  | .storing _ => 3 + h.releases.length
  | .releasing _ => 4 + h.releases.length
  | .awaiting _ .release => 5 + h.releases.length
  | .stopping _ .release => 6 + h.releases.length
  | .decrementing _ => 7 + h.releases.length
  | .awaiting _ .decrement => 8 + h.releases.length
  | .stopping _ .decrement => 9 + h.releases.length
  | .entering _ => 10 + h.releases.length

theorem Thread.weight_nonneg (h : Handle) (t : Thread) : 0 ≤ t.weight h := by
  unfold weight
  split <;> omega

/-- Some turns that finish calls bring the pool nearer to its end. -/
def Nearer (h : Handle) (c : Pool ι Thread World) : Prop :=
  ∃ turns : List (ι × Event), (∀ turn ∈ turns, turn.2.finishes) ∧
    (Pool.run (step h) turns c).tally (Thread.weight h) < c.tally (Thread.weight h)

omit [Fintype ι] in
theorem advance_go {t' : Thread} (moved : advance h c.shared (c.threads i) = some (t', w')) :
    c.advance (step h) i .go = { shared := w', threads := Function.update c.threads i t' } := by
  unfold Pool.advance
  rw [show step h .go (c.threads i) c.shared = some (t', w') from moved]

theorem nearer_go (i : ι) (t' : Thread) (w' : World)
    (moved : advance h c.shared (c.threads i) = some (t', w'))
    (less : t'.weight h < (c.threads i).weight h) : Nearer h c := by
  refine ⟨[(i, .go)], by simp [Event.finishes], ?_⟩
  rw [Pool.run_cons, Pool.run_nil, advance_go moved, Pool.tally_update]
  omega

/-- A turn of a thread where its weight stays, and then turns that bring nearer. -/
theorem Nearer.after {c' : Pool ι Thread World} {event : Event} (finishes : event.finishes)
    (turn : c.advance (step h) i event = c')
    (same : c'.tally (Thread.weight h) = c.tally (Thread.weight h)) (nearer : Nearer h c') :
    Nearer h c := by
  obtain ⟨turns, all, less⟩ := nearer
  refine ⟨(i, event) :: turns, ?_, ?_⟩
  · intro other mem
    rcases List.mem_cons.mp mem with rfl | mem
    · exact finishes
    · exact all other mem
  · rw [Pool.run_cons, turn, ← same]
    exact less

theorem nearer_swapping (at_ : c.threads i = .swapping c.shared.refs) : Nearer h c := by
  refine nearer_go i .idle { c.shared with
    refs := c.shared.refs + 1, acquired := c.shared.acquired + 1 } ?_ ?_
  · rw [at_]
    exact if_pos rfl
  · rw [at_]
    simp [Thread.weight]

theorem nearer_loading (at_ : c.threads i = .loading) : Nearer h c := by
  by_cases few : c.shared.refs ≤ 0
  · apply nearer_go i .idle c.shared
    · rw [at_]
      exact congrArg some (Prod.ext (if_pos few) rfl)
    · rw [at_]
      simp [Thread.weight]
  · have moved : advance h c.shared (c.threads i) = some (.swapping c.shared.refs, c.shared) := by
      rw [at_]
      exact congrArg some (Prod.ext (if_neg few) rfl)
    refine Nearer.after (i := i) (Or.inl rfl) (advance_go moved) ?_ ?_
    · rw [Pool.tally_update, at_]
      simp [Thread.weight]
    · exact nearer_swapping (i := i) (Function.update_self ..)

theorem nearer_acquire {cur : ℤ} (at_ : c.threads i = .swapping cur) : Nearer h c := by
  by_cases same : c.shared.refs = cur
  · exact nearer_swapping (i := i) (same ▸ at_)
  · have moved : advance h c.shared (c.threads i) = some (.loading, c.shared) := by
      rw [at_]
      exact if_neg same
    refine Nearer.after (i := i) (Or.inl rfl) (advance_go moved) ?_ ?_
    · rw [Pool.tally_update, at_]
      simp [Thread.weight]
    · exact nearer_loading (i := i) (Function.update_self ..)

theorem weight_next (caller : Caller) (after : After) :
    (after.next caller).weight h < (Thread.awaiting caller after).weight h := by
  cases after <;> simp [After.next, Thread.weight]

theorem nearer_exited {caller : Caller} {after : After} (at_ : c.threads i = .awaiting caller after)
    (exited : c.shared.renewal = .exited) : Nearer h c := by
  apply nearer_go i (after.next caller) c.shared
  · rw [at_]
    exact if_pos exited
  · rw [at_]
    exact weight_next caller after

/-- A turn of the renewing goroutine that ends it. -/
theorem nearer_ending {caller : Caller} {after : After} {event : Event}
    (at_ : c.threads i = .awaiting caller after) (finishes : event.finishes)
    (ends : step h event (c.threads i) c.shared =
      some (c.threads i, { c.shared with renewal := .exited })) : Nearer h c := by
  have turn : c.advance (step h) i event =
      { shared := { c.shared with renewal := .exited }
        threads := Function.update c.threads i (c.threads i) } := by
    unfold Pool.advance
    rw [ends]
  apply Nearer.after finishes turn
  · rw [Pool.tally_update]
    omega
  · apply nearer_exited
    · exact (Function.update_self i _ _).trans at_
    · rfl

theorem Consistent.nearer_awaiting (consistent : Consistent h c) {caller : Caller} {after : After}
    (at_ : c.threads i = .awaiting caller after) : Nearer h c := by
  obtain ⟨renews, closed⟩ := (consistent.placed i).awaiting caller after at_
  have started := consistent.renewal renews
  cases renewal : c.shared.renewal with
  | none => exact absurd renewal started
  | exited => exact nearer_exited at_ renewal
  | waiting => exact nearer_ending at_ (Or.inr (Or.inr rfl)) (if_pos ⟨renewal, closed⟩)
  | renewing => exact nearer_ending at_ (Or.inr (Or.inl rfl)) (if_pos renewal)

theorem nearer_opens (opens : 0 < (c.threads i).stores ∨ 0 < (c.threads i).calls) :
    Nearer h c := by
  cases at_ : c.threads i with
  | storing caller =>
    refine nearer_go i _ _ (congrArg (advance h c.shared) at_) ?_
    rw [at_]
    simp [Thread.weight]
  | calling caller rest =>
    cases rest with
    | nil =>
      refine nearer_go i _ _ (congrArg (advance h c.shared) at_) ?_
      rw [at_]
      simp [Thread.weight]
    | cons call rest =>
      refine nearer_go i _ _ (congrArg (advance h c.shared) at_) ?_
      rw [at_]
      simp [Thread.weight]
  | _ => simp [at_, Thread.stores, Thread.calls] at opens

theorem Consistent.nearer_releasing (consistent : Consistent h c) {caller : Caller}
    (at_ : c.threads i = .releasing caller) : Nearer h c := by
  cases once : c.shared.releaseOnce with
  | fresh =>
    apply nearer_go i (.storing caller)
      { c.shared with releaseOnce := .running }
    · rw [at_]
      simp [advance, once]
    · rw [at_]
      simp [Thread.weight]
  | done =>
    apply nearer_go i (.finishing caller) c.shared
    · rw [at_]
      simp [advance, once]
    · rw [at_]
      simp [Thread.weight]
      omega
  | running =>
    have running := consistent.opened.running
    rw [if_pos once] at running
    by_cases stores : 0 < c.tally Thread.stores
    · obtain ⟨j, here⟩ := Pool.exists_of_tally_pos stores
      exact nearer_opens (Or.inl here)
    · obtain ⟨j, here⟩ := Pool.exists_of_tally_pos (f := Thread.calls) (c := c) (by omega)
      exact nearer_opens (Or.inr here)

/-- Whoever runs a guarded function comes nearer to its end, or waits for one who does. -/
theorem Consistent.nearer_running (consistent : Consistent h c)
    (runs : 0 < (c.threads i).ahead x ∨ 0 < (c.threads i).past x) : Nearer h c := by
  cases at_ : c.threads i with
  | stopping caller after =>
    by_cases renews : h.renews = true
    · apply nearer_go i (.awaiting caller after)
        { c.shared with stopRenew := true }
      · rw [at_]
        exact if_pos renews
      · rw [at_]
        cases after <;> simp [Thread.weight]
    · apply nearer_go i (after.next caller) c.shared
      · rw [at_]
        exact if_neg renews
      · rw [at_]
        cases after <;> simp [Thread.weight, After.next]
  | awaiting caller after => exact consistent.nearer_awaiting at_
  | decrementing caller =>
    refine nearer_go i _ _ (congrArg (advance h c.shared) at_) ?_
    rw [at_]
    split
    · simp [Thread.weight]
    · simp [Thread.weight]
      omega
  | releasing caller => exact consistent.nearer_releasing at_
  | storing caller => exact nearer_opens (i := i) (Or.inl (by simp [at_, Thread.stores]))
  | calling caller rest => exact nearer_opens (i := i) (Or.inr (by simp [at_, Thread.calls]))
  | finishing caller =>
    refine nearer_go i _ _ (congrArg (advance h c.shared) at_) ?_
    rw [at_]
    simp [Thread.weight]
  | _ => simp [at_, Thread.ahead, Thread.past] at runs

theorem Consistent.nearer (consistent : Consistent h c) (busy : c.threads i ≠ .idle) : Nearer h c := by
  cases at_ : c.threads i with
  | idle => exact absurd at_ busy
  | loading => exact nearer_loading at_
  | swapping cur => exact nearer_acquire at_
  | entering caller =>
    cases once : c.shared.once caller with
    | fresh =>
      apply nearer_go i caller.start
        { c.shared with once := Function.update c.shared.once caller .running }
      · rw [at_]
        simp [advance, once]
      · rw [at_]
        cases caller <;> simp [Thread.weight, Caller.start]
    | done =>
      apply nearer_go i .idle c.shared
      · rw [at_]
        simp [advance, once]
      · rw [at_]
        simp [Thread.weight]
        omega
    | running =>
      have named : caller ≠ .explicit := by
        rintro rfl
        have none_ := (consistent.placed i).explicitWaits
        simp [at_, Thread.waits] at none_
      have running := (consistent.guarded caller named).running
      rw [if_pos once] at running
      by_cases ahead : 0 < c.tally (Thread.ahead caller)
      · obtain ⟨j, here⟩ := Pool.exists_of_tally_pos ahead
        exact consistent.nearer_running (Or.inl here)
      · obtain ⟨j, here⟩ :=
          Pool.exists_of_tally_pos (f := Thread.past caller) (c := c) (by omega)
        exact consistent.nearer_running (Or.inr here)
  | stopping caller after =>
    apply consistent.nearer_running (i := i) (x := caller)
    cases after <;> simp [at_, Thread.ahead, Thread.past]
  | awaiting caller after => exact consistent.nearer_awaiting at_
  | decrementing caller =>
    exact consistent.nearer_running (i := i) (x := caller) (Or.inl (by simp [at_, Thread.ahead]))
  | releasing caller => exact consistent.nearer_releasing at_
  | storing caller => exact nearer_opens (i := i) (Or.inl (by simp [at_, Thread.stores]))
  | calling caller rest => exact nearer_opens (i := i) (Or.inr (by simp [at_, Thread.calls]))
  | finishing caller =>
    exact consistent.nearer_running (i := i) (x := caller) (Or.inr (by simp [at_, Thread.past]))

theorem Consistent.run (consistent : Consistent h c) (schedule : List (ι × Event)) :
    Consistent h (Pool.run (step h) schedule c) :=
  Pool.run_invariant (step h) (Consistent h)
    (fun _ _ _ _ _ consistent moved => consistent.moves (step_moves moved)) schedule consistent

/-- Turns that begin no call bring every call to its end. -/
theorem Consistent.ends (consistent : Consistent h c) :
    ∃ turns : List (ι × Event), (∀ turn ∈ turns, turn.2.finishes) ∧
      ∀ i, (Pool.run (step h) turns c).threads i = .idle := by
  obtain ⟨n, bound⟩ : ∃ n : ℕ, c.tally (Thread.weight h) ≤ n := ⟨_, Int.self_le_toNat _⟩
  induction n generalizing c with
  | zero =>
    refine ⟨[], by simp, ?_⟩
    by_contra busy
    obtain ⟨i, busy⟩ := not_forall.mp busy
    obtain ⟨turns, _, less⟩ := consistent.nearer busy
    have nonneg := Pool.tally_nonneg (Thread.weight_nonneg h) (Pool.run (step h) turns c)
    omega
  | succ n ih =>
    by_cases idle : ∀ i, c.threads i = .idle
    · exact ⟨[], by simp, idle⟩
    · obtain ⟨i, busy⟩ := not_forall.mp idle
      obtain ⟨turns, finish, less⟩ := consistent.nearer busy
      obtain ⟨more, finishMore, quiet⟩ := ih (consistent.run turns) (by omega)
      refine ⟨turns ++ more, ?_, ?_⟩
      · intro turn mem
        rcases List.mem_append.mp mem with first | second
        · exact finish turn first
        · exact finishMore turn second
      · rw [Pool.run_append]
        exact quiet

/-! ### After the release -/

/-- From where the count is cleared on, no `Acquire` succeeds, and the release only goes on. -/
structure Cleared (acquired : ℕ) (sofar : List CacheCall) (c : Pool ι Thread World) : Prop where
  stored : c.shared.stored = true
  acquired : c.shared.acquired = acquired
  sofar : sofar <+: c.shared.cacheCalls

omit [DecidableEq ι] [Fintype ι] in
theorem Moves.cacheCalls {w : World} {thread : Thread} (moves : Moves h w thread thread' w')
    (stored : w.stored = true) : w'.stored = true ∧ w.cacheCalls <+: w'.cacheCalls := by
  cases moves <;> simp_all [World.finish]
  split <;> simp_all

theorem Consistent.cleared_run (consistent : Consistent h c) (stored : c.shared.stored = true)
    (schedule : List (ι × Event)) :
    Cleared c.shared.acquired c.shared.cacheCalls (Pool.run (step h) schedule c) := by
  have both := Pool.run_invariant (step h)
    (fun later => Consistent h later ∧ Cleared c.shared.acquired c.shared.cacheCalls later)
    (fun later i _ _ _ inv moved => by
      obtain ⟨consistent, stored, acquired, sofar⟩ := inv
      have moves := step_moves moved
      have few := consistent.counted.cleared stored
      have kept := moves.cacheCalls stored
      exact ⟨consistent.moves moves, kept.1,
        (moves.refs_nonpos (consistent.placed i) few).2.trans acquired, sofar.trans kept.2⟩)
    schedule ⟨consistent, stored, rfl, List.prefix_rfl⟩
  exact both.2

end Ends

/-- In every run: at most one release is made of the cache; it begins before the handler's end and
every done function were called only where `Release` was; calls can come to their end, and once they
have, what is due is released; and an `Acquire` after the count was cleared is without effect. -/
theorem released_once {ι : Type*} [Fintype ι] [DecidableEq ι] (h : Handle)
    (schedule : List (ι × Event)) :
    let c := Pool.run (step h) schedule (initialPool h)
    c.shared.cacheCalls <+: h.releases ∧
    (c.shared.cacheCalls ≠ [] → c.shared.releaseOnce ≠ .fresh) ∧
    (c.shared.releaseOnce ≠ .fresh → .explicit ∉ c.shared.called →
      .handler ∈ c.shared.called ∧ ∀ id < c.shared.acquired, .task id ∈ c.shared.called) ∧
    ((∀ i, c.threads i = .idle) →
      (.handler ∈ c.shared.called ∧ ∀ id < c.shared.acquired, .task id ∈ c.shared.called) ∨
        .explicit ∈ c.shared.called → c.shared.cacheCalls = h.releases) ∧
    (∃ turns : List (ι × Event), (∀ turn ∈ turns, turn.2.finishes) ∧
      ∀ i, (Pool.run (step h) turns c).threads i = .idle) ∧
    (c.shared.stored = true → ∀ later : List (ι × Event),
      Cleared c.shared.acquired c.shared.cacheCalls (Pool.run (step h) later c)) := by
  intro c
  have consistent : Consistent h c := consistent_initially.run schedule
  refine ⟨consistent.once, ?_, ?_, ?_, consistent.ends, consistent.cleared_run⟩
  · intro some_ fresh
    obtain ⟨running, stored, untouched, _⟩ := consistent.opened
    have storesAll := Pool.tally_nonneg Thread.stores_nonneg c
    exact some_ (untouched (by grind))
  · intro begun silent
    exact callers_subset.mp (consistent.not_early begun silent)
  · intro quiet due
    exact consistent.released quiet (due.imp_left callers_subset.mpr)

end Sub2api.Billing.InflightReservation
