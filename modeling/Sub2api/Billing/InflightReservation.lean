import Mathlib.Data.Finset.Card
import Mathlib.Data.Finset.Insert
import Sub2api.Interleave.Pool

/-!
# The handle of an in-flight reservation

References are counted atomically, and `sync.Once` guards what must happen once: who comes second
waits for the first. Every atomic operation is one step, and so is every call of the cache. The
goroutine that renews the reservation is part of the shared state, and any turn may be its.

`called`, `returned` and `stored` are history: what was called, whose reference was given back, and
whether the count was cleared.
-/

namespace Sub2api.Billing.InflightReservation

open Interleave

inductive Once where
  | fresh
  | running
  | done
  deriving DecidableEq

/-- What is released in the cache: the balance's reservation, or a scope's. -/
inductive CacheCall where
  | balance
  | scope (name : String)
  deriving DecidableEq

inductive Renewal where
  /-- None was started. -/
  | none
  | waiting
  | renewing
  | exited
  deriving DecidableEq

structure Handle where
  /-- The balance has a reservation. -/
  cache : Bool := true
  scopes : List String := []
  renews : Bool := true

/-- What `Release` calls of the cache. -/
def Handle.releases (h : Handle) : List CacheCall :=
  (if h.cache then [.balance] else []) ++ h.scopes.map .scope

/-- For whom a call runs: the handler's end, a done function, or an explicit `Release`. -/
inductive Caller where
  | handler
  | task (id : ℕ)
  | explicit
  deriving DecidableEq

structure World where
  refs : ℤ := 1
  releaseOnce : Once := .fresh
  /-- `stopOnce`, and the `once` of each done function. -/
  once : Caller → Once := fun _ => .fresh
  /-- The channel `stopRenew` is closed. -/
  stopRenew : Bool := false
  renewal : Renewal := .none
  /-- How many done functions were handed out. -/
  acquired : ℕ := 0
  /-- The cache calls of a release, in order. -/
  cacheCalls : List CacheCall := []
  called : Finset Caller := ∅
  returned : Finset Caller := ∅
  stored : Bool := false

/-- What `stopRenewal` is called for. -/
inductive After where
  | decrement
  | release
  deriving DecidableEq

inductive Thread where
  | idle
  /-- `Acquire` loads the count next, or compares and swaps it. -/
  | loading
  | swapping (cur : ℤ)
  /-- At the `Do` of the caller's `sync.Once`. -/
  | entering (caller : Caller)
  | stopping (caller : Caller) (after : After)
  | awaiting (caller : Caller) (after : After)
  | decrementing (caller : Caller)
  | releasing (caller : Caller)
  | storing (caller : Caller)
  | calling (caller : Caller) (rest : List CacheCall)
  | finishing (caller : Caller)
  deriving DecidableEq

inductive Event where
  | acquire
  | callDone (id : ℕ)
  | callHandlerDone
  | callRelease
  /-- The thread's next operation. -/
  | go
  /-- The renewing goroutine's: a tick, the answer of a renewal, or the end. -/
  | renewTick
  | renewed (alive : Bool)
  | renewStop

def After.next (caller : Caller) : After → Thread
  | .decrement => .decrementing caller
  | .release => .releasing caller

/-- What the guarded function of a caller starts with. -/
def Caller.start : Caller → Thread
  | .handler => .stopping .handler .decrement
  | .task id => .decrementing (.task id)
  | .explicit => .stopping .explicit .release

/-- The caller's `sync.Once` is through; an explicit `Release` has none. -/
def World.finish (w : World) (caller : Caller) : World :=
  if caller = .explicit then w else { w with once := Function.update w.once caller .done }

variable (h : Handle)

/-- The next operation of a call; `none` where it waits for another one. -/
def advance (w : World) : Thread → Option (Thread × World)
  | .idle => none
  | .loading => some (if w.refs ≤ 0 then .idle else .swapping w.refs, w)
  | .swapping cur =>
    if w.refs = cur then
      some (.idle, { w with refs := cur + 1, acquired := w.acquired + 1 })
    else some (.loading, w)
  | .entering caller =>
    match w.once caller with
    | .fresh => some (caller.start, { w with once := Function.update w.once caller .running })
    | .running => none
    | .done => some (.idle, w)
  | .stopping caller after =>
    if h.renews then some (.awaiting caller after, { w with stopRenew := true })
    else some (after.next caller, w)
  | .awaiting caller after =>
    if w.renewal = .exited then some (after.next caller, w) else none
  | .decrementing caller =>
    let w := { w with refs := w.refs - 1, returned := insert caller w.returned }
    some (if w.refs ≤ 0 then .stopping caller .release else .finishing caller, w)
  | .releasing caller =>
    match w.releaseOnce with
    | .fresh => some (.storing caller, { w with releaseOnce := .running })
    | .running => none
    | .done => some (.finishing caller, w)
  | .storing caller => some (.calling caller h.releases, { w with refs := 0, stored := true })
  | .calling caller [] => some (.finishing caller, { w with releaseOnce := .done })
  | .calling caller (call :: rest) =>
    some (.calling caller rest, { w with cacheCalls := w.cacheCalls ++ [call] })
  | .finishing caller => some (.idle, w.finish caller)

def step : StepFn Event Thread World := fun event thread w =>
  match event with
  | .acquire => if thread = .idle then some (.loading, w) else none
  | .callDone id =>
    if thread = .idle ∧ id < w.acquired then
      some (.entering (.task id), { w with called := insert (.task id) w.called })
    else none
  | .callHandlerDone =>
    if thread = .idle then
      some (.entering .handler, { w with called := insert .handler w.called })
    else none
  | .callRelease =>
    if thread = .idle then
      some (Caller.start .explicit, { w with called := insert .explicit w.called })
    else none
  | .go => advance h w thread
  | .renewTick =>
    if w.renewal = .waiting then some (thread, { w with renewal := .renewing }) else none
  | .renewed alive =>
    if w.renewal = .renewing then
      some (thread, { w with renewal := if alive then .waiting else .exited })
    else none
  | .renewStop =>
    if w.renewal = .waiting ∧ w.stopRenew then some (thread, { w with renewal := .exited })
    else none

variable {ι : Type*}

/-- A new handle, before any call. -/
def initialPool : Pool ι Thread World :=
  { shared := { renewal := if h.renews then .waiting else .none }
    threads := fun _ => .idle }

/-! ### Every step -/

section Steps

/-- A step of a thread, or of the renewing goroutine. -/
inductive Moves (w : World) : Thread → Thread → World → Prop where
  | acquire : Moves w .idle .loading w
  | call (caller : Caller) (known : ∀ id, caller = .task id → id < w.acquired)
      (guarded : caller ≠ .explicit) :
      Moves w .idle (.entering caller) { w with called := insert caller w.called }
  | release : Moves w .idle (.stopping .explicit .release) { w with called := insert .explicit w.called }
  | renewal (thread : Thread) (renewal : Renewal) (started : w.renewal ≠ .none)
      (still : renewal ≠ .none) : Moves w thread thread { w with renewal := renewal }
  | refused (few : w.refs ≤ 0) : Moves w .loading .idle w
  | loaded (some_ : 0 < w.refs) : Moves w .loading (.swapping w.refs) w
  | swapped (cur : ℤ) (same : w.refs = cur) :
      Moves w (.swapping cur) .idle { w with refs := cur + 1, acquired := w.acquired + 1 }
  | reload (cur : ℤ) : Moves w (.swapping cur) .loading w
  | enter (caller : Caller) (fresh : w.once caller = .fresh) :
      Moves w (.entering caller) caller.start
        { w with once := Function.update w.once caller .running }
  | again (caller : Caller) (done : w.once caller = .done) : Moves w (.entering caller) .idle w
  | stop (caller : Caller) (after : After) (renews : h.renews = true) :
      Moves w (.stopping caller after) (.awaiting caller after) { w with stopRenew := true }
  | skip (caller : Caller) (after : After) (renewless : h.renews = false) :
      Moves w (.stopping caller after) (after.next caller) w
  | stopped (caller : Caller) (after : After) (exited : w.renewal = .exited) :
      Moves w (.awaiting caller after) (after.next caller) w
  | last (caller : Caller) (last : w.refs - 1 ≤ 0) :
      Moves w (.decrementing caller) (.stopping caller .release)
        { w with refs := w.refs - 1, returned := insert caller w.returned }
  | decrement (caller : Caller) (more : 0 < w.refs - 1) :
      Moves w (.decrementing caller) (.finishing caller)
        { w with refs := w.refs - 1, returned := insert caller w.returned }
  | first (caller : Caller) (fresh : w.releaseOnce = .fresh) :
      Moves w (.releasing caller) (.storing caller) { w with releaseOnce := .running }
  | second (caller : Caller) (done : w.releaseOnce = .done) :
      Moves w (.releasing caller) (.finishing caller) w
  | store (caller : Caller) :
      Moves w (.storing caller) (.calling caller h.releases) { w with refs := 0, stored := true }
  | cacheCall (caller : Caller) (call : CacheCall) (rest : List CacheCall) :
      Moves w (.calling caller (call :: rest)) (.calling caller rest)
        { w with cacheCalls := w.cacheCalls ++ [call] }
  | through (caller : Caller) :
      Moves w (.calling caller []) (.finishing caller) { w with releaseOnce := .done }
  | finish (caller : Caller) : Moves w (.finishing caller) .idle (w.finish caller)

variable {h : Handle} {w w' : World} {thread thread' : Thread} {event : Event}

theorem advance_moves (moved : advance h w thread = some (thread', w')) :
    Moves h w thread thread' w' := by
  unfold advance at moved
  split at moved
  · cases moved
  · split at moved
    · rename_i few
      cases moved
      exact .refused few
    · rename_i some_
      cases moved
      exact .loaded (not_le.mp some_)
  · split at moved
    · rename_i same
      cases moved
      exact .swapped _ same
    · cases moved
      exact .reload _
  · split at moved
    · rename_i fresh
      cases moved
      exact .enter _ fresh
    · cases moved
    · rename_i done
      cases moved
      exact .again _ done
  · split at moved
    · rename_i renews
      cases moved
      exact .stop _ _ renews
    · rename_i renewless
      cases moved
      exact .skip _ _ (by simpa using renewless)
  · split at moved
    · rename_i exited
      cases moved
      exact .stopped _ _ exited
    · cases moved
  · dsimp only at moved
    split at moved
    · rename_i last
      cases moved
      exact .last _ last
    · rename_i more
      cases moved
      exact .decrement _ (not_le.mp more)
  · split at moved
    · rename_i fresh
      cases moved
      exact .first _ fresh
    · cases moved
    · rename_i done
      cases moved
      exact .second _ done
  · cases moved
    exact .store _
  · cases moved
    exact .through _
  · cases moved
    exact .cacheCall _ _ _
  · cases moved
    exact .finish _

theorem step_moves (moved : step h event thread w = some (thread', w')) :
    Moves h w thread thread' w' := by
  unfold step at moved
  split at moved
  · split at moved
    · rename_i idle
      cases moved
      rw [idle]
      exact .acquire
    · cases moved
  · split at moved
    · rename_i idle
      cases moved
      rw [idle.1]
      refine .call _ ?_ (by simp)
      rintro id same
      cases same
      exact idle.2
    · cases moved
  · split at moved
    · rename_i idle
      cases moved
      rw [idle]
      exact .call _ (by simp) (by simp)
    · cases moved
  · split at moved
    · rename_i idle
      cases moved
      rw [idle]
      exact .release
    · cases moved
  · exact advance_moves moved
  · split at moved
    · rename_i waiting
      cases moved
      exact .renewal _ _ (by simp [waiting]) (by simp)
    · cases moved
  · split at moved
    · rename_i renewing
      cases moved
      exact .renewal _ _ (by simp [renewing]) (by split <;> simp)
    · cases moved
  · split at moved
    · rename_i waiting
      cases moved
      exact .renewal _ _ (by simp [waiting.1]) (by simp)
    · cases moved

end Steps

end Sub2api.Billing.InflightReservation
