import Mathlib.Algebra.Order.Ring.Int
import Sub2api.Interleave.Histories

/-!
# The circuit breaker of the billing checks

Every operation holds the breaker's mutex, so a run is a list of calls with the time that each read.
Times are nanoseconds of one clock and do not go back.
-/

namespace Sub2api.Billing.CircuitBreaker

structure CircuitBreakerConfig where
  failureThreshold : ℤ := 0
  resetTimeoutSeconds : ℤ := 0
  halfOpenRequests : ℤ := 0

inductive State where
  | billingCircuitClosed
  | billingCircuitOpen
  | billingCircuitHalfOpen
  deriving DecidableEq

open State

structure Breaker where
  state : State
  failures : ℤ := 0
  openedAt : ℤ := 0
  failureThreshold : ℤ
  resetTimeout : ℤ
  halfOpenRequests : ℤ
  halfOpenRemaining : ℤ := 0

def newBillingCircuitBreaker (cfg : CircuitBreakerConfig) : Breaker :=
  { state := billingCircuitClosed
    failureThreshold := if cfg.failureThreshold ≤ 0 then 5 else cfg.failureThreshold
    resetTimeout :=
      if cfg.resetTimeoutSeconds * 1000000000 ≤ 0 then 30 * 1000000000
      else cfg.resetTimeoutSeconds * 1000000000
    halfOpenRequests := if cfg.halfOpenRequests ≤ 0 then 1 else cfg.halfOpenRequests }

namespace Breaker

/-- `Allow` in the half-open state. -/
def allowHalfOpen (b : Breaker) : Breaker × Bool :=
  if b.halfOpenRemaining ≤ 0 then (b, false)
  else ({ b with halfOpenRemaining := b.halfOpenRemaining - 1 }, true)

def allow (b : Breaker) (now : ℤ) : Breaker × Bool :=
  match b.state with
  | billingCircuitClosed => (b, true)
  | billingCircuitOpen =>
    if now - b.openedAt < b.resetTimeout then (b, false)
    else
      { b with
        state := billingCircuitHalfOpen
        halfOpenRemaining := b.halfOpenRequests }.allowHalfOpen
  | billingCircuitHalfOpen => b.allowHalfOpen

def opened (b : Breaker) (now : ℤ) : Breaker :=
  { b with state := billingCircuitOpen, openedAt := now, halfOpenRemaining := 0 }

def onFailure (b : Breaker) (now : ℤ) : Breaker :=
  match b.state with
  | billingCircuitOpen => b
  | billingCircuitHalfOpen => b.opened now
  | billingCircuitClosed =>
    let b := { b with failures := b.failures + 1 }
    if b.failureThreshold ≤ b.failures then b.opened now else b

def onSuccess (b : Breaker) : Breaker :=
  { b with state := billingCircuitClosed, failures := 0, halfOpenRemaining := 0 }

end Breaker

inductive Operation where
  | allow
  | onSuccess
  | onFailure
  deriving DecidableEq

structure Call where
  operation : Operation
  now : ℤ

/-- One call: the breaker after it, and the answer of an `Allow`. -/
def Breaker.call (b : Breaker) (call : Call) : Breaker × Option Bool :=
  match call.operation with
  | .allow => ((b.allow call.now).1, some (b.allow call.now).2)
  | .onSuccess => (b.onSuccess, none)
  | .onFailure => (b.onFailure call.now, none)

def Breaker.run (b : Breaker) (calls : List Call) : Breaker :=
  calls.foldl (fun b call => (b.call call).1) b

/-! ### What the breaker promises -/

/-- The call opened the breaker. -/
def Opens (b : Breaker) (call : Call) : Prop :=
  b.state ≠ billingCircuitOpen ∧ (b.call call).1.state = billingCircuitOpen

/-- After the calls, an `Allow` is refused until the timeout of every opening has passed. -/
def StaysOpen (start : Breaker) (calls : List Call) : Prop :=
  ∀ before call after now, calls = before ++ call :: after → Opens (start.run before) call →
    (∀ other ∈ calls, other.now ≤ now) → now < call.now + start.resetTimeout →
    ((start.run calls).allow now).2 = false

/-- How many of these calls of `Allow` are admitted in the half-open state. -/
def admitted : Breaker → List ℤ → ℕ
  | _, [] => 0
  | b, now :: rest =>
    (if (b.allow now).2 = true ∧ (b.allow now).1.state = billingCircuitHalfOpen then 1 else 0) +
      admitted (b.allow now).1 rest

/-- Between two outcomes no more is admitted half-open than configured. -/
def Probes (start : Breaker) (calls : List Call) : Prop :=
  ∀ allows : List ℤ, (admitted (start.run calls) allows : ℤ) ≤ start.halfOpenRequests

/-- Failures in a row that reach the threshold open a closed breaker. -/
def Trips (start : Breaker) (calls : List Call) : Prop :=
  ∀ before later, calls = before ++ later → (start.run before).state = billingCircuitClosed →
    (∀ call ∈ later, call.operation ≠ .onSuccess) →
    start.failureThreshold ≤ (later.countP fun call => call.operation = .onFailure) →
    ∃ first rest, later = first ++ rest ∧
      (start.run (before ++ first)).state = billingCircuitOpen

/-- The promises, at every point of a run. -/
def Kept (start : Breaker) (calls : List Call) : Prop :=
  ∀ before after, calls = before ++ after →
    StaysOpen start before ∧ Probes start before ∧ Trips start before

/-- No success is reported while the breaker is open and its timeout has not passed. -/
def NoEarlySuccess (start : Breaker) (calls : List Call) : Prop :=
  ∀ before call after, calls = before ++ call :: after → call.operation = .onSuccess →
    (start.run before).state = billingCircuitOpen →
    (start.run before).openedAt + start.resetTimeout ≤ call.now

/-- The clock does not go back. -/
def Nondecreasing (calls : List Call) : Prop := calls.Pairwise fun a b => a.now ≤ b.now

/-! ### Steps -/

section Steps

variable {b : Breaker}

/-- What holds of the breaker after any calls: its configuration is kept, a closed one is below its
threshold, and no more probes are left than configured. -/
structure Sound (start b : Breaker) : Prop where
  failureThreshold : b.failureThreshold = start.failureThreshold
  resetTimeout : b.resetTimeout = start.resetTimeout
  halfOpenRequests : b.halfOpenRequests = start.halfOpenRequests
  remaining : b.halfOpenRemaining ≤ start.halfOpenRequests
  requests : 0 ≤ start.halfOpenRequests
  nonneg : 0 ≤ b.failures
  failures : b.state = billingCircuitClosed → b.failures < start.failureThreshold
  threshold : 0 < start.failureThreshold

variable {start : Breaker}

theorem Sound.allowHalfOpen (sound : Sound start b) (halfOpen : b.state = billingCircuitHalfOpen) :
    Sound start b.allowHalfOpen.1 := by
  unfold Breaker.allowHalfOpen
  split
  · exact sound
  · have remaining := sound.remaining
    exact { sound with
      remaining := by dsimp only; omega
      failures := fun closed => by rw [halfOpen] at closed; cases closed }

theorem Sound.allow (sound : Sound start b) (now : ℤ) : Sound start (b.allow now).1 := by
  unfold Breaker.allow
  split
  · exact sound
  · split
    · exact sound
    · apply Sound.allowHalfOpen _ rfl
      exact { sound with
        remaining := sound.halfOpenRequests.le
        failures := fun closed => by cases closed }
  · rename_i halfOpen
    exact sound.allowHalfOpen halfOpen

theorem Sound.opened (sound : Sound start b) (now : ℤ) : Sound start (b.opened now) :=
  { sound with
    remaining := sound.requests
    failures := fun closed => by cases closed }

theorem Sound.onFailure (sound : Sound start b) (now : ℤ) : Sound start (b.onFailure now) := by
  unfold Breaker.onFailure
  split
  · exact sound
  · exact sound.opened now
  · dsimp only
    have nonneg := sound.nonneg
    split
    · exact { sound with
        remaining := sound.requests
        nonneg := by change 0 ≤ b.failures + 1; omega
        failures := fun closed => by cases closed }
    · rename_i below
      rw [sound.failureThreshold] at below
      exact { sound with
        nonneg := by dsimp only; omega
        failures := fun _ => not_le.mp below }

theorem Sound.call (sound : Sound start b) (call : Call) : Sound start (b.call call).1 := by
  obtain ⟨operation, now⟩ := call
  cases operation with
  | allow => exact sound.allow now
  | onSuccess =>
    exact { sound with
      remaining := sound.requests
      nonneg := le_rfl
      failures := fun _ => sound.threshold }
  | onFailure => exact sound.onFailure now

theorem Sound.run (sound : Sound start b) (calls : List Call) : Sound start (b.run calls) := by
  induction calls generalizing b with
  | nil => exact sound
  | cons call rest ih => exact ih (sound.call call)

theorem sound_new (cfg : CircuitBreakerConfig) :
    Sound (newBillingCircuitBreaker cfg) (newBillingCircuitBreaker cfg) where
  failureThreshold := rfl
  resetTimeout := rfl
  halfOpenRequests := rfl
  remaining := by
    unfold newBillingCircuitBreaker
    dsimp only
    split <;> omega
  requests := by
    unfold newBillingCircuitBreaker
    dsimp only
    split <;> omega
  nonneg := le_rfl
  failures _ := by
    unfold newBillingCircuitBreaker
    dsimp only
    split <;> omega
  threshold := by
    unfold newBillingCircuitBreaker
    dsimp only
    split <;> omega

end Steps

/-! ### Probes -/

section Probes

variable {start b : Breaker}

theorem admitted_halfOpen (allows : List ℤ) (halfOpen : b.state = billingCircuitHalfOpen) :
    (admitted b allows : ℤ) ≤ max 0 b.halfOpenRemaining := by
  induction allows generalizing b with
  | nil => exact le_max_left 0 _
  | cons now rest ih =>
    have same : b.allow now = b.allowHalfOpen := by
      unfold Breaker.allow
      rw [halfOpen]
    unfold admitted
    rw [same]
    unfold Breaker.allowHalfOpen
    split
    · simpa using ih halfOpen
    · rename_i some_
      have later := ih (b := { b with halfOpenRemaining := b.halfOpenRemaining - 1 }) halfOpen
      dsimp only at later ⊢
      rw [if_pos ⟨rfl, halfOpen⟩]
      push_cast
      omega

theorem admitted_le (sound : Sound start b) (allows : List ℤ) :
    (admitted b allows : ℤ) ≤ start.halfOpenRequests := by
  have requests := sound.requests
  have remaining := sound.remaining
  induction allows with
  | nil => exact requests
  | cons now rest ih =>
    cases state : b.state with
    | billingCircuitClosed =>
      have same : b.allow now = (b, true) := by
        unfold Breaker.allow
        rw [state]
      unfold admitted
      rw [same]
      simpa [state] using ih
    | billingCircuitOpen =>
      by_cases early : now - b.openedAt < b.resetTimeout
      · have same : b.allow now = (b, false) := by
          unfold Breaker.allow
          rw [state]
          exact if_pos early
        unfold admitted
        rw [same]
        simpa using ih
      · generalize probing : ({ b with
          state := billingCircuitHalfOpen
          halfOpenRemaining := b.halfOpenRequests } : Breaker) = b'
        have halfOpen : b'.state = billingCircuitHalfOpen := by rw [← probing]
        have same : b.allow now = b'.allow now := by
          rw [← probing]
          unfold Breaker.allow
          rw [state]
          exact if_neg early
        have fits := admitted_halfOpen (now :: rest) halfOpen
        have left : b'.halfOpenRemaining = start.halfOpenRequests := by
          rw [← probing]
          exact sound.halfOpenRequests
        have counted : admitted b (now :: rest) = admitted b' (now :: rest) := by
          unfold admitted
          rw [same]
        rw [counted]
        omega
    | billingCircuitHalfOpen =>
      have fits := admitted_halfOpen (now :: rest) state
      omega

end Probes

/-! ### Failures in a row -/

section Failures

variable {start b : Breaker}

@[simp] theorem run_append (b : Breaker) (first rest : List Call) :
    b.run (first ++ rest) = (b.run first).run rest := by
  unfold Breaker.run
  rw [List.foldl_append]

@[simp] theorem run_cons (b : Breaker) (call : Call) (rest : List Call) :
    b.run (call :: rest) = (b.call call).1.run rest := rfl

/-- A closed breaker that lacks no more failures than come opens on one of them. -/
theorem opens_on_failures (later : List Call) (sound : Sound start b)
    (closed : b.state = billingCircuitClosed)
    (noSuccess : ∀ call ∈ later, call.operation ≠ .onSuccess)
    (enough : start.failureThreshold ≤
      b.failures + (later.countP fun call => call.operation = .onFailure)) :
    ∃ first rest, later = first ++ rest ∧ (b.run first).state = billingCircuitOpen := by
  induction later generalizing b with
  | nil =>
    have below := sound.failures closed
    simp only [List.countP_nil] at enough
    omega
  | cons call rest ih =>
    have noLater : ∀ call ∈ rest, call.operation ≠ .onSuccess :=
      fun call here => noSuccess call (List.mem_cons_of_mem _ here)
    obtain ⟨operation, now⟩ := call
    cases operation with
    | allow =>
      have same : (b.call ⟨.allow, now⟩).1 = b := by
        change (b.allow now).1 = b
        unfold Breaker.allow
        rw [closed]
      obtain ⟨first, rest', rfl, isOpen⟩ := ih sound closed noLater (by simpa using enough)
      exact ⟨⟨.allow, now⟩ :: first, rest', rfl, by rwa [run_cons, same]⟩
    | onSuccess => exact absurd rfl (noSuccess _ (List.mem_cons_self ..))
    | onFailure =>
      have step : (b.call ⟨.onFailure, now⟩).1 =
          if b.failureThreshold ≤ b.failures + 1 then
            { b with failures := b.failures + 1 }.opened now
          else { b with failures := b.failures + 1 } := by
        change b.onFailure now = _
        unfold Breaker.onFailure
        rw [closed]
      by_cases reached : b.failureThreshold ≤ b.failures + 1
      · rw [if_pos reached] at step
        exact ⟨[⟨.onFailure, now⟩], rest, rfl, by rw [run_cons, step]; rfl⟩
      · rw [if_neg reached] at step
        have kept := sound.call ⟨.onFailure, now⟩
        rw [step] at kept
        have left : start.failureThreshold ≤ (b.failures + 1) +
            (rest.countP fun call => call.operation = .onFailure) := by
          rw [List.countP_cons_of_pos (by simp)] at enough
          push_cast at enough
          omega
        obtain ⟨first, rest', rfl, isOpen⟩ := ih kept closed noLater left
        exact ⟨⟨.onFailure, now⟩ :: first, rest', rfl, by rwa [run_cons, step]⟩

end Failures

/-! ### Openings -/

section Openings

variable {start b : Breaker} {calls : List Call}

/-- The time of the opening is that of the call that opens. -/
theorem openedAt_of_opens {call : Call} (opens : Opens b call) :
    (b.call call).1.openedAt = call.now := by
  obtain ⟨was, isOpen⟩ := opens
  obtain ⟨operation, now⟩ := call
  cases operation with
  | allow =>
    change (b.allow now).1.state = _ at isOpen
    unfold Breaker.allow Breaker.allowHalfOpen at isOpen
    cases state : b.state with
    | billingCircuitOpen => exact absurd state was
    | billingCircuitClosed =>
      simp only [state] at isOpen
      cases isOpen
    | billingCircuitHalfOpen =>
      simp only [state] at isOpen
      split at isOpen
      · rw [state] at isOpen
        cases isOpen
      · cases isOpen
  | onSuccess => cases isOpen
  | onFailure =>
    change (b.onFailure now).openedAt = _
    change (b.onFailure now).state = _ at isOpen
    unfold Breaker.onFailure at isOpen ⊢
    cases state : b.state with
    | billingCircuitOpen => exact absurd state was
    | billingCircuitHalfOpen => rfl
    | billingCircuitClosed =>
      simp only [state] at isOpen ⊢
      split at isOpen
      · rename_i reached
        rw [if_pos reached]
        rfl
      · cases isOpen

/-- While the timeout runs, an open breaker leaves that state by a success only. -/
theorem call_of_open {call : Call} (was : b.state = billingCircuitOpen)
    (noSuccess : call.operation ≠ .onSuccess) (early : call.now < b.openedAt + b.resetTimeout) :
    (b.call call).1 = b := by
  obtain ⟨operation, now⟩ := call
  cases operation with
  | allow =>
    change (b.allow now).1 = b
    unfold Breaker.allow
    rw [was]
    dsimp only at early ⊢
    rw [if_pos (by omega)]
  | onSuccess => exact absurd rfl noSuccess
  | onFailure =>
    change b.onFailure now = b
    unfold Breaker.onFailure
    rw [was]

/-- A call that leaves the breaker open and did not open it leaves the time of the opening. -/
theorem openedAt_of_open {call : Call} (was : b.state = billingCircuitOpen)
    (isOpen : (b.call call).1.state = billingCircuitOpen) :
    (b.call call).1.openedAt = b.openedAt := by
  obtain ⟨operation, now⟩ := call
  cases operation with
  | allow =>
    change (b.allow now).1.openedAt = _
    unfold Breaker.allow Breaker.allowHalfOpen
    rw [was]
    dsimp only
    split
    · rfl
    · split <;> rfl
  | onSuccess => cases isOpen
  | onFailure =>
    change (b.onFailure now).openedAt = _
    unfold Breaker.onFailure
    rw [was]

/-- An open breaker opened on one of the calls. -/
theorem exists_opening (closed : start.state = billingCircuitClosed)
    (isOpen : (start.run calls).state = billingCircuitOpen) :
    ∃ before call after, calls = before ++ call :: after ∧ Opens (start.run before) call ∧
      (start.run calls).openedAt = call.now := by
  induction calls using List.reverseRecOn with
  | nil =>
    change start.state = _ at isOpen
    rw [closed] at isOpen
    cases isOpen
  | append_singleton calls call ih =>
    have step : start.run (calls ++ [call]) = ((start.run calls).call call).1 := run_append ..
    rw [step] at isOpen ⊢
    by_cases was : (start.run calls).state = billingCircuitOpen
    · obtain ⟨before, opening, after, same, opens, at_⟩ := ih was
      refine ⟨before, opening, after ++ [call], by simp [same], opens, ?_⟩
      rw [openedAt_of_open was isOpen, at_]
    · exact ⟨calls, call, [], rfl, ⟨was, isOpen⟩, openedAt_of_opens ⟨was, isOpen⟩⟩

/-- Until the timeout of an opening has passed, the breaker is open since then or later. -/
theorem open_of_opening (ordered : Nondecreasing calls) (timely : NoEarlySuccess start calls)
    (config : ∀ calls, (start.run calls).resetTimeout = start.resetTimeout)
    {before after : List Call} {call : Call} {now : ℤ} (split : calls = before ++ call :: after)
    (opens : Opens (start.run before) call) (latest : ∀ other ∈ calls, other.now ≤ now)
    (early : now < call.now + start.resetTimeout) :
    (start.run calls).state = billingCircuitOpen ∧ call.now ≤ (start.run calls).openedAt := by
  induction calls using List.reverseRecOn generalizing before call after with
  | nil => simp at split
  | append_singleton calls last ih =>
    have step : start.run (calls ++ [last]) = ((start.run calls).call last).1 := run_append ..
    rw [step]
    rcases Interleave.concat_eq_split split with ⟨rfl, rfl⟩ | ⟨after', same⟩
    · exact ⟨opens.2, (openedAt_of_opens opens).ge⟩
    · have ordered' := List.pairwise_append.mp ordered
      have timely' : NoEarlySuccess start calls := by
        intro before call after same
        exact timely before call (after ++ [last]) (by simp [same])
      obtain ⟨isOpen, le⟩ := ih ordered'.1 timely' same opens
        (fun other here => latest other (List.mem_append_left _ here)) early
      have lastEarly : last.now ≤ now :=
        latest last (List.mem_append_right _ (List.mem_singleton_self last))
      have stays : ((start.run calls).call last).1 = start.run calls := by
        apply call_of_open isOpen
        · intro success
          have passed := timely calls last [] rfl success isOpen
          omega
        · rw [config]
          omega
      rw [stays]
      exact ⟨isOpen, le⟩

end Openings

/-- The breaker keeps its promises in a run if and only if no success is reported to it while it is
open and its timeout has not passed. -/
theorem kept_iff_noEarlySuccess (cfg : CircuitBreakerConfig) {calls : List Call}
    (ordered : Nondecreasing calls) :
    Kept (newBillingCircuitBreaker cfg) calls ↔
      NoEarlySuccess (newBillingCircuitBreaker cfg) calls := by
  generalize new : newBillingCircuitBreaker cfg = start
  have sound : Sound start start := by
    rw [← new]
    exact sound_new cfg
  have closed : start.state = billingCircuitClosed := by
    rw [← new]
    rfl
  constructor
  · rintro kept before call after rfl success isOpen
    obtain ⟨first, opening, rest, same, opens, at_⟩ := exists_opening closed isOpen
    by_contra early
    have order := List.pairwise_append.mp ordered
    have latest : ∀ other ∈ before ++ [call], other.now ≤ call.now := by
      intro other here
      rcases List.mem_append.mp here with here | here
      · exact order.2.2 other here call (List.mem_cons_self ..)
      · rw [List.mem_singleton.mp here]
    have refused := (kept (before ++ [call]) after (by simp)).1 first opening (rest ++ [call])
      call.now (by simp [same]) opens latest (by omega)
    have step : start.run (before ++ [call]) = ((start.run before).call call).1 := run_append ..
    have admits : ((start.run (before ++ [call])).allow call.now).2 = true := by
      rw [step]
      unfold Breaker.call
      rw [success]
      rfl
    rw [admits] at refused
    cases refused
  · rintro timely before after rfl
    refine ⟨?_, fun allows => admitted_le (sound.run before) allows, ?_⟩
    · intro first opening rest now split opens latest early
      have timely' : NoEarlySuccess start before := by
        rintro before call rest rfl
        exact timely before call (rest ++ after) (by simp)
      obtain ⟨isOpen, le⟩ := open_of_opening (List.pairwise_append.mp ordered).1 timely'
        (fun calls => (sound.run calls).resetTimeout) split opens latest early
      unfold Breaker.allow
      rw [isOpen]
      dsimp only
      rw [if_pos (by rw [(sound.run before).resetTimeout]; omega)]
    · rintro first later rfl state noSuccess enough
      have reachable := sound.run first
      have nonneg := reachable.nonneg
      obtain ⟨opening, rest, rfl, isOpen⟩ := opens_on_failures later reachable state noSuccess
        (by omega)
      exact ⟨opening, rest, rfl, by rw [run_append]; exact isOpen⟩

/-- Two requests are admitted, one fails and opens the breaker, and the other's success comes in
after that. -/
def lateSuccess : List Call :=
  [⟨.allow, 0⟩, ⟨.allow, 0⟩, ⟨.onFailure, 1⟩, ⟨.onSuccess, 2⟩]

theorem lateSuccess_kept_iff :
    Nondecreasing lateSuccess ∧
      (Kept (newBillingCircuitBreaker { failureThreshold := 1 }) lateSuccess ↔
        NoEarlySuccess (newBillingCircuitBreaker { failureThreshold := 1 }) lateSuccess) := by
  have ordered : Nondecreasing lateSuccess := by
    unfold Nondecreasing lateSuccess
    decide
  exact ⟨ordered, kept_iff_noEarlySuccess _ ordered⟩

/-- The breaker opened at 1 for thirty seconds admits a request at 3. -/
theorem lateSuccess_admits :
    ¬∀ (cfg : CircuitBreakerConfig) (calls : List Call), Nondecreasing calls →
      Kept (newBillingCircuitBreaker cfg) calls := by
  intro kept
  have ordered : Nondecreasing lateSuccess := by
    unfold Nondecreasing lateSuccess
    decide
  have promise := (kept { failureThreshold := 1 } lateSuccess ordered lateSuccess [] rfl).1
  have refused := promise [⟨.allow, 0⟩, ⟨.allow, 0⟩] ⟨.onFailure, 1⟩ [⟨.onSuccess, 2⟩] 3 rfl
    (by unfold Opens; decide) (by decide) (by decide)
  revert refused
  decide

end Sub2api.Billing.CircuitBreaker
