import Mathlib.Algebra.BigOperators.Group.Finset.Basic
import Mathlib.Algebra.Order.BigOperators.Group.Finset
import Sub2api.Database.Numeric
import Sub2api.Floats.Significant
import Sub2api.Interleave.Owned
import Sub2api.Redis.Key

/-!
# Fixed charges

A charge whose amount is known before it is billed reserves its scopes, reads their usage, and is
admitted when usage, amount and the other reservations fit the limits; an admitted charge is
billed and then releases its scopes. Limits and amounts are the values of doubles, which are added
and compared as such, and the windows are those in force during the run. `order`, `admitted`,
`rejected`, `billed` and `disturbed` are history.
-/

namespace Sub2api.FixedCharge

open Database
open Interleave
open Significant

/-- What a reservation is made on: `sub:<id>` or `apikey:<id>`. -/
inductive Scope where
  | subscription (id : ℤ)
  | apiKey (id : ℤ)
  deriving DecidableEq

inductive Window where
  | daily
  | weekly
  | monthly
  | quota
  | rate5h
  | rate1d
  | rate7d
  deriving DecidableEq

/-- The windows of a scope, in the order in which they are checked. -/
def Scope.windows : Scope → List Window
  | .subscription _ => [.daily, .weekly, .monthly]
  | .apiKey _ => [.quota, .rate5h, .rate1d, .rate7d]

/-- The errors of `ReserveFixedCharge`. -/
inductive ReserveError where
  | insufficientBalance
  | billingServiceUnavailable
  /-- `ErrDailyLimitExceeded`, …, `ErrAPIKeyRateLimit7dExceeded`. -/
  | limitExceeded (window : Window)

structure Config where
  /-- `billing.inflight_reservation.enabled`. -/
  enabled : Bool := true
  ttlMs : ℤ := 900000
  /-- The limits; there is none where the number is not positive. -/
  limit : Scope → Window → ℚ

def Config.limited (cfg : Config) (scope : Scope) : Bool :=
  scope.windows.any fun window => decide (0 < cfg.limit scope window)

structure Call where
  /-- The subscription that is billed; without one the balance is. -/
  subscription : Option ℤ := none
  apiKey : Option ℤ := none
  amount : ℚ

def Call.scopes (call : Call) : List Scope :=
  (call.subscription.map .subscription).toList ++ (call.apiKey.map .apiKey).toList

/-- A member of the scope's sorted set and its value in the scope's hash. -/
structure Reservation where
  member : ℕ
  amount : ℚ
  expireAt : ℤ
  deriving DecidableEq

structure State where
  usage : Scope → Window → ℚ
  reservations : Scope → List Reservation := fun _ => []
  /-- Who has reserved the scope, in order. -/
  order : Scope → List ℕ := fun _ => []
  admitted : Finset ℕ := ∅
  rejected : Finset ℕ := ∅
  billed : Finset ℕ := ∅
  /-- A reservation has expired, or a reserving or a billing call has failed. -/
  disturbed : Bool := false

structure Env where
  /-- The call fails. -/
  fails : Bool := false
  now : ℤ := 0
  hvals : Redis.Listing ℚ := .stored
  /-- What the balance and its in-flight reservations answer. -/
  balance : Option ReserveError := none

abbrev Op (α : Type) := Prog State Env α

/-! ### Reservations -/

/-- A sum as its text gives it: `tostring` writes fourteen digits, which `ParseFloat` reads. -/
def shown (sum : ℚ) : ℚ := double (nearest 10 14 sum)

/-- Of the scope's reservations these are alive; a new one is entered. -/
def State.enter (s : State) (scope : Scope) (alive : List Reservation) (r : Reservation) :
    State :=
  { s with
    reservations := Function.update s.reservations scope
      (alive.filter (·.member ≠ r.member) ++ [r])
    order := Function.update s.order scope (s.order scope ++ [r.member])
    disturbed := s.disturbed || decide (alive ≠ s.reservations scope) }

/-- `ReserveInflightScope`: expired members are purged, and what the others have reserved is
summed before the reservation is entered. A failing call admits as if nothing were reserved. -/
def reserveInflightScope (cfg : Config) (me : ℕ) (scope : Scope) (amount : ℚ) :
    Op (Option ℚ) :=
  if cfg.enabled then
    .atomic fun env s =>
      if env.fails then (none, { s with disturbed := true })
      else
        let alive := (s.reservations scope).filter (env.now < ·.expireAt)
        (some (shown (doubleSum (env.hvals.order (alive.map (·.amount))))), s.enter scope alive
          { member := me, amount := amount, expireAt := env.now + max 1 cfg.ttlMs })
  else pure none

/-- `ReleaseInflightScope`. -/
def releaseInflightScope (me : ℕ) (scope : Scope) : Op Unit :=
  .atomic fun env s =>
    if env.fails then ((), s)
    else
      ((), { s with
        reservations := Function.update s.reservations scope
          ((s.reservations scope).filter (·.member ≠ me)) })

/-- `Release`. -/
def release (me : ℕ) : List Scope → Op Unit
  | [] => pure ()
  | scope :: rest => do
    releaseInflightScope me scope
    release me rest

/-! ### The checks -/

/-- The usage of a scope's row. -/
def readUsage (scope : Scope) : Op (Option (Window → ℚ)) :=
  .atomic fun env s =>
    (if env.fails then none else some fun window => double (s.usage scope window), s)

/-- The first window whose limit the usage and what is pending exceed. -/
def firstExceeded (cfg : Config) (scope : Scope) (usage : Window → ℚ) (pending : ℚ) :
    Option Window :=
  scope.windows.find? fun window =>
    decide (0 < cfg.limit scope window ∧
      cfg.limit scope window < double (usage window + pending))

/-- Read a scope's usage and check it. -/
def checkScope (cfg : Config) (scope : Scope) (pending : ℚ) : Op (Option ReserveError) := do
  let read ← readUsage scope
  match read with
  | none => pure (some .billingServiceUnavailable)
  | some usage => pure ((firstExceeded cfg scope usage pending).map .limitExceeded)

def checkFixedChargeSubscription (cfg : Config) (id : ℤ) (pending : ℚ) :
    Op (Option ReserveError) :=
  checkScope cfg (.subscription id) pending

/-- A key without limits is not read. -/
def checkFixedChargeAPIKey (cfg : Config) (id : ℤ) (pending : ℚ) : Op (Option ReserveError) :=
  if cfg.limited (.apiKey id) then checkScope cfg (.apiKey id) pending else pure none

/-! ### The charge -/

/-- Reserve a scope of the call that has limits; the result is what the others have pending, and
the scopes to release. -/
def reserveLimited (cfg : Config) (me : ℕ) (scope : Option Scope) (amount : ℚ) :
    Op (ℚ × List Scope) :=
  match scope with
  | none => pure (0, [])
  | some scope =>
    if cfg.limited scope then do
      let reserved ← reserveInflightScope cfg me scope amount
      match reserved with
      | some pending => pure (pending, [scope])
      | none => pure (0, [])
    else pure (0, [])

/-- The check of the subscription, where one is billed. -/
def checkBilledSubscription (cfg : Config) (call : Call) (pending : ℚ) :
    Op (Option ReserveError) :=
  match call.subscription with
  | some id => checkFixedChargeSubscription cfg id (double (call.amount + pending))
  | none => pure none

/-- The checks of the call's scopes, the second after the first has passed. -/
def checkCall (cfg : Config) (call : Call) (subscriptionPending apiKeyPending : ℚ) :
    Op (Option ReserveError) := do
  let first ← checkBilledSubscription cfg call subscriptionPending
  match first, call.apiKey with
  | some err, _ => pure (some err)
  | none, some id => checkFixedChargeAPIKey cfg id (double (call.amount + apiKeyPending))
  | none, none => pure none

/-- History: what became of the charge. -/
def decideCharge (me : ℕ) (accept : Bool) : Op Unit :=
  .atomic fun _ s => ((), if accept then { s with admitted := insert me s.admitted }
    else { s with rejected := insert me s.rejected })

/-- The checks of the balance, where it is billed. -/
def checkBalance (call : Call) : Op (Option ReserveError) :=
  match call.subscription with
  | some _ => pure none
  | none => Prog.ask fun env => env.balance

/-- `ReserveFixedCharge`: an error, or the scopes that the handle will release. -/
def reserveFixedCharge (cfg : Config) (me : ℕ) (call : Call) :
    Op (Except ReserveError (List Scope)) := do
  let balance ← checkBalance call
  match balance with
  | some err => pure (.error err)
  | none => do
    let subscription ← reserveLimited cfg me (call.subscription.map .subscription) call.amount
    let apiKey ← reserveLimited cfg me (call.apiKey.map .apiKey) call.amount
    let verdict ← checkCall cfg call subscription.1 apiKey.1
    decideCharge me verdict.isNone
    match verdict with
    | some err => do
      release me (subscription.2 ++ apiKey.2)
      pure (.error err)
    | none => pure (.ok (subscription.2 ++ apiKey.2))

/-- `QuantizeUsageBillingAmount`, on rationals. -/
def quantize (amount : ℚ) : ℚ := roundScale 8 amount

/-- Whether billing the call moves the window's usage: a subscription's windows always, an API
key's quota and its rate windows when they have limits. -/
def Call.bills (cfg : Config) (call : Call) (scope : Scope) (window : Window) : Bool :=
  decide (scope ∈ call.scopes ∧ window ∈ scope.windows) &&
    match window with
    | .daily | .weekly | .monthly => true
    | .quota => decide (0 < cfg.limit scope .quota)
    | .rate5h | .rate1d | .rate7d =>
      decide (0 < cfg.limit scope .rate5h ∨ 0 < cfg.limit scope .rate1d ∨
        0 < cfg.limit scope .rate7d)

/-- The billing transaction; the columns keep the eight decimals of a quantized amount. -/
def bill (cfg : Config) (me : ℕ) (call : Call) : Op Unit :=
  .atomic fun env s =>
    if env.fails then ((), { s with disturbed := true })
    else
      ((), { s with
        usage := fun scope window =>
          if call.bills cfg scope window then s.usage scope window + quantize call.amount
          else s.usage scope window
        billed := insert me s.billed })

/-- A fixed charge from its reservation to its release. -/
def Call.program (cfg : Config) (me : ℕ) (call : Call) : Op Unit :=
  if call.amount ≤ 0 then pure ()
  else do
    let reserved ← reserveFixedCharge cfg me call
    match reserved with
    | .error _ => pure ()
    | .ok scopes => do
      bill cfg me call
      release me scopes

/-- The pool of all calls after a schedule of turns. -/
def run (cfg : Config) (calls : ℕ → Call) (s : State) (schedule : List (ℕ × Env)) :
    Pool ℕ (Op Unit) State :=
  Pool.run Prog.step schedule { shared := s, threads := fun me => (calls me).program cfg me }

/-- The charges on a scope that have been admitted. -/
def State.admittedOn (s : State) (calls : ℕ → Call) (scope : Scope) : Finset ℕ :=
  s.admitted.filter fun me => scope ∈ (calls me).scopes

end Sub2api.FixedCharge
