import Sub2api.Interleave.Pool

/-!
# Preemption of websocket sessions

Calls of `beginOpenAIWSSessionPreemptContext` on one session key, on any number of servers. A call
claims the key in Redis, then registers in its server's registry and cancels the entry it replaced;
from then on a watcher compares the owner in Redis now and then. A connection's number stands for
its token too. The contents of the state store and the close frame are left out: `preempted` is the
flag that is set before either.

`claims` and `checked` are history: how often the key was claimed, and how often it had been when a
connection last compared the owner.
-/

namespace Sub2api.OpenAIWS

open Interleave

/-- `openAIWSSessionPreemptEntry`: the cancel function is that of a connection. -/
structure Entry where
  generation : ℕ
  conn : ℕ
  deriving DecidableEq

/-- A server's registry, at the session key. -/
structure Registry where
  next : ℕ := 0
  active : Option Entry := none

structure Shared where
  owner : Option ℕ := none
  registry : ℕ → Registry := fun _ => {}
  preempted : ℕ → Bool := fun _ => false
  claims : ℕ := 0
  checked : ℕ → ℕ := fun _ => 0

/-- `Begin` up to the unlock, with the generations other keys took since: the replaced entry is to
be cancelled. -/
def Registry.begin (r : Registry) (others conn : ℕ) : ℕ × Option Entry × Registry :=
  let generation := r.next + others + 1
  (generation, r.active, { next := generation, active := some { generation, conn } })

/-- The cleanup that `Begin` returns. -/
def Registry.cleanup (r : Registry) (generation : ℕ) : Registry :=
  match r.active with
  | some current => if current.generation = generation then { r with active := none } else r
  | none => r

/-- `claimOpenAIResponsesSessionWindowScript`. -/
def Shared.claim (s : Shared) (token : ℕ) : Option ℕ × Shared :=
  (s.owner, { s with owner := some token, claims := s.claims + 1 })

/-- `compareAndRefreshOpenAIResponsesSessionWindowScript`. -/
def Shared.compareAndRefresh (s : Shared) (expected : ℕ) : Bool × Shared :=
  (s.owner == some expected, { s with checked := Function.update s.checked expected s.claims })

/-- `compareAndDeleteOpenAIResponsesSessionWindowScript`. -/
def Shared.compareAndDelete (s : Shared) (expected : ℕ) : Shared :=
  if s.owner = some expected then { s with owner := none } else s

def Shared.preempt (s : Shared) (conn : ℕ) : Shared :=
  { s with preempted := Function.update s.preempted conn true }

def Shared.setRegistry (s : Shared) (server : ℕ) (r : Registry) : Shared :=
  { s with registry := Function.update s.registry server r }

/-- Where the call and its cleanup stand. -/
inductive Caller where
  | calling
  | claimed (previousRemoteOwner : Option ℕ)
  | registered (previous : Option Entry) (preemptedRemote : Bool)
  | returned (preemptedPrevious : Bool)
  | stopped
  | removed
  | cleaned
  deriving DecidableEq

inductive Watcher where
  | off
  | waiting
  /-- The owner was another one: the connection is about to be preempted. -/
  | lost
  | ended
  deriving DecidableEq

structure Connection where
  conn : ℕ
  server : ℕ
  generation : ℕ := 0
  caller : Caller := .calling
  watcher : Watcher := .off

inductive Move where
  /-- The call or its cleanup goes on; other keys took some generations. -/
  | proceed (others : ℕ)
  /-- The cleanup is called. -/
  | cleanup
  | watch
  deriving DecidableEq

def step : StepFn Move Connection Shared
  | .proceed others, c, s =>
      match c.caller with
      | .calling =>
          let (previous, s) := s.claim c.conn
          some ({ c with caller := .claimed previous }, s)
      | .claimed previous =>
          let (generation, replaced, registry) := (s.registry c.server).begin others c.conn
          some ({ c with
            generation
            caller := .registered replaced (previous.any (· ≠ c.conn)) },
            s.setRegistry c.server registry)
      | .registered replaced remote =>
          some ({ c with caller := .returned (remote || replaced.isSome), watcher := .waiting },
            match replaced with
            | some previous => s.preempt previous.conn
            | none => s)
      | .returned _ => none
      | .stopped =>
          some ({ c with caller := .removed },
            s.setRegistry c.server ((s.registry c.server).cleanup c.generation))
      | .removed => some ({ c with caller := .cleaned }, s.compareAndDelete c.conn)
      | .cleaned => none
  | .cleanup, c, s =>
      match c.caller with
      | .returned _ => some ({ c with caller := .stopped }, s)
      | _ => none
  | .watch, c, s =>
      match c.watcher with
      | .waiting =>
          let (owned, s) := s.compareAndRefresh c.conn
          some ({ c with watcher := if owned then .waiting else .lost }, s)
      | .lost => some ({ c with watcher := .ended }, s.preempt c.conn)
      | .off => none
      | .ended => none

/-- Every call is made, on its server; a call that never moves was not. -/
def start (server : ℕ → ℕ) : Pool ℕ Connection Shared where
  shared := {}
  threads i := { conn := i, server := server i }

def run (server : ℕ → ℕ) (schedule : List (ℕ × Move)) : Pool ℕ Connection Shared :=
  (start server).run step schedule

/-! ### What is claimed -/

def Caller.hasReturned : Caller → Bool
  | .calling => true
  | .claimed _ => false
  | .registered _ _ => false
  | _ => true

/-- A connection whose call was made, and that is not preempted. -/
def Survives (c : Pool ℕ Connection Shared) (i : ℕ) : Prop :=
  (c.threads i).caller ≠ .calling ∧ c.shared.preempted i = false

/-- Once all calls have returned, exactly one connection is not preempted. -/
def OneSurvivor (c : Pool ℕ Connection Shared) : Prop :=
  (∀ i, (c.threads i).caller.hasReturned = true) → (∃ i, (c.threads i).caller ≠ .calling) →
    ∃! i, Survives c i

/-- Only a preempted connection's cleanup is called. -/
def ClosesPreempted (c : Pool ℕ Connection Shared) (i : ℕ) (move : Move) : Prop :=
  move = .cleanup → c.shared.preempted i = true

/-- The connection is its server's entry. -/
def Registered (c : Pool ℕ Connection Shared) (i : ℕ) : Prop :=
  ∃ e, (c.shared.registry (c.threads i).server).active = some e ∧ e.conn = i

/-- A cleanup leaves the registration and the ownership of every other connection alone. -/
def CleanupSafe (c : Pool ℕ Connection Shared) (i : ℕ) (move : Move) : Prop :=
  (c.threads i).caller = .stopped ∨ (c.threads i).caller = .removed ∨ move = .cleanup →
    ∀ other ≠ i, (Registered c other → Registered (c.advance step i move) other) ∧
      (c.shared.owner = some other → (c.advance step i move).shared.owner = some other)

/-! ### When it holds -/

/-- A call that registers does not replace the connection that owns the key in Redis. -/
def RegistersInOrder (c : Pool ℕ Connection Shared) (i : ℕ) (move : Move) : Prop :=
  ∀ others previous, move = .proceed others → (c.threads i).caller = .claimed previous →
    ∀ e, (c.shared.registry (c.threads i).server).active = some e → c.shared.owner ≠ some e.conn

/-- Every server's entry that does not own the key has made an owner check since the last claim. -/
def OwnersChecked (c : Pool ℕ Connection Shared) : Prop :=
  ∀ i, Registered c i → c.shared.owner ≠ some i →
    c.shared.checked i = c.shared.claims ∧ (c.threads i).watcher ≠ .lost

end Sub2api.OpenAIWS
