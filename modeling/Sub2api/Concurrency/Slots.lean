import Mathlib.Data.String.Basic
import Sub2api.Go.Strings
import Sub2api.Interleave.Owned
import Sub2api.Redis.Key

/-!
# Concurrency slots

The sorted sets of slots and live leases and the scripts on them. A script is one atomic action on
the clock of Redis, and time passes between actions as a party of its own. The active index, which
the scripts do not read, and the wait counters are left out. A lease id is generated for one call,
so `home` gives its account, user and API key. `replaced` and `admits` are history: which leases
were last admitted in place of regular slots, and how often a lease has been admitted.
-/

namespace Sub2api.Concurrency

open Interleave
open Redis

/-- The keys: `concurrency:account:<id>`, …, `concurrency:openai_ws_ingress:api_key:<id>`. -/
inductive SlotKey where
  | account (id : ℤ)
  | user (id : ℤ)
  | apiKey (id : ℤ)
  | liveAccount (id : ℤ)
  | liveUser (id : ℤ)
  | liveAPIKey (id : ℤ)
  | wsIngress (apiKeyID : ℤ)
  deriving DecidableEq

/-- The keys of live leases. -/
def SlotKey.isLive : SlotKey → Bool
  | .liveAccount _ | .liveUser _ | .liveAPIKey _ => true
  | _ => false

/-- Whose slots are counted. -/
inductive Owner where
  | account (id : ℤ)
  | user (id : ℤ)
  deriving DecidableEq

def Owner.regular : Owner → SlotKey
  | .account id => .account id
  | .user id => .user id

def Owner.live : Owner → SlotKey
  | .account id => .liveAccount id
  | .user id => .liveUser id

structure Home where
  account : ℤ
  user : ℤ
  apiKey : ℤ

def Home.owners (home : Home) : List Owner := [.account home.account, .user home.user]

def Home.keys (home : Home) : List SlotKey :=
  [.liveAccount home.account, .liveUser home.user, .liveAPIKey home.apiKey]

structure Config where
  /-- `slotTTLSeconds`. -/
  slotTTL : ℕ := 900
  max : Owner → ℤ
  maxConnections : ℤ → ℤ := fun _ => 0
  home : String → Home

/-- `liveLeaseTTLSeconds` and `openAIWSIngressLeaseTTLSeconds`. -/
def leaseTTL : ℕ := 60

structure State where
  /-- The clock of Redis, in milliseconds. -/
  clock : ℤ := 0
  keys : SlotKey → Key String := fun _ => {}
  replaced : Finset String := ∅
  admits : String → ℕ := fun _ => 0

structure Env where
  outcome : Outcome := .done
  elapsed : ℕ := 0

abbrev Op (α : Type) := Prog State Env α

namespace State

/-- The first number of `TIME`. -/
def now (s : State) : ℤ := s.clock / 1000

def content (s : State) (k : SlotKey) : SortedSet String := (s.keys k).content s.clock

/-- `ZCARD`. -/
def count (s : State) (k : SlotKey) : ℤ := (s.content k).card

def modify (s : State) (k : SlotKey) (f : SortedSet String → SortedSet String) : State :=
  { s with keys := Function.update s.keys k ((s.keys k).update s.clock f) }

/-- `EXPIRE`, in seconds. -/
def expire (s : State) (k : SlotKey) (ttl : ℕ) : State :=
  { s with keys := Function.update s.keys k ((s.keys k).expire s.clock (ttl * 1000)) }

/-- `ZREMRANGEBYSCORE` of what has not been touched for so many seconds. -/
def cleanup (s : State) (k : SlotKey) (ttl : ℕ) : State :=
  s.modify k (SortedSet.removeUpTo (s.now - ttl))

/-- `ZADD` with the time of now, and `EXPIRE`. -/
def touch (s : State) (k : SlotKey) (member : String) (ttl : ℕ) : State :=
  (s.modify k (SortedSet.add member s.now)).expire k ttl

def touchAll (s : State) (ks : List SlotKey) (member : String) (ttl : ℕ) : State :=
  ks.foldl (fun s k => s.touch k member ttl) s

end State

/-! ### The scripts -/

/-- `acquireScript`. -/
def acquireScript (cfg : Config) (key liveKey : SlotKey) (max : ℤ) (requestID : String)
    (s : State) : Bool × State :=
  let s := (s.cleanup key cfg.slotTTL).cleanup liveKey leaseTTL
  if (s.content key).contains requestID then (true, s.touch key requestID cfg.slotTTL)
  else if s.count key + s.count liveKey < max then (true, s.touch key requestID cfg.slotTTL)
  else (false, s)

/-- `getCountScript`. -/
def getCountScript (cfg : Config) (key liveKey : SlotKey) (s : State) : ℤ × State :=
  let s := (s.cleanup key cfg.slotTTL).cleanup liveKey leaseTTL
  (s.count key + s.count liveKey, s)

/-- The lease enters its three sets. -/
def State.accept (s : State) (home : Home) (leaseID : String) (replacing : Bool) : State :=
  { s.touchAll home.keys leaseID leaseTTL with
    replaced := if replacing then insert leaseID s.replaced else s.replaced.erase leaseID
    admits := Function.update s.admits leaseID (s.admits leaseID + 1) }

/-- The maximum is set and reached. -/
def State.full (s : State) (cfg : Config) (owner : Owner) (allowance : ℤ) : Prop :=
  0 < cfg.max owner ∧ cfg.max owner + allowance ≤ s.count owner.regular + s.count owner.live

instance (s : State) (cfg : Config) (owner : Owner) (allowance : ℤ) :
    Decidable (s.full cfg owner allowance) :=
  inferInstanceAs (Decidable (_ ∧ _))

/-- A lease that replaces regular slots may be one more. -/
def allowance (replacing : Bool) : ℤ := if replacing then 1 else 0

/-- `acquireLiveLeaseScript`. -/
def acquireLiveLeaseScript (cfg : Config) (leaseID : String) (replacing : Bool) (s : State) :
    Bool × State :=
  let home := cfg.home leaseID
  let s := ((s.cleanup (.liveAccount home.account) leaseTTL).cleanup (.liveUser home.user)
    leaseTTL).cleanup (.liveAPIKey home.apiKey) leaseTTL
  if (s.content (.liveAccount home.account)).contains leaseID then (true, s)
  else if s.full cfg (.account home.account) (allowance replacing) then (false, s)
  else if s.full cfg (.user home.user) (allowance replacing) then (false, s)
  else (true, s.accept home leaseID replacing)

/-- The first loop of `refreshLiveLeaseScript`: it stops at the first key without the lease. -/
def checkLive (leaseID : String) : List SlotKey → State → Bool × State
  | [], s => (true, s)
  | k :: rest, s =>
      if ((s.cleanup k leaseTTL).content k).contains leaseID then
        checkLive leaseID rest (s.cleanup k leaseTTL)
      else (false, s.cleanup k leaseTTL)

/-- `refreshLiveLeaseScript`. -/
def refreshLiveLeaseScript (ks : List SlotKey) (leaseID : String) (s : State) : Bool × State :=
  match checkLive leaseID ks s with
  | (true, s) => (true, s.touchAll ks leaseID leaseTTL)
  | (false, s) => (false, s)

/-- The transaction of `ReleaseLiveLease`. -/
def releaseLiveLeaseTx (ks : List SlotKey) (leaseID : String) (s : State) : Unit × State :=
  ((), ks.foldl (fun s k => s.modify k (SortedSet.remove leaseID)) s)

/-- `trackSlotScript`. -/
def trackSlotScript (cfg : Config) (key : SlotKey) (requestID : String) (s : State) :
    Unit × State :=
  ((), (s.cleanup key cfg.slotTTL).touch key requestID cfg.slotTTL)

/-- `acquireOpenAIWSIngressLeaseScript`. -/
def acquireIngressScript (key : SlotKey) (max : ℤ) (leaseID : String) (s : State) :
    Bool × State :=
  let s := s.cleanup key leaseTTL
  if (s.content key).contains leaseID then (true, s.touch key leaseID leaseTTL)
  else if s.count key < max then (true, s.touch key leaseID leaseTTL)
  else (false, s)

/-- `refreshOpenAIWSIngressLeaseScript`. -/
def refreshIngressScript (key : SlotKey) (leaseID : String) (s : State) : Bool × State :=
  let s := s.cleanup key leaseTTL
  if (s.content key).contains leaseID then (true, s.touch key leaseID leaseTTL) else (false, s)

/-- `cleanupExpiredSlotsScript`. -/
def cleanupExpiredSlotsScript (cfg : Config) (key : SlotKey) (s : State) : Unit × State :=
  ((), (s.cleanup key cfg.slotTTL).expire key cfg.slotTTL)

/-- `startupCleanupSlotScript`: what does not belong to the running process goes. -/
def startupCleanupSlotScript (cfg : Config) (key : SlotKey) (running : String) (s : State) :
    Unit × State :=
  ((), (s.modify key (SortedSet.filter fun member _ => Go.hasPrefix member running)).expire key
    cfg.slotTTL)

/-! ### The cache -/

def command {α : Type} (effect : State → α × State) : Op (Option α) :=
  .atomic fun env s =>
    match env.outcome with
    | .done => (some (effect s).1, (effect s).2)
    | .failed => (none, s)
    | .lost => (none, (effect s).2)

/-- `redisUnixSeconds`. -/
def redisUnixSeconds : Op (Option ℤ) := command fun s => (s.now, s)

/-- `ZREMRANGEBYSCORE` up to a time that was read before. -/
def removeOlder (k : SlotKey) (cutoff : ℤ) : Op (Option Unit) :=
  command fun s => ((), s.modify k (SortedSet.removeUpTo cutoff))

/-- What expired before `now` is taken out of these keys, each with its time to live. -/
def sweepAt (now : ℤ) : List (SlotKey × ℕ) → Op Unit
  | [] => pure ()
  | (k, ttl) :: rest => do
      let _ ← removeOlder k (now - ttl)
      sweepAt now rest

/-- The reads of loads and of the active index begin so. -/
def sweep (ks : List (SlotKey × ℕ)) : Op Unit := do
  let time ← redisUnixSeconds
  match time with
  | none => pure ()
  | some now => sweepAt now ks

/-- `refreshActiveIndex`. -/
def refreshActiveIndex (cfg : Config) (owner : Owner) : Op Unit :=
  sweep [(owner.regular, cfg.slotTTL)]

/-- `AcquireAccountSlot` and `AcquireUserSlot`. -/
def acquireSlot (cfg : Config) (owner : Owner) (requestID : String) : Op (Option Bool) :=
  command (acquireScript cfg owner.regular owner.live (cfg.max owner) requestID)

/-- `ReleaseAccountSlot` and `ReleaseUserSlot`. -/
def releaseSlot (cfg : Config) (owner : Owner) (requestID : String) : Op Unit := do
  let removed ← command fun s => ((), s.modify owner.regular (SortedSet.remove requestID))
  match removed with
  | none => pure ()
  | some () => refreshActiveIndex cfg owner

/-- `GetAccountConcurrency` and `GetUserConcurrency`. -/
def getConcurrency (cfg : Config) (owner : Owner) : Op (Option ℤ) :=
  command (getCountScript cfg owner.regular owner.live)

/-- `GetAccountConcurrencyBatch`, `GetAccountsLoadBatch` and `GetUsersLoadBatch`. -/
def loadBatch (cfg : Config) (owners : List Owner) : Op Unit :=
  sweep (owners.flatMap fun owner => [(owner.regular, cfg.slotTTL), (owner.live, leaseTTL)])

/-- `GetAPIKeyConcurrencyBatch`. -/
def getAPIKeyConcurrencyBatch (cfg : Config) (ids : List ℤ) : Op Unit :=
  sweep (ids.flatMap fun id => [(.apiKey id, cfg.slotTTL), (.liveAPIKey id, leaseTTL)])

def trackAPIKeySlot (cfg : Config) (apiKeyID : ℤ) (requestID : String) : Op (Option Unit) :=
  command (trackSlotScript cfg (.apiKey apiKeyID) requestID)

def releaseAPIKeySlot (apiKeyID : ℤ) (requestID : String) : Op (Option Unit) :=
  command fun s => ((), s.modify (.apiKey apiKeyID) (SortedSet.remove requestID))

def acquireLiveLease (cfg : Config) (leaseID : String) (replacing : Bool) : Op (Option Bool) :=
  if (cfg.home leaseID).account ≤ 0 ∨ (cfg.home leaseID).user ≤ 0 ∨
      (cfg.home leaseID).apiKey ≤ 0 ∨ leaseID = "" then pure (some false)
  else command (acquireLiveLeaseScript cfg leaseID replacing)

def refreshLiveLease (cfg : Config) (leaseID : String) : Op (Option Bool) :=
  if leaseID = "" then pure (some false)
  else command (refreshLiveLeaseScript (cfg.home leaseID).keys leaseID)

def releaseLiveLease (cfg : Config) (leaseID : String) : Op (Option Unit) :=
  if leaseID = "" then pure (some ())
  else command (releaseLiveLeaseTx (cfg.home leaseID).keys leaseID)

/-- `AcquireOpenAIWSIngressLease`. -/
def acquireIngressLease (cfg : Config) (apiKeyID : ℤ) (leaseID : String) : Op (Option Bool) :=
  if apiKeyID ≤ 0 ∨ cfg.maxConnections apiKeyID ≤ 0 ∨ leaseID = "" then pure (some false)
  else
    command (acquireIngressScript (.wsIngress apiKeyID) (cfg.maxConnections apiKeyID) leaseID)

/-- `RefreshOpenAIWSIngressLease`. -/
def refreshIngressLease (apiKeyID : ℤ) (leaseID : String) : Op (Option Bool) :=
  if apiKeyID ≤ 0 ∨ leaseID = "" then pure (some false)
  else command (refreshIngressScript (.wsIngress apiKeyID) leaseID)

/-- `ReleaseOpenAIWSIngressLease`. -/
def releaseIngressLease (apiKeyID : ℤ) (leaseID : String) : Op (Option Unit) :=
  if apiKeyID ≤ 0 ∨ leaseID = "" then pure (some ())
  else command fun s => ((), s.modify (.wsIngress apiKeyID) (SortedSet.remove leaseID))

/-- `CleanupExpiredAccountSlots`. -/
def cleanupExpiredAccountSlots (cfg : Config) (accountID : ℤ) : Op Unit := do
  let cleaned ← command (cleanupExpiredSlotsScript cfg (.account accountID))
  match cleaned with
  | none => pure ()
  | some () => refreshActiveIndex cfg (.account accountID)

/-- `reconcileExpiredIndexCandidates`, with the candidates that it has read. -/
def reconcileExpiredIndexCandidates (cfg : Config) (candidates : List Owner) : Op Unit :=
  sweep (candidates.map fun owner => (owner.regular, cfg.slotTTL))

/-- `cleanupStaleProcessSlotsForIndex`, with the members of the index. -/
def cleanupStaleProcessSlots (cfg : Config) (running : String) : List Owner → Op Unit
  | [] => pure ()
  | owner :: rest => do
      let cleaned ← command (startupCleanupSlotScript cfg owner.regular running)
      match cleaned with
      | none => pure ()
      | some () => cleanupStaleProcessSlots cfg running rest

/-- Time passes. -/
def pass : Op Unit := .atomic fun env s => ((), { s with clock := s.clock + env.elapsed })

/-! ### The parties -/

inductive Call where
  | acquireSlot (owner : Owner) (requestID : String)
  | releaseSlot (owner : Owner) (requestID : String)
  | getConcurrency (owner : Owner)
  | loadBatch (owners : List Owner)
  | getAPIKeyConcurrencyBatch (ids : List ℤ)
  | trackAPIKeySlot (apiKeyID : ℤ) (requestID : String)
  | releaseAPIKeySlot (apiKeyID : ℤ) (requestID : String)
  | acquireLiveLease (leaseID : String) (replacing : Bool)
  | refreshLiveLease (leaseID : String)
  | releaseLiveLease (leaseID : String)
  | acquireIngressLease (apiKeyID : ℤ) (leaseID : String)
  | refreshIngressLease (apiKeyID : ℤ) (leaseID : String)
  | releaseIngressLease (apiKeyID : ℤ) (leaseID : String)
  | cleanupExpiredAccountSlots (accountID : ℤ)
  | reconcileExpiredIndexCandidates (candidates : List Owner)
  | cleanupStaleProcessSlots (running : String) (members : List Owner)
  | pass

/-- A program whose answer nobody needs. -/
def quietly {α : Type} (op : Op α) : Op Unit := do
  let _ ← op
  pure ()

def Call.program (cfg : Config) : Call → Op Unit
  | .acquireSlot owner requestID => quietly (Concurrency.acquireSlot cfg owner requestID)
  | .releaseSlot owner requestID => Concurrency.releaseSlot cfg owner requestID
  | .getConcurrency owner => quietly (Concurrency.getConcurrency cfg owner)
  | .loadBatch owners => Concurrency.loadBatch cfg owners
  | .getAPIKeyConcurrencyBatch ids => Concurrency.getAPIKeyConcurrencyBatch cfg ids
  | .trackAPIKeySlot id requestID => quietly (Concurrency.trackAPIKeySlot cfg id requestID)
  | .releaseAPIKeySlot id requestID => quietly (Concurrency.releaseAPIKeySlot id requestID)
  | .acquireLiveLease leaseID replacing =>
      quietly (Concurrency.acquireLiveLease cfg leaseID replacing)
  | .refreshLiveLease leaseID => quietly (Concurrency.refreshLiveLease cfg leaseID)
  | .releaseLiveLease leaseID => quietly (Concurrency.releaseLiveLease cfg leaseID)
  | .acquireIngressLease id leaseID => quietly (Concurrency.acquireIngressLease cfg id leaseID)
  | .refreshIngressLease id leaseID => quietly (Concurrency.refreshIngressLease id leaseID)
  | .releaseIngressLease id leaseID => quietly (Concurrency.releaseIngressLease id leaseID)
  | .cleanupExpiredAccountSlots id => Concurrency.cleanupExpiredAccountSlots cfg id
  | .reconcileExpiredIndexCandidates candidates =>
      Concurrency.reconcileExpiredIndexCandidates cfg candidates
  | .cleanupStaleProcessSlots running members =>
      if running = "" then pure () else Concurrency.cleanupStaleProcessSlots cfg running members
  | .pass => Concurrency.pass

/-- The pool of all parties after a schedule of turns. -/
def run (cfg : Config) (calls : ℕ → Call) (schedule : List (ℕ × Env)) : Pool ℕ (Op Unit) State :=
  Pool.run Prog.step schedule { shared := {}, threads := fun me => (calls me).program cfg }

end Sub2api.Concurrency
