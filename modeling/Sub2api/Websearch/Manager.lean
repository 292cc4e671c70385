import Mathlib.Algebra.Order.Field.Rat
import Mathlib.Data.List.Sort
import Sub2api.Go.Strings
import Sub2api.Interleave.Owned

/-!
# The web search manager

A search tries the providers one after another: it counts the search on the provider's counter,
runs it, and takes the count back when it fails. The counters are Redis keys with a time to live,
which administrators also delete. `resets`, `pending`, `searched` and `undone` of a ledger are
history: no step of the source reads them.
-/

namespace Sub2api.Websearch

open Interleave
open Go (trimSpace)

/-! ### Counters -/

/-- A counter key; `volatile` when it has a time to live. -/
structure Counter where
  value : ℤ
  volatile : Bool

/-- `INCRBY`, which creates a missing key. -/
def Counter.add (delta : ℤ) : Option Counter → Counter
  | none => ⟨delta, false⟩
  | some c => { c with value := c.value + delta }

def Counter.expire (c : Counter) : Counter := { c with volatile := true }

/-- `quotaIncrScript`. -/
def quotaIncrScript (key : Option Counter) : ℤ × Counter :=
  let c := Counter.add 1 key
  if c.value = 1 then (c.value, c.expire)
  else if c.volatile then (c.value, c)
  else (c.value, c.expire)

/-- A count on the counter that has not ended: whose it is, after how many resets it was made, and
whether the search goes on. -/
structure Ticket where
  owner : ℕ
  resets : ℕ
  admitted : Bool
  deriving DecidableEq

/-- A count taken back: the resets before it was made and before it was taken back. -/
structure Undone where
  made : ℕ
  undone : ℕ

/-- The counter of a provider and its history. -/
structure Ledger where
  counter : Option Counter := none
  resets : ℕ := 0
  pending : List Ticket := []
  /-- For each successful search, the resets before its reservation. -/
  searched : List ℕ := []
  undone : List Undone := []

namespace Ledger

/-- What `GetUsage` reads. -/
def used (l : Ledger) : ℤ := l.counter.elim 0 Counter.value

/-- The script of a reservation under a limit. -/
def reserve (me : ℕ) (limit : ℤ) (l : Ledger) : (ℤ × Ticket) × Ledger :=
  let (newVal, c) := quotaIncrScript l.counter
  let ticket : Ticket := ⟨me, l.resets, newVal ≤ limit⟩
  ((newVal, ticket), { l with counter := some c, pending := ticket :: l.pending })

/-- `DECR`, which takes a count back. -/
def decr (ticket : Ticket) (l : Ledger) : Ledger :=
  { l with
    counter := some (Counter.add (-1) l.counter)
    pending := l.pending.erase ticket
    undone := l.undone ++ [⟨ticket.resets, l.resets⟩] }

/-- The search of a reservation has succeeded. -/
def succeed (ticket : Ticket) (l : Ledger) : Ledger :=
  { l with pending := l.pending.erase ticket, searched := ticket.resets :: l.searched }

/-- The counter is gone. -/
def reset (l : Ledger) : Ledger := { l with counter := none, resets := l.resets + 1 }

/-- A counter with a time to live expires. -/
def expires (l : Ledger) : Ledger :=
  if l.counter.any Counter.volatile then l.reset else l

end Ledger

/-! ### The state -/

structure ProviderConfig where
  type : String
  apiKey : String
  quotaLimit : ℤ
  proxyID : ℤ := 0
  expiresAt : Option ℤ := none

structure SearchRequest where
  query : String
  proxyURL : String := ""

structure State where
  ledgers : String → Ledger := fun _ => {}
  /-- The proxies marked unavailable. -/
  unavailable : ℤ → Bool := fun _ => false

/-- Why a provider's search fails. -/
inductive SearchFailure where
  | proxy
  | other

structure Env where
  now : ℤ := 0
  /-- The random numbers of a sort, between 0 and 1. -/
  rand : ℕ → ℚ := fun _ => 0
  failure : Option SearchFailure := none

abbrev Op (α : Type) := Prog State Env α

def State.updateLedger (s : State) (type : String) (l : Ledger) : State :=
  { s with ledgers := Function.update s.ledgers type l }

/-! ### Choosing the providers -/

def isProviderAvailable (cfg : ProviderConfig) (now : ℤ) : Bool :=
  cfg.apiKey != "" && !cfg.expiresAt.any (· < now)

def resolveProxyID (cfg : ProviderConfig) (accountProxyURL : String) : ℤ :=
  if accountProxyURL ≠ "" then 0 else cfg.proxyID

def isProxyAvailable (proxyID : ℤ) : Op Bool :=
  if proxyID ≤ 0 then pure true else .atomic fun _ s => (!s.unavailable proxyID, s)

def filterAvailableProviders (accountProxyURL : String) :
    List ProviderConfig → Op (List ProviderConfig)
  | [] => pure []
  | cfg :: rest => do
    let now ← Prog.ask fun env : Env => env.now
    if !isProviderAvailable cfg now then filterAvailableProviders accountProxyURL rest
    else do
      let available ← isProxyAvailable (resolveProxyID cfg accountProxyURL)
      let out ← filterAvailableProviders accountProxyURL rest
      pure (if available then cfg :: out else out)

structure Weighted where
  cfg : ProviderConfig
  weight : ℤ

def getUsage (type : String) : Op ℤ :=
  .atomic fun _ s => ((s.ledgers type).used, s)

def remainingQuota (cfg : ProviderConfig) : Op ℤ :=
  if 0 < cfg.quotaLimit then do
    let used ← getUsage cfg.type
    pure (if 0 < cfg.quotaLimit - used then cfg.quotaLimit - used else 0)
  else pure 0

def computeWeights : List ProviderConfig → Op (List Weighted)
  | [] => pure []
  | cfg :: rest => do
    let w ← remainingQuota cfg
    let items ← computeWeights rest
    pure (⟨cfg, w⟩ :: items)

/-- Each item with its random factor, by falling factors. -/
def sortByStableRandomWeight (rand : ℕ → ℚ) (items : List Weighted) : List Weighted :=
  if items.length ≤ 1 then items
  else
    ((items.zipIdx.map fun (item, i) => (item, (item.weight : ℚ) * (1 / 2 + rand i))).mergeSort
      fun a b => b.2 ≤ a.2).map Prod.fst

def selectByQuotaWeight (candidates : List ProviderConfig) : Op (List ProviderConfig) := do
  let items ← computeWeights candidates
  let rand ← Prog.ask fun env : Env => env.rand
  let withQuota := items.filter fun item => 0 < item.weight
  let withoutQuota := items.filter fun item => ¬0 < item.weight
  pure ((sortByStableRandomWeight rand withQuota ++ withoutQuota).map Weighted.cfg)

/-! ### Searching -/

def quotaIncr (me : ℕ) (cfg : ProviderConfig) : Op (ℤ × Ticket) :=
  .atomic fun _ s =>
    let done := (s.ledgers cfg.type).reserve me cfg.quotaLimit
    (done.1, s.updateLedger cfg.type done.2)

def quotaDecr (type : String) (ticket : Ticket) : Op Unit :=
  .atomic fun _ s => ((), s.updateLedger type ((s.ledgers type).decr ticket))

/-- Whether the search may go on, and the count made for it. -/
def tryReserveQuota (me : ℕ) (cfg : ProviderConfig) : Op (Bool × Option Ticket) :=
  if cfg.quotaLimit ≤ 0 then pure (true, none)
  else do
    let (newVal, ticket) ← quotaIncr me cfg
    if cfg.quotaLimit < newVal then do
      quotaDecr cfg.type ticket
      pure (false, none)
    else pure (true, some ticket)

def rollbackQuota (cfg : ProviderConfig) (ticket : Ticket) : Op Unit :=
  if cfg.quotaLimit ≤ 0 then pure () else quotaDecr cfg.type ticket

def rollbackIncremented (cfg : ProviderConfig) : Option Ticket → Op Unit
  | some ticket => rollbackQuota cfg ticket
  | none => pure ()

/-- The call of the provider; its success settles the count made for it. -/
def executeSearch (cfg : ProviderConfig) (ticket : Option Ticket) : Op (Option SearchFailure) :=
  .atomic fun env s =>
    match env.failure, ticket with
    | none, some ticket =>
      (none, s.updateLedger cfg.type ((s.ledgers cfg.type).succeed ticket))
    | failure, _ => (failure, s)

def markProxyUnavailable (cfg : ProviderConfig) (accountProxyURL : String) : Op Unit :=
  .atomic fun _ s =>
    let proxyID := resolveProxyID cfg accountProxyURL
    ((), if proxyID ≤ 0 then s
      else { s with unavailable := Function.update s.unavailable proxyID true })

inductive SearchResult where
  | found (type : String)
  | emptyQuery
  | noProvider
  | proxyUnavailable

/-- The loop over the selected providers. -/
def searchProviders (me : ℕ) (req : SearchRequest) : List ProviderConfig → Op SearchResult
  | [] => pure .noProvider
  | cfg :: rest => do
    let (allowed, ticket) ← tryReserveQuota me cfg
    if !allowed then searchProviders me req rest
    else do
      let failure ← executeSearch cfg ticket
      match failure with
      | none => pure (.found cfg.type)
      | some failure => do
        rollbackIncremented cfg ticket
        match failure with
        | .other => searchProviders me req rest
        | .proxy => do
          markProxyUnavailable cfg req.proxyURL
          if req.proxyURL ≠ "" then pure .proxyUnavailable
          else searchProviders me req rest

def searchWithBestProvider (me : ℕ) (configs : List ProviderConfig) (req : SearchRequest) :
    Op SearchResult :=
  if trimSpace req.query = "" then pure .emptyQuery
  else do
    let candidates ← filterAvailableProviders req.proxyURL configs
    if candidates.isEmpty then pure .noProvider
    else do
      let selected ← selectByQuotaWeight candidates
      searchProviders me req selected

def resetUsage (type : String) : Op Unit :=
  .atomic fun _ s => ((), s.updateLedger type (s.ledgers type).reset)

/-! ### Runs -/

/-- A call of the manager, or a key's end of life. -/
inductive Call where
  | search (configs : List ProviderConfig) (req : SearchRequest)
  | reset (type : String)
  | counterExpires (type : String)
  | proxyMarkExpires (proxyID : ℤ)

def Call.program (me : ℕ) : Call → Op Unit
  | .search configs req => do
    let _ ← searchWithBestProvider me configs req
    pure ()
  | .reset type => resetUsage type
  | .counterExpires type =>
    .atomic fun _ s => ((), s.updateLedger type (s.ledgers type).expires)
  | .proxyMarkExpires proxyID =>
    .atomic fun _ s => ((), { s with unavailable := Function.update s.unavailable proxyID false })

/-- The calls after a schedule. -/
def run (calls : ℕ → Call) (s : State) (schedule : List (ℕ × Env)) :
    Pool ℕ (Op Unit) State :=
  Pool.run Prog.step schedule { shared := s, threads := fun me => (calls me).program me }

end Sub2api.Websearch
