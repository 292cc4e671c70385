import Mathlib.Data.String.Basic
import Sub2api.Go.Strings
import Sub2api.Interleave.Owned
import Sub2api.Redis.Key

/-!
# The batch-image queue

The ready list, the delayed and the active set, the in-flight keys and the job locks, the commands
and scripts on them, and the loop of a worker. Every command is atomic; it may fail, and its
answer may be lost. A turn of `runOnce` is a party of its own, since nothing passes from one to
the next, and a party that has crashed is blocked. Times are milliseconds.

`held`, `reserved`, `acks`, `crashed`, `raced` and `requeued` are history: who holds an id now,
who has ever held it, who has acknowledged it, who has crashed, which ids the recovery took from a
worker that was alive, and which were enqueued again after their in-flight key had expired.
-/

namespace Sub2api.BatchImage.Queue

open Interleave
open Redis

structure State where
  /-- `LPUSH` is at the head, `RPOP` at the end. -/
  ready : List String := []
  delayed : SortedSet String := ∅
  active : SortedSet String := ∅
  /-- The in-flight keys, with the time at which they expire. -/
  inflight : String → Option ℤ := fun _ => none
  /-- The job locks: the token and the time at which it expires. -/
  locks : String → Option (ℕ × ℤ) := fun _ => none
  held : Finset (ℕ × String) := ∅
  reserved : Finset (ℕ × String) := ∅
  acks : Finset (ℕ × String) := ∅
  crashed : Finset ℕ := ∅
  raced : Finset String := ∅
  requeued : Finset String := ∅

/-- How often an id is in the three structures. -/
def State.places (s : State) (id : String) : ℕ :=
  s.ready.count id + (s.delayed.contains id).toNat + (s.active.contains id).toNat

def State.Queued (s : State) (id : String) : Prop := 0 < s.places id

instance (s : State) (id : String) : Decidable (s.Queued id) :=
  inferInstanceAs (Decidable (0 < s.places id))

structure ProcessResult where
  requeueAfter : ℤ := 0
  terminal : Bool

structure Env where
  now : ℤ := 0
  outcome : Outcome := .done
  /-- The token of a new lock. -/
  token : ℕ := 0
  /-- How often the heartbeat ticks while the job is processed. -/
  heartbeats : ℕ := 0
  /-- What the processor answers; `none` is an error. -/
  result : Option ProcessResult := none

abbrev Op (α : Type) := Prog State Env α

inductive QueueError where
  | redis
  | queueEmpty
  | alreadyQueued
  | invalidPayload

/-- `IsValidBatchImageID`. -/
def isValidBatchImageID (id : String) : Bool :=
  Go.hasPrefix id "imgbatch_" && decide ("imgbatch_".length < id.length)

/-- A command of party `me`; `learns` is what becomes history with the answer. -/
def command {α : Type} (me : ℕ) (effect : Env → State → α × State)
    (learns : Option α → State → State := fun _ s => s) : Op (Option α) :=
  .waiting fun env s =>
    if me ∈ s.crashed then none
    else
      match env.outcome with
      | .done => some (some (effect env s).1, learns (some (effect env s).1) (effect env s).2)
      | .failed => some (none, learns none s)
      | .lost => some (none, learns none (effect env s).2)

/-! ### The scripts -/

def State.inflightAlive (s : State) (now : ℤ) (id : String) : Bool :=
  (s.inflight id).any fun expireAt => now ≤ expireAt

/-- The id becomes ready and gets its in-flight key. -/
def State.accept (s : State) (id : String) (expireAt : ℤ) : State :=
  { s with
    inflight := Function.update s.inflight id (some expireAt)
    ready := id :: s.ready
    requeued := if (s.inflight id).isSome then insert id s.requeued else s.requeued }

/-- `batchImageEnqueueScript`. -/
def enqueueScript (ttl : ℤ) (id : String) (env : Env) (s : State) : Bool × State :=
  if s.inflightAlive env.now id then (false, s) else (true, s.accept id (env.now + ttl))

/-- The last of the ready ids becomes active. -/
def State.take (s : State) (id : String) (now : ℤ) : State :=
  { s with ready := s.ready.dropLast, active := s.active.add id now }

/-- `batchImageReserveScript`. -/
def reserveScript (env : Env) (s : State) : Option String × State :=
  match s.ready.getLast? with
  | none => (none, s)
  | some id => (some id, s.take id env.now)

/-- The worker that gets a valid id holds it. -/
def hold (me : ℕ) (answer : Option (Option String)) (s : State) : State :=
  match answer with
  | some (some id) =>
      if isValidBatchImageID id then { s with
        held := insert (me, id) s.held
        reserved := insert (me, id) s.reserved }
      else s
  | _ => s

def State.giveBack (s : State) (me : ℕ) (id : String) : State :=
  { s with held := s.held.erase (me, id) }

/-- The transaction of `RequeueAfter`. -/
def requeueAfterTx (id : String) (delay : ℤ) (env : Env) (s : State) : Unit × State :=
  if delay ≤ 0 then
    ((), { s with
      active := s.active.remove id
      delayed := s.delayed.remove id
      ready := id :: s.ready })
  else
    ((), { s with
      active := s.active.remove id
      delayed := (s.delayed.remove id).add id (env.now + delay) })

/-- The transaction of `Ack`. -/
def ackTx (me : ℕ) (id : String) (_ : Env) (s : State) : Unit × State :=
  ((), { s with
    active := s.active.remove id
    delayed := s.delayed.remove id
    inflight := Function.update s.inflight id none
    acks := insert (me, id) s.acks })

/-- One job of `batchImageMoveDueDelayedScript`. -/
def moveDelayed (s : State) (id : String) : State :=
  { s with delayed := s.delayed.remove id, ready := id :: s.ready }

/-- A worker holds the id and has not crashed. -/
def State.alive (s : State) (id : String) : Prop := ∃ w, (w, id) ∈ s.held ∧ w ∉ s.crashed

instance (s : State) (id : String) : Decidable (s.alive id) :=
  decidable_of_iff (∃ p ∈ s.held, p.2 = id ∧ p.1 ∉ s.crashed) (by
    constructor
    · rintro ⟨⟨w, _⟩, member, rfl, notCrashed⟩
      exact ⟨w, member, notCrashed⟩
    · rintro ⟨w, member, notCrashed⟩
      exact ⟨(w, id), member, rfl, notCrashed⟩)

/-- One job of `batchImageRecoverStaleActiveScript`. -/
def recoverActive (s : State) (id : String) : State :=
  { s with
    active := s.active.remove id
    ready := id :: s.ready
    raced := if s.alive id then insert id s.raced else s.raced }

/-- `batchImageMoveDueDelayedScript`. -/
def moveDueDelayedScript (limit : ℕ) (env : Env) (s : State) : ℕ × State :=
  let jobs := s.delayed.rangeUpTo env.now limit
  (jobs.length, jobs.foldl moveDelayed s)

/-- `batchImageRecoverStaleActiveScript`. -/
def recoverStaleActiveScript (staleAfter : ℤ) (limit : ℕ) (env : Env) (s : State) : ℕ × State :=
  let jobs := s.active.rangeUpTo (env.now - staleAfter) limit
  (jobs.length, jobs.foldl recoverActive s)

/-! ### The queue -/

structure Options where
  inflightTTL : ℤ := 7 * 24 * 3600 * 1000
  jobLockTTL : ℤ := 5 * 60 * 1000
  lockConflictDelay : ℤ := 5000
  defaultRequeueDelay : ℤ := 30000
  errorRetryDelay : ℤ := 60000

/-- `Enqueue`. -/
def enqueue (opts : Options) (me : ℕ) (id : String) : Op (Except QueueError Unit) :=
  if isValidBatchImageID id then do
    let applied ← command me (enqueueScript opts.inflightTTL id)
    match applied with
    | none => pure (.error .redis)
    | some false => pure (.error .alreadyQueued)
    | some true => pure (.ok ())
  else pure (.error .invalidPayload)

/-- An invalid payload is taken out of the active set again. -/
def removeActive (me : ℕ) (id : String) : Op Unit :=
  if id = "" then pure ()
  else do
    let _ ← command me fun _ s => ((), { s with active := s.active.remove id })
    pure ()

/-- `reserveOnce`. -/
def reserveOnce (me : ℕ) : Op (Except QueueError String) := do
  let raw ← command me reserveScript (hold me)
  match raw with
  | none => pure (.error .redis)
  | some none => pure (.error .queueEmpty)
  | some (some id) =>
      if isValidBatchImageID id then pure (.ok id)
      else do
        removeActive me id
        pure (.error .invalidPayload)

/-- `Reserve`, with the number of polls that are left before the deadline. -/
def reserve (me : ℕ) : ℕ → Op (Except QueueError String)
  | 0 => reserveOnce me
  | polls + 1 => do
      let got ← reserveOnce me
      match got with
      | .error .queueEmpty => reserve me polls
      | _ => pure got

/-- `RequeueAfter`. -/
def requeueAfter (me : ℕ) (id : String) (delay : ℤ) : Op (Except QueueError Unit) :=
  if isValidBatchImageID id then do
    let done ← command me (requeueAfterTx id delay) fun _ s => s.giveBack me id
    match done with
    | none => pure (.error .redis)
    | some _ => pure (.ok ())
  else pure (.error .invalidPayload)

/-- `Ack`. -/
def ack (me : ℕ) (id : String) : Op (Except QueueError Unit) :=
  if isValidBatchImageID id then do
    let done ← command me (ackTx me id) fun _ s => s.giveBack me id
    match done with
    | none => pure (.error .redis)
    | some _ => pure (.ok ())
  else pure (.error .invalidPayload)

/-- `MoveDueDelayedToReady`. -/
def moveDueDelayedToReady (me : ℕ) (limit : ℤ) : Op (Option ℕ) :=
  command me (moveDueDelayedScript (if limit ≤ 0 then 100 else limit.toNat))

/-- `RecoverStaleActive`. -/
def recoverStaleActive (me : ℕ) (staleAfter limit : ℤ) : Op (Except QueueError ℕ) :=
  if staleAfter ≤ 0 then pure (.error .invalidPayload)
  else do
    let recovered ←
      command me (recoverStaleActiveScript staleAfter (if limit ≤ 0 then 100 else limit.toNat))
    match recovered with
    | none => pure (.error .redis)
    | some jobs => pure (.ok jobs)

/-! ### The job lock -/

def State.lockAlive (s : State) (now : ℤ) (id : String) : Bool :=
  (s.locks id).any fun lock => now ≤ lock.2

/-- `TryAcquireJobLock`: the token of the lock, if it was free. -/
def tryAcquireJobLock (me : ℕ) (id : String) (ttl : ℤ) : Op (Option (Option ℕ)) :=
  command me fun env s =>
    if s.lockAlive env.now id then (none, s)
    else
      (some env.token,
        { s with locks := Function.update s.locks id (some (env.token, env.now + ttl)) })

/-- The token is the one that the lock is held with. -/
def State.lockedBy (s : State) (now : ℤ) (id : String) (token : ℕ) : Bool :=
  s.lockAlive now id && decide ((s.locks id).map (·.1) = some token)

/-- `Release` of a job lock. -/
def releaseLock (me : ℕ) (id : String) (token : ℕ) : Op (Option Unit) :=
  command me fun env s =>
    if s.lockedBy env.now id token then
      ((), { s with locks := Function.update s.locks id none })
    else ((), s)

/-- `Refresh` of a job lock. -/
def refreshLock (me : ℕ) (id : String) (token : ℕ) (ttl : ℤ) : Op (Option Unit) :=
  command me fun env s =>
    if s.lockedBy env.now id token then
      ((), { s with locks := Function.update s.locks id (some (token, env.now + ttl)) })
    else ((), s)

/-- `Heartbeat`. -/
def heartbeat (me : ℕ) (id : String) : Op (Option Unit) :=
  command me fun env s => ((), { s with active := s.active.addExisting id env.now })

/-! ### The worker -/

/-- `runJobHeartbeat`, for so many ticks. -/
def runJobHeartbeat (opts : Options) (me : ℕ) (id : String) (token : ℕ) : ℕ → Op Unit
  | 0 => pure ()
  | ticks + 1 => do
      let _ ← heartbeat me id
      let _ ← refreshLock me id token opts.jobLockTTL
      runJobHeartbeat opts me id token ticks

/-- What the worker does with the answer of the processor. -/
def settle (opts : Options) (me : ℕ) (id : String) (result : Option ProcessResult) :
    Op (Except QueueError Unit) :=
  match result with
  | none => requeueAfter me id opts.errorRetryDelay
  | some result =>
      if result.terminal then ack me id
      else
        requeueAfter me id
          (if result.requeueAfter ≤ 0 then opts.defaultRequeueDelay else result.requeueAfter)

/-- A reserved job whose lock the worker has. -/
def process (opts : Options) (me : ℕ) (id : String) (token : ℕ) : Op Unit := do
  let ticks ← Prog.ask fun env : Env => env.heartbeats
  runJobHeartbeat opts me id token ticks
  let result ← Prog.ask fun env : Env => env.result
  let _ ← settle opts me id result
  let _ ← releaseLock me id token
  pure ()

/-- `RunOnce`. -/
def runOnce (opts : Options) (me : ℕ) (polls : ℕ) : Op Unit := do
  let reserved ← reserve me polls
  match reserved with
  | .error _ => pure ()
  | .ok id => do
    let lock ← tryAcquireJobLock me id opts.jobLockTTL
    match lock with
    | some (some token) => process opts me id token
    | _ => do
      let _ ← requeueAfter me id opts.lockConflictDelay
      pure ()

/-- A party crashes. -/
def crash (party : ℕ) : Op Unit :=
  .atomic fun _ s => ((), { s with crashed := insert party s.crashed })

/-! ### The parties -/

inductive Call where
  | enqueue (id : String)
  | runOnce (polls : ℕ)
  | moveDueDelayed (limit : ℤ)
  | recoverStaleActive (staleAfter limit : ℤ)
  | crash (party : ℕ)

def Call.program (opts : Options) (me : ℕ) : Call → Op Unit
  | .enqueue id => do
      let _ ← Queue.enqueue opts me id
      pure ()
  | .runOnce polls => Queue.runOnce opts me polls
  | .moveDueDelayed limit => do
      let _ ← moveDueDelayedToReady me limit
      pure ()
  | .recoverStaleActive staleAfter limit => do
      let _ ← Queue.recoverStaleActive me staleAfter limit
      pure ()
  | .crash party => Queue.crash party

/-- The pool of all parties after a schedule of turns. -/
def run (opts : Options) (calls : ℕ → Call) (schedule : List (ℕ × Env)) :
    Pool ℕ (Op Unit) State :=
  Pool.run Prog.step schedule
    { shared := {}, threads := fun me => (calls me).program opts me }

end Sub2api.BatchImage.Queue
