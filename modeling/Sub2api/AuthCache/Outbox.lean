import Mathlib.Data.Int.Notation
import Sub2api.Interleave.Pool

/-!
# The outbox of auth cache invalidations

Lookups of one API key on any number of servers, through the server's own caches (L1, one for keys
and one for keys not found), the shared cache (L2) and the database, and the workers that delete a
changed key from the caches: a pass deletes it from the worker's own L1 and from L2 and publishes,
on which every server deletes it from its L1 at once. After the first pass the row becomes available
again when the safety delay is over, after the second it is deleted.

A change is known by its number, which is also the number of its row. `Entry.read` says how many
changes were committed when the entry was read from the database; `committedAt`, `passes` and
`deleted` are history.
-/

namespace Sub2api.AuthCache

open Interleave

def authInvalidationSafetyDelay : ℤ := 30000000000

def authInvalidationLease : ℤ := 30000000000

structure Entry where
  notFound : Bool
  read : ℕ
  deriving DecidableEq

/-- A server's own caches, at the key. -/
structure L1 where
  positive : Option Entry := none
  negative : Option Entry := none

structure Config where
  l1Enabled : Bool
  l2Enabled : Bool
  negativeEnabled : Bool

structure Row where
  stage : ℕ := 0
  attempts : ℕ := 0
  availableAt : ℤ
  claimedAt : Option ℤ := none
  claimedBy : Option ℕ := none

structure World (ι : Type) where
  clock : ℤ := 0
  found : Bool := false
  version : ℕ := 0
  rows : ℕ → Option Row := fun _ => none
  l2 : Option Entry := none
  l1 : ι → L1 := fun _ => {}
  committedAt : ℕ → ℤ := fun _ => 0
  passes : ℕ → List (ℤ × ℤ) := fun _ => []
  deleted : ℕ → Bool := fun _ => false

section Worlds

variable {ι : Type} [DecidableEq ι]

/-- `setAuthCacheL1`. -/
def L1.set (cfg : Config) (cache : L1) (entry : Entry) : L1 :=
  if entry.notFound then
    if cfg.negativeEnabled then { cache with negative := some entry } else cache
  else if cfg.l1Enabled then { cache with positive := some entry }
  else cache

/-- What `getAuthCacheEntry` finds on its own server. -/
def L1.get (cache : L1) : Option Entry := cache.positive <|> cache.negative

def World.setL1 (w : World ι) (i : ι) (cache : L1) : World ι :=
  { w with l1 := Function.update w.l1 i cache }

/-! ### The table -/

def World.setRow (w : World ι) (id : ℕ) (row : Option Row) : World ι :=
  { w with rows := Function.update w.rows id row }

/-- A change with its row, in one transaction that began a while ago. -/
def World.commit (w : World ι) (found : Bool) (lasted : ℕ) : World ι :=
  { w.setRow (w.version + 1) (some { availableAt := w.clock - lasted }) with
    found
    version := w.version + 1
    committedAt := Function.update w.committedAt (w.version + 1) w.clock }

/-- `Claim`, for one row. -/
def Row.claimable (row : Row) (now : ℤ) : Bool :=
  decide (row.availableAt ≤ now) && row.claimedAt.all (· < now - authInvalidationLease)

def World.claim (w : World ι) (id worker : ℕ) : Option (Row × World ι) :=
  match w.rows id with
  | none => none
  | some row =>
      if row.claimable w.clock then
        some (row, w.setRow id
          (some { row with claimedAt := some w.clock, claimedBy := some worker }))
      else none

/-- `ScheduleSecondPass`. -/
def World.scheduleSecondPass (w : World ι) (id worker : ℕ) (availableAt : ℤ) : World ι :=
  match w.rows id with
  | none => w
  | some row =>
      if row.claimedBy = some worker ∧ row.stage = 0 then
        w.setRow id
          (some { row with stage := 1, availableAt, claimedAt := none, claimedBy := none })
      else w

/-- `DeleteClaimed`. -/
def World.deleteClaimed (w : World ι) (id worker : ℕ) : World ι :=
  match w.rows id with
  | none => w
  | some row =>
      if row.claimedBy = some worker then
        { w.setRow id none with deleted := Function.update w.deleted id true }
      else w

/-- `RetryClaimed`. -/
def World.retryClaimed (w : World ι) (id worker : ℕ) (availableAt : ℤ) : World ι :=
  match w.rows id with
  | none => w
  | some row =>
      if row.claimedBy = some worker then
        w.setRow id
          (some { row with
            attempts := row.attempts + 1
            availableAt
            claimedAt := none
            claimedBy := none })
      else w

end Worlds

/-! ### Lookups and passes -/

/-- A lookup; what it is about to write, and when it began to read it. -/
inductive Lookup where
  | idle
  | l2
  | database
  | fromL2 (entry : Entry) (began : ℤ)
  | toL1 (entry : Entry) (began : ℤ)
  | toL2 (entry : Entry) (began : ℤ)

/-- A claimed event: the row's number, its stage when it was claimed, and when that was. -/
structure Claimed where
  id : ℕ
  stage : ℕ
  attempts : ℕ
  began : ℤ

inductive Job where
  | idle
  | claimed (event : Claimed)
  | deletingL2 (event : Claimed)
  | publishing (event : Claimed)
  | passed (event : Claimed)
  | scheduling (event : Claimed) (availableAt : ℤ)
  | deleting (event : Claimed)
  | failed (event : Claimed)
  | retrying (event : Claimed) (availableAt : ℤ)

inductive Process (ι : Type) where
  | clock
  | writer
  /-- Entries expire, or are deleted besides the outbox. -/
  | eviction
  | lookup (server : ι) (phase : Lookup)
  | job (server : ι) (worker : ℕ) (phase : Job)

inductive Event (ι : Type) where
  | elapse (time : ℕ)
  | commit (found : Bool) (lasted : ℕ)
  | evictL1 (server : ι)
  | evictL2
  | claim (id : ℕ)
  | proceed
  /-- A statement or a call fails without effect. -/
  | refuse
  /-- It takes effect, and fails. -/
  | lose
  /-- The delay of the next try. -/
  | retryIn (delay : ℕ)
  deriving DecidableEq

section Steps

variable {ι : Type} [DecidableEq ι] (cfg : Config)

/-- `getAuthCacheEntry`, and `loadAuthCacheEntry` where it found nothing. -/
def lookupStep (event : Event ι) (i : ι) (phase : Lookup) (w : World ι) :
    Option (Lookup × World ι) :=
  match phase, event with
  | .idle, .proceed =>
      match (w.l1 i).get with
      | some _ => some (.idle, w)
      | none => some (if cfg.l2Enabled then .l2 else .database, w)
  | .l2, .proceed =>
      match w.l2 with
      | some entry => some (.fromL2 entry w.clock, w)
      | none => some (.database, w)
  | .l2, .refuse => some (.database, w)
  | .fromL2 entry _, .proceed => some (.idle, w.setL1 i ((w.l1 i).set cfg entry))
  | .database, .proceed =>
      some (.toL1 { notFound := !w.found, read := w.version } w.clock, w)
  | .database, .refuse => some (.idle, w)
  | .toL1 entry began, .proceed =>
      some (if entry.notFound || !cfg.l2Enabled then .idle else .toL2 entry began,
        w.setL1 i ((w.l1 i).set cfg entry))
  | .toL2 entry _, .proceed => some (.idle, { w with l2 := some entry })
  | .toL2 _ _, .refuse => some (.idle, w)
  | _, _ => none

/-- `processEvent`. -/
def jobStep (event : Event ι) (i : ι) (worker : ℕ) (phase : Job) (w : World ι) :
    Option (Job × World ι) :=
  match phase, event with
  | .idle, .claim id =>
      (w.claim id worker).map fun (row, w) =>
        (.claimed { id, stage := row.stage, attempts := row.attempts, began := w.clock }, w)
  | .claimed e, .proceed => some (.deletingL2 e, w.setL1 i {})
  | .deletingL2 e, .proceed => some (.publishing e, { w with l2 := none })
  | .deletingL2 e, .refuse => some (.failed e, w)
  | .deletingL2 e, .lose => some (.failed e, { w with l2 := none })
  | .publishing e, .proceed =>
      some (.passed e, { w with
        l1 := fun _ => {}
        passes := Function.update w.passes e.id ((e.began, w.clock) :: w.passes e.id) })
  | .publishing e, .refuse => some (.failed e, w)
  | .publishing e, .lose => some (.failed e, { w with l1 := fun _ => {} })
  | .passed e, .proceed =>
      some (if e.stage = 0 then .scheduling e (w.clock + authInvalidationSafetyDelay)
        else .deleting e, w)
  | .scheduling e availableAt, .proceed =>
      some (.idle, w.scheduleSecondPass e.id worker availableAt)
  | .scheduling _ _, .refuse => some (.idle, w)
  | .scheduling e availableAt, .lose => some (.idle, w.scheduleSecondPass e.id worker availableAt)
  | .deleting e, .proceed => some (.idle, w.deleteClaimed e.id worker)
  | .deleting _, .refuse => some (.idle, w)
  | .deleting e, .lose => some (.idle, w.deleteClaimed e.id worker)
  | .failed e, .retryIn delay => some (.retrying e (w.clock + delay), w)
  | .retrying e availableAt, .proceed => some (.idle, w.retryClaimed e.id worker availableAt)
  | .retrying _ _, .refuse => some (.idle, w)
  | .retrying e availableAt, .lose => some (.idle, w.retryClaimed e.id worker availableAt)
  | _, _ => none

def step : StepFn (Event ι) (Process ι) (World ι) := fun event process w =>
  match process with
  | .clock =>
      match event with
      | .elapse time => some (.clock, { w with clock := w.clock + time })
      | _ => none
  | .writer =>
      match event with
      | .commit found lasted => some (.writer, w.commit found lasted)
      | _ => none
  | .eviction =>
      match event with
      | .evictL1 i => some (.eviction, w.setL1 i {})
      | .evictL2 => some (.eviction, { w with l2 := none })
      | _ => none
  | .lookup i phase =>
      (lookupStep cfg event i phase w).map fun (phase, w) => (.lookup i phase, w)
  | .job i worker phase =>
      (jobStep event i worker phase w).map fun (phase, w) => (.job i worker phase, w)

end Steps

inductive Role (ι : Type) where
  | clock
  | writer
  | eviction
  | lookup (server : ι)
  | job (server : ι) (worker : ℕ)

def Role.process {ι : Type} : Role ι → Process ι
  | .clock => .clock
  | .writer => .writer
  | .eviction => .eviction
  | .lookup i => .lookup i .idle
  | .job i worker => .job i worker .idle

def start {ι κ : Type} (roles : κ → Role ι) : Pool κ (Process ι) (World ι) where
  shared := {}
  threads k := (roles k).process

end Sub2api.AuthCache
