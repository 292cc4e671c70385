import Sub2api.Interleave.Owned
import Sub2api.Redis.Key

/-!
# Scheduler buckets

The keys of one bucket, the scripts on them, and the calls that publish, retire and reopen the
bucket. A script is one atomic action, and so is each `ZADD` of a pipeline; a reader's hit, the
expiry of the rebuild lock and what a sibling bucket of the same rebuild did are the environment's.
The accounts' own keys and the cursor of the bucket list are left out. `commits` counts the changes
of the accounts in the database; `retirements`, `allocations`, `writing` and `activations` are
history: how often the bucket was retired, the read and the members behind each version, who is
writing which version, and which activations went through.
-/

namespace Sub2api.Scheduler.Bucket

open Interleave
open Redis

/-- An account of the bucket in the database, and whether it has a JSON text. -/
structure BucketAccount where
  id : ℤ
  encodable : Bool := true

/-- What a database read returned, and how many changes had been committed by then. -/
structure View where
  commits : ℕ
  accounts : List BucketAccount

/-- The ids of the accounts that can be encoded. -/
def View.ids (view : View) : List ℤ := (view.accounts.filter (·.encodable)).map (·.id)

/-- `SchedulerBucketWriteToken`, with the number of retirements before it was given out. -/
structure WriteToken where
  epoch : ℤ
  issued : ℕ

inductive Failure where
  | retired
  | fenced
  | busy
  /-- Redis or the database failed. -/
  | unavailable

/-- What a version is to publish. -/
structure Allocation where
  commits : ℕ
  ids : List ℤ
  deriving DecidableEq

/-- An activation that went through. -/
structure Activation where
  version : ℕ
  replaced : Option ℕ
  issued : ℕ
  retirements : ℕ
  deriving DecidableEq

structure Config where
  writeChunkSize : ℕ := 256
  positive : 0 < writeChunkSize := by decide

structure State where
  epoch : Option ℤ := none
  retired : Option ℤ := none
  version : ℕ := 0
  active : Option ℕ := none
  ready : Bool := false
  /-- Member of `sched:buckets`. -/
  registered : Bool := false
  snapshots : ℕ → SortedSet ℤ := fun _ => ∅
  /-- The snapshots with a time to live. -/
  expiring : ℕ → Bool := fun _ => false
  locked : Bool := false
  accounts : List BucketAccount := []
  commits : ℕ := 0
  retirements : ℕ := 0
  allocations : List Allocation := []
  writing : ℕ → Option ℕ := fun _ => none
  activations : List Activation := []

structure Env where
  outcome : Outcome := .done
  /-- A snapshot answers the reader. -/
  hit : Bool := false
  /-- The rebuild lock has run out. -/
  lockExpired : Bool := false
  /-- A sibling bucket of this rebuild has read the accounts already. -/
  queried : Bool := false
  /-- And has published them. -/
  published : Bool := false

abbrev Op (α : Type) := Prog State Env α

namespace State

/-- What a version publishes; versions start at one. -/
def allocation (s : State) (version : ℕ) : Option Allocation :=
  match version with
  | 0 => none
  | v + 1 => s.allocations[v]?

/-- `EXPIRE` of the active snapshot, which does nothing to a key that is not there. -/
def expireActive (s : State) : State :=
  match s.active with
  | some version =>
    if (s.snapshots version).entries.isEmpty then s
    else { s with expiring := Function.update s.expiring version true }
  | none => s

/-- `DEL` of a snapshot. -/
def delSnapshot (s : State) (version : ℕ) : State :=
  { s with
    snapshots := Function.update s.snapshots version ∅
    expiring := Function.update s.expiring version false }

/-- The epoch as a number. -/
def currentEpoch (s : State) : ℤ := s.epoch.getD 0

end State

/-! ### The scripts -/

/-- `captureBucketWriteTokenScript`. -/
def captureBucketWriteTokenScript (s : State) : Except Failure ℤ × State :=
  if s.retired.isSome then (.error .retired, s)
  else
    match s.epoch with
    | none => (.ok 1, { s with epoch := some 1 })
    | some epoch => if epoch < 1 then (.error .fenced, s) else (.ok epoch, s)

/-- `allocateSnapshotVersionScript`. -/
def allocateSnapshotVersionScript (expected : ℤ) (s : State) : Except Failure ℕ × State :=
  if s.retired.isSome then (.error .retired, s)
  else if s.epoch ≠ some expected then (.error .fenced, s)
  else (.ok (s.version + 1), { s with version := s.version + 1 })

/-- The first part of `retireBucketScript`: only the first retirement moves the epoch. -/
def advanceEpoch (s : State) : State :=
  match s.retired with
  | none =>
    let epoch := max (s.currentEpoch + 1) 1
    { s with epoch := some epoch, retired := some epoch }
  | some retired => if s.currentEpoch < 1 then { s with epoch := some retired } else s

/-- The last part of `retireBucketScript` and of `reopenBucketScript`. -/
def unpublish (s : State) : State :=
  { s.expireActive with registered := false, ready := false, active := none }

/-- `retireBucketScript`. -/
def retireBucketScript (s : State) : ℤ × State :=
  let s := unpublish (advanceEpoch s)
  (s.currentEpoch, s)

/-- `reopenBucketScript`. -/
def reopenBucketScript (s : State) : Except Failure ℤ × State :=
  match s.retired with
  | none =>
    match s.epoch with
    | none => (.ok 1, { s with epoch := some 1 })
    | some epoch => if epoch < 1 then (.error .fenced, s) else (.ok epoch, s)
  | some retired =>
    if retired < 1 then (.error .fenced, s)
    else
      let epoch := match s.epoch with
        | some epoch => max epoch retired
        | none => retired
      (.ok epoch, unpublish { s with epoch := some epoch, retired := none })

/-- `activateSnapshotScript`: whether the version became the active one. -/
def activateSnapshotScript (version : ℕ) (expected : ℤ) (s : State) : Except Failure Bool × State :=
  if s.retired.isSome then (.error .retired, s.delSnapshot version)
  else if s.epoch ≠ some expected then (.error .fenced, s.delSnapshot version)
  else if ∃ current ∈ s.active, version < current then (.ok false, s.delSnapshot version)
  else
    let after := if s.active = some version then s else s.expireActive
    (.ok true, { after with active := some version, ready := true, registered := true })

/-! ### Calls of the cache -/

/-- One command or script. -/
def script {β : Type} (f : State → β × State) : Op (Option β) :=
  .atomic fun env s =>
    match env.outcome with
    | .done => (some (f s).1, (f s).2)
    | .failed => (none, s)
    | .lost => (none, (f s).2)

/-- The result of a script, or its error. -/
def answered {β : Type} : Option (Except Failure β) → Except Failure β
  | some result => result
  | none => .error .unavailable

/-- A token for the epoch that a script returned. -/
def issue (f : State → Except Failure ℤ × State) (s : State) : Except Failure WriteToken × State :=
  ((f s).1.map fun epoch => { epoch := epoch, issued := s.retirements }, (f s).2)

/-- `CaptureBucketWriteToken`. -/
def captureBucketWriteToken : Op (Except Failure WriteToken) := do
  let result ← script (issue captureBucketWriteTokenScript)
  pure (answered result)

/-- `ReopenBucket`. -/
def reopenBucket : Op (Except Failure WriteToken) := do
  let result ← script (issue reopenBucketScript)
  pure (answered result)

/-- `RetireBucket`. -/
def retireBucket : Op (Except Failure Unit) := do
  let result ← script fun s =>
    let (epoch, after) := retireBucketScript s
    (epoch, { after with retirements := s.retirements + 1 })
  match result with
  | some epoch => pure (if epoch < 1 then .error .fenced else .ok ())
  | none => pure (.error .unavailable)

/-- `allocateSnapshotVersion`. -/
def allocateSnapshotVersion (me : ℕ) (token : WriteToken) (allocation : Allocation) :
    Op (Except Failure ℕ) := do
  let result ← script fun s =>
    match allocateSnapshotVersionScript token.epoch s with
    | (.ok version, after) =>
      (Except.ok version, { after with
        allocations := s.allocations ++ [allocation]
        writing := Function.update s.writing version (some me) })
    | (.error failure, after) => (.error failure, after)
  pure (answered result)

/-- `schedulerSnapshotMembers`. -/
def schedulerSnapshotMembers (ids : List ℤ) : List (ℤ × ℤ) :=
  ids.zipIdx.map fun (id, index) => (id, (index : ℤ))

/-- A set after members were added to it. -/
def addMembers (set : SortedSet ℤ) (members : List (ℤ × ℤ)) : SortedSet ℤ :=
  members.foldl (fun set member => set.add member.1 member.2) set

/-- The snapshot with all of its members. -/
def snapshotOf (ids : List ℤ) : SortedSet ℤ := addMembers ∅ (schedulerSnapshotMembers ids)

/-- The pieces of a list that a loop of such a step width takes, the number of rounds bounded. -/
def pieces {α : Type} (size : ℕ) : ℕ → List α → List (List α)
  | 0, _ => []
  | fuel + 1, members =>
    if members = [] then [] else members.take size :: pieces size fuel (members.drop size)

/-- The commands of the pipeline: all of them are sent, and one that fails fails the whole. -/
def zAddAll (version : ℕ) : List (List (ℤ × ℤ)) → Op Bool
  | [] => pure true
  | piece :: rest => do
    let added ← script fun s =>
      ((), { s with
        snapshots := Function.update s.snapshots version (addMembers (s.snapshots version) piece) })
    let others ← zAddAll version rest
    pure (added.isSome && others)

/-- `writeSnapshotAccountIDs`. -/
def writeSnapshotAccountIDs (cfg : Config) (version : ℕ) (ids : List ℤ) : Op Bool :=
  let members := schedulerSnapshotMembers ids
  zAddAll version (pieces cfg.writeChunkSize members.length members)

/-- `writeAccountIDs`, of which only the ids matter here. -/
def writeAccountIDs (view : View) : Op (Option (List ℤ)) :=
  script fun s => (view.ids, s)

/-- `activateSnapshotVersion`. -/
def activateSnapshotVersion (token : WriteToken) (version : ℕ) : Op (Except Failure Unit) := do
  let result ← script fun s =>
    match activateSnapshotScript version token.epoch s with
    | (.ok true, after) =>
      (Except.ok (), { after with
        writing := Function.update s.writing version none
        activations := s.activations ++
          [{ version := version, replaced := s.active, issued := token.issued
             retirements := s.retirements }] })
    | (.ok false, after) =>
      (Except.ok (), { after with writing := Function.update s.writing version none })
    | (.error failure, after) =>
      (Except.error failure, { after with writing := Function.update s.writing version none })
  pure (answered result)

/-- What is left of a publication once the account ids are known. -/
def finishSnapshot (cfg : Config) (token : WriteToken) (version : ℕ) (ids : List ℤ) :
    Op (Except Failure Unit) := do
  let written ← writeSnapshotAccountIDs cfg version ids
  if written then activateSnapshotVersion token version else pure (.error .unavailable)

/-- `SetSnapshot`, and `SetSnapshotAndReturnAccountIDs`, which also returns the ids. -/
def setSnapshot (cfg : Config) (me : ℕ) (token : WriteToken) (view : View) :
    Op (Except Failure Unit) :=
  if token.epoch ≤ 0 then pure (.error .fenced)
  else do
    let allocated ← allocateSnapshotVersion me token { commits := view.commits, ids := view.ids }
    match allocated with
    | .error failure => pure (.error failure)
    | .ok version => do
      let ids ← writeAccountIDs view
      match ids with
      | none => pure (.error .unavailable)
      | some ids => finishSnapshot cfg token version ids

/-- `SetSnapshotByAccountIDs`, with the ids of an earlier read. -/
def setSnapshotByAccountIDs (cfg : Config) (me : ℕ) (token : WriteToken) (view : View) :
    Op (Except Failure Unit) :=
  if token.epoch ≤ 0 then pure (.error .fenced)
  else do
    let allocated ← allocateSnapshotVersion me token { commits := view.commits, ids := view.ids }
    match allocated with
    | .error failure => pure (.error failure)
    | .ok version => finishSnapshot cfg token version view.ids

/-- `TryLockBucket`. -/
def tryLockBucket : Op (Option Bool) :=
  .atomic fun env s =>
    let free := !s.locked || env.lockExpired
    match env.outcome with
    | .done => (some free, { s with locked := true })
    | .failed => (none, s)
    | .lost => (none, { s with locked := true })

/-- `UnlockBucket`, whoever holds the lock. -/
def unlockBucket : Op Unit := do
  let _ ← script fun s => ((), { s with locked := false })
  pure ()

/-! ### Calls of the service -/

/-- `loadAccountsFromDB`. -/
def loadAccountsFromDB : Op (Option View) :=
  script fun s => ({ commits := s.commits, accounts := s.accounts }, s)

/-- `loadAccountsForRebuild`, with the accounts that a sibling bucket has read. -/
def loadAccountsForRebuild (queried : Option View) : Op (Option View) :=
  match queried with
  | some view => pure (some view)
  | none => loadAccountsFromDB

/-- The part of `ListSchedulableAccounts` that may publish: a missed snapshot is loaded, without the
rebuild lock. -/
def listSchedulableAccounts (cfg : Config) (me : ℕ) : Op Unit := do
  let hit ← Prog.ask fun env : Env => env.hit
  if hit then pure ()
  else do
    let token ← captureBucketWriteToken
    let view ← loadAccountsFromDB
    match token, view with
    | .ok token, some view => do
      let _ ← setSnapshot cfg me token view
      pure ()
    | _, _ => pure ()

/-- `setRebuildSnapshot`. -/
def setRebuildSnapshot (cfg : Config) (me : ℕ) (token : WriteToken) (view : View)
    (published : Bool) : Op (Except Failure Unit) :=
  if published then setSnapshotByAccountIDs cfg me token view else setSnapshot cfg me token view

/-- A fenced publication fails a strict rebuild only. -/
def rebuildResult (strict : Bool) : Except Failure Unit → Except Failure Unit
  | .error .retired => if strict then .error .retired else .ok ()
  | .error .fenced => if strict then .error .fenced else .ok ()
  | result => result

/-- `rebuildBucketWithTokenPolicyAndQueryCache`. -/
def rebuildBucketWithTokenPolicyAndQueryCache (cfg : Config) (me : ℕ) (token : WriteToken)
    (strict : Bool) (queried : Option View) (published : Bool) : Op (Except Failure Unit) := do
  let locked ← tryLockBucket
  match locked with
  | none => pure (.error .unavailable)
  | some false => pure (if strict then .error .busy else .ok ())
  | some true => do
    let view ← loadAccountsForRebuild queried
    match view with
    | none => do
      unlockBucket
      pure (.error .unavailable)
    | some view => do
      let result ← setRebuildSnapshot cfg me token view (published && queried.isSome)
      unlockBucket
      pure (rebuildResult strict result)

/-- The accounts that a sibling bucket reads first, if it does. -/
def siblingQuery (queried : Bool) : Op (Option View) :=
  if queried then loadAccountsFromDB else pure none

/-- A rebuild with a token that was prepared before the first read of its batch. -/
def rebuildTask (cfg : Config) (me : ℕ) (token : WriteToken) (strict : Bool) :
    Op (Except Failure Unit) := do
  let queried ← Prog.ask fun env : Env => env.queried
  let published ← Prog.ask fun env : Env => env.published
  let view ← siblingQuery queried
  rebuildBucketWithTokenPolicyAndQueryCache cfg me token strict view published

/-- `rebuildBuckets`, for this bucket. -/
def rebuildBuckets (cfg : Config) (me : ℕ) : Op (Except Failure Unit) := do
  let token ← captureBucketWriteToken
  match token with
  | .ok token => rebuildTask cfg me token false
  | .error failure => pure (rebuildResult false (.error failure))

/-- `reconcileGroupLifecycle`, for this bucket of a group that is active or not. -/
def reconcileGroupLifecycle (cfg : Config) (me : ℕ) (active : Bool) :
    Op (Except Failure Unit) := do
  if active then do
    let token ← reopenBucket
    match token with
    | .ok token => rebuildTask cfg me token true
    | .error failure => pure (.error failure)
  else retireBucket

inductive Call where
  | listSchedulableAccounts
  | rebuildBuckets
  | reconcileGroupLifecycle (active : Bool)
  /-- A transaction changes the accounts. -/
  | commit (accounts : List BucketAccount)
  /-- A snapshot's time to live ends. -/
  | expire (version : ℕ)

/-- The end of a snapshot's time to live. -/
def expireSnapshot (version : ℕ) (s : State) : State :=
  if s.expiring version then s.delSnapshot version else s

def Call.program (cfg : Config) (me : ℕ) : Call → Op Unit
  | .listSchedulableAccounts => Scheduler.Bucket.listSchedulableAccounts cfg me
  | .rebuildBuckets => do
    let _ ← Scheduler.Bucket.rebuildBuckets cfg me
    pure ()
  | .reconcileGroupLifecycle active => do
    let _ ← Scheduler.Bucket.reconcileGroupLifecycle cfg me active
    pure ()
  | .commit accounts =>
    .atomic fun _ s => ((), { s with accounts := accounts, commits := s.commits + 1 })
  | .expire version => .atomic fun _ s => ((), expireSnapshot version s)

/-- The calls of a process, one after the other. -/
def program (cfg : Config) (me : ℕ) : List Call → Op Unit
  | [] => pure ()
  | call :: rest => do
    call.program cfg me
    program cfg me rest

/-- The pool after a schedule, from a bucket that was never used. -/
def run (cfg : Config) (calls : ℕ → List Call) (schedule : List (ℕ × Env)) :
    Pool ℕ (Prog State Env Unit) State :=
  Pool.run Prog.step schedule
    { shared := {}, threads := fun me => program cfg me (calls me) }

end Sub2api.Scheduler.Bucket
