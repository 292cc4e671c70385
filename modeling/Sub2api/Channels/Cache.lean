import Mathlib.Data.Int.Notation
import Sub2api.Interleave.Pool

/-!
# The channel cache

Every server keeps one snapshot of the channels. `loadCache` serves it, or builds a new one under a
single-flight; a change of the channels clears the server's own snapshot, builds a new one and
publishes a notification, on which every server clears its own. A build reads the channels, reads
the platforms of their groups and stores; one that fails stores an empty snapshot that expires soon.

Of a channel only the fields are kept by which a group finds it. `changes`, `cleared`, `read`,
`stored`, `succeeded` and `began` are history: how many changes are committed, which of them a
server has been cleared for, how many the current snapshot's build had seen when it began to read,
how many snapshots were stored, and how the last build ended.
-/

namespace Sub2api.Channels

open Interleave

/-! ### Snapshots -/

structure Channel where
  id : ℤ
  status : String
  billingModelSource : String
  groupIDs : List ℤ
  deriving DecidableEq

def Channel.normalizeBillingModelSource (ch : Channel) : Channel :=
  if ch.billingModelSource = "" then { ch with billingModelSource := "channel_mapped" } else ch

/-- The channels and the platforms of the groups. -/
structure Database where
  channels : List Channel
  platforms : List (ℤ × String)

structure ChannelCache where
  channels : List Channel
  groupPlatform : List (ℤ × String)
  loadedAt : ℤ
  deriving DecidableEq

def channelCacheTTL : ℤ := 600000000000

def channelErrorTTL : ℤ := 5000000000

def allGroupIDs (channels : List Channel) : List ℤ := channels.flatMap (·.groupIDs)

/-- `GetGroupPlatforms`, which is not called without groups. -/
def Database.groupPlatforms (db : Database) (channels : List Channel) : List (ℤ × String) :=
  db.platforms.filter (·.1 ∈ allGroupIDs channels)

def populateChannelCache (channels : List Channel) (groupPlatforms : List (ℤ × String))
    (now : ℤ) : ChannelCache where
  channels := channels.map (·.normalizeBillingModelSource)
  groupPlatform := groupPlatforms
  loadedAt := now

/-- What `storeErrorCache` stores. -/
def errorCache (now : ℤ) : ChannelCache where
  channels := []
  groupPlatform := []
  loadedAt := now - (channelCacheTTL - channelErrorTTL)

/-- The snapshot is the one of this database. -/
def ChannelCache.Shows (cache : ChannelCache) (db : Database) : Prop :=
  cache.channels = db.channels.map (·.normalizeBillingModelSource) ∧
    cache.groupPlatform = db.groupPlatforms db.channels

/-! ### Servers -/

structure Server where
  cache : Option ChannelCache := none
  flight : Option ℕ := none
  flights : ℕ := 0
  results : ℕ → Option (Option ChannelCache) := fun _ => none
  read : ℕ := 0
  stored : ℕ := 0
  succeeded : Bool := false

/-- The snapshot that `loadCache` serves without a build. -/
def Server.hit (s : Server) (now : ℤ) : Option ChannelCache :=
  s.cache.filter fun cache => decide (now - cache.loadedAt < channelCacheTTL)

/-- `clearCache`: the running single-flight is forgotten too. -/
def Server.clear (s : Server) : Server := { s with cache := none, flight := none }

def Server.store (s : Server) (read : ℕ) (cache : ChannelCache) : Server :=
  { s with cache := some cache, read, stored := s.stored + 1, succeeded := true }

def Server.storeErrorCache (s : Server) (now : ℤ) : Server :=
  { s with cache := some (errorCache now), succeeded := false }

/-- A flight ends with its result; it is the key's unless it was forgotten. -/
def Server.land (s : Server) (flight : ℕ) (result : Option ChannelCache) : Server :=
  { s with
    results := Function.update s.results flight (some result)
    flight := if s.flight = some flight then none else s.flight }

structure World (ι : Type) where
  db : Database
  clock : ℤ := 0
  changes : ℕ := 0
  published : List ℕ := []
  delivered : ℕ → ι → Bool := fun _ _ => false
  servers : ι → Server := fun _ => {}
  cleared : ℕ → ι → Bool := fun _ _ => false

section Worlds

variable {ι : Type} [DecidableEq ι]

def World.setServer (w : World ι) (i : ι) (s : Server) : World ι :=
  { w with servers := Function.update w.servers i s }

/-- `clearCache` on a server, for a change. -/
def World.clear (w : World ι) (change : ℕ) (i : ι) : World ι :=
  { w.setServer i (w.servers i).clear with
    cleared := Function.update w.cleared change (Function.update (w.cleared change) i true) }

def World.deliver (w : World ι) (change : ℕ) (i : ι) : World ι :=
  { w.clear change i with
    delivered := Function.update w.delivered change (Function.update (w.delivered change) i true) }

end Worlds

/-! ### Builds and processes -/

inductive Stage where
  | listing
  | platforms (read : ℕ) (channels : List Channel)
  | storing (read : ℕ) (cache : ChannelCache)
  | failing
  deriving DecidableEq

structure Build where
  stage : Stage := .listing
  began : ℕ

inductive Writer where
  | idle
  | committed (change : ℕ)
  | building (change : ℕ) (build : Build)
  | notifying (change : ℕ)

inductive Loader where
  | idle
  | missed
  | leading (flight : ℕ)
  | building (flight : ℕ) (build : Build)
  | waiting (flight : ℕ)
  | returned (result : Option ChannelCache)

inductive Process (ι : Type) where
  | clock
  | writer (server : ι) (phase : Writer)
  | loader (server : ι) (phase : Loader)
  | subscriber (server : ι)

inductive Event where
  | elapse (time : ℕ)
  | commit (db : Database)
  | proceed
  /-- The read of a build fails, or the publication of a notification. -/
  | fail
  | deliver (change : ℕ)

section Steps

variable {ι : Type} [DecidableEq ι]

/-- `fetchChannelData` and `populateChannelCache`, read by read. -/
def Build.fetch (b : Build) (fails : Bool) (w : World ι) : Build :=
  match b.stage with
  | .listing =>
      if fails then { b with stage := .failing }
      else if allGroupIDs w.db.channels = [] then
        { b with stage := .storing w.changes (populateChannelCache w.db.channels [] w.clock) }
      else { b with stage := .platforms w.changes w.db.channels }
  | .platforms read channels =>
      if fails then { b with stage := .failing }
      else
        { b with
          stage := .storing read
            (populateChannelCache channels (w.db.groupPlatforms channels) w.clock) }
  | _ => b

/-- What a build stores on its server, with its result. -/
def Build.finish (b : Build) (w : World ι) (i : ι) : Option (Option ChannelCache × World ι) :=
  match b.stage with
  | .storing read cache => some (some cache, w.setServer i ((w.servers i).store read cache))
  | .failing => some (none, w.setServer i ((w.servers i).storeErrorCache w.clock))
  | _ => none

def World.newBuild (w : World ι) (i : ι) : Build := { began := (w.servers i).stored }

/-- A change followed by `invalidateCache`. -/
def writerStep (event : Event) (i : ι) (phase : Writer) (w : World ι) :
    Option (Writer × World ι) :=
  match phase, event with
  | .idle, .commit db =>
      some (.committed (w.changes + 1), { w with db, changes := w.changes + 1 })
  | .committed change, .proceed =>
      some (.building change (w.newBuild i), w.clear change i)
  | .building change b, .proceed =>
      match b.finish w i with
      | some (_, w) => some (.notifying change, w)
      | none => some (.building change (b.fetch false w), w)
  | .building change b, .fail => some (.building change (b.fetch true w), w)
  | .notifying change, .proceed => some (.idle, { w with published := change :: w.published })
  | .notifying _, .fail => some (.idle, w)
  | _, _ => none

/-- `loadCache`. -/
def loaderStep (event : Event) (i : ι) (phase : Loader) (w : World ι) :
    Option (Loader × World ι) :=
  match phase, event with
  | .idle, .proceed =>
      match (w.servers i).hit w.clock with
      | some cache => some (.returned (some cache), w)
      | none => some (.missed, w)
  | .missed, .proceed =>
      let s := w.servers i
      match s.flight with
      | some flight => some (.waiting flight, w)
      | none =>
          some (.leading s.flights,
            w.setServer i { s with flight := some s.flights, flights := s.flights + 1 })
  | .leading flight, .proceed =>
      match (w.servers i).hit w.clock with
      | some cache =>
          some (.returned (some cache), w.setServer i ((w.servers i).land flight (some cache)))
      | none => some (.building flight (w.newBuild i), w)
  | .building flight b, .proceed =>
      match b.finish w i with
      | some (result, w) =>
          some (.returned result, w.setServer i ((w.servers i).land flight result))
      | none => some (.building flight (b.fetch false w), w)
  | .building flight b, .fail => some (.building flight (b.fetch true w), w)
  | .waiting flight, .proceed => ((w.servers i).results flight).map fun r => (.returned r, w)
  | .returned _, .proceed => some (.idle, w)
  | _, _ => none

def step : StepFn Event (Process ι) (World ι) := fun event process w =>
  match process with
  | .clock =>
      match event with
      | .elapse time => some (.clock, { w with clock := w.clock + time })
      | _ => none
  | .writer i phase => (writerStep event i phase w).map fun (phase, w) => (.writer i phase, w)
  | .loader i phase => (loaderStep event i phase w).map fun (phase, w) => (.loader i phase, w)
  | .subscriber i =>
      match event with
      | .deliver change =>
          if change ∈ w.published ∧ w.delivered change i = false then
            some (.subscriber i, w.deliver change i)
          else none
      | _ => none

end Steps

inductive Role (ι : Type) where
  | clock
  | writer (server : ι)
  | loader (server : ι)
  | subscriber (server : ι)

def Role.process {ι : Type} : Role ι → Process ι
  | .clock => .clock
  | .writer i => .writer i .idle
  | .loader i => .loader i .idle
  | .subscriber i => .subscriber i

def start {ι κ : Type} (db : Database) (roles : κ → Role ι) : Pool κ (Process ι) (World ι) where
  shared := { db }
  threads k := (roles k).process

end Sub2api.Channels
