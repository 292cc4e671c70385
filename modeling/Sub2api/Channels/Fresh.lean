import Sub2api.Channels.Cache

/-!
# What the servers' snapshots show

A build stores what it read, whatever was cleared or stored in the meantime. `InTime` is the
condition on a turn under which that does no harm: no server has been cleared for a change that was
committed after the build began to read, and a build that fails was not overtaken. `converged`
says what follows for a run of such turns.
-/

namespace Sub2api.Channels

open Interleave

section Claims

variable {ι κ : Type}

/-- Every server has been cleared for every change. -/
def AllCleared (w : World ι) : Prop := ∀ change, 0 < change → change ≤ w.changes →
  ∀ i, w.cleared change i = true

/-- Every snapshot that is served, where the last build succeeded, is the one of the database. -/
def Converged (w : World ι) : Prop :=
  AllCleared w → ∀ i cache, (w.servers i).succeeded = true →
    (w.servers i).hit w.clock = some cache → cache.Shows w.db

/-- The build that a process is in. -/
def Process.build : Process ι → Option (ι × Build)
  | .writer i (.building _ b) => some (i, b)
  | .loader i (.building _ b) => some (i, b)
  | _ => none

/-- A build that fails does not replace a snapshot that was stored after it began. -/
def KeepsNewer (c : Pool κ (Process ι) (World ι)) (k : κ) (event : Event) : Prop :=
  ∀ i b, (c.threads k).build = some (i, b) → b.stage = .failing → event = .proceed →
    (c.shared.servers i).succeeded = true → (c.shared.servers i).cache ≠ none →
    (c.shared.servers i).stored ≤ b.began

/-- The condition on a turn. -/
structure InTime (c : Pool κ (Process ι) (World ι)) (k : κ) (event : Event) : Prop where
  /-- A build stores before its server is cleared for a change that it has not read. -/
  stores : ∀ i b read cache, (c.threads k).build = some (i, b) → event = .proceed →
    b.stage = .storing read cache → ∀ change, read < change → change ≤ c.shared.changes →
    c.shared.cleared change i = false
  /-- A build that fails does so before another one of its server stores a snapshot. -/
  fails : ∀ i b, (c.threads k).build = some (i, b) → event = .proceed → b.stage = .failing →
    (c.shared.servers i).stored ≤ b.began

end Claims

/-! ### What is known of builds and snapshots -/

section Invariants

variable {ι κ : Type}

/-- Something that a build began to read when this many changes were committed: it is of the
current database if no change came after. -/
def ReadAt (w : World ι) (read : ℕ) (same : Prop) : Prop :=
  read ≤ w.changes ∧ (w.changes = read → same)

def Build.Valid (b : Build) (w : World ι) : Prop :=
  match b.stage with
  | .listing => True
  | .platforms read channels => ReadAt w read (channels = w.db.channels)
  | .storing read cache => ReadAt w read (cache.Shows w.db)
  | .failing => True

structure Server.Valid (s : Server) (i : ι) (w : World ι) : Prop where
  shows_ : ∀ cache, s.cache = some cache → s.succeeded = true →
    ReadAt w s.read (cache.Shows w.db)
  uncleared : s.cache ≠ none → s.succeeded = true → ∀ change, s.read < change →
    change ≤ w.changes → w.cleared change i = false

/-- The change that a writer is about. -/
def Process.change : Process ι → Option ℕ
  | .writer _ (.committed change) => some change
  | .writer _ (.building change _) => some change
  | .writer _ (.notifying change) => some change
  | _ => none

structure World.Valid (w : World ι) : Prop where
  server : ∀ i, (w.servers i).Valid i w
  cleared : ∀ change i, w.cleared change i = true → change ≤ w.changes
  published : ∀ change ∈ w.published, change ≤ w.changes

structure Process.Valid (p : Process ι) (w : World ι) : Prop where
  build : ∀ i b, p.build = some (i, b) → b.Valid w
  change : ∀ change, p.change = some change → change ≤ w.changes

/-- What a turn may do to the database: nothing, or a new change. -/
def Moves (w w' : World ι) : Prop :=
  (w'.changes = w.changes ∧ w'.db = w.db) ∨ w'.changes = w.changes + 1

variable {w w' : World ι}

theorem ReadAt.moves {read : ℕ} {same : Database → Prop} (moves : Moves w w')
    (at_ : ReadAt w read (same w.db)) : ReadAt w' read (same w'.db) := by
  obtain ⟨bound, now⟩ := at_
  rcases moves with ⟨changes, db⟩ | changes
  · constructor
    · omega
    · intro last
      rw [db]
      apply now
      omega
  · constructor
    · omega
    · intro last
      omega

theorem Build.Valid.moves {b : Build} (moves : Moves w w') (valid : b.Valid w) :
    b.Valid w' := by
  unfold Build.Valid at valid ⊢
  cases stage : b.stage with
  | listing => trivial
  | platforms read channels =>
      rw [stage] at valid
      exact @ReadAt.moves _ w w' read (fun db => channels = db.channels) moves valid
  | storing read cache =>
      rw [stage] at valid
      exact @ReadAt.moves _ w w' read cache.Shows moves valid
  | failing => trivial

theorem Process.Valid.moves {p : Process ι} (moves : Moves w w') (valid : p.Valid w) :
    p.Valid w' where
  build i b building := (valid.build i b building).moves moves
  change change about := by
    have bound := valid.change change about
    rcases moves with ⟨changes, _⟩ | changes <;> omega

theorem Build.Valid.fetch {w : World ι} {b : Build} [DecidableEq ι] (valid : b.Valid w)
    (fails : Bool) : (b.fetch fails w).Valid w := by
  unfold Build.fetch
  cases stage : b.stage with
  | listing =>
      dsimp only
      split
      · trivial
      · split
        · rename_i none
          refine ⟨Nat.le_refl _, fun _ => ⟨rfl, ?_⟩⟩
          simp [populateChannelCache, Database.groupPlatforms, none]
        · exact ⟨Nat.le_refl _, fun _ => rfl⟩
  | platforms read channels =>
      dsimp only
      split
      · trivial
      · unfold Build.Valid at valid
        rw [stage] at valid
        refine ⟨valid.1, ?_⟩
        intro last
        have same := valid.2 last
        rw [same]
        exact ⟨rfl, rfl⟩
  | storing read cache =>
      dsimp only
      exact valid
  | failing =>
      dsimp only
      exact valid

theorem Moves.refl (w : World ι) : Moves w w := Or.inl ⟨rfl, rfl⟩

/-! ### What the operations keep -/

/-- Only what the snapshots are about matters. -/
theorem World.Valid.same (valid : w.Valid) (servers : w'.servers = w.servers) (db : w'.db = w.db)
    (changes : w'.changes = w.changes) (cleared : w'.cleared = w.cleared)
    (published : ∀ change ∈ w'.published, change ≤ w.changes) : w'.Valid where
  server := by
    intro i
    rw [servers]
    constructor
    · intro cache found succeeded
      exact ReadAt.moves (Or.inl ⟨changes, db⟩) ((valid.server i).shows_ cache found succeeded)
    · rw [changes, cleared]
      exact (valid.server i).uncleared
  cleared := by
    rw [changes, cleared]
    exact valid.cleared
  published := by
    rw [changes]
    exact published

theorem World.Valid.commit {w : World ι} (valid : w.Valid) (db : Database) :
    ({ w with db, changes := w.changes + 1 } : World ι).Valid where
  server := by
    intro i
    constructor
    · intro cache found succeeded
      exact ReadAt.moves (Or.inr rfl) ((valid.server i).shows_ cache found succeeded)
    · intro found succeeded change after_ bound
      by_cases new : change = w.changes + 1
      · by_contra cleared
        have old := valid.cleared change i (by simpa using cleared)
        omega
      · refine (valid.server i).uncleared found succeeded change after_ ?_
        dsimp only at bound
        omega
  cleared := by
    intro change i cleared
    exact Nat.le_succ_of_le (valid.cleared change i cleared)
  published := by
    intro change listed
    exact Nat.le_succ_of_le (valid.published change listed)

theorem Process.Valid.quiet {w : World ι} {p : Process ι} (build : p.build = none)
    (change : p.change = none) : p.Valid w where
  build i b building := by
    rw [build] at building
    cases building
  change about := by
    rw [change]
    intro impossible
    cases impossible

variable [DecidableEq ι]

/-- A server is replaced by one that is as it should be. -/
theorem World.Valid.setServer {w : World ι} {i : ι} {s : Server} (valid : w.Valid)
    (server : s.Valid i w) : (w.setServer i s).Valid where
  server := by
    intro j
    by_cases own : j = i
    · subst own
      have same : (w.setServer j s).servers j = s := Function.update_self ..
      rw [same]
      exact ⟨server.shows_, server.uncleared⟩
    · have same : (w.setServer i s).servers j = w.servers j := Function.update_of_ne own ..
      rw [same]
      exact ⟨(valid.server j).shows_, (valid.server j).uncleared⟩
  cleared := valid.cleared
  published := valid.published

theorem World.Valid.clear {w : World ι} (valid : w.Valid) {change : ℕ} (i : ι)
    (bound : change ≤ w.changes) : (w.clear change i).Valid where
  server := by
    intro j
    by_cases own : j = i
    · subst own
      have same : (w.clear change j).servers j = (w.servers j).clear := Function.update_self ..
      rw [same]
      constructor
      · intro cache impossible
        cases impossible
      · intro impossible
        exact absurd rfl impossible
    · have same : (w.clear change i).servers j = w.servers j := Function.update_of_ne own ..
      rw [same]
      refine ⟨(valid.server j).shows_, ?_⟩
      intro found succeeded other after_ bound'
      have uncleared := (valid.server j).uncleared found succeeded other after_ bound'
      change Function.update w.cleared change _ other j = false
      by_cases this : other = change
      · subst this
        rw [Function.update_self, Function.update_of_ne own]
        exact uncleared
      · rw [Function.update_of_ne this]
        exact uncleared
  cleared := by
    intro other j cleared
    change Function.update w.cleared change _ other j = true at cleared
    by_cases this : other = change
    · rw [this]
      exact bound
    · rw [Function.update_of_ne this] at cleared
      exact valid.cleared other j cleared
  published := valid.published

/-- What is kept when a build finishes in time. -/
theorem Build.finish_valid {i : ι} {b : Build} {result : Option ChannelCache} (valid : w.Valid)
    (built : b.Valid w)
    (inTime : ∀ read cache, b.stage = .storing read cache → ∀ change, read < change →
      change ≤ w.changes → w.cleared change i = false)
    (finished : b.finish w i = some (result, w')) : w'.Valid ∧ Moves w w' := by
  unfold Build.finish at finished
  unfold Build.Valid at built
  cases stage : b.stage with
  | listing =>
      rw [stage] at finished
      cases finished
  | platforms read channels =>
      rw [stage] at finished
      cases finished
  | storing read cache =>
      rw [stage] at finished built
      cases finished
      refine ⟨valid.setServer ⟨?_, ?_⟩, Moves.refl w⟩
      · rintro cache' ⟨⟩ _
        exact built
      · intro _ _ change after_ bound
        exact inTime read cache stage change after_ bound
  | failing =>
      rw [stage] at finished
      cases finished
      refine ⟨valid.setServer ⟨?_, ?_⟩, Moves.refl w⟩
      · intro cache _ impossible
        cases impossible
      · intro _ impossible
        cases impossible

/-- A server whose snapshot is as it was. -/
theorem World.Valid.sameCache {w : World ι} {i : ι} {s : Server} (valid : w.Valid)
    (cache : s.cache = (w.servers i).cache) (read : s.read = (w.servers i).read)
    (succeeded : s.succeeded = (w.servers i).succeeded) : (w.setServer i s).Valid := by
  apply valid.setServer
  have server := valid.server i
  constructor
  · rw [cache, read, succeeded]
    exact server.shows_
  · rw [cache, read, succeeded]
    exact server.uncleared

theorem writerStep_valid {event : Event} {i : ι} {phase phase' : Writer} (valid : w.Valid)
    (process : (Process.writer i phase).Valid w)
    (inTime : ∀ change b read cache, phase = .building change b → event = .proceed →
      b.stage = .storing read cache → ∀ change, read < change → change ≤ w.changes →
      w.cleared change i = false)
    (stepped : writerStep event i phase w = some (phase', w')) :
    w'.Valid ∧ Moves w w' ∧ (Process.writer i phase').Valid w' := by
  unfold writerStep at stepped
  split at stepped
  · cases stepped
    refine ⟨valid.commit _, Or.inr rfl, ⟨?_, ?_⟩⟩
    · intro j b impossible
      cases impossible
    · rintro change ⟨⟩
      exact Nat.le_refl _
  · rename_i change
    cases stepped
    have bound := process.change change rfl
    refine ⟨valid.clear i bound, Or.inl ⟨rfl, rfl⟩, ⟨?_, ?_⟩⟩
    · rintro j b ⟨⟩
      trivial
    · rintro change' ⟨⟩
      exact bound
  · rename_i change b
    have bound := process.change change rfl
    have built := process.build i b rfl
    split at stepped
    · rename_i result w₁ finished
      cases stepped
      obtain ⟨kept, moves⟩ := b.finish_valid valid built
        (fun read cache stage => inTime change b read cache rfl rfl stage) finished
      refine ⟨kept, moves, ⟨?_, ?_⟩⟩
      · intro j b' impossible
        cases impossible
      · rintro change' ⟨⟩
        exact (process.moves moves).change change rfl
    · cases stepped
      refine ⟨valid, Moves.refl w, ⟨?_, ?_⟩⟩
      · rintro j b' ⟨⟩
        exact built.fetch false
      · rintro change' ⟨⟩
        exact bound
  · rename_i change b
    cases stepped
    refine ⟨valid, Moves.refl w, ⟨?_, ?_⟩⟩
    · rintro j b' ⟨⟩
      exact (process.build i b rfl).fetch true
    · rintro change' ⟨⟩
      exact process.change change rfl
  · rename_i change
    cases stepped
    have bound := process.change change rfl
    refine ⟨valid.same rfl rfl rfl rfl ?_, Or.inl ⟨rfl, rfl⟩, .quiet rfl rfl⟩
    intro other listed
    rcases List.mem_cons.mp listed with rfl | earlier
    · exact bound
    · exact valid.published other earlier
  · cases stepped
    exact ⟨valid, Moves.refl w, .quiet rfl rfl⟩
  · cases stepped

theorem loaderStep_valid {event : Event} {i : ι} {phase phase' : Loader} (valid : w.Valid)
    (process : (Process.loader i phase).Valid w)
    (inTime : ∀ flight b read cache, phase = .building flight b → event = .proceed →
      b.stage = .storing read cache → ∀ change, read < change → change ≤ w.changes →
      w.cleared change i = false)
    (stepped : loaderStep event i phase w = some (phase', w')) :
    w'.Valid ∧ Moves w w' ∧ (Process.loader i phase').Valid w' := by
  unfold loaderStep at stepped
  split at stepped
  · split at stepped
    · cases stepped
      exact ⟨valid, Moves.refl w, .quiet rfl rfl⟩
    · cases stepped
      exact ⟨valid, Moves.refl w, .quiet rfl rfl⟩
  · dsimp only at stepped
    split at stepped
    · cases stepped
      exact ⟨valid, Moves.refl w, .quiet rfl rfl⟩
    · cases stepped
      exact ⟨valid.sameCache rfl rfl rfl, Or.inl ⟨rfl, rfl⟩, .quiet rfl rfl⟩
  · rename_i flight
    split at stepped
    · cases stepped
      exact ⟨valid.sameCache rfl rfl rfl, Or.inl ⟨rfl, rfl⟩, .quiet rfl rfl⟩
    · cases stepped
      refine ⟨valid, Moves.refl w, ⟨?_, ?_⟩⟩
      · rintro j b ⟨⟩
        trivial
      · intro change impossible
        cases impossible
  · rename_i flight b
    have built := process.build i b rfl
    split at stepped
    · rename_i result w₁ finished
      cases stepped
      obtain ⟨kept, moves⟩ := b.finish_valid valid built
        (fun read cache stage => inTime flight b read cache rfl rfl stage) finished
      exact ⟨kept.sameCache rfl rfl rfl, moves, .quiet rfl rfl⟩
    · cases stepped
      refine ⟨valid, Moves.refl w, ⟨?_, ?_⟩⟩
      · rintro j b' ⟨⟩
        exact built.fetch false
      · intro change impossible
        cases impossible
  · rename_i flight b
    cases stepped
    refine ⟨valid, Moves.refl w, ⟨?_, ?_⟩⟩
    · rintro j b' ⟨⟩
      exact (process.build i b rfl).fetch true
    · intro change impossible
      cases impossible
  · obtain ⟨result, _, same⟩ := Option.map_eq_some_iff.mp stepped
    cases same
    exact ⟨valid, Moves.refl w, .quiet rfl rfl⟩
  · cases stepped
    exact ⟨valid, Moves.refl w, .quiet rfl rfl⟩
  · cases stepped

end Invariants

/-! ### Runs -/

section Runs

variable {ι κ : Type} [DecidableEq ι] [DecidableEq κ]

structure Invariant (c : Pool κ (Process ι) (World ι)) : Prop where
  world : c.shared.Valid
  process : ∀ k, (c.threads k).Valid c.shared

variable {c : Pool κ (Process ι) (World ι)}

omit [DecidableEq κ] in
theorem step_valid {k : κ} {event : Event} {p : Process ι} {w : World ι} (inv : Invariant c)
    (inTime : InTime c k event) (stepped : step event (c.threads k) c.shared = some (p, w)) :
    w.Valid ∧ Moves c.shared w ∧ p.Valid w := by
  have process := inv.process k
  have world := inv.world
  cases at_ : c.threads k with
  | clock =>
      rw [at_] at stepped
      unfold step at stepped
      dsimp only at stepped
      split at stepped
      · cases stepped
        exact ⟨world.same rfl rfl rfl rfl world.published, Or.inl ⟨rfl, rfl⟩, .quiet rfl rfl⟩
      · cases stepped
  | writer i phase =>
      rw [at_] at stepped process
      obtain ⟨⟨phase', w'⟩, moved, same⟩ := Option.map_eq_some_iff.mp stepped
      cases same
      apply writerStep_valid world process _ moved
      intro change b read cache building proceeds stage
      apply inTime.stores i b read cache _ proceeds stage
      rw [at_, building]
      rfl
  | loader i phase =>
      rw [at_] at stepped process
      obtain ⟨⟨phase', w'⟩, moved, same⟩ := Option.map_eq_some_iff.mp stepped
      cases same
      apply loaderStep_valid world process _ moved
      intro flight b read cache building proceeds stage
      apply inTime.stores i b read cache _ proceeds stage
      rw [at_, building]
      rfl
  | subscriber i =>
      rw [at_] at stepped
      unfold step at stepped
      dsimp only at stepped
      split at stepped
      · split at stepped
        · rename_i change listed
          cases stepped
          have kept := world.clear i (world.published change listed.1)
          exact ⟨kept.same rfl rfl rfl rfl kept.published, Or.inl ⟨rfl, rfl⟩, .quiet rfl rfl⟩
        · cases stepped
      · cases stepped

/-- **Step.** -/
theorem Invariant.step {k : κ} {event : Event} {p : Process ι} {w : World ι} (inv : Invariant c)
    (inTime : InTime c k event) (stepped : step event (c.threads k) c.shared = some (p, w)) :
    Invariant { shared := w, threads := Function.update c.threads k p } := by
  obtain ⟨world, moves, process⟩ := step_valid inv inTime stepped
  refine ⟨world, ?_⟩
  intro j
  rcases @Pool.update_cases κ _ _ _ c.threads w k j p _ rfl with ⟨_, here⟩ | ⟨_, there⟩
  · rw [← here]
    exact process
  · rw [← there]
    exact (inv.process j).moves moves

omit [DecidableEq ι] [DecidableEq κ] in
theorem start_invariant (db : Database) (roles : κ → Role ι) : Invariant (start db roles) where
  world := by
    constructor
    · intro i
      constructor
      · intro cache impossible
        cases impossible
      · intro impossible
        exact absurd rfl impossible
    · intro change i impossible
      cases impossible
    · intro change impossible
      cases impossible
  process k := by
    change ((roles k).process).Valid _
    cases roles k <;> exact .quiet rfl rfl

omit [DecidableEq ι] [DecidableEq κ] in
/-- A snapshot whose build read after the last change. -/
theorem Invariant.converges (inv : Invariant c) :
    Converged c.shared := by
  intro allCleared i cache succeeded served
  have found : (c.shared.servers i).cache = some cache := (Option.filter_eq_some_iff.mp served).1
  obtain ⟨bound, now⟩ := (inv.world.server i).shows_ cache found succeeded
  apply now
  by_contra later
  have uncleared := (inv.world.server i).uncleared (by simp [found]) succeeded c.shared.changes
    (by omega) (Nat.le_refl _)
  rw [allCleared c.shared.changes (by omega) (Nat.le_refl _) i] at uncleared
  cases uncleared

omit [DecidableEq ι] [DecidableEq κ] in
theorem InTime.keepsNewer {k : κ} {event : Event} (inTime : InTime c k event) :
    KeepsNewer c k event :=
  fun i b building stage proceeds _ _ => inTime.fails i b building proceeds stage

/-- **The servers' snapshots converge.** In a run whose builds store in time, once every server has
been cleared for every change, a snapshot that is served where the last build succeeded is the one
of the database; and no failed build replaces a newer snapshot. -/
theorem inTime_converged (db : Database) (roles : κ → Role ι) (schedule : List (κ × Event))
    (inTime : Pool.Throughout (step (ι := ι)) InTime schedule (start db roles)) :
    Converged ((start db roles).run step schedule).shared ∧
      Pool.Throughout step KeepsNewer schedule (start db roles) := by
  constructor
  · apply Invariant.converges
    exact Pool.run_invariant_throughout step Invariant InTime
      (fun _ _ _ _ _ inv holds stepped => inv.step holds stepped) schedule
      (start_invariant db roles) inTime
  · exact Pool.Throughout.of_invariant step (fun _ => True) (fun _ _ _ _ _ _ _ _ => trivial)
      (fun _ _ _ _ holds => holds.keepsNewer) trivial inTime

end Runs

/-! ### A slow build -/

namespace Sample

def before : Database where
  channels := []
  platforms := [(7, "openai")]

def after : Database where
  channels := [{ id := 1, status := "active", billingModelSource := "", groupIDs := [7] }]
  platforms := [(7, "openai")]

def roles : Bool → Role Unit
  | false => .writer ()
  | true => .loader ()

/-- A channel is created: the change, the clearing, the two reads, the store, the notification. -/
def creates : List (Bool × Event) := (false, .commit after) :: List.replicate 5 (false, .proceed)

/-- A request builds the snapshot, and a channel is created between its read and its store. -/
def overtaken : List (Bool × Event) :=
  List.replicate 4 (true, .proceed) ++ creates ++ [(true, .proceed)]

end Sample

instance (cache : ChannelCache) (db : Database) : Decidable (cache.Shows db) :=
  inferInstanceAs (Decidable (_ ∧ _))

/-- The server that created the channel serves the snapshot without it. -/
theorem slow_build_resurrects :
    ¬ Converged ((start Sample.before Sample.roles).run step Sample.overtaken).shared := by
  intro converged
  have last : ((start Sample.before Sample.roles).run step Sample.overtaken).shared.changes = 1 := by
    decide +kernel
  have shown := converged
    (by
      intro change positive bound i
      have only : change = 1 := by omega
      subst only
      cases i
      decide +kernel)
    () (populateChannelCache [] [] 0) (by decide +kernel) (by decide +kernel)
  revert shown
  decide +kernel

/-- Created without a request in between, the channel is served. -/
theorem inTime_converged_creates :
    Converged ((start Sample.before Sample.roles).run step Sample.creates).shared ∧
      Pool.Throughout step KeepsNewer Sample.creates (start Sample.before Sample.roles) := by
  apply inTime_converged
  have quiet {c : Pool Bool (Process Unit) (World Unit)} {event : Event}
      (idle : (c.threads false).build = none) : InTime c false event := by
    constructor
    · intro i b read cache building
      rw [idle] at building
      cases building
    · intro i b building
      rw [idle] at building
      cases building
  have reads {c : Pool Bool (Process Unit) (World Unit)} {event : Event} {b : Build}
      (building : (c.threads false).build = some ((), b)) (unfinished : b.stage ≠ .failing)
      (latest : ∀ read cache, b.stage = .storing read cache → c.shared.changes ≤ read) :
      InTime c false event := by
    constructor
    · intro i b' read cache building' _ stage change later bound
      rw [building, Option.some.injEq, Prod.mk.injEq] at building'
      rw [← building'.2] at stage
      have current := latest read cache stage
      omega
    · intro i b' building' _ stage
      rw [building, Option.some.injEq, Prod.mk.injEq] at building'
      rw [← building'.2] at stage
      exact absurd stage unfinished
  refine ⟨quiet rfl, quiet rfl, reads rfl (by decide) ?_, reads rfl (by decide) ?_,
    reads rfl (by decide +kernel) ?_, quiet rfl, trivial⟩
  · intro read cache impossible
    cases impossible
  · intro read cache impossible
    cases impossible
  · rintro read cache ⟨⟩
    decide +kernel

end Sub2api.Channels
