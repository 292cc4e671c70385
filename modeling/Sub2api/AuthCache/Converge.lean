import Sub2api.AuthCache.Passes

/-!
# What the caches hold after a change's row is deleted

Two passes the safety delay apart are enough for what is read from the database: the second one
begins when every such fill is over. They are not enough for what is read from L2, where it may
have come from a fill of the database that ended shortly before; `Drained` says that no fill from
L2 is under way across the end of a second pass, and `converged` what follows.
-/

namespace Sub2api.AuthCache

open Interleave

section Invariants

variable {ι : Type} [DecidableEq ι]

/-! ### After a second pass -/

theorem L1.Fresh.empty (change : ℕ) : ({} : L1).Fresh change where
  positive _ impossible := by cases impossible
  negative _ impossible := by cases impossible

variable {change : ℕ} {cfg : Config}

theorem L1.Fresh.set {cache : L1} {entry : Entry} (fresh : cache.Fresh change)
    (new : change ≤ entry.read) :
    (cache.set cfg entry).Fresh change := by
  unfold L1.set
  split
  · split
    · refine ⟨fresh.positive, ?_⟩
      rintro entry' ⟨⟩
      exact new
    · exact fresh
  · split
    · refine ⟨?_, fresh.negative⟩
      rintro entry' ⟨⟩
      exact new
    · exact fresh

theorem setL1_fresh {w : World ι} {i : ι} {cache : L1} (fresh : ∀ j, (w.l1 j).Fresh change)
    (new : cache.Fresh change) :
    ∀ j, ((w.setL1 i cache).l1 j).Fresh change := by
  intro j
  change (Function.update w.l1 i cache j).Fresh change
  by_cases own : j = i
  · rw [own, Function.update_self]
    exact new
  · rw [Function.update_of_ne own]
    exact fresh j

/-- The change whose second pass was successful, while its row is not deleted. -/
def Process.passed : Process ι → Option ℕ
  | .job _ _ (.passed e) => if e.stage = 0 then none else some e.id
  | .job _ _ (.deleting e) => some e.id
  | _ => none

variable {event : Event ι}

theorem jobStep_fresh {i : ι} {worker : ℕ} {phase phase' : Job} {w w' : World ι}
    (l1 : ∀ i, (w.l1 i).Fresh change)
    (stepped : jobStep event i worker phase w = some (phase', w')) :
    ∀ i, (w'.l1 i).Fresh change := by
  have same : ∀ {w' : World ι}, w'.l1 = w.l1 → ∀ i, (w'.l1 i).Fresh change := by
    intro w' same i
    rw [same]
    exact l1 i
  unfold jobStep at stepped
  split at stepped
  · rename_i id
    rw [Option.map_eq_some_iff] at stepped
    obtain ⟨⟨row, w₁⟩, claimed, eq⟩ := stepped
    cases eq
    apply same
    unfold World.claim at claimed
    split at claimed
    · cases claimed
    · split at claimed
      · cases claimed
        rfl
      · cases claimed
  all_goals cases stepped
  · exact setL1_fresh l1 (.empty change)
  · exact l1
  · exact l1
  · exact l1
  · exact fun _ => .empty change
  · exact l1
  · exact fun _ => .empty change
  · exact l1
  · exact same (scheduleSecondPass_l1 ..)
  · exact l1
  · exact same (scheduleSecondPass_l1 ..)
  · exact same (deleteClaimed_l1 ..)
  · exact l1
  · exact same (deleteClaimed_l1 ..)
  · exact l1
  · exact same (retryClaimed_l1 ..)
  · exact l1
  · exact same (retryClaimed_l1 ..)

/-- What is settled in L2 stays so in the L1 caches, when no entry from before the change is on its
way to them. -/
theorem step_fresh {κ : Type} {c : Pool κ (Process ι) (World ι)} {k : κ} {p : Process ι}
    {w : World ι} (process : (c.threads k).Valid c.shared) (quick : Quick c k event)
    (settled : c.shared.Settled change) (l1 : ∀ i, (c.shared.l1 i).Fresh change)
    (fromL2 : ∀ entry, (c.threads k).fromL2 = some entry → change ≤ entry.read)
    (stepped : step cfg event (c.threads k) c.shared = some (p, w)) :
    (∀ i, (w.l1 i).Fresh change) ∧ ∀ entry, p.fromL2 = some entry → change ≤ entry.read := by
  unfold Quick at quick
  generalize c.threads k = q at process quick fromL2 stepped
  generalize c.shared = w₀ at process quick settled l1 stepped
  unfold step at stepped
  split at stepped
  · split at stepped
    · cases stepped
      exact ⟨l1, fun _ impossible => by cases impossible⟩
    · cases stepped
  · split at stepped
    · cases stepped
      exact ⟨l1, fun _ impossible => by cases impossible⟩
    · cases stepped
  · split at stepped
    · cases stepped
      exact ⟨setL1_fresh l1 (.empty change), fun _ impossible => by cases impossible⟩
    · cases stepped
      exact ⟨l1, fun _ impossible => by cases impossible⟩
    · cases stepped
  · rename_i i phase
    rw [Option.map_eq_some_iff] at stepped
    obtain ⟨⟨phase', w'⟩, moved, same⟩ := stepped
    cases same
    unfold lookupStep at moved
    split at moved
    · split at moved
      · cases moved
        exact ⟨l1, fun _ impossible => by cases impossible⟩
      · cases moved
        refine ⟨l1, fun _ impossible => ?_⟩
        split at impossible <;> cases impossible
    · split at moved
      · rename_i entry held
        cases moved
        refine ⟨l1, ?_⟩
        rintro entry' ⟨⟩
        exact settled.l2 entry held
      · cases moved
        exact ⟨l1, fun _ impossible => by cases impossible⟩
    · cases moved
      exact ⟨l1, fun _ impossible => by cases impossible⟩
    · rename_i entry began
      cases moved
      exact ⟨setL1_fresh l1 ((l1 i).set (fromL2 entry rfl)), fun _ impossible => by cases impossible⟩
    · cases moved
      exact ⟨l1, fun _ impossible => by cases impossible⟩
    · cases moved
      exact ⟨l1, fun _ impossible => by cases impossible⟩
    · rename_i entry began
      cases moved
      have new : change ≤ entry.read := by
        by_contra stale
        have unseen := process.2 change (by omega) settled.exists_
        have old := settled.old
        have now := quick rfl (entry, began) rfl
        omega
      refine ⟨setL1_fresh l1 ((l1 i).set new), fun _ impossible => ?_⟩
      split at impossible <;> cases impossible
    · cases moved
      exact ⟨l1, fun _ impossible => by cases impossible⟩
    · cases moved
      exact ⟨l1, fun _ impossible => by cases impossible⟩
    · cases moved
  · rename_i i worker phase
    rw [Option.map_eq_some_iff] at stepped
    obtain ⟨⟨phase', w'⟩, moved, same⟩ := stepped
    cases same
    refine ⟨?_, fun _ impossible => by cases impossible⟩
    exact jobStep_fresh l1 moved

theorem step_passed {κ : Type} {c : Pool κ (Process ι) (World ι)} {k : κ} {p : Process ι}
    {w : World ι} (stepped : step cfg event (c.threads k) c.shared = some (p, w))
    (passed : p.passed = some change) : (c.threads k).passed = some change ∨
      ∃ i worker e, c.threads k = .job i worker (.publishing e) ∧ e.stage ≠ 0 ∧ event = .proceed ∧
        e.id = change ∧ ∀ i, w.l1 i = {} := by
  generalize c.threads k = q at stepped ⊢
  unfold step at stepped
  split at stepped
  · split at stepped <;> cases stepped
    cases passed
  · split at stepped <;> cases stepped
    cases passed
  · split at stepped <;> cases stepped <;> cases passed
  · rw [Option.map_eq_some_iff] at stepped
    obtain ⟨⟨phase', w'⟩, _, same⟩ := stepped
    cases same
    cases passed
  · rename_i i worker phase
    rw [Option.map_eq_some_iff] at stepped
    obtain ⟨⟨phase', w'⟩, moved, same⟩ := stepped
    cases same
    unfold jobStep at moved
    split at moved
    · rw [Option.map_eq_some_iff] at moved
      obtain ⟨_, _, same⟩ := moved
      cases same
      cases passed
    all_goals cases moved
    · cases passed
    · cases passed
    · cases passed
    · cases passed
    · rename_i e
      right
      unfold Process.passed at passed
      dsimp only at passed
      split at passed
      · cases passed
      · rename_i stage
        cases passed
        exact ⟨i, worker, e, rfl, stage, rfl, rfl, fun _ => rfl⟩
    · cases passed
    · cases passed
    · rename_i e
      left
      by_cases stage : e.stage = 0
      · rw [if_pos stage] at passed
        cases passed
      · rw [if_neg stage] at passed
        cases passed
        exact if_neg stage
    all_goals cases passed

theorem step_deleted {κ : Type} {c : Pool κ (Process ι) (World ι)} {k : κ} {p : Process ι}
    {w : World ι} (stepped : step cfg event (c.threads k) c.shared = some (p, w))
    (deleted : w.deleted change = true) : c.shared.deleted change = true ∨
      ∃ i worker e, c.threads k = .job i worker (.deleting e) ∧ e.id = change := by
  generalize c.threads k = q at stepped ⊢
  generalize c.shared = w₀ at stepped ⊢
  unfold step at stepped
  split at stepped
  · split at stepped <;> cases stepped
    exact Or.inl deleted
  · split at stepped <;> cases stepped
    exact Or.inl deleted
  · split at stepped <;> cases stepped <;> exact Or.inl deleted
  · rw [Option.map_eq_some_iff] at stepped
    obtain ⟨⟨phase', w'⟩, moved, same⟩ := stepped
    cases same
    unfold lookupStep at moved
    left
    split at moved
    · split at moved <;> cases moved <;> exact deleted
    · split at moved <;> cases moved <;> exact deleted
    all_goals cases moved
    all_goals exact deleted
  · rename_i i worker phase
    rw [Option.map_eq_some_iff] at stepped
    obtain ⟨⟨phase', w'⟩, moved, same⟩ := stepped
    cases same
    unfold jobStep at moved
    split at moved
    · rw [Option.map_eq_some_iff] at moved
      obtain ⟨⟨row, w₁⟩, claimed, same⟩ := moved
      cases same
      unfold World.claim at claimed
      split at claimed
      · cases claimed
      · split at claimed <;> cases claimed
        exact Or.inl deleted
    all_goals cases moved
    · exact Or.inl deleted
    · exact Or.inl deleted
    · exact Or.inl deleted
    · exact Or.inl deleted
    · exact Or.inl deleted
    · exact Or.inl deleted
    · exact Or.inl deleted
    · exact Or.inl deleted
    · rw [scheduleSecondPass_deleted] at deleted
      exact Or.inl deleted
    · exact Or.inl deleted
    · rw [scheduleSecondPass_deleted] at deleted
      exact Or.inl deleted
    · rename_i e
      rcases deleteClaimed_deleted deleted with old | new
      · exact Or.inl old
      · exact Or.inr ⟨i, worker, e, rfl, new⟩
    · exact Or.inl deleted
    · rename_i e
      rcases deleteClaimed_deleted deleted with old | new
      · exact Or.inl old
      · exact Or.inr ⟨i, worker, e, rfl, new⟩
    · exact Or.inl deleted
    · rw [retryClaimed_deleted] at deleted
      exact Or.inl deleted
    · exact Or.inl deleted
    · rw [retryClaimed_deleted] at deleted
      exact Or.inl deleted

/-! ### Runs -/

/-- A change that the caches do not fall behind again. -/
structure Delivered {κ : Type} (c : Pool κ (Process ι) (World ι)) (change : ℕ) : Prop where
  settled : c.shared.Settled change
  l1 : ∀ i, (c.shared.l1 i).Fresh change
  fromL2 : ∀ k entry, (c.threads k).fromL2 = some entry → change ≤ entry.read

structure Invariant {κ : Type} (c : Pool κ (Process ι) (World ι)) : Prop where
  world : c.shared.Valid
  threads : ∀ k, (c.threads k).Valid c.shared
  passed : ∀ k change, (c.threads k).passed = some change → Delivered c change
  deleted : ∀ change, c.shared.deleted change = true →
    Delivered c change ∧ c.shared.TwicePassed change

variable {κ : Type} [DecidableEq κ]

theorem Delivered.step {c : Pool κ (Process ι) (World ι)} {k : κ} {p : Process ι} {w : World ι}
    (invariant : Invariant c) (quick : Quick c k event) (delivered : Delivered c change)
    (stepped : AuthCache.step cfg event (c.threads k) c.shared = some (p, w)) :
    Delivered { shared := w, threads := Function.update c.threads k p } change := by
  obtain ⟨_, later, _⟩ := step_spec invariant.world (invariant.threads k) quick stepped
  obtain ⟨l1, own⟩ := step_fresh (invariant.threads k) quick delivered.settled delivered.l1
    (delivered.fromL2 k) stepped
  refine ⟨later.settled change delivered.settled, l1, ?_⟩
  intro other entry reads
  rcases Pool.update_cases (rfl : ({ shared := w, threads := Function.update c.threads k p } :
    Pool κ (Process ι) (World ι)).threads other = _) with ⟨_, here⟩ | ⟨_, there⟩
  · rw [← here] at reads
    exact own entry reads
  · rw [← there] at reads
    exact delivered.fromL2 other entry reads

theorem step_invariant (c : Pool κ (Process ι) (World ι)) (k : κ) (event : Event ι) (p : Process ι)
    (w : World ι) (invariant : Invariant c) (meets : Quick c k event ∧ Drained c k event)
    (stepped : AuthCache.step cfg event (c.threads k) c.shared = some (p, w)) :
    Invariant { shared := w, threads := Function.update c.threads k p } := by
  obtain ⟨quick, drained⟩ := meets
  obtain ⟨kept, later, own⟩ := step_spec invariant.world (invariant.threads k) quick stepped
  constructor
  · exact kept
  · intro other
    change (Function.update c.threads k p other).Valid w
    by_cases same : other = k
    · rw [same, Function.update_self]
      exact own
    · rw [Function.update_of_ne same]
      exact (invariant.threads other).later later
  · intro other change passed
    rcases Pool.update_cases (rfl : ({ shared := w, threads := Function.update c.threads k p } :
      Pool κ (Process ι) (World ι)).threads other = _) with ⟨_, here⟩ | ⟨_, there⟩
    · rw [← here] at passed
      rcases step_passed stepped passed with before | ⟨i, worker, e, at_, stage, now, about, empty⟩
      · exact (invariant.passed k change before).step invariant quick stepped
      · have process := invariant.threads k
        rw [at_] at process
        have settled := process.2 stage
        rw [about] at settled
        refine ⟨later.settled change settled, ?_, ?_⟩
        · intro j
          change (w.l1 j).Fresh change
          rw [empty j]
          exact .empty change
        · intro third entry reads
          rcases Pool.update_cases (rfl : ({ shared := w, threads := Function.update c.threads k p } :
            Pool κ (Process ι) (World ι)).threads third = _) with ⟨_, moved⟩ | ⟨_, waits⟩
          · rw [← moved] at reads
            unfold Process.passed at passed
            split at passed
            · cases reads
            · cases reads
            · cases passed
          · rw [← waits] at reads
            have publishing : (c.threads k).publishing = some e := by rw [at_]; rfl
            have fresh := drained now e publishing stage third entry reads
            rw [about] at fresh
            exact fresh
    · rw [← there] at passed
      exact (invariant.passed other change passed).step invariant quick stepped
  · intro change deleted
    rcases step_deleted stepped deleted with before | ⟨i, worker, e, at_, about⟩
    · obtain ⟨delivered, twice⟩ := invariant.deleted change before
      exact ⟨delivered.step invariant quick stepped, twice.later later⟩
    · have delivered := invariant.passed k e.id (by rw [at_]; rfl)
      have process := invariant.threads k
      rw [at_] at process
      obtain ⟨claimed, ⟨second, two, began⟩, stage⟩ := process
      obtain ⟨first, one, ended⟩ := claimed.staged stage
      rw [about] at delivered one two
      refine ⟨delivered.step invariant quick stepped, ?_⟩
      refine World.TwicePassed.later later ⟨first, one, second, two, ?_⟩
      rw [began]
      exact ended

end Invariants

section Runs

variable {ι κ : Type} [DecidableEq ι] [DecidableEq κ]

omit [DecidableEq ι] [DecidableEq κ] in
theorem start_invariant (roles : κ → Role ι) : Invariant (start roles) where
  world := by
    constructor
    · intro id row impossible
      cases impossible
    · intro change
      exact le_rfl
    · intro change pass impossible
      cases impossible
  threads k := by
    change (roles k).process.Valid _
    cases roles k <;> trivial
  passed k change impossible := by
    change (roles k).process.passed = _ at impossible
    cases role : roles k <;> rw [role] at impossible <;> cases impossible
  deleted change impossible := by cases impossible

/-- With no fill from L2 under way across the end of a second pass, the caches converge. -/
theorem converged (cfg : Config) (roles : κ → Role ι) (schedule : List (κ × Event ι))
    (quick : Pool.Throughout (step cfg) Quick schedule (start roles))
    (drained : Pool.Throughout (step cfg) Drained schedule (start roles)) :
    Converges (Pool.run (step cfg) schedule (start roles)).shared := by
  have invariant := Pool.run_invariant_throughout (step cfg) Invariant _
    (fun c k event p w => step_invariant c k event p w) schedule (start_invariant roles)
    (quick.and drained)
  intro change deleted
  obtain ⟨delivered, twice⟩ := invariant.deleted change deleted
  exact ⟨⟨delivered.settled.l2, delivered.l1⟩, twice⟩

end Runs

/-! ### A fill that takes two hops -/

instance {ι κ : Type} (c : Pool κ (Process ι) (World ι)) (k : κ) (event : Event ι)
    [DecidableEq ι] : Decidable (Quick c k event) :=
  inferInstanceAs (Decidable (_ → _))

instance {ι : Type} {n : ℕ} (c : Pool (Fin n) (Process ι) (World ι)) (k : Fin n) (event : Event ι)
    [DecidableEq ι] : Decidable (Drained c k event) :=
  inferInstanceAs (Decidable (_ → _))

namespace Sample

def cfg : Config := { l1Enabled := true, l2Enabled := true, negativeEnabled := true }

/-- Two servers: a lookup on each, and a worker on the first. -/
def roles : Fin 5 → Role (Fin 2)
  | 0 => .clock
  | 1 => .writer
  | 2 => .lookup 0
  | 3 => .lookup 1
  | 4 => .job 0 7

/-- A key is created, and deleted when a lookup on the first server has read it. -/
def changed : List (Fin 5 × Event (Fin 2)) :=
  (1, .commit true 0) :: List.replicate 4 (2, .proceed) ++ [(1, .commit false 0)]

/-- A pass: from the claim to the end of the publication, and the update of the row. -/
def claimed : List (Fin 5 × Event (Fin 2)) := [(4, .claim 2), (4, .proceed)]

def passed : List (Fin 5 × Event (Fin 2)) := List.replicate 4 (4, .proceed)

/-- The first pass and the delay, before whose end the lookup writes what it read to L2. -/
def between : List (Fin 5 × Event (Fin 2)) :=
  claimed ++ passed ++ [(0, .elapse 29000000000), (2, .proceed), (0, .elapse 1000000000)]

/-- On the other server a lookup reads L2 before the second pass deletes it there, and writes its
L1 after the pass has published. -/
def resurrected : List (Fin 5 × Event (Fin 2)) :=
  changed ++ between ++ claimed ++ [(3, .proceed), (3, .proceed)] ++ passed ++ [(3, .proceed)]

/-- The same without that lookup. -/
def quiet : List (Fin 5 × Event (Fin 2)) := changed ++ between ++ claimed ++ passed

end Sample

/-- The row is deleted, and the deleted key is served. -/
theorem second_hop_resurrects :
    Pool.Throughout (step Sample.cfg) Quick Sample.resurrected (start Sample.roles) ∧
      ¬ Converges (Pool.run (step Sample.cfg) Sample.resurrected (start Sample.roles)).shared := by
  constructor
  · decide +kernel
  · intro converges
    obtain ⟨fresh, _⟩ := converges 2 (by decide +kernel)
    have stale := (fresh.l1 1).positive { notFound := false, read := 1 } (by decide +kernel)
    revert stale
    decide

/-- Without the second hop, both passes are made and the key is gone. -/
theorem converged_quiet :
    let w := (Pool.run (step Sample.cfg) Sample.quiet (start Sample.roles)).shared
    w.deleted 2 = true ∧ Converges w := by
  constructor
  · decide +kernel
  · exact converged Sample.cfg Sample.roles Sample.quiet (by decide +kernel) (by decide +kernel)

end Sub2api.AuthCache
