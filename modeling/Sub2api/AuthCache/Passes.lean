import Mathlib.Data.Int.Order.Basic
import Mathlib.Order.Nat
import Sub2api.AuthCache.Outbox

/-!
# Rows, passes and fills

A row that is claimed at its second stage was passed a safety delay ago (`Claimed.Valid`), and a
fill that reads the database has not seen what was committed after it began (`Reads`). So when
fills are quick, L2 stays free of what is older than a change from its second pass on: `Settled`,
which `step_spec` keeps with everything else.
-/

namespace Sub2api.AuthCache

open Interleave

section Claims

variable {ι κ : Type}

/-- What a lookup is about to write, and when it began to read. -/
def Process.filling : Process ι → Option (Entry × ℤ)
  | .lookup _ (.fromL2 entry began) => some (entry, began)
  | .lookup _ (.toL1 entry began) => some (entry, began)
  | .lookup _ (.toL2 entry began) => some (entry, began)
  | _ => none

/-- The entry that a lookup has from L2. -/
def Process.fromL2 : Process ι → Option Entry
  | .lookup _ (.fromL2 entry _) => some entry
  | _ => none

def Process.publishing : Process ι → Option Claimed
  | .job _ _ (.publishing e) => some e
  | _ => none

/-- A fill that writes takes less than the safety delay. -/
def Quick (c : Pool κ (Process ι) (World ι)) (k : κ) (event : Event ι) : Prop :=
  event = .proceed → ∀ fill ∈ (c.threads k).filling,
    c.shared.clock < fill.2 + authInvalidationSafetyDelay

/-- When a second pass publishes, no lookup is about to write to its L1 what L2 held from before
the change. -/
def Drained (c : Pool κ (Process ι) (World ι)) (k : κ) (event : Event ι) : Prop :=
  event = .proceed → ∀ e ∈ (c.threads k).publishing, e.stage ≠ 0 →
    ∀ other, ∀ entry ∈ (c.threads other).fromL2, e.id ≤ entry.read

structure L1.Fresh (cache : L1) (change : ℕ) : Prop where
  positive : ∀ entry, cache.positive = some entry → change ≤ entry.read
  negative : ∀ entry, cache.negative = some entry → change ≤ entry.read

/-- No cache holds anything from before the change. -/
structure World.Fresh (w : World ι) (change : ℕ) : Prop where
  l2 : ∀ entry, w.l2 = some entry → change ≤ entry.read
  l1 : ∀ i, (w.l1 i).Fresh change

/-- Two successful passes, the second at least the safety delay after the first. -/
def World.TwicePassed (w : World ι) (change : ℕ) : Prop :=
  ∃ first ∈ w.passes change, ∃ second ∈ w.passes change,
    first.2 + authInvalidationSafetyDelay ≤ second.1

/-- The caches converge. -/
def Converges (w : World ι) : Prop :=
  ∀ change, w.deleted change = true → w.Fresh change ∧ w.TwicePassed change

end Claims

/-! ### What is known of rows and passes -/

section Invariants

variable {ι : Type}

/-- A successful pass, and the safety delay after it, are over at this time. -/
def World.PassedBy (w : World ι) (change : ℕ) (time : ℤ) : Prop :=
  ∃ pass ∈ w.passes change, pass.2 + authInvalidationSafetyDelay ≤ time

structure Row.Valid (row : Row) (w : World ι) (id : ℕ) : Prop where
  exists_ : id ≤ w.version
  claimed : row.claimedBy ≠ none → row.availableAt ≤ w.clock
  staged : row.stage ≠ 0 → w.PassedBy id (max row.availableAt w.clock)

structure World.Valid (w : World ι) : Prop where
  rows : ∀ id row, w.rows id = some row → row.Valid w id
  committed : ∀ change, w.committedAt change ≤ w.clock
  passes : ∀ change, ∀ pass ∈ w.passes change, change ≤ w.version ∧
    w.committedAt change ≤ pass.1 ∧ pass.1 ≤ pass.2 ∧ pass.2 ≤ w.clock

/-- L2 holds nothing from before the change, and nothing that is read from the database can bring
it back. -/
structure World.Settled (w : World ι) (change : ℕ) : Prop where
  exists_ : change ≤ w.version
  old : w.committedAt change + authInvalidationSafetyDelay ≤ w.clock
  l2 : ∀ entry, w.l2 = some entry → change ≤ entry.read

structure Claimed.Valid (e : Claimed) (w : World ι) : Prop where
  exists_ : e.id ≤ w.version
  after_ : w.committedAt e.id ≤ e.began
  began : e.began ≤ w.clock
  staged : e.stage ≠ 0 → w.PassedBy e.id e.began

/-- The pass of a claimed event was successful. -/
def Claimed.Passed (e : Claimed) (w : World ι) : Prop := ∃ pass ∈ w.passes e.id, pass.1 = e.began

def Job.Valid (phase : Job) (w : World ι) : Prop :=
  match phase with
  | .idle => True
  | .claimed e | .deletingL2 e | .failed e => e.Valid w
  | .publishing e => e.Valid w ∧ (e.stage ≠ 0 → w.Settled e.id)
  | .passed e => e.Valid w ∧ e.Passed w
  | .scheduling e availableAt => e.Valid w ∧ w.PassedBy e.id availableAt
  | .deleting e => e.Valid w ∧ e.Passed w ∧ e.stage ≠ 0
  | .retrying e _ => e.Valid w

/-- A fill of the database began to read before the changes that it did not see. -/
def Reads (w : World ι) (entry : Entry) (began : ℤ) : Prop :=
  began ≤ w.clock ∧ ∀ change, entry.read < change → change ≤ w.version →
    began ≤ w.committedAt change

def Lookup.Valid (phase : Lookup) (w : World ι) : Prop :=
  match phase with
  | .toL1 entry began | .toL2 entry began => Reads w entry began
  | _ => True

def Process.Valid (p : Process ι) (w : World ι) : Prop :=
  match p with
  | .lookup _ phase => phase.Valid w
  | .job _ _ phase => phase.Valid w
  | _ => True

/-- What a turn does to the world, for the processes that do not move. -/
structure Later (w w' : World ι) : Prop where
  clock : w.clock ≤ w'.clock
  version : w.version ≤ w'.version
  committed : ∀ change ≤ w.version, w'.committedAt change = w.committedAt change
  newly : ∀ change, w.version < change → change ≤ w'.version → w.clock ≤ w'.committedAt change
  passes : ∀ change, ∀ pass ∈ w.passes change, pass ∈ w'.passes change
  settled : ∀ change, w.Settled change → w'.Settled change

theorem Later.refl (w : World ι) : Later w w where
  clock := le_rfl
  version := Nat.le_refl _
  committed _ _ := rfl
  newly _ after_ bound := absurd bound (by omega)
  passes _ _ listed := listed
  settled _ settled := settled

variable {w w' : World ι}

/-- Turns that leave the table's changes and the clock alone, and L2 at most emptied. -/
theorem Later.same (clock : w'.clock = w.clock) (version : w'.version = w.version)
    (committed : w'.committedAt = w.committedAt)
    (passes : ∀ change, ∀ pass ∈ w.passes change, pass ∈ w'.passes change)
    (l2 : ∀ entry, w'.l2 = some entry → w.l2 = some entry) : Later w w' where
  clock := by rw [clock]
  version := by rw [version]
  committed change _ := by rw [committed]
  newly change after_ bound := by
    rw [version] at bound
    omega
  passes := passes
  settled change settled := by
    constructor
    · rw [version]
      exact settled.exists_
    · rw [committed, clock]
      exact settled.old
    · intro entry held
      exact settled.l2 entry (l2 entry held)

theorem World.PassedBy.later {change : ℕ} {time : ℤ} (later : Later w w')
    (passed : w.PassedBy change time) : w'.PassedBy change time := by
  obtain ⟨pass, listed, ended⟩ := passed
  exact ⟨pass, later.passes change pass listed, ended⟩

theorem World.PassedBy.mono {w : World ι} {change : ℕ} {time time' : ℤ} (le : time ≤ time')
    (passed : w.PassedBy change time) : w.PassedBy change time' := by
  obtain ⟨pass, listed, ended⟩ := passed
  exact ⟨pass, listed, ended.trans le⟩

theorem World.TwicePassed.later {change : ℕ} (later : Later w w') (twice : w.TwicePassed change) :
    w'.TwicePassed change := by
  obtain ⟨first, one, second, two, apart⟩ := twice
  exact ⟨first, later.passes change first one, second, later.passes change second two, apart⟩

theorem Claimed.Valid.later {e : Claimed} (later : Later w w') (valid : e.Valid w) :
    e.Valid w' where
  exists_ := valid.exists_.trans later.version
  after_ := by
    rw [later.committed e.id valid.exists_]
    exact valid.after_
  began := valid.began.trans later.clock
  staged stage := (valid.staged stage).later later

theorem Claimed.Passed.later {e : Claimed} (later : Later w w') (passed : e.Passed w) :
    e.Passed w' := by
  obtain ⟨pass, listed, same⟩ := passed
  exact ⟨pass, later.passes e.id pass listed, same⟩

theorem Reads.later {entry : Entry} {began : ℤ} (later : Later w w') (reads : Reads w entry began) :
    Reads w' entry began := by
  obtain ⟨bound, unseen⟩ := reads
  constructor
  · exact bound.trans later.clock
  · intro change after_ exists_
    by_cases old : change ≤ w.version
    · rw [later.committed change old]
      exact unseen change after_ old
    · exact bound.trans (later.newly change (by omega) exists_)

theorem Job.Valid.later {phase : Job} (later : Later w w') (valid : phase.Valid w) :
    phase.Valid w' := by
  cases phase with
  | idle => trivial
  | claimed e => exact Claimed.Valid.later later valid
  | deletingL2 e => exact Claimed.Valid.later later valid
  | failed e => exact Claimed.Valid.later later valid
  | retrying e _ => exact Claimed.Valid.later later valid
  | publishing e => exact ⟨valid.1.later later, fun stage => later.settled e.id (valid.2 stage)⟩
  | passed e => exact ⟨valid.1.later later, valid.2.later later⟩
  | scheduling e _ => exact ⟨valid.1.later later, valid.2.later later⟩
  | deleting e => exact ⟨valid.1.later later, valid.2.1.later later, valid.2.2⟩

theorem Process.Valid.later {p : Process ι} (later : Later w w') (valid : p.Valid w) :
    p.Valid w' := by
  cases p with
  | clock => trivial
  | writer => trivial
  | eviction => trivial
  | lookup i phase =>
      cases phase with
      | idle => trivial
      | l2 => trivial
      | database => trivial
      | fromL2 entry began => trivial
      | toL1 entry began => exact Reads.later later valid
      | toL2 entry began => exact Reads.later later valid
  | job i worker phase => exact Job.Valid.later later valid

/-! ### What the operations on the table keep -/

theorem Row.Valid.later {row : Row} {id : ℕ} (later : Later w w') (valid : row.Valid w id) :
    row.Valid w' id where
  exists_ := valid.exists_.trans later.version
  claimed claimed := (valid.claimed claimed).trans later.clock
  staged stage := by
    have clock := later.clock
    exact ((valid.staged stage).later later).mono (by omega)

/-- The history of changes and passes is as it was. -/
theorem World.Valid.sameRows (valid : w.Valid) (later : Later w w')
    (rows : ∀ id row, w'.rows id = some row → row.Valid w' id) (version : w'.version = w.version)
    (committed : w'.committedAt = w.committedAt) (passes : w'.passes = w.passes) : w'.Valid where
  rows := rows
  committed change := by
    rw [committed]
    exact (valid.committed change).trans later.clock
  passes change pass listed := by
    rw [passes] at listed
    rw [version, committed]
    obtain ⟨exists_, began, order, ended⟩ := valid.passes change pass listed
    exact ⟨exists_, began, order, ended.trans later.clock⟩

theorem World.Valid.later (valid : w.Valid) (later : Later w w') (rows : w'.rows = w.rows)
    (version : w'.version = w.version) (committed : w'.committedAt = w.committedAt)
    (passes : w'.passes = w.passes) : w'.Valid := by
  apply valid.sameRows later ?_ version committed passes
  intro id row found
  rw [rows] at found
  exact (valid.rows id row found).later later

theorem Later.setRow (w : World ι) (id : ℕ) (row : Option Row) : Later w (w.setRow id row) :=
  Later.same rfl rfl rfl (fun _ _ listed => listed) (fun _ held => held)

theorem Later.emptied (w : World ι) : Later w { w with l2 := none } :=
  Later.same rfl rfl rfl (fun _ _ listed => listed) (fun _ impossible => by cases impossible)

theorem elapse_later (w : World ι) (time : ℕ) : Later w { w with clock := w.clock + time } := by
  refine ⟨?_, Nat.le_refl _, fun _ _ => rfl, ?_, fun _ _ listed => listed, ?_⟩
  · change w.clock ≤ w.clock + time
    omega
  · intro change after_ bound
    exact absurd bound (Nat.not_le_of_lt after_)
  · intro change settled
    refine ⟨settled.exists_, ?_, settled.l2⟩
    have old := settled.old
    change w.committedAt change + authInvalidationSafetyDelay ≤ w.clock + time
    omega

theorem World.Valid.setRow {w : World ι} (valid : w.Valid) {id : ℕ} {row : Option Row}
    (new : ∀ row', row = some row' → row'.Valid w id) : (w.setRow id row).Valid := by
  apply valid.sameRows (Later.setRow w id row) ?_ rfl rfl rfl
  intro other row' found
  change Function.update w.rows id row other = some row' at found
  by_cases own : other = id
  · subst own
    rw [Function.update_self] at found
    exact (new row' found).later (Later.setRow w other row)
  · rw [Function.update_of_ne own] at found
    exact (valid.rows other row' found).later (Later.setRow w id row)

theorem commit_later (w : World ι) (found : Bool) (lasted : ℕ) :
    Later w (w.commit found lasted) where
  clock := le_rfl
  version := Nat.le_succ _
  committed change old := Function.update_of_ne (by omega) ..
  newly change after_ bound := by
    have this : change = w.version + 1 := by
      change change ≤ w.version + 1 at bound
      omega
    rw [this]
    exact (Function.update_self (f := w.committedAt) ..).ge
  passes _ _ listed := listed
  settled change settled := by
    have old := settled.exists_
    constructor
    · exact Nat.le_succ_of_le old
    · change Function.update w.committedAt (w.version + 1) w.clock change + _ ≤ _
      rw [Function.update_of_ne (by omega)]
      exact settled.old
    · exact settled.l2

theorem World.Valid.commit {w : World ι} (valid : w.Valid) (found : Bool) (lasted : ℕ) :
    (w.commit found lasted).Valid where
  rows id row held := by
    change Function.update w.rows (w.version + 1) _ id = some row at held
    by_cases new : id = w.version + 1
    · subst new
      rw [Function.update_self] at held
      cases held
      constructor
      · exact Nat.le_refl _
      · intro impossible
        exact absurd rfl impossible
      · intro impossible
        exact absurd rfl impossible
    · rw [Function.update_of_ne new] at held
      exact (valid.rows id row held).later (commit_later w found lasted)
  committed change := by
    change Function.update w.committedAt (w.version + 1) w.clock change ≤ w.clock
    by_cases new : change = w.version + 1
    · rw [new, Function.update_self]
    · rw [Function.update_of_ne new]
      exact valid.committed change
  passes change pass listed := by
    obtain ⟨exists_, began, order, ended⟩ := valid.passes change pass listed
    refine ⟨Nat.le_succ_of_le exists_, ?_, order, ended⟩
    change Function.update w.committedAt (w.version + 1) w.clock change ≤ pass.1
    rw [Function.update_of_ne (by omega)]
    exact began

theorem claim_spec {id worker : ℕ} {row : Row} (valid : w.Valid)
    (claimed : w.claim id worker = some (row, w')) :
    row.Valid w id ∧ row.availableAt ≤ w.clock ∧ w'.Valid ∧ Later w w' ∧ w'.clock = w.clock := by
  unfold World.claim at claimed
  split at claimed
  · cases claimed
  · rename_i row' found
    split at claimed
    · rename_i claimable
      cases claimed
      have held := valid.rows id row found
      have available : row.availableAt ≤ w.clock := by
        unfold Row.claimable at claimable
        rw [Bool.and_eq_true, decide_eq_true_eq] at claimable
        exact claimable.1
      refine ⟨held, available, ?_, Later.setRow w id _, rfl⟩
      apply valid.setRow
      rintro row' ⟨⟩
      exact ⟨held.exists_, fun _ => available, held.staged⟩
    · cases claimed

theorem scheduleSecondPass_spec {w : World ι} {id : ℕ} {availableAt : ℤ} (valid : w.Valid)
    (worker : ℕ) (passed : w.PassedBy id availableAt) :
    (w.scheduleSecondPass id worker availableAt).Valid ∧
      Later w (w.scheduleSecondPass id worker availableAt) := by
  unfold World.scheduleSecondPass
  split
  · exact ⟨valid, Later.refl w⟩
  · rename_i row found
    split
    · refine ⟨valid.setRow ?_, Later.setRow w id _⟩
      rintro row' ⟨⟩
      constructor
      · exact (valid.rows id row found).exists_
      · intro impossible
        exact absurd rfl impossible
      · intro _
        exact passed.mono (Int.le_max_left _ _)
    · exact ⟨valid, Later.refl w⟩

theorem deleteClaimed_spec {w : World ι} (valid : w.Valid) (id worker : ℕ) :
    (w.deleteClaimed id worker).Valid ∧ Later w (w.deleteClaimed id worker) := by
  unfold World.deleteClaimed
  split
  · exact ⟨valid, Later.refl w⟩
  · split
    · have gone : (w.setRow id none).Valid := valid.setRow (fun _ impossible => by cases impossible)
      constructor
      · exact gone.later
          (Later.same rfl rfl rfl (fun _ _ listed => listed) (fun _ held => held)) rfl rfl rfl rfl
      · exact Later.same rfl rfl rfl (fun _ _ listed => listed) (fun _ held => held)
    · exact ⟨valid, Later.refl w⟩

theorem retryClaimed_spec {w : World ι} (valid : w.Valid) (id worker : ℕ) (availableAt : ℤ) :
    (w.retryClaimed id worker availableAt).Valid ∧
      Later w (w.retryClaimed id worker availableAt) := by
  unfold World.retryClaimed
  split
  · exact ⟨valid, Later.refl w⟩
  · rename_i row found
    split
    · rename_i mine
      refine ⟨valid.setRow ?_, Later.setRow w id _⟩
      rintro row' ⟨⟩
      have held := valid.rows id row found
      constructor
      · exact held.exists_
      · intro impossible
        exact absurd rfl impossible
      · intro stage
        have claimed : row.availableAt ≤ w.clock := by
          apply held.claimed
          rw [mine]
          exact Option.some_ne_none _
        apply (held.staged stage).mono
        omega
    · exact ⟨valid, Later.refl w⟩

/-! ### What a turn keeps -/

/-- A pass that was successful is recorded. -/
theorem publish_spec {w : World ι} {e : Claimed} (valid : w.Valid) (claimed : e.Valid w) :
    let w' : World ι := { w with
      l1 := fun _ => {}
      passes := Function.update w.passes e.id ((e.began, w.clock) :: w.passes e.id) }
    w'.Valid ∧ Later w w' ∧ (e.began, w.clock) ∈ w'.passes e.id := by
  intro w'
  have mem : ∀ change pass, pass ∈ w'.passes change →
      pass ∈ w.passes change ∨ (change = e.id ∧ pass = (e.began, w.clock)) := by
    intro change pass listed
    change pass ∈ Function.update w.passes e.id _ change at listed
    by_cases own : change = e.id
    · subst own
      rw [Function.update_self] at listed
      rcases List.mem_cons.mp listed with new | old
      · exact Or.inr ⟨rfl, new⟩
      · exact Or.inl old
    · rw [Function.update_of_ne own] at listed
      exact Or.inl listed
  have grown : ∀ change, ∀ pass ∈ w.passes change, pass ∈ w'.passes change := by
    intro change pass listed
    change pass ∈ Function.update w.passes e.id _ change
    by_cases own : change = e.id
    · subst own
      rw [Function.update_self]
      exact List.mem_cons_of_mem _ listed
    · rw [Function.update_of_ne own]
      exact listed
  have later : Later w w' := Later.same rfl rfl rfl grown (fun _ held => held)
  refine ⟨⟨?_, valid.committed, ?_⟩, later, ?_⟩
  · intro id row found
    exact (valid.rows id row found).later later
  · intro change pass listed
    rcases mem change pass listed with old | ⟨rfl, rfl⟩
    · exact valid.passes change pass old
    · exact ⟨claimed.exists_, claimed.after_, claimed.began, le_rfl⟩
  · change _ ∈ Function.update w.passes e.id _ e.id
    rw [Function.update_self]
    exact List.mem_cons_self ..

theorem Claimed.Valid.settled {w : World ι} {e : Claimed} (valid : w.Valid)
    (claimed : e.Valid w) (stage : e.stage ≠ 0) :
    ({ w with l2 := none } : World ι).Settled e.id := by
  obtain ⟨pass, listed, ended⟩ := claimed.staged stage
  obtain ⟨_, after_, order, _⟩ := valid.passes e.id pass listed
  have began := claimed.began
  constructor
  · exact claimed.exists_
  · change w.committedAt e.id + authInvalidationSafetyDelay ≤ w.clock
    omega
  · intro entry impossible
    cases impossible

theorem scheduleSecondPass_l1 (w : World ι) (id worker : ℕ) (availableAt : ℤ) :
    (w.scheduleSecondPass id worker availableAt).l1 = w.l1 := by
  unfold World.scheduleSecondPass
  split
  · rfl
  · split <;> rfl

theorem deleteClaimed_l1 (w : World ι) (id worker : ℕ) :
    (w.deleteClaimed id worker).l1 = w.l1 := by
  unfold World.deleteClaimed
  split
  · rfl
  · split <;> rfl

theorem retryClaimed_l1 (w : World ι) (id worker : ℕ) (availableAt : ℤ) :
    (w.retryClaimed id worker availableAt).l1 = w.l1 := by
  unfold World.retryClaimed
  split
  · rfl
  · split <;> rfl

theorem scheduleSecondPass_deleted (w : World ι) (id worker : ℕ) (availableAt : ℤ) :
    (w.scheduleSecondPass id worker availableAt).deleted = w.deleted := by
  unfold World.scheduleSecondPass
  split
  · rfl
  · split <;> rfl

theorem retryClaimed_deleted (w : World ι) (id worker : ℕ) (availableAt : ℤ) :
    (w.retryClaimed id worker availableAt).deleted = w.deleted := by
  unfold World.retryClaimed
  split
  · rfl
  · split <;> rfl

theorem deleteClaimed_deleted {w : World ι} {id worker change : ℕ}
    (deleted : (w.deleteClaimed id worker).deleted change = true) :
    w.deleted change = true ∨ id = change := by
  unfold World.deleteClaimed at deleted
  split at deleted
  · exact Or.inl deleted
  · split at deleted
    · change Function.update w.deleted id true change = true at deleted
      by_cases own : change = id
      · exact Or.inr own.symm
      · rw [Function.update_of_ne own] at deleted
        exact Or.inl deleted
    · exact Or.inl deleted

variable [DecidableEq ι]

theorem Later.setL1 (w : World ι) (i : ι) (cache : L1) : Later w (w.setL1 i cache) :=
  Later.same rfl rfl rfl (fun _ _ listed => listed) (fun _ held => held)

theorem World.Valid.setL1 {w : World ι} (valid : w.Valid) (i : ι) (cache : L1) :
    (w.setL1 i cache).Valid :=
  valid.later (Later.setL1 w i cache) rfl rfl rfl rfl

theorem jobStep_spec {event : Event ι} {i : ι} {worker : ℕ} {phase phase' : Job} (valid : w.Valid)
    (job : phase.Valid w) (stepped : jobStep event i worker phase w = some (phase', w')) :
    w'.Valid ∧ Later w w' ∧ phase'.Valid w' := by
  unfold jobStep at stepped
  split at stepped
  · rename_i id
    rw [Option.map_eq_some_iff] at stepped
    obtain ⟨⟨row, w₁⟩, claimed, same⟩ := stepped
    cases same
    obtain ⟨held, available, kept, later, clock⟩ := claim_spec valid claimed
    refine ⟨kept, later, ?_⟩
    constructor
    · exact held.exists_.trans later.version
    · change w'.committedAt id ≤ w'.clock
      rw [later.committed id held.exists_, clock]
      exact valid.committed id
    · exact le_rfl
    · intro stage
      change w'.PassedBy id w'.clock
      rw [clock]
      apply ((held.staged stage).later later).mono
      omega
  · cases stepped
    have later := Later.setL1 w i {}
    exact ⟨valid.setL1 i {}, later, Claimed.Valid.later later job⟩
  · rename_i e
    cases stepped
    have later := Later.emptied w
    refine ⟨valid.later later rfl rfl rfl rfl, later, Claimed.Valid.later later job, ?_⟩
    intro stage
    exact Claimed.Valid.settled valid job stage
  · cases stepped
    exact ⟨valid, Later.refl w, job⟩
  · cases stepped
    have later := Later.emptied w
    exact ⟨valid.later later rfl rfl rfl rfl, later, Claimed.Valid.later later job⟩
  · rename_i e
    cases stepped
    obtain ⟨kept, later, listed⟩ := publish_spec valid job.1
    exact ⟨kept, later, job.1.later later, _, listed, rfl⟩
  · cases stepped
    exact ⟨valid, Later.refl w, job.1⟩
  · cases stepped
    have later : Later w { w with l1 := fun _ => {} } :=
      Later.same rfl rfl rfl (fun _ _ listed => listed) (fun _ held => held)
    exact ⟨valid.later later rfl rfl rfl rfl, later, job.1.later later⟩
  · rename_i e
    cases stepped
    refine ⟨valid, Later.refl w, ?_⟩
    split
    · obtain ⟨claimed, pass, listed, _⟩ := job
      refine ⟨claimed, pass, listed, ?_⟩
      have ended := (valid.passes e.id pass listed).2.2.2
      omega
    · rename_i stage
      exact ⟨job.1, job.2, stage⟩
  · cases stepped
    obtain ⟨kept, later⟩ := scheduleSecondPass_spec valid worker job.2
    exact ⟨kept, later, trivial⟩
  · cases stepped
    exact ⟨valid, Later.refl w, trivial⟩
  · cases stepped
    obtain ⟨kept, later⟩ := scheduleSecondPass_spec valid worker job.2
    exact ⟨kept, later, trivial⟩
  · cases stepped
    obtain ⟨kept, later⟩ := deleteClaimed_spec valid _ worker
    exact ⟨kept, later, trivial⟩
  · cases stepped
    exact ⟨valid, Later.refl w, trivial⟩
  · cases stepped
    obtain ⟨kept, later⟩ := deleteClaimed_spec valid _ worker
    exact ⟨kept, later, trivial⟩
  · cases stepped
    exact ⟨valid, Later.refl w, job⟩
  · cases stepped
    obtain ⟨kept, later⟩ := retryClaimed_spec valid _ worker _
    exact ⟨kept, later, trivial⟩
  · cases stepped
    exact ⟨valid, Later.refl w, trivial⟩
  · cases stepped
    obtain ⟨kept, later⟩ := retryClaimed_spec valid _ worker _
    exact ⟨kept, later, trivial⟩
  · cases stepped

theorem lookupStep_spec {cfg : Config} {event : Event ι} {i : ι} {phase phase' : Lookup}
    (valid : w.Valid) (lookup : phase.Valid w)
    (quick : event = .proceed → ∀ fill ∈ (Process.lookup i phase).filling,
      w.clock < fill.2 + authInvalidationSafetyDelay)
    (stepped : lookupStep cfg event i phase w = some (phase', w')) :
    w'.Valid ∧ Later w w' ∧ phase'.Valid w' := by
  unfold lookupStep at stepped
  split at stepped
  · split at stepped
    · cases stepped
      exact ⟨valid, Later.refl w, trivial⟩
    · cases stepped
      refine ⟨valid, Later.refl w, ?_⟩
      split <;> trivial
  · split at stepped
    · cases stepped
      exact ⟨valid, Later.refl w, trivial⟩
    · cases stepped
      exact ⟨valid, Later.refl w, trivial⟩
  · cases stepped
    exact ⟨valid, Later.refl w, trivial⟩
  · cases stepped
    exact ⟨valid.setL1 i _, Later.setL1 w i _, trivial⟩
  · cases stepped
    refine ⟨valid, Later.refl w, le_rfl, ?_⟩
    intro change after_ exists_
    exact absurd exists_ (Nat.not_le_of_lt after_)
  · cases stepped
    exact ⟨valid, Later.refl w, trivial⟩
  · rename_i entry began
    cases stepped
    have later := Later.setL1 w i ((w.l1 i).set cfg entry)
    refine ⟨valid.setL1 i _, later, ?_⟩
    split
    · trivial
    · exact Reads.later later lookup
  · rename_i entry began
    cases stepped
    have now := quick rfl (entry, began) rfl
    -- what this fill did not see was committed after it began, less than the safety delay ago
    have later : Later w { w with l2 := some entry } := by
      refine ⟨le_rfl, Nat.le_refl _, fun _ _ => rfl, ?_, fun _ _ listed => listed, ?_⟩
      · intro change after_ bound
        exact absurd bound (Nat.not_le_of_lt after_)
      · intro change settled
        refine ⟨settled.exists_, settled.old, ?_⟩
        rintro entry' ⟨⟩
        by_contra stale
        have unseen := lookup.2 change (by omega) settled.exists_
        have old := settled.old
        omega
    exact ⟨valid.later later rfl rfl rfl rfl, later, trivial⟩
  · cases stepped
    exact ⟨valid, Later.refl w, trivial⟩
  · cases stepped

/-- One turn of any process. -/
theorem step_spec {κ : Type} {cfg : Config} {c : Pool κ (Process ι) (World ι)} {k : κ}
    {event : Event ι} {p : Process ι} {w : World ι} (valid : c.shared.Valid)
    (process : (c.threads k).Valid c.shared) (quick : Quick c k event)
    (stepped : step cfg event (c.threads k) c.shared = some (p, w)) :
    w.Valid ∧ Later c.shared w ∧ p.Valid w := by
  unfold Quick at quick
  generalize c.threads k = q at process quick stepped
  generalize c.shared = w₀ at valid process quick stepped ⊢
  cases q with
  | clock =>
      cases event with
      | elapse time =>
          cases stepped
          have later := elapse_later w₀ time
          exact ⟨valid.later later rfl rfl rfl rfl, later, trivial⟩
      | _ => cases stepped
  | writer =>
      cases event with
      | commit found lasted =>
          cases stepped
          exact ⟨valid.commit found lasted, commit_later w₀ found lasted, trivial⟩
      | _ => cases stepped
  | eviction =>
      cases event with
      | evictL1 i =>
          cases stepped
          exact ⟨valid.setL1 i {}, Later.setL1 w₀ i {}, trivial⟩
      | evictL2 =>
          cases stepped
          have later := Later.emptied w₀
          exact ⟨valid.later later rfl rfl rfl rfl, later, trivial⟩
      | _ => cases stepped
  | lookup i phase =>
      change (lookupStep cfg event i phase w₀).map _ = _ at stepped
      rw [Option.map_eq_some_iff] at stepped
      obtain ⟨⟨phase', w'⟩, moved, same⟩ := stepped
      cases same
      exact lookupStep_spec valid process quick moved
  | job i worker phase =>
      change (jobStep event i worker phase w₀).map _ = _ at stepped
      rw [Option.map_eq_some_iff] at stepped
      obtain ⟨⟨phase', w'⟩, moved, same⟩ := stepped
      cases same
      exact jobStep_spec valid process moved

end Invariants

end Sub2api.AuthCache
