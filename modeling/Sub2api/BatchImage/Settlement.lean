import Sub2api.BatchImage.SoundCalls

/-!
# Holds are settled once, and none leaks

Two results about every schedule of any number of calls, both from `run_inv`:

* `holds_settled_once` — while every call is clean, at most one of capture and release moves a
  hold, and the users' money is accounted for;
* `no_hold_leaks` — while every call is in order, a failed or cancelled job whose last release was
  accepted holds no money.

Neither holds of all runs: `hold_settled_twice` and `hold_leaks` are runs that go wrong.
-/

namespace Sub2api.BatchImage

open Database Go Billing Interleave

/-- No batch-image job, hold or claim yet. -/
structure Fresh (s : State) : Prop where
  jobs : ∀ id, s.jobs id = none
  moves : s.moves = []
  calls : s.calls = []
  claims : ∀ id key, claimOf s.billing (HoldKind.reserve.requestID id, key) = none

/-- How often an operation on a batch's hold hit a user's row. -/
def times (s : State) (kind : HoldKind) (id : String) : ℕ :=
  (s.moves.map fun m => (m.kind, m.batchID)).count (kind, id)

/-- The holds are settled at most once and the money of every user is accounted for, against the
state `s₀` that the run began in. -/
structure SettledOnce (s₀ s : State) : Prop where
  once : ∀ id, times s .capture id + times s .release id ≤ 1
  frozen : ∀ u, frozenOf s.billing u = frozenOf s₀.billing u + openHolds s.moves u
  total : ∀ u, balanceOf s.billing u + frozenOf s.billing u =
    balanceOf s₀.billing u + frozenOf s₀.billing u - capturedTotal s.moves u

/-- The call that created the batch has returned. -/
def SubmitReturned (c : Pool ℕ (Op Unit) State) (id : String) : Prop :=
  ∀ me, c.shared.creator id = some me → (c.threads me).finished = true

/-- The last call of a batch's release. -/
def lastRelease (s : State) (id : String) : Option HoldCall :=
  (s.calls.filter fun c => c.kind == .release && c.batchID == id).getLast?

/-- The last release of the job returned nil; with nothing to hold, every release does. -/
def LastReleaseAccepted (s : State) (job : BatchImageJob) : Prop :=
  job.heldAmount ≤ 0 ∨ ∃ c, lastRelease s job.batchID = some c ∧ c.accepted = true

/-- The hold was never frozen, or it went back exactly once. -/
def NotFrozen (s : State) (id : String) : Prop :=
  times s .reserve id = 0 ∨ (times s .reserve id = 1 ∧ times s .release id = 1)

/-- No failed or cancelled job whose submission is over and whose last release was accepted holds
money. -/
def NoLeak (c : Pool ℕ (Op Unit) State) : Prop :=
  ∀ id job, c.shared.jobs id = some job → job.status = .failed ∨ job.status = .cancelled →
    SubmitReturned c id → LastReleaseAccepted c.shared job → NotFrozen c.shared id

section Reading

variable {s₀ s : State} {kind : HoldKind} {id : String}

theorem times_eq_zero : times s kind id = 0 ↔ ¬Moved s kind id := by
  simp [times, Moved, List.count_eq_zero]

theorem Books.times_eq_one (books : Books s) (moved : Moved s kind id) : times s kind id = 1 := by
  obtain ⟨m, member, rfl, rfl⟩ := moved
  exact List.count_eq_one_of_mem books.distinct (List.mem_map_of_mem member)

/-- A state without history is in order with itself. -/
theorem Fresh.inv (fresh : Fresh s) : Inv s s := by
  obtain ⟨jobs, moves, calls, claims⟩ := fresh
  have unmoved (kind : HoldKind) (id : String) : ¬Moved s kind id := by simp [Moved, moves]
  refine
    { books :=
        { named := fun id job found => by simp [jobs] at found
          recorded := by simp [moves]
          distinct := by simp [moves]
          positive := by simp [moves]
          backed := by simp [moves]
          claimed := fun id key _ claim => absurd (claims id key) claim
          submitted := fun id job found => by simp [jobs] at found
          called := by simp [calls] }
      balanced := fun _ =>
        { exclusive := fun id both => unmoved _ _ both.1
          frozen := by simp [openHolds, moves]
          total := by simp [capturedTotal, moves] }
      returned := fun _ =>
        { released := fun id job key found => by simp [jobs] at found
          accepted := by simp [calls] } }

theorem Inv.settledOnce (inv : Inv s₀ s) (clean : Clean s) : SettledOnce s₀ s := by
  have balanced := inv.balanced clean
  refine ⟨fun id => ?_, balanced.frozen, balanced.total⟩
  by_cases captured : Moved s .capture id
  · have never : ¬Moved s .release id := fun released => balanced.exclusive id ⟨captured, released⟩
    rw [inv.books.times_eq_one captured, times_eq_zero.mpr never]
  · by_cases released : Moved s .release id
    · rw [times_eq_zero.mpr captured, inv.books.times_eq_one released]
    · rw [times_eq_zero.mpr captured, times_eq_zero.mpr released]
      omega

theorem Inv.notFrozen (inv : Inv s₀ s) (inOrder : InOrder s) {job : BatchImageJob}
    (found : s.jobs id = some job) (last : LastReleaseAccepted s job) : NotFrozen s id := by
  have books := inv.books
  by_cases reserved : Moved s .reserve id
  · have positive : 0 < job.heldAmount := by
      obtain ⟨m, member, reserve, rfl⟩ := reserved
      obtain ⟨row, _, row_found, _, hold, _⟩ := books.recorded m member
      rw [found] at row_found
      cases row_found
      exact hold ▸ books.positive m member reserve
    rcases last with none | ⟨c, last, accepted⟩
    · exact absurd positive (not_lt.mpr none)
    · have member := List.mem_filter.mp (List.mem_of_getLast? last)
      simp only [Bool.and_eq_true, beq_iff_eq, (books.named id job found).1] at member
      obtain ⟨called, release, batch⟩ := member
      obtain ⟨row, key, row_found, hasKey, claim⟩ :=
        (inv.returned inOrder).accepted c called release accepted
      rw [batch] at row_found claim
      rcases (inv.returned inOrder).released id row key row_found hasKey claim with
        released | never
      · exact Or.inr ⟨books.times_eq_one reserved, books.times_eq_one released⟩
      · exact absurd reserved never
  · exact Or.inl (times_eq_zero.mpr reserved)

end Reading

/-! ### Every run -/

/-- **Holds are settled once.** After every schedule of any calls, while each call so far was
clean, at most one of capture and release moved each hold, every user's frozen balance is what the
open holds say, and balance and frozen balance together fell by the captured amounts. -/
theorem holds_settled_once (rt : Runtime) (calls : ℕ → Call) (s : State) (fresh : Fresh s)
    (schedule : List (ℕ × Env)) (clean : Clean (run rt calls s schedule).shared) :
    SettledOnce s (run rt calls s schedule).shared :=
  (run_inv calls fresh.inv schedule).settledOnce clean

/-- **No hold leaks.** After every schedule of any calls, while each reserve so far was in order,
no failed or cancelled job whose last release was accepted holds money. -/
theorem no_hold_leaks (rt : Runtime) (calls : ℕ → Call) (s : State) (fresh : Fresh s)
    (schedule : List (ℕ × Env)) (inOrder : InOrder (run rt calls s schedule).shared) :
    NoLeak (run rt calls s schedule) := by
  intro id job found _ _ last
  exact (run_inv calls fresh.inv schedule).notFrozen inOrder found last

/-! ### Runs that go wrong -/

namespace Sample

/-- Whole amounts print as the source prints them; the digest tells texts of different lengths
apart, which is all that is hashed here. -/
def rt : Runtime :=
  { sha256Hex := fun text => toString text.utf8ByteSize
    formatFixed10 := fun amount =>
      match amount with
      | .finite q => toString q.floor ++ ".0000000000"
      | _ => "" }

/-- One user with a balance of thirty. -/
def start : State :=
  { billing := { users := fun id => if id = 1 then some { balance := ⟨3000000000⟩ } else none } }

theorem start_fresh : Fresh start := ⟨fun _ => rfl, rfl, rfl, fun _ _ => rfl⟩

/-- A batch of two images with a hold of twelve, from before jobs had price snapshots. -/
def request : SubmitRequest :=
  { userID := 1, apiKeyID := 2, accountID := 3, provider := "gemini", model := "m", itemCount := 2
    estimatedCost := 12, holdAmount := 12, billableUnitPrice := 1, pricingSnapshotVersion := 0
    requestHash := "h" }

/-- The provider succeeds with two images; the price is one. -/
def env : Env :=
  { randomBytes := [0], providerJob := some "p"
    providerStatus := some (some { state := .succeeded }), index := .ok (2, 0), price := some 1 }

def other : Env := { env with randomBytes := [1] }

/-- The price has changed. -/
def repriced : Env := { env with price := some 5 }

def batchID : String := newBatchImageID [0]

/-- Two batches are submitted and the first is indexed; then it is settled six times. -/
def settling : ℕ → Call
  | 0 => .submit request
  | 1 => .submit request
  | 2 => .process batchID
  | _ => .settle batchID

/-- The first settlement captures and cannot mark the job settled; the others find another price
until the retries are exhausted. -/
def settledTwice : List (ℕ × Env) :=
  List.replicate 9 (0, env) ++ List.replicate 9 (1, other) ++ List.replicate 9 (2, env) ++
    [(3, env), (3, env), (3, env), (3, { env with fails := true })] ++
    [4, 5, 6, 7].flatMap (fun me => List.replicate 5 (me, repriced)) ++
    List.replicate 9 (8, repriced)

/-- The settlement without the failures. -/
def settled : List (ℕ × Env) :=
  List.replicate 9 (0, env) ++ List.replicate 9 (2, env) ++ List.replicate 4 (3, env)

/-- A batch is submitted and cancelled. -/
def cancelling : ℕ → Call
  | 0 => .submit request
  | _ => .cancel 1 2 batchID

/-- The cancel comes between the job's insertion and its reserve. -/
def leaking : List (ℕ × Env) :=
  [(0, env)] ++ List.replicate 5 (1, env) ++ List.replicate 5 (0, env)

/-- The cancel comes between the reserve and the upload. -/
def cancelled : List (ℕ × Env) :=
  List.replicate 2 (0, env) ++ List.replicate 5 (1, env) ++ List.replicate 5 (0, env)

end Sample

theorem holds_settled_once_sample :
    SettledOnce Sample.start (run Sample.rt Sample.settling Sample.start Sample.settled).shared ∧
    times (run Sample.rt Sample.settling Sample.start Sample.settled).shared .capture
      Sample.batchID = 1 := by
  have ran : Clean (run Sample.rt Sample.settling Sample.start Sample.settled).shared ∧
      times (run Sample.rt Sample.settling Sample.start Sample.settled).shared .capture
        Sample.batchID = 1 := by decide +kernel
  exact ⟨holds_settled_once Sample.rt Sample.settling Sample.start Sample.start_fresh
    Sample.settled ran.1, ran.2⟩

/-- A captured hold is released as well, out of the frozen money of another batch. -/
theorem hold_settled_twice :
    Fresh Sample.start ∧
    ¬SettledOnce Sample.start
      (run Sample.rt Sample.settling Sample.start Sample.settledTwice).shared := by
  refine ⟨Sample.start_fresh, fun settled => ?_⟩
  have ran :
      times (run Sample.rt Sample.settling Sample.start Sample.settledTwice).shared .capture
        Sample.batchID = 1 ∧
      times (run Sample.rt Sample.settling Sample.start Sample.settledTwice).shared .release
        Sample.batchID = 1 := by decide +kernel
  have once := settled.once Sample.batchID
  omega

theorem no_hold_leaks_sample :
    NoLeak (run Sample.rt Sample.cancelling Sample.start Sample.cancelled) ∧
    times (run Sample.rt Sample.cancelling Sample.start Sample.cancelled).shared .release
      Sample.batchID = 1 := by
  have ran : InOrder (run Sample.rt Sample.cancelling Sample.start Sample.cancelled).shared ∧
      times (run Sample.rt Sample.cancelling Sample.start Sample.cancelled).shared .release
        Sample.batchID = 1 := by decide +kernel
  exact ⟨no_hold_leaks Sample.rt Sample.cancelling Sample.start Sample.start_fresh
    Sample.cancelled ran.1, ran.2⟩

/-- A cancelled job's hold is frozen, although `Submit` is over and the last release was accepted:
the first release came before the reserve and claimed the request, and the second is taken for
its duplicate. -/
theorem leaking_run :
    ((run Sample.rt Sample.cancelling Sample.start Sample.leaking).shared.jobs
      Sample.batchID).map (fun job => (job.status, job.batchID)) =
      some (.cancelled, Sample.batchID) ∧
    (run Sample.rt Sample.cancelling Sample.start Sample.leaking).shared.creator
      Sample.batchID = some 0 ∧
    ((run Sample.rt Sample.cancelling Sample.start Sample.leaking).threads 0).finished = true ∧
    (lastRelease (run Sample.rt Sample.cancelling Sample.start Sample.leaking).shared
      Sample.batchID).map (·.accepted) = some true ∧
    times (run Sample.rt Sample.cancelling Sample.start Sample.leaking).shared .reserve
      Sample.batchID = 1 ∧
    times (run Sample.rt Sample.cancelling Sample.start Sample.leaking).shared .release
      Sample.batchID = 0 := by
  decide +kernel

theorem hold_leaks :
    Fresh Sample.start ∧
    ¬NoLeak (run Sample.rt Sample.cancelling Sample.start Sample.leaking) := by
  refine ⟨Sample.start_fresh, fun noLeak => ?_⟩
  obtain ⟨row, creator, returned, last, reserved, released⟩ := leaking_run
  obtain ⟨job, found, same⟩ := Option.map_eq_some_iff.mp row
  obtain ⟨call, isLast, accepted⟩ := Option.map_eq_some_iff.mp last
  rw [Prod.mk.injEq] at same
  have frozen := noLeak Sample.batchID job found (Or.inr same.1)
    (fun me made => by rw [creator] at made; cases made; exact returned)
    (Or.inr ⟨call, by rw [same.2]; exact isLast, accepted⟩)
  rcases frozen with none | ⟨_, once⟩ <;> omega

end Sub2api.BatchImage
