import Sub2api.Scheduler.Bucket

/-!
# Tokens, versions and the active snapshot

A retirement moves the epoch or finds it moved, so a token given out before it is behind the epoch
from then on, and the scripts turn it away. Between retirements the active version only grows, and
the version a writer is filling is its own until it is activated: that is what makes the active
snapshot complete.
-/

namespace Sub2api.Scheduler.Bucket

open Interleave
open Redis

/-! ### What grows -/

/-- The snapshots that a process is writing. -/
def writtenBy (s : State) (me : ℕ) : ℕ → Option (SortedSet ℤ) := fun version =>
  if s.writing version = some me then some (s.snapshots version) else none

/-- The epoch never falls; a bucket stays as open as it was, its epoch where it was and its active
version no lower, unless it is retired meanwhile. -/
structure Grows (s s' : State) : Prop where
  retirements : s.retirements ≤ s'.retirements
  epoch : s.currentEpoch ≤ s'.currentEpoch
  opened : s.retired = none → s'.retirements = s.retirements → s'.retired = none
  fenced : s.retired = none → s.retirements < s'.retirements → s.currentEpoch < s'.currentEpoch
  active : s'.retirements = s.retirements →
    ∀ v, s.active = some v → ∃ w, s'.active = some w ∧ v ≤ w
  allocations : s.allocations <+: s'.allocations

instance : Preorder State where
  le := Grows
  le_refl s :=
    { retirements := le_rfl
      epoch := le_rfl
      opened := fun retired _ => retired
      fenced := fun _ less => absurd less (lt_irrefl _)
      active := fun _ v isActive => ⟨v, isActive, le_rfl⟩
      allocations := List.prefix_refl _ }
  le_trans s s' s'' first second := by
    have between (same : s''.retirements = s.retirements) :
        s'.retirements = s.retirements ∧ s''.retirements = s'.retirements := by
      have := first.retirements
      have := second.retirements
      omega
    refine ⟨first.retirements.trans second.retirements, first.epoch.trans second.epoch,
      fun retired same => ?_, fun retired less => ?_, fun same v isActive => ?_,
      first.allocations.trans second.allocations⟩
    · exact second.opened (first.opened retired (between same).1) (between same).2
    · rcases Nat.lt_or_ge s.retirements s'.retirements with moved | still
      · exact (first.fenced retired moved).trans_le second.epoch
      · have same : s'.retirements = s.retirements := le_antisymm still first.retirements
        exact first.epoch.trans_lt
          (second.fenced (first.opened retired same) (by rwa [same]))
    · obtain ⟨w, isActive', le⟩ := first.active (between same).1 v isActive
      obtain ⟨x, isActive'', le'⟩ := second.active (between same).2 w isActive'
      exact ⟨x, isActive'', le.trans le'⟩

theorem allocation_mono {s s' : State} (grows : s.allocations <+: s'.allocations) {version : ℕ}
    {a : Allocation} (allocated : s.allocation version = some a) :
    s'.allocation version = some a := by
  cases version with
  | zero => cases allocated
  | succ v =>
      obtain ⟨later, same⟩ := grows
      obtain ⟨inside, _⟩ := List.getElem?_eq_some_iff.mp allocated
      change s'.allocations[v]? = some a
      rw [← same, List.getElem?_append_left inside]
      exact allocated

/-! ### Facts about tokens and versions -/

/-- A token is at the epoch of an open bucket, or behind the epoch when the bucket was retired
since. -/
def Issued (token : WriteToken) : Fact State where
  holds s := token.issued ≤ s.retirements ∧ token.epoch ≤ s.currentEpoch ∧
    (token.issued = s.retirements → s.retired = none) ∧
    (token.issued < s.retirements → token.epoch < s.currentEpoch)
  lasts := by
    rintro s s' grows ⟨before, epoch, opened, fenced⟩
    refine ⟨before.trans grows.retirements, epoch.trans grows.epoch, fun now => ?_, fun less => ?_⟩
    · have still : token.issued = s.retirements := by
        have := grows.retirements
        omega
      exact grows.opened (opened still) (by omega)
    · rcases Nat.lt_or_ge token.issued s.retirements with already | not
      · exact (fenced already).trans_le grows.epoch
      · have still : token.issued = s.retirements := le_antisymm before not
        exact epoch.trans_lt (grows.fenced (opened still) (by omega))

def Allocated (version : ℕ) (a : Allocation) : Fact State where
  holds s := s.allocation version = some a
  lasts _ _ grows allocated := allocation_mono grows.allocations allocated

/-- A script that returns the epoch of an open bucket gives out a token. -/
theorem Issued.new {s s' : State} {epoch : ℤ} (retired : s'.retired = none)
    (same : s'.retirements = s.retirements) (now : s'.currentEpoch = epoch) :
    (Issued { epoch := epoch, issued := s.retirements }).holds s' :=
  ⟨same.ge, now.ge, fun _ => retired, fun less => absurd less (by rw [same]; exact lt_irrefl _)⟩

/-- A token that the scripts let through was given out since the last retirement. -/
theorem Issued.current {token : WriteToken} {s : State} (issued : (Issued token).holds s)
    (same : s.epoch = some token.epoch) : token.issued = s.retirements := by
  obtain ⟨before, _, _, fenced⟩ := issued
  have now : s.currentEpoch = token.epoch := by simp [State.currentEpoch, same]
  rcases Nat.lt_or_ge token.issued s.retirements with less | not
  · exact absurd (fenced less) (by rw [now]; exact lt_irrefl _)
  · exact le_antisymm before not

/-! ### The invariant -/

structure Inv (s : State) : Prop where
  sealed : s.retired.isSome → s.active = none ∧ s.ready = false
  epochs : ∀ e, s.retired = some e → 1 ≤ e ∧ e ≤ s.currentEpoch
  counted : s.allocations.length = s.version
  fresh : ∀ v, s.version < v → s.writing v = none ∧ s.snapshots v = ∅ ∧ s.expiring v = false
  complete : ∀ v, s.active = some v → s.writing v = none ∧ s.expiring v = false ∧
    ∃ a, s.allocation v = some a ∧ s.snapshots v = snapshotOf a.ids
  resting : ∀ v, s.expiring v = true → s.writing v = none
  current : ∀ a ∈ s.activations, a.issued = a.retirements
  ordered : ∀ a ∈ s.activations, (∃ x, s.allocation a.version = some x) ∧
    ∀ u ∈ a.replaced, u ≤ a.version ∧ ∃ x, s.allocation u = some x

/-- A step of a process: the invariant stays, the state grows, and what the others are writing is
as it was. -/
structure Move (me : ℕ) (s s' : State) : Prop where
  inv : Inv s'
  grows : s ≤ s'
  others : ∀ other, other ≠ me → writtenBy s' other = writtenBy s other

theorem expireActive_eq (s : State) :
    ∃ expiring, s.expireActive = { s with expiring := expiring } ∧
      ∀ v, expiring v = true → s.expiring v = true ∨ s.active = some v := by
  unfold State.expireActive
  split
  · next version active =>
    split
    · exact ⟨s.expiring, rfl, fun v already => .inl already⟩
    · refine ⟨_, rfl, fun v marked => ?_⟩
      by_cases here : v = version
      · exact .inr (by rw [here, active])
      · rw [Function.update_of_ne here] at marked
        exact .inl marked
  · exact ⟨s.expiring, rfl, fun v already => .inl already⟩

/-- `unpublish` leaves the epoch, the marker and the history alone. -/
theorem unpublish_kept (s : State) :
    (unpublish s).epoch = s.epoch ∧ (unpublish s).retired = s.retired ∧
      (unpublish s).retirements = s.retirements ∧ (unpublish s).allocations = s.allocations := by
  obtain ⟨expiring, expired, _⟩ := expireActive_eq s
  unfold unpublish
  rw [expired]
  exact ⟨rfl, rfl, rfl, rfl⟩

theorem unpublish_eta (s : State) :
    { unpublish s with retirements := s.retirements } = unpublish s := by
  obtain ⟨expiring, expired, _⟩ := expireActive_eq s
  unfold unpublish
  rw [expired]

/-- A first retirement moves the epoch, and none moves it back. -/
theorem advanceEpoch_epoch (s : State) (epochs : ∀ e, s.retired = some e → 1 ≤ e ∧ e ≤ s.currentEpoch) :
    s.currentEpoch ≤ (advanceEpoch s).currentEpoch ∧
      (s.retired = none → s.currentEpoch < (advanceEpoch s).currentEpoch) := by
  have moved (e : ℤ) : e < max (e + 1) 1 := by omega
  unfold advanceEpoch
  split
  · exact ⟨(moved _).le, fun _ => moved _⟩
  · next retired isRetired =>
    obtain ⟨positive, le⟩ := epochs retired isRetired
    rw [if_neg (by omega)]
    exact ⟨le_rfl, fun isOpen => by rw [isRetired] at isOpen; cases isOpen⟩

theorem allocation_le {s : State} (inv : Inv s) {v : ℕ} {a : Allocation}
    (allocated : s.allocation v = some a) : v ≤ s.version := by
  cases v with
  | zero => exact Nat.zero_le _
  | succ v =>
      have := (List.getElem?_eq_some_iff.mp allocated).1
      have := inv.counted
      omega

section Steps

variable {me : ℕ} {s : State} (inv : Inv s)

include inv

theorem Move.refl : Move me s s := ⟨inv, le_rfl, fun _ _ => rfl⟩

/-- A step that leaves the bucket's keys and history alone. -/
theorem Move.aside {s' : State} (epoch : s'.epoch = s.epoch) (retired : s'.retired = s.retired)
    (version : s'.version = s.version) (active : s'.active = s.active) (ready : s'.ready = s.ready)
    (snapshots : s'.snapshots = s.snapshots) (expiring : s'.expiring = s.expiring)
    (retirements : s'.retirements = s.retirements) (allocations : s'.allocations = s.allocations)
    (writing : s'.writing = s.writing) (activations : s'.activations = s.activations) :
    Move me s s' := by
  have allocation : s'.allocation = s.allocation := by
    funext v
    cases v <;> simp [State.allocation, allocations]
  have current : s'.currentEpoch = s.currentEpoch := by simp [State.currentEpoch, epoch]
  refine ⟨?_, ?_, fun other _ => ?_⟩
  · exact
      { sealed := by rw [retired, active, ready]; exact inv.sealed
        epochs := by rw [retired, current]; exact inv.epochs
        counted := by rw [allocations, version]; exact inv.counted
        fresh := by rw [version, writing, snapshots, expiring]; exact inv.fresh
        complete := by
          rw [active, writing, expiring, snapshots, allocation]
          exact inv.complete
        resting := by rw [expiring, writing]; exact inv.resting
        current := by rw [activations]; exact inv.current
        ordered := by rw [activations, allocation]; exact inv.ordered }
  · exact
      { retirements := retirements.ge
        epoch := current.ge
        opened := fun isNone _ => by rw [retired, isNone]
        fenced := fun _ less => absurd less (by rw [retirements]; exact lt_irrefl _)
        active := fun _ v isActive => ⟨v, by rw [active, isActive], le_rfl⟩
        allocations := by rw [allocations] }
  · funext v
    simp [writtenBy, writing, snapshots]

/-- A first epoch. -/
theorem Move.open (retired : s.retired = none) (absent : s.epoch = none) :
    Move me s { s with epoch := some 1 } := by
  refine ⟨⟨inv.sealed, fun e isRetired => ?_, inv.counted, inv.fresh, inv.complete, inv.resting,
    inv.current, inv.ordered⟩, ?_, fun _ _ => rfl⟩
  · rw [show s.retired = some e from isRetired] at retired
    cases retired
  · exact
      { retirements := le_rfl
        epoch := by simp [State.currentEpoch, absent]
        opened := fun isNone _ => isNone
        fenced := fun _ less => absurd less (lt_irrefl _)
        active := fun _ v isActive => ⟨v, isActive, le_rfl⟩
        allocations := List.prefix_refl _ }

theorem capture_move : Move me s (captureBucketWriteTokenScript s).2 := by
  unfold captureBucketWriteTokenScript
  split
  · exact .refl inv
  · next isOpen =>
    have retired : s.retired = none := by simpa using isOpen
    cases epoch : s.epoch with
    | none => exact .open inv retired epoch
    | some e =>
        dsimp only
        split <;> exact .refl inv

/-- What `DEL` of the version in hand does. -/
theorem del_move {version : ℕ} (mine : s.writing version = some me) :
    Move me s { s.delSnapshot version with
      writing := Function.update s.writing version none } := by
  have apart {v : ℕ} (free : s.writing v = none) : v ≠ version := by
    rintro rfl
    rw [mine] at free
    cases free
  refine ⟨⟨inv.sealed, inv.epochs, inv.counted, fun v beyond => ?_, fun v isActive => ?_,
    fun v marked => ?_, inv.current, inv.ordered⟩, ⟨le_rfl, le_rfl, fun isNone _ => isNone,
    fun _ less => absurd less (lt_irrefl _), fun _ v isActive => ⟨v, isActive, le_rfl⟩,
    List.prefix_refl _⟩, fun other differ => ?_⟩
  · obtain ⟨free, empty, unmarked⟩ := inv.fresh v beyond
    simp [State.delSnapshot, Function.update_of_ne (apart free), free, empty, unmarked]
  · obtain ⟨free, unmarked, a, allocated, whole⟩ := inv.complete v isActive
    refine ⟨?_, ?_, a, allocated, ?_⟩
    · simp [Function.update_of_ne (apart free), free]
    · simp [State.delSnapshot, Function.update_of_ne (apart free), unmarked]
    · simp [State.delSnapshot, Function.update_of_ne (apart free), whole]
  · by_cases here : v = version
    · subst here
      simp
    · have old : s.expiring v = true := by
        simpa [State.delSnapshot, Function.update_of_ne here] using marked
      simpa [Function.update_of_ne here] using inv.resting v old
  · funext v
    by_cases here : v = version
    · subst here
      have notOther : s.writing v ≠ some other := by
        rw [mine]
        exact fun same => differ (Option.some.inj same).symm
      simp [writtenBy, notOther]
    · simp [writtenBy, State.delSnapshot, Function.update_of_ne here]

/-- What `ZADD` to the version in hand does. -/
theorem zAdd_move {version : ℕ} (mine : s.writing version = some me)
    (set : SortedSet ℤ) :
    Move me s { s with snapshots := Function.update s.snapshots version set } := by
  have apart {v : ℕ} (free : s.writing v = none) : v ≠ version := by
    rintro rfl
    rw [mine] at free
    cases free
  refine ⟨⟨inv.sealed, inv.epochs, inv.counted, fun v beyond => ?_, fun v isActive => ?_,
    inv.resting, inv.current, inv.ordered⟩, ⟨le_rfl, le_rfl, fun isNone _ => isNone,
    fun _ less => absurd less (lt_irrefl _), fun _ v isActive => ⟨v, isActive, le_rfl⟩,
    List.prefix_refl _⟩, fun other differ => ?_⟩
  · obtain ⟨free, empty, unmarked⟩ := inv.fresh v beyond
    exact ⟨free, by simp [Function.update_of_ne (apart free), empty], unmarked⟩
  · obtain ⟨free, unmarked, a, allocated, whole⟩ := inv.complete v isActive
    exact ⟨free, unmarked, a, allocated, by simp [Function.update_of_ne (apart free), whole]⟩
  · funext v
    by_cases here : v = version
    · subst here
      have notOther : s.writing v ≠ some other := by
        rw [mine]
        exact fun same => differ (Option.some.inj same).symm
      simp [writtenBy, notOther]
    · simp [writtenBy, Function.update_of_ne here]

/-- Only the active snapshot gets a time to live, and it is the active one no longer. -/
theorem unpublish_move {t : State} (shape : t = { s with epoch := t.epoch, retired := t.retired })
    (epochs : ∀ e, t.retired = some e → 1 ≤ e ∧ e ≤ t.currentEpoch)
    (retirements : ℕ) (grows : s ≤ { unpublish t with retirements := retirements }) :
    Move me s { unpublish t with retirements := retirements } := by
  obtain ⟨expiring, expired, marks⟩ := expireActive_eq t
  have kept : { unpublish t with retirements := retirements } =
      { s with
        epoch := t.epoch, retired := t.retired, registered := false, ready := false, active := none
        expiring := expiring, retirements := retirements } := by
    unfold unpublish
    rw [expired, shape]
  have marked {v : ℕ} (isMarked : expiring v = true) : s.expiring v = true ∨ s.active = some v := by
    rw [shape] at marks
    exact marks v isMarked
  rw [kept] at grows ⊢
  refine ⟨⟨fun _ => ⟨rfl, rfl⟩, epochs, inv.counted, fun v beyond => ?_, fun v isActive => ?_,
    fun v isMarked => ?_, inv.current, inv.ordered⟩, grows, fun _ _ => rfl⟩
  · obtain ⟨free, empty, unmarked⟩ := inv.fresh v beyond
    refine ⟨free, empty, ?_⟩
    by_contra isMarked
    rcases marked (by simpa using isMarked) with old | isActive
    · rw [unmarked] at old
      cases old
    · obtain ⟨_, _, a, allocated, _⟩ := inv.complete v isActive
      exact absurd (allocation_le inv allocated) (not_le.mpr beyond)
  · cases isActive
  · rcases marked isMarked with old | isActive
    · exact inv.resting v old
    · exact (inv.complete v isActive).1

theorem retire_move :
    Move me s { (retireBucketScript s).2 with retirements := s.retirements + 1 } := by
  have epochs : ∀ e, (advanceEpoch s).retired = some e →
      1 ≤ e ∧ e ≤ (advanceEpoch s).currentEpoch := by
    unfold advanceEpoch
    split
    · rintro e ⟨⟩
      simp [State.currentEpoch]
    · next retired isRetired =>
      obtain ⟨positive, le⟩ := inv.epochs retired isRetired
      rw [if_neg (by omega)]
      exact inv.epochs
  have same : advanceEpoch s =
      { s with epoch := (advanceEpoch s).epoch, retired := (advanceEpoch s).retired } := by
    unfold advanceEpoch
    split
    · rfl
    · split <;> rfl
  obtain ⟨epoch, _, _, allocations⟩ := unpublish_kept (advanceEpoch s)
  obtain ⟨le, less⟩ := advanceEpoch_epoch s inv.epochs
  have current : ({ unpublish (advanceEpoch s) with retirements := s.retirements + 1 } :
      State).currentEpoch = (advanceEpoch s).currentEpoch := by
    simp [State.currentEpoch, epoch]
  apply unpublish_move inv same epochs
  refine ⟨Nat.le_succ _, by rwa [current], fun _ still => ?_, fun isOpen _ => ?_, fun still => ?_, ?_⟩
  · exact absurd still (Nat.succ_ne_self _)
  · rw [current]
    exact less isOpen
  · exact absurd still (Nat.succ_ne_self _)
  · change s.allocations <+: (unpublish (advanceEpoch s)).allocations
    rw [allocations, same]

theorem reopened_move {retired epoch : ℤ} (isRetired : s.retired = some retired)
    (above : s.currentEpoch ≤ epoch) :
    Move me s (unpublish { s with epoch := some epoch, retired := none }) := by
  obtain ⟨sameEpoch, _, _, allocations⟩ :=
    unpublish_kept { s with epoch := some epoch, retired := none }
  rw [← unpublish_eta]
  apply unpublish_move inv rfl (by rintro e ⟨⟩)
  refine ⟨le_rfl, ?_, fun isOpen _ => ?_, fun _ less => ?_, fun _ v isActive => ?_, ?_⟩
  · refine above.trans (le_of_eq ?_)
    simp [State.currentEpoch, sameEpoch]
  · rw [isRetired] at isOpen
    cases isOpen
  · exact absurd less (lt_irrefl _)
  · rw [(inv.sealed (by rw [isRetired]; rfl)).1] at isActive
    cases isActive
  · change s.allocations <+: (unpublish { s with epoch := some epoch, retired := none }).allocations
    rw [allocations]

theorem reopen_move : Move me s (reopenBucketScript s).2 := by
  unfold reopenBucketScript
  split
  · next retired =>
    split
    · next absent => exact .open inv retired absent
    · split <;> exact .refl inv
  · next retired isRetired =>
    split
    · exact .refl inv
    · obtain ⟨positive, le⟩ := inv.epochs retired isRetired
      apply reopened_move inv isRetired
      unfold State.currentEpoch at le ⊢
      cases epoch : s.epoch with
      | none =>
          rw [epoch] at le
          exact le_trans (by simp) positive
      | some e => exact le_max_left e retired

/-- A version is new, and its writer's own. -/
theorem allocate_move (a : Allocation) :
    Move me s { s with
      version := s.version + 1
      allocations := s.allocations ++ [a]
      writing := Function.update s.writing (s.version + 1) (some me) } := by
  have kept {v : ℕ} {x : Allocation} (allocated : s.allocation v = some x) :
      v ≠ s.version + 1 ∧ ({ s with
        version := s.version + 1
        allocations := s.allocations ++ [a]
        writing := Function.update s.writing (s.version + 1) (some me) } : State).allocation v =
          some x := by
    have := allocation_le inv allocated
    exact ⟨by omega, allocation_mono (List.prefix_append _ _) allocated⟩
  have free := inv.fresh (s.version + 1) (Nat.lt_succ_self _)
  refine ⟨⟨inv.sealed, inv.epochs, ?_, fun v beyond => ?_, fun v isActive => ?_,
    fun v marked => ?_, inv.current, fun b member => ?_⟩, ⟨le_rfl, le_rfl, fun isNone _ => isNone,
    fun _ less => absurd less (lt_irrefl _), fun _ v isActive => ⟨v, isActive, le_rfl⟩,
    List.prefix_append _ _⟩, fun other differ => ?_⟩
  · simp [inv.counted]
  · have beyond : s.version + 1 < v := beyond
    obtain ⟨free, empty, unmarked⟩ := inv.fresh v (by omega)
    exact ⟨by simp [Function.update_of_ne (show v ≠ s.version + 1 by omega), free], empty, unmarked⟩
  · obtain ⟨free, unmarked, x, allocated, whole⟩ := inv.complete v isActive
    obtain ⟨apart, kept⟩ := kept allocated
    exact ⟨by simp [Function.update_of_ne apart, free], unmarked, x, kept, whole⟩
  · have apart : v ≠ s.version + 1 := by
      rintro rfl
      rw [free.2.2] at marked
      cases marked
    simpa [Function.update_of_ne apart] using inv.resting v marked
  · obtain ⟨⟨x, allocated⟩, before⟩ := inv.ordered b member
    refine ⟨⟨x, (kept allocated).2⟩, fun u replaced => ?_⟩
    obtain ⟨le, y, old⟩ := before u replaced
    exact ⟨le, y, (kept old).2⟩
  · funext v
    by_cases here : v = s.version + 1
    · subst here
      have notOther : ¬me = other := fun same => differ same.symm
      simp [writtenBy, notOther, free.1]
    · simp [writtenBy, Function.update_of_ne here]

/-- A complete version that is no older than the active one takes its place. -/
theorem activate_move {version : ℕ} {a : Allocation} {issued : ℕ}
    (mine : s.writing version = some me) (retired : s.retired = none)
    (newer : ∀ current, s.active = some current → current ≤ version)
    (allocated : s.allocation version = some a) (whole : s.snapshots version = snapshotOf a.ids)
    (now : issued = s.retirements) :
    Move me s { s.expireActive with
      active := some version, ready := true, registered := true
      writing := Function.update s.writing version none
      activations := s.activations ++
        [{ version := version, replaced := s.active, issued := issued
           retirements := s.retirements }] } := by
  obtain ⟨expiring, expired, marks⟩ := expireActive_eq s
  rw [expired]
  have apart {v : ℕ} (free : s.writing v = none) : v ≠ version := by
    rintro rfl
    rw [mine] at free
    cases free
  have unmarked : expiring version = false := by
    by_contra isMarked
    have free : s.writing version = none := by
      rcases marks version (by simpa using isMarked) with old | isActive
      · exact inv.resting version old
      · exact (inv.complete version isActive).1
    exact apart free rfl
  refine ⟨⟨fun isRetired => ?_, inv.epochs, inv.counted, fun v beyond => ?_, fun v isActive => ?_,
    fun v marked => ?_, fun b member => ?_, fun b member => ?_⟩, ⟨le_rfl, le_rfl,
    fun isNone _ => isNone, fun _ less => absurd less (lt_irrefl _), fun _ v isActive => ?_,
    List.prefix_refl _⟩, fun other differ => ?_⟩
  · have isRetired : s.retired.isSome := isRetired
    rw [retired] at isRetired
    cases isRetired
  · obtain ⟨free, empty, resting⟩ := inv.fresh v beyond
    refine ⟨by simp [Function.update_of_ne (apart free), free], empty, ?_⟩
    by_contra isMarked
    rcases marks v (by simpa using isMarked) with old | isActive
    · rw [resting] at old
      cases old
    · obtain ⟨_, _, x, old, _⟩ := inv.complete v isActive
      exact absurd (allocation_le inv old) (not_le.mpr beyond)
  · cases isActive
    exact ⟨by simp, unmarked, a, allocated, whole⟩
  · have marked : expiring v = true := marked
    by_cases here : v = version
    · rw [here, unmarked] at marked
      cases marked
    · change Function.update s.writing version none v = none
      rw [Function.update_of_ne here]
      rcases marks v marked with old | isActive
      · exact inv.resting v old
      · exact (inv.complete v isActive).1
  · rcases List.mem_append.mp member with old | new
    · exact inv.current b old
    · rw [List.mem_singleton.mp new]
      exact now
  · rcases List.mem_append.mp member with old | new
    · exact inv.ordered b old
    · rw [List.mem_singleton.mp new]
      refine ⟨⟨a, allocated⟩, fun u replaced => ⟨newer u replaced, ?_⟩⟩
      obtain ⟨_, _, x, old, _⟩ := inv.complete u replaced
      exact ⟨x, old⟩
  · exact ⟨version, rfl, newer v isActive⟩
  · funext v
    by_cases here : v = version
    · subst here
      have notOther : s.writing v ≠ some other := by
        rw [mine]
        exact fun same => differ (Option.some.inj same).symm
      simp [writtenBy, notOther]
    · simp [writtenBy, Function.update_of_ne here]

/-- The end of a time to live takes away a snapshot that is neither active nor being written. -/
theorem expire_move (version : ℕ) : Move me s (expireSnapshot version s) := by
  unfold expireSnapshot
  split
  · next marked =>
    have resting := inv.resting version marked
    refine ⟨⟨inv.sealed, inv.epochs, inv.counted, fun v beyond => ?_, fun v isActive => ?_,
      fun v isMarked => ?_, inv.current, inv.ordered⟩, ⟨le_rfl, le_rfl, fun isNone _ => isNone,
      fun _ less => absurd less (lt_irrefl _), fun _ v isActive => ⟨v, isActive, le_rfl⟩,
      List.prefix_refl _⟩, fun other _ => ?_⟩
    · obtain ⟨free, empty, unmarked⟩ := inv.fresh v beyond
      refine ⟨free, ?_⟩
      by_cases here : v = version
      · simp [State.delSnapshot, here]
      · simp [State.delSnapshot, Function.update_of_ne here, empty, unmarked]
    · obtain ⟨free, unmarked, a, allocated, whole⟩ := inv.complete v isActive
      have apart : v ≠ version := by
        rintro rfl
        rw [unmarked] at marked
        cases marked
      refine ⟨free, ?_, a, allocated, ?_⟩
      · simp [State.delSnapshot, Function.update_of_ne apart, unmarked]
      · simp [State.delSnapshot, Function.update_of_ne apart, whole]
    · by_cases here : v = version
      · rw [here]
        exact resting
      · refine inv.resting v ?_
        simpa [State.delSnapshot, Function.update_of_ne here] using isMarked
    · funext v
      by_cases here : v = version
      · subst here
        simp [writtenBy, State.delSnapshot, resting]
      · simp [writtenBy, State.delSnapshot, Function.update_of_ne here]
  · exact .refl inv

end Steps

/-! ### What the calls keep -/

section Calls

variable {cfg : Config} {me : ℕ}

/-- Nothing in particular. -/
def anything (me : ℕ) : Assertion writtenBy me := .owning (fun _ => True) Fact.none

/-- A fact, whatever the process is writing. -/
def holding (me : ℕ) (F : Fact State) : Assertion writtenBy me := .owning (fun _ => True) F

/-- The process has a version in hand, and what is in it so far. -/
def filling (me : ℕ) (version : ℕ) (a : Allocation) (token : WriteToken)
    (filled : SortedSet ℤ → Prop) : Assertion writtenBy me :=
  .owning (fun own => ∃ set, own version = some set ∧ filled set)
    ((Allocated version a).and (Issued token))

theorem filling_mine {version : ℕ} {a : Allocation} {token : WriteToken}
    {filled : SortedSet ℤ → Prop} {s : State}
    (holds : (filling me version a token filled).holds s) :
    s.writing version = some me ∧ filled (s.snapshots version) := by
  obtain ⟨set, own, isFilled⟩ := holds.1
  unfold writtenBy at own
  split at own
  · next mine =>
    rw [Option.some.inj own]
    exact ⟨mine, isFilled⟩
  · cases own

variable {K : Assertion writtenBy me}

/-- The rule of a command: what holds when it was not done, and when it was. -/
theorem script_owns {β : Type} {f : State → β × State} {M : Option β → Assertion writtenBy me}
    (fails : ∀ s, K.holds s → (M none).holds s)
    (acts : ∀ s, Inv s → K.holds s → Move me s (f s).2 ∧ (M (some (f s).1)).holds (f s).2 ∧
      (M none).holds (f s).2)
    : Owns Inv writtenBy me K (script f) M := by
  refine Owns.act fun env s inv holds => ?_
  obtain ⟨move, done, lost⟩ := acts s inv holds
  cases env.outcome with
  | done => exact ⟨move.inv, move.grows, move.others, done⟩
  | failed => exact ⟨inv, le_rfl, fun _ _ => rfl, fails s holds⟩
  | lost => exact ⟨move.inv, move.grows, move.others, lost⟩

/-- A command that keeps the invariant and tells nothing. -/
theorem script_any {β : Type} {f : State → β × State} (acts : ∀ s, Inv s → Move me s (f s).2) :
    Owns Inv writtenBy me K (script f) fun _ => anything me :=
  script_owns (fun _ _ => ⟨trivial, trivial⟩) fun s inv _ =>
    ⟨acts s inv, ⟨trivial, trivial⟩, trivial, trivial⟩

theorem weaken {α : Type} {prog : Op α}
    (owns : Owns Inv writtenBy me (anything me) prog fun _ => anything me) :
    Owns Inv writtenBy me K prog fun _ => anything me :=
  owns.mono (fun _ _ => ⟨trivial, trivial⟩) fun _ _ post => post

theorem done {α : Type} {a : α} :
    Owns Inv writtenBy me K (pure a : Op α) fun _ => anything me :=
  .ret fun _ _ => ⟨trivial, trivial⟩

/-- What a token's call tells: a token that it returned is the bucket's. -/
def tokenFact : Except Failure WriteToken → Fact State
  | .ok token => Issued token
  | .error _ => Fact.none

theorem issue_owns {f : State → Except Failure ℤ × State} (moves : ∀ s, Inv s → Move me s (f s).2)
    (tells : ∀ s, Inv s → ∀ epoch, (f s).1 = .ok epoch → (f s).2.retired = none ∧
      (f s).2.retirements = s.retirements ∧ (f s).2.currentEpoch = epoch) :
    Owns Inv writtenBy me (anything me)
      (do
        let result ← script (issue f)
        pure (answered result)) fun token => holding me (tokenFact token) := by
  refine Owns.bind (M := fun result => holding me (tokenFact (answered result)))
    (script_owns (fun _ _ => ⟨trivial, trivial⟩) fun s inv _ =>
      ⟨moves s inv, ⟨trivial, ?_⟩, trivial, trivial⟩) fun result => .ret fun _ holds => holds
  cases answer : (f s).1 with
  | error failure => simp [answered, issue, answer, Except.map, tokenFact, Fact.none]
  | ok epoch =>
      obtain ⟨retired, same, now⟩ := tells s inv epoch answer
      simp only [answered, issue, answer, Except.map, tokenFact]
      exact Issued.new retired same now

theorem captureBucketWriteToken_owns :
    Owns Inv writtenBy me (anything me) captureBucketWriteToken
      fun token => holding me (tokenFact token) := by
  refine issue_owns (fun s inv => capture_move inv) fun s _ epoch answer => ?_
  unfold captureBucketWriteTokenScript at answer ⊢
  by_cases isRetired : s.retired.isSome
  · simp [isRetired] at answer
  · rw [if_neg isRetired] at answer ⊢
    have retired : s.retired = none := by simpa using isRetired
    cases present : s.epoch with
    | none =>
        simp only [present] at answer
        cases answer
        exact ⟨retired, rfl, rfl⟩
    | some e =>
        simp only [present] at answer ⊢
        by_cases low : e < 1
        · simp [low] at answer
        · rw [if_neg low] at answer ⊢
          cases answer
          exact ⟨retired, rfl, by simp [State.currentEpoch, present]⟩

theorem reopenBucket_owns :
    Owns Inv writtenBy me (anything me) reopenBucket
      fun token => holding me (tokenFact token) := by
  refine issue_owns (fun s inv => reopen_move inv) fun s _ epoch answer => ?_
  unfold reopenBucketScript at answer ⊢
  cases isRetired : s.retired with
  | none =>
      simp only [isRetired] at answer ⊢
      cases present : s.epoch with
      | none =>
          simp only [present] at answer ⊢
          cases answer
          exact ⟨trivial, trivial, rfl⟩
      | some e =>
          simp only [present] at answer ⊢
          by_cases low : e < 1
          · simp [low] at answer
          · rw [if_neg low] at answer ⊢
            cases answer
            exact ⟨isRetired, rfl, by simp [State.currentEpoch, present]⟩
  | some retired =>
      simp only [isRetired] at answer ⊢
      by_cases low : retired < 1
      · simp [low] at answer
      · rw [if_neg low] at answer ⊢
        cases answer
        refine ⟨(unpublish_kept _).2.1, (unpublish_kept _).2.2.1, ?_⟩
        exact congrArg (Option.getD · 0) (unpublish_kept _).1

theorem retireBucket_owns :
    Owns Inv writtenBy me (anything me) retireBucket fun _ => anything me := by
  refine Owns.bind (script_any fun s inv => retire_move inv) fun result => ?_
  cases result with
  | none => exact done
  | some epoch => exact done

theorem allocateSnapshotVersion_owns {token : WriteToken} {a : Allocation} :
    Owns Inv writtenBy me (holding me (Issued token)) (allocateSnapshotVersion me token a)
      fun
        | .ok version => filling me version a token (· = ∅)
        | .error _ => anything me := by
  refine Owns.bind (M := fun result => match answered result with
    | .ok version => filling me version a token (· = ∅)
    | .error _ => anything me) (script_owns (fun _ _ => ⟨trivial, trivial⟩) fun s inv holds => ?_)
    fun result => .ret fun _ holds => holds
  unfold allocateSnapshotVersionScript
  by_cases isRetired : s.retired.isSome
  · rw [if_pos isRetired]
    exact ⟨.refl inv, ⟨trivial, trivial⟩, trivial, trivial⟩
  · rw [if_neg isRetired]
    by_cases fenced : s.epoch ≠ some token.epoch
    · rw [if_pos fenced]
      exact ⟨.refl inv, ⟨trivial, trivial⟩, trivial, trivial⟩
    · rw [if_neg fenced]
      have moved : Move me s _ := allocate_move inv a
      refine ⟨moved, ⟨⟨∅, ?_, rfl⟩, ?_, (Issued token).lasts _ _ moved.grows holds.2⟩, trivial,
        trivial⟩
      · simp [writtenBy, (inv.fresh (s.version + 1) (Nat.lt_succ_self _)).2.1]
      · simp [Allocated, State.allocation, ← inv.counted]

variable {version : ℕ} {a : Allocation} {token : WriteToken}

/-- A `ZADD` to the version in hand. -/
theorem zAdd_fills {filled : SortedSet ℤ → Prop} {s : State} (inv : Inv s)
    (holds : (filling me version a token filled).holds s) (piece : List (ℤ × ℤ)) :
    let s' : State := { s with
      snapshots := Function.update s.snapshots version (addMembers (s.snapshots version) piece) }
    Move me s s' ∧ (filling me version a token fun set =>
      ∃ before, filled before ∧ set = addMembers before piece).holds s' := by
  obtain ⟨mine, isFilled⟩ := filling_mine holds
  have moved := zAdd_move inv mine (addMembers (s.snapshots version) piece)
  refine ⟨moved, ⟨_, ?_, s.snapshots version, isFilled, rfl⟩, holds.2.1, holds.2.2⟩
  simp [writtenBy, mine]

theorem filling_mono {filled filled' : SortedSet ℤ → Prop} (weaker : ∀ set, filled set → filled' set)
    {s : State} (holds : (filling me version a token filled).holds s) :
    (filling me version a token filled').holds s := by
  obtain ⟨⟨set, own, isFilled⟩, facts⟩ := holds
  exact ⟨⟨set, own, weaker set isFilled⟩, facts⟩

/-- The version stays in hand while it is written. -/
theorem zAddAll_any (rest : List (List (ℤ × ℤ))) :
    Owns Inv writtenBy me (filling me version a token fun _ => True) (zAddAll version rest)
      fun _ => filling me version a token fun _ => True := by
  induction rest with
  | nil => exact .ret fun _ holds => holds
  | cons piece rest ih =>
      refine Owns.bind (M := fun _ => filling me version a token fun _ => True)
        (script_owns (fun _ holds => holds) fun s inv holds => ?_) fun added => ?_
      · obtain ⟨moved, filled⟩ := zAdd_fills inv holds piece
        have filled := filling_mono (fun _ _ => trivial) filled
        exact ⟨moved, filled, filled⟩
      · exact Owns.bind ih fun others => .ret fun _ holds => holds

/-- A pipeline that went through has added every piece. -/
theorem zAddAll_owns (rest : List (List (ℤ × ℤ))) (set : SortedSet ℤ) :
    Owns Inv writtenBy me (filling me version a token (· = set)) (zAddAll version rest)
      fun written => filling me version a token fun after =>
        written = true → after = addMembers set rest.flatten := by
  induction rest generalizing set with
  | nil => exact .ret fun _ holds => filling_mono (fun _ same _ => same) holds
  | cons piece rest ih =>
      refine Owns.bind (M := fun added => filling me version a token fun after =>
          added.isSome → after = addMembers set piece)
        (script_owns (fun _ holds => filling_mono (fun _ _ impossible => by cases impossible) holds)
          fun s inv holds => ?_) fun added => ?_
      · obtain ⟨moved, filled⟩ := zAdd_fills inv holds piece
        have filled : ∀ added : Option Unit, (filling me version a token fun after =>
            added.isSome → after = addMembers set piece).holds _ := fun added =>
          filling_mono (fun after before _ => by
            obtain ⟨before, rfl, same⟩ := before
            exact same) filled
        exact ⟨moved, filled _, filled _⟩
      · cases added with
        | none =>
            refine Owns.bind ((zAddAll_any rest).mono
              (fun _ holds => filling_mono (fun _ _ => trivial) holds) fun _ _ post => post)
              fun others => .ret fun _ holds => filling_mono (fun _ _ impossible => ?_) holds
            simp at impossible
        | some _ =>
            refine Owns.bind ((ih (addMembers set piece)).mono
              (fun _ holds => filling_mono (fun _ same => same rfl) holds) fun _ _ post => post)
              fun others => .ret fun _ holds => filling_mono (fun after whole went => ?_) holds
            have went : others = true := by simpa using went
            rw [whole went, List.flatten_cons, addMembers, addMembers, addMembers, List.foldl_append]

theorem flatten_pieces {α : Type} {size : ℕ} (positive : 0 < size) (fuel : ℕ) (members : List α)
    (enough : members.length ≤ fuel) : (pieces size fuel members).flatten = members := by
  induction fuel generalizing members with
  | zero => simp [pieces, List.length_eq_zero_iff.mp (Nat.le_zero.mp enough)]
  | succ fuel ih =>
      unfold pieces
      split
      · next empty => simp [empty]
      · next some' =>
        have shorter : 0 < members.length := List.length_pos_iff.mpr some'
        rw [List.flatten_cons, ih _ (by rw [List.length_drop]; omega), List.take_append_drop]

theorem writeSnapshotAccountIDs_owns :
    Owns Inv writtenBy me (filling me version a token (· = ∅))
      (writeSnapshotAccountIDs cfg version a.ids) fun written =>
        filling me version a token fun after => written = true → after = snapshotOf a.ids := by
  have whole : Owns Inv writtenBy me (filling me version a token (· = ∅))
      (writeSnapshotAccountIDs cfg version a.ids) _ :=
    zAddAll_owns (pieces cfg.writeChunkSize (schedulerSnapshotMembers a.ids).length
      (schedulerSnapshotMembers a.ids)) ∅
  rwa [flatten_pieces cfg.positive _ _ le_rfl] at whole

theorem activateSnapshotVersion_owns :
    Owns Inv writtenBy me (filling me version a token (· = snapshotOf a.ids))
      (activateSnapshotVersion token version) fun _ => anything me := by
  refine Owns.bind (M := fun _ => anything me) (script_owns (fun _ _ => ⟨trivial, trivial⟩)
    fun s inv holds => ⟨?_, ⟨trivial, trivial⟩, trivial, trivial⟩) fun result => done
  obtain ⟨mine, whole⟩ := filling_mine holds
  unfold activateSnapshotScript
  by_cases isRetired : s.retired.isSome
  · rw [if_pos isRetired]
    exact del_move inv mine
  · rw [if_neg isRetired]
    by_cases fenced : s.epoch ≠ some token.epoch
    · rw [if_pos fenced]
      exact del_move inv mine
    · rw [if_neg fenced]
      by_cases older : ∃ current ∈ s.active, version < current
      · rw [if_pos older]
        exact del_move inv mine
      · rw [if_neg older]
        have apart : s.active ≠ some version := by
          intro isActive
          rw [(inv.complete version isActive).1] at mine
          cases mine
        rw [if_neg apart]
        refine activate_move inv mine (by simpa using isRetired) (fun current isActive => ?_)
          holds.2.1 whole (Issued.current holds.2.2 (not_not.mp fenced))
        by_contra newer
        exact older ⟨current, isActive, not_le.mp newer⟩

theorem finishSnapshot_owns :
    Owns Inv writtenBy me (filling me version a token (· = ∅))
      (finishSnapshot cfg token version a.ids) fun _ => anything me := by
  refine Owns.bind writeSnapshotAccountIDs_owns fun written => ?_
  cases written with
  | false => exact done
  | true =>
      exact activateSnapshotVersion_owns.mono
        (fun _ holds => filling_mono (fun _ whole => whole rfl) holds) fun _ _ post => post

/-- A command that changes nothing keeps what is known. -/
theorem read_owns {β : Type} {f : State → β} :
    Owns Inv writtenBy me K (script fun s => (f s, s)) fun _ => K :=
  script_owns (fun _ holds => holds) fun _ inv holds => ⟨.refl inv, holds, holds⟩

theorem writeAccountIDs_owns {view : View} :
    Owns Inv writtenBy me K (writeAccountIDs view) fun ids =>
      ⟨fun s => K.holds s ∧ ∀ out, ids = some out → out = view.ids,
        fun s s' grows same holds => ⟨K.lasts s s' grows same holds.1, holds.2⟩⟩ := by
  refine script_owns (fun _ holds => ⟨holds, fun _ impossible => by cases impossible⟩)
    fun s inv holds => ⟨.refl inv, ⟨holds, ?_⟩, holds, fun _ impossible => by cases impossible⟩
  rintro out ⟨⟩
  rfl

theorem setSnapshot_owns {view : View} :
    Owns Inv writtenBy me (holding me (Issued token)) (setSnapshot cfg me token view)
      fun _ => anything me := by
  unfold setSnapshot
  split
  · exact done
  · refine Owns.bind allocateSnapshotVersion_owns fun allocated => ?_
    cases allocated with
    | error failure => exact done
    | ok version =>
        refine Owns.bind writeAccountIDs_owns fun ids => ?_
        cases ids with
        | none => exact done
        | some ids =>
            refine Owns.given (p := ids = view.ids) (fun _ holds => holds.2 ids rfl) fun same => ?_
            rw [same]
            exact (finishSnapshot_owns (a := { commits := view.commits, ids := view.ids })).mono
              (fun _ holds => holds.1) fun _ _ post => post

theorem setSnapshotByAccountIDs_owns {view : View} :
    Owns Inv writtenBy me (holding me (Issued token)) (setSnapshotByAccountIDs cfg me token view)
      fun _ => anything me := by
  unfold setSnapshotByAccountIDs
  split
  · exact done
  · refine Owns.bind allocateSnapshotVersion_owns fun allocated => ?_
    cases allocated with
    | error failure => exact done
    | ok version =>
        exact finishSnapshot_owns (a := { commits := view.commits, ids := view.ids })

/-- A step that leaves the bucket's keys and history alone keeps what is known. -/
theorem tryLockBucket_owns :
    Owns Inv writtenBy me (holding me (Issued token)) tryLockBucket
      fun _ => holding me (Issued token) := by
  refine Owns.act fun env s inv holds => ?_
  have locked : Move me s { s with locked := true } :=
    Move.aside inv rfl rfl rfl rfl rfl rfl rfl rfl rfl rfl rfl
  cases env.outcome with
  | done => exact ⟨locked.inv, locked.grows, locked.others, holds⟩
  | failed => exact ⟨inv, le_rfl, fun _ _ => rfl, holds⟩
  | lost => exact ⟨locked.inv, locked.grows, locked.others, holds⟩

theorem unlockBucket_owns : Owns Inv writtenBy me (anything me) unlockBucket fun _ => anything me :=
  Owns.bind (script_any fun _ inv => Move.aside inv rfl rfl rfl rfl rfl rfl rfl rfl rfl rfl rfl)
    fun _ => done

theorem ask_owns {β : Type} {answer : Env → β} :
    Owns Inv writtenBy me K (Prog.ask answer) fun _ => K := Owns.ask

theorem rebuildTask_owns {strict : Bool} :
    Owns Inv writtenBy me (holding me (Issued token)) (rebuildTask cfg me token strict)
      fun _ => anything me := by
  have publish (view : View) (byIDs : Bool) : Owns Inv writtenBy me (holding me (Issued token))
      (do
        let result ← setRebuildSnapshot cfg me token view byIDs
        unlockBucket
        pure (rebuildResult strict result)) fun _ => anything me := by
    refine Owns.bind (M := fun _ => anything me) ?_ fun result =>
      Owns.bind unlockBucket_owns fun _ => done
    cases byIDs with
    | true => exact setSnapshotByAccountIDs_owns
    | false => exact setSnapshot_owns
  refine Owns.bind ask_owns fun queried => Owns.bind ask_owns fun published =>
    Owns.bind (M := fun _ => holding me (Issued token)) ?_ fun view => ?_
  · cases queried with
    | true => exact read_owns
    | false => exact .ret fun _ holds => holds
  · refine Owns.bind tryLockBucket_owns fun locked => ?_
    rcases locked with _ | locked
    · exact done
    · cases locked with
      | false => exact done
      | true =>
          refine Owns.bind (M := fun _ => holding me (Issued token)) ?_ fun loaded => ?_
          · cases view with
            | some view => exact .ret fun _ holds => holds
            | none => exact read_owns
          · cases loaded with
            | some loaded => exact publish loaded _
            | none =>
                exact Owns.bind (weaken unlockBucket_owns) fun _ => done

theorem call_owns (call : Call) :
    Owns Inv writtenBy me (anything me) (call.program cfg me) fun _ => anything me := by
  cases call with
  | listSchedulableAccounts =>
      refine Owns.bind ask_owns fun hit => ?_
      cases hit with
      | true => exact done
      | false =>
          refine Owns.bind captureBucketWriteToken_owns fun token =>
            Owns.bind read_owns fun view => ?_
          cases token with
          | error failure => exact done
          | ok token =>
              cases view with
              | none => exact done
              | some view => exact Owns.bind setSnapshot_owns fun _ => done
  | rebuildBuckets =>
      refine Owns.bind (M := fun _ => anything me)
        (Owns.bind captureBucketWriteToken_owns fun token => ?_) fun _ => done
      cases token with
      | error failure => exact done
      | ok token => exact rebuildTask_owns
  | reconcileGroupLifecycle active =>
      refine Owns.bind (M := fun _ => anything me) ?_ fun _ => done
      cases active with
      | false => exact retireBucket_owns
      | true =>
          refine Owns.bind reopenBucket_owns fun token => ?_
          cases token with
          | error failure => exact done
          | ok token => exact rebuildTask_owns
  | commit accounts =>
      refine Owns.act fun env s inv _ => ?_
      have moved : Move me s { s with accounts := accounts, commits := s.commits + 1 } :=
        Move.aside inv rfl rfl rfl rfl rfl rfl rfl rfl rfl rfl rfl
      exact ⟨moved.inv, moved.grows, moved.others, trivial, trivial⟩
  | expire version =>
      refine Owns.act fun env s inv _ => ?_
      have moved : Move me s (expireSnapshot version s) := expire_move inv version
      exact ⟨moved.inv, moved.grows, moved.others, trivial, trivial⟩

theorem program_owns (calls : List Call) :
    Owns Inv writtenBy me (anything me) (program cfg me calls) fun _ => anything me := by
  induction calls with
  | nil => exact done
  | cons call rest ih => exact Owns.bind (call_owns call) fun _ => ih

end Calls

/-! ### Every run -/

theorem Inv.initial : Inv {} where
  sealed := by simp
  epochs := by simp
  counted := rfl
  fresh _ _ := ⟨rfl, rfl, rfl⟩
  complete := by simp
  resting := by simp
  current := by simp
  ordered := by simp

/-- Over any run the invariant holds, and from any point of it on the state grows. -/
theorem run_keeps (cfg : Config) (calls : ℕ → List Call) (first later : List (ℕ × Env)) :
    Inv (run cfg calls (first ++ later)).shared ∧
      (run cfg calls first).shared ≤ (run cfg calls (first ++ later)).shared :=
  Owns.run_append (c := { shared := {}, threads := fun me => program cfg me (calls me) })
    (K := fun me => anything me) Inv.initial (fun _ => ⟨trivial, trivial⟩)
    (fun me => program_owns (calls me)) first later

/-- **The bucket's fence.** After any schedule of any calls: a retired bucket has no active version
and is not ready; every activation was by a token given out after the last retirement; without a
retirement in between the active version only grows; and the active snapshot has all the members
that its version was allocated for, and no time to live. -/
theorem bucket_fenced (cfg : Config) (calls : ℕ → List Call) (first later : List (ℕ × Env)) :
    let before := (run cfg calls first).shared
    let s := (run cfg calls (first ++ later)).shared
    (s.retired.isSome → s.active = none ∧ s.ready = false) ∧
      (∀ a ∈ s.activations, a.issued = a.retirements) ∧
      (s.retirements = before.retirements →
        ∀ v, before.active = some v → ∃ w, s.active = some w ∧ v ≤ w) ∧
      ∀ v, s.active = some v → ∃ a, s.allocation v = some a ∧ s.snapshots v = snapshotOf a.ids ∧
        s.expiring v = false := by
  intro before s
  obtain ⟨inv, grows⟩ := run_keeps cfg calls first later
  refine ⟨inv.sealed, inv.current, grows.active, fun v isActive => ?_⟩
  obtain ⟨_, unmarked, a, allocated, whole⟩ := inv.complete v isActive
  exact ⟨a, allocated, whole, unmarked⟩

end Sub2api.Scheduler.Bucket
