import Sub2api.BatchImage.Queue

/-!
# The batch-image queue loses no job

What the invariant says of an id, it says of its `View`: how often it is in the ready list,
whether it is in the two sets, whether it has an in-flight key, and who alive holds it. While
neither a race with the recovery nor a second enqueueing has touched the id, it is in one place
at most, and whoever holds it alone has it in the active set.

* `Quiet` — the steps that take no id out of the queue and nobody's hold;
* `requeueAfter_owns`, `ack_owns` — the steps of the worker that holds the id;
* `queue_loses_no_job` — over every run;
* `queue_doubles_a_job` — an id that is enqueued again after its in-flight key has expired.
-/

namespace Sub2api.BatchImage.Queue

open Interleave
open Redis

/-! ### The invariant -/

/-- What the queue knows of one id. -/
structure View where
  ready : ℕ
  delayed : Bool
  active : Bool
  key : Bool
  /-- The parties alive that hold the id. -/
  holders : Set ℕ
  calm : Prop

def View.places (v : View) : ℕ := v.ready + v.delayed.toNat + v.active.toNat

/-- The recovery has not taken the id from a worker alive, and nobody has enqueued it again after
its in-flight key had expired. -/
def State.Calm (s : State) (id : String) : Prop := id ∉ s.raced ∧ id ∉ s.requeued

def State.view (s : State) (id : String) : View where
  ready := s.ready.count id
  delayed := s.delayed.contains id
  active := s.active.contains id
  key := (s.inflight id).isSome
  holders := {w | (w, id) ∈ s.held ∧ w ∉ s.crashed}
  calm := s.Calm id

structure Kept (id : String) (v : View) : Prop where
  valid : 0 < v.places → isValidBatchImageID id = true
  queued : v.key = true → 0 < v.places
  once : v.calm → v.places ≤ 1
  keyed : v.calm → 0 < v.places → v.key = true
  held : v.calm → ∀ w ∈ v.holders, v.active = true
  sole : v.calm → v.holders.Subsingleton

structure Inv (s : State) : Prop where
  kept : ∀ id, Kept id (s.view id)
  acks : s.acks ⊆ s.reserved
  held : s.held ⊆ s.reserved

/-- An id leaves the queue with an acknowledgement only. -/
structure Extends (s s' : State) : Prop where
  acks : s.acks ⊆ s'.acks
  leaves : ∀ id, s.Queued id → s'.Queued id ∨ ∃ w, (w, id) ∈ s'.acks ∧ (w, id) ∉ s.acks

instance : Preorder State where
  le := Extends
  le_refl _ := ⟨fun _ h => h, fun _ queued => Or.inl queued⟩
  le_trans s s' s'' first second := by
    refine ⟨first.acks.trans second.acks, fun id queued => ?_⟩
    rcases first.leaves id queued with stays | ⟨w, acked, fresh⟩
    · rcases second.leaves id stays with stays | ⟨w, acked, fresh⟩
      · exact Or.inl stays
      · exact Or.inr ⟨w, acked, fun before => fresh (first.acks before)⟩
    · exact Or.inr ⟨w, second.acks acked, fresh⟩

/-- What a party holds and has acknowledged, which only it can change. -/
structure Part where
  held : Set String
  acked : Set String

def part (s : State) (me : ℕ) : Part where
  held := {id | (me, id) ∈ s.held}
  acked := {id | (me, id) ∈ s.acks}

namespace Kept

variable {id : String} {v v' : View}

/-- What is in two places, or twice in one, is not calm. -/
theorem alone (kept : Kept id v) (calm : v.calm) (active : v.active = true) :
    v.ready = 0 ∧ v.delayed = false := by
  have once := kept.once calm
  unfold View.places at once
  cases delayed : v.delayed with
  | false =>
      rw [active, delayed, Bool.toNat_true] at once
      exact ⟨by omega, rfl⟩
  | true =>
      rw [active, delayed, Bool.toNat_true] at once
      omega

/-- An id that is ready is held by nobody alive. -/
theorem unheld (kept : Kept id v) (calm : v.calm) (elsewhere : v.active = true → False) :
    v.holders = ∅ := by
  ext w
  constructor
  · intro holds
    exact (elsewhere (kept.held calm w holds)).elim
  · intro impossible
    cases impossible

/-- The id goes from one place to another. -/
theorem moved (kept : Kept id v) (places : v'.places = v.places) (key : v'.key = v.key)
    (calm : v'.calm → v.calm) (held : v'.calm → ∀ w ∈ v'.holders, v'.active = true)
    (sole : v'.calm → v'.holders.Subsingleton) : Kept id v' where
  valid queued := kept.valid (places ▸ queued)
  queued isKey := places ▸ kept.queued (key ▸ isKey)
  once isCalm := places ▸ kept.once (calm isCalm)
  keyed isCalm queued := key ▸ kept.keyed (calm isCalm) (places ▸ queued)
  held := held
  sole := sole

end Kept

/-! ### Quiet steps -/

/-- A step that changes nobody's hold and keeps every id that is queued queued. -/
structure Quiet (s s' : State) : Prop where
  kept : ∀ id, Kept id (s.view id) → Kept id (s'.view id)
  stays : ∀ id, s.Queued id → s'.Queued id
  held : s'.held = s.held
  acks : s'.acks = s.acks
  reserved : s'.reserved = s.reserved

namespace Quiet

variable {s s' s'' : State}

theorem refl (s : State) : Quiet s s := ⟨fun _ h => h, fun _ h => h, rfl, rfl, rfl⟩

theorem trans (first : Quiet s s') (second : Quiet s' s'') : Quiet s s'' :=
  ⟨fun id kept => second.kept id (first.kept id kept),
    fun id queued => second.stays id (first.stays id queued), second.held.trans first.held,
    second.acks.trans first.acks, second.reserved.trans first.reserved⟩

theorem inv (quiet : Quiet s s') (inv : Inv s) : Inv s' := by
  refine ⟨fun id => quiet.kept id (inv.kept id), ?_, ?_⟩
  · rw [quiet.acks, quiet.reserved]
    exact inv.acks
  · rw [quiet.held, quiet.reserved]
    exact inv.held

theorem grows (quiet : Quiet s s') : s ≤ s' :=
  ⟨quiet.acks ▸ Finset.Subset.refl _, fun id queued => Or.inl (quiet.stays id queued)⟩

theorem part_eq (quiet : Quiet s s') (me : ℕ) : part s' me = part s me := by
  simp only [Queue.part, quiet.held, quiet.acks]

/-- A step on one id. -/
theorem of_view (id : String) (others : ∀ other, other ≠ id → s'.view other = s.view other)
    (kept : Kept id (s.view id) → Kept id (s'.view id))
    (stays : 0 < (s.view id).places → 0 < (s'.view id).places)
    (held : s'.held = s.held) (acks : s'.acks = s.acks) (reserved : s'.reserved = s.reserved) :
    Quiet s s' := by
  refine ⟨fun other before => ?_, fun other (queued : 0 < (s.view other).places) => ?_, held, acks,
    reserved⟩
  · by_cases same : other = id
    · subst same
      exact kept before
    · rw [others other same]
      exact before
  · show 0 < (s'.view other).places
    by_cases same : other = id
    · subst same
      exact stays queued
    · rw [others other same]
      exact queued

/-- A step that leaves every view as it is. -/
theorem of_views (views : ∀ id, s'.view id = s.view id) (held : s'.held = s.held)
    (acks : s'.acks = s.acks) (reserved : s'.reserved = s.reserved) : Quiet s s' := by
  refine ⟨fun id kept => ?_, fun id (queued : 0 < (s.view id).places) => ?_, held, acks, reserved⟩
  · rw [views id]
    exact kept
  · show 0 < (s'.view id).places
    rw [views id]
    exact queued

end Quiet

theorem moveDelayed_quiet {s : State} {id : String} (member : s.delayed.contains id = true) :
    Quiet s (moveDelayed s id) := by
  have places : ((moveDelayed s id).view id).places = (s.view id).places := by
    simp [View.places, State.view, moveDelayed, member]
  have active : ((moveDelayed s id).view id).active = (s.view id).active := rfl
  refine .of_view id (fun other differ => ?_) (fun kept => ?_) (fun queued => places ▸ queued)
    rfl rfl rfl
  · simp [State.view, moveDelayed, State.Calm, differ, differ.symm]
  · exact kept.moved places rfl (fun calm => calm) (fun calm => active ▸ kept.held calm) kept.sole

theorem recoverActive_quiet {s : State} {id : String} (member : s.active.contains id = true) :
    Quiet s (recoverActive s id) := by
  have places : ((recoverActive s id).view id).places = (s.view id).places := by
    simp [View.places, State.view, recoverActive, member]
    omega
  -- The id stays calm only where nobody alive holds it.
  have calm : (recoverActive s id).Calm id → s.Calm id ∧ (s.view id).holders = ∅ := by
    rintro ⟨notRaced, notRequeued⟩
    unfold recoverActive at notRaced
    by_cases alive : s.alive id
    · simp [alive] at notRaced
    · rw [if_neg alive] at notRaced
      refine ⟨⟨notRaced, notRequeued⟩, Set.eq_empty_of_forall_notMem ?_⟩
      rintro w ⟨held, notCrashed⟩
      exact alive ⟨w, held, notCrashed⟩
  refine .of_view id (fun other differ => ?_) (fun kept => ?_) (fun queued => places ▸ queued)
    rfl rfl rfl
  · have raced : other ∈ (recoverActive s id).raced ↔ other ∈ s.raced := by
      unfold recoverActive
      split
      · simp [differ]
      · rfl
    simp only [State.view, State.Calm, raced]
    simp [recoverActive, differ, differ.symm]
  · have holders : ((recoverActive s id).view id).holders = (s.view id).holders := rfl
    refine kept.moved places rfl (fun isCalm => (calm isCalm).1) (fun isCalm w holds => ?_)
      fun isCalm => ?_
    · rw [holders, (calm isCalm).2] at holds
      cases holds
    · rw [holders, (calm isCalm).2]
      exact Set.subsingleton_empty

/-- A script that moves jobs one after the other. -/
theorem foldl_quiet {move : State → String → State} {inPlace : State → String → Bool}
    (one : ∀ s id, inPlace s id = true → Quiet s (move s id))
    (others : ∀ s id other, other ≠ id → inPlace (move s id) other = inPlace s other)
    {jobs : List String} {s : State} (nodup : jobs.Nodup)
    (members : ∀ id ∈ jobs, inPlace s id = true) : Quiet s (jobs.foldl move s) := by
  induction jobs generalizing s with
  | nil => exact .refl s
  | cons id rest ih =>
      obtain ⟨fresh, later⟩ := List.nodup_cons.mp nodup
      refine (one s id (members id List.mem_cons_self)).trans (ih later fun other member => ?_)
      have differ : other ≠ id := fun same => fresh (same ▸ member)
      rw [others s id other differ]
      exact members other (List.mem_cons_of_mem _ member)

theorem contains_of_rangeUpTo {z : SortedSet String} {max : ℤ} {limit : ℕ} :
    ∀ id ∈ z.rangeUpTo max limit, z.contains id = true := by
  intro id member
  obtain ⟨score, isIn, _⟩ := SortedSet.mem_of_rangeUpTo member
  exact SortedSet.contains_iff.mpr (SortedSet.mem_members.mpr ⟨score, isIn⟩)

theorem moveDueDelayedScript_quiet (limit : ℕ) (env : Env) (s : State) :
    Quiet s (moveDueDelayedScript limit env s).2 :=
  @foldl_quiet _ (fun s id => s.delayed.contains id) (fun _ _ => moveDelayed_quiet)
    (fun _ _ _ differ => SortedSet.contains_remove_of_ne differ) _ _
    (SortedSet.nodup_rangeUpTo _ _ _) contains_of_rangeUpTo

theorem recoverStaleActiveScript_quiet (staleAfter : ℤ) (limit : ℕ) (env : Env) (s : State) :
    Quiet s (recoverStaleActiveScript staleAfter limit env s).2 :=
  @foldl_quiet _ (fun s id => s.active.contains id) (fun _ _ => recoverActive_quiet)
    (fun _ _ _ differ => SortedSet.contains_remove_of_ne differ) _ _
    (SortedSet.nodup_rangeUpTo _ _ _) contains_of_rangeUpTo

theorem admit_quiet {id : String} {expireAt : ℤ} (valid : isValidBatchImageID id = true)
    (s : State) : Quiet s (s.accept id expireAt) := by
  have calm : (s.accept id expireAt).Calm id → s.Calm id ∧ ¬(s.inflight id).isSome = true := by
    rintro ⟨notRaced, notRequeued⟩
    by_cases key : (s.inflight id).isSome
    · simp [State.accept, key] at notRequeued
    · simp only [State.accept, if_neg key] at notRequeued
      exact ⟨⟨notRaced, notRequeued⟩, key⟩
  have places : ((s.accept id expireAt).view id).places = (s.view id).places + 1 := by
    simp [View.places, State.view, State.accept]
    omega
  have holders : ((s.accept id expireAt).view id).holders = (s.view id).holders := rfl
  refine .of_view id (fun other differ => ?_) (fun kept => ?_) (fun _ => by omega) rfl rfl rfl
  · have requeued : other ∈ (s.accept id expireAt).requeued ↔ other ∈ s.requeued := by
      unfold State.accept
      split
      · simp [differ]
      · rfl
    simp only [State.view, State.Calm, requeued]
    simp [State.accept, differ, differ.symm]
  · have nowhere : (s.accept id expireAt).Calm id → (s.view id).places = 0 := fun isCalm =>
      Nat.eq_zero_of_not_pos fun queued => (calm isCalm).2 (kept.keyed (calm isCalm).1 queued)
    have unheld : (s.accept id expireAt).Calm id → (s.view id).holders = ∅ := fun isCalm =>
      kept.unheld (calm isCalm).1 fun active => by
        have none := nowhere isCalm
        rw [View.places, active, Bool.toNat_true] at none
        omega
    constructor
    · exact fun _ => valid
    · intro _
      omega
    · intro isCalm
      rw [places, nowhere isCalm]
    · intro _ _
      simp [State.view, State.accept]
    · intro isCalm w holds
      rw [holders, unheld isCalm] at holds
      cases holds
    · intro isCalm
      rw [holders, unheld isCalm]
      exact Set.subsingleton_empty

theorem enqueueScript_quiet {ttl : ℤ} {id : String} (valid : isValidBatchImageID id = true)
    (env : Env) (s : State) : Quiet s (enqueueScript ttl id env s).2 := by
  unfold enqueueScript
  split
  · exact .refl s
  · exact admit_quiet valid s

/-! ### The steps of the worker that holds the id -/

section Worker

variable {s : State} {me : ℕ} {id : String}

/-- The holder gives the id back while the id is in no set. -/
theorem part_giveBack {other : ℕ} (differ : other ≠ me) :
    part (s.giveBack me id) other = part s other := by
  simp [part, State.giveBack, differ]

theorem view_giveBack_of_ne {other : String} (differ : other ≠ id) :
    (s.giveBack me id).view other = s.view other := by
  simp [State.view, State.giveBack, State.Calm, differ]

theorem holders_giveBack :
    ((s.giveBack me id).view id).holders = (s.view id).holders \ {me} := by
  ext w
  simp only [State.view, State.giveBack, Set.mem_ofPred_eq, Finset.mem_erase, ne_eq, Prod.mk.injEq,
    and_true, Set.mem_sdiff, Set.mem_singleton_iff]
  tauto

/-- Giving an id back keeps it where it is. -/
theorem giveBack_inv (inv : Inv s) : Inv (s.giveBack me id) := by
  refine ⟨fun other => ?_, inv.acks, (Finset.erase_subset _ _).trans inv.held⟩
  by_cases same : other = id
  · subst same
    have fewer : ((s.giveBack me other).view other).holders ⊆ (s.view other).holders := by
      rw [holders_giveBack]
      exact Set.sdiff_subset
    have kept := inv.kept other
    exact kept.moved rfl rfl (fun calm => calm) (fun calm w holds => kept.held calm w (fewer holds))
      fun calm => (kept.sole calm).anti fewer
  · rw [view_giveBack_of_ne same]
    exact inv.kept other

theorem giveBack_grows : s ≤ s.giveBack me id :=
  ⟨fun _ h => h, fun _ queued => Or.inl queued⟩

/-- A holder alive is the only one. -/
theorem Kept.others_empty {v : View} (kept : Kept id v) (calm : v.calm) (mine : me ∈ v.holders) :
    v.holders \ {me} = ∅ := by
  refine Set.eq_empty_of_forall_notMem ?_
  rintro w ⟨holds, differ⟩
  exact differ (kept.sole calm holds mine)

/-- The state after the transaction of `RequeueAfter`. -/
def afterRequeue (s : State) (me : ℕ) (id : String) (delay : ℤ) (env : Env) : State :=
  (requeueAfterTx id delay env s).2.giveBack me id

theorem afterRequeue_kept {delay : ℤ} {env : Env} (kept : Kept id (s.view id))
    (valid : isValidBatchImageID id = true) (mine : me ∈ (s.view id).holders) :
    Kept id ((afterRequeue s me id delay env).view id) ∧
      0 < ((afterRequeue s me id delay env).view id).places := by
  have holders : ((afterRequeue s me id delay env).view id).holders = (s.view id).holders \ {me} := by
    rw [afterRequeue, holders_giveBack]
    unfold requeueAfterTx
    split <;> rfl
  have calm : ((afterRequeue s me id delay env).view id).calm = (s.view id).calm := by
    unfold afterRequeue requeueAfterTx
    split <;> rfl
  have key : ((afterRequeue s me id delay env).view id).key = (s.view id).key := by
    unfold afterRequeue requeueAfterTx
    split <;> rfl
  have places : ((afterRequeue s me id delay env).view id).places = (s.view id).ready + 1 := by
    unfold afterRequeue requeueAfterTx
    split
    · simp [View.places, State.view, State.giveBack]
    · simp [View.places, State.view, State.giveBack]
  have active (isCalm : (s.view id).calm) : (s.view id).active = true := kept.held isCalm me mine
  constructor
  · constructor
    · exact fun _ => valid
    · intro _
      omega
    · intro isCalm
      rw [calm] at isCalm
      rw [places, (kept.alone isCalm (active isCalm)).1]
    · intro isCalm _
      rw [calm] at isCalm
      refine key ▸ kept.keyed isCalm ?_
      rw [View.places, active isCalm, Bool.toNat_true]
      omega
    · intro isCalm w holds
      rw [calm] at isCalm
      rw [holders, kept.others_empty isCalm mine] at holds
      cases holds
    · intro isCalm
      rw [calm] at isCalm
      rw [holders, kept.others_empty isCalm mine]
      exact Set.subsingleton_empty
  · omega

/-- The state after the transaction of `Ack`. -/
def afterAck (s : State) (me : ℕ) (id : String) (env : Env) : State :=
  (ackTx me id env s).2.giveBack me id

theorem afterAck_kept {env : Env} (kept : Kept id (s.view id)) (mine : me ∈ (s.view id).holders) :
    Kept id ((afterAck s me id env).view id) := by
  have holders : ((afterAck s me id env).view id).holders = (s.view id).holders \ {me} :=
    holders_giveBack
  have places : ((afterAck s me id env).view id).places = (s.view id).ready := by
    simp [View.places, State.view, afterAck, ackTx, State.giveBack]
  have calm : ((afterAck s me id env).view id).calm = (s.view id).calm := rfl
  have key : ((afterAck s me id env).view id).key = false := by
    simp [State.view, afterAck, ackTx, State.giveBack]
  have before : (s.view id).ready ≤ (s.view id).places := by
    unfold View.places
    omega
  constructor
  · intro queued
    exact kept.valid (by omega)
  · intro isKey
    rw [key] at isKey
    cases isKey
  · intro isCalm
    have once := kept.once (calm ▸ isCalm)
    omega
  · intro isCalm queued
    rw [calm] at isCalm
    have gone := (kept.alone isCalm (kept.held isCalm me mine)).1
    omega
  · intro isCalm w holds
    rw [holders, kept.others_empty (calm ▸ isCalm) mine] at holds
    cases holds
  · intro isCalm
    rw [holders, kept.others_empty (calm ▸ isCalm) mine]
    exact Set.subsingleton_empty

theorem take_quiet {now : ℤ} (last : s.ready.getLast? = some id) : Quiet s (s.take id now) := by
  obtain ⟨front, ready⟩ := List.getLast?_eq_some_iff.mp last
  -- Where the id is active already it is in two places, and not calm.
  have places : ∀ kept : Kept id (s.view id), s.Calm id →
      ((s.take id now).view id).places = (s.view id).places := by
    intro kept calm
    have elsewhere : s.active.contains id = false := by
      cases active : s.active.contains id with
      | false => rfl
      | true =>
          have alone := (kept.alone calm active).1
          simp [State.view, ready] at alone
    simp [View.places, State.view, State.take, ready, elsewhere]
    omega
  have some : 0 < ((s.take id now).view id).places := by
    simp [View.places, State.view, State.take]
  have before : 0 < (s.view id).places := by
    simp [View.places, State.view, ready]
  refine .of_view id (fun other differ => ?_) (fun kept => ?_) (fun _ => some) rfl rfl rfl
  · simp [State.view, State.take, State.Calm, ready, differ, differ.symm]
  · constructor
    · exact fun _ => kept.valid before
    · exact fun _ => some
    · exact fun calm => places kept calm ▸ kept.once calm
    · exact fun calm _ => kept.keyed calm before
    · intro _ _ _
      simp [State.view, State.take]
    · exact kept.sole

theorem hold_inv {now : ℤ} (inv : Inv s) (last : s.ready.getLast? = some id) :
    Inv (hold me (some (some id)) (s.take id now)) := by
  have quiet : Quiet s (s.take id now) := take_quiet last
  have taken := quiet.inv inv
  unfold hold
  dsimp only
  split
  · refine ⟨fun other => ?_, fun p acked => Finset.mem_insert_of_mem (taken.acks acked),
      Finset.insert_subset_insert _ taken.held⟩
    have kept := taken.kept other
    by_cases same : other = id
    · subst same
      have unheld : s.Calm other → (s.view other).holders = ∅ := by
        intro calm
        obtain ⟨front, ready⟩ := List.getLast?_eq_some_iff.mp last
        refine (inv.kept other).unheld calm fun active => ?_
        have alone := ((inv.kept other).alone calm active).1
        simp [State.view, ready] at alone
      have mine : s.Calm other → ∀ w, (w, other) ∈ insert (me, other) s.held ∧ w ∉ s.crashed →
          w = me := by
        rintro calm w ⟨held, notCrashed⟩
        rcases Finset.mem_insert.mp held with isMe | before
        · exact congrArg Prod.fst isMe
        · have member : w ∈ (s.view other).holders := ⟨before, notCrashed⟩
          rw [unheld calm] at member
          cases member
      refine kept.moved rfl rfl (fun calm => calm) (fun _ _ _ => ?_) fun calm w holds w' holds' => ?_
      · simp [State.view, State.take]
      · rw [mine calm w holds, mine calm w' holds']
    · have view : State.view { s.take id now with
          held := insert (me, id) (s.take id now).held
          reserved := insert (me, id) (s.take id now).reserved } other =
          (s.take id now).view other := by
        simp [State.view, State.Calm, same]
      rw [view]
      exact kept
  · exact taken

end Worker

/-! ### The triples -/

/-- What a step of party `me` guarantees. -/
structure Made (me : ℕ) (M : Assertion part me) (s s' : State) : Prop where
  inv : Inv s'
  grows : s ≤ s'
  others : ∀ other, other ≠ me → part s' other = part s other
  post : M.holds s'

section Triples

variable {me : ℕ} {opts : Options} {id : String}
variable {K : Assertion part me}

theorem command_owns {α : Type} {M : Option α → Assertion part me}
    {effect : Env → State → α × State} {learns : Option α → State → State}
    (done : ∀ env s, Inv s → K.holds s → me ∉ s.crashed →
      Made me (M (some (effect env s).1)) s (learns (some (effect env s).1) (effect env s).2))
    (failed : ∀ s, Inv s → K.holds s → Made me (M none) s (learns none s))
    (lost : ∀ env s, Inv s → K.holds s → me ∉ s.crashed →
      Made me (M none) s (learns none (effect env s).2)) :
    Owns Inv part me K (command me effect learns) M := by
  refine Owns.wait fun env s a s' inv holds acted => ?_
  by_cases crashed : me ∈ s.crashed
  · rw [if_pos crashed] at acted
    cases acted
  · rw [if_neg crashed] at acted
    cases outcome : env.outcome with
    | done =>
        rw [outcome] at acted
        cases acted
        obtain ⟨inv', grows, others, post⟩ := done env s inv holds crashed
        exact ⟨inv', grows, others, post⟩
    | failed =>
        rw [outcome] at acted
        cases acted
        obtain ⟨inv', grows, others, post⟩ := failed s inv holds
        exact ⟨inv', grows, others, post⟩
    | lost =>
        rw [outcome] at acted
        cases acted
        obtain ⟨inv', grows, others, post⟩ := lost env s inv holds crashed
        exact ⟨inv', grows, others, post⟩

theorem Quiet.made {s s' : State} (quiet : Quiet s s') (inv : Inv s) (holds : K.holds s) :
    Made me K s s' :=
  ⟨quiet.inv inv, quiet.grows, fun other _ => quiet.part_eq other,
    K.lasts s s' quiet.grows (quiet.part_eq me) holds⟩

/-- A command that is quiet keeps what the party knows. -/
theorem quiet_owns {α : Type} {effect : Env → State → α × State}
    (quiet : ∀ env s, Quiet s (effect env s).2) :
    Owns Inv part me K (command me effect) fun _ => K :=
  command_owns (fun env s inv holds _ => (quiet env s).made inv holds)
    (fun s inv holds => (Quiet.refl s).made inv holds)
    fun env s inv holds _ => (quiet env s).made inv holds

/-- The party has not acknowledged anything. -/
def idle (me : ℕ) : Assertion part me := .owning (fun p => p.acked = ∅) .none

/-- The party holds the id. -/
def holding (me : ℕ) (id : String) : Assertion part me :=
  .owning (fun p => id ∈ p.held ∧ p.acked = ∅) .none

/-- What the answer of a reservation tells. -/
def reservedFacts (me : ℕ) : Option (Option String) → Assertion part me
  | some (some id) =>
      .owning (fun p => isValidBatchImageID id = true ∧ id ∈ p.held ∧ p.acked = ∅) .none
  | _ => idle me

theorem reserveScript_owns :
    Owns Inv part me (idle me) (command me reserveScript (hold me)) (reservedFacts me) := by
  refine command_owns (fun env s inv holds alive => ?_)
    (fun s inv holds => (Quiet.refl s).made inv holds) fun env s inv holds alive => ?_
  · unfold reserveScript
    cases last : s.ready.getLast? with
    | none => exact (Quiet.refl s).made inv holds
    | some id =>
        have quiet : Quiet s (s.take id env.now) := take_quiet last
        have valid : isValidBatchImageID id = true := by
          obtain ⟨front, ready⟩ := List.getLast?_eq_some_iff.mp last
          exact (inv.kept id).valid (by simp [View.places, State.view, ready])
        refine ⟨hold_inv inv last, ⟨?_, fun other queued => ?_⟩, fun other differ => ?_, ?_, trivial⟩
        · unfold hold
          simp only [valid, if_true]
          exact fun _ acked => acked
        · refine Or.inl ?_
          unfold hold
          simp only [valid, if_true]
          exact quiet.stays other queued
        · simp [hold, valid, part, State.take, differ]
        · have acked : (part s me).acked = ∅ := holds.1
          simp only [part] at acked
          simp [hold, valid, part, State.take, acked]
  · unfold reserveScript
    cases last : s.ready.getLast? with
    | none => exact (Quiet.refl s).made inv holds
    | some id => exact (take_quiet last).made inv holds

/-- A reserved id is valid and held. -/
theorem reserveOnce_owns :
    Owns Inv part me (idle me) (reserveOnce me) fun got =>
      match got with
      | .ok id => holding me id
      | .error _ => idle me := by
  refine Owns.bind reserveScript_owns fun raw => ?_
  match raw with
  | none => exact .ret fun _ holds => holds
  | some none => exact .ret fun _ holds => holds
  | some (some id) =>
      refine Owns.given (fun s holds => holds.1.1) fun valid => ?_
      simp only [valid, if_true]
      exact .ret fun _ holds => ⟨holds.1.2, trivial⟩

theorem reserve_owns {polls : ℕ} :
    Owns Inv part me (idle me) (reserve me polls) fun got =>
      match got with
      | .ok id => holding me id
      | .error _ => idle me := by
  induction polls with
  | zero => exact reserveOnce_owns
  | succ polls ih =>
      refine Owns.bind reserveOnce_owns fun got => ?_
      match got with
      | .error .queueEmpty => exact ih
      | .error .redis => exact .ret fun _ holds => holds
      | .error .alreadyQueued => exact .ret fun _ holds => holds
      | .error .invalidPayload => exact .ret fun _ holds => holds
      | .ok id => exact .ret fun _ holds => holds

/-- Whatever became of a party's last command. -/
def finished (me : ℕ) : Assertion part me := .owning (fun _ => True) .none

/-- The command failed, and the worker knows that it holds the id no more. -/
theorem giveBack_made {s : State} (inv : Inv s) : Made me (finished me) s (s.giveBack me id) :=
  ⟨giveBack_inv inv, giveBack_grows, fun _ differ => part_giveBack differ, trivial, trivial⟩

/-- A step of the holder on its id. -/
theorem holder_made {s s' : State} (inv : Inv s)
    (others : ∀ other, other ≠ id → s'.view other = s.view other)
    (kept : Kept id (s'.view id)) (held : s'.held = s.held.erase (me, id))
    (reserved : s'.reserved = s.reserved)
    (acks : s'.acks = s.acks ∨ s'.acks = insert (me, id) s.acks ∧ (me, id) ∈ s.held)
    (leaves : s'.Queued id ∨ (me, id) ∈ s'.acks ∧ (me, id) ∉ s.acks) :
    Made me (finished me) s s' := by
  have more : s.acks ⊆ s'.acks := by
    rcases acks with same | ⟨new, _⟩
    · rw [same]
    · rw [new]
      exact Finset.subset_insert _ _
  refine ⟨⟨fun other => ?_, ?_, ?_⟩, ⟨more, fun other queued => ?_⟩, fun other differ => ?_, trivial,
    trivial⟩
  · by_cases same : other = id
    · subst same
      exact kept
    · rw [others other same]
      exact inv.kept other
  · rw [reserved]
    rcases acks with same | ⟨new, mine⟩
    · rw [same]
      exact inv.acks
    · rw [new]
      exact Finset.insert_subset (inv.held mine) inv.acks
  · rw [held, reserved]
    exact (Finset.erase_subset _ _).trans inv.held
  · by_cases same : other = id
    · subst same
      exact leaves.imp_right fun acked => ⟨me, acked⟩
    · refine Or.inl ?_
      have places : s'.places other = s.places other := congrArg View.places (others other same)
      unfold State.Queued
      rw [places]
      exact queued
  · have heldSame : ∀ id', (other, id') ∈ s'.held ↔ (other, id') ∈ s.held := by
      intro id'
      simp [held, differ]
    have acksSame : ∀ id', (other, id') ∈ s'.acks ↔ (other, id') ∈ s.acks := by
      intro id'
      rcases acks with same | ⟨new, _⟩
      · rw [same]
      · simp [new, differ]
    simp only [part, heldSame, acksSame]

theorem requeueAfter_owns {delay : ℤ} :
    Owns Inv part me (holding me id) (requeueAfter me id delay) fun _ => finished me := by
  unfold requeueAfter
  split
  · rename_i valid
    have taken : ∀ env s, Inv s → (holding me id).holds s → me ∉ s.crashed →
        Made me (finished me) s (afterRequeue s me id delay env) := by
      intro env s inv holds alive
      have mine : me ∈ (s.view id).holders := ⟨holds.1.1, alive⟩
      obtain ⟨kept, queued⟩ := @afterRequeue_kept s me id delay env (inv.kept id) valid mine
      refine holder_made inv (fun other differ => ?_) kept ?_ ?_ (Or.inl ?_) (Or.inl queued)
      · unfold afterRequeue
        rw [view_giveBack_of_ne differ]
        unfold requeueAfterTx
        split
        · simp [State.view, State.Calm, differ, differ.symm]
        · simp [State.view, State.Calm, differ]
      all_goals
        unfold afterRequeue requeueAfterTx
        split <;> rfl
    have sent : Owns Inv part me (holding me id)
        (command me (requeueAfterTx id delay) fun _ s => s.giveBack me id) fun _ => finished me :=
      command_owns taken (fun s inv _ => giveBack_made inv) taken
    refine Owns.bind sent fun done => ?_
    cases done with
    | none => exact .ret fun _ holds => holds
    | some _ => exact .ret fun _ holds => holds
  · exact .ret fun _ _ => ⟨trivial, trivial⟩

theorem ack_owns : Owns Inv part me (holding me id) (ack me id) fun _ => finished me := by
  unfold ack
  split
  · have taken : ∀ env s, Inv s → (holding me id).holds s → me ∉ s.crashed →
        Made me (finished me) s (afterAck s me id env) := by
      intro env s inv holds alive
      have mine : me ∈ (s.view id).holders := ⟨holds.1.1, alive⟩
      have fresh : (me, id) ∉ s.acks := by
        intro before
        have none : id ∈ (part s me).acked := before
        rw [holds.1.2] at none
        cases none
      refine holder_made inv (fun other differ => ?_) (afterAck_kept (inv.kept id) mine) rfl rfl
        (Or.inr ⟨rfl, holds.1.1⟩) (Or.inr ⟨Finset.mem_insert_self _ _, fresh⟩)
      unfold afterAck
      rw [view_giveBack_of_ne differ]
      simp [ackTx, State.view, State.Calm, differ]
    have sent : Owns Inv part me (holding me id)
        (command me (ackTx me id) fun _ s => s.giveBack me id) fun _ => finished me :=
      command_owns taken (fun s inv _ => giveBack_made inv) taken
    refine Owns.bind sent fun done => ?_
    cases done with
    | none => exact .ret fun _ holds => holds
    | some _ => exact .ret fun _ holds => holds
  · exact .ret fun _ _ => ⟨trivial, trivial⟩

theorem enqueue_owns :
    Owns Inv part me K (enqueue opts me id) fun _ => K := by
  unfold enqueue
  split
  · rename_i valid
    refine Owns.bind (quiet_owns fun env s => enqueueScript_quiet valid env s) fun applied => ?_
    match applied with
    | none => exact .ret fun _ holds => holds
    | some false => exact .ret fun _ holds => holds
    | some true => exact .ret fun _ holds => holds
  · exact .ret fun _ holds => holds

/-- A command that changes nothing but locks. -/
theorem locks_quiet {s : State} {locks : String → Option (ℕ × ℤ)} :
    Quiet s { s with locks := locks } :=
  .of_views (fun _ => rfl) rfl rfl rfl

theorem tryAcquireJobLock_owns {ttl : ℤ} :
    Owns Inv part me K (tryAcquireJobLock me id ttl) fun _ => K := by
  refine quiet_owns fun env s => ?_
  split
  · exact .refl s
  · exact locks_quiet

theorem releaseLock_owns {token : ℕ} :
    Owns Inv part me K (releaseLock me id token) fun _ => K := by
  refine quiet_owns fun env s => ?_
  split
  · exact locks_quiet
  · exact .refl s

theorem refreshLock_owns {token : ℕ} {ttl : ℤ} :
    Owns Inv part me K (refreshLock me id token ttl) fun _ => K := by
  refine quiet_owns fun env s => ?_
  split
  · exact locks_quiet
  · exact .refl s

/-- A heartbeat brings back nobody who has left the active set. -/
theorem heartbeat_owns :
    Owns Inv part me K (heartbeat me id) fun _ => K := by
  refine quiet_owns fun env s => .of_views (fun other => ?_) rfl rfl rfl
  simp [State.view, State.Calm]

theorem runJobHeartbeat_owns {token ticks : ℕ} :
    Owns Inv part me K (runJobHeartbeat opts me id token ticks) fun _ => K := by
  induction ticks with
  | zero => exact .ret fun _ holds => holds
  | succ ticks ih =>
      refine Owns.bind heartbeat_owns fun _ => ?_
      exact Owns.bind refreshLock_owns fun _ => ih

theorem settle_owns {result : Option ProcessResult} :
    Owns Inv part me (holding me id) (settle opts me id result) fun _ => finished me := by
  unfold settle
  cases result with
  | none => exact requeueAfter_owns
  | some result =>
      dsimp only
      split
      · exact ack_owns
      · exact requeueAfter_owns

theorem runOnce_owns {polls : ℕ} :
    Owns Inv part me (idle me) (runOnce opts me polls) fun _ => finished me := by
  refine Owns.bind reserve_owns fun reserved => ?_
  cases reserved with
  | error err => exact .ret fun _ _ => ⟨trivial, trivial⟩
  | ok id =>
      refine Owns.bind tryAcquireJobLock_owns fun lock => ?_
      match lock with
      | none => exact Owns.bind requeueAfter_owns fun _ => .ret fun _ holds => holds
      | some none => exact Owns.bind requeueAfter_owns fun _ => .ret fun _ holds => holds
      | some (some token) =>
          refine Owns.bind Owns.ask fun ticks => ?_
          refine Owns.bind runJobHeartbeat_owns fun _ => ?_
          refine Owns.bind Owns.ask fun result => ?_
          refine Owns.bind settle_owns fun _ => ?_
          exact Owns.bind releaseLock_owns fun _ => .ret fun _ holds => holds

/-- Who crashes holds nothing alive any more. -/
theorem crash_owns {party : ℕ} :
    Owns Inv part me K (crash party) fun _ => K := by
  refine Owns.act fun env s inv holds => ?_
  have quiet : Quiet s { s with crashed := insert party s.crashed } := by
    refine ⟨fun id kept => ?_, fun _ queued => queued, rfl, rfl, rfl⟩
    have fewer : (State.view { s with crashed := insert party s.crashed } id).holders ⊆
        (s.view id).holders := by
      rintro w ⟨held, notCrashed⟩
      exact ⟨held, fun before => notCrashed (Finset.mem_insert_of_mem before)⟩
    exact kept.moved rfl rfl (fun calm => calm) (fun calm w member => kept.held calm w (fewer member))
      fun calm => (kept.sole calm).anti fewer
  obtain ⟨inv', grows, others, post⟩ := quiet.made inv holds
  exact ⟨inv', grows, others, post⟩

theorem program_owns (call : Call) :
    Owns Inv part me (idle me) (call.program opts me) fun _ => finished me := by
  have weaker : ∀ (_ : Unit) s, (idle me).holds s → (finished me).holds s :=
    fun _ _ _ => ⟨trivial, trivial⟩
  cases call with
  | enqueue id => exact Owns.bind enqueue_owns fun _ => .ret (weaker ())
  | runOnce polls => exact runOnce_owns
  | moveDueDelayed limit =>
      exact Owns.bind (quiet_owns (moveDueDelayedScript_quiet _)) fun _ => .ret (weaker ())
  | recoverStaleActive staleAfter limit =>
      have recovers : Owns Inv part me (idle me) (recoverStaleActive me staleAfter limit)
          fun _ => idle me := by
        unfold recoverStaleActive
        split
        · exact .ret fun _ holds => holds
        · refine Owns.bind (quiet_owns (recoverStaleActiveScript_quiet _ _)) fun recovered => ?_
          cases recovered with
          | none => exact .ret fun _ holds => holds
          | some _ => exact .ret fun _ holds => holds
      exact Owns.bind recovers fun _ => .ret (weaker ())
  | crash party => exact crash_owns.mono (fun _ holds => holds) weaker

end Triples

/-! ### Every run -/

theorem run_inv (opts : Options) (calls : ℕ → Call) (first later : List (ℕ × Env)) :
    Inv (run opts calls (first ++ later)).shared ∧
      (run opts calls first).shared ≤ (run opts calls (first ++ later)).shared := by
  have start : Inv ({} : State) := by
    refine ⟨fun id => ?_, Finset.Subset.refl _, Finset.Subset.refl _⟩
    have nowhere : (({} : State).view id).places = 0 := rfl
    have nobody : (({} : State).view id).holders = ∅ := by
      simp [State.view]
    constructor
    · intro queued
      omega
    · intro key
      cases key
    · intro _
      omega
    · intro _ queued
      omega
    · intro _ w holds
      rw [nobody] at holds
      cases holds
    · intro _
      rw [nobody]
      exact Set.subsingleton_empty
  exact Owns.run_append (c := { shared := {}, threads := fun me => (calls me).program opts me })
    (K := idle) start (fun me => ⟨by simp [part], trivial⟩) (fun me => program_owns (calls me))
    first later

/-- **The queue loses no job.** In every run an id with an in-flight key is queued; an id that
the recovery has not taken from a worker alive, and that has not been enqueued again after its
in-flight key had expired, is in one place at most; and an id that leaves the queue was
acknowledged meanwhile, by a worker that had reserved it. -/
theorem queue_loses_no_job (opts : Options) (calls : ℕ → Call) (schedule : List (ℕ × Env))
    (id : String) :
    (((run opts calls schedule).shared.inflight id).isSome →
        (run opts calls schedule).shared.Queued id) ∧
      ((run opts calls schedule).shared.Calm id →
        (run opts calls schedule).shared.places id ≤ 1) ∧
      ∀ later, (run opts calls schedule).shared.Queued id →
        ¬(run opts calls (schedule ++ later)).shared.Queued id →
        ∃ w, (w, id) ∈ (run opts calls (schedule ++ later)).shared.acks ∧
          (w, id) ∉ (run opts calls schedule).shared.acks ∧
          (w, id) ∈ (run opts calls (schedule ++ later)).shared.reserved := by
  have kept : Kept id ((run opts calls schedule).shared.view id) := by
    have inv := (run_inv opts calls schedule []).1.kept id
    rwa [List.append_nil] at inv
  refine ⟨kept.queued, kept.once, fun later queued gone => ?_⟩
  obtain ⟨inv, grows⟩ := run_inv opts calls schedule later
  rcases grows.leaves id queued with stays | ⟨w, acked, fresh⟩
  · exact absurd stays gone
  · exact ⟨w, acked, fresh, inv.acks acked⟩

/-! ### An in-flight key that expires -/

namespace Sample

def id : String := "imgbatch_1"

/-- The first worker and two who enqueue the same id. -/
def calls : ℕ → Call
  | 0 => .runOnce 0
  | _ => .enqueue id

def week : ℤ := 7 * 24 * 3600 * 1000

/-- The id is enqueued, reserved, and enqueued again after a week. -/
def again : List (ℕ × Env) := [(1, {}), (0, { now := 1000 }), (2, { now := week + 1 })]

end Sample

theorem queue_doubles_a_job :
    (run {} Sample.calls Sample.again).shared.raced = ∅ ∧
      Sample.id ∈ (run {} Sample.calls Sample.again).shared.ready ∧
      (run {} Sample.calls Sample.again).shared.active.contains Sample.id = true := by
  decide +kernel

end Sub2api.BatchImage.Queue
