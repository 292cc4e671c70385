import Mathlib.Tactic.Linarith
import Sub2api.Concurrency.Slots

/-!
# Concurrency slots stay within their caps

The invariant speaks of the members of each key, which bound the slots in use, and of the score of
a lease that has not expired, which is the same in the three sets of the lease. A step of the
kind `Cleans` takes regular slots and expired leases away and is harmless; the scripts that add a
member have looked at the counts before.

* `Within.anti` — a cap survives the loss of members, also that of a replacing lease;
* `acquireScript_keeps`, `acquireLiveLeaseScript_keeps`, `refreshLiveLeaseScript_keeps` — the
  scripts that add;
* `slots_within_caps` — over every run.
-/

namespace Sub2api.Concurrency

open Interleave
open Redis

namespace State

/-- The members of a key that have been touched within so many seconds. -/
def unexpired (s : State) (k : SlotKey) (ttl : ℕ) : SortedSet String :=
  (s.content k).removeUpTo (s.now - ttl)

def members (s : State) (k : SlotKey) : Finset String := (s.content k).members

/-- The score of a lease that has not expired. -/
def live (s : State) (k : SlotKey) (leaseID : String) : Option ℤ :=
  (s.unexpired k leaseTTL).score leaseID

end State

/-! ### Caps -/

/-- The members of a regular and a live set, of which those in `replaced` may be one too many. -/
def Within (max : ℤ) (replaced regular live : Finset String) : Prop :=
  (regular.card + live.card : ℤ) ≤ max + 1 ∧
    ((∀ lease ∈ live, lease ∉ replaced) → (regular.card + live.card : ℤ) ≤ max)

section Caps

variable {max : ℤ} {replaced replaced' regular regular' live live' : Finset String}

theorem Within.anti (within : Within max replaced regular live) (fewer : regular' ⊆ regular)
    (fewerLive : live' ⊆ live) : Within max replaced regular' live' := by
  have less := Finset.card_le_card fewer
  have lessLive := Finset.card_le_card fewerLive
  obtain ⟨one, none⟩ := within
  refine ⟨by omega, fun noneLeft => ?_⟩
  by_cases before : ∀ lease ∈ live, lease ∉ replaced
  · have bound := none before
    omega
  · push Not at before
    obtain ⟨lease, isLive, isReplaced⟩ := before
    have dropped : live' ⊂ live :=
      ⟨fewerLive, fun back => noneLeft lease (back isLive) isReplaced⟩
    have lost := Finset.card_lt_card dropped
    omega

theorem Within.congr (within : Within max replaced regular live)
    (same : ∀ lease ∈ live, (lease ∈ replaced' ↔ lease ∈ replaced)) :
    Within max replaced' regular live :=
  ⟨within.1, fun none => within.2 fun lease isLive isReplaced =>
    none lease isLive ((same lease isLive).mpr isReplaced)⟩

/-- A slot below the maximum. -/
theorem within_insert {requestID : String} (below : (regular.card + live.card : ℤ) < max) :
    Within max replaced (insert requestID regular) live := by
  have more := Finset.card_insert_le requestID regular
  exact ⟨by omega, fun _ => by omega⟩

/-- A lease below the maximum, or one that is noted as replacing below one more. -/
theorem within_insert_live {leaseID : String} {replacing : Bool}
    (below : (regular.card + live.card : ℤ) < max + allowance replacing)
    (noted : replacing = true → leaseID ∈ replaced) :
    Within max replaced regular (insert leaseID live) := by
  have more := Finset.card_insert_le leaseID live
  cases replacing with
  | true =>
      simp only [allowance, if_true] at below
      refine ⟨by omega, fun none => ?_⟩
      exact absurd (noted rfl) (none leaseID (Finset.mem_insert_self _ _))
  | false =>
      simp only [allowance, Bool.false_eq_true, if_false] at below
      exact ⟨by omega, fun _ => by omega⟩

end Caps

/-! ### The state seen through its members and live scores -/

section Views

variable {s : State} {k k' : SlotKey} {member : String} {ttl : ℕ}

@[simp] theorem clock_modify (f : SortedSet String → SortedSet String) :
    (s.modify k f).clock = s.clock := rfl

@[simp] theorem clock_expire : (s.expire k ttl).clock = s.clock := rfl

theorem content_modify (f : SortedSet String → SortedSet String) :
    (s.modify k f).content k' = if k' = k then f (s.content k) else s.content k' := by
  simp only [State.content, State.modify]
  by_cases same : k' = k
  · subst same
    rw [if_pos rfl, Function.update_self]
    exact Key.content_update f
  · rw [if_neg same, Function.update_of_ne same]

theorem content_expire : (s.expire k ttl).content k' = s.content k' := by
  simp only [State.content, State.expire]
  by_cases same : k' = k
  · subst same
    rw [Function.update_self]
    exact Key.content_expire (by positivity)
  · rw [Function.update_of_ne same]

theorem content_touch : (s.touch k member ttl).content k' =
    if k' = k then (s.content k).add member s.now else s.content k' := by
  rw [State.touch, content_expire, content_modify]

theorem clock_touchAll {ks : List SlotKey} : (s.touchAll ks member ttl).clock = s.clock := by
  unfold State.touchAll
  induction ks generalizing s with
  | nil => rfl
  | cons k rest ih => exact ih

theorem admits_touchAll {ks : List SlotKey} :
    (s.touchAll ks member ttl).admits = s.admits := by
  unfold State.touchAll
  induction ks generalizing s with
  | nil => rfl
  | cons k rest ih => exact ih

theorem members_touch : (s.touch k member ttl).members k' =
    if k' = k then insert member (s.members k') else s.members k' := by
  unfold State.members
  rw [content_touch]
  by_cases same : k' = k
  · subst same
    rw [if_pos rfl, if_pos rfl, SortedSet.members_add]
  · rw [if_neg same, if_neg same]

theorem members_touchAll {ks : List SlotKey} : (s.touchAll ks member ttl).members k' =
    if k' ∈ ks then insert member (s.members k') else s.members k' := by
  unfold State.touchAll
  induction ks generalizing s with
  | nil => rfl
  | cons k rest ih =>
      rw [List.foldl_cons, ih, members_touch]
      by_cases head : k' = k
      · subst head
        simp
      · simp [head]

theorem live_eq (s : State) (k : SlotKey) (leaseID : String) :
    s.live k leaseID =
      ((s.content k).score leaseID).filter fun score => s.now - leaseTTL < score := by
  rw [State.live, State.unexpired, SortedSet.score_removeUpTo]

theorem live_touch {leaseID : String} : (s.touch k member ttl).live k' leaseID =
    if k' = k ∧ leaseID = member then some s.now else s.live k' leaseID := by
  have now : (s.touch k member ttl).now = s.now := rfl
  rw [live_eq, live_eq, content_touch, now]
  by_cases same : k' = k
  · subst same
    rw [if_pos rfl, SortedSet.score_add]
    by_cases mine : leaseID = member
    · simp [mine, leaseTTL]
    · simp [mine]
  · simp [same]

theorem live_touchAll {ks : List SlotKey} {leaseID : String} :
    (s.touchAll ks member ttl).live k' leaseID =
      if k' ∈ ks ∧ leaseID = member then some s.now else s.live k' leaseID := by
  unfold State.touchAll
  induction ks generalizing s with
  | nil => simp
  | cons k rest ih =>
      have now : (s.touch k member ttl).now = s.now := rfl
      rw [List.foldl_cons, ih, live_touch, now]
      by_cases mine : leaseID = member
      · by_cases head : k' = k
        · simp [mine, head]
        · simp [mine, head]
      · simp [mine]

end Views

/-! ### Steps that only take away -/

/-- The scores of a live key lie in the past, and the key stays until the last of its members has
expired. -/
def Timely (s : State) (k : SlotKey) : Prop :=
  ∀ e ∈ (s.keys k).set.entries, e.2 ≤ s.now ∧
    ∀ t ∈ (s.keys k).expireAt, (e.2 + leaseTTL) * 1000 ≤ t

section Cleaning

variable {s s' s'' : State} {k : SlotKey}

theorem timely_modify {k' : SlotKey} {f : SortedSet String → SortedSet String}
    (fewer : (f (s.content k)).entries ⊆ (s.content k).entries) (timely : Timely s k') :
    Timely (s.modify k f) k' := by
  unfold Timely
  simp only [State.modify]
  by_cases same : k' = k
  · subst same
    rw [Function.update_self]
    intro e member
    obtain ⟨past, stays⟩ := timely e (Key.content_subset_set (fewer member))
    refine ⟨past, fun t isTime => ?_⟩
    simp only [Key.update] at isTime
    split at isTime
    · cases isTime
    · exact stays t isTime
  · rw [Function.update_of_ne same]
    exact timely

theorem timely_expire {k' : SlotKey} {ttl : ℕ} (other : k' ≠ k) (timely : Timely s k') :
    Timely (s.expire k ttl) k' := by
  unfold Timely
  simp only [State.expire]
  rw [Function.update_of_ne other]
  exact timely

/-- Touching a live key renews its time to live. -/
theorem timely_touch {k' : SlotKey} {member : String} (timely : Timely s k') :
    Timely (s.touch k member leaseTTL) k' := by
  by_cases same : k' = k
  · subst same
    have keys : (s.touch k' member leaseTTL).keys k' =
        { set := (s.content k').add member s.now
          expireAt := some (s.clock + leaseTTL * 1000) } := by
      have some : ((s.content k').add member s.now).entries.isEmpty = false := by
        simp [SortedSet.add]
      simp only [State.touch, State.expire, State.modify, Function.update_self, Key.expire,
        Key.content_update]
      unfold State.content at some
      rw [some]
      rfl
    unfold Timely
    rw [keys]
    intro e isIn
    have past : e.2 ≤ s.now := by
      rcases List.mem_append.mp isIn with old | new
      · exact (timely e (Key.content_subset_set (List.mem_filter.mp old).1)).1
      · rw [List.mem_singleton.mp new]
    refine ⟨past, ?_⟩
    rintro t ⟨rfl⟩
    unfold State.now at past
    omega
  · rw [State.touch]
    refine timely_expire same ?_
    unfold Timely
    simp only [State.modify, Function.update_of_ne same]
    exact timely

/-- A step that takes regular slots and expired leases away. -/
structure Cleans (s s' : State) : Prop where
  clock : s'.clock = s.clock
  replaced : s'.replaced = s.replaced
  admits : s'.admits = s.admits
  members : ∀ k, s'.members k ⊆ s.members k
  live : ∀ k, k.isLive = true → ∀ leaseID, s'.live k leaseID = s.live k leaseID
  timely : ∀ k, k.isLive = true → Timely s k → Timely s' k

theorem Cleans.refl (s : State) : Cleans s s :=
  ⟨rfl, rfl, rfl, fun _ => Finset.Subset.refl _, fun _ _ _ => rfl, fun _ _ h => h⟩

theorem Cleans.trans (first : Cleans s s') (second : Cleans s' s'') : Cleans s s'' :=
  ⟨second.clock.trans first.clock, second.replaced.trans first.replaced,
    second.admits.trans first.admits, fun k => (second.members k).trans (first.members k),
    fun k isLive leaseID => (second.live k isLive leaseID).trans (first.live k isLive leaseID),
    fun k isLive timely => second.timely k isLive (first.timely k isLive timely)⟩

/-- Members go by a test that spares the leases that have not expired. -/
theorem modify_cleans {keep : String → ℤ → Bool}
    (spares : k.isLive = true → ∀ member score, s.now - leaseTTL < score → keep member score) :
    Cleans s (s.modify k (SortedSet.filter keep)) := by
  refine ⟨rfl, rfl, rfl, fun k' => ?_, fun k' isLive leaseID => ?_, fun k' _ timely => ?_⟩
  · unfold State.members
    rw [content_modify]
    split
    · rename_i same
      rw [same]
      exact SortedSet.members_filter_subset keep
    · exact Finset.Subset.refl _
  · have now : (s.modify k (SortedSet.filter keep)).now = s.now := rfl
    rw [live_eq, live_eq, content_modify, now]
    by_cases same : k' = k
    · subst same
      rw [if_pos rfl, SortedSet.score_filter]
      cases score : (s.content k').score leaseID with
      | none => rfl
      | some at_ =>
          by_cases fresh : s.now - leaseTTL < at_
          · simp [Option.filter, spares isLive leaseID at_ fresh]
          · by_cases kept : keep leaseID at_
            · simp [Option.filter, kept]
            · simp [Option.filter, kept, fresh]
    · rw [if_neg same]
  · exact timely_modify (List.filter_sublist.subset) timely

theorem cleanup_cleans {ttl : ℕ} (enough : k.isLive = true → leaseTTL ≤ ttl) :
    Cleans s (s.cleanup k ttl) := by
  refine modify_cleans fun isLive _ score fresh => ?_
  have enough := enough isLive
  exact decide_eq_true (by omega)

theorem expire_cleans {ttl : ℕ} (regular : k.isLive = false) : Cleans s (s.expire k ttl) := by
  refine ⟨rfl, rfl, rfl, fun k' => ?_, fun k' isLive leaseID => ?_, fun k' isLive timely => ?_⟩
  · unfold State.members
    rw [content_expire]
  · have now : (s.expire k ttl).now = s.now := rfl
    rw [live_eq, live_eq, content_expire, now]
  · refine timely_expire (fun same => ?_) timely
    rw [same, regular] at isLive
    cases isLive

end Cleaning

/-! ### The invariant -/

structure Inv (cfg : Config) (s : State) : Prop where
  caps : ∀ owner, 0 < cfg.max owner →
    Within (cfg.max owner) s.replaced (s.members owner.regular) (s.members owner.live)
  homed : ∀ owner, ∀ lease ∈ s.members owner.live, owner ∈ (cfg.home lease).owners
  agree : ∀ lease, ∀ k ∈ (cfg.home lease).keys, ∀ k' ∈ (cfg.home lease).keys,
    s.live k lease = s.live k' lease
  timely : ∀ k, k.isLive = true → Timely s k
  ingress : ∀ id, ((s.members (.wsIngress id)).card : ℤ) ≤ max 0 (cfg.maxConnections id)

/-- A lease that is gone comes back only by being admitted again. -/
structure Extends (s s' : State) : Prop where
  clock : s.clock ≤ s'.clock
  admits : ∀ lease, s.admits lease ≤ s'.admits lease
  back : ∀ k, k.isLive = true → ∀ lease, (s'.live k lease).isSome →
    (s.live k lease).isSome ∨ s.admits lease < s'.admits lease

instance : Preorder State where
  le := Extends
  le_refl _ := ⟨le_rfl, fun _ => le_rfl, fun _ _ _ alive => Or.inl alive⟩
  le_trans s s' s'' first second := by
    refine ⟨first.clock.trans second.clock,
      fun lease => (first.admits lease).trans (second.admits lease), fun k isLive lease alive => ?_⟩
    have more := first.admits lease
    have moreLater := second.admits lease
    rcases second.back k isLive lease alive with before | admitted
    · rcases first.back k isLive lease before with alive | admitted
      · exact Or.inl alive
      · exact Or.inr (by omega)
    · exact Or.inr (by omega)

section Steps

variable {cfg : Config} {s s' : State}

theorem Cleans.inv (cleans : Cleans s s') (inv : Inv cfg s) : Inv cfg s' where
  caps owner set := cleans.replaced ▸
    (inv.caps owner set).anti (cleans.members owner.regular) (cleans.members owner.live)
  homed owner lease member := inv.homed owner lease (cleans.members _ member)
  agree lease k isKey k' isKey' := by
    have isLive : ∀ k ∈ (cfg.home lease).keys, k.isLive = true := by
      simp [Home.keys, SlotKey.isLive]
    rw [cleans.live k (isLive k isKey), cleans.live k' (isLive k' isKey')]
    exact inv.agree lease k isKey k' isKey'
  timely k isLive := cleans.timely k isLive (inv.timely k isLive)
  ingress id := by
    have less := Finset.card_le_card (cleans.members (.wsIngress id))
    have bound := inv.ingress id
    omega

theorem Cleans.grows (cleans : Cleans s s') : s ≤ s' where
  clock := cleans.clock.ge
  admits lease := by rw [cleans.admits]
  back k isLive lease alive := Or.inl (cleans.live k isLive lease ▸ alive)

/-- Touching a key that is none of live leases. -/
theorem touch_inv {k : SlotKey} {member : String} {ttl : ℕ} (regular : k.isLive = false)
    (inv : Inv cfg s)
    (caps : ∀ owner, owner.regular = k → 0 < cfg.max owner →
      Within (cfg.max owner) s.replaced (insert member (s.members k)) (s.members owner.live))
    (ingress : ∀ id, SlotKey.wsIngress id = k →
      ((insert member (s.members k)).card : ℤ) ≤ max 0 (cfg.maxConnections id)) :
    Inv cfg (s.touch k member ttl) := by
  have others : ∀ k', k'.isLive = true → k' ≠ k := by
    rintro k' isLive rfl
    rw [regular] at isLive
    cases isLive
  have liveMembers : ∀ owner : Owner, (s.touch k member ttl).members owner.live =
      s.members owner.live := by
    intro owner
    rw [members_touch, if_neg (others _ (by cases owner <;> rfl))]
  constructor
  · intro owner set
    rw [liveMembers, members_touch]
    split
    · rename_i mine
      rw [mine]
      exact caps owner mine set
    · exact inv.caps owner set
  · intro owner lease isIn
    rw [liveMembers] at isIn
    exact inv.homed owner lease isIn
  · intro lease k₁ isKey₁ k₂ isKey₂
    have isLive : ∀ k' ∈ (cfg.home lease).keys, k'.isLive = true := by
      simp [Home.keys, SlotKey.isLive]
    rw [live_touch, live_touch, if_neg fun both => others _ (isLive _ isKey₁) both.1,
      if_neg fun both => others _ (isLive _ isKey₂) both.1]
    exact inv.agree lease k₁ isKey₁ k₂ isKey₂
  · intro k' isLive
    have unchanged : Timely (s.modify k (SortedSet.add member s.now)) k' := by
      unfold Timely
      simp only [State.modify, Function.update_of_ne (others k' isLive)]
      exact inv.timely k' isLive
    exact timely_expire (others k' isLive) unchanged
  · intro id
    rw [members_touch]
    split
    · rename_i mine
      rw [mine]
      exact ingress id mine
    · exact inv.ingress id

theorem touch_grows {k : SlotKey} {member : String} {ttl : ℕ} (regular : k.isLive = false) :
    s ≤ s.touch k member ttl where
  clock := le_rfl
  admits _ := le_rfl
  back k' isLive lease alive := by
    refine Or.inl ?_
    rwa [live_touch, if_neg] at alive
    rintro ⟨rfl, _⟩
    rw [regular] at isLive
    cases isLive

theorem regular_not_live (owner : Owner) : owner.regular.isLive = false := by
  cases owner <;> rfl

theorem count_eq (s : State) (k : SlotKey) : s.count k = ((s.members k).card : ℤ) := by
  rw [State.members, SortedSet.card_members]
  rfl

/-- A script that keeps the invariant and brings no lease back. -/
def Keeps (cfg : Config) (s s' : State) : Prop := Inv cfg s → Inv cfg s' ∧ s ≤ s'

theorem Keeps.trans {s'' : State} (first : Keeps cfg s s') (second : Keeps cfg s' s'') :
    Keeps cfg s s'' := by
  intro inv
  obtain ⟨inv', grows⟩ := first inv
  obtain ⟨inv'', grows'⟩ := second inv'
  exact ⟨inv'', grows.trans grows'⟩

theorem Cleans.keeps (cleans : Cleans s s') : Keeps cfg s s' :=
  fun inv => ⟨cleans.inv inv, cleans.grows⟩

theorem cleanupBoth_cleans (cfg : Config) (s : State) (owner : Owner) :
    Cleans s ((s.cleanup owner.regular cfg.slotTTL).cleanup owner.live leaseTTL) := by
  refine (cleanup_cleans fun isLive => ?_).trans (cleanup_cleans fun _ => le_rfl)
  rw [regular_not_live] at isLive
  cases isLive

theorem acquireScript_keeps (owner : Owner) (requestID : String) (s : State) :
    Keeps cfg s
      (acquireScript cfg owner.regular owner.live (cfg.max owner) requestID s).2 := by
  have cleans := cleanupBoth_cleans cfg s owner
  unfold acquireScript
  dsimp only
  set s₁ := (s.cleanup owner.regular cfg.slotTTL).cleanup owner.live leaseTTL
  have sameOwner : ∀ owner' : Owner, owner'.regular = owner.regular → owner' = owner := by
    intro owner' same
    cases owner <;> cases owner' <;> simp_all [Owner.regular]
  have noIngress : ∀ id, SlotKey.wsIngress id ≠ owner.regular := by
    intro id
    cases owner <;> simp [Owner.regular]
  refine cleans.keeps.trans ?_
  split
  · rename_i present
    have present : requestID ∈ s₁.members owner.regular := SortedSet.contains_iff.mp present
    intro inv
    refine ⟨touch_inv (regular_not_live owner) inv (fun owner' same set => ?_)
      (fun id same => absurd same (noIngress id)), touch_grows (regular_not_live owner)⟩
    have same := sameOwner owner' same
    subst same
    rw [Finset.insert_eq_of_mem present]
    exact inv.caps owner' set
  · split
    · rename_i below
      intro inv
      refine ⟨touch_inv (regular_not_live owner) inv (fun owner' same set => ?_)
        (fun id same => absurd same (noIngress id)), touch_grows (regular_not_live owner)⟩
      have same := sameOwner owner' same
      subst same
      rw [count_eq, count_eq] at below
      exact within_insert below
    · exact (Cleans.refl s₁).keeps

/-! ### Live leases -/

variable {leaseID : String} {replacing : Bool}

theorem keys_live (home : Home) : ∀ k ∈ home.keys, k.isLive = true := by
  simp [Home.keys, SlotKey.isLive]

theorem live_mem_keys {home : Home} (owner : Owner) :
    owner.live ∈ home.keys ↔ owner ∈ home.owners := by
  cases owner <;> simp [Home.keys, Home.owners, Owner.live]

theorem regular_notMem_keys {home : Home} (owner : Owner) : owner.regular ∉ home.keys := by
  cases owner <;> simp [Home.keys, Owner.regular]

/-- Touching a lease in its three sets, with room for it in those it is not in yet. -/
theorem touchAll_inv (inv : Inv cfg s) {replaced : Finset String} {admits : String → ℕ}
    (others : ∀ lease, lease ≠ leaseID → (lease ∈ replaced ↔ lease ∈ s.replaced))
    (room : ∀ owner ∈ (cfg.home leaseID).owners, 0 < cfg.max owner →
      Within (cfg.max owner) replaced (s.members owner.regular)
        (insert leaseID (s.members owner.live))) :
    Inv cfg { s.touchAll (cfg.home leaseID).keys leaseID leaseTTL with
      replaced := replaced, admits := admits } := by
  set s' : State := { s.touchAll (cfg.home leaseID).keys leaseID leaseTTL with
    replaced := replaced, admits := admits }
  have members : ∀ k, s'.members k = if k ∈ (cfg.home leaseID).keys then
      insert leaseID (s.members k) else s.members k := fun k => members_touchAll
  have live : ∀ k lease, s'.live k lease =
      if k ∈ (cfg.home leaseID).keys ∧ lease = leaseID then some s.now else s.live k lease :=
    fun k lease => live_touchAll
  constructor
  · intro owner set
    rw [members, if_neg (regular_notMem_keys owner), members]
    by_cases mine : owner ∈ (cfg.home leaseID).owners
    · rw [if_pos ((live_mem_keys owner).mpr mine)]
      exact room owner mine set
    · rw [if_neg fun isKey => mine ((live_mem_keys owner).mp isKey)]
      refine (inv.caps owner set).congr fun lease member => others lease ?_
      rintro rfl
      exact mine (inv.homed owner lease member)
  · intro owner lease member
    rw [members] at member
    by_cases mine : owner ∈ (cfg.home leaseID).owners
    · rw [if_pos ((live_mem_keys owner).mpr mine)] at member
      rcases Finset.mem_insert.mp member with rfl | before
      · exact mine
      · exact inv.homed owner lease before
    · rw [if_neg fun isKey => mine ((live_mem_keys owner).mp isKey)] at member
      exact inv.homed owner lease member
  · intro lease k isKey k' isKey'
    rw [live, live]
    by_cases same : lease = leaseID
    · subst same
      rw [if_pos ⟨isKey, rfl⟩, if_pos ⟨isKey', rfl⟩]
    · rw [if_neg fun both => same both.2, if_neg fun both => same both.2]
      exact inv.agree lease k isKey k' isKey'
  · intro k isLive
    have touched : ∀ (ks : List SlotKey) (s : State), Timely s k →
        Timely (s.touchAll ks leaseID leaseTTL) k := by
      intro ks
      induction ks with
      | nil => exact fun _ timely => timely
      | cons k' rest ih => exact fun s timely => ih _ (timely_touch timely)
    exact touched (cfg.home leaseID).keys s (inv.timely k isLive)
  · intro id
    have notKey : SlotKey.wsIngress id ∉ (cfg.home leaseID).keys := by simp [Home.keys]
    rw [members, if_neg notKey]
    exact inv.ingress id

/-- An admitted lease. -/
theorem admit_keeps (s : State)
    (free : ∀ owner ∈ (cfg.home leaseID).owners,
      ¬s.full cfg owner (allowance replacing)) :
    Keeps cfg s (s.accept (cfg.home leaseID) leaseID replacing) := by
  intro inv
  constructor
  · refine touchAll_inv inv (fun lease differ => ?_) fun owner mine set => ?_
    · cases replacing <;> simp [differ]
    · have below : (s.count owner.regular + s.count owner.live) <
          cfg.max owner + allowance replacing :=
        lt_of_not_ge fun reached => free owner mine ⟨set, reached⟩
      rw [count_eq, count_eq] at below
      refine within_insert_live below fun isReplacing => ?_
      rw [if_pos isReplacing]
      exact Finset.mem_insert_self _ _
  · constructor
    · exact clock_touchAll.ge
    · intro lease
      by_cases same : lease = leaseID
      · subst same
        simp [State.accept]
      · simp [State.accept, same]
    · intro k isLive lease alive
      by_cases same : lease = leaseID
      · subst same
        exact Or.inr (by simp [State.accept])
      · refine Or.inl ?_
        have live : (s.accept (cfg.home leaseID) leaseID replacing).live k lease = _ :=
          live_touchAll
        rwa [live, if_neg fun both => same both.2] at alive

theorem acquireLiveLeaseScript_keeps (s : State) :
    Keeps cfg s (acquireLiveLeaseScript cfg leaseID replacing s).2 := by
  unfold acquireLiveLeaseScript
  dsimp only
  set home := cfg.home leaseID with isHome
  set s₁ := ((s.cleanup (.liveAccount home.account) leaseTTL).cleanup (.liveUser home.user)
    leaseTTL).cleanup (.liveAPIKey home.apiKey) leaseTTL
  have cleans : Cleans s s₁ :=
    ((cleanup_cleans fun _ => le_rfl).trans (cleanup_cleans fun _ => le_rfl)).trans
      (cleanup_cleans fun _ => le_rfl)
  refine cleans.keeps.trans ?_
  split
  · exact (Cleans.refl s₁).keeps
  · split
    · exact (Cleans.refl s₁).keeps
    · rename_i accountFree
      split
      · exact (Cleans.refl s₁).keeps
      · rename_i userFree
        refine admit_keeps s₁ fun owner mine => ?_
        rcases List.mem_cons.mp mine with rfl | isUser
        · exact accountFree
        · rw [List.mem_singleton.mp isUser]
          exact userFree

/-- Where the loop goes through, every key has the lease, and it has not expired. -/
theorem checkLive_cleans (ks : List SlotKey) (live : ∀ k ∈ ks, k.isLive = true) (s : State) :
    Cleans s (checkLive leaseID ks s).2 ∧ ((checkLive leaseID ks s).1 = true →
      ∀ k ∈ ks, (s.live k leaseID).isSome) := by
  induction ks generalizing s with
  | nil => exact ⟨.refl s, fun _ k member => by cases member⟩
  | cons k rest ih =>
      have cleans : Cleans s (s.cleanup k leaseTTL) := cleanup_cleans fun _ => le_rfl
      unfold checkLive
      split
      · rename_i present
        obtain ⟨later, all⟩ :=
          ih (fun k' member => live k' (List.mem_cons_of_mem _ member)) (s.cleanup k leaseTTL)
        refine ⟨cleans.trans later, fun through k' member => ?_⟩
        rcases List.mem_cons.mp member with rfl | isLater
        · have content : (s.cleanup k' leaseTTL).content k' = s.unexpired k' leaseTTL := by
            rw [State.cleanup, content_modify, if_pos rfl]
            rfl
          rw [content] at present
          exact SortedSet.score_isSome.mpr (SortedSet.contains_iff.mp present)
        · rw [← cleans.live k' (live k' member)]
          exact all through k' isLater
      · refine ⟨cleans, fun impossible => ?_⟩
        cases impossible

/-- A refresh touches a lease that all three sets have. -/
theorem refreshLiveLeaseScript_keeps (s : State) :
    Keeps cfg s (refreshLiveLeaseScript (cfg.home leaseID).keys leaseID s).2 := by
  obtain ⟨cleans, all⟩ :=
    @checkLive_cleans leaseID (cfg.home leaseID).keys (keys_live _) s
  unfold refreshLiveLeaseScript
  cases checked : checkLive leaseID (cfg.home leaseID).keys s with
  | mk through s₁ =>
      rw [checked] at cleans all
      cases through with
      | false => exact cleans.keeps
      | true =>
          refine cleans.keeps.trans fun inv => ⟨?_, ?_⟩
          · refine touchAll_inv inv (fun _ _ => Iff.rfl) fun owner mine set => ?_
            have isKey := (live_mem_keys owner).mpr mine
            have alive := all rfl owner.live isKey
            rw [← cleans.live owner.live (keys_live _ _ isKey)] at alive
            have present : leaseID ∈ s₁.members owner.live :=
              SortedSet.members_removeUpTo_subset _ (SortedSet.score_isSome.mp alive)
            rw [Finset.insert_eq_of_mem present]
            exact inv.caps owner set
          · refine ⟨clock_touchAll.ge, fun lease => ?_, fun k isLive lease alive => ?_⟩
            · rw [admits_touchAll]
            · refine Or.inl ?_
              rw [live_touchAll] at alive
              split at alive
              · rename_i mine
                rw [mine.2, cleans.live k isLive]
                exact all rfl k mine.1
              · exact alive

/-! ### Releases and the passing of time -/

theorem live_remove {k k' : SlotKey} {lease : String} (s : State) :
    (s.modify k (SortedSet.remove leaseID)).live k' lease =
      if k' = k ∧ lease = leaseID then none else s.live k' lease := by
  have now : (s.modify k (SortedSet.remove leaseID)).now = s.now := rfl
  rw [live_eq, live_eq, content_modify, now]
  by_cases same : k' = k
  · subst same
    rw [if_pos rfl, SortedSet.score_remove]
    by_cases mine : lease = leaseID
    · simp [mine]
    · simp [mine]
  · simp [same]

/-- What a release leaves of a state. -/
structure Released (ks : List SlotKey) (leaseID : String) (s s' : State) : Prop where
  clock : s'.clock = s.clock
  replaced : s'.replaced = s.replaced
  admits : s'.admits = s.admits
  members : ∀ k, s'.members k ⊆ s.members k
  live : ∀ k lease, s'.live k lease =
    if k ∈ ks ∧ lease = leaseID then none else s.live k lease
  timely : ∀ k, Timely s k → Timely s' k

theorem releaseLiveLeaseTx_released (ks : List SlotKey) (s : State) :
    Released ks leaseID s (releaseLiveLeaseTx ks leaseID s).2 := by
  unfold releaseLiveLeaseTx
  induction ks generalizing s with
  | nil => exact ⟨rfl, rfl, rfl, fun _ => Finset.Subset.refl _, by simp, fun _ h => h⟩
  | cons k rest ih =>
      have later := ih (s.modify k (SortedSet.remove leaseID))
      refine ⟨later.clock, later.replaced, later.admits, fun k' => (later.members k').trans ?_,
        fun k' lease => ?_, fun k' timely => later.timely k' (timely_modify ?_ timely)⟩
      · unfold State.members
        rw [content_modify]
        split
        · rename_i same
          rw [same]
          exact SortedSet.members_filter_subset _
        · exact Finset.Subset.refl _
      · refine (later.live k' lease).trans ?_
        rw [live_remove]
        by_cases mine : lease = leaseID
        · by_cases head : k' = k
          · simp [mine, head]
          · simp [mine, head]
        · simp [mine]
      · exact List.filter_sublist.subset

theorem releaseLiveLeaseTx_keeps (s : State) :
    Keeps cfg s (releaseLiveLeaseTx (cfg.home leaseID).keys leaseID s).2 := by
  have released := @releaseLiveLeaseTx_released leaseID (cfg.home leaseID).keys s
  intro inv
  constructor
  · constructor
    · intro owner set
      rw [released.replaced]
      exact (inv.caps owner set).anti (released.members _) (released.members _)
    · exact fun owner lease member => inv.homed owner lease (released.members _ member)
    · intro lease k isKey k' isKey'
      rw [released.live, released.live]
      by_cases same : lease = leaseID
      · subst same
        rw [if_pos ⟨isKey, rfl⟩, if_pos ⟨isKey', rfl⟩]
      · rw [if_neg fun both => same both.2, if_neg fun both => same both.2]
        exact inv.agree lease k isKey k' isKey'
    · exact fun k isLive => released.timely k (inv.timely k isLive)
    · intro id
      have less := Finset.card_le_card (released.members (.wsIngress id))
      have bound := inv.ingress id
      omega
  · refine ⟨released.clock.ge, fun lease => (by rw [released.admits]), fun k _ lease alive => ?_⟩
    rw [released.live] at alive
    split at alive
    · cases alive
    · exact Or.inl alive

theorem remove_keeps {k : SlotKey} {member : String} (regular : k.isLive = false) (s : State) :
    Keeps cfg s (s.modify k (SortedSet.remove member)) := by
  refine (modify_cleans fun isLive => ?_).keeps
  rw [regular] at isLive
  cases isLive

/-- Time takes members away, and from the live keys only what has expired. -/
theorem pass_keeps (elapsed : ℕ) (s : State) :
    Keeps cfg s { s with clock := s.clock + elapsed } := by
  set s' : State := { s with clock := s.clock + elapsed }
  have later : s.clock ≤ s'.clock := by
    show s.clock ≤ s.clock + elapsed
    omega
  have nowLater : s.now ≤ s'.now := by
    unfold State.now
    omega
  have members : ∀ k, s'.members k ⊆ s.members k := by
    intro k a member
    obtain ⟨score, isIn⟩ := SortedSet.mem_members.mp member
    exact SortedSet.mem_members.mpr ⟨score, (Key.content_sublist later).subset isIn⟩
  have live : ∀ k, Timely s k → ∀ lease,
      s'.live k lease = (s.live k lease).filter fun score => s'.now - leaseTTL < score := by
    intro k timely lease
    refine Option.ext fun score => ?_
    simp only [live_eq, Option.filter_eq_some_iff, SortedSet.score_eq_some, decide_eq_true_eq]
    constructor
    · rintro ⟨isIn, fresh⟩
      exact ⟨⟨(Key.content_sublist later).subset isIn, by omega⟩, fresh⟩
    · rintro ⟨⟨isIn, _⟩, fresh⟩
      refine ⟨?_, fresh⟩
      -- A key with a lease that has not expired has not expired.
      have isSet := Key.content_subset_set isIn
      have alive : ¬(s.keys k).expired s'.clock = true := by
        intro expired
        obtain ⟨t, isTime, before⟩ := (Option.any_eq_true _ _).mp expired
        have before := of_decide_eq_true before
        have stays := (timely _ isSet).2 t isTime
        dsimp only at stays
        unfold State.now at fresh
        omega
      show (lease, score) ∈ ((s.keys k).content s'.clock).entries
      rw [Key.content, if_neg alive]
      exact isSet
  intro inv
  constructor
  · constructor
    · exact fun owner set => (inv.caps owner set).anti (members _) (members _)
    · exact fun owner lease member => inv.homed owner lease (members _ member)
    · intro lease k isKey k' isKey'
      rw [live k (inv.timely k (keys_live _ k isKey)), live k' (inv.timely k' (keys_live _ k' isKey')),
        inv.agree lease k isKey k' isKey']
    · intro k isLive e isIn
      obtain ⟨past, stays⟩ := inv.timely k isLive e isIn
      exact ⟨past.trans nowLater, stays⟩
    · intro id
      have less := Finset.card_le_card (members (.wsIngress id))
      have bound := inv.ingress id
      omega
  · refine ⟨later, fun _ => le_rfl, fun k isLive lease alive => Or.inl ?_⟩
    rw [live k (inv.timely k isLive)] at alive
    cases before : s.live k lease with
    | none =>
        rw [before] at alive
        cases alive
    | some score => rfl

/-! ### WebSocket ingress leases -/

theorem ingress_inv {id : ℤ} {member : String} (inv : Inv cfg s)
    (room : ((insert member (s.members (.wsIngress id))).card : ℤ) ≤
      max 0 (cfg.maxConnections id)) :
    Inv cfg (s.touch (.wsIngress id) member leaseTTL) := by
  refine touch_inv rfl inv (fun owner same => ?_) fun id' same => ?_
  · cases owner <;> cases same
  · cases same
    exact room

theorem acquireIngressScript_keeps (id : ℤ) (s : State) :
    Keeps cfg s (acquireIngressScript (.wsIngress id) (cfg.maxConnections id) leaseID s).2 := by
  have cleans : Cleans s (s.cleanup (.wsIngress id) leaseTTL) := cleanup_cleans fun _ => le_rfl
  unfold acquireIngressScript
  refine cleans.keeps.trans ?_
  dsimp only
  set s₁ := s.cleanup (.wsIngress id) leaseTTL
  split
  · rename_i present
    have present : leaseID ∈ s₁.members (.wsIngress id) := SortedSet.contains_iff.mp present
    refine fun inv => ⟨ingress_inv inv ?_, touch_grows rfl⟩
    rw [Finset.insert_eq_of_mem present]
    exact inv.ingress id
  · split
    · rename_i below
      refine fun inv => ⟨ingress_inv inv ?_, touch_grows rfl⟩
      have more := Finset.card_insert_le leaseID (s₁.members (.wsIngress id))
      rw [count_eq] at below
      omega
    · exact (Cleans.refl s₁).keeps

theorem refreshIngressScript_keeps (id : ℤ) (s : State) :
    Keeps cfg s (refreshIngressScript (.wsIngress id) leaseID s).2 := by
  have cleans : Cleans s (s.cleanup (.wsIngress id) leaseTTL) := cleanup_cleans fun _ => le_rfl
  unfold refreshIngressScript
  refine cleans.keeps.trans ?_
  dsimp only
  set s₁ := s.cleanup (.wsIngress id) leaseTTL
  split
  · rename_i present
    have present : leaseID ∈ s₁.members (.wsIngress id) := SortedSet.contains_iff.mp present
    refine fun inv => ⟨ingress_inv inv ?_, touch_grows rfl⟩
    rw [Finset.insert_eq_of_mem present]
    exact inv.ingress id
  · exact (Cleans.refl s₁).keeps

theorem trackSlotScript_keeps (id : ℤ) (requestID : String) (s : State) :
    Keeps cfg s (trackSlotScript cfg (.apiKey id) requestID s).2 := by
  have cleans : Cleans s (s.cleanup (.apiKey id) cfg.slotTTL) := cleanup_cleans fun impossible => by
    cases impossible
  refine cleans.keeps.trans fun inv => ⟨touch_inv rfl inv (fun owner same => ?_) fun _ same => ?_,
    touch_grows rfl⟩
  · cases owner <;> cases same
  · cases same

end Steps

/-! ### The programs -/

section Programs

variable {cfg : Config}

/-- A time that has been read is past. -/
def readAt (time : ℤ) : Fact State :=
  ⟨fun s => time ≤ s.now, fun s s' grows past => past.trans (by
    have later := grows.clock
    unfold State.now
    omega)⟩

theorem command_sound {α : Type} {K : Fact State} {effect : State → α × State}
    (keeps : ∀ s, K.holds s → Keeps cfg s (effect s).2) :
    Sound (Inv cfg) K (command effect) fun _ => Fact.none := by
  refine Sound.act fun env s inv known => ?_
  obtain ⟨inv', grows⟩ := keeps s known inv
  cases env.outcome with
  | done => exact ⟨inv', grows, trivial⟩
  | failed => exact ⟨inv, le_rfl, trivial⟩
  | lost => exact ⟨inv', grows, trivial⟩

theorem redisUnixSeconds_sound {K : Fact State} :
    Sound (Inv cfg) K redisUnixSeconds fun time => (.all fun t => .when (time = some t) (readAt t)) := by
  refine Sound.act fun env s inv _ => ?_
  cases env.outcome with
  | done =>
      refine ⟨inv, le_rfl, fun t isTime => ?_⟩
      cases isTime
      exact le_rfl
  | failed =>
      refine ⟨inv, le_rfl, fun t isTime => ?_⟩
      cases isTime
  | lost =>
      refine ⟨inv, le_rfl, fun t isTime => ?_⟩
      cases isTime

/-- What had expired at a past time has expired. -/
theorem sweepAt_sound {time : ℤ} (ks : List (SlotKey × ℕ))
    (enough : ∀ e ∈ ks, e.1.isLive = true → leaseTTL ≤ e.2) :
    Sound (Inv cfg) (readAt time) (sweepAt time ks) fun _ => Fact.none := by
  induction ks with
  | nil => exact .ret fun _ _ => trivial
  | cons e rest ih =>
      obtain ⟨k, ttl⟩ := e
      refine Sound.andThen (command_sound fun s past => ?_) fun _ =>
        ih fun e member => enough e (List.mem_cons_of_mem _ member)
      refine (modify_cleans fun isLive _ score fresh => ?_).keeps
      have past : time ≤ s.now := past
      have enough := enough (k, ttl) List.mem_cons_self isLive
      refine decide_eq_true ?_
      dsimp only at enough
      omega

theorem sweep_sound {K : Fact State} (ks : List (SlotKey × ℕ))
    (enough : ∀ e ∈ ks, e.1.isLive = true → leaseTTL ≤ e.2) :
    Sound (Inv cfg) K (sweep ks) fun _ => Fact.none := by
  refine Sound.bind redisUnixSeconds_sound fun time => ?_
  cases time with
  | none => exact .ret fun _ _ => trivial
  | some t => exact (sweepAt_sound ks enough).mono (fun _ known => known.2 t rfl) fun _ _ h => h

theorem refreshActiveIndex_sound {K : Fact State} (owner : Owner) :
    Sound (Inv cfg) K (refreshActiveIndex cfg owner) fun _ => Fact.none := by
  refine sweep_sound _ fun e member isLive => ?_
  rw [List.mem_singleton.mp member, regular_not_live] at isLive
  cases isLive

theorem cleanupStaleProcessSlots_sound (running : String) (owners : List Owner) :
    Sound (Inv cfg) Fact.none (cleanupStaleProcessSlots cfg running owners) fun _ => Fact.none := by
  induction owners with
  | nil => exact .ret fun _ _ => trivial
  | cons owner rest ih =>
      refine Sound.andThen (command_sound fun s _ => ?_) fun cleaned => ?_
      · refine Cleans.keeps ((modify_cleans fun isLive => ?_).trans
          (expire_cleans (regular_not_live owner)))
        rw [regular_not_live] at isLive
        cases isLive
      · cases cleaned with
        | none => exact .ret fun _ _ => trivial
        | some _ => exact ih

theorem quietly_sound {α : Type} {op : Op α}
    (sound : Sound (Inv cfg) Fact.none op fun _ => Fact.none) :
    Sound (Inv cfg) Fact.none (quietly op) fun _ => Fact.none :=
  Sound.andThen sound fun _ => .ret fun _ _ => trivial

theorem program_sound (call : Call) :
    Sound (Inv cfg) Fact.none (call.program cfg) fun _ => Fact.none := by
  cases call with
  | acquireSlot owner requestID =>
      exact quietly_sound (command_sound fun s _ => acquireScript_keeps owner requestID s)
  | releaseSlot owner requestID =>
      refine Sound.andThen (command_sound fun s _ => remove_keeps (regular_not_live owner) s)
        fun removed => ?_
      cases removed with
      | none => exact .ret fun _ _ => trivial
      | some _ => exact refreshActiveIndex_sound owner
  | getConcurrency owner =>
      exact quietly_sound (command_sound fun s _ => (cleanupBoth_cleans cfg s owner).keeps)
  | loadBatch owners =>
      refine sweep_sound _ fun e member isLive => ?_
      obtain ⟨owner, _, isIn⟩ := List.mem_flatMap.mp member
      rcases List.mem_cons.mp isIn with rfl | isLast
      · rw [regular_not_live] at isLive
        cases isLive
      · rw [List.mem_singleton.mp isLast]
  | getAPIKeyConcurrencyBatch ids =>
      refine sweep_sound _ fun e member isLive => ?_
      obtain ⟨id, _, isIn⟩ := List.mem_flatMap.mp member
      rcases List.mem_cons.mp isIn with rfl | isLast
      · cases isLive
      · rw [List.mem_singleton.mp isLast]
  | trackAPIKeySlot id requestID =>
      exact quietly_sound (command_sound fun s _ => trackSlotScript_keeps id requestID s)
  | releaseAPIKeySlot id requestID =>
      exact quietly_sound (command_sound fun s _ => remove_keeps rfl s)
  | acquireLiveLease leaseID replacing =>
      refine quietly_sound ?_
      unfold acquireLiveLease
      split
      · exact .ret fun _ _ => trivial
      · exact command_sound fun s _ => acquireLiveLeaseScript_keeps s
  | refreshLiveLease leaseID =>
      refine quietly_sound ?_
      unfold refreshLiveLease
      split
      · exact .ret fun _ _ => trivial
      · exact command_sound fun s _ => refreshLiveLeaseScript_keeps s
  | releaseLiveLease leaseID =>
      refine quietly_sound ?_
      unfold releaseLiveLease
      split
      · exact .ret fun _ _ => trivial
      · exact command_sound fun s _ => releaseLiveLeaseTx_keeps s
  | acquireIngressLease id leaseID =>
      refine quietly_sound ?_
      unfold acquireIngressLease
      split
      · exact .ret fun _ _ => trivial
      · exact command_sound fun s _ => acquireIngressScript_keeps id s
  | refreshIngressLease id leaseID =>
      refine quietly_sound ?_
      unfold refreshIngressLease
      split
      · exact .ret fun _ _ => trivial
      · exact command_sound fun s _ => refreshIngressScript_keeps id s
  | releaseIngressLease id leaseID =>
      refine quietly_sound ?_
      unfold releaseIngressLease
      split
      · exact .ret fun _ _ => trivial
      · exact command_sound fun s _ => remove_keeps rfl s
  | cleanupExpiredAccountSlots id =>
      refine Sound.andThen (command_sound fun s _ => ?_) fun cleaned => ?_
      · refine Cleans.keeps ((cleanup_cleans fun isLive => ?_).trans (expire_cleans rfl))
        cases isLive
      · cases cleaned with
        | none => exact .ret fun _ _ => trivial
        | some _ => exact refreshActiveIndex_sound _
  | reconcileExpiredIndexCandidates candidates =>
      refine sweep_sound _ fun e member isLive => ?_
      obtain ⟨owner, _, rfl⟩ := List.mem_map.mp member
      rw [regular_not_live] at isLive
      cases isLive
  | cleanupStaleProcessSlots running members =>
      simp only [Call.program]
      split
      · exact .ret fun _ _ => trivial
      · exact cleanupStaleProcessSlots_sound running members
  | pass =>
      refine Sound.act fun env s inv _ => ?_
      obtain ⟨inv', grows⟩ := pass_keeps env.elapsed s inv
      exact ⟨inv', grows, trivial⟩

end Programs

/-! ### Every run -/

/-- The slots in use: the regular ones and the live leases that have not expired. -/
def State.inUse (s : State) (cfg : Config) (owner : Owner) : ℤ :=
  (s.unexpired owner.regular cfg.slotTTL).card + (s.unexpired owner.live leaseTTL).card

theorem Inv.inUse {cfg : Config} {s : State} (inv : Inv cfg s) {owner : Owner}
    (set : 0 < cfg.max owner) :
    s.inUse cfg owner ≤ cfg.max owner + 1 ∧
      ((∀ lease ∈ (s.unexpired owner.live leaseTTL).members, lease ∉ s.replaced) →
        s.inUse cfg owner ≤ cfg.max owner) := by
  have within := (inv.caps owner set).anti
    (SortedSet.members_removeUpTo_subset (s.now - cfg.slotTTL))
    (SortedSet.members_removeUpTo_subset (s.now - leaseTTL))
  unfold Within at within
  rwa [SortedSet.card_members, SortedSet.card_members] at within

/-- **Slots stay within their caps.** In every run, for every account and user with a positive
maximum, at most one slot more than the maximum is in use, and no more than the maximum unless a
lease that was admitted in place of regular slots is; a lease that has not expired is in its three
sets with one score; the WebSocket ingress leases stay within their number; and a lease that was
released or has expired is back only after it has been admitted again. -/
theorem slots_within_caps (cfg : Config) (calls : ℕ → Call) (schedule : List (ℕ × Env)) :
    (∀ owner, 0 < cfg.max owner →
        (run cfg calls schedule).shared.inUse cfg owner ≤ cfg.max owner + 1 ∧
          ((∀ lease ∈ ((run cfg calls schedule).shared.unexpired owner.live leaseTTL).members,
              lease ∉ (run cfg calls schedule).shared.replaced) →
            (run cfg calls schedule).shared.inUse cfg owner ≤ cfg.max owner)) ∧
      (∀ lease, ∀ k ∈ (cfg.home lease).keys, ∀ k' ∈ (cfg.home lease).keys,
        ((run cfg calls schedule).shared.unexpired k leaseTTL).score lease =
          ((run cfg calls schedule).shared.unexpired k' leaseTTL).score lease) ∧
      (∀ id, 0 ≤ cfg.maxConnections id →
        (((run cfg calls schedule).shared.unexpired (.wsIngress id) leaseTTL).card : ℤ) ≤
          cfg.maxConnections id) ∧
      ∀ later lease, ∀ k ∈ (cfg.home lease).keys,
        ((run cfg calls (schedule ++ later)).shared.live k lease).isSome →
        ((run cfg calls schedule).shared.live k lease).isSome ∨
          (run cfg calls schedule).shared.admits lease <
            (run cfg calls (schedule ++ later)).shared.admits lease := by
  have start : Inv cfg {} := by
    constructor
    case caps =>
      intro owner set
      have none : ∀ k, ({} : State).members k = ∅ := fun _ => rfl
      unfold Within
      rw [none, none, Finset.card_empty]
      exact ⟨by omega, fun _ => by omega⟩
    case homed =>
      intro owner lease member
      cases owner <;> simp [State.members, State.content, Key.content] at member
    case agree => exact fun _ _ _ _ _ => rfl
    case timely =>
      intro k _ e member
      cases member
    case ingress =>
      intro id
      exact le_max_left _ _
  have runs := fun later => Sound.run_append
    (c := { shared := ({} : State), threads := fun me => (calls me).program cfg }) start
    (fun me => program_sound (calls me)) schedule later
  have inv : Inv cfg (run cfg calls schedule).shared := by
    have now := (runs []).1
    rwa [List.append_nil] at now
  refine ⟨fun owner set => inv.inUse set, inv.agree, fun id some => ?_, ?_⟩
  · have fewer := Finset.card_le_card (SortedSet.members_removeUpTo_subset
      (z := (run cfg calls schedule).shared.content (.wsIngress id))
      ((run cfg calls schedule).shared.now - leaseTTL))
    rw [SortedSet.card_members] at fewer
    have bound := inv.ingress id
    rw [max_eq_right some] at bound
    unfold State.unexpired
    unfold State.members at bound
    omega
  · intro later lease k isKey alive
    exact (runs later).2.back k (keys_live _ k isKey) lease alive

/-! ### Live leases without a maximum -/

namespace Sample

/-- An account and a user that have no maximum, which is written as zero. -/
def cfg : Config := { max := fun _ => 0, home := fun _ => ⟨1, 1, 1⟩ }

def calls : ℕ → Call
  | 0 => .acquireLiveLease "first" false
  | _ => .acquireLiveLease "second" false

def after : State := (run cfg calls [(0, {}), (1, {})]).shared

end Sample

theorem live_leases_without_maximum :
    ¬Sample.after.inUse Sample.cfg (.account 1) ≤ Sample.cfg.max (.account 1) + 1 := by
  decide +kernel

end Sub2api.Concurrency
