import Mathlib.Algebra.BigOperators.Group.List.Basic
import Mathlib.Data.Finset.Card
import Mathlib.Data.List.Nodup
import Mathlib.Data.List.Sort
import Mathlib.Data.Prod.Basic

/-!
# Sorted sets, keys that expire, and hashes

A sorted set of Redis: members with a score each, no member twice. `members` is what is left of it
when scores do not matter, and a set of members is what bounds and invariants speak of:

* `members_add`, `members_remove`, `members_filter_subset` — what the commands do to it;
* `score_add`, `score_remove`, `score_removeUpTo` — what they do to the score of one member;
* `nodup_rangeUpTo`, `mem_of_rangeUpTo` — what a range contains.
-/

namespace Redis

structure SortedSet (α : Type) where
  entries : List (α × ℤ) := []
  nodup : (entries.map Prod.fst).Nodup := by exact List.nodup_nil

namespace SortedSet

variable {α : Type}

instance : EmptyCollection (SortedSet α) := ⟨{}⟩

/-- The members for which a test holds of member and score. -/
def filter (keep : α → ℤ → Bool) (z : SortedSet α) : SortedSet α where
  entries := z.entries.filter fun e => keep e.1 e.2
  nodup := z.nodup.sublist (List.filter_sublist.map _)

/-- `ZREMRANGEBYSCORE -inf max`. -/
def removeUpTo (max : ℤ) (z : SortedSet α) : SortedSet α := z.filter fun _ score => max < score

/-- `ZCARD`. -/
def card (z : SortedSet α) : ℕ := z.entries.length

variable [DecidableEq α]

/-- `ZSCORE`. -/
def score (z : SortedSet α) (a : α) : Option ℤ := z.entries.lookup a

def members (z : SortedSet α) : Finset α := (z.entries.map Prod.fst).toFinset

def contains (z : SortedSet α) (a : α) : Bool := decide (a ∈ z.members)

/-- `ZREM`. -/
def remove (a : α) (z : SortedSet α) : SortedSet α := z.filter fun b _ => b ≠ a

theorem notMem_remove (a : α) (z : SortedSet α) :
    a ∉ (z.remove a).entries.map Prod.fst := by
  intro member
  obtain ⟨e, isIn, rfl⟩ := List.mem_map.mp member
  exact of_decide_eq_true (List.mem_filter.mp isIn).2 rfl

/-- `ZADD`. -/
def add (a : α) (score : ℤ) (z : SortedSet α) : SortedSet α where
  entries := (z.remove a).entries ++ [(a, score)]
  nodup := by
    rw [List.map_append]
    refine List.nodup_append.mpr ⟨(z.remove a).nodup, List.nodup_singleton a, ?_⟩
    intro b old c new same
    rw [same, List.mem_singleton.mp new] at old
    exact notMem_remove a z old

/-- `ZADD XX`. -/
def addExisting (a : α) (score : ℤ) (z : SortedSet α) : SortedSet α :=
  if a ∈ z.members then z.add a score else z

variable {z : SortedSet α} {a b : α} {s max : ℤ}

/-! ### Members -/

theorem mem_members : a ∈ z.members ↔ ∃ s, (a, s) ∈ z.entries := by
  simp [members]

@[simp] theorem members_empty : (∅ : SortedSet α).members = ∅ := rfl

theorem card_members (z : SortedSet α) : z.members.card = z.card := by
  rw [members, List.toFinset_card_of_nodup z.nodup, List.length_map]
  rfl

theorem members_filter_subset (keep : α → ℤ → Bool) : (z.filter keep).members ⊆ z.members := by
  intro a member
  obtain ⟨s, isIn⟩ := mem_members.mp member
  exact mem_members.mpr ⟨s, (List.mem_filter.mp isIn).1⟩

theorem members_removeUpTo_subset (max : ℤ) : (z.removeUpTo max).members ⊆ z.members :=
  members_filter_subset _

@[simp] theorem members_remove (a : α) (z : SortedSet α) :
    (z.remove a).members = z.members.erase a := by
  ext b
  simp only [mem_members, Finset.mem_erase, remove, filter, List.mem_filter, decide_eq_true_eq,
    exists_and_right]
  exact and_comm

@[simp] theorem members_add (a : α) (s : ℤ) (z : SortedSet α) :
    (z.add a s).members = insert a z.members := by
  ext b
  have old : (∃ s', (b, s') ∈ (z.remove a).entries) ↔ b ≠ a ∧ b ∈ z.members := by
    rw [← mem_members, members_remove, Finset.mem_erase]
  simp only [mem_members, add, List.mem_append, exists_or, List.mem_singleton, Prod.mk.injEq,
    exists_and_left, exists_eq, and_true, Finset.mem_insert] at old ⊢
  rw [old]
  by_cases same : b = a
  · simp [same]
  · simp [same]

@[simp] theorem members_addExisting (a : α) (s : ℤ) (z : SortedSet α) :
    (z.addExisting a s).members = z.members := by
  unfold addExisting
  split
  · rename_i member
    rw [members_add, Finset.insert_eq_of_mem member]
  · rfl

theorem contains_iff : z.contains a = true ↔ a ∈ z.members := decide_eq_true_iff

@[simp] theorem contains_remove_self : (z.remove a).contains a = false := by
  simp [contains]

@[simp] theorem contains_remove_of_ne (differ : b ≠ a) : (z.remove a).contains b = z.contains b := by
  simp [contains, differ]

@[simp] theorem contains_add_self : (z.add a s).contains a = true := by
  simp [contains]

@[simp] theorem contains_add_of_ne (differ : b ≠ a) : (z.add a s).contains b = z.contains b := by
  simp [contains, differ]

@[simp] theorem contains_addExisting : (z.addExisting a s).contains b = z.contains b := by
  simp [contains]

/-! ### Scores -/

/-- A member has one score. -/
theorem score_eq_some : z.score a = some s ↔ (a, s) ∈ z.entries := by
  unfold score
  obtain ⟨entries, nodup⟩ := z
  dsimp only
  induction entries with
  | nil => simp
  | cons e rest ih =>
      obtain ⟨fresh, later⟩ := List.nodup_cons.mp nodup
      rw [List.lookup_cons, List.mem_cons]
      by_cases same : a = e.1
      · subst same
        have notLater : (e.1, s) ∉ rest := fun isIn => fresh (List.mem_map.mpr ⟨_, isIn, rfl⟩)
        simp only [beq_self_eq_true, Option.some.injEq, notLater, or_false]
        exact ⟨fun same => Prod.ext rfl same.symm, fun same => (congrArg Prod.snd same).symm⟩
      · have notHead : (a, s) ≠ e := fun head => same (congrArg Prod.fst head)
        simp only [beq_false_of_ne same, notHead, false_or]
        exact ih later

theorem score_eq_none : z.score a = none ↔ a ∉ z.members := by
  rw [mem_members, not_exists, Option.eq_none_iff_forall_not_mem]
  exact forall_congr' fun s => not_congr score_eq_some

theorem score_isSome : (z.score a).isSome ↔ a ∈ z.members := by
  rw [Option.isSome_iff_ne_none, ne_eq, score_eq_none, not_not]

theorem score_add (a : α) (s : ℤ) (z : SortedSet α) (b : α) :
    (z.add a s).score b = if b = a then some s else z.score b := by
  refine Option.ext fun s' => ?_
  rw [score_eq_some, add, List.mem_append, List.mem_singleton, Prod.mk.injEq]
  by_cases same : b = a
  · subst same
    have gone : (b, s') ∉ (z.remove b).entries := fun isIn =>
      notMem_remove b z (List.mem_map_of_mem isIn)
    rw [if_pos rfl]
    simp [gone, eq_comm]
  · rw [if_neg same, score_eq_some]
    simp [remove, filter, same]

theorem score_filter (keep : α → ℤ → Bool) (z : SortedSet α) (a : α) :
    (z.filter keep).score a = (z.score a).filter (keep a) := by
  refine Option.ext fun s => ?_
  rw [score_eq_some, Option.filter_eq_some_iff, score_eq_some]
  exact List.mem_filter

theorem score_removeUpTo (max : ℤ) (z : SortedSet α) (a : α) :
    (z.removeUpTo max).score a = (z.score a).filter fun score => max < score :=
  score_filter _ z a

theorem score_remove (a : α) (z : SortedSet α) (b : α) :
    (z.remove a).score b = if b = a then none else z.score b := by
  rw [remove, score_filter]
  by_cases same : b = a
  · simp [same]
  · rw [if_neg same]
    cases z.score b with
    | none => rfl
    | some s => simp [same]

/-! ### Ranges -/

section Ranges

variable {α : Type} [LinearOrder α]

/-- `ZRANGEBYSCORE -inf max LIMIT 0 limit`: by score, and by member where scores are equal. -/
def rangeUpTo (max : ℤ) (limit : ℕ) (z : SortedSet α) : List α :=
  (((z.entries.filter fun e => e.2 ≤ max).insertionSort fun e e' =>
    e.2 < e'.2 ∨ e.2 = e'.2 ∧ e.1 ≤ e'.1).take limit).map Prod.fst

theorem nodup_rangeUpTo (max : ℤ) (limit : ℕ) (z : SortedSet α) :
    (z.rangeUpTo max limit).Nodup := by
  have sorted : List.Perm
      (((z.entries.filter fun e => e.2 ≤ max).insertionSort fun e e' =>
        e.2 < e'.2 ∨ e.2 = e'.2 ∧ e.1 ≤ e'.1).map Prod.fst)
      ((z.entries.filter fun e => e.2 ≤ max).map Prod.fst) :=
    (List.perm_insertionSort _ _).map _
  have all := sorted.nodup_iff.mpr (z.nodup.sublist (List.filter_sublist.map _))
  exact all.sublist ((List.take_sublist _ _).map _)

theorem mem_of_rangeUpTo {max : ℤ} {limit : ℕ} {z : SortedSet α} {a : α}
    (member : a ∈ z.rangeUpTo max limit) :
    ∃ s, (a, s) ∈ z.entries ∧ s ≤ max := by
  obtain ⟨e, taken, rfl⟩ := List.mem_map.mp member
  have isIn := (List.mem_insertionSort _).mp (List.mem_of_mem_take taken)
  obtain ⟨isIn, due⟩ := List.mem_filter.mp isIn
  exact ⟨e.2, isIn, of_decide_eq_true due⟩

end Ranges

end SortedSet

end Redis

/-!
### Keys that expire

A sorted set under a key that `EXPIRE` gives a time to live. Past that time the key is gone, and a
key without members is gone at once, its time to live with it. Times are milliseconds.

`content_update` and `content_expire` say that the time to live does not show while the key is
used, and `content_sublist` that waiting only takes members away.
-/

namespace Redis

/-- What became of a command. -/
inductive Outcome where
  | done
  | failed
  /-- The command took effect and its answer did not arrive. -/
  | lost
  deriving DecidableEq

structure Key (α : Type) where
  set : SortedSet α := ∅
  expireAt : Option ℤ := none

namespace Key

variable {α : Type} {k : Key α} {now later ttl : ℤ}

def expired (k : Key α) (now : ℤ) : Bool := k.expireAt.any fun t => t < now

/-- The members at a time. -/
def content (k : Key α) (now : ℤ) : SortedSet α := if k.expired now then ∅ else k.set

/-- A command that changes the members. -/
def update (k : Key α) (now : ℤ) (f : SortedSet α → SortedSet α) : Key α where
  set := f (k.content now)
  expireAt :=
    if (f (k.content now)).entries.isEmpty || k.expired now then none else k.expireAt

/-- `EXPIRE`, which does nothing to a key that is not there. -/
def expire (k : Key α) (now ttl : ℤ) : Key α :=
  if (k.content now).entries.isEmpty then k
  else { set := k.content now, expireAt := some (now + ttl) }

@[simp] theorem content_update (f : SortedSet α → SortedSet α) :
    (k.update now f).content now = f (k.content now) := by
  have alive : (k.update now f).expired now = false := by
    unfold update expired
    dsimp only
    split
    · rfl
    · rename_i kept
      have notExpired := (Bool.or_eq_false_iff.mp (Bool.eq_false_of_not_eq_true kept)).2
      exact notExpired
  rw [content, alive]
  rfl

theorem content_expire (positive : 0 ≤ ttl) : (k.expire now ttl).content now = k.content now := by
  unfold expire
  split
  · rfl
  · have alive : ¬now + ttl < now := by omega
    simp [content, expired, alive]

/-- What is there after a while was there before. -/
theorem content_sublist (passes : now ≤ later) :
    (k.content later).entries.Sublist (k.content now).entries := by
  unfold content
  by_cases gone : k.expired later
  · rw [if_pos gone]
    exact List.nil_sublist _
  · have alive : ¬k.expired now = true := by
      intro expired
      refine gone ?_
      obtain ⟨t, isTime, before⟩ := (Option.any_eq_true _ _).mp expired
      refine (Option.any_eq_true _ _).mpr ⟨t, isTime, ?_⟩
      have before := of_decide_eq_true before
      exact decide_eq_true (by omega)
    rw [if_neg gone, if_neg alive]

theorem content_subset_set : (k.content now).entries ⊆ k.set.entries := by
  unfold content
  split
  · exact List.nil_subset _
  · exact List.Subset.refl _

end Key

end Redis

/-!
### Hashes

A hash of Redis under a key with a time to live: fields with a value each, no field twice. `HashKey`
is to a hash what `Key` is to a sorted set.
-/

namespace Redis

/-- An order in which a hash lists its values. -/
structure Listing (β : Type) where
  order : List β → List β
  perm : ∀ values, (order values).Perm values

/-- The values as they are stored. -/
def Listing.stored {β : Type} : Listing β := ⟨id, List.Perm.refl⟩

structure Hash (α β : Type) where
  entries : List (α × β) := []
  nodup : (entries.map Prod.fst).Nodup := by exact List.nodup_nil

namespace Hash

variable {α β : Type}

instance : EmptyCollection (Hash α β) := ⟨{}⟩

/-- `HVALS`. -/
def vals (listing : Listing β) (h : Hash α β) : List β := listing.order (h.entries.map Prod.snd)

variable [DecidableEq α]

/-- `HDEL`. -/
def del (fields : List α) (h : Hash α β) : Hash α β where
  entries := h.entries.filter fun e => e.1 ∉ fields
  nodup := h.nodup.sublist (List.filter_sublist.map _)

/-- `HSET`. -/
def set (field : α) (value : β) (h : Hash α β) : Hash α β where
  entries := (h.del [field]).entries ++ [(field, value)]
  nodup := by
    rw [List.map_append]
    refine List.nodup_append.mpr ⟨(h.del [field]).nodup, List.nodup_singleton field, ?_⟩
    intro b old c new same
    rw [same, List.mem_singleton.mp new] at old
    obtain ⟨e, here, is⟩ := List.mem_map.mp old
    have kept := of_decide_eq_true (List.mem_filter.mp here).2
    exact kept (List.mem_singleton.mpr is)

end Hash

structure HashKey (α β : Type) where
  hash : Hash α β := ∅
  expireAt : Option ℤ := none

namespace HashKey

variable {α β : Type} {k : HashKey α β} {now ttl : ℤ}

def expired (k : HashKey α β) (now : ℤ) : Bool := k.expireAt.any fun t => t < now

/-- The fields at a time. -/
def content (k : HashKey α β) (now : ℤ) : Hash α β := if k.expired now then ∅ else k.hash

/-- A command that changes the fields. -/
def update (k : HashKey α β) (now : ℤ) (f : Hash α β → Hash α β) : HashKey α β where
  hash := f (k.content now)
  expireAt :=
    if (f (k.content now)).entries.isEmpty || k.expired now then none else k.expireAt

/-- `PEXPIRE`, which does nothing to a key that is not there. -/
def expire (k : HashKey α β) (now ttl : ℤ) : HashKey α β :=
  if (k.content now).entries.isEmpty then k
  else { hash := k.content now, expireAt := some (now + ttl) }

/-- `PTTL`. -/
def pttl (k : HashKey α β) (now : ℤ) : ℤ :=
  if (k.content now).entries.isEmpty then -2
  else
    match k.expireAt with
    | none => -1
    | some t => t - now

@[simp] theorem content_update (f : Hash α β → Hash α β) :
    (k.update now f).content now = f (k.content now) := by
  have alive : (k.update now f).expired now = false := by
    unfold update expired
    dsimp only
    split
    · rfl
    · rename_i kept
      exact (Bool.or_eq_false_iff.mp (Bool.eq_false_of_not_eq_true kept)).2
  rw [content, alive]
  rfl

theorem content_expire (positive : 0 ≤ ttl) : (k.expire now ttl).content now = k.content now := by
  unfold expire
  split
  · rfl
  · have alive : ¬now + ttl < now := by omega
    simp [content, expired, alive]

/-- What is there after a while was there before. -/
theorem content_sublist {later : ℤ} (passes : now ≤ later) :
    (k.content later).entries.Sublist (k.content now).entries := by
  unfold content
  by_cases gone : k.expired later
  · rw [if_pos gone]
    exact List.nil_sublist _
  · have alive : ¬k.expired now = true := by
      intro expired
      apply gone
      obtain ⟨t, isTime, before⟩ := (Option.any_eq_true _ _).mp expired
      refine (Option.any_eq_true _ _).mpr ⟨t, isTime, ?_⟩
      have before := of_decide_eq_true before
      exact decide_eq_true (by omega)
    rw [if_neg gone, if_neg alive]

end HashKey

namespace Key

/-- `PTTL`. -/
def pttl {α : Type} (k : Key α) (now : ℤ) : ℤ :=
  if (k.content now).entries.isEmpty then -2
  else
    match k.expireAt with
    | none => -1
    | some t => t - now

end Key

end Redis
