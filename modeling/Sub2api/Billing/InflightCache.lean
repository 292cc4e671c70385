import Mathlib.Algebra.Order.Field.Rat
import Sub2api.Floats.Significant
import Sub2api.Redis.Key

/-!
# The in-flight reservations of a balance

Three scripts share a sorted set of expiry times and a hash of amounts under one user's keys; each
runs atomically, at the time that its caller read. Amounts are the values of doubles, which the
script adds in the order in which the hash lists them; times are milliseconds. `ledger` is history:
what was admitted and not released, with the expiry that was last given to it.

`purge_holds`, `remove_holds`, `reserve_holds` and `renew_cases` say what each script does to what
the two keys hold.
-/

namespace Sub2api.Billing.Inflight

open Redis
open Significant

variable {α : Type}

/-- `billing:inflight:{uid}` and `billing:inflight_amt:{uid}`. -/
structure Keys (α : Type) where
  expiry : Key α := {}
  amounts : HashKey α ℚ := {}

structure Reservation (α : Type) where
  requestID : α
  amount : ℚ
  expireAt : ℤ

structure State (α : Type) where
  keys : Keys α := {}
  ledger : List (Reservation α) := []

/-- `{allowed, inflight_sum, inflight_count}`, the sum before it is written as text. -/
structure Reply where
  allowed : Bool
  inflightSum : ℚ
  inflightCount : ℕ

/-- The milliseconds of a TTL, at least one. -/
def ttlMs (ttl : ℤ) : ℤ := if ttl ≤ 0 then 1 else ttl

/-! ### The scripts -/

section Scripts

variable [DecidableEq α]

/-- Expired members leave the set and the hash. -/
def Keys.purge (k : Keys α) (now : ℤ) : Keys α :=
  let expired := ((k.expiry.content now).entries.filter fun e => e.2 ≤ now).map Prod.fst
  if expired = [] then k
  else
    { expiry := k.expiry.update now (·.removeUpTo now)
      amounts := k.amounts.update now (·.del expired) }

/-- `reserveInflightBalanceScript`. -/
def Keys.reserve (k : Keys α) (now ttl : ℤ) (hvals : Listing ℚ) (member : α)
    (amount balance : ℚ) : Keys α × Reply :=
  let k := k.purge now
  let sum := doubleSum ((k.amounts.content now).vals hvals)
  let count := (k.expiry.content now).card
  if 0 < count ∧ double (balance - sum) < amount then (k, ⟨false, sum, count⟩)
  else
    ({ expiry := (k.expiry.update now (·.add member (now + ttl))).expire now ttl
       amounts := (k.amounts.update now (·.set member amount)).expire now ttl },
      ⟨true, sum, count⟩)

/-- `ZREM` and `HDEL`. -/
def Keys.remove (k : Keys α) (now : ℤ) (member : α) : Keys α :=
  { expiry := k.expiry.update now (·.remove member)
    amounts := k.amounts.update now (·.del [member]) }

/-- `renewInflightBalanceScript`. -/
def Keys.renew (k : Keys α) (now ttl : ℤ) (member : α) : Keys α × Bool :=
  match (k.expiry.content now).score member with
  | none => (k, false)
  | some score =>
    if score ≤ now then (k.remove now member, false)
    else
      let expiry := k.expiry.update now (·.addExisting member (now + ttl))
      ({ expiry := if expiry.pttl now < ttl then expiry.expire now ttl else expiry
         amounts := if k.amounts.pttl now < ttl then k.amounts.expire now ttl else k.amounts },
        true)

/-- `releaseInflightBalanceScript`. -/
def Keys.release (k : Keys α) (now : ℤ) (member : α) : Keys α := k.remove now member

end Scripts

/-! ### Calls, and what they mean -/

inductive Script (α : Type) where
  | reserve (member : α) (amount balance : ℚ)
  | renew (member : α)
  | release (member : α)

structure Call (α : Type) where
  script : Script α
  now : ℤ
  hvals : Listing ℚ := .stored

def Reservation.live (now : ℤ) (r : Reservation α) : Bool := now < r.expireAt

/-- Those that have not expired. -/
def live (now : ℤ) (ledger : List (Reservation α)) : List (Reservation α) :=
  ledger.filter (Reservation.live now)

section Calls

variable [DecidableEq α]

/-- Of another request. -/
def Reservation.not (member : α) (r : Reservation α) : Bool := r.requestID ≠ member

/-- A live reservation gets a new expiry. -/
def Reservation.renewed (now ttl : ℤ) (member : α) (r : Reservation α) : Reservation α :=
  if r.requestID = member ∧ r.live now then { r with expireAt := now + ttl } else r

/-- `ReserveInflightBalance`, `RenewInflightBalance` or `ReleaseInflightBalance`, with the history. -/
def State.call (ttl : ℤ) (s : State α) (call : Call α) : State α :=
  match call.script with
  | .reserve member amount balance =>
    let (keys, reply) := s.keys.reserve call.now (ttlMs ttl) call.hvals member amount balance
    { keys := keys
      ledger :=
        if reply.allowed then
          s.ledger.filter (Reservation.not member) ++ [⟨member, amount, call.now + ttlMs ttl⟩]
        else s.ledger }
  | .renew member =>
    { keys := (s.keys.renew call.now (ttlMs ttl) member).1
      ledger := s.ledger.map (Reservation.renewed call.now (ttlMs ttl) member) }
  | .release member =>
    { keys := s.keys.release call.now member
      ledger := s.ledger.filter (Reservation.not member) }

def State.run (ttl : ℤ) (s : State α) (calls : List (Call α)) : State α :=
  calls.foldl (State.call ttl) s

end Calls

/-! ### What the keys hold -/

/-- At this time the set and the hash hold these reservations. -/
structure Keys.Holds (k : Keys α) (now : ℤ) (stored : List (Reservation α)) : Prop where
  expiry : (k.expiry.content now).entries.Perm (stored.map fun r => (r.requestID, r.expireAt))
  amounts : (k.amounts.content now).entries.Perm (stored.map fun r => (r.requestID, r.amount))

/-- Both keys expire at a time, when anything is stored. -/
structure Keys.Until (k : Keys α) (now : ℤ) (stored : List (Reservation α)) (until_ : ℤ) : Prop where
  expiry : stored ≠ [] → k.expiry.expireAt = some until_
  amounts : stored ≠ [] → k.amounts.expireAt = some until_
  ahead : stored ≠ [] → now ≤ until_

section Holds

variable {k : Keys α} {now t ttl until_ : ℤ} {stored next : List (Reservation α)}

theorem key_alive {β : Type} {key : Key β} (at_ : key.expireAt = some until_)
    (le : now ≤ until_) : key.expired now = false := by
  unfold Key.expired
  rw [at_]
  exact decide_eq_false (not_lt.mpr le)

theorem hashKey_alive {β γ : Type} {key : HashKey β γ} (at_ : key.expireAt = some until_)
    (le : now ≤ until_) : key.expired now = false := by
  unfold HashKey.expired
  rw [at_]
  exact decide_eq_false (not_lt.mpr le)

theorem holds_nil (expiry : (k.expiry.content now).entries = [])
    (amounts : (k.amounts.content now).entries = []) : k.Holds now [] where
  expiry := by rw [expiry]; exact List.Perm.refl _
  amounts := by rw [amounts]; exact List.Perm.refl _

theorem until_nil : k.Until now [] until_ :=
  ⟨fun some_ => absurd rfl some_, fun some_ => absurd rfl some_, fun some_ => absurd rfl some_⟩

/-- While nothing runs, the keys hold the same, or they have expired. -/
theorem Keys.Holds.later (holds : k.Holds now stored) (ttl_ : k.Until now stored until_)
    (passes : now ≤ t) :
    (k.Holds t stored ∧ k.Until t stored until_) ∨
      (k.Holds t [] ∧ (stored = [] ∨ until_ < t)) := by
  by_cases none_ : stored = []
  · subst none_
    right
    refine ⟨holds_nil ?_ ?_, Or.inl rfl⟩
    · have sub := k.expiry.content_sublist passes
      rw [List.Perm.eq_nil holds.expiry] at sub
      exact List.sublist_nil.mp sub
    · have sub := k.amounts.content_sublist passes
      rw [List.Perm.eq_nil holds.amounts] at sub
      exact List.sublist_nil.mp sub
  · have le := ttl_.ahead none_
    have expiryAt := ttl_.expiry none_
    have amountsAt := ttl_.amounts none_
    by_cases gone : until_ < t
    · right
      have expired : k.expiry.expired t = true := by
        unfold Key.expired
        rw [expiryAt]
        exact decide_eq_true gone
      have expired' : k.amounts.expired t = true := by
        unfold HashKey.expired
        rw [amountsAt]
        exact decide_eq_true gone
      refine ⟨holds_nil ?_ ?_, Or.inr gone⟩
      · rw [Key.content, if_pos expired]
        rfl
      · rw [HashKey.content, if_pos expired']
        rfl
    · left
      rw [not_lt] at gone
      have same : k.expiry.content t = k.expiry.content now := by
        rw [Key.content, Key.content, key_alive expiryAt gone, key_alive expiryAt le]
      have same' : k.amounts.content t = k.amounts.content now := by
        rw [HashKey.content, HashKey.content, hashKey_alive amountsAt gone,
          hashKey_alive amountsAt le]
      constructor
      · constructor
        · rw [same]
          exact holds.expiry
        · rw [same']
          exact holds.amounts
      · exact ⟨ttl_.expiry, ttl_.amounts, fun _ => gone⟩

theorem isEmpty_of_perm {β : Type} {entries : List β} {project : Reservation α → β}
    (perm : entries.Perm (stored.map project)) (some_ : stored ≠ []) : entries.isEmpty = false := by
  rw [List.isEmpty_eq_false_iff]
  intro none_
  rw [none_] at perm
  exact some_ (List.map_eq_nil_iff.mp perm.symm.eq_nil)

/-- A command on each key leaves their time to live while anything is left. -/
theorem Keys.Until.update (ttl_ : k.Until now stored until_)
    {f : SortedSet α → SortedSet α} {g : Hash α ℚ → Hash α ℚ}
    (holds : Keys.Holds { expiry := k.expiry.update now f, amounts := k.amounts.update now g }
      now next) (before : next ≠ [] → stored ≠ []) :
    Keys.Until { expiry := k.expiry.update now f, amounts := k.amounts.update now g } now next
      until_ := by
  constructor
  · intro some_
    have present := isEmpty_of_perm holds.expiry some_
    simp only [Key.content_update] at present
    have alive := key_alive (ttl_.expiry (before some_)) (ttl_.ahead (before some_))
    simp only [Key.update, present, alive, Bool.or_self]
    exact ttl_.expiry (before some_)
  · intro some_
    have present := isEmpty_of_perm holds.amounts some_
    simp only [HashKey.content_update] at present
    have alive := hashKey_alive (ttl_.amounts (before some_)) (ttl_.ahead (before some_))
    simp only [HashKey.update, present, alive, Bool.or_self]
    exact ttl_.amounts (before some_)
  · intro some_
    exact ttl_.ahead (before some_)

/-- Both keys get a time to live. -/
theorem Keys.Holds.expire (holds : k.Holds now stored) (positive : 0 ≤ ttl) :
    Keys.Holds { expiry := k.expiry.expire now ttl, amounts := k.amounts.expire now ttl } now stored ∧
      Keys.Until { expiry := k.expiry.expire now ttl, amounts := k.amounts.expire now ttl } now
        stored (now + ttl) := by
  constructor
  · constructor
    · rw [Key.content_expire positive]
      exact holds.expiry
    · rw [HashKey.content_expire positive]
      exact holds.amounts
  · constructor
    · intro some_
      have present := isEmpty_of_perm holds.expiry some_
      simp [Key.expire, present]
    · intro some_
      have present := isEmpty_of_perm holds.amounts some_
      simp [HashKey.expire, present]
    · intro _
      omega

theorem Keys.Holds.distinct (holds : k.Holds now stored) :
    (stored.map Reservation.requestID).Nodup := by
  have nodup := (holds.expiry.map Prod.fst).nodup_iff.mp (k.expiry.content now).nodup
  rwa [List.map_map] at nodup

theorem Keys.Holds.mem_expiry (holds : k.Holds now stored) {member : α} {score : ℤ} :
    (member, score) ∈ (k.expiry.content now).entries ↔
      ∃ r ∈ stored, r.requestID = member ∧ r.expireAt = score := by
  rw [holds.expiry.mem_iff, List.mem_map]
  simp only [Prod.mk.injEq]

/-- Entries of the stored reservations that pass a test of the entry. -/
theorem filter_perm {β : Type} {entries : List β} {project : Reservation α → β}
    (perm : entries.Perm (stored.map project)) {test : β → Bool} {keep : Reservation α → Bool}
    (same : ∀ r ∈ stored, test (project r) = keep r) :
    (entries.filter test).Perm ((stored.filter keep).map project) := by
  have filtered := perm.filter test
  rw [List.filter_map] at filtered
  have agree : stored.filter (test ∘ project) = stored.filter keep := by
    apply List.filter_congr
    intro r here
    exact same r here
  rwa [agree] at filtered

end Holds

/-! ### What the scripts do to what is stored -/

section Scripts

variable [DecidableEq α] {k : Keys α} {now ttl until_ : ℤ} {stored : List (Reservation α)}
  {member : α}

theorem purge_holds (holds : k.Holds now stored) (ttl_ : k.Until now stored until_) :
    (k.purge now).Holds now (live now stored) ∧ (k.purge now).Until now (live now stored) until_ := by
  have before : live now stored ≠ [] → stored ≠ [] := by
    rintro some_ rfl
    exact some_ rfl
  unfold Keys.purge
  dsimp only
  split
  · rename_i none_
    have all : live now stored = stored := by
      apply List.filter_eq_self.mpr
      intro r here
      have entry := holds.mem_expiry.mpr ⟨r, here, rfl, rfl⟩
      rw [List.map_eq_nil_iff, List.filter_eq_nil_iff] at none_
      have ahead := none_ _ entry
      simpa [Reservation.live] using ahead
    rw [all]
    exact ⟨holds, ttl_⟩
  · generalize expired_ : ((k.expiry.content now).entries.filter fun e => e.2 ≤ now).map Prod.fst =
      expired
    have dead (r : Reservation α) (here : r ∈ stored) : r.requestID ∈ expired ↔ r.expireAt ≤ now := by
      rw [← expired_, List.mem_map]
      constructor
      · rintro ⟨⟨id, score⟩, entry, same⟩
        rw [List.mem_filter, decide_eq_true_eq] at entry
        obtain ⟨r', here', id', score'⟩ := holds.mem_expiry.mp entry.1
        have unique := List.inj_on_of_nodup_map holds.distinct here' here (id'.trans same)
        rw [← unique, score']
        exact entry.2
      · intro le
        refine ⟨(r.requestID, r.expireAt), ?_, rfl⟩
        rw [List.mem_filter, decide_eq_true_eq]
        exact ⟨holds.mem_expiry.mpr ⟨r, here, rfl, rfl⟩, le⟩
    have after : Keys.Holds
        { expiry := k.expiry.update now (·.removeUpTo now)
          amounts := k.amounts.update now (·.del expired) } now (live now stored) := by
      constructor
      · rw [Key.content_update]
        exact filter_perm holds.expiry fun r _ => rfl
      · rw [HashKey.content_update]
        apply filter_perm holds.amounts
        intro r here
        simp [Reservation.live, dead r here]
    exact ⟨after, ttl_.update after before⟩

theorem remove_holds (holds : k.Holds now stored) (ttl_ : k.Until now stored until_) (member : α) :
    (k.remove now member).Holds now (stored.filter (Reservation.not member)) ∧
      (k.remove now member).Until now (stored.filter (Reservation.not member)) until_ := by
  have after : (k.remove now member).Holds now (stored.filter (Reservation.not member)) := by
    constructor
    · change ((k.expiry.update now _).content now).entries.Perm _
      rw [Key.content_update]
      exact filter_perm holds.expiry fun r _ => rfl
    · change ((k.amounts.update now _).content now).entries.Perm _
      rw [HashKey.content_update]
      apply filter_perm holds.amounts
      intro r _
      simp [Reservation.not]
  refine ⟨after, ttl_.update after ?_⟩
  rintro some_ rfl
  exact some_ rfl

/-- The answer of a reservation, by what is stored and alive. -/
theorem reserve_reply (holds : k.Holds now stored) (ttl_ : k.Until now stored until_)
    (hvals : Listing ℚ) (member : α) (amount balance : ℚ) :
    ∃ listed, listed.Perm ((live now stored).map Reservation.amount) ∧
      (k.reserve now ttl hvals member amount balance).2 =
        { allowed := !decide (live now stored ≠ [] ∧
            double (balance - doubleSum listed) < amount)
          inflightSum := doubleSum listed
          inflightCount := (live now stored).length } := by
  obtain ⟨purged, -⟩ := purge_holds holds ttl_
  refine ⟨((k.purge now).amounts.content now).vals hvals, ?_, ?_⟩
  · have vals := purged.amounts.map Prod.snd
    rw [List.map_map] at vals
    exact (hvals.perm _).trans vals
  have count : ((k.purge now).expiry.content now).card = (live now stored).length := by
    have length := purged.expiry.length_eq
    rwa [List.length_map] at length
  have some_ : 0 < (live now stored).length ↔ live now stored ≠ [] := List.length_pos_iff
  unfold Keys.reserve
  dsimp only
  rw [count]
  split
  · rename_i refused
    rw [some_] at refused
    simp [refused]
  · rename_i allowed
    rw [some_] at allowed
    simp only [allowed, decide_false, Bool.not_false]

theorem reserve_holds (holds : k.Holds now stored) (ttl_ : k.Until now stored until_)
    (positive : 0 ≤ ttl) (hvals : Listing ℚ) (member : α) (amount balance : ℚ)
    (allowed : (k.reserve now ttl hvals member amount balance).2.allowed = true) :
    (k.reserve now ttl hvals member amount balance).1.Holds now
        ((live now stored).filter (Reservation.not member) ++ [⟨member, amount, now + ttl⟩]) ∧
      (k.reserve now ttl hvals member amount balance).1.Until now
        ((live now stored).filter (Reservation.not member) ++ [⟨member, amount, now + ttl⟩])
        (now + ttl) := by
  obtain ⟨purged, -⟩ := purge_holds holds ttl_
  revert allowed
  unfold Keys.reserve
  dsimp only
  split
  · intro allowed
    cases allowed
  · intro _
    apply Keys.Holds.expire (k :=
      { expiry := (k.purge now).expiry.update now (·.add member (now + ttl))
        amounts := (k.purge now).amounts.update now (·.set member amount) }) _ positive
    constructor
    · rw [Key.content_update, List.map_append]
      apply List.Perm.append_right
      exact filter_perm purged.expiry fun r _ => rfl
    · rw [HashKey.content_update, List.map_append]
      apply List.Perm.append_right
      apply filter_perm purged.amounts
      intro r _
      simp [Reservation.not]

theorem reserve_refused_holds (holds : k.Holds now stored) (ttl_ : k.Until now stored until_)
    (hvals : Listing ℚ) (member : α) (amount balance : ℚ)
    (refused : (k.reserve now ttl hvals member amount balance).2.allowed = false) :
    (k.reserve now ttl hvals member amount balance).1.Holds now (live now stored) ∧
      (k.reserve now ttl hvals member amount balance).1.Until now (live now stored) until_ := by
  revert refused
  unfold Keys.reserve
  dsimp only
  split
  · intro _
    exact purge_holds holds ttl_
  · intro refused
    cases refused

/-- A reservation and those of other requests are all. -/
theorem perm_of_mem {ledger : List (Reservation α)} {r : Reservation α}
    (distinct : (ledger.map Reservation.requestID).Nodup) (here : r ∈ ledger)
    (id : r.requestID = member) : ledger.Perm (ledger.filter (Reservation.not member) ++ [r]) := by
  have nodup : ledger.Nodup := distinct.of_map
  apply (List.perm_ext_iff_of_nodup nodup _).mpr
  · intro other
    rw [List.mem_append, List.mem_filter, List.mem_singleton]
    by_cases same : other.requestID = member
    · constructor
      · intro there
        exact Or.inr (List.inj_on_of_nodup_map distinct there here (same.trans id.symm))
      · rintro (⟨there, -⟩ | rfl)
        · exact there
        · exact here
    · constructor
      · intro there
        exact Or.inl ⟨there, by simp [Reservation.not, same]⟩
      · rintro (⟨there, -⟩ | rfl)
        · exact there
        · exact here
  · rw [List.nodup_append]
    refine ⟨nodup.filter _, List.nodup_singleton r, ?_⟩
    rintro a there b isR rfl
    rw [List.mem_singleton.mp isR, List.mem_filter] at there
    simp [Reservation.not, id] at there

/-- A renewal finds a live reservation and gives it and the keys a new time, or it renews nothing. -/
theorem renew_cases (holds : k.Holds now stored) (ttl_ : k.Until now stored until_)
    (positive : 0 ≤ ttl) (member : α) :
    ((k.renew now ttl member).2 = false ∧
        (∀ r ∈ stored, r.requestID = member → r.live now = false) ∧
        ∃ stored', (k.renew now ttl member).1.Holds now stored' ∧
          (k.renew now ttl member).1.Until now stored' until_ ∧
          live now stored' = live now stored ∧ ∀ r ∈ stored', r ∈ stored) ∨
      ∃ r ∈ stored, r.requestID = member ∧ r.live now = true ∧
        (k.renew now ttl member).2 = true ∧
        (k.renew now ttl member).1.Holds now
          (stored.filter (Reservation.not member) ++ [{ r with expireAt := now + ttl }]) ∧
        ∃ until', until_ ≤ until' ∧ now + ttl ≤ until' ∧
          (k.renew now ttl member).1.Until now
            (stored.filter (Reservation.not member) ++ [{ r with expireAt := now + ttl }]) until' := by
  unfold Keys.renew
  split
  · rename_i none_
    left
    refine ⟨rfl, ?_, stored, holds, ttl_, rfl, fun r here => here⟩
    intro r here same
    have entry := holds.mem_expiry.mpr ⟨r, here, same, rfl⟩
    rw [← SortedSet.score_eq_some, none_] at entry
    cases entry
  · rename_i score found
    obtain ⟨r, here, id, at_⟩ := holds.mem_expiry.mp (SortedSet.score_eq_some.mp found)
    split
    · rename_i due
      left
      have dead : ∀ r' ∈ stored, r'.requestID = member → r'.live now = false := by
        intro r' here' id'
        have unique := List.inj_on_of_nodup_map holds.distinct here' here (id'.trans id.symm)
        rw [unique, Reservation.live, at_]
        exact decide_eq_false (not_lt.mpr due)
      obtain ⟨removed, ttl'⟩ := remove_holds holds ttl_ member
      refine ⟨rfl, dead, _, removed, ttl', ?_, fun r here => (List.mem_filter.mp here).1⟩
      unfold live
      rw [List.filter_filter]
      apply List.filter_congr
      intro r' here'
      by_cases same : r'.requestID = member
      · rw [dead r' here' same, Bool.false_and]
      · simp [Reservation.not, same]
    · rename_i ahead
      right
      have alive : r.live now = true := by
        rw [Reservation.live, at_]
        exact decide_eq_true (not_le.mp ahead)
      have some_ : stored ≠ [] := List.ne_nil_of_mem here
      refine ⟨r, here, id, alive, rfl, ?_⟩
      dsimp only
      have member_ : member ∈ (k.expiry.content now).members := by
        rw [SortedSet.mem_members]
        exact ⟨score, SortedSet.score_eq_some.mp found⟩
      have perm := perm_of_mem holds.distinct here id
      generalize updated : k.expiry.update now (·.addExisting member (now + ttl)) = expiry
      have renewed : Keys.Holds { expiry := expiry, amounts := k.amounts } now
          (stored.filter (Reservation.not member) ++ [{ r with expireAt := now + ttl }]) := by
        constructor
        · dsimp only
          rw [← updated, Key.content_update, SortedSet.addExisting, if_pos member_, List.map_append,
            List.map_singleton]
          dsimp only
          rw [id]
          apply List.Perm.append_right
          exact filter_perm holds.expiry fun r _ => rfl
        · apply holds.amounts.trans
          have projected := perm.map fun r => (r.requestID, r.amount)
          rw [List.map_append] at projected ⊢
          exact projected
      have le := ttl_.ahead some_
      have amountsAt := ttl_.amounts some_
      have left := isEmpty_of_perm renewed.expiry (by simp)
      have leftAmounts := isEmpty_of_perm renewed.amounts (by simp)
      have expiryAt : expiry.expireAt = some until_ := by
        have alive := key_alive (ttl_.expiry some_) le
        dsimp only at left
        rw [← updated, Key.content_update] at left
        rw [← updated, Key.update, left, alive]
        exact ttl_.expiry some_
      have expiryTtl : expiry.pttl now = until_ - now := by
        dsimp only at left
        simp only [Key.pttl, left, expiryAt, Bool.false_eq_true, if_false]
      have amountsTtl : k.amounts.pttl now = until_ - now := by
        dsimp only at leftAmounts
        simp only [HashKey.pttl, leftAmounts, amountsAt, Bool.false_eq_true, if_false]
      rw [expiryTtl, amountsTtl]
      by_cases short : until_ - now < ttl
      · rw [if_pos short, if_pos short]
        obtain ⟨kept, until'⟩ := renewed.expire positive
        exact ⟨kept, now + ttl, by omega, le_rfl, until'⟩
      · rw [if_neg short, if_neg short]
        exact ⟨renewed, until_, le_rfl, by omega, fun _ => expiryAt, fun _ => amountsAt, fun _ => le⟩

end Scripts

end Sub2api.Billing.Inflight
