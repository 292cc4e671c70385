import Sub2api.PlatformQuota.Cache
import Sub2api.Interleave.Owned

/-!
# The platform-quota flusher

A flush pops dirty keys, reads their entries and overwrites the usages of their rows, and gives
the keys back when the write fails. `holdings` is history: the keys that flushes have popped and
have neither written, given back nor dropped, with the entry that was read. `steps` is history
too: what each increment, read and write found.

* `flushOneBatch_owns` — a batch keeps every key dirty, held or written, under clean steps, and
  holds nothing when it ends;
* `flusher_loses_no_update` — while every step is clean, rows are up to date when nothing is dirty
  and nothing is held;
* `flusher_loses_update` — two flushes that overtake each other.
-/

namespace Sub2api.PlatformQuota.Flush

open Database
open Billing (Time)
open Interleave

/-- `UserPlatformQuotaKey`. -/
structure Key where
  userID : ℤ
  platform : String
  deriving DecidableEq

/-- One window of a database row. -/
structure RowWindow where
  usage : Numeric 10 := ⟨0⟩
  start : Option ℤ := none

/-- A row of `user_platform_quotas`. -/
structure Row where
  daily : RowWindow := {}
  weekly : RowWindow := {}
  monthly : RowWindow := {}
  deleted : Bool := false

/-- A key in the hands of a flush, and the entry it has read. -/
structure Holding where
  owner : ℕ
  key : Key
  read : Option UserPlatformQuotaCacheEntry := none

/-- What a step found. -/
inductive StepRecord where
  /-- An increment counted. -/
  | counted (cost : ℚ)
  /-- An entry was read, with all its window starts or not. -/
  | read (started : Bool)
  /-- Snapshots were written; a stale one differs from the entry of now, and the key is neither
  dirty nor in the hands of another flush that has not read it or has read the entry of now. -/
  | wrote (stale : Bool)

structure State where
  redis : Key → Option UserPlatformQuotaCacheEntry
  dirty : Finset Key := ∅
  rows : Table Key Row
  holdings : List Holding := []
  steps : List StepRecord := []

structure Env where
  /-- The call fails. -/
  fails : Bool := false
  /-- The members that `SPOP` picks. -/
  picked : List Key := []

abbrev Op (α : Type) := Prog State Env α

/-! ### The dirty set and the cache -/

/-- `IncrUserPlatformQuotaUsageCache` with `markDirty`, which is on while the flusher is. -/
def incrUserPlatformQuotaUsageCache (key : Key) (cost : ℚ) : Op Unit :=
  .atomic fun env s =>
    if env.fails then ((), s)
    else
      match updateUserPlatformQuotaUsage cost (s.redis key) with
      | (false, _) => ((), s)
      | (true, entry) =>
        ((), { s with
          redis := Function.update s.redis key entry
          dirty := insert key s.dirty
          steps := s.steps ++ [.counted cost] })

/-- `IncrementUserPlatformQuotaUsage`: only positive costs are added. -/
def incrementUserPlatformQuotaUsage (key : Key) (cost : ℚ) : Op Unit :=
  if cost ≤ 0 then pure () else incrUserPlatformQuotaUsageCache key cost

/-- `PopDirtyUserPlatformQuotaKeys`: `SPOP` picks distinct members, as many as it may and can. -/
def popDirtyUserPlatformQuotaKeys (me n : ℕ) : Op (Option (List Key)) :=
  .waiting fun env s =>
    if env.fails then some (none, s)
    else if env.picked.Nodup ∧ (∀ key ∈ env.picked, key ∈ s.dirty) ∧
        env.picked.length = min n s.dirty.card then
      some (some env.picked, { s with
        dirty := s.dirty.filter (· ∉ env.picked)
        holdings := s.holdings ++ env.picked.map fun key => { owner := me, key := key } })
    else none

/-- Every window has a start, so that the entry can be written. -/
def startsSet (e : UserPlatformQuotaCacheEntry) : Bool :=
  e.daily.start.isSome && e.weekly.start.isSome && e.monthly.start.isSome

/-- A holding after its owner read the key: an entry that can be written is kept, anything else
is dropped. -/
def Holding.see (me : ℕ) (key : Key) (entry : Option UserPlatformQuotaCacheEntry) (h : Holding) :
    Option Holding :=
  if h.owner = me ∧ h.key = key ∧ h.read = none then
    match entry with
    | some e => if startsSet e then some { h with read := some e } else none
    | none => none
  else some h

/-- One `HGETALL` of `BatchGetUserPlatformQuotaCache`. -/
def getEntry (me : ℕ) (key : Key) : Op (Option (Option UserPlatformQuotaCacheEntry)) :=
  .atomic fun env s =>
    if env.fails then (none, s)
    else
      (some (s.redis key), { s with
        holdings := s.holdings.filterMap (Holding.see me key (s.redis key))
        steps := s.steps ++
          match s.redis key with
          | some e => [.read (startsSet e)]
          | none => [] })

/-- `BatchGetUserPlatformQuotaCache`, and of what it read what can be written. -/
def batchGetUserPlatformQuotaCache (me : ℕ) :
    List Key → Op (Option (List (Key × UserPlatformQuotaCacheEntry)))
  | [] => pure (some [])
  | key :: rest => do
    let got ← getEntry me key
    match got with
    | none => pure none
    | some entry => do
      let more ← batchGetUserPlatformQuotaCache me rest
      match entry, more with
      | _, none => pure none
      | none, some snaps => pure (some snaps)
      | some e, some snaps => pure (some (if startsSet e then (key, e) :: snaps else snaps))

/-- `ReaddDirtyUserPlatformQuotaKeys`. -/
def readdDirtyUserPlatformQuotaKeys (me : ℕ) (keys : List Key) : Op Unit :=
  .atomic fun _ s =>
    ((), { s with
      dirty := s.dirty ∪ keys.toFinset
      holdings := s.holdings.filter (·.owner ≠ me) })

/-! ### The rows -/

/-- The row after its usages and starts were overwritten. -/
def Row.snapshot (e : UserPlatformQuotaCacheEntry) (row : Row) : Row :=
  { row with
    daily := { usage := .store 10 e.daily.usage, start := e.daily.start }
    weekly := { usage := .store 10 e.weekly.usage, start := e.weekly.start }
    monthly := { usage := .store 10 e.monthly.usage, start := e.monthly.start } }

/-- The multi-row `UPDATE`, which hits live rows alone. -/
def overwrite (snaps : List (Key × UserPlatformQuotaCacheEntry)) (rows : Table Key Row) :
    Table Key Row := fun key =>
  match rows key with
  | none => none
  | some row =>
    if row.deleted then some row
    else
      match snaps.lookup key with
      | some e => some (row.snapshot e)
      | none => some row

def SameUsage (e e' : UserPlatformQuotaCacheEntry) : Prop :=
  e.daily.usage = e'.daily.usage ∧ e.weekly.usage = e'.weekly.usage ∧
    e.monthly.usage = e'.monthly.usage

instance (e e' : UserPlatformQuotaCacheEntry) : Decidable (SameUsage e e') :=
  inferInstanceAs (Decidable (_ ∧ _))

/-- The holding will bring the entry's usage to the row. -/
def Holding.Brings (key : Key) (e : UserPlatformQuotaCacheEntry) (h : Holding) : Prop :=
  h.key = key ∧ ∀ e' ∈ h.read, SameUsage e' e

instance (key : Key) (e : UserPlatformQuotaCacheEntry) (h : Holding) :
    Decidable (h.Brings key e) := inferInstanceAs (Decidable (_ ∧ _))

/-- Whether a snapshot is stale and nobody else will bring a newer one. -/
def staleSnapshot (me : ℕ) (s : State) (key : Key) (read : UserPlatformQuotaCacheEntry) : Bool :=
  match s.redis key with
  | none => false
  | some e => decide (¬SameUsage read e ∧ key ∉ s.dirty ∧
      ¬∃ h ∈ s.holdings, h.owner ≠ me ∧ h.Brings key e)

/-- `BatchSnapshotUsage`, one statement for a batch of at most 6000 rows. -/
def batchSnapshotUsage (me : ℕ) (snaps : List (Key × UserPlatformQuotaCacheEntry)) : Op Bool :=
  .atomic fun env s =>
    if env.fails then (false, s)
    else
      (true, { s with
        rows := overwrite snaps s.rows
        holdings := s.holdings.filter (·.owner ≠ me)
        steps := s.steps ++ [.wrote (snaps.any fun (key, e) => staleSnapshot me s key e)] })

/-! ### The flusher -/

/-- `flushOneBatch`: whether to go on with the next batch. -/
def flushOneBatch (me batchSize : ℕ) : Op Bool := do
  let popped ← popDirtyUserPlatformQuotaKeys me batchSize
  match popped with
  | none => pure false
  | some [] => pure false
  | some (key :: rest) => do
    let got ← batchGetUserPlatformQuotaCache me (key :: rest)
    match got with
    | none => do
      readdDirtyUserPlatformQuotaKeys me (key :: rest)
      pure false
    | some [] => pure (decide (batchSize ≤ (key :: rest).length))
    | some (snap :: snaps) => do
      let written ← batchSnapshotUsage me (snap :: snaps)
      if written then pure (decide (batchSize ≤ (key :: rest).length))
      else do
        readdDirtyUserPlatformQuotaKeys me (key :: rest)
        pure false

def flusherMaxBatchesPerTick : ℕ := 16

/-- Batch after batch, until one says to stop or the tick's limit is reached. -/
def flushBatches (me batchSize : ℕ) : ℕ → Op Unit
  | 0 => pure ()
  | left + 1 => do
    let more ← flushOneBatch me batchSize
    if more then flushBatches me batchSize left else pure ()

/-- `flush`, of a tick or of `Stop`. -/
def flush (me batchSize : ℕ) : Op Unit := flushBatches me batchSize flusherMaxBatchesPerTick

inductive Call where
  | increment (key : Key) (cost : ℚ)
  | flush (batchSize : ℕ)

def Call.program (me : ℕ) : Call → Op Unit
  | .increment key cost => incrementUserPlatformQuotaUsage key cost
  | .flush batchSize => Flush.flush me batchSize

/-- The pool of all calls after a schedule of turns. -/
def run (calls : ℕ → Call) (s : State) (schedule : List (ℕ × Env)) : Pool ℕ (Op Unit) State :=
  Pool.run Prog.step schedule { shared := s, threads := fun me => (calls me).program me }

/-! ### Up-to-date rows -/

/-- The row holds the usage that the entry holds. -/
def Row.Holds (row : Row) (e : UserPlatformQuotaCacheEntry) : Prop :=
  row.daily.usage.value = e.daily.usage ∧ row.weekly.usage.value = e.weekly.usage ∧
    row.monthly.usage.value = e.monthly.usage

instance (row : Row) (e : UserPlatformQuotaCacheEntry) : Decidable (row.Holds e) :=
  inferInstanceAs (Decidable (_ ∧ _))

/-- Every live row holds the usage that its Redis entry holds. -/
def UpToDate (s : State) : Prop :=
  ∀ key e row, s.redis key = some e → s.rows key = some row → row.deleted = false → row.Holds e

/-- Nothing is dirty, and no flush has popped a key and is not done with it. -/
def Quiet (s : State) : Prop := s.dirty = ∅ ∧ s.holdings = []

/-- The cost is on the grid of the columns, the entry that was read has its window starts, no
stale snapshot is written. -/
def StepRecord.Clean : StepRecord → Prop
  | .counted cost => OnGrid 10 cost
  | .read started => started = true
  | .wrote stale => stale = false

instance : (r : StepRecord) → Decidable r.Clean
  | .counted cost => inferInstanceAs (Decidable (OnGrid 10 cost))
  | .read started => inferInstanceAs (Decidable (started = true))
  | .wrote stale => inferInstanceAs (Decidable (stale = false))

/-- Every step so far was clean. -/
def Clean (s : State) : Prop := ∀ r ∈ s.steps, r.Clean

instance (s : State) : Decidable (Quiet s) := inferInstanceAs (Decidable (_ ∧ _))

instance (s : State) : Decidable (Clean s) := inferInstanceAs (Decidable (∀ r ∈ s.steps, r.Clean))

def EntryOnGrid (e : UserPlatformQuotaCacheEntry) : Prop :=
  OnGrid 10 e.daily.usage ∧ OnGrid 10 e.weekly.usage ∧ OnGrid 10 e.monthly.usage

/-- The entry's usage is in its row, or on its way there. -/
def OnItsWay (s : State) (key : Key) (e : UserPlatformQuotaCacheEntry) (row : Row) : Prop :=
  key ∈ s.dirty ∨ row.Holds e ∨ ∃ h ∈ s.holdings, h.Brings key e

/-- An entry with a live row is on the grid of the columns and on its way to the row. -/
structure Flows (s : State) (key : Key) (e : UserPlatformQuotaCacheEntry) (row : Row) : Prop where
  grid : EntryOnGrid e
  way : OnItsWay s key e row

def Flowing (s : State) : Prop :=
  ∀ key e row, s.redis key = some e → s.rows key = some row → row.deleted = false →
    Flows s key e row

/-- The invariant. -/
def Inv (s : State) : Prop := Clean s → Flowing s

/-- What a flush holds. -/
def heldBy (s : State) (me : ℕ) : List Holding := s.holdings.filter (·.owner = me)

instance : Preorder State where
  le s s' := s.steps <+: s'.steps
  le_refl s := List.prefix_refl _
  le_trans _ _ _ first second := first.trans second

theorem Clean.before {s s' : State} (grows : s ≤ s') (clean : Clean s') : Clean s :=
  fun r member => clean r (List.IsPrefix.subset grows member)

section Steps

variable {s s' : State} {me other : ℕ} {key : Key} {e e' : UserPlatformQuotaCacheEntry} {row : Row}

theorem SameUsage.refl (e : UserPlatformQuotaCacheEntry) : SameUsage e e := ⟨rfl, rfl, rfl⟩

/-- What is on its way stays so while the dirty set and the holdings keep it. -/
theorem OnItsWay.keep (way : OnItsWay s key e row) (dirty : key ∈ s.dirty → key ∈ s'.dirty)
    (holdings : ∀ h ∈ s.holdings, h.Brings key e → ∃ h' ∈ s'.holdings, h'.Brings key e) :
    OnItsWay s' key e row := by
  rcases way with isDirty | holds | ⟨h, member, brings⟩
  · exact Or.inl (dirty isDirty)
  · exact Or.inr (Or.inl holds)
  · exact Or.inr (Or.inr (holdings h member brings))

theorem EntryOnGrid.add {cost : ℚ} (grid : EntryOnGrid e) (onGrid : OnGrid 10 cost) :
    EntryOnGrid (e.add cost) :=
  ⟨grid.1.add onGrid, grid.2.1.add onGrid, grid.2.2.add onGrid⟩

/-- A row overwritten with a snapshot of the entry's usage holds it. -/
theorem Row.snapshot_holds (grid : EntryOnGrid e) (same : SameUsage e' e) :
    (row.snapshot e').Holds e := by
  obtain ⟨daily, weekly, monthly⟩ := same
  refine ⟨?_, ?_, ?_⟩
  · rw [← daily]
    exact Numeric.value_store_of_onGrid (daily ▸ grid.1)
  · rw [← weekly]
    exact Numeric.value_store_of_onGrid (weekly ▸ grid.2.1)
  · rw [← monthly]
    exact Numeric.value_store_of_onGrid (monthly ▸ grid.2.2)

theorem see_owner {h h' : Holding} {entry : Option UserPlatformQuotaCacheEntry}
    (seen : h.see me key entry = some h') : h'.owner = h.owner := by
  unfold Holding.see at seen
  split at seen
  · split at seen
    · split at seen
      · cases seen
        rfl
      · cases seen
    · cases seen
  · cases seen
    rfl

/-- Reading a key changes what each flush holds one by one. -/
theorem heldBy_see (holdings : List Holding) (entry : Option UserPlatformQuotaCacheEntry)
    (owner : ℕ) :
    (holdings.filterMap (Holding.see me key entry)).filter (·.owner = owner) =
      (holdings.filter (·.owner = owner)).filterMap (Holding.see me key entry) := by
  induction holdings with
  | nil => rfl
  | cons h rest ih =>
      cases seen : h.see me key entry with
      | none =>
          rw [List.filterMap_cons_none seen, ih, List.filter_cons]
          split
          · rw [List.filterMap_cons_none seen]
          · rfl
      | some h' =>
          rw [List.filterMap_cons_some seen, List.filter_cons, List.filter_cons, ih,
            see_owner seen]
          split
          · rw [List.filterMap_cons_some seen]
          · rfl

/-- A list of holdings that the reading does not concern. -/
theorem filterMap_see_other {holdings : List Holding} {entry : Option UserPlatformQuotaCacheEntry}
    (apart : ∀ h ∈ holdings, ¬(h.owner = me ∧ h.key = key ∧ h.read = none)) :
    holdings.filterMap (Holding.see me key entry) = holdings := by
  induction holdings with
  | nil => rfl
  | cons h rest ih =>
      have seen : h.see me key entry = some h := if_neg (apart h List.mem_cons_self)
      rw [List.filterMap_cons_some seen, ih fun h' member => apart h' (List.mem_cons_of_mem _ member)]

theorem heldBy_see_other (entry : Option UserPlatformQuotaCacheEntry) (differ : other ≠ me) :
    (s.holdings.filterMap (Holding.see me key entry)).filter (·.owner = other) =
      heldBy s other := by
  rw [heldBy_see]
  refine filterMap_see_other fun h member mine => ?_
  have owner := (List.mem_filter.mp member).2
  rw [decide_eq_true_eq, mine.1] at owner
  exact differ owner.symm

theorem filter_release (holdings : List Holding) (differ : other ≠ me) :
    (holdings.filter (·.owner ≠ me)).filter (·.owner = other) =
      holdings.filter (·.owner = other) := by
  rw [List.filter_filter]
  refine List.filter_congr fun h _ => ?_
  by_cases mine : h.owner = other
  · simp [mine, differ]
  · simp [mine]

theorem filter_release_self (holdings : List Holding) :
    (holdings.filter (·.owner ≠ me)).filter (·.owner = me) = [] := by
  simp [List.filter_filter]

end Steps

/-! ### What a flush knows of its holdings -/

/-- The flush holds exactly these. -/
def exactly (me : ℕ) (held : List Holding) : Assertion heldBy me :=
  ⟨fun s => heldBy s me = held, fun _ _ _ same holds => same.trans holds⟩

/-- The flush holds some of these keys. -/
def within (me : ℕ) (keys : List Key) : Assertion heldBy me :=
  ⟨fun s => ∀ h ∈ heldBy s me, h.key ∈ keys, fun _ _ _ same holds => by rwa [same]⟩

def unread (me : ℕ) (key : Key) : Holding := { owner := me, key := key }

def snapped (me : ℕ) (snap : Key × UserPlatformQuotaCacheEntry) : Holding :=
  { owner := me, key := snap.1, read := some snap.2 }

/-- The flush holds the snapshots and, besides, what it held before; they are among the keys. -/
def snapsOf (me : ℕ) (done : List Holding) (keys : List Key)
    (snaps : List (Key × UserPlatformQuotaCacheEntry)) : Assertion heldBy me :=
  ⟨fun s => heldBy s me = done ++ snaps.map (snapped me) ∧ ∀ snap ∈ snaps, snap.1 ∈ keys,
    fun _ _ _ same holds => ⟨same.trans holds.1, holds.2⟩⟩

section Owns

variable {me : ℕ} {K : Assertion heldBy me}

theorem incrUserPlatformQuotaUsageCache_owns {key : Key} {cost : ℚ} :
    Owns Inv heldBy me K (incrUserPlatformQuotaUsageCache key cost) fun _ => K := by
  refine Owns.act fun env s inv holds => ?_
  by_cases fails : env.fails
  · rw [if_pos fails]
    exact ⟨inv, le_rfl, fun _ _ => rfl, holds⟩
  · rw [if_neg fails]
    cases found : s.redis key with
    | none => exact ⟨inv, le_rfl, fun _ _ => rfl, holds⟩
    | some e =>
        cases current : e.current with
        | false =>
            simp only [updateUserPlatformQuotaUsage, current]
            exact ⟨inv, le_rfl, fun _ _ => rfl, holds⟩
        | true =>
            simp only [updateUserPlatformQuotaUsage, current, if_true]
            refine ⟨fun clean => ?_, List.prefix_append _ _, fun _ _ => rfl,
              K.lasts s _ (List.prefix_append _ _) rfl holds⟩
            have before := inv (clean.before (List.prefix_append _ _))
            have onGrid : OnGrid 10 cost :=
              clean _ (List.mem_append_right _ (List.mem_singleton_self _))
            intro key' e' row there isRow live
            by_cases here : key' = key
            · subst here
              simp only [Function.update_self, Option.some.injEq] at there
              subst there
              exact ⟨(before key' e row found isRow live).grid.add onGrid,
                Or.inl (Finset.mem_insert_self _ _)⟩
            · simp only [Function.update_of_ne here] at there
              obtain ⟨grid, way⟩ := before key' e' row there isRow live
              exact ⟨grid, way.keep (Finset.mem_insert_of_mem) fun h member brings =>
                ⟨h, member, brings⟩⟩

theorem popDirtyUserPlatformQuotaKeys_owns {n : ℕ} :
    Owns Inv heldBy me (exactly me []) (popDirtyUserPlatformQuotaKeys me n) fun popped =>
      match popped with
      | none => exactly me []
      | some keys =>
        ⟨fun s => heldBy s me = keys.map (unread me) ∧ keys.Nodup,
          fun _ _ _ same holds => ⟨same.trans holds.1, holds.2⟩⟩ := by
  refine Owns.wait fun env s popped s' inv none popping => ?_
  split at popping
  · cases popping
    exact ⟨inv, le_rfl, fun _ _ => rfl, none⟩
  · split at popping
    · rename_i valid
      obtain ⟨nodup, _, _⟩ := valid
      cases popping
      have none : heldBy s me = [] := none
      refine ⟨fun clean => ?_, List.prefix_refl s.steps, fun other differ => ?_, ?_, nodup⟩
      · intro key e row there isRow live
        obtain ⟨grid, way⟩ := inv clean key e row there isRow live
        refine ⟨grid, ?_⟩
        by_cases picked : key ∈ env.picked
        · exact Or.inr (Or.inr ⟨unread me key,
            List.mem_append_right _ (List.mem_map_of_mem picked), rfl, by simp [unread]⟩)
        · exact way.keep (fun dirty => Finset.mem_filter.mpr ⟨dirty, picked⟩)
            fun h member brings => ⟨h, List.mem_append_left _ member, brings⟩
      · have empty : (env.picked.map fun key => ({ owner := me, key := key } : Holding)).filter
            (·.owner = other) = [] := by
          rw [List.filter_eq_nil_iff]
          intro h member
          obtain ⟨key, _, rfl⟩ := List.mem_map.mp member
          simpa using Ne.symm differ
        simp only [heldBy, List.filter_append, empty, List.append_nil]
      · have all : (env.picked.map (unread me)).filter (·.owner = me) =
            env.picked.map (unread me) := by
          rw [List.filter_eq_self]
          intro h member
          obtain ⟨key, _, rfl⟩ := List.mem_map.mp member
          simp [unread]
        show (s.holdings ++ env.picked.map (unread me)).filter (·.owner = me) = _
        rw [List.filter_append, all, show s.holdings.filter (·.owner = me) = [] from none,
          List.nil_append]
    · cases popping

/-- What a read leaves of the key's holding. -/
def kept (me : ℕ) (key : Key) : Option UserPlatformQuotaCacheEntry → List Holding
  | some e => if startsSet e then [snapped me (key, e)] else []
  | none => []

theorem filterMap_see_unread {me : ℕ} {key : Key} {entry : Option UserPlatformQuotaCacheEntry}
    {rest : List Holding} :
    (unread me key :: rest).filterMap (Holding.see me key entry) =
      kept me key entry ++ rest.filterMap (Holding.see me key entry) := by
  have seen : (unread me key).see me key entry =
      match entry with
      | some e => if startsSet e then some (snapped me (key, e)) else none
      | none => none := if_pos ⟨rfl, rfl, rfl⟩
  rw [List.filterMap_cons, seen]
  cases entry with
  | none => rfl
  | some e => cases starts : startsSet e <;> simp [kept, starts]

theorem getEntry_owns {key : Key} {done rest : List Holding}
    (read : ∀ h ∈ done, h.read ≠ none) (others : ∀ h ∈ rest, h.key ≠ key) :
    Owns Inv heldBy me (exactly me (done ++ unread me key :: rest)) (getEntry me key)
      fun got =>
        match got with
        | none => exactly me (done ++ unread me key :: rest)
        | some entry => exactly me (done ++ kept me key entry ++ rest) := by
  refine Owns.act fun env s inv holds => ?_
  by_cases fails : env.fails
  · rw [if_pos fails]
    exact ⟨inv, le_rfl, fun _ _ => rfl, holds⟩
  · rw [if_neg fails]
    refine ⟨fun clean => ?_, List.prefix_append _ _, fun other differ => ?_, ?_⟩
    · have before := inv (clean.before (List.prefix_append _ _))
      intro key' e row there isRow live
      obtain ⟨grid, way⟩ := before key' e row there isRow live
      refine ⟨grid, way.keep id fun h member brings => ?_⟩
      by_cases mine : h.owner = me ∧ h.key = key ∧ h.read = none
      · -- The holding takes the entry of now, which has its starts.
        obtain ⟨owner, rfl, unseen⟩ := mine
        have here : key' = h.key := brings.1.symm
        subst here
        have there : s.redis h.key = some e := there
        have starts : startsSet e = true :=
          clean (.read (startsSet e)) (List.mem_append_right _ (by rw [there]; simp))
        refine ⟨{ h with read := some e }, List.mem_filterMap.mpr ⟨h, member, ?_⟩, rfl, ?_⟩
        · unfold Holding.see
          rw [if_pos ⟨owner, rfl, unseen⟩, there]
          simp [starts]
        · rintro e' ⟨rfl⟩
          exact SameUsage.refl e
      · exact ⟨h, List.mem_filterMap.mpr ⟨h, member, if_neg mine⟩, brings⟩
    · exact heldBy_see_other (s.redis key) differ
    · have holds : heldBy s me = done ++ unread me key :: rest := holds
      show (s.holdings.filterMap (Holding.see me key (s.redis key))).filter (·.owner = me) = _
      rw [heldBy_see, show s.holdings.filter (·.owner = me) = _ from holds, List.filterMap_append,
        filterMap_see_unread, filterMap_see_other fun h member mine => read h member mine.2.2,
        filterMap_see_other fun h member mine => others h member mine.2.1, List.append_assoc]

/-- Reading the keys one by one turns what is held unread into snapshots. -/
theorem batchGetUserPlatformQuotaCache_owns {keys : List Key} (nodup : keys.Nodup)
    {done : List Holding} (read : ∀ h ∈ done, h.read ≠ none) :
    Owns Inv heldBy me (exactly me (done ++ keys.map (unread me)))
      (batchGetUserPlatformQuotaCache me keys) fun got =>
        match got with
        | none => within me (done.map Holding.key ++ keys)
        | some snaps => snapsOf me done keys snaps := by
  induction keys generalizing done with
  | nil =>
      refine Owns.ret fun s holds => ⟨holds, ?_⟩
      simp
  | cons key rest ih =>
      obtain ⟨fresh, nodup⟩ := List.nodup_cons.mp nodup
      have others : ∀ h ∈ rest.map (unread me), h.key ≠ key := by
        intro h member same
        obtain ⟨key', there, rfl⟩ := List.mem_map.mp member
        have same : key' = key := same
        exact fresh (same ▸ there)
      refine Owns.bind (getEntry_owns read others) fun got => ?_
      cases got with
      | none =>
          refine Owns.ret fun s holds h member => ?_
          rw [show heldBy s me = _ from holds, ← List.map_cons] at member
          rcases List.mem_append.mp member with old | new
          · exact List.mem_append_left _ (List.mem_map_of_mem old)
          · obtain ⟨key', there, rfl⟩ := List.mem_map.mp new
            exact List.mem_append_right _ there
      | some entry =>
          have read' : ∀ h ∈ done ++ kept me key entry, h.read ≠ none := by
            intro h member
            rcases List.mem_append.mp member with old | new
            · exact read h old
            · cases entry with
              | none => cases new
              | some e =>
                  cases starts : startsSet e with
                  | false => simp [kept, starts] at new
                  | true =>
                      simp only [kept, starts, if_true, List.mem_singleton] at new
                      subst new
                      exact Option.some_ne_none e
          refine Owns.bind (ih nodup read') fun more => ?_
          cases more with
          | none =>
              have keys : ∀ h ∈ kept me key entry, h.key = key := by
                intro h member
                cases entry with
                | none => cases member
                | some e =>
                    cases starts : startsSet e with
                    | false => simp [kept, starts] at member
                    | true =>
                        simp only [kept, starts, if_true, List.mem_singleton] at member
                        subst member
                        rfl
              have weaken : ∀ s, (within me ((done ++ kept me key entry).map Holding.key ++
                  rest)).holds s → (within me (done.map Holding.key ++ key :: rest)).holds s := by
                intro s holds h member
                have there := holds h member
                simp only [List.map_append, List.mem_append, List.mem_map] at there
                rcases there with (⟨h', old, same⟩ | ⟨h', new, same⟩) | later
                · exact List.mem_append_left _ (List.mem_map.mpr ⟨h', old, same⟩)
                · rw [← same, keys h' new]
                  exact List.mem_append_right _ List.mem_cons_self
                · exact List.mem_append_right _ (List.mem_cons_of_mem _ later)
              cases entry <;> exact Owns.ret weaken
          | some snaps =>
              cases entry with
              | none =>
                  refine Owns.ret fun s holds => ⟨?_, fun snap member =>
                    List.mem_cons_of_mem _ (holds.2 snap member)⟩
                  simpa [kept] using holds.1
              | some e =>
                  refine Owns.ret fun s holds => ?_
                  obtain ⟨held, among⟩ := holds
                  cases starts : startsSet e with
                  | false =>
                      simp only [Bool.false_eq_true, if_false]
                      refine ⟨?_, fun snap member => List.mem_cons_of_mem _ (among snap member)⟩
                      simpa [kept, starts] using held
                  | true =>
                      simp only [if_true]
                      refine ⟨by simpa [kept, starts] using held, fun snap member => ?_⟩
                      rcases List.mem_cons.mp member with rfl | later
                      · exact List.mem_cons_self
                      · exact List.mem_cons_of_mem _ (among snap later)

theorem readdDirtyUserPlatformQuotaKeys_owns {keys : List Key} :
    Owns Inv heldBy me (within me keys) (readdDirtyUserPlatformQuotaKeys me keys)
      fun _ => exactly me [] := by
  refine Owns.act fun env s inv within => ?_
  refine ⟨fun clean => ?_, List.prefix_refl s.steps, fun other differ =>
    filter_release s.holdings differ, filter_release_self s.holdings⟩
  intro key e row there isRow live
  obtain ⟨grid, way⟩ := inv clean key e row there isRow live
  refine ⟨grid, ?_⟩
  rcases way with dirty | holds | ⟨h, member, brings⟩
  · exact Or.inl (Finset.mem_union_left _ dirty)
  · exact Or.inr (Or.inl holds)
  · by_cases mine : h.owner = me
    · have given : h.key ∈ keys := within h (List.mem_filter.mpr ⟨member, by simpa using mine⟩)
      rw [brings.1] at given
      exact Or.inl (Finset.mem_union_right _ (List.mem_toFinset.mpr given))
    · exact Or.inr (Or.inr ⟨h, List.mem_filter.mpr ⟨member, by simpa using mine⟩, brings⟩)

variable {snaps : List (Key × UserPlatformQuotaCacheEntry)}

theorem mem_of_lookup {key : Key} {e : UserPlatformQuotaCacheEntry}
    (found : snaps.lookup key = some e) : (key, e) ∈ snaps := by
  induction snaps with
  | nil => cases found
  | cons snap rest ih =>
      rw [List.lookup_cons] at found
      split at found
      · rename_i same
        cases found
        rw [beq_iff_eq] at same
        subst same
        exact List.mem_cons_self
      · exact List.mem_cons_of_mem _ (ih found)

theorem lookup_of_mem {key : Key} {e : UserPlatformQuotaCacheEntry} (member : (key, e) ∈ snaps) :
    ∃ e', snaps.lookup key = some e' := by
  induction snaps with
  | nil => cases member
  | cons snap rest ih =>
      rw [List.lookup_cons]
      split
      · exact ⟨_, rfl⟩
      · rename_i other
        rcases List.mem_cons.mp member with rfl | later
        · simp at other
        · exact ih later

theorem batchSnapshotUsage_owns {keys : List Key} :
    Owns Inv heldBy me (snapsOf me [] keys snaps) (batchSnapshotUsage me snaps)
      fun written => if written then exactly me [] else snapsOf me [] keys snaps := by
  refine Owns.act fun env s inv holds => ?_
  by_cases fails : env.fails
  · rw [if_pos fails]
    exact ⟨inv, le_rfl, fun _ _ => rfl, holds⟩
  · rw [if_neg fails]
    refine ⟨fun clean => ?_, List.prefix_append _ _, fun other differ =>
      filter_release s.holdings differ, filter_release_self s.holdings⟩
    have before := inv (clean.before (List.prefix_append _ _))
    have fresh : (snaps.any fun snap => staleSnapshot me s snap.1 snap.2) = false :=
      clean (.wrote _) (List.mem_append_right _ (List.mem_singleton_self _))
    rw [List.any_eq_false] at fresh
    intro key e row there isRow live
    have there : s.redis key = some e := there
    have written : overwrite snaps s.rows key = some row := isRow
    unfold overwrite at written
    cases old : s.rows key with
    | none => rw [old] at written; cases written
    | some before_row =>
        rw [old] at written
        dsimp only at written
        split at written
        · rename_i deleted
          cases written
          rw [live] at deleted
          cases deleted
        · rename_i wasLive
          obtain ⟨grid, way⟩ := before key e before_row there old (by simpa using wasLive)
          refine ⟨grid, ?_⟩
          cases found : snaps.lookup key with
          | some e' =>
              rw [found] at written
              cases written
              have notStale := fresh _ (mem_of_lookup found)
              unfold staleSnapshot at notStale
              rw [there] at notStale
              by_cases same : SameUsage e' e
              · exact Or.inr (Or.inl (Row.snapshot_holds grid same))
              · by_cases dirty : key ∈ s.dirty
                · exact Or.inl dirty
                · have brought : ∃ h ∈ s.holdings, h.owner ≠ me ∧ h.Brings key e := by
                    by_contra nobody
                    exact notStale (decide_eq_true ⟨same, dirty, nobody⟩)
                  obtain ⟨h, member, other, brings⟩ := brought
                  exact Or.inr (Or.inr
                    ⟨h, List.mem_filter.mpr ⟨member, by simpa using other⟩, brings⟩)
          | none =>
              rw [found] at written
              cases written
              refine way.keep id fun h member brings => ?_
              refine ⟨h, List.mem_filter.mpr ⟨member, ?_⟩, brings⟩
              -- What this flush holds it has just written.
              rw [decide_eq_true_eq]
              intro mine
              have held : h ∈ heldBy s me := List.mem_filter.mpr ⟨member, by simpa using mine⟩
              rw [show heldBy s me = snaps.map (snapped me) by simpa using holds.1] at held
              obtain ⟨snap, snapMember, rfl⟩ := List.mem_map.mp held
              have same : snap.1 = key := brings.1
              subst same
              obtain ⟨e', impossible⟩ := lookup_of_mem snapMember
              rw [found] at impossible
              cases impossible

/-- A batch holds nothing when it ends. -/
theorem flushOneBatch_owns {batchSize : ℕ} :
    Owns Inv heldBy me (exactly me []) (flushOneBatch me batchSize) fun _ => exactly me [] := by
  refine Owns.bind popDirtyUserPlatformQuotaKeys_owns fun popped => ?_
  rcases popped with none | keys
  · exact .ret fun _ holds => holds
  · cases keys with
    | nil => exact .ret fun _ holds => holds.1
    | cons key rest =>
        refine Owns.given (fun _ holds => holds.2) fun nodup => ?_
        have reading := @batchGetUserPlatformQuotaCache_owns me (key :: rest) nodup []
          (fun _ member => by cases member)
        refine Owns.bind (reading.mono (fun _ holds => holds.1) fun _ _ post => post) fun got => ?_
        rcases got with none | snaps
        · exact Owns.bind readdDirtyUserPlatformQuotaKeys_owns fun _ => .ret fun _ holds => holds
        · cases snaps with
          | nil => exact .ret fun _ holds => holds.1
          | cons snap snaps =>
              refine Owns.bind batchSnapshotUsage_owns fun written => ?_
              cases written with
              | true => exact .ret fun _ holds => holds
              | false =>
                  have given := @readdDirtyUserPlatformQuotaKeys_owns me (key :: rest)
                  refine Owns.bind (given.mono (fun s holds h member => ?_)
                    fun _ _ post => post) fun _ => .ret fun _ holds => holds
                  obtain ⟨held, among⟩ := holds
                  rw [held] at member
                  obtain ⟨snap', there, rfl⟩ := List.mem_map.mp member
                  exact among snap' there

theorem flushBatches_owns {batchSize left : ℕ} :
    Owns Inv heldBy me (exactly me []) (flushBatches me batchSize left)
      fun _ => exactly me [] := by
  induction left with
  | zero => exact .ret fun _ holds => holds
  | succ left ih =>
      refine Owns.bind flushOneBatch_owns fun more => ?_
      cases more with
      | true => exact ih
      | false => exact .ret fun _ holds => holds

theorem program_owns (call : Call) :
    Owns Inv heldBy me (exactly me []) (call.program me) fun _ => exactly me [] := by
  cases call with
  | increment key cost =>
      show Owns Inv heldBy me _ (incrementUserPlatformQuotaUsage key cost) _
      unfold incrementUserPlatformQuotaUsage
      split
      · exact .ret fun _ holds => holds
      · exact incrUserPlatformQuotaUsageCache_owns
  | flush batchSize => exact flushBatches_owns

end Owns

/-! ### Every run -/

/-- **The flusher loses no update.** From a state in which every entry with a live row is on its
way to it, after every schedule of any increments and flushes, while each step so far was clean:
when nothing is dirty and no flush is at work, every live row is up to date. -/
theorem flusher_loses_no_update (calls : ℕ → Call) (s : State) (flowing : Flowing s)
    (idle : s.holdings = []) (schedule : List (ℕ × Env))
    (clean : Clean (run calls s schedule).shared) (quiet : Quiet (run calls s schedule).shared) :
    UpToDate (run calls s schedule).shared := by
  have inv : Inv (run calls s schedule).shared := (Owns.run
    (c := { shared := s, threads := fun me => (calls me).program me })
    (K := fun me => exactly me []) (fun _ => flowing) (fun me => by simp [exactly, heldBy, idle])
    (fun me => program_owns (calls me)) schedule).1
  intro key e row there isRow live
  rcases (inv clean key e row there isRow live).way with dirty | holds | ⟨h, member, _⟩
  · rw [quiet.1] at dirty
    cases dirty
  · exact holds
  · rw [quiet.2] at member
    cases member

/-! ### Two flushes that overtake each other -/

namespace Sample

def key : Key := { userID := 1, platform := "openai" }

def window : QuotaWindow := { usage := 0, start := some 0 }

/-- One entry, and its row up to date. -/
def start : State :=
  { redis := fun k => if k = key then
      some { daily := window, weekly := window, monthly := window
             schemaVersion := userPlatformQuotaCacheSchemaV1 } else none
    rows := fun k => if k = key then some {} else none }

/-- Two increments and two flushes. -/
def calls : ℕ → Call
  | 0 => .increment key 1
  | 1 => .increment key 2
  | _ => .flush 10

def pick : Env := { picked := [key] }

/-- The first flush reads before the second increment and writes after the second flush. -/
def overtaken : List (ℕ × Env) :=
  [(0, {}), (2, pick), (2, {}), (1, {}), (3, pick), (3, {}), (3, {}), (2, {})]

/-- One flush after the other. -/
def inTurn : List (ℕ × Env) :=
  [(0, {}), (2, pick), (2, {}), (2, {}), (1, {}), (3, pick), (3, {}), (3, {})]

theorem start_flowing : Flowing start := by
  intro key e row there isRow live
  simp only [start] at there isRow
  split at there
  · cases there
    rw [if_pos ‹_›] at isRow
    cases isRow
    exact ⟨⟨onGrid_zero, onGrid_zero, onGrid_zero⟩, Or.inr (Or.inl (by decide +kernel))⟩
  · cases there

end Sample

theorem flusher_loses_no_update_sample :
    UpToDate (run Sample.calls Sample.start Sample.inTurn).shared :=
  flusher_loses_no_update Sample.calls Sample.start Sample.start_flowing rfl Sample.inTurn
    (by decide +kernel) (by decide +kernel)

/-- The older snapshot is written last: all is quiet, and the row lacks the second increment. -/
theorem flusher_loses_update :
    ¬∀ schedule, Quiet (run Sample.calls Sample.start schedule).shared →
      UpToDate (run Sample.calls Sample.start schedule).shared := by
  intro upToDate
  have quiet : Quiet (run Sample.calls Sample.start Sample.overtaken).shared := by
    decide +kernel
  have lost : ∃ e ∈ (run Sample.calls Sample.start Sample.overtaken).shared.redis Sample.key,
      ∃ row ∈ (run Sample.calls Sample.start Sample.overtaken).shared.rows Sample.key,
        row.deleted = false ∧ ¬row.Holds e := by
    decide +kernel
  obtain ⟨e, there, row, isRow, live, differs⟩ := lost
  exact differs (upToDate Sample.overtaken quiet Sample.key e row there isRow live)

end Sub2api.PlatformQuota.Flush
