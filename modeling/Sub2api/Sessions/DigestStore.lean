import Mathlib.Data.Int.Basic
import Mathlib.Data.List.Basic

/-!
# The store of digest sessions

A flat cache with keys `groupID:prefixHash|digestChain`. `Find` looks a chain up and cuts its last
segment off until it finds something; `Save` stores under the new chain and deletes the key of the
chain that the last `Find` matched. Times are in nanoseconds.
-/

namespace Sub2api.Sessions

structure SessionEntry where
  uuid : String
  accountID : ℤ
  deriving DecidableEq

/-! ### go-cache -/

structure CacheItem where
  entry : SessionEntry
  expiration : ℤ

def CacheItem.Expired (item : CacheItem) (now : ℤ) : Prop :=
  item.expiration > 0 ∧ now > item.expiration

instance (item : CacheItem) (now : ℤ) : Decidable (item.Expired now) :=
  inferInstanceAs (Decidable (_ ∧ _))

/-- `digestSessionTTL`, five minutes. -/
def digestSessionTTL : ℤ := 5 * 60 * 1000000000

/-- The package, as it is documented: what has expired is not found, whether or not the janitor's
`DeleteExpired` has removed it. -/
class GoCache where
  Cache : Type
  new : Cache
  /-- `Set` with the default expiration. -/
  set : Cache → ℤ → String → SessionEntry → Cache
  get : Cache → ℤ → String → Option SessionEntry
  delete : Cache → String → Cache
  deleteExpired : Cache → ℤ → Cache
  get_new (now : ℤ) (key : String) : get new now key = none
  get_set (cache : Cache) (now now' : ℤ) (key key' : String) (entry : SessionEntry) :
    get (set cache now key entry) now' key' =
      if key' = key then
        if CacheItem.Expired { entry := entry, expiration := now + digestSessionTTL } now' then none
        else some entry
      else get cache now' key'
  get_delete (cache : Cache) (now : ℤ) (key key' : String) :
    get (delete cache key) now key' = if key' = key then none else get cache now key'
  get_deleteExpired (cache : Cache) {now now' : ℤ} (later : now ≤ now') (key : String) :
    get (deleteExpired cache now) now' key = get cache now' key

/-! ### The store -/

def buildNS (groupID : ℤ) (prefixHash : String) : String :=
  groupID.repr ++ ":" ++ prefixHash ++ "|"

/-- The chain before its last `-`. -/
def cutSegment (chain : String) : Option String :=
  match chain.toList.reverse.dropWhile (· ≠ '-') with
  | [] => none
  | _ :: rest => some (String.ofList rest.reverse)

theorem cutSegment_length {chain shorter : String} (cut : cutSegment chain = some shorter) :
    shorter.toList.length < chain.toList.length := by
  unfold cutSegment at cut
  split at cut
  · cases cut
  · rename_i dash rest dropped
    cases cut
    have shrinks := (List.dropWhile_suffix (· ≠ '-') (l := chain.toList.reverse)).length_le
    rw [dropped] at shrinks
    simp only [List.length_cons, List.length_reverse, String.toList_ofList] at shrinks ⊢
    omega

variable [GoCache]

abbrev Cache := GoCache.Cache

/-- The loop of `Find`. -/
def findFrom (cache : Cache) (now : ℤ) (ns chain : String) : Option (SessionEntry × String) :=
  match GoCache.get cache now (ns ++ chain) with
  | some entry => some (entry, chain)
  | none =>
      match _cut : cutSegment chain with
      | none => none
      | some shorter => findFrom cache now ns shorter
termination_by chain.toList.length
decreasing_by exact cutSegment_length _cut

/-- `Find`: the entry and the chain that it was found under. -/
def find (cache : Cache) (now : ℤ) (groupID : ℤ) (prefixHash digestChain : String) :
    Option (SessionEntry × String) :=
  if digestChain = "" then none else findFrom cache now (buildNS groupID prefixHash) digestChain

def save (cache : Cache) (now : ℤ) (groupID : ℤ) (prefixHash digestChain : String)
    (entry : SessionEntry) (oldDigestChain : String) : Cache :=
  if digestChain = "" then cache
  else
    let ns := buildNS groupID prefixHash
    let cache := GoCache.set cache now (ns ++ digestChain) entry
    if oldDigestChain ≠ "" ∧ oldDigestChain ≠ digestChain then
      GoCache.delete cache (ns ++ oldDigestChain)
    else cache

/-! ### Runs -/

/-- What can be asked of the store, and the janitor's round. -/
inductive Op
  | save (groupID : ℤ) (prefixHash digestChain : String) (entry : SessionEntry)
      (oldDigestChain : String)
  | find (groupID : ℤ) (prefixHash digestChain : String)
  | deleteExpired

def Op.apply (op : Op) (now : ℤ) (cache : Cache) : Cache :=
  match op with
  | .save groupID prefixHash digestChain entry oldDigestChain =>
      Sessions.save cache now groupID prefixHash digestChain entry oldDigestChain
  | .find _ _ _ => cache
  | .deleteExpired => GoCache.deleteExpired cache now

/-- The cache after some operations, newest first. -/
def cacheAfter : List (ℤ × Op) → Cache
  | [] => GoCache.new
  | (now, op) :: earlier => op.apply now (cacheAfter earlier)

/-! ### What is saved -/

/-- What was saved last under a chain of a namespace and not deleted since. -/
def lastSaved (groupID : ℤ) (prefixHash chain : String) : List (ℤ × Op) → Option CacheItem
  | [] => none
  | (now, .save groupID' prefixHash' digestChain entry oldDigestChain) :: earlier =>
      if digestChain ≠ "" ∧ groupID' = groupID ∧ prefixHash' = prefixHash then
        if digestChain = chain then
          some { entry := entry, expiration := now + digestSessionTTL }
        else if oldDigestChain ≠ "" ∧ oldDigestChain = chain then none
        else lastSaved groupID prefixHash chain earlier
      else lastSaved groupID prefixHash chain earlier
  | _ :: earlier => lastSaved groupID prefixHash chain earlier

/-- The entry that was saved under a chain of a namespace and is neither deleted nor expired. -/
def live (past : List (ℤ × Op)) (now groupID : ℤ) (prefixHash chain : String) :
    Option SessionEntry :=
  match lastSaved groupID prefixHash chain past with
  | none => none
  | some item => if item.Expired now then none else some item.entry

/-- A chain and the segments that follow it. -/
def IsSegmentPrefix (start chain : String) : Prop :=
  start = chain ∨ ∃ rest : String, chain = start ++ "-" ++ rest

/-- A result is what is held under the longest segment prefix that something is held under. -/
def FindsLongest (held : String → Option SessionEntry) (chain : String) :
    Option (SessionEntry × String) → Prop
  | none => ∀ start, IsSegmentPrefix start chain → held start = none
  | some (entry, matched) =>
      IsSegmentPrefix matched chain ∧ held matched = some entry ∧
        ∀ start, IsSegmentPrefix start chain → matched.toList.length < start.toList.length →
          held start = none

end Sub2api.Sessions
