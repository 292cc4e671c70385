import Mathlib.Data.UInt
import Sub2api.Go.Strings
import Sub2api.Lists.Groups
import Sub2api.OpenAIScheduler.Candidates

/-!
# The order of selection

`buildOpenAISelectionOrder` puts the candidates of a plan in the order in which they are tried. A
pool is ranked, cut to its best, drawn from by weight or led by a sticky account, and completed by
what the cut left over; a model with routes has a pool for each rank, and a compact request one for
the accounts known to support it and one for the unknown.

Scores and draws are exact rationals. A draw's seed hashes the request and, without a session, the
clock, so that every pool can have its own; `Routing` stands for the rules of the model aliases.
-/

namespace Sub2api.OpenAIScheduler

variable {Groups : Type}

/-! ### Weighted draws -/

/-- The state of `xorshift64*`. -/
structure SelectionRNG where
  state : UInt64

def newOpenAISelectionRNG (seed : UInt64) : SelectionRNG :=
  ⟨if seed = 0 then 0x9e3779b97f4a7c15 else seed⟩

def SelectionRNG.nextUint64 (rng : SelectionRNG) : UInt64 × SelectionRNG :=
  let x := rng.state
  let x := x ^^^ (x >>> 12)
  let x := x ^^^ (x <<< 25)
  let x := x ^^^ (x >>> 27)
  (x * 2685821657736338717, ⟨x⟩)

def SelectionRNG.nextFloat64 (rng : SelectionRNG) : ℚ × SelectionRNG :=
  (((rng.nextUint64.1 >>> 11).toNat : ℚ) / 2 ^ 53, rng.nextUint64.2)

/-- The weights: the scores above the least, plus one. -/
def selectionWeights (pool : List (Candidate Groups)) : List ℚ :=
  let minScore := match pool with
    | [] => 0
    | first :: rest => rest.foldl (fun least c => if c.score < least then c.score else least) first.score
  pool.map fun c =>
    let weight := (c.score - minScore) + 1
    if weight ≤ 0 then 1 else weight

/-- The first position at which the running sum reaches `r`. -/
def reaching (r : ℚ) : ℚ → List ℚ → Option ℕ
  | _, [] => none
  | acc, w :: rest => if r ≤ acc + w then some 0 else (reaching r (acc + w) rest).map (· + 1)

def selectedIdx (rng : SelectionRNG) (weights : List ℚ) : ℕ × SelectionRNG :=
  if weights.sum > 0 then
    ((reaching (rng.nextFloat64.1 * weights.sum) 0 weights).getD 0, rng.nextFloat64.2)
  else (rng.nextUint64.1.toNat % weights.length, rng.nextUint64.2)

/-- The loop: one candidate after the other is drawn and taken out, as many as there are. -/
def draws : ℕ → SelectionRNG → List (Candidate Groups × ℚ) → List (Candidate Groups)
  | 0, _, _ => []
  | count + 1, rng, pool =>
    let (selected, rng) := selectedIdx rng (pool.map Prod.snd)
    match pool[selected]? with
    | none => []
    | some drawn => drawn.1 :: draws count rng (pool.eraseIdx selected)

def buildOpenAIWeightedSelectionOrder (candidates : List (Candidate Groups)) (seed : UInt64) :
    List (Candidate Groups) :=
  if candidates.length ≤ 1 then candidates
  else draws candidates.length (newOpenAISelectionRNG seed)
    (candidates.zip (selectionWeights candidates))

theorem reaching_lt {r acc : ℚ} {weights : List ℚ} {i : ℕ} (found : reaching r acc weights = some i) :
    i < weights.length := by
  induction weights generalizing acc i with
  | nil => cases found
  | cons w rest ih =>
      rw [reaching] at found
      split at found
      · cases found
        exact Nat.zero_lt_succ _
      · obtain ⟨j, later, rfl⟩ := Option.map_eq_some_iff.mp found
        exact Nat.succ_lt_succ (ih later)

/-- A draw is in range. -/
theorem selectedIdx_lt (rng : SelectionRNG) (weights : List ℚ) (some_ : 0 < weights.length) :
    (selectedIdx rng weights).1 < weights.length := by
  unfold selectedIdx
  split
  · dsimp only
    cases found : reaching (rng.nextFloat64.1 * weights.sum) 0 weights with
    | none => exact some_
    | some i => exact reaching_lt found
  · exact Nat.mod_lt _ some_

theorem draws_perm (count : ℕ) : ∀ (rng : SelectionRNG) (pool : List (Candidate Groups × ℚ)),
    pool.length = count → (draws count rng pool).Perm (pool.map Prod.fst) := by
  induction count with
  | zero =>
      intro rng pool length
      rw [List.length_eq_zero_iff.mp length]
      exact List.Perm.nil
  | succ count ih =>
      intro rng pool length
      have inside : (selectedIdx rng (pool.map Prod.snd)).1 < pool.length := by
        have lt := selectedIdx_lt rng (pool.map Prod.snd) (by
          rw [List.length_map]
          omega)
        rwa [List.length_map] at lt
      rw [draws]
      dsimp only
      rw [List.getElem?_eq_getElem inside]
      have rest := ih (selectedIdx rng (pool.map Prod.snd)).2
        (pool.eraseIdx (selectedIdx rng (pool.map Prod.snd)).1)
        (by rw [List.length_eraseIdx_of_lt inside]; omega)
      have whole := (List.getElem_cons_eraseIdx_perm inside).map Prod.fst
      exact (rest.cons _).trans whole

/-- The weights decide the order only. -/
theorem weightedOrder_perm (candidates : List (Candidate Groups)) (seed : UInt64) :
    (buildOpenAIWeightedSelectionOrder candidates seed).Perm candidates := by
  unfold buildOpenAIWeightedSelectionOrder
  split
  · exact List.Perm.refl _
  · have lengths : candidates.length = (selectionWeights candidates).length := by
      unfold selectionWeights
      rw [List.length_map]
    have drawn := draws_perm candidates.length (newOpenAISelectionRNG seed)
      (candidates.zip (selectionWeights candidates)) (by
        rw [List.length_zip, ← lengths, Nat.min_self])
    rwa [List.map_fst_zip (le_of_eq lengths)] at drawn

/-! ### Requests and plans -/

/-- What the scheduler reads of a request. -/
structure ScheduleRequest where
  requestedModel : String
  previousResponseID : String
  guardianParentAccountID : ℤ
  stickyAccountID : ℤ
  stickyPreviousAccountID : ℤ
  stickyWeighted : Bool
  escapedStickyAccountID : Option ℤ
  excludedIDs : List ℤ
  requireCompact : Bool

namespace ScheduleRequest

def excluded (req : ScheduleRequest) (accountID : ℤ) : Bool := accountID ∈ req.excludedIDs

/-- `isUnboundOpenAIAccountScheduleRequest`. -/
def unbound (req : ScheduleRequest) : Bool :=
  Go.trimSpace req.previousResponseID = "" &&
    req.guardianParentAccountID = 0 &&
    (req.stickyAccountID = 0 || req.excluded req.stickyAccountID) &&
    (req.stickyPreviousAccountID = 0 || req.excluded req.stickyPreviousAccountID)

end ScheduleRequest

/-- The rules of the model aliases: whether a model has routes, and where an account's route ranks. -/
structure Routing (Groups : Type) where
  isTreeGroup : Groups → String → Bool
  accountRouteRank : Groups → Account Groups → String → ℤ

structure LoadPlan (Groups : Type) where
  allCandidates : List (Candidate Groups)
  candidates : List (Candidate Groups)
  staleSnapshotCompactRetry : List (Candidate Groups)
  topK : ℤ
  includeOverflowFallback : Bool

/-! ### Ranked pools -/

/-- The first candidate of an account, and the candidates without it. -/
def pick (accountID : ℤ) (ranked : List (Candidate Groups)) :
    Option (Candidate Groups × List (Candidate Groups)) :=
  (ranked.find? (·.id = accountID)).map fun found => (found, ranked.eraseP (·.id = accountID))

/-- An account the request has left comes last. -/
def demoteEscaped (req : ScheduleRequest) (ranked : List (Candidate Groups)) :
    List (Candidate Groups) :=
  match req.escapedStickyAccountID with
  | some accountID =>
      if accountID > 0 then
        match pick accountID ranked with
        | some (found, others) => others ++ [found]
        | none => ranked
      else ranked
  | none => ranked

/-- The first sticky account that is a candidate comes first. -/
def promoteSticky (ranked : List (Candidate Groups)) : List ℤ → Option (List (Candidate Groups))
  | [] => none
  | stickyID :: rest =>
      if stickyID ≤ 0 then promoteSticky ranked rest
      else
        match pick stickyID ranked with
        | some (found, others) => some (found :: others)
        | none => promoteSticky ranked rest

/-- The candidates of a cut pool, in order. -/
def primaryOrder (req : ScheduleRequest) (seed : UInt64) (ranked : List (Candidate Groups)) :
    List (Candidate Groups) :=
  match if req.stickyWeighted then
      promoteSticky ranked [req.stickyPreviousAccountID, req.stickyAccountID]
    else none with
  | some primary => primary
  | none => buildOpenAIWeightedSelectionOrder ranked seed

def buildRankedSelectionOrder (req : ScheduleRequest) (plan : LoadPlan Groups)
    (seed : List (Candidate Groups) → UInt64) (pool : List (Candidate Groups)) :
    List (Candidate Groups) :=
  if pool.isEmpty || plan.topK ≤ 0 then []
  else if req.unbound then demoteEscaped req (selectTopKOpenAICandidates pool pool.length)
  else
    let groupTopK := if plan.topK > pool.length then (pool.length : ℤ) else plan.topK
    let primary := primaryOrder req (seed pool) (selectTopKOpenAICandidates pool groupTopK)
    if plan.includeOverflowFallback = false || groupTopK ≥ pool.length then primary
    else primary ++ rankedCandidates (pool.filter fun c => c.id ∉ primary.map Candidate.id)

/-! ### Pools by rank and by compact support -/

variable (routing : Routing Groups)

/-- The rank of a candidate's route by the aliases of a pool's first account; one rank for all where
the model has no routes. -/
def routeRank (req : ScheduleRequest) (pool : List (Candidate Groups)) (candidate : Candidate Groups) :
    ℤ :=
  match pool with
  | [] => 0
  | first :: _ =>
      if routing.isTreeGroup first.account.modelAliasGroups req.requestedModel then
        routing.accountRouteRank first.account.modelAliasGroups candidate.account req.requestedModel
      else 0

/-- `buildSelectionOrder`. -/
def buildPoolOrder (req : ScheduleRequest) (plan : LoadPlan Groups)
    (seed : List (Candidate Groups) → UInt64) (pool : List (Candidate Groups)) :
    List (Candidate Groups) :=
  match pool with
  | [] => []
  | first :: _ =>
      if routing.isTreeGroup first.account.modelAliasGroups req.requestedModel = false then
        buildRankedSelectionOrder req plan seed pool
      else Lists.byKey (routeRank routing req pool) (buildRankedSelectionOrder req plan seed) pool

/-- The order in which accounts that had no compact support are tried again. -/
def compactRetryLess (a b : Candidate Groups) : Bool :=
  if a.account.priority ≠ b.account.priority then a.account.priority < b.account.priority
  else if a.loadInfo.loadRate ≠ b.loadInfo.loadRate then a.loadInfo.loadRate < b.loadInfo.loadRate
  else if a.loadInfo.waitingCount ≠ b.loadInfo.waitingCount then
    a.loadInfo.waitingCount < b.loadInfo.waitingCount
  else
    match a.account.lastUsedAt, b.account.lastUsedAt with
    | none, some _ => true
    | some _, none => false
    | none, none => false
    | some used, some used' => used < used'

def sortOpenAICompactRetryCandidates (pool : List (Candidate Groups)) : List (Candidate Groups) :=
  pool.insertionSort fun a b => compactRetryLess b a = false

def buildOpenAISelectionOrder (req : ScheduleRequest) (plan : LoadPlan Groups)
    (seed : List (Candidate Groups) → UInt64) (schedulerSnapshot : Bool) : List (Candidate Groups) :=
  if req.requireCompact then
    let supported := plan.candidates.filter (·.tier = 2)
    let unknown := plan.candidates.filter (·.tier = 1)
    buildPoolOrder routing req plan seed supported ++ buildPoolOrder routing req plan seed unknown ++
      if plan.staleSnapshotCompactRetry ≠ [] ∧ schedulerSnapshot = true then
        sortOpenAICompactRetryCandidates plan.staleSnapshotCompactRetry
      else []
  else buildPoolOrder routing req plan seed plan.candidates

/-- A compact request leaves out the accounts without compact support. -/
def planned (req : ScheduleRequest) (allCandidates : List (Candidate Groups)) :
    List (Candidate Groups) :=
  if req.requireCompact then allCandidates.filter (·.tier ≠ 0) else allCandidates

def staleSnapshotCompactRetry (req : ScheduleRequest) (allCandidates : List (Candidate Groups)) :
    List (Candidate Groups) :=
  if req.requireCompact then allCandidates.filter (·.tier = 0) else []

/-- How many of `count` candidates are tried first; `lbTopK` is the configured number. -/
def planTopK (req : ScheduleRequest) (lbTopK : ℤ) (count : ℕ) : ℤ :=
  let topK := if req.unbound then (count : ℤ) else lbTopK
  let topK := if topK > count then (count : ℤ) else topK
  if topK ≤ 0 then 1 else topK

/-- The end of `buildOpenAIAccountLoadPlan`: the candidates are listed, scored and counted. -/
def planCandidates (req : ScheduleRequest) (allCandidates : List (Candidate Groups))
    (score : List (Candidate Groups) → Candidate Groups → ℚ)
    (includeOverflowFallback : List (Candidate Groups) → Bool) (lbTopK : ℤ) : LoadPlan Groups :=
  let candidates := planned req allCandidates
  let stale := staleSnapshotCompactRetry req allCandidates
  if candidates.isEmpty then ⟨allCandidates, candidates, stale, 0, false⟩
  else ⟨allCandidates, candidates.map fun c => { c with score := score candidates c }, stale,
    planTopK req lbTopK candidates.length, includeOverflowFallback candidates⟩

/-! ### A ranked pool keeps its candidates -/

section Pool

variable {req : ScheduleRequest} {plan : LoadPlan Groups} {seed : List (Candidate Groups) → UInt64}
  {pool ranked : List (Candidate Groups)}

theorem pick_perm {accountID : ℤ} {found : Candidate Groups} {others : List (Candidate Groups)}
    (picked : pick accountID ranked = some (found, others)) : (found :: others).Perm ranked := by
  induction ranked generalizing found others with
  | nil => cases picked
  | cons first rest ih =>
      unfold pick at picked ih
      by_cases here : first.id = accountID
      · rw [List.find?_cons_of_pos (by simpa using here),
          List.eraseP_cons_of_pos (by simpa using here)] at picked
        cases picked
        exact List.Perm.refl _
      · rw [List.find?_cons_of_neg (by simpa using here),
          List.eraseP_cons_of_neg (by simpa using here)] at picked
        obtain ⟨_, later, same⟩ := Option.map_eq_some_iff.mp picked
        cases same
        have rest_perm := ih (Option.map_eq_some_iff.mpr ⟨found, later, rfl⟩)
        exact (List.Perm.swap _ _ _).trans (rest_perm.cons first)

theorem demoteEscaped_perm (req : ScheduleRequest) (ranked : List (Candidate Groups)) :
    (demoteEscaped req ranked).Perm ranked := by
  unfold demoteEscaped
  split
  · split
    · split
      · rename_i found others picked
        exact (List.perm_append_singleton _ _).trans (pick_perm picked)
      · exact List.Perm.refl _
    · exact List.Perm.refl _
  · exact List.Perm.refl _

theorem promoteSticky_perm {primary : List (Candidate Groups)} {stickyIDs : List ℤ}
    (promoted : promoteSticky ranked stickyIDs = some primary) : primary.Perm ranked := by
  induction stickyIDs with
  | nil => cases promoted
  | cons stickyID rest ih =>
      rw [promoteSticky] at promoted
      split at promoted
      · exact ih promoted
      · split at promoted
        · rename_i picked
          cases promoted
          exact pick_perm picked
        · exact ih promoted

theorem primaryOrder_perm (req : ScheduleRequest) (seed : UInt64) (ranked : List (Candidate Groups)) :
    (primaryOrder req seed ranked).Perm ranked := by
  unfold primaryOrder
  split
  · rename_i primary promoted
    split at promoted
    · exact promoteSticky_perm promoted
    · cases promoted
  · exact weightedOrder_perm ranked seed

/-- Candidates of a pool with distinct ids are known by their ids. -/
theorem mem_map_id {kept : List (Candidate Groups)} (distinct : (pool.map Candidate.id).Nodup)
    (inside : kept ⊆ pool) {c : Candidate Groups} (mem : c ∈ pool) :
    c.id ∈ kept.map Candidate.id ↔ c ∈ kept := by
  constructor
  · intro there
    obtain ⟨other, kept_, same⟩ := List.mem_map.mp there
    rw [← List.inj_on_of_nodup_map distinct (inside kept_) mem same]
    exact kept_
  · exact List.mem_map_of_mem

/-- What the order of a pool is: candidates of the pool, none twice, and all of them when nothing is
cut off. -/
structure Keeps (complete : Prop) (pool order : List (Candidate Groups)) : Prop where
  subset : order ⊆ pool
  nodup : order.Nodup
  all : complete → pool ⊆ order

theorem Keeps.of_perm {complete : Prop} {order : List (Candidate Groups)}
    (distinct : pool.Nodup) (perm : order.Perm pool) : Keeps complete pool order :=
  ⟨perm.subset, perm.nodup_iff.mpr distinct, fun _ => perm.symm.subset⟩

/-- Nothing is cut off. -/
def LoadPlan.Whole (plan : LoadPlan Groups) (req : ScheduleRequest) : Prop :=
  req.unbound = true ∨ plan.includeOverflowFallback = true

theorem rankedOrder_keeps (some_ : 0 < plan.topK) (distinct : (pool.map Candidate.id).Nodup) :
    Keeps (plan.Whole req) pool (buildRankedSelectionOrder req plan seed pool) := by
  have nodup : pool.Nodup := distinct.of_map
  unfold buildRankedSelectionOrder
  split
  · rename_i none_
    rw [Bool.or_eq_true, decide_eq_true_eq, List.isEmpty_iff] at none_
    rw [none_.resolve_right (not_le.mpr some_)]
    exact Keeps.of_perm List.nodup_nil (List.Perm.refl _)
  · split
    · exact Keeps.of_perm nodup
        ((demoteEscaped_perm req _).trans (selectTopK_perm distinct le_rfl))
    · rename_i bound
      dsimp only
      generalize cut : (if plan.topK > pool.length then (pool.length : ℤ) else plan.topK) = groupTopK
      generalize led : primaryOrder req (seed pool) (selectTopKOpenAICandidates pool groupTopK) =
        primary
      have perm : primary.Perm (selectTopKOpenAICandidates pool groupTopK) :=
        led ▸ primaryOrder_perm _ _ _
      have inside : primary ⊆ pool := fun c mem =>
        (selectTopK_subperm distinct _).subset (perm.subset mem)
      have primary_nodup : primary.Nodup := perm.nodup_iff.mpr (selectTopK_nodup distinct _)
      split
      · rename_i stops
        refine ⟨inside, primary_nodup, fun whole => ?_⟩
        rw [Bool.or_eq_true, decide_eq_true_eq] at stops
        have overflow := whole.resolve_left bound
        have enough := of_decide_eq_true
          (stops.resolve_left (by rw [overflow]; exact Bool.noConfusion))
        exact (perm.trans (selectTopK_perm distinct enough)).symm.subset
      · have overflow := rankedCandidates_perm
          (pool.filter fun c => c.id ∉ primary.map Candidate.id)
        constructor
        · intro c mem
          rcases List.mem_append.mp mem with mem | mem
          · exact inside mem
          · exact List.mem_of_mem_filter (overflow.subset mem)
        · apply List.Nodup.append primary_nodup
          · exact overflow.nodup_iff.mpr (nodup.filter _)
          · intro c first second
            have absent := (List.mem_filter.mp (overflow.subset second)).2
            exact of_decide_eq_true absent (List.mem_map_of_mem first)
        · intro _ c mem
          by_cases here : c ∈ primary
          · exact List.mem_append_left _ here
          · apply List.mem_append_right
            apply overflow.symm.subset
            apply List.mem_filter.mpr
            refine ⟨mem, decide_eq_true ?_⟩
            rw [mem_map_id distinct inside mem]
            exact here

theorem poolOrder_cons (first : Candidate Groups) (rest : List (Candidate Groups)) :
    buildPoolOrder routing req plan seed (first :: rest) =
      if routing.isTreeGroup first.account.modelAliasGroups req.requestedModel = false then
        buildRankedSelectionOrder req plan seed (first :: rest)
      else Lists.byKey (routeRank routing req (first :: rest))
        (buildRankedSelectionOrder req plan seed) (first :: rest) := rfl

variable (req seed) in
/-- The candidates of one rank are ranked as a pool of their own. -/
theorem groupOrder_keeps (some_ : 0 < plan.topK) (distinct : (pool.map Candidate.id).Nodup)
    (key : Candidate Groups → ℤ) (k : ℤ) :
    Keeps (plan.Whole req) (Lists.group key pool k)
      (buildRankedSelectionOrder req plan seed (Lists.group key pool k)) :=
  rankedOrder_keeps some_ (distinct.sublist (List.filter_sublist.map Candidate.id))

theorem poolOrder_keeps (some_ : pool ≠ [] → 0 < plan.topK) (distinct : (pool.map Candidate.id).Nodup) :
    Keeps (plan.Whole req) pool (buildPoolOrder routing req plan seed pool) := by
  cases pool with
  | nil => exact Keeps.of_perm List.nodup_nil (List.Perm.refl _)
  | cons first rest =>
      rw [poolOrder_cons]
      split
      · exact rankedOrder_keeps (some_ (List.cons_ne_nil _ _)) distinct
      · have groups := groupOrder_keeps req seed (some_ (List.cons_ne_nil _ _)) distinct
          (routeRank routing req (first :: rest))
        constructor
        · exact Lists.byKey_subset fun k => (groups k).subset
        · exact Lists.byKey_nodup (fun k => (groups k).subset) fun k => (groups k).nodup
        · intro whole
          exact Lists.subset_byKey fun k => (groups k).all whole

/-- A better rank comes first. -/
theorem poolOrder_byRank (some_ : pool ≠ [] → 0 < plan.topK) (distinct : (pool.map Candidate.id).Nodup) :
    (buildPoolOrder routing req plan seed pool).Pairwise
      (fun a b => routeRank routing req pool a ≤ routeRank routing req pool b) := by
  cases pool with
  | nil => exact List.Pairwise.nil
  | cons first rest =>
      rw [poolOrder_cons]
      split
      · rename_i flat
        apply List.pairwise_of_forall
        intro a b
        simp only [routeRank, flat, Bool.false_eq_true, if_false, le_refl]
      · exact Lists.byKey_pairwise fun k =>
          (groupOrder_keeps req seed (some_ (List.cons_ne_nil _ _)) distinct _ k).subset

end Pool

end Sub2api.OpenAIScheduler
