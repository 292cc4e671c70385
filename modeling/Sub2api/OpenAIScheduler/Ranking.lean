import Sub2api.OpenAIScheduler.SelectionOrder

/-!
# The order of a plan is ranked

`order_ranked` says what the order of a plan is: it lists no account twice and leaves out no candidate
unless the pool is cut, better routes come before worse, and a compact request has the accounts known
to support it before the unknown. Support goes before routes, so that the routes of a compact
request are ranked among the accounts of one tier.
-/

namespace Sub2api.OpenAIScheduler

variable {Groups : Type} (routing : Routing Groups)

/-! ### Lists in tiers -/

/-- Candidates that support a compact request, candidates that may, and candidates that do not. -/
structure Tiered (supported unknown retry : List (Candidate Groups)) : Prop where
  two : ∀ c ∈ supported, c.tier = 2
  one : ∀ c ∈ unknown, c.tier = 1
  zero : ∀ c ∈ retry, c.tier = 0

/-- A part of one tier is what a filter for a tier leaves of it. -/
theorem filter_tier {part : List (Candidate Groups)} {tier : ℕ} (same : ∀ c ∈ part, c.tier = tier)
    (tier' : ℕ) : part.filter (·.tier = tier') = if tier = tier' then part else [] := by
  split
  · rename_i here
    rw [List.filter_eq_self]
    intro c mem
    exact decide_eq_true ((same c mem).trans here)
  · rename_i other
    rw [List.filter_eq_nil_iff]
    intro c mem there
    exact other ((same c mem).symm.trans (of_decide_eq_true there))

namespace Tiered

variable {supported unknown retry : List (Candidate Groups)}
  (tiered : Tiered supported unknown retry)

include tiered

theorem descends :
    (supported ++ unknown ++ retry).Pairwise (fun a b => b.tier ≤ a.tier) := by
  rw [List.pairwise_append, List.pairwise_append]
  refine ⟨⟨?_, ?_, ?_⟩, ?_, ?_⟩
  · apply List.pairwise_of_forall_mem_list
    intro a memA b memB
    rw [tiered.two a memA, tiered.two b memB]
  · apply List.pairwise_of_forall_mem_list
    intro a memA b memB
    rw [tiered.one a memA, tiered.one b memB]
  · intro a memA b memB
    rw [tiered.two a memA, tiered.one b memB]
    omega
  · apply List.pairwise_of_forall_mem_list
    intro a memA b memB
    rw [tiered.zero a memA, tiered.zero b memB]
  · intro a memA b memB
    rw [tiered.zero b memB]
    exact Nat.zero_le _

/-- Candidates of different parts differ in their tiers. -/
theorem nodup (first : supported.Nodup) (second : unknown.Nodup) (third : retry.Nodup) :
    (supported ++ unknown ++ retry).Nodup := by
  apply List.Nodup.append
  · apply List.Nodup.append first second
    intro c memA memB
    have same := (tiered.two c memA).symm.trans (tiered.one c memB)
    omega
  · exact third
  · intro c memA memB
    have lowest := tiered.zero c memB
    rcases List.mem_append.mp memA with memA | memA
    · have tier := tiered.two c memA
      omega
    · have tier := tiered.one c memA
      omega

theorem filter_two : (supported ++ unknown ++ retry).filter (·.tier = 2) = supported := by
  rw [List.filter_append, List.filter_append, filter_tier tiered.two, filter_tier tiered.one,
    filter_tier tiered.zero, if_pos rfl, if_neg (by omega), if_neg (by omega), List.append_nil,
    List.append_nil]

theorem filter_one : (supported ++ unknown ++ retry).filter (·.tier = 1) = unknown := by
  rw [List.filter_append, List.filter_append, filter_tier tiered.two, filter_tier tiered.one,
    filter_tier tiered.zero, if_pos rfl, if_neg (by omega), if_neg (by omega), List.append_nil,
    List.nil_append]

end Tiered

/-! ### The order of a plan -/

theorem Candidate.tier_le (c : Candidate Groups) : c.tier ≤ 2 := by
  unfold Candidate.tier Account.openAICompactSupportTier
  split
  · exact le_rfl
  · split
    · exact Nat.zero_le 2
    · split <;> omega

/-- What an order is: it lists candidates and, for a compact request, accounts to retry, none twice;
all candidates when nothing is cut off; a better rank before a worse, for a compact request among
the accounts of one tier; and the tiers of a compact request from the best to the worst. -/
structure Ranked (req : ScheduleRequest) (plan : LoadPlan Groups) (order : List (Candidate Groups)) :
    Prop where
  once : (order.map Candidate.id).Nodup
  members : ∀ c ∈ order,
    c ∈ plan.candidates ∨ (req.requireCompact = true ∧ c ∈ plan.staleSnapshotCompactRetry)
  complete : plan.Whole req → plan.candidates ⊆ order
  byRank : req.requireCompact = false →
    order.Pairwise fun a b =>
      routeRank routing req plan.candidates a ≤ routeRank routing req plan.candidates b
  byRankInTier : req.requireCompact = true → ∀ tier ∈ [1, 2],
    (order.filter (·.tier = tier)).Pairwise fun a b =>
      routeRank routing req (plan.candidates.filter (·.tier = tier)) a ≤
        routeRank routing req (plan.candidates.filter (·.tier = tier)) b
  byTier : req.requireCompact = true → order.Pairwise fun a b => b.tier ≤ a.tier

/-- What `planCandidates` sees to. -/
structure LoadPlan.Proper (plan : LoadPlan Groups) (req : ScheduleRequest) : Prop where
  distinct : ((plan.candidates ++ plan.staleSnapshotCompactRetry).map Candidate.id).Nodup
  positive : plan.candidates ≠ [] → 0 < plan.topK
  supporting : req.requireCompact = true → ∀ c ∈ plan.candidates, c.tier ≠ 0
  retried : req.requireCompact = true → ∀ c ∈ plan.staleSnapshotCompactRetry, c.tier = 0

section Order

variable {routing} {req : ScheduleRequest} {plan : LoadPlan Groups}
  {seed : List (Candidate Groups) → UInt64} {schedulerSnapshot : Bool}

theorem planned_perm (req : ScheduleRequest) (allCandidates : List (Candidate Groups)) :
    (planned req allCandidates ++ staleSnapshotCompactRetry req allCandidates).Perm
      allCandidates := by
  unfold planned staleSnapshotCompactRetry
  split
  · have complement := List.filter_append_perm (fun c : Candidate Groups => decide (c.tier ≠ 0))
      allCandidates
    simpa only [decide_not, Bool.not_not] using complement
  · rw [List.append_nil]

variable {allCandidates : List (Candidate Groups)}

theorem planned_tier (compact : req.requireCompact = true) :
    ∀ c ∈ planned req allCandidates, c.tier ≠ 0 := by
  intro c mem
  rw [planned, if_pos compact] at mem
  exact of_decide_eq_true (List.mem_filter.mp mem).2

theorem retry_tier (compact : req.requireCompact = true) :
    ∀ c ∈ staleSnapshotCompactRetry req allCandidates, c.tier = 0 := by
  intro c mem
  rw [staleSnapshotCompactRetry, if_pos compact] at mem
  exact of_decide_eq_true (List.mem_filter.mp mem).2

theorem planCandidates_proper (distinct : (allCandidates.map Candidate.id).Nodup)
    (score : List (Candidate Groups) → Candidate Groups → ℚ)
    (includeOverflowFallback : List (Candidate Groups) → Bool) (lbTopK : ℤ) :
    (planCandidates req allCandidates score includeOverflowFallback lbTopK).Proper req := by
  have ids := ((planned_perm req allCandidates).map Candidate.id).nodup_iff.mpr distinct
  unfold planCandidates
  dsimp only
  split
  · rename_i none_
    constructor
    · exact ids
    · intro some_
      exact absurd (List.isEmpty_iff.mp none_) some_
    · exact fun compact => planned_tier compact
    · exact fun compact => retry_tier compact
  · constructor
    · rw [List.map_append] at ids ⊢
      rw [List.map_map]
      exact ids
    · intro _
      dsimp only [planTopK]
      split <;> omega
    · intro compact c mem
      obtain ⟨c', mem', rfl⟩ := List.mem_map.mp mem
      exact planned_tier compact c' mem'
    · exact fun compact => retry_tier compact

section Proper

variable (proper : plan.Proper req)

include proper

/-- The pool of one tier, or of all candidates, in order. -/
theorem pool_keeps {pool : List (Candidate Groups)} (part : pool.Sublist plan.candidates) :
    Keeps (plan.Whole req) pool (buildPoolOrder routing req plan seed pool) := by
  apply poolOrder_keeps
  · intro some_
    apply proper.positive
    rintro none_
    exact some_ (List.sublist_nil.mp (none_ ▸ part))
  · have whole := proper.distinct
    rw [List.map_append] at whole
    exact whole.of_append_left.sublist (part.map Candidate.id)

theorem pool_byRank {pool : List (Candidate Groups)} (part : pool.Sublist plan.candidates) :
    (buildPoolOrder routing req plan seed pool).Pairwise
      (fun a b => routeRank routing req pool a ≤ routeRank routing req pool b) := by
  apply poolOrder_byRank
  · intro some_
    apply proper.positive
    rintro none_
    exact some_ (List.sublist_nil.mp (none_ ▸ part))
  · have whole := proper.distinct
    rw [List.map_append] at whole
    exact whole.of_append_left.sublist (part.map Candidate.id)

/-- An order without repetitions has no account twice. -/
theorem once_of_nodup {order : List (Candidate Groups)} (nodup : order.Nodup)
    (inside : order ⊆ plan.candidates ++ plan.staleSnapshotCompactRetry) :
    (order.map Candidate.id).Nodup := by
  apply nodup.map_on
  intro a memA b memB
  exact List.inj_on_of_nodup_map proper.distinct (inside memA) (inside memB)

theorem order_ranked_flat (flat : req.requireCompact = false) :
    Ranked routing req plan (buildOpenAISelectionOrder routing req plan seed schedulerSnapshot) := by
  have keeps : Keeps (plan.Whole req) plan.candidates
      (buildPoolOrder routing req plan seed plan.candidates) :=
    pool_keeps proper (List.Sublist.refl _)
  rw [buildOpenAISelectionOrder, flat, if_neg Bool.false_ne_true]
  constructor
  · exact once_of_nodup proper keeps.nodup fun c mem => List.mem_append_left _ (keeps.subset mem)
  · intro c mem
    exact Or.inl (keeps.subset mem)
  · exact keeps.all
  · intro _
    exact pool_byRank proper (List.Sublist.refl _)
  · rintro compact
    exact absurd (flat.symm.trans compact) Bool.false_ne_true
  · rintro compact
    exact absurd (flat.symm.trans compact) Bool.false_ne_true

/-- The accounts of one tier in order. -/
def tierOrder (routing : Routing Groups) (req : ScheduleRequest) (plan : LoadPlan Groups)
    (seed : List (Candidate Groups) → UInt64) (tier : ℕ) : List (Candidate Groups) :=
  buildPoolOrder routing req plan seed (plan.candidates.filter (·.tier = tier))

theorem tierOrder_keeps (tier : ℕ) :
    Keeps (plan.Whole req) (plan.candidates.filter (·.tier = tier))
      (tierOrder routing req plan seed tier) := pool_keeps proper List.filter_sublist

theorem tierOrder_tier {tier : ℕ} :
    ∀ c ∈ tierOrder routing req plan seed tier, c.tier = tier ∧ c ∈ plan.candidates := by
  intro c mem
  obtain ⟨inside, same⟩ := List.mem_filter.mp ((tierOrder_keeps proper tier).subset mem)
  exact ⟨of_decide_eq_true same, inside⟩

/-- The three parts of a compact order: the supporting accounts, the unknown ones, and those to
retry. -/
theorem compactOrder_eq (compact : req.requireCompact = true) :
    ∃ retry, buildOpenAISelectionOrder routing req plan seed schedulerSnapshot =
        tierOrder routing req plan seed 2 ++ tierOrder routing req plan seed 1 ++ retry ∧
      retry.Nodup ∧ retry ⊆ plan.staleSnapshotCompactRetry := by
  rw [buildOpenAISelectionOrder, if_pos compact]
  refine ⟨_, rfl, ?_⟩
  have stale : plan.staleSnapshotCompactRetry.Nodup := proper.distinct.of_map.of_append_right
  split
  · have perm : (sortOpenAICompactRetryCandidates plan.staleSnapshotCompactRetry).Perm
        plan.staleSnapshotCompactRetry := List.perm_insertionSort _ _
    exact ⟨perm.nodup_iff.mpr stale, perm.subset⟩
  · exact ⟨List.nodup_nil, List.nil_subset _⟩

end Proper

/-- The order of a compact request. -/
theorem order_ranked_compact (proper : plan.Proper req) (compact : req.requireCompact = true) :
    Ranked routing req plan (buildOpenAISelectionOrder routing req plan seed schedulerSnapshot) := by
  obtain ⟨retry, parts, retry_nodup, retry_subset⟩ :
    ∃ retry, buildOpenAISelectionOrder routing req plan seed schedulerSnapshot =
        tierOrder routing req plan seed 2 ++ tierOrder routing req plan seed 1 ++ retry ∧
      retry.Nodup ∧ retry ⊆ plan.staleSnapshotCompactRetry := compactOrder_eq proper compact
  have two : ∀ c ∈ tierOrder routing req plan seed 2, c.tier = 2 ∧ c ∈ plan.candidates :=
    tierOrder_tier proper
  have one : ∀ c ∈ tierOrder routing req plan seed 1, c.tier = 1 ∧ c ∈ plan.candidates :=
    tierOrder_tier proper
  have tiered : Tiered (tierOrder routing req plan seed 2) (tierOrder routing req plan seed 1) retry :=
    ⟨fun c mem => (two c mem).1, fun c mem => (one c mem).1,
      fun c mem => proper.retried compact c (retry_subset mem)⟩
  have members : ∀ c ∈ tierOrder routing req plan seed 2 ++ tierOrder routing req plan seed 1 ++ retry,
      c ∈ plan.candidates ∨ c ∈ plan.staleSnapshotCompactRetry := by
    intro c mem
    rcases List.mem_append.mp mem with mem | mem
    · rcases List.mem_append.mp mem with mem | mem
      · exact Or.inl (two c mem).2
      · exact Or.inl (one c mem).2
    · exact Or.inr (retry_subset mem)
  rw [parts]
  constructor
  · apply once_of_nodup proper
    · exact tiered.nodup (tierOrder_keeps proper 2).nodup (tierOrder_keeps proper 1).nodup retry_nodup
    · intro c mem
      exact List.mem_append.mpr (members c mem)
  · intro c mem
    exact (members c mem).imp_right fun retried => ⟨compact, retried⟩
  · intro whole c mem
    have positive := proper.supporting compact c mem
    have least := c.tier_le
    apply List.mem_append_left
    have tier : c.tier = 2 ∨ c.tier = 1 := by omega
    rcases tier with tier | tier
    · exact List.mem_append_left _ ((tierOrder_keeps proper 2).all whole
        (List.mem_filter.mpr ⟨mem, decide_eq_true tier⟩))
    · exact List.mem_append_right _ ((tierOrder_keeps proper 1).all whole
        (List.mem_filter.mpr ⟨mem, decide_eq_true tier⟩))
  · intro flat
    exact absurd (flat.symm.trans compact) Bool.false_ne_true
  · intro _ tier either
    rw [List.mem_pair] at either
    rcases either with rfl | rfl
    · rw [tiered.filter_one]
      exact pool_byRank proper List.filter_sublist
    · rw [tiered.filter_two]
      exact pool_byRank proper List.filter_sublist
  · intro _
    exact tiered.descends

/-- What the order of a plan is. -/
theorem order_ranked (proper : plan.Proper req) :
    Ranked routing req plan (buildOpenAISelectionOrder routing req plan seed schedulerSnapshot) := by
  cases compact : req.requireCompact with
  | false => exact order_ranked_flat proper compact
  | true => exact order_ranked_compact proper compact

end Order

/-- **The candidate order is the ranking.** The heap selects the first of the sorted candidates, at
least one; and the order of their plan is ranked. -/
theorem selection_ranked {allCandidates : List (Candidate Groups)}
    (distinct : (allCandidates.map Candidate.id).Nodup) :
    (∀ topK, selectTopKOpenAICandidates allCandidates topK =
      (rankedCandidates allCandidates).take (topKOf topK)) ∧
    ∀ (req : ScheduleRequest) (score : List (Candidate Groups) → Candidate Groups → ℚ)
      (includeOverflowFallback : List (Candidate Groups) → Bool) (lbTopK : ℤ)
      (seed : List (Candidate Groups) → UInt64) (schedulerSnapshot : Bool),
      Ranked routing req (planCandidates req allCandidates score includeOverflowFallback lbTopK)
        (buildOpenAISelectionOrder routing req
          (planCandidates req allCandidates score includeOverflowFallback lbTopK) seed
          schedulerSnapshot) := by
  constructor
  · exact selectTopK_eq distinct
  · intro req score includeOverflowFallback lbTopK seed schedulerSnapshot
    exact order_ranked (planCandidates_proper distinct score includeOverflowFallback lbTopK)

namespace Sample

def account (id : ℤ) (compactSupported : Option Bool) : Account Unit where
  id := id
  platform := "openai"
  priority := 0
  lastUsedAt := none
  compactMode := .auto
  compactSupported := compactSupported
  modelAliasGroups := ()

def candidate (id : ℤ) (compactSupported : Option Bool) : Candidate Unit where
  account := account id compactSupported
  loadInfo := ⟨0, 0⟩
  loadKnown := false
  score := 0

/-- Every model has routes, and an account's id is the rank of its route. -/
def idRouting : Routing Unit where
  isTreeGroup _ _ := true
  accountRouteRank _ account _ := account.id

def compactRequest : ScheduleRequest where
  requestedModel := "gpt"
  previousResponseID := ""
  guardianParentAccountID := 0
  stickyAccountID := 0
  stickyPreviousAccountID := 0
  stickyWeighted := false
  escapedStickyAccountID := none
  excludedIDs := []
  requireCompact := true

/-- An account with a better route that may support compact requests, and one that does. -/
def pool : List (Candidate Unit) := [candidate 1 none, candidate 2 (some true)]

theorem selection_ranked_pool :
    selectTopKOpenAICandidates pool 1 = (rankedCandidates pool).take 1 ∧
    Ranked idRouting compactRequest
      (planCandidates compactRequest pool (fun _ _ => 0) (fun _ => false) 7)
      (buildOpenAISelectionOrder idRouting compactRequest
        (planCandidates compactRequest pool (fun _ _ => 0) (fun _ => false) 7) (fun _ => 1)
        true) := by
  have distinct : (pool.map Candidate.id).Nodup := by decide
  constructor
  · exact (selection_ranked idRouting distinct).1 1
  · exact (selection_ranked idRouting distinct).2 compactRequest _ _ 7 _ true

end Sample

/-- A count of none selects one, and support for compact requests goes before the rank of a route. -/
theorem selection_not_literal :
    selectTopKOpenAICandidates Sample.pool 0 ≠ (rankedCandidates Sample.pool).take (min 0 2) ∧
    (selectTopKOpenAICandidates Sample.pool 0).map Candidate.id = [1] ∧
    (buildOpenAISelectionOrder Sample.idRouting Sample.compactRequest
      (planCandidates Sample.compactRequest Sample.pool (fun _ _ => 0) (fun _ => false) 7)
      (fun _ => 1) true).map Candidate.id = [2, 1] ∧
    ¬((buildOpenAISelectionOrder Sample.idRouting Sample.compactRequest
      (planCandidates Sample.compactRequest Sample.pool (fun _ _ => 0) (fun _ => false) 7)
      (fun _ => 1) true).Pairwise fun a b =>
        Sample.idRouting.accountRouteRank () a.account "gpt" ≤
          Sample.idRouting.accountRouteRank () b.account "gpt") := by
  decide +kernel

end Sub2api.OpenAIScheduler
