import Mathlib.Data.Prod.Lex
import Mathlib.Algebra.Order.Ring.Rat
import Sub2api.Heap.TopK

/-!
# The candidates of the scheduler

`isOpenAIAccountCandidateBetter` compares two scored accounts field by field, which is the
lexicographic order of `Candidate.key`. `selectTopKOpenAICandidates` keeps the best of a list in a
heap, and `selectTopK_eq` says that they are the first of the sorted list.

Scores are taken as exact rationals. Candidates with distinct ids have distinct keys, so that
`sort.Slice`, which need not be stable, has one result.
-/

namespace Sub2api.OpenAIScheduler

/-! ### Accounts and candidates -/

/-- `GetOpenAICompactMode`. -/
inductive CompactMode where
  | auto
  | forceOn
  | forceOff
  deriving DecidableEq

/-- What the scheduler reads of an account. `compactSupported` is the flag in the account's extra
data, `Groups` the groups of model aliases the request came with. -/
structure Account (Groups : Type) where
  id : ℤ
  platform : String
  priority : ℤ
  lastUsedAt : Option ℤ
  compactMode : CompactMode
  compactSupported : Option Bool
  modelAliasGroups : Groups
  deriving DecidableEq

variable {Groups : Type}

namespace Account

def isGrok (account : Account Groups) : Bool := account.platform = "grok"

def isOpenAI (account : Account Groups) : Bool := account.platform = "openai"

/-- `none` is an answer that is not known. -/
def openAICompactSupportKnown (account : Account Groups) : Option Bool :=
  if account.isOpenAI then
    match account.compactMode with
    | .forceOn => some true
    | .forceOff => some false
    | .auto => account.compactSupported
  else none

def openAICompactSupportTier (account : Account Groups) : ℕ :=
  if account.isGrok then 2
  else if account.isOpenAI = false then 0
  else
    match account.openAICompactSupportKnown with
    | none => 1
    | some true => 2
    | some false => 0

end Account

structure AccountLoadInfo where
  waitingCount : ℤ
  loadRate : ℤ
  deriving DecidableEq

/-- An account with its load and its score. -/
structure Candidate (Groups : Type) where
  account : Account Groups
  loadInfo : AccountLoadInfo
  loadKnown : Bool
  score : ℚ
  deriving DecidableEq

def Candidate.id (candidate : Candidate Groups) : ℤ := candidate.account.id

def Candidate.tier (candidate : Candidate Groups) : ℕ := candidate.account.openAICompactSupportTier

/-! ### Which candidate is better -/

def isOpenAIAccountCandidateBetter (left right : Candidate Groups) : Bool :=
  if left.score ≠ right.score then left.score > right.score
  else if left.account.priority ≠ right.account.priority then
    left.account.priority < right.account.priority
  else if left.loadInfo.loadRate ≠ right.loadInfo.loadRate then
    left.loadInfo.loadRate < right.loadInfo.loadRate
  else if left.loadInfo.waitingCount ≠ right.loadInfo.waitingCount then
    left.loadInfo.waitingCount < right.loadInfo.waitingCount
  else left.account.id < right.account.id

/-- High scores first, then low priorities, loads, queues and ids. -/
abbrev Key := Lex (ℚᵒᵈ × Lex (ℤ × Lex (ℤ × Lex (ℤ × ℤ))))

def Candidate.key (candidate : Candidate Groups) : Key :=
  toLex (OrderDual.toDual candidate.score, toLex (candidate.account.priority,
    toLex (candidate.loadInfo.loadRate, toLex (candidate.loadInfo.waitingCount, candidate.id))))

theorem better_iff (left right : Candidate Groups) :
    isOpenAIAccountCandidateBetter left right = true ↔ left.key < right.key := by
  unfold isOpenAIAccountCandidateBetter Candidate.key Candidate.id
  simp only [Prod.Lex.toLex_lt_toLex, OrderDual.toDual_lt_toDual, OrderDual.toDual_inj]
  by_cases score : left.score = right.score
  · by_cases priority : left.account.priority = right.account.priority
    · by_cases load : left.loadInfo.loadRate = right.loadInfo.loadRate
      · by_cases waiting : left.loadInfo.waitingCount = right.loadInfo.waitingCount
        · simp [score, priority, load, waiting]
        · simp [score, priority, load, waiting]
      · simp [score, priority, load]
    · simp [score, priority]
  · simp [score]

variable {candidates : List (Candidate Groups)}

/-- Candidates with distinct ids have distinct keys. -/
theorem keys_nodup (distinct : (candidates.map Candidate.id).Nodup) :
    (candidates.map Candidate.key).Nodup := by
  apply List.Nodup.of_map (fun key : Key => (ofLex (ofLex (ofLex (ofLex key).2).2).2).2)
  rw [List.map_map]
  exact distinct

/-- The candidates in the order of `isOpenAIAccountCandidateBetter`. -/
def rankedCandidates (candidates : List (Candidate Groups)) : List (Candidate Groups) :=
  Heap.sorted isOpenAIAccountCandidateBetter candidates

theorem rankedCandidates_perm (candidates : List (Candidate Groups)) :
    (rankedCandidates candidates).Perm candidates := Heap.sorted_perm candidates

/-! ### The best candidates -/

def selectTopKOpenAICandidates (candidates : List (Candidate Groups)) (topK : ℤ) :
    List (Candidate Groups) :=
  if candidates.isEmpty then []
  else
    let topK := if topK ≤ 0 then 1 else topK
    if topK ≥ candidates.length then rankedCandidates candidates
    else rankedCandidates
      (Heap.topK isOpenAIAccountCandidateBetter topK.toNat candidates).toList

/-- How many candidates are selected: at least one. -/
def topKOf (topK : ℤ) : ℕ := (max topK 1).toNat

/-- The heap selects the first of the sorted candidates. -/
theorem selectTopK_eq (distinct : (candidates.map Candidate.id).Nodup) (topK : ℤ) :
    selectTopKOpenAICandidates candidates topK =
      (rankedCandidates candidates).take (topKOf topK) := by
  unfold selectTopKOpenAICandidates
  split
  · rename_i none_
    rw [List.isEmpty_iff.mp none_]
    exact List.take_nil.symm
  · have clamped : (if topK ≤ 0 then 1 else topK) = max topK 1 := by
      split <;> omega
    simp only [clamped]
    split
    · rename_i enough
      rw [List.take_of_length_le]
      rw [(rankedCandidates_perm candidates).length_eq]
      unfold topKOf
      omega
    · exact Heap.sorted_topK better_iff (keys_nodup distinct)

theorem selectTopK_subperm (distinct : (candidates.map Candidate.id).Nodup) (topK : ℤ) :
    (selectTopKOpenAICandidates candidates topK).Subperm candidates := by
  rw [selectTopK_eq distinct]
  exact (List.take_sublist _ _).subperm.trans (rankedCandidates_perm candidates).subperm

theorem selectTopK_nodup (distinct : (candidates.map Candidate.id).Nodup) (topK : ℤ) :
    (selectTopKOpenAICandidates candidates topK).Nodup := by
  rw [selectTopK_eq distinct]
  apply List.Nodup.sublist (List.take_sublist _ _)
  exact (rankedCandidates_perm candidates).nodup_iff.mpr distinct.of_map

theorem selectTopK_perm (distinct : (candidates.map Candidate.id).Nodup) {topK : ℤ}
    (enough : candidates.length ≤ topK) :
    (selectTopKOpenAICandidates candidates topK).Perm candidates := by
  rw [selectTopK_eq distinct, List.take_of_length_le]
  · exact rankedCandidates_perm candidates
  · rw [(rankedCandidates_perm candidates).length_eq]
    unfold topKOf
    omega

end Sub2api.OpenAIScheduler
