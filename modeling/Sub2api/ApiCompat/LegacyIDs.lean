import Mathlib.Data.List.Nodup
import Mathlib.Tactic.Tauto
import Sub2api.ApiCompat.LegacyCalls

/-!
# Legacy ids are fresh, stable and pair first in, first out

`TracksLegacy` relates the state of the assignment to the part of the history that is done, beside its
resolved form; `Extends` relates the states over a history and over a longer one.
-/

namespace Sub2api.ApiCompat

section Assigning

variable {Raw : Type}

/-! ### Calls and answers -/

/-- The id that a resolved legacy call got. -/
def givenID (m : ChatRequestMessage Raw) : String :=
  match m.toolCalls with
  | [] => ""
  | tc :: _ => tc.id

/-- The legacy calls of a history beside its resolved form: name and id. -/
def legacyCalls (done : List (ChatRequestMessage Raw × ChatRequestMessage Raw)) :
    List (String × String) :=
  done.filterMap fun turn => turn.1.legacyCall.map fun call => (call.name, givenID turn.2)

/-- The ids that the legacy results refer to. -/
def legacyAnswers (done : List (ChatRequestMessage Raw × ChatRequestMessage Raw)) : List String :=
  done.filterMap fun turn => if turn.1.IsLegacyResult then some turn.2.toolCallID else none

/-- The ids of the legacy calls of a name that no result refers to, oldest first. -/
def unanswered (done : List (ChatRequestMessage Raw × ChatRequestMessage Raw)) (name : String) :
    List String :=
  ((legacyCalls done).filter fun call => call.1 = name ∧ call.2 ∉ legacyAnswers done).map (·.2)

theorem nextUnused_spec (used : List String) (next : ℕ) :
    next < nextUnused used next ∧ legacyID (nextUnused used next) ∉ used ∧
      ∀ k, next < k → k < nextUnused used next → legacyID k ∈ used := by
  fun_induction nextUnused used next with
  | case1 next taken ih =>
    obtain ⟨past, free, between⟩ := ih
    refine ⟨by omega, free, ?_⟩
    intro k low high
    by_cases first : k = next + 1
    · exact first ▸ taken
    · exact between k (by omega) high
  | case2 next free => exact ⟨by omega, free, by omega⟩

theorem nextUnused_eq {used : List String} {next n : ℕ} (past : next < n)
    (free : legacyID n ∉ used) (between : ∀ k, next < k → k < n → legacyID k ∈ used) :
    nextUnused used next = n := by
  obtain ⟨past', free', between'⟩ := nextUnused_spec used next
  rcases Nat.lt_trichotomy (nextUnused used next) n with less | same | more
  · exact absurd (between _ past' less) free'
  · exact same
  · exact absurd (between' n past more) free

/-- What the state of the assignment knows after the part of a history that is done. -/
structure TracksLegacy (msgs : List (ChatRequestMessage Raw))
    (done : List (ChatRequestMessage Raw × ChatRequestMessage Raw))
    (ids : LegacyFunctionCallIDs Raw) : Prop where
  history : ids.msgs = msgs
  used : ∀ id, id ∈ (legacyCalls done).map (·.2) ∨ id ∈ explicitIDs msgs →
    id ∈ ids.used.getD (explicitIDs msgs)
  distinct : ((legacyCalls done).map (·.2)).Nodup
  fresh : ∀ call ∈ legacyCalls done, call.2 ≠ "" ∧ call.2 ∉ explicitIDs msgs
  answers : ∀ id ∈ legacyAnswers done, id = "" ∨ id ∈ (legacyCalls done).map (·.2)
  pending (name : String) : ids.pending name = unanswered done name

variable {msgs : List (ChatRequestMessage Raw)} {m : ChatRequestMessage Raw}
variable {done : List (ChatRequestMessage Raw × ChatRequestMessage Raw)}
  {ids : LegacyFunctionCallIDs Raw}

theorem legacyResult_not_call (result : m.IsLegacyResult) : m.legacyCall = none := by
  apply if_neg
  rintro ⟨assistant, -⟩
  rw [result.1] at assistant
  exact absurd assistant (by decide)

theorem TracksLegacy.assign {call : ChatFunctionCall} (tracks : TracksLegacy msgs done ids)
    (legacy : m.legacyCall = some call) :
    TracksLegacy msgs
      (done ++ [(m, { m with toolCalls := [{ id := (ids.assign call.name).2, function := call }] })])
      (ids.assign call.name).1 := by
  have result : ¬ m.IsLegacyResult := by
    intro result
    cases legacy.symm.trans (legacyResult_not_call result)
  have calls : legacyCalls (done ++
      [(m, { m with toolCalls := [{ id := (ids.assign call.name).2, function := call }] })]) =
        legacyCalls done ++ [(call.name, (ids.assign call.name).2)] := by
    simp [legacyCalls, legacy, givenID]
  have answers : legacyAnswers (done ++
      [(m, { m with toolCalls := [{ id := (ids.assign call.name).2, function := call }] })]) =
        legacyAnswers done := by
    simp [legacyAnswers, result]
  obtain ⟨-, free, -⟩ := nextUnused_spec (ids.used.getD (explicitIDs msgs)) ids.next
  have id_ : (ids.assign call.name).2 =
      legacyID (nextUnused (ids.used.getD (explicitIDs msgs)) ids.next) := by
    simp [LegacyFunctionCallIDs.assign, tracks.history]
  rw [← id_] at free
  have new : (ids.assign call.name).2 ∉ (legacyCalls done).map (·.2) :=
    fun old => free (tracks.used _ (Or.inl old))
  have nonblank : (ids.assign call.name).2 ≠ "" := by
    rw [id_]
    intro blank
    simpa [legacyID] using congrArg String.toList blank
  have unanswered_ : (ids.assign call.name).2 ∉ legacyAnswers done := by
    intro answered
    rcases tracks.answers _ answered with blank | old
    · exact nonblank blank
    · exact new old
  constructor
  · exact tracks.history
  · intro id known
    rw [calls, List.map_append, List.mem_append] at known
    change id ∈ (ids.assign call.name).2 :: ids.used.getD (explicitIDs ids.msgs)
    rw [tracks.history]
    rcases known with (old | new) | explicit
    · exact List.mem_cons_of_mem _ (tracks.used id (Or.inl old))
    · simp only [List.map_cons, List.map_nil, List.mem_singleton] at new
      exact new ▸ List.mem_cons_self ..
    · exact List.mem_cons_of_mem _ (tracks.used id (Or.inr explicit))
  · rw [calls, List.map_append]
    apply List.Nodup.append tracks.distinct (List.nodup_singleton _)
    simpa [List.disjoint_singleton] using new
  · intro call' known
    rw [calls, List.mem_append, List.mem_singleton] at known
    rcases known with old | rfl
    · exact tracks.fresh call' old
    · exact ⟨nonblank, fun explicit => free (tracks.used _ (Or.inr explicit))⟩
  · intro id answered
    rw [answers] at answered
    rw [calls, List.map_append, List.mem_append]
    exact (tracks.answers id answered).imp_right Or.inl
  · intro name
    have pending := tracks.pending name
    change Function.update ids.pending call.name _ name = _
    unfold unanswered at pending ⊢
    rw [calls, answers, List.filter_append, List.map_append, ← pending]
    by_cases own : name = call.name
    · subst own
      simp [unanswered_]
      rfl
    · have other : call.name ≠ name := fun same => own same.symm
      rw [Function.update_of_ne own]
      simp [other]

/-- A result takes the oldest unanswered call of its name. -/
theorem LegacyFunctionCallIDs.claim_id (ids : LegacyFunctionCallIDs Raw) (name : String) :
    (ids.claim name).2 = (ids.pending name).head?.getD "" := by
  unfold LegacyFunctionCallIDs.claim
  cases ids.pending name <;> rfl

theorem LegacyFunctionCallIDs.claim_rest (ids : LegacyFunctionCallIDs Raw) (name : String) :
    (ids.claim name).1.msgs = ids.msgs ∧ (ids.claim name).1.used = ids.used ∧
      (ids.claim name).1.next = ids.next ∧
      (ids.claim name).1.pending =
        Function.update ids.pending name (ids.pending name).tail := by
  unfold LegacyFunctionCallIDs.claim
  cases queue : ids.pending name with
  | nil =>
    have same : Function.update ids.pending name [] = ids.pending :=
      queue ▸ Function.update_eq_self name ids.pending
    exact ⟨rfl, rfl, rfl, same.symm⟩
  | cons id rest => exact ⟨rfl, rfl, rfl, rfl⟩

theorem TracksLegacy.claim (tracks : TracksLegacy msgs done ids) (result : m.IsLegacyResult) :
    TracksLegacy msgs (done ++ [(m, { m with toolCallID := (ids.claim m.name).2 })])
      (ids.claim m.name).1 := by
  obtain ⟨msgs_, used_, -, pending_⟩ := ids.claim_rest m.name
  have calls : legacyCalls (done ++ [(m, { m with toolCallID := (ids.claim m.name).2 })]) =
      legacyCalls done := by
    simp [legacyCalls, legacyResult_not_call result]
  have answers : legacyAnswers (done ++ [(m, { m with toolCallID := (ids.claim m.name).2 })]) =
      legacyAnswers done ++ [(ids.claim m.name).2] := by
    simp [legacyAnswers, result]
  have own := tracks.pending m.name
  have claimed := ids.claim_id m.name
  rw [own] at claimed
  -- The calls that this result leaves unanswered.
  have left : ∀ name, unanswered (done ++ [(m, { m with toolCallID := (ids.claim m.name).2 })]) name =
      (unanswered done name).filter (· ≠ (ids.claim m.name).2) := by
    intro name
    unfold unanswered
    rw [calls, answers, List.filter_map, List.filter_filter]
    congr 1
    apply List.filter_congr
    intro call _
    rw [Bool.eq_iff_iff]
    simp only [List.mem_append, List.mem_singleton, not_or, Function.comp_apply, ne_eq,
      Bool.and_eq_true, decide_eq_true_eq]
    tauto
  constructor
  · exact msgs_.trans tracks.history
  · rw [calls, used_]
    exact tracks.used
  · rw [calls]
    exact tracks.distinct
  · rw [calls]
    exact tracks.fresh
  · intro id answered
    rw [answers, List.mem_append, List.mem_singleton] at answered
    rw [calls]
    rcases answered with old | rfl
    · exact tracks.answers id old
    · rw [claimed]
      cases queue : unanswered done m.name with
      | nil => exact Or.inl rfl
      | cons id rest =>
        right
        have mem : id ∈ unanswered done m.name := by
          rw [queue]
          exact List.mem_cons_self ..
        obtain ⟨call, kept, rfl⟩ := List.mem_map.mp mem
        exact List.mem_map_of_mem (List.mem_of_mem_filter kept)
  · intro name
    rw [pending_, left, own]
    by_cases same : name = m.name
    · subst same
      rw [Function.update_self, claimed]
      have nodup : (unanswered done m.name).Nodup :=
        tracks.distinct.sublist (List.filter_sublist.map _)
      cases queue : unanswered done m.name with
      | nil => rfl
      | cons id rest =>
        rw [queue] at nodup
        simp only [List.tail_cons, List.head?_cons, Option.getD_some]
        rw [List.filter_cons_of_neg (by simp), List.filter_eq_self.mpr]
        intro id' mem
        apply decide_eq_true
        rintro rfl
        exact (List.nodup_cons.mp nodup).1 mem
    · rw [Function.update_of_ne same, tracks.pending name, List.filter_eq_self.mpr]
      -- A call has one name.
      intro id mem
      apply decide_eq_true
      rintro rfl
      obtain ⟨call, kept, id_⟩ := List.mem_map.mp mem
      obtain ⟨known, named⟩ := List.mem_filter.mp kept
      rw [claimed] at id_
      cases queue : unanswered done m.name with
      | nil =>
        rw [queue] at id_
        exact (tracks.fresh call known).1 id_
      | cons id rest =>
        rw [queue] at id_
        have mem' : id ∈ unanswered done m.name := by
          rw [queue]
          exact List.mem_cons_self ..
        obtain ⟨call', kept', id_'⟩ := List.mem_map.mp mem'
        obtain ⟨known', named'⟩ := List.mem_filter.mp kept'
        have one := List.inj_on_of_nodup_map tracks.distinct known known'
          (id_.trans id_'.symm)
        simp only [decide_eq_true_eq] at named named'
        exact same (named.1.symm.trans (one ▸ named'.1))

/-- A message without a legacy call or result changes nothing. -/
theorem TracksLegacy.pass (tracks : TracksLegacy msgs done ids) (call : m.legacyCall = none)
    (result : ¬ m.IsLegacyResult) :
    TracksLegacy msgs (done ++ [(m, m)]) ids := by
  have calls : legacyCalls (done ++ [(m, m)]) = legacyCalls done := by simp [legacyCalls, call]
  have answers : legacyAnswers (done ++ [(m, m)]) = legacyAnswers done := by
    simp [legacyAnswers, result]
  constructor
  · exact tracks.history
  · rw [calls]
    exact tracks.used
  · rw [calls]
    exact tracks.distinct
  · rw [calls]
    exact tracks.fresh
  · rw [calls, answers]
    exact tracks.answers
  · intro name
    unfold unanswered
    rw [calls, answers]
    exact tracks.pending name

theorem TracksLegacy.step (tracks : TracksLegacy msgs done ids) (m : ChatRequestMessage Raw) :
    TracksLegacy msgs (done ++ [(m, (ids.resolve m).2)]) (ids.resolve m).1 := by
  unfold LegacyFunctionCallIDs.resolve
  split
  · rename_i call legacy
    exact tracks.assign legacy
  · rename_i none_
    split
    · rename_i result
      exact tracks.claim result
    · rename_i result
      exact tracks.pass none_ result

/-- The state after some messages. -/
def LegacyFunctionCallIDs.after (ids : LegacyFunctionCallIDs Raw)
    (msgs : List (ChatRequestMessage Raw)) : LegacyFunctionCallIDs Raw :=
  msgs.foldl (fun ids m => (ids.resolve m).1) ids

theorem TracksLegacy.run {msgs rest : List (ChatRequestMessage Raw)}
    (tracks : TracksLegacy msgs done ids) :
    TracksLegacy msgs (done ++ rest.zip (ids.resolveAll rest)) (ids.after rest) := by
  induction rest generalizing done ids with
  | nil => simpa [LegacyFunctionCallIDs.after] using tracks
  | cons m rest ih =>
    have next := ih (tracks.step m)
    rwa [List.append_assoc] at next

theorem TracksLegacy.start (msgs : List (ChatRequestMessage Raw)) :
    TracksLegacy msgs [] { msgs := msgs } where
  history := rfl
  used id known := by simpa [legacyCalls] using known
  distinct := by simp [legacyCalls]
  fresh := by simp [legacyCalls]
  answers := by simp [legacyAnswers]
  pending name := rfl

theorem resolveAll_append (ids : LegacyFunctionCallIDs Raw)
    (first second : List (ChatRequestMessage Raw)) :
    ids.resolveAll (first ++ second) =
      ids.resolveAll first ++ (ids.after first).resolveAll second := by
  induction first generalizing ids with
  | nil => rfl
  | cons m rest ih => exact congrArg _ (ih _)

theorem length_resolveAll (ids : LegacyFunctionCallIDs Raw)
    (msgs : List (ChatRequestMessage Raw)) : (ids.resolveAll msgs).length = msgs.length := by
  induction msgs generalizing ids with
  | nil => rfl
  | cons m rest ih => exact congrArg (· + 1) (ih _)

/-! ### A longer history -/

/-- The states of the assignment over a history and over a longer one. -/
structure Extends (ext : List (ChatRequestMessage Raw)) (ids ids' : LegacyFunctionCallIDs Raw) :
    Prop where
  next : ids'.next = ids.next
  pending : ids'.pending = ids.pending
  used (id : String) : id ∈ ids'.used.getD (explicitIDs ids'.msgs) ↔
    id ∈ ids.used.getD (explicitIDs ids.msgs) ∨ id ∈ explicitIDs ext

theorem Extends.start (msgs ext : List (ChatRequestMessage Raw)) :
    Extends ext { msgs := msgs } { msgs := msgs ++ ext } where
  next := rfl
  pending := rfl
  used id := by simp [explicitIDs]

variable {ids ids' : LegacyFunctionCallIDs Raw} {ext : List (ChatRequestMessage Raw)}

/-- The longer history gives a call the same id, when it does not bring that id along itself. -/
theorem Extends.assign {name : String} (longer : Extends ext ids ids')
    (free : (ids.assign name).2 ∉ explicitIDs ext) :
    (ids'.assign name).2 = (ids.assign name).2 ∧
      Extends ext (ids.assign name).1 (ids'.assign name).1 := by
  obtain ⟨past, unused, between⟩ :=
    nextUnused_spec (ids.used.getD (explicitIDs ids.msgs)) ids.next
  have same : nextUnused (ids'.used.getD (explicitIDs ids'.msgs)) ids'.next =
      nextUnused (ids.used.getD (explicitIDs ids.msgs)) ids.next := by
    rw [longer.next]
    apply nextUnused_eq past
    · rw [longer.used]
      exact not_or.mpr ⟨unused, free⟩
    · intro k low high
      exact (longer.used _).mpr (Or.inl (between k low high))
  refine ⟨congrArg legacyID same, same, ?_, ?_⟩
  · change Function.update ids'.pending name _ = Function.update ids.pending name _
    rw [longer.pending, same]
  · intro id
    change id ∈ legacyID _ :: ids'.used.getD (explicitIDs ids'.msgs) ↔
      id ∈ legacyID _ :: ids.used.getD (explicitIDs ids.msgs) ∨ _
    rw [List.mem_cons, List.mem_cons, longer.used, same, or_assoc]

theorem Extends.claim (longer : Extends ext ids ids') (name : String) :
    (ids'.claim name).2 = (ids.claim name).2 ∧
      Extends ext (ids.claim name).1 (ids'.claim name).1 := by
  obtain ⟨msgs, used, next, pending⟩ := ids.claim_rest name
  obtain ⟨msgs', used', next', pending'⟩ := ids'.claim_rest name
  refine ⟨?_, ?_, ?_, ?_⟩
  · rw [LegacyFunctionCallIDs.claim_id, LegacyFunctionCallIDs.claim_id, longer.pending]
  · rw [next, next', longer.next]
  · rw [pending, pending', longer.pending]
  · rw [msgs, msgs', used, used']
    exact longer.used

theorem Extends.resolve (longer : Extends ext ids ids')
    (free : m.legacyCall.isSome → givenID (ids.resolve m).2 ∉ explicitIDs ext) :
    (ids'.resolve m).2 = (ids.resolve m).2 ∧
      Extends ext (ids.resolve m).1 (ids'.resolve m).1 := by
  unfold LegacyFunctionCallIDs.resolve at free ⊢
  cases legacy : m.legacyCall with
  | some call =>
    rw [legacy] at free
    obtain ⟨same, longer⟩ := longer.assign (free rfl)
    refine ⟨?_, longer⟩
    dsimp only
    rw [same]
  | none =>
    dsimp only
    split
    · obtain ⟨same, longer⟩ := longer.claim m.name
      refine ⟨?_, longer⟩
      dsimp only
      rw [same]
    · exact ⟨rfl, longer⟩

theorem Extends.run {ext msgs : List (ChatRequestMessage Raw)} (longer : Extends ext ids ids')
    (free : ∀ call ∈ legacyCalls (msgs.zip (ids.resolveAll msgs)), call.2 ∉ explicitIDs ext) :
    ids'.resolveAll msgs = ids.resolveAll msgs := by
  induction msgs generalizing ids ids' with
  | nil => rfl
  | cons m rest ih =>
    change ∀ call ∈ legacyCalls ((m, (ids.resolve m).2) ::
      rest.zip ((ids.resolve m).1.resolveAll rest)), _ at free
    unfold legacyCalls at free
    have now : m.legacyCall.isSome → givenID (ids.resolve m).2 ∉ explicitIDs ext := by
      intro legacy
      obtain ⟨call, legacy⟩ := Option.isSome_iff_exists.mp legacy
      apply free (call.name, givenID (ids.resolve m).2)
      rw [List.filterMap_cons]
      simp [legacy]
    have later : ∀ call ∈ legacyCalls (rest.zip ((ids.resolve m).1.resolveAll rest)),
        call.2 ∉ explicitIDs ext := by
      intro call mem
      apply free call
      rw [List.filterMap_cons]
      split
      · exact mem
      · exact List.mem_cons_of_mem _ mem
    obtain ⟨same, longer⟩ := longer.resolve now
    change (ids'.resolve m).2 :: _ = (ids.resolve m).2 :: _
    rw [same, ih longer later]

/-- What happens to one message: a legacy call becomes a tool call with an id, a legacy result gets
an id, and every other message stays. -/
def Resolves (m m' : ChatRequestMessage Raw) : Prop :=
  match m.legacyCall with
  | some call => m' = { m with toolCalls := [{ id := givenID m', function := call }] }
  | none => if m.IsLegacyResult then m' = { m with toolCallID := m'.toolCallID } else m' = m

theorem resolve_resolves (ids : LegacyFunctionCallIDs Raw) (m : ChatRequestMessage Raw) :
    Resolves m (ids.resolve m).2 := by
  unfold Resolves LegacyFunctionCallIDs.resolve
  cases m.legacyCall with
  | some call => rfl
  | none =>
    dsimp only
    by_cases result : m.IsLegacyResult
    · rw [if_pos result, if_pos result]
    · rw [if_neg result, if_neg result]

theorem resolveAll_resolves (ids : LegacyFunctionCallIDs Raw)
    (msgs : List (ChatRequestMessage Raw)) :
    List.Forall₂ Resolves msgs (ids.resolveAll msgs) := by
  induction msgs generalizing ids with
  | nil => exact .nil
  | cons m rest ih => exact .cons (resolve_resolves ids m) (ih _)

/-- A message of a history is resolved in the state after those before it. -/
theorem resolveAll_split {m m' : ChatRequestMessage Raw}
    {before after : List (ChatRequestMessage Raw × ChatRequestMessage Raw)}
    (split_ : msgs.zip (ids.resolveAll msgs) = before ++ (m, m') :: after) :
    ∃ first, before = first.zip (ids.resolveAll first) ∧ m' = ((ids.after first).resolve m).2 := by
  induction before generalizing ids msgs with
  | nil =>
    refine ⟨[], rfl, ?_⟩
    cases msgs with
    | nil => cases split_
    | cons m₁ rest =>
      cases split_
      rfl
  | cons turn before ih =>
    cases msgs with
    | nil => cases split_
    | cons m₁ rest =>
      obtain ⟨rfl, later⟩ := List.cons.inj split_
      obtain ⟨first, before_, m'_⟩ := ih later
      exact ⟨m₁ :: first, congrArg _ before_, m'_⟩

/-- A result takes the id of the oldest unanswered call of its name and is sent under it; without
one it takes none and is sent under the name. -/
theorem TracksLegacy.resolve_result (tracks : TracksLegacy msgs done ids)
    (result : m.IsLegacyResult) :
    (ids.resolve m).2.toolCallID = (unanswered done m.name).head?.getD "" ∧
      callIDs (ids.resolve m).2 = [(unanswered done m.name).head?.getD m.name] := by
  have nonblank : "" ∉ unanswered done m.name := by
    intro mem
    obtain ⟨call, kept, blank⟩ := List.mem_map.mp mem
    exact (tracks.fresh call (List.mem_of_mem_filter kept)).1 blank
  have resolved_ : (ids.resolve m).2 =
      { m with toolCallID := (unanswered done m.name).head?.getD "" } := by
    unfold LegacyFunctionCallIDs.resolve
    rw [legacyResult_not_call result]
    dsimp only
    rw [if_pos result, LegacyFunctionCallIDs.claim_id, tracks.pending]
  rw [resolved_]
  refine ⟨rfl, ?_⟩
  rw [callIDs, result.1]
  cases queue : unanswered done m.name with
  | nil => rfl
  | cons id rest =>
    have some_ : id ≠ "" := fun blank => nonblank (by rw [queue, blank]; exact List.mem_cons_self ..)
    simp [some_]

/-- Legacy calls get stable and unambiguous ids. Of the messages of a history only the legacy calls
and the results without an id change; the calls get distinct ids that the history does not bring
along; every such result refers to the oldest unanswered call of its name and is sent under its id,
or it refers to none and is sent under the name; and the messages that later ones are added to keep
their ids, when the later ones bring none of these along. -/
theorem legacy_ids (msgs ext : List (ChatRequestMessage Raw)) :
    List.Forall₂ Resolves msgs (resolved msgs) ∧
      ((legacyCalls (msgs.zip (resolved msgs))).map (·.2)).Nodup ∧
      (∀ call ∈ legacyCalls (msgs.zip (resolved msgs)), call.2 ∉ explicitIDs msgs) ∧
      (∀ before m m' after, msgs.zip (resolved msgs) = before ++ (m, m') :: after →
        m.IsLegacyResult → m'.toolCallID = (unanswered before m.name).head?.getD "" ∧
          callIDs m' = [(unanswered before m.name).head?.getD m.name]) ∧
      ((∀ call ∈ legacyCalls (msgs.zip (resolved msgs)), call.2 ∉ explicitIDs ext) →
        (resolved (msgs ++ ext)).take msgs.length = resolved msgs) := by
  have whole : TracksLegacy msgs (msgs.zip (resolved msgs)) _ := (TracksLegacy.start msgs).run
  refine ⟨resolveAll_resolves _ msgs, whole.distinct, fun call mem => (whole.fresh call mem).2,
    ?_, ?_⟩
  · intro before m m' after split_ result
    obtain ⟨first, rfl, rfl⟩ := resolveAll_split split_
    exact ((TracksLegacy.start msgs).run).resolve_result result
  · intro free
    unfold resolved
    rw [resolveAll_append, (Extends.start msgs ext).run free, List.take_left']
    exact length_resolveAll _ msgs

namespace LegacySample

def call : ChatRequestMessage String :=
  { role := "assistant", content := "", functionCall := some { name := "f" } }

/-- A result that names a call id of its own. -/
def result : ChatRequestMessage String :=
  { role := "function", content := "", name := "f", toolCallID := "x" }

end LegacySample

/-- A result with an id of its own keeps it, although a call of its name is unanswered. -/
theorem own_id_kept :
    unanswered ([LegacySample.call].zip (resolved [LegacySample.call])) LegacySample.result.name =
        ["call_legacy_1"] ∧
      (resolved [LegacySample.call, LegacySample.result])[1]?.map (·.toolCallID) = some "x" := by
  decide +kernel

/-- A history of one call and its result, and a later tool call with another id. -/
theorem legacy_ids_sample :
    (resolved ([LegacySample.call, { LegacySample.result with toolCallID := "" }] ++
      [{ role := "assistant", content := "", toolCalls := [{ id := "call_7" }] }])).take 2 =
      resolved [LegacySample.call, { LegacySample.result with toolCallID := "" }] :=
  (legacy_ids [LegacySample.call, { LegacySample.result with toolCallID := "" }]
    [{ role := "assistant", content := "", toolCalls := [{ id := "call_7" }] }]).2.2.2.2
    (by decide +kernel)

end Assigning

end Sub2api.ApiCompat
