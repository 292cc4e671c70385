import Sub2api.Interleave.Histories
import Sub2api.Scheduler.FullRebuild

/-!
# What the rebuild counters say about the history

A request's number is at most `fullRebuildCompleted` exactly when a run that covered it has
returned, up to the run that is about to record this.
-/

namespace Sub2api.Scheduler.FullRebuild

open Interleave

universe u v

section Counters

variable {ι : Type u} {ε : Type v}

/-- Whether a call holds `fullRebuildRunMu`. -/
def Phase.Holding : Phase ε → Prop
  | .checking | .covering _ | .running _ | .recording _ _ | .leaving _ | .panicking => True
  | .entered | .waiting | .returned _ | .panicked => False

/-- What the run of a call covers, once it is fixed and until it is recorded. -/
def Phase.through : Phase ε → Option ℕ
  | .covering through | .running through | .recording through _ => some through
  | _ => none

def Phase.recorded : Phase ε → Option ℕ
  | .recording through _ => some through
  | _ => none

theorem Phase.through_of_recorded {phase : Phase ε} {through : ℕ}
    (recorded : phase.recorded = some through) : phase.through = some through := by
  cases phase <;> simp_all [Phase.recorded, Phase.through]

theorem Phase.holding_of_through {phase : Phase ε} {through : ℕ}
    (covers : phase.through = some through) : phase.Holding := by
  cases phase <;> simp_all [Phase.through, Phase.Holding]

/-- The run of `k` has covered the request of `i` and has returned. -/
def Done (history : List (Event ι ε)) (i k : ι) (err : ε) : Prop :=
  [.registered i, .gathered k, .ended k (.returned err)].Sublist history

theorem Done.concat {history : List (Event ι ε)} {i k : ι} {err : ε} {event : Event ι ε}
    (done : Done history i k err) : Done (history ++ [event]) i k err :=
  List.Sublist.trans done (List.sublist_append_left ..)

theorem done_concat {history : List (Event ι ε)} {i k : ι} {err : ε} {event : Event ι ε} :
    Done (history ++ [event]) i k err ↔ Done history i k err ∨
      (.ended k (.returned err) = event ∧ [.registered i, .gathered k].Sublist history) :=
  concat_sublist_concat (l := [Event.registered i, .gathered k])

theorem gathered_concat {history : List (Event ι ε)} {i k : ι} {event : Event ι ε} :
    [.registered i, .gathered k].Sublist (history ++ [event]) ↔
      [.registered i, .gathered k].Sublist history ∨
        (.gathered k = event ∧ .registered i ∈ history) := by
  rw [← List.singleton_sublist]
  exact concat_sublist_concat (l := [Event.registered i])

/-- The counters against the history, for the requests and the phases of the calls. -/
structure Counted (ids : ι → ℕ) (phases : ι → Phase ε) (s : Service ι ε) : Prop where
  bounded : s.fullRebuildCompleted ≤ s.fullRebuildRequested
  numbered (i : ι) : .registered i ∈ s.history → ids i ≤ s.fullRebuildRequested
  between (k : ι) (through : ℕ) : (phases k).through = some through →
    s.fullRebuildCompleted ≤ through ∧ through ≤ s.fullRebuildRequested
  covers (k : ι) (through : ℕ) : (phases k).through = some through →
    ∀ i, .registered i ∈ s.history →
      (ids i ≤ through ↔ [.registered i, .gathered k].Sublist s.history)
  completed (i : ι) : .registered i ∈ s.history →
    ((∃ k err, Done s.history i k err) ↔ ids i ≤ s.fullRebuildCompleted ∨
      ∃ k through, (phases k).recorded = some through ∧ ids i ≤ through)
  answered (i : ι) : .registered i ∈ s.history → ids i ≤ s.fullRebuildCompleted →
    ∃ k, Done s.history i k s.fullRebuildLastErr

variable {ids : ι → ℕ}

/-- A step that neither registers, fixes, finishes nor records leaves all this as it is. -/
theorem Counted.quiet {phases phases' : ι → Phase ε} {s s' : Service ι ε}
    (counted : Counted ids phases s) (requested : s'.fullRebuildRequested = s.fullRebuildRequested)
    (completed : s'.fullRebuildCompleted = s.fullRebuildCompleted)
    (lastErr : s'.fullRebuildLastErr = s.fullRebuildLastErr)
    (through : ∀ k t, (phases' k).through = some t → (phases k).through = some t)
    (recorded : ∀ k, (phases' k).recorded = (phases k).recorded)
    (registered : ∀ i, .registered i ∈ s'.history ↔ .registered i ∈ s.history)
    (gathered : ∀ i k, [.registered i, .gathered k].Sublist s'.history ↔
      [.registered i, .gathered k].Sublist s.history)
    (done : ∀ i k err, Done s'.history i k err ↔ Done s.history i k err) :
    Counted ids phases' s' where
  bounded := by
    rw [completed, requested]
    exact counted.bounded
  numbered i known := by
    rw [requested]
    exact counted.numbered i ((registered i).mp known)
  between k t covers := by
    rw [completed, requested]
    exact counted.between k t (through k t covers)
  covers k t covers i known := by
    rw [gathered]
    exact counted.covers k t (through k t covers) i ((registered i).mp known)
  completed i known := by
    simp only [done, recorded, completed]
    exact counted.completed i ((registered i).mp known)
  answered i known := by
    simp only [done, lastErr, completed]
    exact counted.answered i ((registered i).mp known)

variable {phases : ι → Phase ε}

/-- No run is recorded by a call that does not hold the lock. -/
theorem not_recorded {i k : ι} {through : ℕ} (alone : ∀ j, (phases j).Holding → j = i)
    (none_ : (phases i).recorded = none) :
    (phases k).recorded ≠ some through := by
  intro recorded
  have own := alone k (Phase.holding_of_through (Phase.through_of_recorded recorded))
  rw [own, none_] at recorded
  cases recorded

variable [DecidableEq ι]

/-- The calls that hold the lock. -/
structure Exclusive (c : Pool ι (Call ι ε) (Service ι ε)) : Prop where
  held (i : ι) : (c.threads i).phase.Holding → c.shared.fullRebuildRunMu = true
  alone (i j : ι) : (c.threads i).phase.Holding → (c.threads j).phase.Holding → i = j

variable {s : Service ι ε}

theorem Exclusive.step {c : Pool ι (Call ι ε) (Service ι ε)} {i : ι} {outcome : Outcome ε}
    {call call' : Call ι ε} (exclusive : Exclusive c) (at_ : c.threads i = call)
    (moves : Moves outcome call c.shared call' s) :
    Exclusive { shared := s, threads := Function.update c.threads i call' } := by
  have held := exclusive.held i
  have alone := fun j => exclusive.alone i j
  have others := fun j k => exclusive.alone j k
  have mutex := fun j => exclusive.held j
  rw [at_] at held alone
  have kept : ∀ j, (Function.update c.threads i call' j) = if j = i then call' else c.threads j := by
    intro j
    rw [Function.update_apply]
  constructor
  · intro j
    simp only [kept]
    cases moves <;> grind [Phase.Holding]
  · intro j k
    simp only [kept]
    cases moves <;> grind [Phase.Holding]

theorem Counted.register {i : ι} (counted : Counted ids phases s)
    (fresh : .registered i ∉ s.history) (entered : phases i = .entered) :
    Counted (Function.update ids i (s.fullRebuildRequested + 1))
      (Function.update phases i .waiting)
      { s with
        fullRebuildRequested := s.fullRebuildRequested + 1
        history := s.history ++ [.registered i] } := by
  have through : ∀ {k t}, (Function.update phases i .waiting k).through = some t →
      (phases k).through = some t := by
    intro k t covers
    by_cases own : k = i
    · rw [own, Function.update_self] at covers
      cases covers
    · rwa [Function.update_of_ne own] at covers
  have recorded : ∀ k, (Function.update phases i .waiting k).recorded = (phases k).recorded := by
    intro k
    by_cases own : k = i
    · rw [own, Function.update_self, entered]
      rfl
    · rw [Function.update_of_ne own]
  have done : ∀ j k err, Done (s.history ++ [.registered i]) j k err ↔ Done s.history j k err := by
    simp [done_concat]
  have known : ∀ {j}, .registered j ∈ s.history ++ [.registered i] →
      (j ≠ i ∧ .registered j ∈ s.history) ∨ j = i := by
    intro j mem
    rcases List.mem_append.mp mem with mem | mem
    · by_cases own : j = i
      · exact Or.inr own
      · exact Or.inl ⟨own, mem⟩
    · simp only [List.mem_singleton, Event.registered.injEq] at mem
      exact Or.inr mem
  have absent : ∀ {k err}, ¬ Done s.history i k err := by
    intro k err done
    exact fresh (List.Sublist.subset done (by simp))
  constructor
  · have := counted.bounded
    grind
  · intro j mem
    rcases known mem with ⟨other, mem⟩ | rfl
    · have := counted.numbered j mem
      grind
    · simp
  · intro k t covers
    have := counted.between k t (through covers)
    grind
  · intro k t covers j mem
    simp only [gathered_concat, reduceCtorEq, false_and, or_false]
    rcases known mem with ⟨other, mem⟩ | rfl
    · rw [Function.update_of_ne other]
      exact counted.covers k t (through covers) j mem
    · have := counted.between k t (through covers)
      rw [Function.update_self]
      constructor
      · omega
      · intro sub
        exact absurd (sub.subset (by simp)) fresh
  · intro j mem
    simp only [done, recorded]
    rcases known mem with ⟨other, mem⟩ | rfl
    · rw [Function.update_of_ne other]
      exact counted.completed j mem
    · rw [Function.update_self]
      constructor
      · rintro ⟨k, err, done⟩
        exact absurd done absent
      · rintro (past | ⟨k, t, covers, past⟩)
        · have := counted.bounded
          omega
        · have := counted.between k t (Phase.through_of_recorded covers)
          omega
  · intro j mem past
    simp only [done]
    rcases known mem with ⟨other, mem⟩ | rfl
    · rw [Function.update_of_ne other] at past
      exact counted.answered j mem past
    · rw [Function.update_self] at past
      have := counted.bounded
      dsimp only at past
      omega

theorem Counted.gather {i : ι} (counted : Counted ids phases s)
    (alone : ∀ j, (phases j).Holding → j = i) (fresh : .gathered i ∉ s.history)
    (checking : phases i = .checking) :
    Counted ids (Function.update phases i (.covering s.fullRebuildRequested))
      { s with history := s.history ++ [.gathered i] } := by
  have known : ∀ {j}, .registered j ∈ s.history ++ [.gathered i] → .registered j ∈ s.history := by
    simp
  have done : ∀ j k err, Done (s.history ++ [.gathered i]) j k err ↔ Done s.history j k err := by
    simp [done_concat]
  have through : ∀ {k t}, (Function.update phases i (.covering s.fullRebuildRequested) k).through =
      some t → k = i ∧ s.fullRebuildRequested = t := by
    intro k t covers
    by_cases own : k = i
    · rw [own, Function.update_self] at covers
      exact ⟨own, Option.some_inj.mp covers⟩
    · rw [Function.update_of_ne own] at covers
      exact absurd (alone k (Phase.holding_of_through covers)) own
  have recorded : ∀ k,
      (Function.update phases i (.covering s.fullRebuildRequested) k).recorded =
        (phases k).recorded := by
    intro k
    by_cases own : k = i
    · rw [own, Function.update_self, checking]
      rfl
    · rw [Function.update_of_ne own]
  constructor
  · exact counted.bounded
  · exact fun j mem => counted.numbered j (known mem)
  · intro k t covers
    obtain ⟨-, rfl⟩ := through covers
    exact ⟨counted.bounded, Nat.le_refl _⟩
  · intro k t covers j mem
    obtain ⟨rfl, rfl⟩ := through covers
    simp only [gathered_concat, true_and]
    exact ⟨fun _ => Or.inr (known mem), fun _ => counted.numbered j (known mem)⟩
  · intro j mem
    simp only [done, recorded]
    exact counted.completed j (known mem)
  · intro j mem past
    simp only [done]
    exact counted.answered j (known mem) past

theorem Counted.finish {i : ι} {covered : ℕ} {err : ε} (counted : Counted ids phases s)
    (alone : ∀ j, (phases j).Holding → j = i) (running : phases i = .running covered) :
    Counted ids (Function.update phases i (.recording covered err))
      { s with history := s.history ++ [.ended i (.returned err)] } := by
  have known : ∀ {j}, .registered j ∈ s.history ++ [.ended i (.returned err)] →
      .registered j ∈ s.history := by
    simp
  have through : ∀ {k t}, (Function.update phases i (.recording covered err) k).through = some t →
      (phases k).through = some t := by
    intro k t covers
    by_cases own : k = i
    · rw [own, Function.update_self] at covers
      rw [own, running]
      exact covers
    · rwa [Function.update_of_ne own] at covers
  have idle : ∀ {k t}, (phases k).recorded ≠ some t := by
    intro k t
    apply not_recorded alone
    rw [running]
    rfl
  have covers := counted.covers i covered (by rw [running]; rfl)
  constructor
  · exact counted.bounded
  · exact fun j mem => counted.numbered j (known mem)
  · exact fun k t covers => counted.between k t (through covers)
  · intro k t covers j mem
    simp only [gathered_concat, reduceCtorEq, false_and, or_false]
    exact counted.covers k t (through covers) j (known mem)
  · intro j mem
    have before := counted.completed j (known mem)
    constructor
    · rintro ⟨k, err', done⟩
      rcases done_concat.mp done with done | ⟨same, sub⟩
      · rcases before.mp ⟨k, err', done⟩ with past | ⟨k', t, recorded, -⟩
        · exact Or.inl past
        · exact absurd recorded idle
      · obtain ⟨rfl, -⟩ := Event.ended.inj same
        refine Or.inr ⟨k, covered, ?_, (covers j (known mem)).mpr sub⟩
        rw [Function.update_self]
        rfl
    · rintro (past | ⟨k, t, recorded, past⟩)
      · obtain ⟨k, err', done⟩ := before.mpr (Or.inl past)
        exact ⟨k, err', done.concat⟩
      · by_cases own : k = i
        · rw [own, Function.update_self] at recorded
          cases recorded
          exact ⟨i, err, done_concat.mpr (Or.inr ⟨rfl, (covers j (known mem)).mp past⟩)⟩
        · rw [Function.update_of_ne own] at recorded
          exact absurd recorded idle
  · intro j mem past
    obtain ⟨k, done⟩ := counted.answered j (known mem) past
    exact ⟨k, done.concat⟩

theorem Counted.record {i : ι} {covered : ℕ} {err : ε} (counted : Counted ids phases s)
    (alone : ∀ j, (phases j).Holding → j = i) (recording : phases i = .recording covered err)
    (ran : ∀ j, [.registered j, .gathered i].Sublist s.history → Done s.history j i err) :
    Counted ids (Function.update phases i (.leaving err))
      { s with fullRebuildCompleted := covered, fullRebuildLastErr := err } := by
  have through : ∀ {k t}, (Function.update phases i (.leaving err) k).through ≠ some t := by
    intro k t covers
    by_cases own : k = i
    · rw [own, Function.update_self] at covers
      cases covers
    · rw [Function.update_of_ne own] at covers
      exact own (alone k (Phase.holding_of_through covers))
  have covers := counted.covers i covered (by rw [recording]; rfl)
  have between := counted.between i covered (by rw [recording]; rfl)
  constructor
  · exact between.2
  · exact counted.numbered
  · exact fun k t covers => absurd covers through
  · exact fun k t covers => absurd covers through
  · intro j mem
    have before := counted.completed j mem
    constructor
    · rintro ⟨k, err', done⟩
      left
      rcases before.mp ⟨k, err', done⟩ with past | ⟨k', t, recorded, past⟩
      · exact Nat.le_trans past between.1
      · have own := alone k' (Phase.holding_of_through (Phase.through_of_recorded recorded))
        rw [own, recording] at recorded
        cases recorded
        exact past
    · rintro (past | ⟨k, t, recorded, past⟩)
      · exact ⟨i, err, ran j ((covers j mem).mp past)⟩
      · exact absurd (Phase.through_of_recorded recorded) through
  · intro j mem past
    exact ⟨i, ran j ((covers j mem).mp past)⟩

end Counters

end Sub2api.Scheduler.FullRebuild
