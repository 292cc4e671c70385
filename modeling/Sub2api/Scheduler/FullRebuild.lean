import Mathlib.Data.List.Nodup
import Sub2api.Interleave.Pool

/-!
# Coalescing full rebuilds of the scheduler snapshots

Every call of `coalesceFullRebuild` is a thread. The sections under `fullRebuildStateMu` are single
steps; `fullRebuildRunMu`, which is held while `run` works, is a flag of the service that a call
waits for. The history lists what the calls did, oldest first.
-/

namespace Sub2api.Scheduler.FullRebuild

open Interleave

universe u v

/-- How a call of `run` ends. -/
inductive Outcome (ε : Type v)
  | returned (err : ε)
  | panicked
  deriving DecidableEq

/-- What a call does that others can observe. `gathered` is the moment at which it fixes which
requests its run covers. -/
inductive Event (ι : Type u) (ε : Type v)
  | registered (caller : ι)
  | gathered (caller : ι)
  | started (caller : ι)
  | ended (caller : ι) (outcome : Outcome ε)
  | returned (caller : ι) (err : ε)
  deriving DecidableEq

def Event.caller {ι : Type u} {ε : Type v} : Event ι ε → ι
  | .registered i | .gathered i | .started i | .ended i _ | .returned i _ => i

/-- Where a call stands. -/
inductive Phase (ε : Type v)
  | entered
  /-- Registered, and waiting for `fullRebuildRunMu`. -/
  | waiting
  | checking
  | covering (coveredThrough : ℕ)
  | running (coveredThrough : ℕ)
  | recording (coveredThrough : ℕ) (err : ε)
  /-- The deferred unlock is still to come. -/
  | leaving (err : ε)
  | panicking
  | returned (err : ε)
  | panicked

/-- A call of `coalesceFullRebuild` with its local variables. -/
structure Call (ι : Type u) (ε : Type v) where
  caller : ι
  requestID : ℕ := 0
  phase : Phase ε := .entered

/-- The fields of `SchedulerSnapshotService` that the function uses. -/
structure Service (ι : Type u) (ε : Type v) where
  fullRebuildRequested : ℕ := 0
  fullRebuildCompleted : ℕ := 0
  fullRebuildLastErr : ε
  fullRebuildRunMu : Bool := false
  history : List (Event ι ε) := []

section Steps

variable {ι : Type u} {ε : Type v}

def Service.log (s : Service ι ε) (event : Event ι ε) : Service ι ε :=
  { s with history := s.history ++ [event] }

/-- One step of `coalesceFullRebuild`. The environment says how `run` ends. -/
def step (outcome : Outcome ε) (call : Call ι ε) (s : Service ι ε) :
    Option (Call ι ε × Service ι ε) :=
  match call.phase with
  | .entered =>
      let requestID := s.fullRebuildRequested + 1
      some ({ call with requestID := requestID, phase := .waiting },
        { s with fullRebuildRequested := requestID }.log (.registered call.caller))
  | .waiting =>
      if s.fullRebuildRunMu then none
      else some ({ call with phase := .checking }, { s with fullRebuildRunMu := true })
  | .checking =>
      if s.fullRebuildCompleted ≥ call.requestID then
        some ({ call with phase := .leaving s.fullRebuildLastErr }, s)
      else
        some ({ call with phase := .covering s.fullRebuildRequested },
          s.log (.gathered call.caller))
  | .covering coveredThrough =>
      some ({ call with phase := .running coveredThrough }, s.log (.started call.caller))
  | .running coveredThrough =>
      match outcome with
      | .returned err =>
          some ({ call with phase := .recording coveredThrough err },
            s.log (.ended call.caller (.returned err)))
      | .panicked =>
          some ({ call with phase := .panicking }, s.log (.ended call.caller .panicked))
  | .recording coveredThrough err =>
      some ({ call with phase := .leaving err },
        { s with fullRebuildCompleted := coveredThrough, fullRebuildLastErr := err })
  | .leaving err =>
      some ({ call with phase := .returned err },
        { s with fullRebuildRunMu := false }.log (.returned call.caller err))
  | .panicking => some ({ call with phase := .panicked }, { s with fullRebuildRunMu := false })
  | .returned _ => none
  | .panicked => none

/-- What a step of a call does. -/
inductive Moves : Outcome ε → Call ι ε → Service ι ε → Call ι ε → Service ι ε → Prop
  | register {outcome : Outcome ε} {i : ι} {id : ℕ} {s : Service ι ε} :
      Moves outcome ⟨i, id, .entered⟩ s ⟨i, s.fullRebuildRequested + 1, .waiting⟩
        { s with
          fullRebuildRequested := s.fullRebuildRequested + 1
          history := s.history ++ [.registered i] }
  | lock {outcome : Outcome ε} {i : ι} {id : ℕ} {s : Service ι ε}
      (free : s.fullRebuildRunMu = false) :
      Moves outcome ⟨i, id, .waiting⟩ s ⟨i, id, .checking⟩ { s with fullRebuildRunMu := true }
  | reuse {outcome : Outcome ε} {i : ι} {id : ℕ} {s : Service ι ε}
      (covered : id ≤ s.fullRebuildCompleted) :
      Moves outcome ⟨i, id, .checking⟩ s ⟨i, id, .leaving s.fullRebuildLastErr⟩ s
  | gather {outcome : Outcome ε} {i : ι} {id : ℕ} {s : Service ι ε}
      (uncovered : s.fullRebuildCompleted < id) :
      Moves outcome ⟨i, id, .checking⟩ s ⟨i, id, .covering s.fullRebuildRequested⟩
        { s with history := s.history ++ [.gathered i] }
  | start {outcome : Outcome ε} {i : ι} {id through : ℕ} {s : Service ι ε} :
      Moves outcome ⟨i, id, .covering through⟩ s ⟨i, id, .running through⟩
        { s with history := s.history ++ [.started i] }
  | finish {i : ι} {id through : ℕ} {err : ε} {s : Service ι ε} :
      Moves (.returned err) ⟨i, id, .running through⟩ s ⟨i, id, .recording through err⟩
        { s with history := s.history ++ [.ended i (.returned err)] }
  | panic {i : ι} {id through : ℕ} {s : Service ι ε} :
      Moves .panicked ⟨i, id, .running through⟩ s ⟨i, id, .panicking⟩
        { s with history := s.history ++ [.ended i .panicked] }
  | record {outcome : Outcome ε} {i : ι} {id through : ℕ} {err : ε} {s : Service ι ε} :
      Moves outcome ⟨i, id, .recording through err⟩ s ⟨i, id, .leaving err⟩
        { s with fullRebuildCompleted := through, fullRebuildLastErr := err }
  | leave {outcome : Outcome ε} {i : ι} {id : ℕ} {err : ε} {s : Service ι ε} :
      Moves outcome ⟨i, id, .leaving err⟩ s ⟨i, id, .returned err⟩
        { s with fullRebuildRunMu := false, history := s.history ++ [.returned i err] }
  | unwind {outcome : Outcome ε} {i : ι} {id : ℕ} {s : Service ι ε} :
      Moves outcome ⟨i, id, .panicking⟩ s ⟨i, id, .panicked⟩ { s with fullRebuildRunMu := false }

theorem step_moves {outcome : Outcome ε} {call call' : Call ι ε} {s s' : Service ι ε}
    (stepped : step outcome call s = some (call', s')) : Moves outcome call s call' s' := by
  obtain ⟨i, id, phase⟩ := call
  cases phase with
  | entered => cases stepped; apply Moves.register
  | waiting =>
      simp only [step] at stepped
      split at stepped
      · cases stepped
      · rename_i free
        cases stepped
        apply Moves.lock
        simpa using free
  | checking =>
      simp only [step] at stepped
      split at stepped
      · rename_i covered
        cases stepped
        exact Moves.reuse covered
      · rename_i uncovered
        cases stepped
        exact Moves.gather (Nat.lt_of_not_le uncovered)
  | covering through => cases stepped; apply Moves.start
  | running through =>
      cases outcome with
      | returned err => cases stepped; apply Moves.finish
      | panicked => cases stepped; apply Moves.panic
  | recording through err => cases stepped; apply Moves.record
  | leaving err => cases stepped; apply Moves.leave
  | panicking => cases stepped; apply Moves.unwind
  | returned err => cases stepped
  | panicked => cases stepped

/-- A service that no one has called yet; `nil` is the error value of success. -/
def initial (nil : ε) : Pool ι (Call ι ε) (Service ι ε) where
  shared := { fullRebuildLastErr := nil }
  threads i := { caller := i }

end Steps

/-! ### What each call has done -/

section Invariants

variable {ι : Type u} {ε : Type v}

/-- The events of a call that stands at a phase. A call that is served by another one's run has
only registered before it leaves. -/
inductive Traced (i : ι) : Phase ε → List (Event ι ε) → Prop
  | entered : Traced i .entered []
  | waiting : Traced i .waiting [.registered i]
  | checking : Traced i .checking [.registered i]
  | covering (through : ℕ) : Traced i (.covering through) [.registered i, .gathered i]
  | running (through : ℕ) :
      Traced i (.running through) [.registered i, .gathered i, .started i]
  | recording (through : ℕ) (err : ε) :
      Traced i (.recording through err)
        [.registered i, .gathered i, .started i, .ended i (.returned err)]
  | reusing (err : ε) : Traced i (.leaving err) [.registered i]
  | leaving (err : ε) :
      Traced i (.leaving err)
        [.registered i, .gathered i, .started i, .ended i (.returned err)]
  | panicking :
      Traced i .panicking [.registered i, .gathered i, .started i, .ended i .panicked]
  | reused (err : ε) : Traced i (.returned err) [.registered i, .returned i err]
  | returned (err : ε) :
      Traced i (.returned err)
        [.registered i, .gathered i, .started i, .ended i (.returned err), .returned i err]
  | panicked :
      Traced i .panicked [.registered i, .gathered i, .started i, .ended i .panicked]

variable {trace : List (Event ι ε)} {phase : Phase ε} {i : ι}

theorem Traced.nodup (traced : Traced i phase trace) : trace.Nodup := by
  cases traced <;> simp

theorem Traced.registered (traced : Traced i phase trace) (entered : phase ≠ .entered) :
    .registered i ∈ trace := by
  cases traced <;> simp at entered ⊢

theorem Traced.not_registered (traced : Traced i .entered trace) :
    .registered i ∉ trace := by
  cases traced
  simp

theorem Traced.not_gathered (traced : Traced i .checking trace) : .gathered i ∉ trace := by
  cases traced
  simp

theorem Traced.returned_iff {err : ε} (traced : Traced i phase trace) :
    phase = .returned err ↔ .returned i err ∈ trace := by
  cases traced <;> simp [eq_comm]

/-- A call's run ends once. -/
theorem Traced.ended_inj {outcome outcome' : Outcome ε} (traced : Traced i phase trace)
    (ended : .ended i outcome ∈ trace) (ended' : .ended i outcome' ∈ trace) :
    outcome = outcome' := by
  cases traced <;> simp at ended ended' <;> rw [ended, ended']

/-- A call whose run has ended has fixed before what it covers, and registered before that. -/
theorem Traced.ran {outcome : Outcome ε} (traced : Traced i phase trace)
    (ended : .ended i outcome ∈ trace) :
    [.registered i, .gathered i, .started i, .ended i outcome].Sublist trace := by
  cases traced <;> simp at ended <;> subst ended <;> simp

theorem Traced.begun (traced : Traced i phase trace) (started : .started i ∈ trace) :
    [.gathered i, .started i].Sublist trace := by
  cases traced <;> simp at started ⊢

theorem Traced.recorded {through : ℕ} {err : ε} (traced : Traced i (.recording through err) trace) :
    .ended i (.returned err) ∈ trace := by
  cases traced
  simp

/-- A call that has begun a run and is not inside it has ended it. -/
theorem Traced.closed (traced : Traced i phase trace) (begun : .gathered i ∈ trace)
    (out : ∀ through, phase ≠ .covering through ∧ phase ≠ .running through) :
    ∃ outcome, [.gathered i, .started i, .ended i outcome].Sublist trace := by
  cases traced with
  | covering through => exact absurd rfl (out through).1
  | running through => exact absurd rfl (out through).2
  | recording through err => exact ⟨_, List.sublist_cons_self ..⟩
  | leaving err => exact ⟨_, List.sublist_cons_self ..⟩
  | panicking => exact ⟨_, List.sublist_cons_self ..⟩
  | panicked => exact ⟨_, List.sublist_cons_self ..⟩
  | returned err =>
      refine ⟨.returned err, List.Sublist.cons _ ?_⟩
      exact List.sublist_append_left
        [Event.gathered i, .started i, .ended i (.returned err)] [.returned i err]
  | entered => simp at begun
  | waiting => simp at begun
  | checking => simp at begun
  | reusing err => simp at begun
  | reused err => simp at begun

/-- A step adds to the trace of its call what it adds to the history. -/
theorem Moves.traced {outcome : Outcome ε} {call call' : Call ι ε} {s s' : Service ι ε}
    (moves : Moves outcome call s call' s') (named : call.caller = i)
    (traced : Traced i call.phase trace) :
    call'.caller = i ∧ ∃ logged, s'.history = s.history ++ logged ∧
      (∀ event ∈ logged, event.caller = i) ∧ Traced i call'.phase (trace ++ logged) := by
  subst named
  cases moves with
  | register =>
      refine ⟨rfl, [_], rfl, by simp [Event.caller], ?_⟩
      cases traced
      apply Traced.waiting
  | lock =>
      refine ⟨rfl, [], by simp, by simp, ?_⟩
      cases traced
      apply Traced.checking
  | reuse =>
      refine ⟨rfl, [], by simp, by simp, ?_⟩
      cases traced
      apply Traced.reusing
  | gather =>
      refine ⟨rfl, [_], rfl, by simp [Event.caller], ?_⟩
      cases traced
      apply Traced.covering
  | start =>
      refine ⟨rfl, [_], rfl, by simp [Event.caller], ?_⟩
      cases traced
      apply Traced.running
  | finish =>
      refine ⟨rfl, [_], rfl, by simp [Event.caller], ?_⟩
      cases traced
      apply Traced.recording
  | panic =>
      refine ⟨rfl, [_], rfl, by simp [Event.caller], ?_⟩
      cases traced
      apply Traced.panicking
  | record =>
      refine ⟨rfl, [], by simp, by simp, ?_⟩
      cases traced
      apply Traced.leaving
  | leave =>
      refine ⟨rfl, [_], rfl, by simp [Event.caller], ?_⟩
      cases traced with
      | reusing => apply Traced.reused
      | leaving => apply Traced.returned
  | unwind =>
      refine ⟨rfl, [], by simp, by simp, ?_⟩
      cases traced
      apply Traced.panicked

variable [DecidableEq ι]

/-- Every call has done what its phase says. -/
structure Faithful (c : Pool ι (Call ι ε) (Service ι ε)) : Prop where
  named (i : ι) : (c.threads i).caller = i
  traced (i : ι) :
    Traced i (c.threads i).phase (c.shared.history.filter fun event => event.caller = i)

theorem Faithful.step {c : Pool ι (Call ι ε) (Service ι ε)} {outcome : Outcome ε} {call : Call ι ε}
    {s : Service ι ε} (faithful : Faithful c)
    (moves : Moves outcome (c.threads i) c.shared call s) :
    Faithful { shared := s, threads := Function.update c.threads i call } := by
  obtain ⟨named', logged, history, own, traced'⟩ :=
    moves.traced (faithful.named i) (faithful.traced i)
  have of_own : (logged.filter fun event => event.caller = i) = logged :=
    List.filter_eq_self.mpr fun event mem => decide_eq_true (own event mem)
  constructor
  · intro j
    by_cases at_ : j = i
    · subst at_
      simpa using named'
    · simpa [Function.update_of_ne at_] using faithful.named j
  · intro j
    by_cases at_ : j = i
    · subst at_
      simpa [history, of_own, Function.update_self] using traced'
    · have none_of_other : (logged.filter fun event => event.caller = j) = [] :=
        List.filter_eq_nil_iff.mpr fun event mem => by
          simpa [own event mem] using fun same => at_ same.symm
      simpa [history, none_of_other, Function.update_of_ne at_] using faithful.traced j

theorem Faithful.nodup {c : Pool ι (Call ι ε) (Service ι ε)} (faithful : Faithful c) :
    c.shared.history.Nodup := by
  classical
  rw [List.nodup_iff_count_le_one]
  intro event
  have once := List.nodup_iff_count_le_one.mp (faithful.traced event.caller).nodup event
  rwa [List.count_filter (by simp)] at once

end Invariants

end Sub2api.Scheduler.FullRebuild
