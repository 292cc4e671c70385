import Sub2api.Scheduler.RebuildCounters

/-!
# Coalesced full rebuilds skip no request

The invariant of the pool of calls, and what it says of the finished history: which run a call's
error comes from, that runs do not overlap and that each call is served once.
-/

namespace Sub2api.Scheduler.FullRebuild

open Interleave

universe u v

/-! ### What every run of the calls keeps -/

section Runs

variable {ι : Type u} {ε : Type v}

/-- Runs that are fixed one after the other do not overlap. -/
def Apart (history : List (Event ι ε)) : Prop :=
  ∀ j k, [.gathered j, .gathered k].Sublist history →
    ∃ outcome, [.gathered j, .ended j outcome, .gathered k].Sublist history

variable {history : List (Event ι ε)}

theorem Apart.concat {event : Event ι ε} (apart : Apart history)
    (closed : ∀ k, .gathered k = event → ∀ j, .gathered j ∈ history →
      ∃ outcome, [.gathered j, .ended j outcome].Sublist history) :
    Apart (history ++ [event]) := by
  intro j k sub
  rcases (concat_sublist_concat (l := [Event.gathered j])).mp sub with sub | ⟨rfl, begun⟩
  · obtain ⟨outcome, sub⟩ := apart j k sub
    exact ⟨outcome, sub.trans (List.sublist_append_left ..)⟩
  · obtain ⟨outcome, ended⟩ := closed k rfl j (List.singleton_sublist.mp begun)
    exact ⟨outcome, ended.append_right [.gathered k]⟩

/-- No call gathers requests while its own is served. -/
def Unserved (history : List (Event ι ε)) : Prop :=
  ∀ i k err, ¬ [.registered i, .gathered k, .ended k (.returned err), .gathered i].Sublist history

theorem Unserved.concat {event : Event ι ε} (unserved : Unserved history)
    (new : ∀ i, .gathered i = event → ∀ k err, ¬ Done history i k err) :
    Unserved (history ++ [event]) := by
  intro i k err sub
  rcases (concat_sublist_concat
    (l := [Event.registered i, .gathered k, .ended k (.returned err)])).mp sub with
    before | ⟨last, done⟩
  · exact unserved i k err before
  · exact new i last k err done

/-- Every call returns the error of a run that covered its request. -/
def Answered (history : List (Event ι ε)) : Prop :=
  ∀ i err, .returned i err ∈ history → ∃ k,
    [.registered i, .gathered k, .ended k (.returned err), .returned i err].Sublist history

theorem Answered.concat {event : Event ι ε} (answered : Answered history)
    (new : ∀ i err, .returned i err = event → ∃ k, Done history i k err) :
    Answered (history ++ [event]) := by
  intro i err returned
  rcases List.mem_append.mp returned with returned | last
  · obtain ⟨k, sub⟩ := answered i err returned
    exact ⟨k, sub.trans (List.sublist_append_left ..)⟩
  · obtain ⟨k, done⟩ := new i err (List.mem_singleton.mp last)
    refine ⟨k, ?_⟩
    rw [← List.mem_singleton.mp last]
    exact done.append_right [.returned i err]

variable [DecidableEq ι]

/-- The histories and the calls that are about to return. -/
structure Served (c : Pool ι (Call ι ε) (Service ι ε)) : Prop where
  leaving (i : ι) (err : ε) : (c.threads i).phase = .leaving err →
    ∃ k, Done c.shared.history i k err
  answered : Answered c.shared.history
  apart : Apart c.shared.history
  unserved : Unserved c.shared.history

/-- What holds in every state of the service and its calls. -/
structure Inv (c : Pool ι (Call ι ε) (Service ι ε)) : Prop where
  faithful : Faithful c
  exclusive : Exclusive c
  counted : Counted (fun i => (c.threads i).requestID) (fun i => (c.threads i).phase) c.shared
  served : Served c

variable {c : Pool ι (Call ι ε) (Service ι ε)}

theorem mem_trace {i : ι} {event : Event ι ε} (own : event.caller = i) :
    event ∈ (history.filter fun event => event.caller = i) ↔ event ∈ history := by
  simp [own]

/-- A run that has ended was begun. -/
theorem Faithful.ran (faithful : Faithful c) {k : ι} {outcome : Outcome ε}
    (ended : .ended k outcome ∈ c.shared.history) :
    [.registered k, .gathered k, .started k, .ended k outcome].Sublist c.shared.history :=
  ((faithful.traced k).ran ((mem_trace rfl).mpr ended)).trans List.filter_sublist

/-- A call outside its run has ended it. -/
theorem Faithful.closed (faithful : Faithful c) {j : ι} (begun : .gathered j ∈ c.shared.history)
    (out : ∀ through, (c.threads j).phase ≠ .covering through ∧
      (c.threads j).phase ≠ .running through) :
    ∃ outcome, [.gathered j, .ended j outcome].Sublist c.shared.history := by
  obtain ⟨outcome, sub⟩ := (faithful.traced j).closed
    ((mem_trace (i := j) rfl).mpr begun) out
  refine ⟨outcome, List.Sublist.trans ?_ (sub.trans List.filter_sublist)⟩
  simp

theorem Served.step {i : ι} {outcome : Outcome ε} {call call' : Call ι ε} {s : Service ι ε}
    (inv : Inv c) (at_ : c.threads i = call) (moves : Moves outcome call c.shared call' s) :
    Served { shared := s, threads := Function.update c.threads i call' } := by
  obtain ⟨faithful, exclusive, counted, served⟩ := inv
  have named : call.caller = i := at_ ▸ faithful.named i
  have traced := faithful.traced i
  have alone : ∀ j, (c.threads i).phase.Holding → (c.threads j).phase.Holding → j = i :=
    fun j holding holding' => exclusive.alone j i holding' holding
  rw [at_] at traced alone
  -- A call other than `i` that is about to return stays so, with a longer history.
  have others : ∀ {history : List (Event ι ε)}, (∀ {i k err}, Done c.shared.history i k err →
      Done history i k err) → (∀ err, call'.phase = .leaving err → ∃ k, Done history i k err) →
      ∀ j err, (Function.update c.threads i call' j).phase = .leaving err →
        ∃ k, Done history j k err := by
    intro history longer own j err leaving
    by_cases self : j = i
    · subst self
      rw [Function.update_self] at leaving
      exact own err leaving
    · rw [Function.update_of_ne self] at leaving
      obtain ⟨k, done⟩ := served.leaving j err leaving
      exact ⟨k, longer done⟩
  cases moves with
  | register =>
      refine ⟨others (fun done => done.concat) (by simp), served.answered.concat (by simp),
        served.apart.concat (by simp), served.unserved.concat (by simp)⟩
  | lock =>
      exact ⟨others (fun done => done) (by simp), served.answered, served.apart, served.unserved⟩
  | reuse covered =>
      -- The call has registered, so what is completed covers it.
      have registered := (mem_trace rfl).mp (traced.registered (by simp))
      have answered := counted.answered i registered (by simpa [at_] using covered)
      refine ⟨others (fun done => done) ?_, served.answered, served.apart, served.unserved⟩
      rintro err ⟨⟩
      exact answered
  | @gather _ _ id _ uncovered =>
      cases named
      have registered := (mem_trace rfl).mp (traced.registered (by simp))
      refine ⟨others (fun done => done.concat) (by simp), served.answered.concat (by simp),
        served.apart.concat ?_, served.unserved.concat ?_⟩
      · intro k last j begun
        apply faithful.closed begun
        intro through
        constructor
        all_goals
          intro inside
          have own := alone j (by simp [Phase.Holding]) (by rw [inside]; trivial)
          rw [own, at_] at inside
          cases inside
      · intro j last k err done
        cases last
        rcases (counted.completed _ registered).mp ⟨k, err, done⟩ with past | ⟨j, t, recorded, -⟩
        · rw [at_] at past
          dsimp only at past
          omega
        · have own := alone j (by simp [Phase.Holding])
            (Phase.holding_of_through (Phase.through_of_recorded recorded))
          rw [own, at_] at recorded
          cases recorded
  | start =>
      refine ⟨others (fun done => done.concat) (by simp), served.answered.concat (by simp),
        served.apart.concat (by simp), served.unserved.concat (by simp)⟩
  | finish =>
      refine ⟨others (fun done => done.concat) (by simp), served.answered.concat (by simp),
        served.apart.concat (by simp), served.unserved.concat (by simp)⟩
  | panic =>
      refine ⟨others (fun done => done.concat) (by simp), served.answered.concat (by simp),
        served.apart.concat (by simp), served.unserved.concat (by simp)⟩
  | record =>
      refine ⟨others (fun done => done) ?_, served.answered, served.apart, served.unserved⟩
      rintro err ⟨⟩
      have ran := faithful.ran ((mem_trace rfl).mp traced.recorded)
      exact ⟨i, List.Sublist.trans (by simp) ran⟩
  | @leave _ _ id err _ =>
      cases named
      refine ⟨others (fun done => done.concat) (by simp), served.answered.concat ?_,
        served.apart.concat (by simp), served.unserved.concat (by simp)⟩
      rintro j err' ⟨⟩
      exact served.leaving _ err (by rw [at_])
  | unwind =>
      exact ⟨others (fun done => done) (by simp), served.answered, served.apart, served.unserved⟩

theorem Counted.step {i : ι} {outcome : Outcome ε} {call call' : Call ι ε} {s : Service ι ε}
    (inv : Inv c) (at_ : c.threads i = call) (moves : Moves outcome call c.shared call' s) :
    Counted (fun j => (Function.update c.threads i call' j).requestID)
      (fun j => (Function.update c.threads i call' j).phase) s := by
  obtain ⟨faithful, exclusive, counted, -⟩ := inv
  have named : call.caller = i := at_ ▸ faithful.named i
  have traced := faithful.traced i
  have alone : (c.threads i).phase.Holding → ∀ j, (c.threads j).phase.Holding → j = i :=
    fun holding j holding' => exclusive.alone j i holding' holding
  have phases : (fun j => (Function.update c.threads i call' j).phase) =
      Function.update (fun j => (c.threads j).phase) i call'.phase :=
    Function.comp_update _ _ _ _
  have ids : (fun j => (Function.update c.threads i call' j).requestID) =
      Function.update (fun j => (c.threads j).requestID) i call'.requestID :=
    Function.comp_update _ _ _ _
  have unchanged : call'.requestID = call.requestID →
      Function.update (fun j => (c.threads j).requestID) i call'.requestID =
        fun j => (c.threads j).requestID := by
    intro same
    rw [same, ← at_]
    exact Function.update_eq_self i _
  -- What a phase covers or records is what it was, for calls other than `i`.
  have through : (∀ t, call'.phase.through = some t → call.phase.through = some t) → ∀ k t,
      (Function.update (fun j => (c.threads j).phase) i call'.phase k).through = some t →
        (c.threads k).phase.through = some t := by
    intro own k t covers
    by_cases self : k = i
    · rw [self, Function.update_self] at covers
      rw [self, at_]
      exact own t covers
    · rwa [Function.update_of_ne self] at covers
  have recorded : call'.phase.recorded = call.phase.recorded → ∀ k,
      (Function.update (fun j => (c.threads j).phase) i call'.phase k).recorded =
        (c.threads k).phase.recorded := by
    intro own k
    by_cases self : k = i
    · rw [self, Function.update_self, at_]
      exact own
    · rw [Function.update_of_ne self]
  rw [at_] at traced alone
  rw [phases, ids]
  cases moves with
  | register =>
      cases named
      apply counted.register
      · rw [← mem_trace rfl]
        exact traced.not_registered
      · rw [at_]
  | lock =>
      rw [unchanged rfl]
      exact counted.quiet rfl rfl rfl (through (by simp [Phase.through])) (recorded rfl)
        (by simp) (by simp) (by simp)
  | reuse =>
      rw [unchanged rfl]
      exact counted.quiet rfl rfl rfl (through (by simp [Phase.through])) (recorded rfl)
        (by simp) (by simp) (by simp)
  | gather =>
      cases named
      rw [unchanged rfl]
      apply counted.gather (alone trivial)
      · rw [← mem_trace rfl]
        exact traced.not_gathered
      · rw [at_]
  | start =>
      rw [unchanged rfl]
      exact counted.quiet rfl rfl rfl (through (by simp [Phase.through])) (recorded rfl)
        (by simp) (by simp [gathered_concat]) (by simp [done_concat])
  | finish =>
      cases named
      rw [unchanged rfl]
      exact counted.finish (alone trivial) (by rw [at_])
  | panic =>
      rw [unchanged rfl]
      exact counted.quiet rfl rfl rfl (through (by simp [Phase.through])) (recorded rfl)
        (by simp) (by simp [gathered_concat]) (by simp [done_concat])
  | record =>
      cases named
      rw [unchanged rfl]
      apply counted.record (alone trivial) (by rw [at_])
      intro j sub
      apply sublist_glue faithful.nodup (l := [Event.registered j]) sub
      refine List.Sublist.trans (by simp) (faithful.ran ((mem_trace rfl).mp traced.recorded))
  | leave =>
      rw [unchanged rfl]
      exact counted.quiet rfl rfl rfl (through (by simp [Phase.through])) (recorded rfl)
        (by simp) (by simp [gathered_concat]) (by simp [done_concat])
  | unwind =>
      rw [unchanged rfl]
      exact counted.quiet rfl rfl rfl (through (by simp [Phase.through])) (recorded rfl)
        (by simp) (by simp) (by simp)

theorem Inv.initial (nil : ε) : Inv (initial nil : Pool ι (Call ι ε) (Service ι ε)) where
  faithful := ⟨fun _ => rfl, fun _ => .entered⟩
  exclusive := ⟨fun _ => False.elim, fun _ _ => False.elim⟩
  counted := by
    constructor <;> simp [FullRebuild.initial, Phase.through]
  served := by
    constructor <;> simp [FullRebuild.initial, Answered, Apart, Unserved]

theorem Inv.step {i : ι} {outcome : Outcome ε} {call : Call ι ε} {s : Service ι ε} (inv : Inv c)
    (stepped : step outcome (c.threads i) c.shared = some (call, s)) :
    Inv { shared := s, threads := Function.update c.threads i call } where
  faithful := inv.faithful.step (step_moves stepped)
  exclusive := inv.exclusive.step rfl (step_moves stepped)
  counted := Counted.step inv rfl (step_moves stepped)
  served := Served.step inv rfl (step_moves stepped)

theorem run_inv (nil : ε) (schedule : List (ι × Outcome ε)) :
    Inv (Pool.run step schedule (initial nil)) :=
  Pool.run_invariant step Inv (fun _ _ _ _ _ inv stepped => inv.step stepped) schedule
    (.initial nil)

end Runs

/-! ### Which run serves which call -/

section Serving

variable {ι : Type u} {ε : Type v}

/-- The run of `k` serves the call `i`: it covers the request of `i` and returned, and no other
run that covers this request returned before `k` fixed what its own one covers. -/
def Serves (history : List (Event ι ε)) (k i : ι) : Prop :=
  (∃ err, Done history i k err) ∧
    ∀ j err, ¬ [.registered i, .gathered j, .ended j (.returned err), .gathered k].Sublist history

/-- Of the runs that cover a request and return there is a first one. -/
theorem exists_serves {history : List (Event ι ε)} {i k : ι} {err : ε} (nodup : history.Nodup)
    (done : Done history i k err) : ∃ k', Serves history k' i := by
  induction history using List.reverseRecOn generalizing k err with
  | nil => cases done
  | append_singleton history last ih =>
      obtain ⟨nodup', -, fresh⟩ := List.nodup_append.mp nodup
      by_cases earlier : ∃ k err, Done history i k err
      · obtain ⟨k', err', done'⟩ := earlier
        obtain ⟨first, ⟨err'', served⟩, unserved⟩ := ih nodup' done'
        refine ⟨first, ⟨err'', served.concat⟩, ?_⟩
        intro j err sub
        rcases (concat_sublist_concat
          (l := [Event.registered i, .gathered j, .ended j (.returned err)])).mp sub with
          before | ⟨same, -⟩
        · exact unserved j err before
        · exact fresh (.gathered first) (List.Sublist.subset served (by simp)) last (by simp) same
      · rcases done_concat.mp done with before | ⟨rfl, sub⟩
        · exact absurd ⟨k, err, before⟩ earlier
        · refine ⟨k, ⟨err, done⟩, ?_⟩
          intro j err' sub'
          rcases (concat_sublist_concat
            (l := [Event.registered i, .gathered j, .ended j (.returned err')])).mp sub' with
            before | ⟨same, -⟩
          · exact earlier ⟨j, err', List.Sublist.trans (by simp) before⟩
          · cases same

variable [DecidableEq ι] {c : Pool ι (Call ι ε) (Service ι ε)}

/-- The runs of two calls that both returned, one before the other. -/
theorem Inv.done_before (inv : Inv c) {i k k' : ι} {err : ε} (done : Done c.shared.history i k err)
    (sub : [.gathered k, .gathered k'].Sublist c.shared.history) :
    [.registered i, .gathered k, .ended k (.returned err), .gathered k'].Sublist
      c.shared.history := by
  obtain ⟨outcome, apart⟩ := inv.served.apart k k' sub
  have ended : .ended k (.returned err) ∈ c.shared.history := List.Sublist.subset done (by simp)
  have same : outcome = .returned err :=
    (inv.faithful.traced k).ended_inj ((mem_trace rfl).mpr (apart.subset (by simp)))
      ((mem_trace rfl).mpr ended)
  subst same
  exact sublist_glue inv.faithful.nodup (l := [Event.registered i])
    (List.Sublist.trans (by simp) done) apart

theorem Inv.serves_unique (inv : Inv c) {i k k' : ι} (serves : Serves c.shared.history k i)
    (serves' : Serves c.shared.history k' i) : k = k' := by
  obtain ⟨⟨err, done⟩, first⟩ := serves
  obtain ⟨⟨err', done'⟩, first'⟩ := serves'
  by_contra ne
  have gathered : .gathered k ∈ c.shared.history := List.Sublist.subset done (by simp)
  have gathered' : .gathered k' ∈ c.shared.history := List.Sublist.subset done' (by simp)
  rcases pair_sublist_or (by simpa using ne) gathered gathered' with sub | sub
  · exact first' k err (inv.done_before done sub)
  · exact first k' err' (inv.done_before done' sub)

/-- A call that ran the rebuild itself is served by its own run. -/
theorem Inv.serves_itself (inv : Inv c) {i : ι} {err : ε}
    (ended : .ended i (.returned err) ∈ c.shared.history) : Serves c.shared.history i i :=
  ⟨⟨err, List.Sublist.trans (by simp) (inv.faithful.ran ended)⟩,
    fun j err => inv.served.unserved i j err⟩

/-- Two calls of `run` do not overlap. -/
theorem Inv.runs_apart (inv : Inv c) {j k : ι}
    (sub : [.started j, .started k].Sublist c.shared.history) :
    ∃ outcome, [.started j, .ended j outcome, .started k].Sublist c.shared.history := by
  have nodup := inv.faithful.nodup
  have begun : ∀ i, .started i ∈ c.shared.history →
      [.gathered i, .started i].Sublist c.shared.history := fun i started =>
    ((inv.faithful.traced i).begun ((mem_trace rfl).mpr started)).trans List.filter_sublist
  have first := begun j (sub.subset (by simp))
  have second := begun k (sub.subset (by simp))
  -- A run that is fixed after another one starts after the other one has ended.
  have after : ∀ {j k}, [.gathered j, .gathered k].Sublist c.shared.history →
      [.gathered k, .started k].Sublist c.shared.history →
      ∃ outcome,
        [.started j, .ended j outcome, .gathered k, .started k].Sublist c.shared.history := by
    intro j k order started
    obtain ⟨outcome, apart⟩ := inv.served.apart j k order
    have ran := inv.faithful.ran (apart.subset (by simp) : .ended j outcome ∈ c.shared.history)
    refine ⟨outcome, ?_⟩
    apply sublist_glue nodup (l := [Event.started j, .ended j outcome]) _ started
    exact sublist_glue nodup (l := [Event.started j]) (List.Sublist.trans (by simp) ran)
      (List.Sublist.trans (by simp) apart)
  have ne : j ≠ k := by
    rintro rfl
    simpa using sub.nodup nodup
  rcases pair_sublist_or (by simpa using ne) (first.subset (by simp) : .gathered j ∈ _)
    (second.subset (by simp) : .gathered k ∈ _) with order | order
  · obtain ⟨outcome, sub⟩ := after order second
    exact ⟨outcome, List.Sublist.trans (by simp) sub⟩
  · obtain ⟨outcome, sub'⟩ := after order first
    have twice := sublist_glue nodup (l := [Event.started k, .ended k outcome, .gathered j]) sub' sub
    simpa using twice.nodup nodup

/-- A call returns the error of a run that started after it registered. -/
theorem Inv.returned_after (inv : Inv c) {i : ι} {err : ε}
    (returned : .returned i err ∈ c.shared.history) :
    ∃ k, [.registered i, .started k, .ended k (.returned err), .returned i err].Sublist
      c.shared.history := by
  have nodup := inv.faithful.nodup
  obtain ⟨k, sub⟩ := inv.served.answered i err returned
  have ran := inv.faithful.ran
    (sub.subset (by simp) : .ended k (.returned err) ∈ c.shared.history)
  have covered : [.registered i, .gathered k, .started k, .ended k (.returned err)].Sublist
      c.shared.history :=
    sublist_glue nodup (l := [Event.registered i]) (List.Sublist.trans (by simp) sub)
      (List.Sublist.trans (by simp) ran)
  have whole : [.registered i, .gathered k, .started k, .ended k (.returned err),
      .returned i err].Sublist c.shared.history :=
    sublist_glue nodup (l := [Event.registered i, .gathered k, .started k]) covered
      (List.Sublist.trans (by simp) sub)
  exact ⟨k, List.Sublist.trans (by simp) whole⟩

/-- Full rebuilds coalesce without skipping a request. After every schedule of the steps of any
calls: what a call returns is the error of a run that started after it registered; of two runs one
has ended before the other starts; and a call that returned is served by exactly one run, its own
one when it ran the rebuild itself. No call does anything twice. -/
theorem rebuilds_coalesce (nil : ε) (schedule : List (ι × Outcome ε)) :
    let c := Pool.run step schedule (initial nil : Pool ι (Call ι ε) (Service ι ε))
    let history := c.shared.history
    (∀ i err, (c.threads i).phase = .returned err ↔ .returned i err ∈ history) ∧
      (∀ i err, .returned i err ∈ history → ∃ k,
        [.registered i, .started k, .ended k (.returned err), .returned i err].Sublist history) ∧
      (∀ j k, [.started j, .started k].Sublist history →
        ∃ outcome, [.started j, .ended j outcome, .started k].Sublist history) ∧
      (∀ i err, .returned i err ∈ history → ∃! k, Serves history k i) ∧
      (∀ i err, .ended i (.returned err) ∈ history → Serves history i i) ∧
      history.Nodup := by
  intro c history
  have inv : Inv c := run_inv nil schedule
  refine ⟨?_, fun i err => inv.returned_after, fun j k => inv.runs_apart, ?_, fun i err => inv.serves_itself,
    inv.faithful.nodup⟩
  · intro i err
    rw [← mem_trace (i := i) rfl]
    exact (inv.faithful.traced i).returned_iff
  · intro i err returned
    obtain ⟨k, sub⟩ := inv.served.answered i err returned
    obtain ⟨first, serves⟩ := exists_serves inv.faithful.nodup
      (show Done history i k err from List.Sublist.trans (by simp) sub)
    exact ⟨first, serves, fun k' serves' => inv.serves_unique serves' serves⟩

end Serving

end Sub2api.Scheduler.FullRebuild
