import Sub2api.SessionLimit.Activity

/-!
# When the limit holds

Every call keeps what the key and the history agree on, except a query with a shorter timeout than
the account's that an active session has been idle for: it takes that session out of the key.
-/

namespace Sub2api.SessionLimit

open Redis

variable {c : Cache} {account : Account} {h : History} {key : Key String} {clock : ℤ}
  {session : String}

theorem registerSessionScript_spec (session : String) (agree : Agree c account h key clock)
    (limited : 0 < account.maxSessions) :
    let result :=
      registerSessionScript account.maxSessions (timeout c account) session clock key
    Agree c account
        (if result.2 = true then Function.update h session (some (timeOf clock)) else h) result.1
        clock ∧
      (h.Active c account clock session → result.2 = true) := by
  have pruned := agree.prune limited patient_timeout
  unfold registerSessionScript
  dsimp only
  split
  · rename_i there
    rw [if_pos rfl]
    exact ⟨pruned.touch limited (Or.inl (SortedSet.score_isSome.mp there)), fun _ => rfl⟩
  · rename_i absent
    split
    · rename_i room
      rw [if_pos rfl]
      exact ⟨pruned.touch limited (Or.inr room), fun _ => rfl⟩
    · rw [if_neg Bool.false_ne_true]
      refine ⟨pruned, fun active => absurd ?_ absent⟩
      obtain ⟨time, at_, -⟩ := active_iff.mp active
      rw [pruned.score active, at_]
      rfl

variable {call : Call}

theorem Call.apply_failed (failed : call.env.outcome = .failed) :
    call.apply c account key = key := by
  have effect : ∀ after : Key String, call.env.effect key after = key :=
    fun after => if_pos failed
  unfold Call.apply
  cases call.op with
  | register session =>
      unfold Cache.registerSession
      dsimp only
      split
      · rfl
      · exact effect _
  | unregister session =>
      unfold Cache.unregisterSession
      dsimp only
      split
      · rfl
      · exact effect _
  | refresh session =>
      unfold Cache.refreshSession
      dsimp only
      split
      · rfl
      · exact effect _
  | count => exact effect _
  | countBatch idleTimeout => exact effect _
  | isActive session => rfl

/-- A call keeps the agreement when no active session has been idle for the timeout it counts
with. -/
theorem step_agree {s : State} (agree : Agree c account s.lastSeen s.key call.env.clock)
    (limited : 0 < account.maxSessions)
    (patient : ∀ queried, call.queries c = some queried →
      Patient c account s.lastSeen queried call.env.clock) :
    Agree c account (s.step c account call).lastSeen (s.step c account call).key
      call.env.clock := by
  change Agree c account (s.seen c account call) (call.apply c account s.key) call.env.clock
  by_cases failed : call.env.outcome = .failed
  · rw [Call.apply_failed failed]
    unfold State.seen
    rw [if_pos failed]
    exact agree
  · have effect : ∀ after : Key String, call.env.effect s.key after = after :=
      fun after => if_neg failed
    unfold State.seen Call.apply
    unfold Call.queries at patient
    rw [if_neg failed] at patient ⊢
    cases op : call.op with
    | register session =>
        obtain ⟨registered, -⟩ := registerSessionScript_spec session agree limited
        unfold Cache.registerSession
        dsimp only
        by_cases blank : session = ""
        · rw [if_neg fun counts => counts.1 blank, if_pos (Or.inl blank)]
          exact agree
        · rw [if_neg (show ¬(session = "" ∨ account.maxSessions ≤ 0) by
            rintro (blank' | none_)
            · exact blank blank'
            · omega)]
          dsimp only
          rw [effect]
          by_cases allowed : (registerSessionScript account.maxSessions (timeout c account) session
              call.env.clock s.key).2 = true
          · rw [if_pos allowed] at registered
            rw [if_pos ⟨blank, limited, allowed⟩]
            exact registered
          · rw [if_neg allowed] at registered
            rw [if_neg fun counts => allowed counts.2.2]
            exact registered
    | unregister session =>
        unfold Cache.unregisterSession
        dsimp only
        by_cases blank : session = ""
        · rw [if_pos blank, if_pos blank]
          exact agree
        · rw [if_neg blank, if_neg blank, effect]
          exact agree.remove limited session
    | refresh session =>
        unfold Cache.refreshSession
        dsimp only
        by_cases blank : session = ""
        · rw [if_neg fun counts => counts.1 blank, if_pos blank]
          exact agree
        · rw [if_neg blank, effect]
          unfold refreshSessionScript
          by_cases there : session ∈ (s.key.content call.env.clock).members
          · rw [if_pos ⟨blank, Or.inr there⟩, if_pos (SortedSet.score_isSome.mpr there)]
            exact agree.touch limited (Or.inl there)
          · rw [if_neg (fun isSome => there (SortedSet.score_isSome.mp isSome)), if_neg]
            · exact agree
            · rintro ⟨-, active | there'⟩
              · obtain ⟨time, at_, -⟩ := active_iff.mp active
                apply there
                apply SortedSet.score_isSome.mp
                rw [agree.score active, at_]
                rfl
              · exact there there'
    | count =>
        unfold Cache.getActiveSessionCount getActiveSessionCountScript
        dsimp only
        rw [effect]
        apply agree.prune limited
        apply patient
        rw [op]
    | countBatch idleTimeout =>
        unfold Cache.getActiveSessionCountBatch getActiveSessionCountScript
        dsimp only
        rw [effect]
        apply agree.prune limited
        apply patient
        rw [op]
    | isActive session => exact agree

/-- Calls other than unregistering keep sessions active. -/
theorem step_active {s : State} (positive : 0 < timeout c account)
    (stays : ∀ session, call.op ≠ .unregister session)
    (active : s.lastSeen.Active c account call.env.clock session) :
    (s.step c account call).lastSeen.Active c account call.env.clock session := by
  have updated : ∀ other, History.Active c account
      (Function.update s.lastSeen other (some (timeOf call.env.clock))) call.env.clock session := by
    intro other
    by_cases same : session = other
    · subst same
      apply active_iff.mpr ⟨timeOf call.env.clock, Function.update_self .., by omega⟩
    · obtain ⟨time, at_, recent⟩ := active_iff.mp active
      apply active_iff.mpr ⟨time, ?_, recent⟩
      rw [Function.update_of_ne same]
      exact at_
  change History.Active c account (s.seen c account call) call.env.clock session
  unfold State.seen
  split
  · exact active
  · cases op : call.op with
    | unregister other => exact absurd op (stays other)
    | register other =>
        dsimp only
        split
        · exact updated other
        · exact active
    | refresh other =>
        dsimp only
        split
        · exact updated other
        · exact active
    | count => exact active
    | countBatch idleTimeout => exact active
    | isActive other => exact active

theorem Agree.mem (agree : Agree c account h key clock)
    (active : h.Active c account clock session) : session ∈ (key.content clock).members := by
  obtain ⟨time, at_, -⟩ := active_iff.mp active
  apply SortedSet.score_isSome.mp
  rw [agree.score active, at_]
  rfl

/-- While key and history agree there are no more active sessions than the maximum. -/
theorem Agree.cap (agree : Agree c account h key clock) (limited : 0 < account.maxSessions)
    (sessions : Finset String) (active : ∀ session ∈ sessions, h.Active c account clock session) :
    (sessions.card : ℤ) ≤ account.maxSessions := by
  have subset : sessions ⊆ (key.content clock).members :=
    fun session mem => agree.mem (active session mem)
  have count := Finset.card_le_card subset
  rw [SortedSet.card_members] at count
  have := agree.card_content limited
  omega

theorem registerSession_admits {env : Env} (agree : Agree c account h key env.clock)
    (limited : 0 < account.maxSessions) (active : h.Active c account env.clock session) :
    (c.registerSession session account.maxSessions account.idleTimeout env key).2.value = true := by
  obtain ⟨-, allowed⟩ := registerSessionScript_spec session agree limited
  unfold Cache.registerSession
  split
  · rfl
  · unfold Env.answer
    dsimp only
    by_cases done : env.outcome = .done
    · rw [if_pos done]
      exact allowed active
    · rw [if_neg done]

theorem step_correct {s : State} (agree : Agree c account s.lastSeen s.key call.env.clock)
    (limited : 0 < account.maxSessions) (positive : 0 < timeout c account)
    (patient : ∀ queried, call.queries c = some queried →
      Patient c account s.lastSeen queried call.env.clock) :
    Correct c account s call where
  cap _ passes sessions active :=
    ((step_agree agree limited patient).later passes).cap limited sessions active
  admitted _ _ active := registerSession_admits agree limited active
  kept stays _ active _ :=
    (step_agree agree limited patient).mem (step_active positive stays active)

/-- A call that keeps the active sessions does not count with a timeout one has been idle for. -/
theorem patient_of_correct {s : State} (agree : Agree c account s.lastSeen s.key call.env.clock)
    (correct : Correct c account s call) {queried : ℤ} (queries : call.queries c = some queried) :
    Patient c account s.lastSeen queried call.env.clock := by
  intro session time at_ active
  have pruned : (s.step c account call).key = prune queried call.env.clock s.key ∧
      ∀ other, call.op ≠ .unregister other := by
    change call.apply c account s.key = _ ∧ _
    unfold Call.queries at queries
    split at queries
    · cases queries
    · rename_i took
      have effect : ∀ after : Key String, call.env.effect s.key after = after :=
        fun after => if_neg took
      unfold Call.apply
      cases op : call.op with
      | count =>
          rw [op] at queries
          cases queries
          exact ⟨effect _, fun other => nofun⟩
      | countBatch idleTimeout =>
          rw [op] at queries
          cases queries
          exact ⟨effect _, fun other => nofun⟩
      | _ =>
          rw [op] at queries
          cases queries
  have kept := correct.kept pruned.2 session active (agree.mem active)
  rw [pruned.1, ← SortedSet.score_isSome, content_prune, SortedSet.score_removeUpTo,
    agree.score active, at_] at kept
  by_contra idle
  rw [Option.filter_some, if_neg (by simpa using idle)] at kept
  cases kept

/-! ### Runs -/

theorem run_concat (calls : List Call) (call : Call) :
    run c account (calls ++ [call]) = (run c account calls).step c account call := by
  unfold run
  rw [List.foldl_append]
  rfl

/-- The agreement after a run whose calls are all correct, or all patient. -/
theorem run_agree (limited : 0 < account.maxSessions) {calls : List Call}
    (order : calls.Pairwise fun first second => first.env.clock ≤ second.env.clock)
    (good : ∀ earlier call later, calls = earlier ++ call :: later →
      Agree c account (run c account earlier).lastSeen (run c account earlier).key
          call.env.clock →
        ∀ queried, call.queries c = some queried →
          Patient c account (run c account earlier).lastSeen queried call.env.clock)
    {clock : ℤ} (after : ∀ call ∈ calls, call.env.clock ≤ clock) :
    Agree c account (run c account calls).lastSeen (run c account calls).key clock := by
  induction calls using List.reverseRecOn generalizing clock with
  | nil => exact agree_empty limited
  | append_singleton calls call ih =>
      obtain ⟨order_, -, last⟩ := List.pairwise_append.mp order
      have agree := ih order_
        (fun earlier call' later same =>
          good earlier call' (later ++ [call]) (by rw [same]; simp))
        (fun call' mem => last call' mem call (List.mem_singleton_self call))
      rw [run_concat]
      apply (step_agree agree limited (good calls call [] rfl agree)).later
      exact after call (by simp)

theorem split_agree (limited : 0 < account.maxSessions) {calls : List Call}
    (order : calls.Pairwise fun first second => first.env.clock ≤ second.env.clock)
    (good : ∀ earlier call later, calls = earlier ++ call :: later →
      Agree c account (run c account earlier).lastSeen (run c account earlier).key call.env.clock →
      ∀ queried, call.queries c = some queried →
      Patient c account (run c account earlier).lastSeen queried call.env.clock)
    {earlier later : List Call} (same : calls = earlier ++ call :: later) :
    Agree c account (run c account earlier).lastSeen (run c account earlier).key
      call.env.clock := by
  subst same
  obtain ⟨order_, -, last⟩ := List.pairwise_append.mp order
  apply run_agree limited order_
  · intro earlier' call' later' same
    exact good earlier' call' (later' ++ call :: later) (by rw [same]; simp)
  · exact fun call' mem => last call' mem call (List.mem_cons_self ..)

theorem timeout_pos (minutes : ℤ) (account : Account) :
    0 < timeout (newSessionLimitCache minutes) account := by
  have default_ : 0 < seconds (newSessionLimitCache minutes).defaultIdleTimeout := by
    unfold newSessionLimitCache seconds
    dsimp only
    rw [show (if minutes ≤ 0 then (5 : ℤ) else minutes) * 60000000000 =
      (if minutes ≤ 0 then (5 : ℤ) else minutes) * 60 * 1000000000 by omega,
      Int.mul_tdiv_cancel _ (by omega)]
    split <;> omega
  unfold timeout Cache.idleTimeoutSeconds
  split
  · exact default_
  · omega

/-- The limit holds in exactly the runs in which no call counts sessions with a timeout that an
active session has been idle for. -/
theorem limitHolds_iff_alwaysPatient (minutes : ℤ) (account : Account)
    (limited : 0 < account.maxSessions) (calls : List Call)
    (order : calls.Pairwise fun first second => first.env.clock ≤ second.env.clock) :
    LimitHolds (newSessionLimitCache minutes) account calls ↔
      AlwaysPatient (newSessionLimitCache minutes) account calls := by
  constructor
  · intro holds earlier call later same queried queries
    have agree := split_agree limited order (fun earlier call later same agree queried queries =>
      patient_of_correct agree (holds earlier call later same) queries) same
    exact patient_of_correct agree (holds earlier call later same) queries
  · intro patient earlier call later same
    have agree := split_agree limited order (fun earlier call later same _ =>
      patient earlier call later same) same
    exact step_correct agree limited (timeout_pos minutes account)
      (patient earlier call later same)

/-- A query with the account's timeout or a longer one is patient. -/
theorem alwaysPatient_of_long {calls : List Call}
    (long : ∀ call ∈ calls, ∀ queried, call.queries c = some queried →
      timeout c account ≤ queried) : AlwaysPatient c account calls := by
  intro earlier call later same queried queries session time at_ active
  have longer := long call (by rw [same]; simp) queried queries
  have recent := patient_timeout session time at_ active
  omega

namespace Sample

/-- One session at a time, with thirty minutes of idle time. -/
def single : Account where
  maxSessions := 1
  idleTimeout := 1800000000000

/-- A second session asks after somebody has counted the sessions. -/
def calls (op : Op) : List Call :=
  [⟨.register "a", ⟨0, .done⟩⟩, ⟨op, ⟨400000, .done⟩⟩, ⟨.register "b", ⟨401000, .done⟩⟩]

end Sample

theorem limit_holds_with_batch_counts :
    LimitHolds (newSessionLimitCache 5) Sample.single
      (Sample.calls (.countBatch (some 1800000000000))) := by
  apply (limitHolds_iff_alwaysPatient 5 Sample.single (by decide) _ (by decide)).mpr
  apply alwaysPatient_of_long
  decide

/-- Counting with the default of five minutes drops the session that has been idle for almost seven,
and the second session is let in beside it. -/
theorem count_lets_two_in :
    ¬ LimitHolds (newSessionLimitCache 5) Sample.single (Sample.calls .count) := by
  intro holds
  have correct := holds [⟨.register "a", ⟨0, .done⟩⟩, ⟨.count, ⟨400000, .done⟩⟩]
    ⟨.register "b", ⟨401000, .done⟩⟩ [] rfl
  have cap := correct.cap 401000 (by decide) {"a", "b"} (by decide +kernel)
  revert cap
  decide

end Sub2api.SessionLimit
