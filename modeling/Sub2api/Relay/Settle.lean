import Sub2api.Relay.Accounts

/-!
# Every turn settled once

`Books` relates the relay's accumulator and its waiting error to the frames seen and the callbacks
made. A frame that fits keeps them right, so over a run each response is reported at most once with
its turn's usage, and the totals are the sum of what was reported.
-/

namespace Sub2api.Relay

open Sub2api.Go Sub2api.Go.Gjson Transducer RelayState

/-! ### The books -/

/-- The callbacks so far. -/
def collect (results : List RelayTurnResult) (result : RelayTurnResult) :
    Option (List RelayTurnResult) :=
  some (results ++ [result])

/-- All usage seen is of turns that have had a terminal event. -/
def AllEnded (seen : List TurnFrame) : Prop :=
  ∀ f ∈ seen, f.usage ≠ none → Ended seen f.turn

/-- The error that waits is that of the last turn, which is not reported yet and whose usage the
accumulator has. -/
structure Waiting (ids : ℕ → String) (s : RelayState) (seen : List TurnFrame)
    (results : List RelayTurnResult) (waiting : ObservedUpstreamEvent) (turn : ℕ) : Prop where
  error : waiting.eventType = "error"
  named : waiting.responseID = "" ∨ waiting.responseID = ids turn
  ended : Ended seen turn
  last : ∀ earlier, Ended seen earlier → earlier ≤ turn
  unreported : ∀ result ∈ results, result.requestID ≠ ids turn
  usage : s.turnUsage = (account seen turn).usage
  allEnded : AllEnded seen

/-- The totals, the callbacks and the accumulator agree with the frames seen. -/
structure Books (ids : ℕ → String) (s : RelayState) (seen : List TurnFrame)
    (results : List RelayTurnResult) : Prop where
  total : s.usage = (results.map RelayTurnResult.usage).sum
  once : ∀ id, id ≠ "" → (results.filter fun result => result.requestID = id).length ≤ 1
  reported : ∀ result ∈ results, result.requestID = "" ∨ ∃ turn, result.requestID = ids turn ∧
    Ended seen turn ∧ result.usage = (account seen turn).usage
  waiting : ∀ waiting, s.pendingBareError = some waiting →
    ∃ turn, Waiting ids s seen results waiting turn
  running : s.pendingBareError = none → ∀ turn, ¬Ended seen turn →
    (∀ f ∈ seen, f.turn ≠ turn → f.usage ≠ none → Ended seen f.turn) →
    s.turnUsage = (account seen turn).usage

section Books

variable {ids : ℕ → String} {s s' : RelayState} {seen : List TurnFrame}
  {results : List RelayTurnResult} {f : TurnFrame} {env : RelayEnv}

/-- The books only look at the usage and the waiting error. -/
theorem Books.same (books : Books ids s seen results) (usage : s'.usage = s.usage)
    (turnUsage : s'.turnUsage = s.turnUsage)
    (pendingBareError : s'.pendingBareError = s.pendingBareError) :
    Books ids s' seen results where
  total := usage.trans books.total
  once := books.once
  reported := books.reported
  waiting waiting waits := by
    rw [pendingBareError] at waits
    obtain ⟨turn, now⟩ := books.waiting waiting waits
    exact ⟨turn, { now with usage := turnUsage.trans now.usage }⟩
  running rests turn runs others := by
    rw [pendingBareError] at rests
    exact turnUsage.trans (books.running rests turn runs others)

/-- With nothing left to settle the accumulator is empty. -/
theorem AllEnded.running (allEnded : AllEnded seen) {turn : ℕ} (runs : ¬Ended seen turn) :
    (account seen turn).usage = 0 := by
  apply account_eq_zero
  intro f here about
  by_contra used
  have ended := allEnded f here used
  rw [about] at ended
  exact runs ended

/-- An event without usage that does not end the turn changes nothing. -/
theorem Books.neutral (books : Books ids s seen results) (unused : f.usage = none)
    (goesOn : f.terminal = false) : Books ids s (seen ++ [f]) results := by
  have ended (turn : ℕ) : Ended (seen ++ [f]) turn ↔ Ended seen turn := by
    rw [ended_append, goesOn]
    simp
  have account_ (turn : ℕ) : account (seen ++ [f]) turn = account seen turn := by
    rw [account_append]
    split
    · exact Account.read_unused unused
    · rfl
  refine ⟨books.total, books.once, ?_, ?_, ?_⟩
  · simpa only [ended, account_] using books.reported
  · intro waiting waits
    obtain ⟨turn, now⟩ := books.waiting waiting waits
    refine ⟨turn, now.error, now.named, (ended turn).mpr now.ended, ?_, now.unreported, ?_, ?_⟩
    · simpa only [ended] using now.last
    · rw [account_]
      exact now.usage
    · intro g here used
      rw [ended]
      rcases List.mem_append.mp here with before | this
      · exact now.allEnded g before used
      · cases List.mem_singleton.mp this
        exact absurd unused used
  · intro rests turn runs others
    rw [account_]
    rw [ended] at runs
    apply books.running rests turn runs
    intro g here different used
    exact (ended _).mp (others g (List.mem_append_left _ here) different used)

/-- A settled turn is entered in the books under its id. -/
theorem Books.settle (total : s.usage = (results.map RelayTurnResult.usage).sum)
    (once : ∀ id, id ≠ "" → (results.filter fun result => result.requestID = id).length ≤ 1)
    {turn : ℕ} (unreported : ∀ result ∈ results, result.requestID ≠ ids turn)
    {result : RelayTurnResult} (named : result.requestID = "" ∨ result.requestID = ids turn)
    (usage : result.usage = s.turnUsage) (settled : s'.usage = s.usage + s.turnUsage) :
    s'.usage = ((results ++ [result]).map RelayTurnResult.usage).sum ∧
      ∀ id, id ≠ "" → ((results ++ [result]).filter fun r => r.requestID = id).length ≤ 1 := by
  constructor
  · rw [List.map_append, List.sum_append, settled, total, List.map_singleton, List.sum_singleton,
      usage]
  · intro id some_
    rw [List.filter_append, List.length_append]
    by_cases this : result.requestID = id
    · have own : id = ids turn := by
        rcases named with none_ | own
        · exact absurd (this.symm.trans none_) some_
        · exact this.symm.trans own
      have none_ : results.filter (fun r => r.requestID = id) = [] := by
        rw [List.filter_eq_nil_iff]
        intro r here
        rw [own]
        simpa using unreported r here
      simp [none_, this]
    · have others := once id some_
      simpa [this] using others

/-- A waiting error is settled under the id it waits with. -/
theorem Books.close (trimmed : ∀ turn, ids turn ≠ "" ∧ trimSpace (ids turn) = ids turn)
    (books : Books ids s seen results) {waiting : ObservedUpstreamEvent}
    (waits : s.pendingBareError = some waiting) (now : Time) :
    Keeps collect
      (fun s' results' => Books ids s' seen results' ∧ s'.pendingBareError = none)
      (complete (s.finalizePendingBareError now)) results := by
  obtain ⟨turn, waiting_⟩ := books.waiting waiting waits
  have typed : trimSpace waiting.eventType ≠ "" := by
    rw [waiting_.error]
    decide
  have out : s.finalizePendingBareError now =
      { s with pendingBareError := none }.finalizeObservedRelayTerminal waiting now := by
    rw [finalizePendingBareError, waits]
  have settles := finalizeObservedRelayTerminal_settles (s := { s with pendingBareError := none })
    now typed
  rw [← out] at settles
  have id_ : trimSpace waiting.responseID = waiting.responseID := by
    rcases waiting_.named with none_ | own
    · rw [none_]
      rfl
    · rw [own, (trimmed turn).2]
  rcases settles.emitted with ⟨-, result, emitted, usage, named⟩ | ⟨-, silent, -⟩
  · have rests : (complete (s.finalizePendingBareError now)).1.pendingBareError = none :=
      settles.pendingBareError
    have empty : (complete (s.finalizePendingBareError now)).1.turnUsage = 0 := settles.turnUsage
    have under : result.requestID = "" ∨ result.requestID = ids turn := by
      rw [named, id_]
      exact waiting_.named
    obtain ⟨total, once⟩ := Books.settle books.total books.once waiting_.unreported under usage
      settles.usage
    unfold Keeps
    rw [emitted]
    refine .one rfl ⟨⟨total, once, ?_, ?_, ?_⟩, rests⟩
    · intro r here
      rcases List.mem_append.mp here with before | this
      · exact books.reported r before
      · cases List.mem_singleton.mp this
        rcases under with none_ | own
        · exact Or.inl none_
        · exact Or.inr ⟨turn, own, waiting_.ended, usage.trans waiting_.usage⟩
    · intro waiting' waits'
      rw [rests] at waits'
      cases waits'
    · intro _ turn' runs _
      rw [empty, waiting_.allEnded.running runs]
  · refine absurd ?_ silent
    rw [waiting_.error]
    decide

/-- Where a terminal event or one with usage stands: its turn is the running one, or the one whose
error waits. -/
structure Current (ids : ℕ → String) (s : RelayState) (seen : List TurnFrame)
    (results : List RelayTurnResult) (f : TurnFrame) : Prop where
  usage : s.turnUsage = (account seen f.turn).usage
  unreported : ∀ result ∈ results, result.requestID ≠ ids f.turn
  last : ∀ earlier, Ended seen earlier → earlier ≤ f.turn
  others : ∀ g ∈ seen, g.turn ≠ f.turn → g.usage ≠ none → Ended seen g.turn

theorem Books.current (follow : Function.Injective ids) (some_ : ∀ turn, ids turn ≠ "")
    (books : Books ids s seen results) (ordered : ∀ g ∈ seen, g.turn ≤ f.turn)
    (inTurn : s.pendingBareError.isSome = true ↔ Ended seen f.turn)
    (others : ∀ g ∈ seen, g.turn ≠ f.turn → g.usage ≠ none → Ended seen g.turn) :
    Current ids s seen results f := by
  have last (earlier : ℕ) (ended : Ended seen earlier) : earlier ≤ f.turn := by
    obtain ⟨g, here, rfl, -⟩ := ended
    exact ordered g here
  cases waits : s.pendingBareError with
  | none =>
      have runs : ¬Ended seen f.turn := by
        rw [← inTurn, waits]
        simp
      refine ⟨books.running waits f.turn runs others, ?_, last, others⟩
      intro result here own
      rcases books.reported result here with none_ | ⟨turn, named, ended, -⟩
      · exact some_ f.turn (own.symm.trans none_)
      · have same : turn = f.turn := follow (named.symm.trans own)
        exact runs (same ▸ ended)
  | some waiting =>
      obtain ⟨turn, now⟩ := books.waiting waiting waits
      have ended : Ended seen f.turn := by
        rw [← inTurn, waits]
        rfl
      have same : turn = f.turn := le_antisymm (last turn now.ended) (now.last f.turn ended)
      rw [same] at now
      exact ⟨now.usage, now.unreported, last, others⟩

/-- What is reported of other turns stays right. -/
theorem Books.reported_append (books : Books ids s seen results)
    (unreported : ∀ result ∈ results, result.requestID ≠ ids f.turn) :
    ∀ result ∈ results, result.requestID = "" ∨ ∃ turn, result.requestID = ids turn ∧
      Ended (seen ++ [f]) turn ∧ result.usage = (account (seen ++ [f]) turn).usage := by
  intro result here
  rcases books.reported result here with none_ | ⟨turn, named, ended, usage⟩
  · exact Or.inl none_
  · have other : f.turn ≠ turn := by
      rintro rfl
      exact unreported result here named
    refine Or.inr ⟨turn, named, ended_append.mpr (Or.inl ended), ?_⟩
    rw [account_append, if_neg other]
    exact usage

/-- After a terminal event no usage is left that waits for one. -/
theorem Current.allEnded (current : Current ids s seen results f) (terminal : f.terminal = true) :
    AllEnded (seen ++ [f]) := by
  intro g here used
  rw [ended_append]
  by_cases own : g.turn = f.turn
  · exact Or.inr ⟨own.symm, terminal⟩
  · rcases List.mem_append.mp here with before | this
    · exact Or.inl (current.others g before own used)
    · cases List.mem_singleton.mp this
      exact absurd rfl own

/-- An event with usage that goes on with its turn. -/
theorem Books.goesOn (books : Books ids s seen results) (current : Current ids s seen results f)
    (inTurn : s.pendingBareError.isSome = true ↔ Ended seen f.turn) (goesOn : f.terminal = false)
    (used : f.usage ≠ none) (usage : s'.usage = s.usage)
    (turnUsage : s'.turnUsage = (account (seen ++ [f]) f.turn).usage)
    (pendingBareError : s'.pendingBareError = s.pendingBareError) :
    Books ids s' (seen ++ [f]) results := by
  have ended (turn : ℕ) : Ended (seen ++ [f]) turn ↔ Ended seen turn := by
    rw [ended_append, goesOn]
    simp
  refine ⟨usage.trans books.total, books.once, books.reported_append current.unreported, ?_, ?_⟩
  · intro waiting waits
    rw [pendingBareError] at waits
    obtain ⟨turn, now⟩ := books.waiting waiting waits
    have own : Ended seen f.turn := by
      rw [← inTurn, waits]
      rfl
    have same : turn = f.turn := le_antisymm (current.last turn now.ended) (now.last f.turn own)
    rw [same] at now
    refine ⟨f.turn, now.error, now.named, (ended _).mpr own, ?_, now.unreported, turnUsage, ?_⟩
    · simpa only [ended] using now.last
    · intro g here used'
      rw [ended]
      rcases List.mem_append.mp here with before | this
      · exact now.allEnded g before used'
      · cases List.mem_singleton.mp this
        exact own
  · intro rests turn runs others
    rw [pendingBareError] at rests
    have own : turn = f.turn := by
      by_contra different
      have ended_ := others f (by simp) (Ne.symm different) used
      rw [ended, ← inTurn, rests] at ended_
      cases ended_
    rw [own]
    exact turnUsage

/-- An error that waits from now on. -/
theorem Books.error (books : Books ids s seen results) (current : Current ids s seen results f)
    (terminal : f.terminal = true) {waiting : ObservedUpstreamEvent}
    (error : waiting.eventType = "error")
    (named : waiting.responseID = "" ∨ waiting.responseID = ids f.turn)
    (usage : s'.usage = s.usage)
    (turnUsage : s'.turnUsage = (account (seen ++ [f]) f.turn).usage)
    (waits : s'.pendingBareError = some waiting) : Books ids s' (seen ++ [f]) results := by
  refine ⟨usage.trans books.total, books.once, books.reported_append current.unreported, ?_, ?_⟩
  · intro waiting' waits'
    rw [waits] at waits'
    cases waits'
    refine ⟨f.turn, error, named, ended_append.mpr (Or.inr ⟨rfl, terminal⟩), ?_,
      current.unreported, turnUsage, current.allEnded terminal⟩
    intro earlier ended
    rcases ended_append.mp ended with before | ⟨own, -⟩
    · exact current.last earlier before
    · exact own.symm.le
  · intro rests
    rw [waits] at rests
    cases rests

/-- A settlement with or without a report. -/
theorem Books.terminal {s₁ : RelayState} (books : Books ids s seen results)
    (current : Current ids s seen results f)
    (terminal : f.terminal = true) (usage : s₁.usage = s.usage)
    (turnUsage : s₁.turnUsage = (account (seen ++ [f]) f.turn).usage)
    (settled : s'.usage = s₁.usage + s₁.turnUsage) (empty : s'.turnUsage = 0)
    (rests : s'.pendingBareError = none) {later : List RelayTurnResult}
    (emitted : (∃ result, later = [result] ∧ result.requestID = ids f.turn ∧
        result.usage = s₁.turnUsage) ∨ (later = [] ∧ s₁.turnUsage = 0)) :
    Books ids s' (seen ++ [f]) (results ++ later) := by
  have reported := books.reported_append current.unreported
  have total : s₁.usage = (results.map RelayTurnResult.usage).sum := usage.trans books.total
  have waiting (waiting : ObservedUpstreamEvent) (waits : s'.pendingBareError = some waiting) :
      ∃ turn, Waiting ids s' (seen ++ [f]) (results ++ later) waiting turn := by
    rw [rests] at waits
    cases waits
  have running (turn : ℕ) (runs : ¬Ended (seen ++ [f]) turn) :
      s'.turnUsage = (account (seen ++ [f]) turn).usage := by
    rw [empty, (current.allEnded terminal).running runs]
  rcases emitted with ⟨result, rfl, named, reportedUsage⟩ | ⟨rfl, nothing⟩
  · obtain ⟨total', once⟩ := Books.settle total books.once current.unreported (Or.inr named)
      reportedUsage settled
    refine ⟨total', once, ?_, waiting, fun _ turn runs _ => running turn runs⟩
    intro r here
    rcases List.mem_append.mp here with before | this
    · exact reported r before
    · cases List.mem_singleton.mp this
      exact Or.inr ⟨f.turn, named, ended_append.mpr (Or.inr ⟨rfl, terminal⟩),
        reportedUsage.trans turnUsage⟩
  · rw [List.append_nil] at waiting ⊢
    refine ⟨?_, books.once, reported, waiting, fun _ turn runs _ => running turn runs⟩
    rw [settled, nothing, add_zero, total]

/-! ### Frames -/

theorem TurnFrame.eventType_def (f : TurnFrame) :
    f.eventType = trimSpace (f.payload.get "type").str := rfl

theorem TurnFrame.responseID_def (f : TurnFrame) :
    f.responseID = f.payload.responseID f.eventType := rfl

theorem TurnFrame.usage_def (f : TurnFrame) : f.usage = parseUsage f.payload f.eventType := rfl

theorem TurnFrame.trim_eventType (f : TurnFrame) : trimSpace f.eventType = f.eventType := by
  rw [f.eventType_def, trimSpace_trimSpace]

theorem TurnFrame.untyped (untyped : f.eventType = "") : f.usage = none ∧ f.terminal = false := by
  constructor
  · rw [TurnFrame.usage, untyped]
    simp [parseUsage, shouldParseUsage, isTerminalEvent, trimSpace, hasPrefix]
  · rw [TurnFrame.terminal, untyped]
    decide

attribute [local irreducible] trimSpace isTerminalEvent parseUsageAndAccumulate Payload.responseID
  parseUsage TurnFrame.eventType TurnFrame.responseID

theorem complete_silent {out : RelayState × ObservedUpstreamEvent}
    (silent : out.2.terminal = false) : complete out = (out.1, []) := by
  simp [complete, emitTurnComplete, silent]

theorem heard_usage (s : RelayState) (f : TurnFrame) :
    (s.heard f.payload f.eventType f.now).usage = s.usage := (named_kept f.now _).1

theorem heard_pendingBareError (s : RelayState) (f : TurnFrame) :
    (s.heard f.payload f.eventType f.now).pendingBareError = s.pendingBareError :=
  (named_kept f.now _).2.2

theorem heard_turnUsage (s : RelayState) (f : TurnFrame) :
    (s.heard f.payload f.eventType f.now).turnUsage =
      (parseUsageAndAccumulate s.turnUsage f.payload f.eventType).1 := rfl

theorem heard_unused (unused : f.usage = none) :
    (s.heard f.payload f.eventType f.now).turnUsage = s.turnUsage := by
  rw [f.usage_def] at unused
  rw [heard_turnUsage, parseUsageAndAccumulate, unused]

/-- A frame that fits stands where its turn runs or waits. -/
theorem Fits.stands (fits : Fits ids s seen f)
    (stays : s.shouldFinalizePendingBareError f.payload f.eventType = false) :
    s.pendingBareError.isSome = true ↔ Ended seen f.turn := by
  rw [← fits.inTurn, Waits]
  simp [stays]

variable (follow : Function.Injective ids)
  (trimmed : ∀ turn, ids turn ≠ "" ∧ trimSpace (ids turn) = ids turn)

include follow trimmed in
theorem Fits.current (fits : Fits ids s seen f) (books : Books ids s seen results)
    (ordered : ∀ g ∈ seen, g.turn ≤ f.turn)
    (stays : s.shouldFinalizePendingBareError f.payload f.eventType = false) :
    Current ids s seen results f :=
  books.current follow (fun turn => (trimmed turn).1) ordered (fits.stands stays) fits.others

include follow trimmed in
theorem Books.observe_goesOn (books : Books ids s seen results)
    (ordered : ∀ g ∈ seen, g.turn ≤ f.turn)
    (stays : s.shouldFinalizePendingBareError f.payload f.eventType = false)
    (typed : f.eventType ≠ "") (goesOn : f.terminal = false)
    (fits : f.usage ≠ none → Fits ids s seen f) :
    Keeps collect (fun s' results' => Books ids s' (seen ++ [f]) results')
      (complete (s.observeUpstreamMessage env f.payload f.now)) results := by
  obtain ⟨same, silent⟩ := RelayState.observe_goesOn s env f.payload f.now f.eventType_def typed goesOn
  rw [complete_silent silent]
  apply Keeps.silent
  have usage := same.usage.trans (heard_usage s f)
  have pending := same.pendingBareError.trans (heard_pendingBareError s f)
  by_cases unused : f.usage = none
  · exact (books.neutral unused goesOn).same usage (same.turnUsage.trans (heard_unused unused))
      pending
  · have fits := fits unused
    have current := fits.current follow trimmed books ordered stays
    have running : (account seen f.turn).terminal = none := by
      by_cases ended : Ended seen f.turn
      · exact fits.merges goesOn (fits.inTurn.mpr ended)
      · exact account_terminal_eq_none ended
    apply books.goesOn current (fits.stands stays) goesOn unused usage _ pending
    rw [same.turnUsage, heard_turnUsage, current.usage, accumulate_goesOn running goesOn,
      account_append, if_pos rfl]

/-- The accumulator after a terminal event. -/
theorem Current.heard_turnUsage (current : Current ids s seen results f)
    (fits : Fits ids s seen f) (terminal : f.terminal = true) :
    (s.heard f.payload f.eventType f.now).turnUsage = (account (seen ++ [f]) f.turn).usage := by
  rw [Relay.heard_turnUsage, current.usage,
    accumulate_terminal account_sound terminal (fits.counts terminal), account_append, if_pos rfl]

include follow trimmed in
theorem Books.observe_error (books : Books ids s seen results)
    (ordered : ∀ g ∈ seen, g.turn ≤ f.turn)
    (named : f.responseID = "" ∨ f.responseID = ids f.turn)
    (stays : s.shouldFinalizePendingBareError f.payload f.eventType = false)
    (error : f.eventType = "error") (terminal : f.terminal = true) (fits : Fits ids s seen f) :
    Keeps collect (fun s' results' => Books ids s' (seen ++ [f]) results')
      (complete (s.observeUpstreamMessage env f.payload f.now)) results := by
  have current := fits.current follow trimmed books ordered stays
  obtain ⟨s', waiting, same, typed, responseID, out, silent⟩ :=
    RelayState.observe_error s env f.payload f.now f.eventType_def error terminal
  rw [complete_silent silent]
  apply Keeps.silent
  rw [out]
  rw [← f.responseID_def] at responseID
  have waits : waiting.responseID = "" ∨ waiting.responseID = ids f.turn := by
    rw [responseID]
    by_cases unnamed : f.responseID = ""
    · have active : s'.activeTurn = s.activeTurn := by
        rw [same.activeTurn, heard, RelayState.named, ← f.responseID_def, if_pos unnamed]
      rw [if_pos unnamed, activeTurnID, active]
      rcases fits.own error unnamed with none_ | own
      · left
        rw [none_]
        rfl
      · right
        rw [own]
        rfl
    · rw [if_neg unnamed]
      exact named
  have books' : Books ids { s' with pendingBareError := some waiting } (seen ++ [f]) results :=
    books.error current terminal (typed.trans error) waits (same.usage.trans (heard_usage s f))
      (same.turnUsage.trans (current.heard_turnUsage fits terminal)) rfl
  exact books'

include follow trimmed in
theorem Books.observe_terminal (books : Books ids s seen results)
    (ordered : ∀ g ∈ seen, g.turn ≤ f.turn)
    (named : f.responseID = "" ∨ f.responseID = ids f.turn)
    (stays : s.shouldFinalizePendingBareError f.payload f.eventType = false)
    (typed : f.eventType ≠ "") (error : f.eventType ≠ "error") (terminal : f.terminal = true)
    (fits : Fits ids s seen f) :
    Keeps collect (fun s' results' => Books ids s' (seen ++ [f]) results')
      (complete (s.observeUpstreamMessage env f.payload f.now)) results := by
  have current := fits.current follow trimmed books ordered stays
  obtain ⟨s', observed, same, observedType, responseID, out⟩ :=
    RelayState.observe_terminal s env f.payload f.now f.eventType_def typed error terminal
  have typed' : trimSpace observed.eventType ≠ "" := by
    rw [observedType, f.trim_eventType]
    exact typed
  have settles := finalizeObservedRelayTerminal_settles (s := s') f.now typed'
  rw [← out] at settles
  have id_ : trimSpace observed.responseID = f.responseID := by
    rw [responseID, ← f.responseID_def]
    rcases named with none_ | own
    · rw [none_, trimSpace_empty]
    · rw [own, (trimmed f.turn).2]
  have usage : s'.turnUsage = (account (seen ++ [f]) f.turn).usage :=
    same.turnUsage.trans (current.heard_turnUsage fits terminal)
  have books' (later : List RelayTurnResult)
      (emitted : (∃ result, later = [result] ∧ result.requestID = ids f.turn ∧
        result.usage = s'.turnUsage) ∨ (later = [] ∧ s'.turnUsage = 0)) :
      Books ids (complete (s.observeUpstreamMessage env f.payload f.now)).1 (seen ++ [f])
        (results ++ later) :=
    books.terminal current terminal (same.usage.trans (heard_usage s f)) usage settles.usage
      settles.turnUsage (settles.pendingBareError.trans same.pendingBareError) emitted
  unfold Keeps
  rcases settles.emitted with ⟨reported, result, emitted, resultUsage, requestID⟩ |
    ⟨unnamed, -, emitted⟩
  · rw [emitted]
    refine .one rfl (books' [result] (Or.inl ⟨result, rfl, ?_, resultUsage⟩))
    rw [requestID, id_]
    rw [id_, observedType, f.trim_eventType] at reported
    exact named.resolve_left (reported.resolve_right error)
  · rw [emitted]
    refine .nil ?_
    rw [id_] at unnamed
    have kept := books' [] (Or.inr ⟨rfl, usage.trans (fits.reported terminal unnamed error)⟩)
    rwa [List.append_nil] at kept

include follow trimmed in
/-- An event that leaves the error waiting, or finds none. -/
theorem Books.observe (books : Books ids s seen results) (ordered : ∀ g ∈ seen, g.turn ≤ f.turn)
    (named : f.responseID = "" ∨ f.responseID = ids f.turn)
    (stays : s.shouldFinalizePendingBareError f.payload f.eventType = false)
    (fits : f.usage ≠ none ∨ f.terminal = true → Fits ids s seen f) :
    Keeps collect (fun s' results' => Books ids s' (seen ++ [f]) results')
      (complete (s.observeUpstreamMessage env f.payload f.now)) results := by
  by_cases typed : f.eventType = ""
  · rw [observe_untyped s env f.payload f.now (f.eventType_def.symm.trans typed),
      complete_silent rfl]
    exact .silent (books.neutral (TurnFrame.untyped typed).1 (TurnFrame.untyped typed).2)
  · by_cases terminal : f.terminal = true
    · by_cases error : f.eventType = "error"
      · exact books.observe_error follow trimmed ordered named stays error terminal
          (fits (Or.inr terminal))
      · exact books.observe_terminal follow trimmed ordered named stays typed error terminal
          (fits (Or.inr terminal))
    · exact books.observe_goesOn follow trimmed ordered stays typed (by simpa using terminal)
        fun used => fits (Or.inl used)

/-- Where no error waits there is none to settle. -/
theorem shouldFinalize_none (rests : s.pendingBareError = none) (payload : Payload)
    (eventType : String) : s.shouldFinalizePendingBareError payload eventType = false := by
  simp [shouldFinalizePendingBareError, rests]

/-- What fits before the waiting error is settled fits afterwards. -/
theorem Fits.settled (fits : Fits ids s seen f)
    (settles : s.shouldFinalizePendingBareError f.payload f.eventType = true)
    (rests : s'.pendingBareError = none) : Fits ids s' seen f := by
  have still : ¬Waits s f := by
    rintro ⟨-, stays⟩
    rw [settles] at stays
    cases stays
  have still' : ¬Waits s' f := by
    rintro ⟨waits, -⟩
    rw [rests] at waits
    cases waits
  refine ⟨?_, fits.others, fits.reported, ?_, fits.counts, fun _ waits => absurd waits still'⟩
  · rw [← fits.inTurn]
    exact ⟨fun waits => absurd waits still', fun waits => absurd waits still⟩
  · intro error
    have typed : trimSpace f.eventType = "error" := by rw [f.trim_eventType, error]
    have stays : s.shouldFinalizePendingBareError f.payload f.eventType = false := by
      unfold shouldFinalizePendingBareError
      split
      · rfl
      · simp only [typed]
        simp
    rw [settles] at stays
    cases stays

include follow trimmed in
/-- One frame. -/
theorem Books.receive (books : Books ids s seen results) (ordered : ∀ g ∈ seen, g.turn ≤ f.turn)
    (named : f.responseID = "" ∨ f.responseID = ids f.turn)
    (fits : f.usage ≠ none ∨ f.terminal = true → Fits ids s seen f) :
    Keeps collect (fun s' results' => Books ids s' (seen ++ [f]) results')
      (receiveFrame env s f) results := by
  have received : receiveFrame env s f = andThen
      (if s.shouldFinalizePendingBareError f.payload f.eventType then
        complete (s.finalizePendingBareError f.now) else (s, []))
      fun s => complete (s.observeUpstreamMessage env f.payload f.now) := by
    rw [receiveFrame, receiveText, f.eventType_def]
  rw [received]
  by_cases settles : s.shouldFinalizePendingBareError f.payload f.eventType = true
  · obtain ⟨waiting, waits⟩ : ∃ waiting, s.pendingBareError = some waiting := by
      cases waits : s.pendingBareError with
      | none =>
          rw [shouldFinalize_none waits] at settles
          cases settles
      | some waiting => exact ⟨waiting, rfl⟩
    rw [if_pos settles]
    refine (Books.close trimmed books waits f.now).andThen fun results' ⟨books', rests⟩ => ?_
    exact books'.observe follow trimmed ordered named (shouldFinalize_none rests _ _)
      fun accounted => (fits accounted).settled settles rests
  · rw [if_neg settles, andThen_silent]
    exact books.observe follow trimmed ordered named (by simpa using settles) fits

end Books

/-! ### The run -/

section Run

variable {ids : ℕ → String} {frames : List TurnFrame} {env : RelayEnv}

/-- The books are right after any frames. -/
theorem books_run (follow : Function.Injective ids)
    (trimmed : ∀ turn, ids turn ≠ "" ∧ trimSpace (ids turn) = ids turn) {s : RelayState}
    {seen : List TurnFrame} {results : List RelayTurnResult} (books : Books ids s seen results)
    (ordered : (seen ++ frames).Pairwise fun f g => f.turn ≤ g.turn)
    (named : ∀ f ∈ frames, f.responseID = "" ∨ f.responseID = ids f.turn)
    (fit : Throughout (watchFrame env)
      (fun w f => f.usage ≠ none ∨ f.terminal = true → Fits ids w.1 w.2 f) (s, seen) frames) :
    Keeps collect (fun s' results' => Books ids s' (seen ++ frames) results')
      (run (receiveFrame env) s frames) results := by
  induction frames generalizing s seen results with
  | nil =>
      refine .silent ?_
      rw [List.append_nil]
      exact books
  | cons f rest ih =>
      have before : ∀ g ∈ seen, g.turn ≤ f.turn := fun g here =>
        (List.pairwise_append.mp ordered).2.2 g here f (by simp)
      refine (books.receive follow trimmed before (named f (by simp)) fit.1).run
        fun results' books' => ?_
      rw [List.append_cons] at ordered ⊢
      exact ih books' ordered (fun g here => named g (List.mem_cons_of_mem _ here)) fit.2

theorem books_empty (model : String) (started : Option Time) :
    Books ids { requestModel := model, pendingTurnStart := started } [] [] where
  total := rfl
  once := by simp
  reported := by simp
  waiting _ waits := by cases waits
  running _ _ _ _ := rfl

theorem observe_collect (results later : List RelayTurnResult) :
    observe collect results later = some (results ++ later) := by
  induction later generalizing results with
  | nil => simp
  | cons result rest ih => simp [collect, ih]

theorem Books.settledOnce {s : RelayState} {results : List RelayTurnResult}
    (follow : Function.Injective ids) (some_ : ∀ turn, ids turn ≠ "")
    (books : Books ids s frames results) : SettledOnce ids frames (s, results) where
  once := books.once
  usage result here turn named := by
    rcases books.reported result here with none_ | ⟨turn', named', -, usage⟩
    · exact absurd (named.symm.trans none_) (some_ turn)
    · rw [usage, follow (named'.symm.trans named)]
  total := books.total

/-- Where every terminal event and every event with usage fits, each turn is settled once. -/
theorem settledOnce_of_allFit (env : RelayEnv) (model : String) (started : Option Time)
    (endedAt : Time) (follow : TurnsFollow ids frames)
    (fit : AllFit ids env { requestModel := model, pendingTurnStart := started } frames) :
    SettledOnce ids frames
      (relayText env { requestModel := model, pendingTurnStart := started } frames endedAt) := by
  have empty : Books ids { requestModel := model, pendingTurnStart := started } [] [] :=
    books_empty model started
  have ran := books_run follow.distinct follow.trimmed empty follow.ordered follow.named fit
  have ended : Keeps collect (fun s results => Books ids s frames results)
      (relayText env { requestModel := model, pendingTurnStart := started } frames endedAt) [] := by
    refine ran.andThen fun results books => ?_
    generalize (run (receiveFrame env) _ frames).1 = s at books
    cases waits : s.pendingBareError with
    | none =>
        rw [settleAtEnd, finalizePendingBareError, waits, complete_silent rfl]
        exact .silent books
    | some waiting =>
        exact (Books.close follow.trimmed books waits endedAt).mono fun _ closed => closed.1
  obtain ⟨results, collected, books⟩ := ended
  rw [observe_collect, List.nil_append] at collected
  cases collected
  exact books.settledOnce follow.distinct fun turn => (follow.trimmed turn).1

end Run

/-! ### Runs -/

instance (ids : ℕ → String) (s : RelayState) (seen : List TurnFrame) (f : TurnFrame) :
    Decidable (Fits ids s seen f) :=
  decidable_of_iff
    ((Waits s f ↔ Ended seen f.turn) ∧
      (∀ g ∈ seen, g.turn ≠ f.turn → g.usage ≠ none → Ended seen g.turn) ∧
      (f.terminal = true → f.responseID = "" → f.eventType ≠ "error" →
        (account (seen ++ [f]) f.turn).usage = 0) ∧
      (f.eventType = "error" → f.responseID = "" →
        s.activeTurn = none ∨ s.activeTurn = some (ids f.turn)) ∧
      (f.terminal = true → ∀ usage ∈ f.usage, relayUsageHasTokens usage = true ∨ usage = 0) ∧
      (f.terminal = false → Waits s f → (account seen f.turn).terminal = none))
    ⟨fun ⟨inTurn, others, reported, own, counts, merges⟩ =>
        ⟨inTurn, others, reported, own, counts, merges⟩,
      fun fits => ⟨fits.inTurn, fits.others, fits.reported, fits.own, fits.counts, fits.merges⟩⟩

instance (ids : ℕ → String) (env : RelayEnv) (s : RelayState) (frames : List TurnFrame) :
    Decidable (AllFit ids env s frames) :=
  inferInstanceAs (Decidable (Throughout _ _ _ _))

def sampleID (turn : ℕ) : String := String.ofList (List.replicate (turn + 1) 'r')

theorem sampleID_injective : Function.Injective sampleID := by
  intro i j same
  have lists := String.ofList_injective same
  have lengths := congrArg List.length lists
  simpa using lengths

theorem sampleID_trimmed (turn : ℕ) :
    sampleID turn ≠ "" ∧ trimSpace (sampleID turn) = sampleID turn := by
  constructor
  · intro empty
    have lists := congrArg String.toList empty
    simp [sampleID, List.replicate_succ] at lists
  · apply trimSpace_of_noBlank
    intro c here
    rw [sampleID, String.toList_ofList, List.mem_replicate] at here
    rw [here.2]
    decide

/-- An event of a turn, with or without the response's id and with input and output tokens. -/
def sampleFrame (turn : ℕ) (eventType : String) (named : Bool) (tokens : Option (ℤ × ℤ)) :
    TurnFrame where
  turn := turn
  now := 1
  payload :=
    { get := (Result.ofPaths ([("type", Result.ofString eventType)] ++
        (if named then [("response.id", Result.ofString (sampleID turn))] else []) ++
        match tokens with
        | none => []
        | some (input, output) => [("response.usage", Result.ofPaths
            [("input_tokens", Result.ofInt input), ("output_tokens", Result.ofInt output)])])).get }

def sampleEnv : RelayEnv where
  startAt := 1
  equalFold a b := a = b

/-- A turn with an error before its response.failed, and one with usage before its end. -/
def twoTurns : List TurnFrame :=
  [sampleFrame 0 "error" true (some (3, 0)), sampleFrame 0 "response.failed" true (some (5, 7)),
    sampleFrame 1 "response.queued" true (some (11, 13)),
    sampleFrame 1 "response.completed" true none]

theorem twoTurns_settledOnce :
    SettledOnce sampleID twoTurns (relayText sampleEnv { pendingTurnStart := some 1 } twoTurns 9) :=
  settledOnce_of_allFit sampleEnv "" (some 1) 9
    ⟨sampleID_injective, sampleID_trimmed, by decide +kernel, by decide +kernel⟩
    (by decide +kernel)

/-- A turn whose end comes twice. -/
def endedTwice : List TurnFrame :=
  [sampleFrame 0 "response.completed" true (some (5, 7)),
    sampleFrame 0 "response.done" true (some (5, 7))]

/-- A turn whose end does not name it. -/
def endedUnnamed : List TurnFrame :=
  [sampleFrame 0 "response.created" true none,
    sampleFrame 0 "response.completed" false (some (5, 7))]

/-- A second end is reported again, an end without an id only in the totals. -/
theorem settled_twice_and_unreported :
    (TurnsFollow sampleID endedTwice ∧
        ¬SettledOnce sampleID endedTwice
          (relayText sampleEnv { pendingTurnStart := some 1 } endedTwice 9)) ∧
      TurnsFollow sampleID endedUnnamed ∧
        ¬SettledOnce sampleID endedUnnamed
          (relayText sampleEnv { pendingTurnStart := some 1 } endedUnnamed 9) := by
  refine ⟨⟨⟨sampleID_injective, sampleID_trimmed, by decide +kernel, by decide +kernel⟩, ?_⟩,
    ⟨sampleID_injective, sampleID_trimmed, by decide +kernel, by decide +kernel⟩, ?_⟩
  · intro settled
    have once := settled.once (sampleID 0) (sampleID_trimmed 0).1
    have twice : ((relayText sampleEnv { pendingTurnStart := some 1 } endedTwice 9).2.filter
        fun result => result.requestID = sampleID 0).length = 2 := by decide +kernel
    omega
  · intro settled
    have unreported : ¬(relayText sampleEnv { pendingTurnStart := some 1 } endedUnnamed 9).1.usage =
        ((relayText sampleEnv { pendingTurnStart := some 1 } endedUnnamed 9).2.map
          RelayTurnResult.usage).sum := by decide +kernel
    exact unreported settled.total

end Sub2api.Relay
