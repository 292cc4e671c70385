import Sub2api.Relay.State

/-!
# What the relay's operations change

The clocks, the models and the tiers are written through the timing of a turn; usage, the waiting
error and the life of a turn are not touched by that. A settlement takes all of the turn's usage.
-/

namespace Sub2api.Relay

open Sub2api.Go Transducer

theorem trimSpace_error : trimSpace "error" = "error" := by decide

namespace RelayState

variable (s : RelayState) (env : RelayEnv) (message : Payload) (now : Time)

/-! ### Timings -/

/-- Everything but the contents of timings and the first token. -/
structure SameTurns (s s' : RelayState) : Prop where
  usage : s'.usage = s.usage
  turnUsage : s'.turnUsage = s.turnUsage
  pendingBareError : s'.pendingBareError = s.pendingBareError
  pendingTurnStart : s'.pendingTurnStart = s.pendingTurnStart
  activeTurn : s'.activeTurn = s.activeTurn
  timed : ∀ id, (s'.turnTimingByID id).isSome = (s.turnTimingByID id).isSome

variable {s}

theorem SameTurns.refl : SameTurns s s := ⟨rfl, rfl, rfl, rfl, rfl, fun _ => rfl⟩

theorem SameTurns.trans {s' s'' : RelayState} (first : SameTurns s s') (next : SameTurns s' s'') :
    SameTurns s s'' where
  usage := next.usage.trans first.usage
  turnUsage := next.turnUsage.trans first.turnUsage
  pendingBareError := next.pendingBareError.trans first.pendingBareError
  pendingTurnStart := next.pendingTurnStart.trans first.pendingTurnStart
  activeTurn := next.activeTurn.trans first.activeTurn
  timed id := (next.timed id).trans (first.timed id)

theorem updateTiming_sameTurns (turn : Option String) (change : RelayTurnTiming → RelayTurnTiming) :
    SameTurns s (s.updateTiming turn change) := by
  cases turn with
  | none => exact .refl
  | some responseID =>
      refine ⟨rfl, rfl, rfl, rfl, rfl, fun id => ?_⟩
      by_cases same : id = responseID
      · simp [updateTiming, same]
      · simp [updateTiming, same]

theorem observeFirstToken_sameTurns (eventType : String) :
    SameTurns s (s.observeFirstToken env eventType now) := by
  unfold observeFirstToken
  split
  · refine .trans ?_ (updateTiming_sameTurns ..)
    split
    · exact ⟨rfl, rfl, rfl, rfl, rfl, fun _ => rfl⟩
    · exact .refl
  · exact .refl

/-- The turns once an event has named the response. -/
def named (s : RelayState) (responseID : String) (now : Time) : RelayState :=
  if responseID = "" then s else s.getOrInitTurnTiming responseID now

theorem observeTurnTiming_sameTurns (eventType responseID : String) :
    SameTurns (s.named responseID now)
      (s.observeTurnTiming env message eventType responseID now).1 := by
  unfold observeTurnTiming named
  by_cases unnamed : responseID = ""
  · simp only [unnamed, ne_eq, not_true_eq_false, if_false, if_true]
    exact updateTiming_sameTurns ..
  · simp only [unnamed, ne_eq, not_false_eq_true, if_true, if_false]
    refine .trans ?_ (updateTiming_sameTurns ..)
    split
    · exact updateTiming_sameTurns ..
    · exact .refl

theorem named_kept (responseID : String) :
    (s.named responseID now).usage = s.usage ∧ (s.named responseID now).turnUsage = s.turnUsage ∧
      (s.named responseID now).pendingBareError = s.pendingBareError := by
  unfold named getOrInitTurnTiming
  split
  · exact ⟨rfl, rfl, rfl⟩
  · split <;> exact ⟨rfl, rfl, rfl⟩

theorem SameTurns.named {s' : RelayState} (same : SameTurns s s') (responseID : String) :
    SameTurns (s.named responseID now) (s'.named responseID now) := by
  unfold RelayState.named
  split
  · exact same
  · have timed := same.timed responseID
    unfold getOrInitTurnTiming
    cases here : s.turnTimingByID responseID with
    | some timing =>
        rw [here] at timed
        obtain ⟨timing', here'⟩ := Option.isSome_iff_exists.mp timed
        simp only [here']
        exact same
    | none =>
        rw [here] at timed
        simp only [Option.isSome_eq_false_iff.mp timed |> Option.isNone_iff_eq_none.mp]
        refine ⟨same.usage, same.turnUsage, same.pendingBareError, rfl, rfl, fun id => ?_⟩
        by_cases here : id = responseID
        · simp [here]
        · simpa [here, consumePendingTurnStartedAt] using same.timed id

/-! ### Settlements -/

/-- A settlement: the usage of the turn goes into the totals and to the callback. -/
structure Settles (s : RelayState) (observed : ObservedUpstreamEvent)
    (out : RelayState × ObservedUpstreamEvent) : Prop where
  usage : out.1.usage = s.usage + s.turnUsage
  turnUsage : out.1.turnUsage = 0
  pendingBareError : out.1.pendingBareError = s.pendingBareError
  settled : out.2.usage = s.turnUsage
  terminal : out.2.terminal = true
  responseID : out.2.responseID = observed.responseID
  eventType : out.2.eventType = observed.eventType

theorem finalizeObservedRelayTerminal_settles {observed : ObservedUpstreamEvent}
    (typed : trimSpace observed.eventType ≠ "") :
    Settles s observed (s.finalizeObservedRelayTerminal observed now) := by
  unfold finalizeObservedRelayTerminal finalizeRelayTurnUsage
  simp only [typed, if_false]
  split
  · unfold deleteTurnTiming
    split
    · rename_i deleted
      split at deleted <;> cases deleted
      exact ⟨rfl, rfl, rfl, rfl, rfl, rfl, rfl⟩
    · rename_i deleted
      split at deleted <;> cases deleted
      exact ⟨rfl, rfl, rfl, rfl, rfl, rfl, rfl⟩
  · unfold discardActiveTurnTiming consumePendingTurnStartedAt
    split <;> exact ⟨rfl, rfl, rfl, rfl, rfl, rfl, rfl⟩

/-- The callback gets the usage under the response's id, or under none after an error. -/
theorem Settles.emitted {observed : ObservedUpstreamEvent}
    {out : RelayState × ObservedUpstreamEvent} (settles : Settles s observed out) :
    ((trimSpace observed.responseID ≠ "" ∨ trimSpace observed.eventType = "error") ∧
        ∃ result, (complete out).2 = [result] ∧ result.usage = s.turnUsage ∧
          result.requestID = trimSpace observed.responseID) ∨
      (trimSpace observed.responseID = "" ∧ trimSpace observed.eventType ≠ "error" ∧
        (complete out).2 = []) := by
  unfold complete emitTurnComplete
  simp only [settles.terminal, settles.responseID, settles.eventType, Bool.not_true,
    Bool.false_eq_true, if_false]
  by_cases silent : trimSpace observed.responseID = "" ∧ trimSpace observed.eventType ≠ "error"
  · simp only [silent, ne_eq, not_true_eq_false, false_or, true_and]
    right
    simp
  · left
    simp only [silent, if_false]
    refine ⟨?_, _, rfl, settles.settled, rfl⟩
    by_cases unnamed : trimSpace observed.responseID = ""
    · right
      by_contra other
      exact silent ⟨unnamed, other⟩
    · exact Or.inl unnamed

/-! ### Events -/

/-- The turns and the usage once an event is heard. -/
def heard (s : RelayState) (message : Payload) (eventType : String) (now : Time) : RelayState :=
  { s.named (message.responseID eventType) now with
    turnUsage := (parseUsageAndAccumulate s.turnUsage message eventType).1 }

attribute [local irreducible] trimSpace isTerminalEvent parseUsageAndAccumulate Payload.responseID

/-- Whether the usage or the turn is noted first is the same. -/
theorem named_turnUsage (responseID : String) (turnUsage : Usage) :
    { s with turnUsage := turnUsage }.named responseID now =
      { s.named responseID now with turnUsage := turnUsage } := by
  simp only [RelayState.named, getOrInitTurnTiming]
  split
  · rfl
  · split <;> rfl

theorem hear_sameTurns (eventType : String) :
    SameTurns (s.heard message eventType now) (s.hear env message eventType now).1 := by
  have token := observeFirstToken_sameTurns (s := s) env now eventType
  unfold hear heard
  generalize s.observeFirstToken env eventType now = s₁ at token
  simp only [token.turnUsage]
  generalize (parseUsageAndAccumulate s.turnUsage message eventType).1 = turnUsage
  generalize message.responseID eventType = responseID
  have usage : SameTurns { s with turnUsage := turnUsage } { s₁ with turnUsage := turnUsage } :=
    ⟨token.usage, rfl, token.pendingBareError, token.pendingTurnStart, token.activeTurn,
      token.timed⟩
  rw [← named_turnUsage]
  exact (usage.named now responseID).trans (observeTurnTiming_sameTurns ..)

variable (s)

theorem observe_untyped (untyped : trimSpace (message.get "type").str = "") :
    s.observeUpstreamMessage env message now = (s, {}) := by
  simp [observeUpstreamMessage, untyped]

variable {eventType : String}

/-- An event that does not end the turn. -/
theorem observe_goesOn (typed : eventType = trimSpace (message.get "type").str)
    (some_ : eventType ≠ "") (goesOn : isTerminalEvent eventType = false) :
    SameTurns (s.heard message eventType now) (s.observeUpstreamMessage env message now).1 ∧
      (s.observeUpstreamMessage env message now).2.terminal = false := by
  have same := hear_sameTurns (s := s) env message now eventType
  simp only [observeUpstreamMessage, ← typed, some_, goesOn, if_false, Bool.not_false, if_true]
  exact ⟨same, trivial⟩

/-- An error waits to be settled, under the active turn where it names none. -/
theorem observe_error (typed : eventType = trimSpace (message.get "type").str)
    (error : eventType = "error") (terminal : isTerminalEvent eventType = true) :
    ∃ s' waiting, SameTurns (s.heard message eventType now) s' ∧ waiting.eventType = eventType ∧
      waiting.responseID = (if message.responseID eventType = "" then s'.activeTurnID
        else message.responseID eventType) ∧
      (s.observeUpstreamMessage env message now).1 = { s' with pendingBareError := some waiting } ∧
      (s.observeUpstreamMessage env message now).2.terminal = false := by
  have same := hear_sameTurns (s := s) env message now eventType
  have some_ : eventType ≠ "" := by
    rw [error]
    decide
  simp only [observeUpstreamMessage, ← typed, some_, terminal, if_false, Bool.not_true,
    Bool.false_eq_true]
  generalize s.hear env message eventType now = out at same
  obtain ⟨s₁, turnTiming⟩ := out
  have tiered := same.trans (updateTiming_sameTurns turnTiming
    (observeRelayTurnResponseServiceTier (firstRelayResponseServiceTier message)))
  simp only
  rw [if_pos error]
  refine ⟨{ s₁.updateTiming turnTiming
      (observeRelayTurnResponseServiceTier (firstRelayResponseServiceTier message)) with
        terminalEventType := eventType }, _,
    tiered.trans ⟨rfl, rfl, rfl, rfl, rfl, fun _ => rfl⟩, ?_, ?_, rfl, ?_⟩
  · split <;> rfl
  · split <;> rfl
  · split <;> rfl

/-- The other terminal events settle their turn, in the place of an error that waits. -/
theorem observe_terminal (typed : eventType = trimSpace (message.get "type").str)
    (some_ : eventType ≠ "") (ends : eventType ≠ "error")
    (terminal : isTerminalEvent eventType = true) :
    ∃ s' observed, SameTurns { s.heard message eventType now with pendingBareError := none } s' ∧
      observed.eventType = eventType ∧ observed.responseID = message.responseID eventType ∧
      s.observeUpstreamMessage env message now = s'.finalizeObservedRelayTerminal observed now := by
  have same := hear_sameTurns (s := s) env message now eventType
  simp only [observeUpstreamMessage, ← typed, some_, ends, terminal, if_false, Bool.not_true,
    Bool.false_eq_true]
  generalize s.hear env message eventType now = out at same
  obtain ⟨s₁, turnTiming⟩ := out
  have tiered := same.trans (updateTiming_sameTurns turnTiming
    (observeRelayTurnResponseServiceTier (firstRelayResponseServiceTier message)))
  refine ⟨_, _, ?_, ?_, ?_, rfl⟩
  · exact ⟨tiered.usage, tiered.turnUsage, rfl, tiered.pendingTurnStart, tiered.activeTurn,
      tiered.timed⟩
  · rfl
  · rfl

end RelayState

end Sub2api.Relay
