import Mathlib.Tactic.Cases
import Sub2api.Relay.Effects

/-!
# The life of turns

Of the relay's state the life of the turns only needs which turn is pending, which responses have a
timing, which of these is the active one and which response a waiting error will settle. `Life` is
that much with the operations on it, and `life` of the relay's state follows them.
-/

namespace Sub2api.Relay

open Sub2api.Go Transducer

structure Life where
  /-- A turn was started that no response has been seen for. -/
  pending : Bool := false
  timed : String → Bool := fun _ => false
  active : Option String := none
  /-- What the waiting error will settle, if one waits. -/
  error : Option String := none

namespace Life

def start (l : Life) : Life := { l with pending := true }

/-- An event names a response. -/
def name (l : Life) (responseID : String) : Life :=
  if responseID = "" ∨ l.timed responseID then l
  else
    { l with
      pending := false
      timed := Function.update l.timed responseID true
      active := some responseID }

def discard (l : Life) : Life :=
  match l.active with
  | none => { l with pending := false }
  | some active =>
      { l with pending := false, timed := Function.update l.timed active false, active := none }

/-- A response is settled, or one without an id. -/
def settle (l : Life) (responseID : String) : Life :=
  if responseID = "" then l.discard
  else if l.timed responseID then
    { l with
      timed := Function.update l.timed responseID false
      active := if l.active = some responseID then none else l.active }
  else l

def settleError (l : Life) : Life :=
  match l.error with
  | none => l
  | some responseID => { l with error := none }.settle responseID

/-- The event closes the waiting error. -/
def closes (l : Life) (payload : Payload) (eventType : String) : Bool :=
  match l.error with
  | none => false
  | some waiting =>
      if eventType = "" ∨ eventType = "error" ∨ eventType = "response.failed" then false
      else if isTerminalEvent eventType ∨ eventType = "response.created" then true
      else
        let responseID := trimSpace (payload.get "response.id").str
        if responseID = "" ∨ waiting = "" then false else responseID ≠ waiting

/-- An event that leaves the error waiting. -/
def event (l : Life) (eventType responseID : String) : Life :=
  if eventType = "" then l
  else
    let l := l.name responseID
    if !isTerminalEvent eventType then l
    else if eventType = "error" then
      { l with error := some (if responseID = "" then l.active.getD "" else responseID) }
    else { l with error := none }.settle responseID

/-- A text frame from upstream. -/
def text (l : Life) (payload : Payload) : Life :=
  let eventType := trimSpace (payload.get "type").str
  let l := if l.closes payload eventType then l.settleError else l
  l.event eventType (payload.responseID eventType)

/-- A binary frame from upstream. -/
def binary (l : Life) (payload : Payload) : Life :=
  if isTerminalEvent (trimSpace (payload.get "type").str) then l.discard else l

def unfinished (l : Life) : Bool := l.pending || l.active.isSome

/-- The active timing is there under an id, and ids are trimmed. -/
structure Sound (l : Life) : Prop where
  active : ∀ active ∈ l.active, active ≠ "" ∧ trimSpace active = active ∧ l.timed active = true
  error : ∀ waiting ∈ l.error, trimSpace waiting = waiting

variable {l : Life}

attribute [local irreducible] trimSpace isTerminalEvent parseUsageAndAccumulate

theorem Sound.start (sound : l.Sound) : l.start.Sound := ⟨sound.active, sound.error⟩

theorem Sound.name (sound : l.Sound) {responseID : String}
    (trimmed : trimSpace responseID = responseID) : (l.name responseID).Sound := by
  unfold Life.name
  split
  · exact sound
  · rename_i new
    refine ⟨fun active here => ?_, sound.error⟩
    cases here
    rw [not_or] at new
    exact ⟨new.1, trimmed, Function.update_self ..⟩

theorem Sound.discard (sound : l.Sound) : l.discard.Sound := by
  unfold Life.discard
  split
  · exact ⟨sound.active, sound.error⟩
  · refine ⟨fun active here => ?_, sound.error⟩
    cases here

theorem Sound.settle (sound : l.Sound) (responseID : String) : (l.settle responseID).Sound := by
  unfold Life.settle
  split
  · exact sound.discard
  · split
    · refine ⟨fun active here => ?_, sound.error⟩
      dsimp only at here ⊢
      split at here
      · cases here
      · rename_i other
        obtain ⟨some_, trimmed, timed⟩ := sound.active active here
        have different : active ≠ responseID := by
          rintro rfl
          exact other here
        exact ⟨some_, trimmed, by rw [Function.update_of_ne different, timed]⟩
    · exact sound

theorem Sound.settleError (sound : l.Sound) : l.settleError.Sound := by
  unfold Life.settleError
  split
  · exact sound
  · apply Sound.settle
    exact ⟨sound.active, fun waiting here => by cases here⟩

theorem Sound.event (sound : l.Sound) (eventType : String) {responseID : String}
    (trimmed : trimSpace responseID = responseID) : (l.event eventType responseID).Sound := by
  have named := sound.name trimmed
  unfold Life.event
  split
  · exact sound
  · dsimp only
    split
    · exact named
    · split
      · refine ⟨named.active, fun waiting here => ?_⟩
        cases here
        split
        · cases active : (l.name responseID).active with
          | none => exact trimSpace_empty
          | some id => exact (named.active id active).2.1
        · exact trimmed
      · apply Sound.settle
        exact ⟨named.active, fun waiting here => by cases here⟩

end Life

theorem trimmed_ite {p : Prop} [Decidable p] {a b : String} (first : trimSpace a = a)
    (second : trimSpace b = b) : trimSpace (if p then a else b) = if p then a else b := by
  split
  · exact first
  · exact second

theorem Payload.responseID_trimmed (message : Payload) (eventType : String) :
    trimSpace (message.responseID eventType) = message.responseID eventType :=
  trimmed_ite (trimSpace_trimSpace _) (trimmed_ite (trimSpace_trimSpace _) (trimSpace_trimSpace _))

/-! ### The relay's state follows -/

namespace RelayState

def life (s : RelayState) : Life where
  pending := s.pendingTurnStart.isSome
  timed id := (s.turnTimingByID id).isSome
  active := s.activeTurn
  error := s.pendingBareError.map ObservedUpstreamEvent.responseID

/-- Only an error waits, and the life of turns is sound. -/
structure Kept (s : RelayState) : Prop where
  error : ∀ waiting ∈ s.pendingBareError, waiting.eventType = "error"
  sound : s.life.Sound

variable {s s' : RelayState} (env : RelayEnv) (now : Time)

theorem SameTurns.life (same : SameTurns s s') : s'.life = s.life := by
  simp only [RelayState.life, Life.mk.injEq]
  refine ⟨by rw [same.pendingTurnStart], funext same.timed, same.activeTurn, ?_⟩
  rw [same.pendingBareError]

theorem life_startTurn (payload : Payload) (startedAt : Time) :
    (s.startTurn payload startedAt).life = s.life.start := by
  unfold startTurn setRequestModel
  split <;> rfl

theorem update_isSome (timings : String → Option RelayTurnTiming) (id : String)
    (timing : Option RelayTurnTiming) :
    (fun other => (Function.update timings id timing other).isSome) =
      Function.update (fun other => (timings other).isSome) id timing.isSome := by
  funext other
  by_cases same : other = id
  · simp [same]
  · simp [same]

theorem life_named (responseID : String) :
    (s.named responseID now).life = s.life.name responseID := by
  unfold named Life.name getOrInitTurnTiming
  by_cases unnamed : responseID = ""
  · simp [unnamed]
  · cases timed : s.turnTimingByID responseID with
    | some timing => simp [unnamed, life, timed]
    | none => simp [unnamed, life, timed, consumePendingTurnStartedAt, update_isSome]

theorem life_discard :
    s.consumePendingTurnStartedAt.1.discardActiveTurnTiming.life = s.life.discard := by
  unfold consumePendingTurnStartedAt discardActiveTurnTiming Life.discard
  cases active : s.activeTurn with
  | none => simp [life, active]
  | some id => simp [life, active, update_isSome]

theorem life_finalize {observed : ObservedUpstreamEvent}
    (typed : trimSpace observed.eventType ≠ "") :
    (s.finalizeObservedRelayTerminal observed now).1.life =
      s.life.settle (trimSpace observed.responseID) := by
  unfold finalizeObservedRelayTerminal finalizeRelayTurnUsage Life.settle
  simp only [typed, if_false]
  by_cases unnamed : trimSpace observed.responseID = ""
  · simp only [unnamed, ne_eq, not_true_eq_false, if_false, if_true]
    exact life_discard
  · simp only [unnamed, ne_eq, not_false_eq_true, if_true, if_false, deleteTurnTiming]
    cases timed : s.turnTimingByID (trimSpace observed.responseID) with
    | none => simp [life, timed]
    | some timing =>
        by_cases active : s.activeTurn = some (trimSpace observed.responseID)
        · simp [life, timed, update_isSome, active]
        · simp [life, timed, update_isSome, active]

theorem life_settleError (kept : s.Kept) :
    (s.finalizePendingBareError now).1.life = s.life.settleError := by
  unfold finalizePendingBareError Life.settleError
  cases waiting : s.pendingBareError with
  | none => simp [life, waiting]
  | some observed =>
      have typed : trimSpace observed.eventType ≠ "" := by
        rw [kept.error observed waiting, trimSpace_error]
        decide
      have trimmed : trimSpace observed.responseID = observed.responseID :=
        kept.sound.error observed.responseID (by simp [life, waiting])
      have settled := life_finalize (s := { s with pendingBareError := none }) now typed
      rw [trimmed] at settled
      rw [settled]
      simp [life, waiting]

/-! ### Frames -/

attribute [local irreducible] Payload.responseID

theorem life_heard (message : Payload) (eventType : String) :
    (s.heard message eventType now).life = s.life.name (message.responseID eventType) := by
  rw [← life_named now]
  rfl

theorem life_closes (payload : Payload) {eventType : String}
    (trimmed : trimSpace eventType = eventType) :
    s.shouldFinalizePendingBareError payload eventType = s.life.closes payload eventType := by
  unfold shouldFinalizePendingBareError Life.closes
  cases waiting : s.pendingBareError with
  | none => simp [life, waiting]
  | some observed => simp [life, waiting, trimmed]

theorem Kept.settleError (kept : s.Kept) : (s.finalizePendingBareError now).1.Kept := by
  constructor
  · intro waiting here
    unfold finalizePendingBareError at here
    cases waits : s.pendingBareError with
    | none =>
        rw [waits] at here
        exact kept.error waiting here
    | some observed =>
        have typed : trimSpace observed.eventType ≠ "" := by
          rw [kept.error observed waits, trimSpace_error]
          decide
        have settles := finalizeObservedRelayTerminal_settles
          (s := { s with pendingBareError := none }) now typed
        rw [waits] at here
        simp only at here
        rw [settles.pendingBareError] at here
        cases here
  · rw [life_settleError now kept]
    exact kept.sound.settleError

/-- An event that leaves the error waiting. -/
theorem Kept.observe (kept : s.Kept) (message : Payload) {eventType : String}
    (typed : eventType = trimSpace (message.get "type").str) :
    (s.observeUpstreamMessage env message now).1.Kept ∧
      (s.observeUpstreamMessage env message now).1.life =
        s.life.event eventType (message.responseID eventType) := by
  have trimmed := message.responseID_trimmed eventType
  have followed (life_ : (s.observeUpstreamMessage env message now).1.life =
        s.life.event eventType (message.responseID eventType))
      (error : ∀ waiting ∈ (s.observeUpstreamMessage env message now).1.pendingBareError,
        waiting.eventType = "error") :
      (s.observeUpstreamMessage env message now).1.Kept ∧
        (s.observeUpstreamMessage env message now).1.life =
          s.life.event eventType (message.responseID eventType) := by
    refine ⟨⟨error, ?_⟩, life_⟩
    rw [life_]
    exact kept.sound.event eventType trimmed
  by_cases untyped : eventType = ""
  · have nothing := observe_untyped s env message now (typed.symm.trans untyped)
    apply followed
    · rw [nothing, Life.event, if_pos untyped]
    · rw [nothing]
      exact kept.error
  cases terminal : isTerminalEvent eventType with
  | false =>
      obtain ⟨same, -⟩ := observe_goesOn s env message now typed untyped terminal
      apply followed
      · rw [same.life, life_heard, Life.event, if_neg untyped, terminal]
        rfl
      · rw [same.pendingBareError, heard]
        rw [(named_kept now _).2.2]
        exact kept.error
  | true =>
      by_cases error : eventType = "error"
      · obtain ⟨s', waiting, same, type, responseID, out, -⟩ :=
          observe_error s env message now typed error terminal
        have named : s'.life = s.life.name (message.responseID eventType) := by
          rw [same.life, life_heard]
        apply followed
        · have active : s'.activeTurnID = (s.life.name (message.responseID eventType)).active.getD "" := by
            rw [← named]
            rfl
          rw [out, Life.event, if_neg untyped, terminal, ← named]
          rw [active, ← named] at responseID
          simp only [Bool.not_true, Bool.false_eq_true, if_false, if_pos error]
          rw [← responseID]
          rfl
        · rw [out]
          intro waiting' here
          cases here
          exact type.trans error
      · obtain ⟨s', observed, same, type, responseID, out⟩ :=
          observe_terminal s env message now typed untyped error terminal
        have typed' : trimSpace observed.eventType ≠ "" := by
          rw [type, typed, trimSpace_trimSpace, ← typed]
          exact untyped
        have named : s'.life = { s.life.name (message.responseID eventType) with error := none } := by
          rw [same.life, ← life_heard now]
          rfl
        apply followed
        · rw [out, life_finalize now typed', responseID, trimmed, named, Life.event, if_neg untyped,
            terminal]
          simp only [Bool.not_true, Bool.false_eq_true, if_false, if_neg error]
        · have settles := finalizeObservedRelayTerminal_settles (s := s') now typed'
          rw [out]
          intro waiting here
          rw [settles.pendingBareError, same.pendingBareError] at here
          cases here

theorem Kept.receiveText (kept : s.Kept) (payload : Payload) :
    (s.receiveText env payload now).1.Kept ∧
      (s.receiveText env payload now).1.life = s.life.text payload := by
  unfold RelayState.receiveText Life.text
  generalize typed : trimSpace (payload.get "type").str = eventType
  have trimmed : trimSpace eventType = eventType := by rw [← typed, trimSpace_trimSpace]
  simp only [life_closes payload trimmed]
  split
  · obtain ⟨kept', life_⟩ := (kept.settleError now).observe env now payload typed.symm
    rw [life_settleError now kept] at life_
    simp only [andThen, complete]
    exact ⟨kept', life_⟩
  · simp only [andThen, complete]
    exact kept.observe env now payload typed.symm

theorem Kept.receiveBinary (kept : s.Kept) (payload : Payload) :
    (s.receiveBinary payload).Kept ∧ (s.receiveBinary payload).life = s.life.binary payload := by
  unfold RelayState.receiveBinary Life.binary
  split
  · refine ⟨⟨?_, ?_⟩, life_discard⟩
    · unfold discardActiveTurnTiming consumePendingTurnStartedAt
      split <;> exact kept.error
    · rw [life_discard]
      exact kept.sound.discard
  · exact ⟨kept, rfl⟩

theorem Kept.startTurn (kept : s.Kept) (payload : Payload) (startedAt : Time) :
    (s.startTurn payload startedAt).Kept := by
  refine ⟨?_, ?_⟩
  · unfold RelayState.startTurn setRequestModel
    split <;> exact kept.error
  · rw [life_startTurn]
    exact kept.sound.start

end RelayState

end Sub2api.Relay
