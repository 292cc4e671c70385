import Sub2api.Relay.Life
import Sub2api.Relay.Settle

/-!
# Unfinished turns

The client starts turns and the upstream answers them; when the upstream closes, the relay must know
whether a turn is unanswered. It derives that from one pending start and one active timing.

An event of a finished turn can make a timing again or take the pending start of another turn, and a
waiting error without an id takes it when it is settled. `Fits` says exactly when an event leaves
the answer right.
-/

namespace Sub2api.Relay

open Sub2api.Go Sub2api.Go.Gjson Transducer

/-- What passes through the relay. Turns are numbered as the client starts them, an upstream frame
is about one of them. -/
inductive RelayFrame where
  | create (payload : Payload) (startedAt : Time)
  | text (turn : ℕ) (payload : Payload) (now : Time)
  | binary (turn : ℕ) (payload : Payload)

/-- The relay, and which of the turns started are unanswered. -/
structure RelayWorld where
  relay : RelayState := {}
  started : ℕ := 0
  unanswered : List ℕ := []

namespace RelayWorld

/-- A terminal event answers its turn. -/
def answer (w : RelayWorld) (turn : ℕ) (payload : Payload) : List ℕ :=
  if isTerminalEvent (trimSpace (payload.get "type").str) then
    w.unanswered.filter fun other => other ≠ turn
  else w.unanswered

def step (env : RelayEnv) (w : RelayWorld) : RelayFrame → RelayWorld × List RelayTurnResult
  | .create payload startedAt =>
      ({ relay := w.relay.startTurn payload startedAt
         started := w.started + 1
         unanswered := w.unanswered ++ [w.started] }, [])
  | .text turn payload now =>
      let out := w.relay.receiveText env payload now
      ({ w with relay := out.1, unanswered := w.answer turn payload }, out.2)
  | .binary turn payload =>
      ({ w with
        relay := w.relay.receiveBinary payload
        unanswered := w.answer turn payload }, [])

/-- The upstream's close, with a disconnect error or another one: whether it is graceful. -/
def closesGracefully (w : RelayWorld) (disconnect : Bool) (now : Time) : Bool :=
  disconnect && !(w.relay.settleAtEnd now).1.hasUnfinishedTurn

/-- Should the upstream close now, the relay knows whether a turn is unanswered. -/
structure ClosesRight (w : RelayWorld) : Prop where
  unfinished : ∀ now,
    (w.relay.settleAtEnd now).1.hasUnfinishedTurn = true ↔ w.unanswered ≠ []
  graceful : ∀ now, w.closesGracefully true now = true ↔ w.unanswered = []

end RelayWorld

/-- The client starts a turn only when none is unanswered, and upstream frames are about turns
started and name no other response. -/
def RelayFrame.Legal (ids : ℕ → String) (w : RelayWorld) : RelayFrame → Prop
  | .create _ _ => w.unanswered = []
  | .text turn payload _ => turn < w.started ∧
      (payload.responseID (trimSpace (payload.get "type").str) = "" ∨
        payload.responseID (trimSpace (payload.get "type").str) = ids turn)
  | .binary turn _ => turn < w.started

namespace Life

/-- What an event that does not end a turn needs: where it makes a timing for the response that it
names, a turn is unanswered, unless an error waits that will settle this response or any. -/
def GoesOnRight (l : Life) (unanswered : List ℕ) (responseID : String) : Prop :=
  responseID ≠ "" → l.timed responseID = false →
    match l.error with
    | none => unanswered ≠ []
    | some waiting => waiting = "" ∨ (unanswered ≠ [] ↔ waiting ≠ responseID)

/-- A terminal event spares a turn: the response that it names has a timing, so that the pending
start is not used up, and a start or another timing is there; an error without an id settles the
active response. -/
def Spares (l : Life) (eventType responseID : String) : Prop :=
  if responseID ≠ "" then
    l.timed responseID = true ∧ (l.pending = true ∨ ∃ active ∈ l.active, active ≠ responseID)
  else eventType = "error" ∧ l.active.isSome = true ∧ l.pending = true

end Life

/-- The frame leaves the relay's answer right: a turn is not started while an error without an id
waits, and a terminal event spares a turn exactly where another turn is unanswered. -/
def RelayFrame.Fits (w : RelayWorld) : RelayFrame → Prop
  | .create _ _ => w.relay.life.error ≠ some ""
  | .text turn payload _ =>
      let eventType := trimSpace (payload.get "type").str
      let l := if w.relay.life.closes payload eventType then w.relay.life.settleError
        else w.relay.life
      if eventType = "" then True
      else if isTerminalEvent eventType then
        (l.Spares eventType (payload.responseID eventType) ↔ w.answer turn payload ≠ [])
      else l.GoesOnRight w.unanswered (payload.responseID eventType)
  | .binary turn payload =>
      isTerminalEvent (trimSpace (payload.get "type").str) = true → w.answer turn payload = []

/-! ### The life of turns -/

namespace Life

/-- A turn would be unfinished at the end. -/
def left (l : Life) : Bool := l.settleError.unfinished

variable {l : Life}

theorem settle_error (responseID : String) : (l.settle responseID).error = l.error := by
  unfold settle discard
  split
  · split <;> rfl
  · split <;> rfl

theorem left_settleError : l.settleError.left = l.left := by
  have rests : l.settleError.error = none := by
    unfold settleError
    split
    · assumption
    · exact settle_error _
  rw [left, settleError, rests, left]

theorem unfinished_discard : l.discard.unfinished = false := by
  unfold discard unfinished
  split
  · rename_i inactive
    simp [inactive]
  · rfl

theorem unfinished_settle_unnamed : (l.settle "").unfinished = false := by
  rw [settle, if_pos rfl, unfinished_discard]

/-- What is left once a response with a timing is settled. -/
theorem unfinished_settle_timed {responseID : String} (some_ : responseID ≠ "")
    (timed : l.timed responseID = true) : (l.settle responseID).unfinished = true ↔
      l.pending = true ∨ ∃ active ∈ l.active, active ≠ responseID := by
  unfold settle unfinished
  rw [if_neg some_, if_pos timed]
  cases active : l.active with
  | none => simp
  | some id =>
      by_cases same : id = responseID
      · simp [same]
      · simp [same]

theorem left_binary_terminal : l.discard.left = false := by
  have error : l.discard.error = l.error := by
    unfold discard
    split <;> rfl
  unfold left settleError
  rw [error]
  cases waits : l.error with
  | none => exact unfinished_discard
  | some waiting =>
      have nothing : ({ l.discard with error := none } : Life).unfinished = false :=
        unfinished_discard
      unfold unfinished at nothing
      simp only [Bool.or_eq_false_iff, Option.isSome_eq_false_iff, Option.isNone_iff_eq_none] at nothing
      unfold settle
      dsimp only
      split
      · exact unfinished_discard
      · split
        · simp [unfinished, nothing.1, nothing.2]
        · simp [unfinished, nothing.1, nothing.2]

/-- What a waiting error leaves. -/
theorem left_waiting {waiting : String} (waits : l.error = some waiting) :
    l.left = (({ l with error := none } : Life).settle waiting).unfinished := by
  rw [left, settleError, waits]

theorem left_rests (rests : l.error = none) : l.left = l.unfinished := by
  rw [left, settleError, rests]

/-- Naming a response gives it a timing and changes nothing where it has one. -/
theorem name_timed {responseID : String} (timed : l.timed responseID = true) :
    l.name responseID = l := by
  simp [name, timed]

theorem name_untimed {responseID : String} (some_ : responseID ≠ "")
    (untimed : l.timed responseID = false) : l.name responseID =
      { l with
        pending := false
        timed := Function.update l.timed responseID true
        active := some responseID } := by
  simp [name, some_, untimed]

/-- Naming a response and then settling it. -/
theorem unfinished_settle_name {responseID : String} (some_ : responseID ≠ "")
    (error : Option String) :
    (({ l.name responseID with error := error } : Life).settle responseID).unfinished = true ↔
      l.timed responseID = true ∧
        (l.pending = true ∨ ∃ active ∈ l.active, active ≠ responseID) := by
  cases timed : l.timed responseID with
  | true =>
      have settled := unfinished_settle_timed (l := { l with error := error }) some_ timed
      rw [name_timed timed, settled]
      simp
  | false =>
      rw [name_untimed some_ timed, unfinished_settle_timed some_ (Function.update_self ..)]
      simp

/-- A terminal event leaves a turn exactly where it spares one. -/
theorem left_terminal (sound : l.Sound) {eventType : String} (typed : eventType ≠ "")
    (terminal : isTerminalEvent eventType = true) (responseID : String) :
    (l.event eventType responseID).left = true ↔ l.Spares eventType responseID := by
  unfold event Spares
  rw [if_neg typed]
  simp only [terminal, Bool.not_true, Bool.false_eq_true, if_false]
  by_cases some_ : responseID ≠ ""
  · rw [if_pos some_]
    by_cases error : eventType = "error"
    · rw [if_pos error, if_neg some_, left_waiting rfl]
      exact unfinished_settle_name some_ none
    · rw [if_neg error, left_rests (settle_error _)]
      exact unfinished_settle_name some_ none
  · rw [if_neg some_]
    rw [not_not] at some_
    have unnamed : l.name responseID = l := by simp [name, some_]
    rw [unnamed]
    by_cases error : eventType = "error"
    · rw [if_pos error, if_pos some_, left_waiting rfl]
      cases active : l.active with
      | none => simp [unfinished_settle_unnamed]
      | some id =>
          obtain ⟨some_', -, timed⟩ := sound.active id active
          have settled := unfinished_settle_timed (l := { l with error := none }) some_' timed
          rw [active] at settled
          simp only [Option.getD_some]
          rw [settled]
          simp [error]
    · rw [if_neg error, left_rests (settle_error _), some_]
      simp [unfinished_settle_unnamed, error]

/-- An event that goes on keeps what is left right exactly where it goes on right. -/
theorem left_goesOn {unanswered : List ℕ} (right : l.left = true ↔ unanswered ≠ [])
    {eventType : String} (goesOn : isTerminalEvent eventType = false) (responseID : String) :
    ((l.event eventType responseID).left = true ↔ unanswered ≠ []) ↔
      (eventType ≠ "" → l.GoesOnRight unanswered responseID) := by
  by_cases typed : eventType = ""
  · simp [event, typed, right]
  unfold event
  rw [if_neg typed]
  simp only [goesOn, Bool.not_false, if_true, ne_eq, typed, not_false_eq_true, true_imp_iff]
  unfold GoesOnRight
  by_cases some_ : responseID = ""
  · simp [name, some_, right]
  cases timed : l.timed responseID with
  | true => simp [name_timed timed, right]
  | false =>
      simp only [ne_eq, some_, not_false_eq_true, true_imp_iff]
      rw [name_untimed some_ timed]
      cases waits : l.error with
      | none =>
          rw [left_rests rfl]
          simp [unfinished]
      | some waiting =>
          rw [left_waiting rfl]
          by_cases unnamed : waiting = ""
          · have nothing : l.left = false := by
              rw [left_waiting waits, unnamed, unfinished_settle_unnamed]
            rw [nothing] at right
            simp only [unnamed, unfinished_settle_unnamed, true_or, iff_true]
            exact right
          · simp only [unnamed, false_or]
            by_cases same : waiting = responseID
            · rw [same, unfinished_settle_timed some_ (Function.update_self ..)]
              simp
            · simp only [settle, if_neg unnamed]
              split
              · simp [unfinished, same, Ne.symm same]
              · simp [unfinished, same]

/-- A turn is started right unless an error without an id waits. -/
theorem left_start : l.start.left = true ↔ l.error ≠ some "" := by
  cases waits : l.error with
  | none =>
      have rests : l.start.error = none := waits
      rw [left_rests rests]
      simp [start, unfinished]
  | some waiting =>
      have waits' : l.start.error = some waiting := waits
      rw [left_waiting waits']
      by_cases unnamed : waiting = ""
      · rw [unnamed, unfinished_settle_unnamed]
        simp
      · cases timed : l.timed waiting with
        | true => simp [settle, start, timed, unfinished, unnamed]
        | false => simp [settle, start, timed, unfinished, unnamed]

end Life

/-! ### The relay -/

namespace RelayWorld

attribute [local irreducible] trimSpace isTerminalEvent Payload.responseID

variable {w : RelayWorld} (env : RelayEnv)

/-- What the relay says at the end is what the life of its turns leaves. -/
theorem hasUnfinishedTurn_settleAtEnd (kept : w.relay.Kept) (now : Time) :
    (w.relay.settleAtEnd now).1.hasUnfinishedTurn = w.relay.life.left := by
  rw [Life.left, ← RelayState.life_settleError now kept]
  rfl

theorem closesRight_iff (kept : w.relay.Kept) :
    w.ClosesRight ↔ (w.relay.life.left = true ↔ w.unanswered ≠ []) := by
  constructor
  · intro right
    have unfinished := right.unfinished 0
    rwa [hasUnfinishedTurn_settleAtEnd kept] at unfinished
  · intro right
    constructor
    · intro now
      rw [hasUnfinishedTurn_settleAtEnd kept]
      exact right
    · intro now
      rw [closesGracefully, hasUnfinishedTurn_settleAtEnd kept]
      cases left : w.relay.life.left with
      | true =>
          rw [left] at right
          simpa using right
      | false =>
          rw [left] at right
          simpa using right

theorem kept_step (w : RelayWorld) (f : RelayFrame) (kept : w.relay.Kept) :
    (step env w f).1.relay.Kept := by
  cases f with
  | create payload startedAt => exact kept.startTurn payload startedAt
  | text turn payload now => exact (kept.receiveText env now payload).1
  | binary turn payload => exact (kept.receiveBinary payload).1

theorem closesRight_create (kept : w.relay.Kept) (payload : Payload) (startedAt : Time) :
    (step env w (.create payload startedAt)).1.ClosesRight ↔
      (RelayFrame.create payload startedAt).Fits w := by
  rw [closesRight_iff (kept_step env w _ kept)]
  simp only [step, RelayState.life_startTurn, RelayFrame.Fits]
  rw [Life.left_start]
  simp

theorem closesRight_binary (kept : w.relay.Kept) (right : w.ClosesRight) (turn : ℕ)
    (payload : Payload) : (step env w (.binary turn payload)).1.ClosesRight ↔
      (RelayFrame.binary turn payload).Fits w := by
  rw [closesRight_iff kept] at right
  rw [closesRight_iff (kept_step env w _ kept)]
  simp only [step, (kept.receiveBinary payload).2, RelayFrame.Fits, Life.binary]
  cases terminal : isTerminalEvent (trimSpace (payload.get "type").str) with
  | true =>
      simp only [if_true, Life.left_binary_terminal, true_imp_iff]
      simp
  | false =>
      simp only [Bool.false_eq_true, if_false, answer, terminal, right]
      simp

theorem closesRight_text (kept : w.relay.Kept) (right : w.ClosesRight) (turn : ℕ)
    (payload : Payload) (now : Time) : (step env w (.text turn payload now)).1.ClosesRight ↔
      (RelayFrame.text turn payload now).Fits w := by
  rw [closesRight_iff kept] at right
  rw [closesRight_iff (kept_step env w _ kept)]
  simp only [step, (kept.receiveText env now payload).2, RelayFrame.Fits, Life.text]
  generalize typed : trimSpace (payload.get "type").str = eventType
  have sound : (if w.relay.life.closes payload eventType then w.relay.life.settleError
      else w.relay.life).Sound := by
    split
    · exact kept.sound.settleError
    · exact kept.sound
  have right' : (if w.relay.life.closes payload eventType then w.relay.life.settleError
      else w.relay.life).left = true ↔ w.unanswered ≠ [] := by
    split
    · rw [Life.left_settleError]
      exact right
    · exact right
  generalize (if w.relay.life.closes payload eventType then w.relay.life.settleError
      else w.relay.life) = l at sound right'
  cases terminal : isTerminalEvent eventType with
  | true =>
      have some_ : eventType ≠ "" := by
        rintro rfl
        have none_ : isTerminalEvent "" = false := by decide +kernel
        rw [none_] at terminal
        cases terminal
      rw [if_neg some_, if_pos rfl, Life.left_terminal sound some_ terminal]
  | false =>
      have same : w.answer turn payload = w.unanswered := by
        simp [answer, typed, terminal]
      rw [same, Life.left_goesOn right' terminal]
      by_cases untyped : eventType = ""
      · simp [untyped]
      · simp [untyped]

/-- The relay knows at every point of a run whether a turn is unanswered exactly when every frame
fits. -/
theorem fits_iff_closesRight (requestModel : String) (frames : List RelayFrame) :
    Throughout (step env) (fun w f => f.Fits w) { relay := { requestModel := requestModel } }
        frames ↔
      ∀ before after, frames = before ++ after →
        (run (step env) { relay := { requestModel := requestModel } } before).1.ClosesRight := by
  apply throughout_iff_every (kept_step env)
  · intro w f kept right
    cases f with
    | create payload startedAt => exact closesRight_create env kept payload startedAt
    | text turn payload now => exact closesRight_text env kept right turn payload now
    | binary turn payload => exact closesRight_binary env kept right turn payload
  · constructor
    · intro waiting here
      cases here
    · constructor
      · intro active here
        cases here
      · intro waiting here
        cases here
  · constructor
    · intro now
      simp [RelayState.settleAtEnd, RelayState.complete, RelayState.finalizePendingBareError,
        RelayState.hasUnfinishedTurn]
    · intro now
      simp [closesGracefully, RelayState.settleAtEnd, RelayState.complete,
        RelayState.finalizePendingBareError, RelayState.hasUnfinishedTurn]

/-- Another end of the first turn comes after the second was started. -/
def lateEnd : List RelayFrame :=
  [.create (sampleFrame 0 "response.create" false none).payload 1,
    .text 0 (sampleFrame 0 "response.completed" true none).payload 2,
    .create (sampleFrame 1 "response.create" false none).payload 3,
    .text 0 (sampleFrame 0 "response.done" true none).payload 4]

/-- An event of the turn comes after its end. -/
def lateEvent : List RelayFrame :=
  [.create (sampleFrame 0 "response.create" false none).payload 1,
    .text 0 (sampleFrame 0 "response.completed" true none).payload 2,
    .text 0 (sampleFrame 0 "response.output_item.done" true none).payload 3]

instance (ids : ℕ → String) (w : RelayWorld) (f : RelayFrame) : Decidable (f.Legal ids w) := by
  cases f with
  | create payload startedAt => exact inferInstanceAs (Decidable (_ = _))
  | text turn payload now => exact inferInstanceAs (Decidable (_ ∧ _))
  | binary turn payload => exact inferInstanceAs (Decidable (_ < _))

/-- A late end hides an unanswered turn, a late event makes up an unfinished one. -/
theorem late_frames_close_wrong :
    (Throughout (step sampleEnv) (fun w f => f.Legal sampleID w) {} lateEnd ∧
        ¬(run (step sampleEnv) {} lateEnd).1.ClosesRight) ∧
      Throughout (step sampleEnv) (fun w f => f.Legal sampleID w) {} lateEvent ∧
        ¬(run (step sampleEnv) {} lateEvent).1.ClosesRight := by
  refine ⟨⟨by decide +kernel, fun right => ?_⟩, by decide +kernel, fun right => ?_⟩
  · have hidden : ¬(((run (step sampleEnv) {} lateEnd).1.relay.settleAtEnd 9).1.hasUnfinishedTurn =
        true ↔ (run (step sampleEnv) {} lateEnd).1.unanswered ≠ []) := by
      decide +kernel
    exact hidden (right.unfinished 9)
  · have madeUp : ¬(((run (step sampleEnv) {} lateEvent).1.relay.settleAtEnd 9).1.hasUnfinishedTurn =
        true ↔ (run (step sampleEnv) {} lateEvent).1.unanswered ≠ []) := by
      decide +kernel
    exact madeUp (right.unfinished 9)

end RelayWorld

end Sub2api.Relay
