import Mathlib.Data.List.Basic
import Sub2api.Relay.Effects

/-!
# Turns and their accounts

The text frames of an upstream connection in which turns follow one another, and what the frames
of a turn say about its usage. The relay has one accumulator for all turns and one slot for an
error that waits, so a terminal event too many, a terminal event without an id or a late usage
settles wrongly. `Fits` says when an event does none of this.
-/

namespace Sub2api.Relay

open Sub2api.Go Sub2api.Go.Gjson Transducer RelayState

/-- A text frame and the turn it is about. -/
structure TurnFrame where
  turn : ℕ
  payload : Payload
  now : Time

namespace TurnFrame

def eventType (f : TurnFrame) : String := trimSpace (f.payload.get "type").str

def responseID (f : TurnFrame) : String := f.payload.responseID f.eventType

def usage (f : TurnFrame) : Option Usage := parseUsage f.payload f.eventType

def terminal (f : TurnFrame) : Bool := isTerminalEvent f.eventType

end TurnFrame

def receiveFrame (env : RelayEnv) (s : RelayState) (f : TurnFrame) :
    RelayState × List RelayTurnResult :=
  s.receiveText env f.payload f.now

/-- Text frames from upstream and then the end of the relay. -/
def relayText (env : RelayEnv) (s : RelayState) (frames : List TurnFrame) (endedAt : Time) :
    RelayState × List RelayTurnResult :=
  andThen (run (receiveFrame env) s frames) fun s => s.settleAtEnd endedAt

/-- Turns follow one another, and an event names its own turn's response or none. -/
structure TurnsFollow (ids : ℕ → String) (frames : List TurnFrame) : Prop where
  distinct : Function.Injective ids
  trimmed : ∀ turn, ids turn ≠ "" ∧ trimSpace (ids turn) = ids turn
  ordered : frames.Pairwise fun f g => f.turn ≤ g.turn
  named : ∀ f ∈ frames, f.responseID = "" ∨ f.responseID = ids f.turn

/-- What the events of a turn say about its usage: the last terminal event with tokens, and the
others merged. -/
structure Account where
  terminal : Option Usage := none
  merged : Usage := 0

namespace Account

def read (a : Account) (f : TurnFrame) : Account :=
  match f.usage with
  | none => a
  | some usage =>
      if f.terminal then if relayUsageHasTokens usage then { a with terminal := some usage } else a
      else { a with merged := mergeRelayUsageNonZero a.merged usage }

def usage (a : Account) : Usage := a.terminal.getD a.merged

end Account

def account (frames : List TurnFrame) (turn : ℕ) : Account :=
  (frames.filter fun f => f.turn = turn).foldl Account.read {}

/-- Each response is reported at most once and with its turn's usage, and the totals are what was
reported. -/
structure SettledOnce (ids : ℕ → String) (frames : List TurnFrame)
    (outcome : RelayState × List RelayTurnResult) : Prop where
  once : ∀ id, id ≠ "" → (outcome.2.filter fun result => result.requestID = id).length ≤ 1
  usage : ∀ result ∈ outcome.2, ∀ turn, result.requestID = ids turn →
    result.usage = (account frames turn).usage
  total : outcome.1.usage = (outcome.2.map RelayTurnResult.usage).sum

/-- The turn has had a terminal event. -/
def Ended (seen : List TurnFrame) (turn : ℕ) : Prop :=
  ∃ f ∈ seen, f.turn = turn ∧ f.terminal = true

instance (seen : List TurnFrame) (turn : ℕ) : Decidable (Ended seen turn) :=
  inferInstanceAs (Decidable (∃ f ∈ seen, _))

/-- An error waits and the event does not settle it. -/
def Waits (s : RelayState) (f : TurnFrame) : Prop :=
  s.pendingBareError.isSome = true ∧ s.shouldFinalizePendingBareError f.payload f.eventType = false

instance (s : RelayState) (f : TurnFrame) : Decidable (Waits s f) :=
  inferInstanceAs (Decidable (_ ∧ _))

/-- A terminal event, or an event with usage, that fits what came before. -/
structure Fits (ids : ℕ → String) (s : RelayState) (seen : List TurnFrame) (f : TurnFrame) :
    Prop where
  /-- It comes after a terminal event of its turn exactly where the turn's error waits. -/
  inTurn : Waits s f ↔ Ended seen f.turn
  /-- No other turn's usage is left. -/
  others : ∀ g ∈ seen, g.turn ≠ f.turn → g.usage ≠ none → Ended seen g.turn
  /-- A settlement that is not reported has no usage. -/
  reported : f.terminal = true → f.responseID = "" → f.eventType ≠ "error" →
    (account (seen ++ [f]) f.turn).usage = 0
  /-- An error without an id is not taken for another turn's. -/
  own : f.eventType = "error" → f.responseID = "" →
    s.activeTurn = none ∨ s.activeTurn = some (ids f.turn)
  /-- A terminal event with a count below zero has tokens too. -/
  counts : f.terminal = true → ∀ usage ∈ f.usage, relayUsageHasTokens usage = true ∨ usage = 0
  /-- No usage is merged into that of an error. -/
  merges : f.terminal = false → Waits s f → (account seen f.turn).terminal = none

/-- The relay's state and the frames that it has seen. -/
def watchFrame (env : RelayEnv) (w : RelayState × List TurnFrame) (f : TurnFrame) :
    (RelayState × List TurnFrame) × List RelayTurnResult :=
  let out := receiveFrame env w.1 f
  ((out.1, w.2 ++ [f]), out.2)

/-- Every terminal event and every event with usage fits. -/
def AllFit (ids : ℕ → String) (env : RelayEnv) (s : RelayState) (frames : List TurnFrame) : Prop :=
  Throughout (watchFrame env)
    (fun w f => f.usage ≠ none ∨ f.terminal = true → Fits ids w.1 w.2 f) (s, []) frames

/-! ### Accounts -/

section Accounts

attribute [local irreducible] trimSpace isTerminalEvent parseUsage

variable {seen : List TurnFrame} {f : TurnFrame} {turn : ℕ}

theorem Account.read_unused {a : Account} (unused : f.usage = none) : a.read f = a := by
  unfold Account.read
  split
  · rfl
  · rename_i used
    rw [unused] at used
    cases used

theorem account_append : account (seen ++ [f]) turn =
    if f.turn = turn then (account seen turn).read f else account seen turn := by
  unfold account
  by_cases here : f.turn = turn
  · simp [here]
  · simp [here]

theorem ended_append :
    Ended (seen ++ [f]) turn ↔ Ended seen turn ∨ (f.turn = turn ∧ f.terminal = true) := by
  simp [Ended, or_and_right, exists_or]

/-- No count is below zero. -/
def Usage.Counted (u : Usage) : Prop :=
  0 ≤ u.inputTokens ∧ 0 ≤ u.imageInputTokens ∧ 0 ≤ u.outputTokens ∧
    0 ≤ u.cacheCreationInputTokens ∧ 0 ≤ u.cacheReadInputTokens ∧ 0 ≤ u.imageOutputTokens

theorem Usage.Counted.merge {u : Usage} (counted : u.Counted) (v : Usage) :
    (mergeRelayUsageNonZero u v).Counted := by
  obtain ⟨input, imageInput, output, creation, read, image⟩ := counted
  unfold mergeRelayUsageNonZero
  refine ⟨?_, ?_, ?_, ?_, ?_, ?_⟩ <;> dsimp only <;> split <;> omega

theorem Usage.Counted.eq_zero {u : Usage} (counted : u.Counted)
    (empty : relayUsageHasTokens u = false) : u = 0 := by
  obtain ⟨input, imageInput, output, creation, read, image⟩ := counted
  simp only [relayUsageHasTokens, Bool.or_eq_false_iff, decide_eq_false_iff_not, not_lt] at empty
  obtain ⟨⟨⟨⟨⟨input', output'⟩, creation'⟩, read'⟩, imageInput'⟩, image'⟩ := empty
  rw [Usage.zero_def]
  ext <;> dsimp only <;> omega

/-- The terminal usage has tokens and the merged counts are none below zero. -/
structure Account.Sound (a : Account) : Prop where
  tokens : ∀ usage ∈ a.terminal, relayUsageHasTokens usage = true
  counted : a.merged.Counted

theorem Account.Sound.read {a : Account} (sound : a.Sound) (f : TurnFrame) : (a.read f).Sound := by
  unfold Account.read
  split
  · exact sound
  · split
    · split
      · rename_i tokens
        exact ⟨fun usage here => by cases here; exact tokens, sound.counted⟩
      · exact sound
    · exact ⟨sound.tokens, sound.counted.merge _⟩

theorem account_sound : (account seen turn).Sound := by
  unfold account
  generalize seen.filter (fun f => f.turn = turn) = frames
  have sound : ({} : Account).Sound := by
    constructor
    · intro usage here
      cases here
    · simp [Usage.Counted, Usage.zero_def]
  generalize ({} : Account) = a at sound
  induction frames generalizing a with
  | nil => exact sound
  | cons f rest ih =>
      rw [List.foldl_cons]
      exact ih _ (sound.read f)

theorem account_terminal_eq_none (running : ¬Ended seen turn) :
    (account seen turn).terminal = none := by
  induction seen using List.reverseRecOn with
  | nil => rfl
  | append_singleton seen f ih =>
      rw [ended_append, not_or] at running
      rw [account_append]
      split
      · rename_i here
        have goesOn : f.terminal = false := by
          simpa [here] using running.2
        unfold Account.read
        split
        · exact ih running.1
        · simp only [goesOn, Bool.false_eq_true, if_false]
          exact ih running.1
      · exact ih running.1

theorem account_eq_zero (silent : ∀ f ∈ seen, f.turn = turn → f.usage = none) :
    (account seen turn).usage = 0 := by
  have nothing : account seen turn = {} := by
    induction seen using List.reverseRecOn with
    | nil => rfl
    | append_singleton seen f ih =>
        rw [account_append]
        have before := ih fun g here => silent g (List.mem_append_left _ here)
        split
        · rename_i here
          have unused : f.usage = none :=
            silent f (List.mem_append_right _ (List.mem_singleton_self f)) here
          rw [before, Account.read_unused unused]
        · exact before
  rw [nothing]
  rfl

/-- The accumulator keeps up with the account on a terminal event. -/
theorem accumulate_terminal {a : Account} (sound : a.Sound) (terminal : f.terminal = true)
    (counts : ∀ usage ∈ f.usage, relayUsageHasTokens usage = true ∨ usage = 0) :
    (parseUsageAndAccumulate a.usage f.payload f.eventType).1 = (a.read f).usage := by
  have ends : isTerminalEvent (trimSpace f.eventType) = true := by
    rw [← terminal, TurnFrame.terminal, TurnFrame.eventType, trimSpace_trimSpace]
  unfold parseUsageAndAccumulate Account.read
  cases parsed : f.usage with
  | none =>
      rw [TurnFrame.usage] at parsed
      simp [parsed]
  | some usage =>
      rw [TurnFrame.usage] at parsed
      simp only [parsed, ends, terminal, if_true]
      cases tokens : relayUsageHasTokens usage with
      | true => simp [Account.usage]
      | false =>
          have zero : usage = 0 := by
            rcases counts usage (by rw [TurnFrame.usage, parsed]; rfl) with some_ | zero
            · rw [some_] at tokens
              cases tokens
            · exact zero
          cases held : relayUsageHasTokens a.usage with
          | true => simp
          | false =>
              have merged : a.usage = a.merged := by
                cases here : a.terminal with
                | none => simp [Account.usage, here]
                | some usage =>
                    have full := sound.tokens usage here
                    rw [Account.usage, here, Option.getD_some, full] at held
                    cases held
              rw [merged] at held
              simp [merged, zero, sound.counted.eq_zero held]

/-- And on an event before it. -/
theorem accumulate_goesOn {a : Account} (running : a.terminal = none) (goesOn : f.terminal = false) :
    (parseUsageAndAccumulate a.usage f.payload f.eventType).1 = (a.read f).usage := by
  have ends : isTerminalEvent (trimSpace f.eventType) = false := by
    rw [← goesOn, TurnFrame.terminal, TurnFrame.eventType, trimSpace_trimSpace]
  unfold parseUsageAndAccumulate Account.read
  cases parsed : f.usage with
  | none =>
      rw [TurnFrame.usage] at parsed
      simp [parsed]
  | some usage =>
      rw [TurnFrame.usage] at parsed
      simp [parsed, ends, goesOn, Account.usage, running]

end Accounts

end Sub2api.Relay
