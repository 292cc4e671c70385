import Sub2api.ApiCompat.Types
import Sub2api.ApiCompat.ResponsesToAnthropic

/-!
# The blocks of a converted stream

Every handler keeps the blocks in order, except that a delta of arguments or of reasoning goes to
the block of its item, which another item may have closed: `Fine` says when it does not.

* `handlers_track` — what one event does to the stream's phase;
* `converted_stream_wellFormed_iff` — over every run;
* `parallel_calls_not_wellFormed` — two calls whose arguments come after both were added.
-/

namespace Sub2api.ApiCompat

open Go Transducer ToAnthropic

/-! ### The phase of a state -/

/-- The stream runs and no block is open. -/
structure Closed (s : ResponsesEventToAnthropicState) (k : Phase) : Prop where
  started : s.messageStartSent = true
  running : s.messageStopSent = false
  closed : s.contentBlockOpen = false
  phase : k = .between s.contentBlockIndex

/-- The stream runs and a block of this type is open; the blocks of a web search never stay
open. -/
structure Opened (type : BlockType) (s : ResponsesEventToAnthropicState) (k : Phase) : Prop where
  started : s.messageStartSent = true
  running : s.messageStopSent = false
  opened : s.contentBlockOpen = true
  typed : s.currentBlockType = some type
  phase : k = .inBlock s.contentBlockIndex type
  streamed : type ≠ .serverToolUse

/-- The state of a running stream and its phase. -/
def InPhase (s : ResponsesEventToAnthropicState) (k : Phase) : Prop :=
  Closed s k ∨ ∃ type, Opened type s k

variable {s : ResponsesEventToAnthropicState} {k : Phase} {type : BlockType}

theorem InPhase.running (now : InPhase s k) : s.messageStopSent = false := by
  rcases now with closed | ⟨_, opened⟩
  · exact closed.running
  · exact opened.running

theorem InPhase.started (now : InPhase s k) : s.messageStartSent = true := by
  rcases now with closed | ⟨_, opened⟩
  · exact closed.started
  · exact opened.started

/-- An open block's type is the phase's. -/
theorem InPhase.opened (now : InPhase s k) (isOpen : s.contentBlockOpen = true)
    (typed : s.currentBlockType = some type) : Opened type s k := by
  rcases now with closed | ⟨other, opened⟩
  · have contra := closed.closed
    rw [isOpen] at contra
    cases contra
  · have same := opened.typed
    rw [typed] at same
    cases same
    exact opened

/-- Between blocks none is open. -/
theorem InPhase.closed {next : ℤ} (now : InPhase s k) (between : k = .between next) :
    Closed s k := by
  rcases now with closed | ⟨type, opened⟩
  · exact closed
  · have contra := opened.phase
    rw [between] at contra
    cases contra

/-- `s'` differs from `s` in nothing that a phase depends on. -/
structure SamePhase (s s' : ResponsesEventToAnthropicState) : Prop where
  started : s'.messageStartSent = s.messageStartSent
  stopped : s'.messageStopSent = s.messageStopSent
  isOpen : s'.contentBlockOpen = s.contentBlockOpen
  typed : s'.currentBlockType = s.currentBlockType
  index : s'.contentBlockIndex = s.contentBlockIndex

variable {s' : ResponsesEventToAnthropicState}

theorem InPhase.transfer (now : InPhase s k) (same : SamePhase s s') : InPhase s' k := by
  obtain ⟨started, stopped, isOpen, typed, index⟩ := same
  rcases now with closed | ⟨type, opened⟩
  · exact Or.inl ⟨started.trans closed.started, stopped.trans closed.running,
      isOpen.trans closed.closed, index ▸ closed.phase⟩
  · exact Or.inr ⟨type, started.trans opened.started, stopped.trans opened.running,
      isOpen.trans opened.opened, typed.trans opened.typed, index ▸ opened.phase,
      opened.streamed⟩

/-! ### Events -/

theorem follow_blockStart {index : ℤ} {block : AnthropicContentBlock} :
    (Phase.between index).follow (blockStart index block) = some (.inBlock index block.type) := by
  simp [Phase.follow, blockStart]

theorem follow_blockDelta {index : ℤ} {delta : AnthropicDelta}
    (takes : type.takes delta.type = true) :
    (Phase.inBlock index type).follow (blockDelta index delta) = some (.inBlock index type) := by
  simp [Phase.follow, blockDelta, takes]

theorem follow_blockStop {index : ℤ} :
    (Phase.inBlock index type).follow (blockStop index) = some (.between (index + 1)) := by
  simp [Phase.follow, blockStop]

/-- A delta that is followed goes to the open block and is of its kind. -/
theorem opened_of_follow_blockDelta (now : InPhase s k) {index : ℤ} {delta : AnthropicDelta}
    {k' : Phase} (followed : k.follow (blockDelta index delta) = some k') :
    ∃ type, Opened type s k ∧ index = s.contentBlockIndex ∧ type.takes delta.type = true := by
  rcases now with closed | ⟨type, opened⟩
  · rw [closed.phase] at followed
    cases followed
  · rw [opened.phase] at followed
    simp only [Phase.follow, blockDelta, Option.some.injEq] at followed
    split at followed
    · rename_i fits
      exact ⟨type, opened, fits.1, fits.2⟩
    · cases followed

theorem observe_messageEnd {index : ℤ} {stopReason : String} {usage : AnthropicUsage} :
    observe Phase.follow (.between index) (messageEnd stopReason usage) = some .ended := by
  simp [messageEnd, Phase.follow]

/-! ### Handlers -/

/-- After closing, no block is open. -/
theorem closeCurrentBlock_follows (now : InPhase s k) :
    Follows Phase.follow (Closed (closeCurrentBlock s).1) (closeCurrentBlock s).2 k := by
  unfold closeCurrentBlock
  rcases now with closed | ⟨type, opened⟩
  · simp only [closed.closed, Bool.not_false, if_true]
    exact .nil closed
  · have signed : Follows Phase.follow (fun k' => k' = k) (signatureDelta s) k := by
      unfold signatureDelta
      dsimp only
      split
      · rename_i pending
        rw [opened.typed] at pending
        obtain ⟨thinking, _⟩ := pending
        cases thinking
        refine .one ?_ rfl
        rw [opened.phase]
        exact follow_blockDelta rfl
      · exact .nil rfl
    simp only [opened.opened, Bool.not_true, Bool.false_eq_true, if_false]
    refine signed.append fun k' same => ?_
    rw [same, opened.phase]
    exact .one follow_blockStop ⟨opened.started, opened.running, rfl, rfl⟩

theorem closing_follows (now : InPhase s k) :
    Follows Phase.follow (InPhase (closeCurrentBlock s).1) (closeCurrentBlock s).2 k :=
  (closeCurrentBlock_follows now).mono fun _ closed => Or.inl closed

/-- A new block, after the open one is closed. -/
theorem reopen_follows (now : InPhase s k) (block : AnthropicContentBlock)
    (streamed : block.type ≠ .serverToolUse)
    (started : s'.messageStartSent = (closeCurrentBlock s).1.messageStartSent)
    (stopped : s'.messageStopSent = (closeCurrentBlock s).1.messageStopSent)
    (isOpen : s'.contentBlockOpen = true) (typed : s'.currentBlockType = some block.type)
    (index : s'.contentBlockIndex = (closeCurrentBlock s).1.contentBlockIndex) :
    Follows Phase.follow (Opened block.type s')
      ((closeCurrentBlock s).2 ++ [blockStart (closeCurrentBlock s).1.contentBlockIndex block])
      k := by
  refine (closeCurrentBlock_follows now).append fun k' closed => ?_
  rw [closed.phase]
  exact .one follow_blockStart ⟨started.trans closed.started, stopped.trans closed.running, isOpen,
    typed, by rw [index], streamed⟩

theorem openTextBlock_follows (now : InPhase s k) :
    Follows Phase.follow (Opened .text (openTextBlock s).1) (openTextBlock s).2 k := by
  unfold openTextBlock
  split
  · exact reopen_follows now { type := .text } (by decide) rfl rfl rfl rfl rfl
  · rename_i already
    push Not at already
    exact .nil (now.opened (by simpa using already.1) already.2)

theorem emitText_follows {text : String} {part : ResponsesTextPart} (now : InPhase s k) :
    Follows Phase.follow (InPhase (emitText text part s).1) (emitText text part s).2 k := by
  unfold emitText
  split
  · exact .nil now
  · refine (openTextBlock_follows now).append fun k' opened => ?_
    rw [opened.phase]
    exact .one (follow_blockDelta rfl) (Or.inr ⟨.text, opened.started, opened.running,
      opened.opened, opened.typed, rfl, opened.streamed⟩)

theorem recoverText_follows {text : String} {part : ResponsesTextPart} (now : InPhase s k) :
    Follows Phase.follow (InPhase (recoverText text part s).1) (recoverText text part s).2 k := by
  unfold recoverText
  dsimp only
  split
  · exact .nil now
  · split
    · exact .nil now
    · exact emitText_follows now

variable {evt : ResponsesStreamEvent}

theorem handleCreated_follows (now : InPhase s k) :
    Follows Phase.follow (InPhase (handleCreated evt s).1) (handleCreated evt s).2 k := by
  unfold handleCreated
  cases evt.response with
  | none =>
    dsimp only
    rw [if_pos now.started]
    exact .nil now
  | some response =>
    dsimp only
    rw [if_pos now.started]
    exact .nil (now.transfer ⟨rfl, rfl, rfl, rfl, rfl⟩)

theorem handleOutputItemAdded_follows (now : InPhase s k) :
    Follows Phase.follow (InPhase (handleOutputItemAdded evt s).1)
      (handleOutputItemAdded evt s).2 k := by
  unfold handleOutputItemAdded
  split
  · exact .nil now
  · rename_i item _
    split
    · refine (reopen_follows now { type := .toolUse, id := fromResponsesCallID item.callID
                                   name := item.name, input := "\x7b\x7d" }
        (by simp) ?_ ?_ ?_ ?_ ?_).mono fun _ opened => Or.inr ⟨_, opened⟩ <;> rfl
    · refine (reopen_follows now { type := .toolUse, id := fromResponsesCallID item.callID
                                   name := item.name, input := "\x7b\x7d" }
        (by simp) ?_ ?_ ?_ ?_ ?_).mono fun _ opened => Or.inr ⟨_, opened⟩ <;> rfl
    · refine (reopen_follows now { type := .thinking } (by decide) ?_ ?_ ?_ ?_ ?_).mono
        fun _ opened => Or.inr ⟨_, opened⟩ <;> rfl
    · exact .nil now

theorem handleTextDone_follows (now : InPhase s k) :
    Follows Phase.follow (InPhase (handleTextDone evt s).1) (handleTextDone evt s).2 k := by
  unfold handleTextDone
  simp only [now.running, Bool.false_eq_true, if_false]
  exact (recoverText_follows now).append fun k' recovered => closing_follows recovered

theorem handleFuncArgsDone_follows (now : InPhase s k) :
    Follows Phase.follow (InPhase (handleFuncArgsDone evt s).1) (handleFuncArgsDone evt s).2 k := by
  have closing := closing_follows now
  unfold handleFuncArgsDone
  split
  · exact .nil now
  · rename_i isOpen
    split
    · exact closing
    · rename_i typed
      have opened := now.opened (by simpa using isOpen) (not_not.mp typed)
      split
      · exact closing
      · split
        · exact closing
        · dsimp only
          split
          · exact .nil now
          · rename_i placed
            obtain ⟨k', observed, closed⟩ := closing
            refine ⟨k', ?_, closed⟩
            rw [observe_cons, not_not.mp placed, opened.phase, follow_blockDelta rfl,
              Option.bind_some, ← opened.phase]
            exact observed

theorem handleWebSearchDone_follows {item : ResponsesOutput} (now : InPhase s k) :
    Follows Phase.follow (InPhase (handleWebSearchDone item s).1)
      (handleWebSearchDone item s).2 k := by
  refine (closeCurrentBlock_follows now).append fun k' closed => ?_
  refine ⟨.between ((closeCurrentBlock s).1.contentBlockIndex + 1 + 1), ?_,
    Or.inl ⟨closed.started, closed.running, closed.closed, rfl⟩⟩
  rw [closed.phase]
  simp [follow_blockStart, follow_blockStop]

theorem handleOutputItemDone_follows (now : InPhase s k) :
    Follows Phase.follow (InPhase (handleOutputItemDone evt s).1)
      (handleOutputItemDone evt s).2 k := by
  unfold handleOutputItemDone
  split
  · exact .nil now
  · split
    · exact handleWebSearchDone_follows now
    · dsimp only
      split
      · exact closing_follows (now.transfer ⟨rfl, rfl, rfl, rfl, rfl⟩)
      · exact closing_follows now

/-! ### Deltas of arguments and of reasoning -/

/-- The block of the event's item, when it has one, is the open block and of this type. -/
def InPlace (type : BlockType) (s : ResponsesEventToAnthropicState) (evt : ResponsesStreamEvent) :
    Prop :=
  ∀ blockIdx, s.outputIndexToBlockIdx evt.outputIndex = some blockIdx →
    s.contentBlockOpen = true ∧ s.currentBlockType = some type ∧ blockIdx = s.contentBlockIndex

/-- The arguments of `Read` are held back: they are not JSON yet, or are out already. -/
def Withheld (s : ResponsesEventToAnthropicState) (evt : ResponsesStreamEvent) : Prop :=
  (s.currentBlockType = some .toolUse ∧ s.currentToolName = "Read") ∧
    (s.currentToolHadDelta = true ∨ Json.valid (s.currentToolArgs ++ evt.delta) = false)

/-- A delta for the block of the event's item is followed exactly when it is in place. -/
theorem observe_itemDelta (now : InPhase s k) {delta : AnthropicDelta}
    (takes : type.takes delta.type = true)
    (only : ∀ other : BlockType, other ≠ .serverToolUse → other.takes delta.type = true →
      other = type)
    {blockIdx : ℤ} (found : s.outputIndexToBlockIdx evt.outputIndex = some blockIdx) :
    (InPlace type s evt ∧ observe Phase.follow k [blockDelta blockIdx delta] = some k) ∨
      (¬InPlace type s evt ∧ observe Phase.follow k [blockDelta blockIdx delta] = none) := by
  rw [observe_cons]
  by_cases placed : InPlace type s evt
  · obtain ⟨isOpen, typed, rfl⟩ := placed blockIdx found
    have opened := now.opened isOpen typed
    rw [opened.phase, follow_blockDelta takes]
    exact Or.inl ⟨placed, rfl⟩
  · refine Or.inr ⟨placed, ?_⟩
    cases followed : k.follow (blockDelta blockIdx delta) with
    | none => rfl
    | some k' =>
      obtain ⟨other, opened, same, taken⟩ := opened_of_follow_blockDelta now followed
      cases only other opened.streamed taken
      refine absurd (fun index isIndex => ?_) placed
      rw [found] at isIndex
      cases isIndex
      exact ⟨opened.opened, opened.typed, same⟩

theorem inPlace_of_none (none : s.outputIndexToBlockIdx evt.outputIndex = none) :
    InPlace type s evt := by
  intro index isIndex
  rw [none] at isIndex
  cases isIndex

/-- The condition on a delta of arguments, and on one of reasoning. -/
def FineArguments (s : ResponsesEventToAnthropicState) (evt : ResponsesStreamEvent) : Prop :=
  evt.delta = "" ∨ Withheld s evt ∨ InPlace .toolUse s evt

def FineReasoning (s : ResponsesEventToAnthropicState) (evt : ResponsesStreamEvent) : Prop :=
  evt.delta = "" ∨ InPlace .thinking s evt

/-- A delta that is neither empty nor withheld. -/
theorem argumentsDelta_tracks (now : InPhase s k) (fresh : evt.delta ≠ "")
    (freely : ¬Withheld s evt) (same : SamePhase s s') {partialJSON : String} :
    (FineArguments s evt ∧ Follows Phase.follow (InPhase s')
        (argumentsDelta (s.outputIndexToBlockIdx evt.outputIndex) partialJSON) k) ∨
      (¬FineArguments s evt ∧ observe Phase.follow k
        (argumentsDelta (s.outputIndexToBlockIdx evt.outputIndex) partialJSON) = none) := by
  unfold argumentsDelta
  cases found : s.outputIndexToBlockIdx evt.outputIndex with
  | none => exact Or.inl ⟨Or.inr (Or.inr (inPlace_of_none found)), .nil (now.transfer same)⟩
  | some blockIdx =>
    have only (other : BlockType) (streamed : other ≠ .serverToolUse)
        (taken : other.takes .inputJSON = true) : other = .toolUse := by
      cases other <;> simp_all [BlockType.takes]
    rcases @observe_itemDelta s k .toolUse evt now
        { type := .inputJSON, partialJSON := partialJSON } rfl only blockIdx found with
      ⟨placed, observed⟩ | ⟨misplaced, observed⟩
    · exact Or.inl ⟨Or.inr (Or.inr placed), k, observed, now.transfer same⟩
    · refine Or.inr ⟨?_, observed⟩
      rintro (empty | withheld | placed)
      · exact fresh empty
      · exact freely withheld
      · exact misplaced placed

theorem handleFuncArgsDelta_tracks (now : InPhase s k) :
    (FineArguments s evt ∧ Follows Phase.follow (InPhase (handleFuncArgsDelta evt s).1)
        (handleFuncArgsDelta evt s).2 k) ∨
      (¬FineArguments s evt ∧ observe Phase.follow k (handleFuncArgsDelta evt s).2 = none) := by
  unfold handleFuncArgsDelta
  by_cases empty : evt.delta = ""
  · rw [if_pos empty]
    exact Or.inl ⟨Or.inl empty, .nil now⟩
  · rw [if_neg empty]
    by_cases buffered : s.currentBlockType = some .toolUse ∧ s.currentToolName = "Read"
    · rw [if_pos buffered]
      dsimp only
      split
      · rename_i held
        refine Or.inl ⟨Or.inr ?_, .nil (now.transfer ⟨rfl, rfl, rfl, rfl, rfl⟩)⟩
        rcases held with out | invalid | none
        · exact Or.inl ⟨buffered, Or.inl out⟩
        · exact Or.inl ⟨buffered, Or.inr (by simpa using invalid)⟩
        · exact Or.inr (inPlace_of_none (Option.isNone_iff_eq_none.mp none))
      · rename_i freely
        push Not at freely
        refine argumentsDelta_tracks now empty ?_ ?_
        · rintro ⟨_, out | invalid⟩
          · exact freely.1 out
          · exact freely.2.1 (by rw [invalid]; rfl)
        · exact ⟨rfl, rfl, rfl, rfl, rfl⟩
    · rw [if_neg buffered]
      refine argumentsDelta_tracks now empty ?_ ?_
      · intro withheld
        exact buffered withheld.1
      · exact ⟨rfl, rfl, rfl, rfl, rfl⟩

theorem handleReasoningDelta_tracks (now : InPhase s k) :
    (FineReasoning s evt ∧ Follows Phase.follow (InPhase (handleReasoningDelta evt s).1)
        (handleReasoningDelta evt s).2 k) ∨
      (¬FineReasoning s evt ∧ observe Phase.follow k (handleReasoningDelta evt s).2 = none) := by
  unfold handleReasoningDelta
  by_cases empty : evt.delta = ""
  · rw [if_pos empty]
    exact Or.inl ⟨Or.inl empty, .nil now⟩
  · rw [if_neg empty]
    cases found : s.outputIndexToBlockIdx evt.outputIndex with
    | none => exact Or.inl ⟨Or.inr (inPlace_of_none found), .nil now⟩
    | some blockIdx =>
      have only (other : BlockType) (_ : other ≠ .serverToolUse)
          (taken : other.takes .thinking = true) : other = .thinking := by
        cases other <;> simp_all [BlockType.takes]
      rcases @observe_itemDelta s k .thinking evt now
          { type := .thinking, thinking := evt.delta } rfl only blockIdx found with
        ⟨placed, observed⟩ | ⟨misplaced, observed⟩
      · exact Or.inl ⟨Or.inr placed, k, observed, now⟩
      · refine Or.inr ⟨?_, observed⟩
        rintro (isEmpty | placed)
        · exact empty isEmpty
        · exact misplaced placed

/-! ### One event -/

/-- No delta goes to a block that is not open, or not of its kind. -/
def Fine (s : ResponsesEventToAnthropicState) (evt : ResponsesStreamEvent) : Prop :=
  match evt.type with
  | .functionCallArgumentsDelta | .customToolCallInputDelta => FineArguments s evt
  | .reasoningSummaryTextDelta | .reasoningTextDelta => FineReasoning s evt
  | _ => True

def Running (_ : ResponsesEventToAnthropicState) (evt : ResponsesStreamEvent) : Prop :=
  evt.type.terminal = false

/-- What an event does before the end of the response. -/
theorem event_tracks (now : InPhase s k) (running : Running s evt) :
    (Fine s evt ∧ Follows Phase.follow (InPhase (responsesEventToAnthropicEvents s evt).1)
        (responsesEventToAnthropicEvents s evt).2 k) ∨
      (¬Fine s evt ∧
        observe Phase.follow k (responsesEventToAnthropicEvents s evt).2 = none) := by
  unfold Running at running
  unfold Fine responsesEventToAnthropicEvents
  cases type : evt.type with
  | created => exact Or.inl ⟨trivial, handleCreated_follows now⟩
  | outputItemAdded => exact Or.inl ⟨trivial, handleOutputItemAdded_follows now⟩
  | outputTextDelta => exact Or.inl ⟨trivial, emitText_follows now⟩
  | outputTextDone => exact Or.inl ⟨trivial, handleTextDone_follows now⟩
  | functionCallArgumentsDelta => exact handleFuncArgsDelta_tracks now
  | customToolCallInputDelta => exact handleFuncArgsDelta_tracks now
  | functionCallArgumentsDone => exact Or.inl ⟨trivial, handleFuncArgsDone_follows now⟩
  | outputItemDone => exact Or.inl ⟨trivial, handleOutputItemDone_follows now⟩
  | reasoningSummaryTextDelta => exact handleReasoningDelta_tracks now
  | reasoningTextDelta => exact handleReasoningDelta_tracks now
  | completed | done | incomplete | failed =>
    rw [type] at running
    cases running
  | _ => exact Or.inl ⟨trivial, .nil now⟩

theorem handlers_track :
    Tracks responsesEventToAnthropicEvents Phase.follow InPhase Running Fine where
  follows s k evt now running fine := by
    rcases event_tracks now running with ⟨_, follows⟩ | ⟨misplaced, _⟩
    · exact follows
    · exact absurd fine misplaced
  breaks s k evt now running misplaced := by
    rcases event_tracks now running with ⟨fine, _⟩ | ⟨_, rejected⟩
    · exact absurd fine misplaced
    · exact rejected

/-! ### The end of a stream -/

theorem emitTexts_follows {texts : List (ResponsesTextPart × String)} (now : InPhase s k) :
    Follows Phase.follow (InPhase (emitTexts texts s).1) (emitTexts texts s).2 k := by
  induction texts generalizing s k with
  | nil => exact .nil now
  | cons text rest ih => exact (emitText_follows now).append fun k' emitted => ih emitted

theorem recoverTerminalText_follows (closed : Closed s k) :
    Follows Phase.follow (Closed (recoverTerminalText evt s).1) (recoverTerminalText evt s).2
      k := by
  unfold recoverTerminalText
  split
  · exact .nil closed
  · rename_i response _
    split
    · exact .nil closed
    · have emitted := @emitTexts_follows s k (terminalTexts response) (Or.inl closed)
      dsimp only
      split
      · rename_i silent
        obtain ⟨k', observed, after⟩ := emitted
        rw [silent] at observed ⊢
        cases observed
        exact .nil (after.closed closed.phase)
      · exact emitted.append fun k' now => closeCurrentBlock_follows now

theorem handleCompleted_follows (now : InPhase s k) :
    Follows Phase.follow (fun k' => k' = .ended) (handleCompleted evt s).2 k ∧
      (handleCompleted evt s).1.messageStopSent = true := by
  unfold handleCompleted
  rw [if_neg (by simp [now.running])]
  refine ⟨?_, rfl⟩
  refine ((closeCurrentBlock_follows now).append fun k' closed =>
    recoverTerminalText_follows closed).append fun k' recovered => ?_
  rw [recovered.phase]
  exact ⟨.ended, observe_messageEnd, rfl⟩

theorem finalize_follows (now : InPhase s k) :
    Follows Phase.follow (fun k' => k' = .ended) (finalizeResponsesAnthropicStream s).2 k := by
  unfold finalizeResponsesAnthropicStream
  rw [if_neg (by simp [now.started, now.running])]
  refine (closeCurrentBlock_follows now).append fun k' closed => ?_
  rw [closed.phase]
  exact ⟨.ended, observe_messageEnd, rfl⟩

/-- A stream that has ended is not ended again. -/
theorem finalize_stopped (stopped : s.messageStopSent = true) :
    (finalizeResponsesAnthropicStream s).2 = [] := by
  unfold finalizeResponsesAnthropicStream
  rw [if_pos (Or.inr stopped)]

/-! ### Whole streams -/

/-- How the events of a response come to their end. -/
inductive Ending where
  | terminal (evt : ResponsesStreamEvent)
  | finalize
  | both (evt : ResponsesStreamEvent)

/-- What an ending still emits. -/
def Ending.outputs (ending : Ending) (s : ResponsesEventToAnthropicState) :
    List AnthropicStreamEvent :=
  match ending with
  | .terminal evt => (responsesEventToAnthropicEvents s evt).2
  | .finalize => (finalizeResponsesAnthropicStream s).2
  | .both evt =>
    let ended := responsesEventToAnthropicEvents s evt
    ended.2 ++ (finalizeResponsesAnthropicStream ended.1).2

/-- The event of an ending, when it has one, is a terminal event. -/
def Ending.Proper : Ending → Prop
  | .terminal evt | .both evt => evt.type.terminal = true
  | .finalize => True

/-- The Anthropic stream of some events and an ending, for a model that may be set already. -/
def convertedStream (model : String) (events : List ResponsesStreamEvent) (ending : Ending) :
    List AnthropicStreamEvent :=
  let converted := run responsesEventToAnthropicEvents { model := model } events
  converted.2 ++ ending.outputs converted.1

theorem terminal_eq_handleCompleted (terminal : evt.type.terminal = true) :
    responsesEventToAnthropicEvents s evt = handleCompleted evt s := by
  unfold responsesEventToAnthropicEvents
  cases type : evt.type <;> first | rfl | (rw [type] at terminal; cases terminal)

theorem Ending.outputs_follows {ending : Ending} (proper : ending.Proper) (now : InPhase s k) :
    Follows Phase.follow (fun k' => k' = .ended) (ending.outputs s) k := by
  cases ending with
  | terminal evt =>
    simp only [Ending.outputs, terminal_eq_handleCompleted proper]
    exact (handleCompleted_follows now).1
  | finalize => exact finalize_follows now
  | both evt =>
    simp only [Ending.outputs, terminal_eq_handleCompleted proper]
    obtain ⟨follows, stopped⟩ := @handleCompleted_follows s k evt now
    rw [finalize_stopped stopped, List.append_nil]
    exact follows

/-- The first event of a response starts the message. -/
theorem created_follows {model : String} {created : ResponsesStreamEvent}
    (first : created.type = .created) :
    Follows Phase.follow
      (InPhase (responsesEventToAnthropicEvents { model := model } created).1)
      (responsesEventToAnthropicEvents { model := model } created).2 .notStarted := by
  unfold responsesEventToAnthropicEvents handleCreated
  rw [first]
  cases created.response with
  | none => exact .one rfl (Or.inl ⟨rfl, rfl, rfl, rfl⟩)
  | some response => exact .one rfl (Or.inl ⟨rfl, rfl, rfl, rfl⟩)

theorem throughout_running {s : ResponsesEventToAnthropicState}
    {events : List ResponsesStreamEvent} (running : ∀ evt ∈ events, evt.type.terminal = false) :
    Throughout responsesEventToAnthropicEvents Running s events :=
  throughout_iff.mpr fun before evt after split => running evt (by simp [split])

/-- A stream that begins with `response.created` and ends with a terminal event, with the
finalizer or with both is converted to a well-formed Anthropic stream exactly when every delta of
arguments or reasoning that is sent on finds the block of its item open and of its kind. -/
theorem converted_stream_wellFormed_iff (model : String) (created : ResponsesStreamEvent)
    (events : List ResponsesStreamEvent) (ending : Ending) (first : created.type = .created)
    (running : ∀ evt ∈ events, evt.type.terminal = false) (proper : ending.Proper) :
    WellFormedStream (convertedStream model (created :: events) ending) ↔
      ∀ before evt after, events = before ++ evt :: after →
        Fine (run responsesEventToAnthropicEvents { model := model } (created :: before)).1 evt := by
  obtain ⟨k, observed, now⟩ := @created_follows model created first
  have after := handlers_track.run now (throughout_running running)
  have points : Throughout responsesEventToAnthropicEvents Fine
      (responsesEventToAnthropicEvents { model := model } created).1 events ↔ _ := throughout_iff
  unfold WellFormedStream convertedStream
  simp only [run_cons, observe_append, observed, Option.bind_some] at *
  rw [← points]
  rcases after with ⟨fine, k', observed', now'⟩ | ⟨misplaced, rejected⟩
  · obtain ⟨k'', ended, same⟩ := ending.outputs_follows proper now'
    rw [observed', Option.bind_some, ended, same]
    exact iff_of_true rfl fine
  · rw [rejected]
    refine iff_of_false ?_ misplaced
    intro contra
    cases contra

namespace Sample

def created : ResponsesStreamEvent :=
  { type := .created, response := some { id := "resp_1", model := "m" } }

def completed : ResponsesStreamEvent :=
  { type := .completed, response := some { id := "resp_1", status := .completed } }

/-- A call of a tool, as output item `outputIndex`. -/
def callAdded (outputIndex : ℤ) (name : String) : ResponsesStreamEvent :=
  { type := .outputItemAdded, outputIndex := outputIndex
    item := some { type := .functionCall, callID := "call_" ++ name, name := name } }

def callDelta (outputIndex : ℤ) : ResponsesStreamEvent :=
  { type := .functionCallArgumentsDelta, outputIndex := outputIndex, delta := "[]" }

def callDone (outputIndex : ℤ) (name : String) : List ResponsesStreamEvent :=
  [{ type := .functionCallArgumentsDone, outputIndex := outputIndex, arguments := "[]" },
   { type := .outputItemDone, outputIndex := outputIndex
     item := some { type := .functionCall, callID := "call_" ++ name, name := name
                    arguments := "[]", status := .completed } }]

/-- Two calls, one after the other. -/
def sequentialCalls : List ResponsesStreamEvent :=
  [callAdded 0 "a", callDelta 0] ++ callDone 0 "a" ++ [callAdded 1 "b", callDelta 1] ++
    callDone 1 "b"

/-- Two calls whose arguments come after both were added. -/
def parallelCalls : List ResponsesStreamEvent :=
  [callAdded 0 "a", callAdded 1 "b", callDelta 0, callDelta 1] ++ callDone 0 "a" ++ callDone 1 "b"

end Sample

theorem converted_stream_wellFormed_sample :
    WellFormedStream
        (convertedStream "" (Sample.created :: Sample.sequentialCalls) (.both Sample.completed)) ↔
      ∀ before evt after, Sample.sequentialCalls = before ++ evt :: after →
        Fine (run responsesEventToAnthropicEvents { model := "" } (Sample.created :: before)).1
          evt :=
  converted_stream_wellFormed_iff "" Sample.created Sample.sequentialCalls
    (.both Sample.completed) rfl (by decide) rfl

/-- The first call's arguments go to its block after the second call has closed it. -/
theorem parallel_calls_not_wellFormed :
    Sample.created.type = .created ∧
      (∀ evt ∈ Sample.parallelCalls, evt.type.terminal = false) ∧
      (Ending.both Sample.completed).Proper ∧
      ¬WellFormedStream
        (convertedStream "" (Sample.created :: Sample.parallelCalls) (.both Sample.completed)) := by
  refine ⟨rfl, by decide, rfl, ?_⟩
  decide +kernel

end Sub2api.ApiCompat
