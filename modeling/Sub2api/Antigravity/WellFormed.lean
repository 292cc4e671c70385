import Sub2api.Antigravity.Stream

/-!
# Well-formed streams

One message start, then blocks one after the other with indices from zero on, each with deltas of
its kind, then one message delta and one message stop. The emitters keep that order, but nothing
holds back what comes after the end: `EndsOnce` says when nothing comes.
-/

namespace Sub2api.Antigravity

open Transducer

/-- How far a reader of the stream has come. -/
inductive Phase where
  | notStarted
  | between (next : ℤ)
  | inBlock (index : ℤ) (type : ContentType)
  | ending
  | ended
  deriving DecidableEq

/-- The deltas of a block. -/
def ContentType.takes : ContentType → Delta → Bool
  | .text, .text _ => true
  | .thinking, .thinking _ | .thinking, .signature _ => true
  | .toolUse, .inputJSON _ => true
  | _, _ => false

/-- The next event of a well-formed stream. -/
def Phase.follow (phase : Phase) (event : ClaudeEvent) : Option Phase :=
  match phase, event with
  | .notStarted, .messageStart _ _ _ => some (.between 0)
  | .between next, .contentBlockStart index block =>
    if index = next then some (.inBlock next block.type) else none
  | .between _, .messageDelta _ _ => some .ending
  | .inBlock index type, .contentBlockDelta at_ delta =>
    if at_ = index ∧ type.takes delta then some (.inBlock index type) else none
  | .inBlock index _, .contentBlockStop at_ =>
    if at_ = index then some (.between (index + 1)) else none
  | .ending, .messageStop => some .ended
  | _, _ => none

/-- The stream is well-formed from its first event to its last. -/
def WellFormed (events : List ClaudeEvent) : Prop :=
  observe Phase.follow .notStarted events = some .ended

instance (events : List ClaudeEvent) : Decidable (WellFormed events) :=
  inferInstanceAs (Decidable (_ = _))

/-- A part that says nothing. -/
def GeminiPart.Silent (part : GeminiPart) : Prop :=
  part.functionCall = none ∧ part.text = "" ∧ part.thought = false ∧ part.image = none

/-- A chunk that says nothing and does not finish. -/
def V1InternalResponse.Silent (resp : V1InternalResponse) : Prop :=
  (∀ part ∈ resp.response.parts, part.Silent) ∧ resp.response.finishReason = ""

/-- After a chunk with a finish reason the other ones are silent. -/
def EndsOnce : List V1InternalResponse → Prop
  | [] => True
  | resp :: rest =>
    if resp.response.finishReason = "" then EndsOnce rest else ∀ later ∈ rest, later.Silent

/-! ### Blocks -/

def BlockType.content : BlockType → Option ContentType
  | .none => Option.none
  | .text => some .text
  | .thinking => some .thinking
  | .function => some .toolUse

namespace StreamingProcessor

def phase (p : StreamingProcessor) : Phase :=
  match p.blockType.content with
  | none => .between p.blockIndex
  | some type => .inBlock p.blockIndex type

/-- The stream runs. -/
structure Running (p : StreamingProcessor) (k : Phase) : Prop where
  started : p.messageStartSent = true
  running : p.messageStopSent = false
  phase : k = p.phase

/-- The stream runs in a block of this type, or between blocks. -/
def In (type : BlockType) (p : StreamingProcessor) (k : Phase) : Prop :=
  p.Running k ∧ p.blockType = type

variable {p : StreamingProcessor} {k : Phase} {ids : Ids}

theorem In.inBlock {type : BlockType} {content : ContentType} (now : In type p k)
    (typed : type.content = some content) : k = .inBlock p.blockIndex content := by
  obtain ⟨running, same⟩ := now
  rw [running.phase, StreamingProcessor.phase, same, typed]

/-- A delta of the open block's kind. -/
theorem In.delta {type : BlockType} {content : ContentType} (now : In type p k)
    (typed : type.content = some content) {delta : Delta} (takes : content.takes delta = true) :
    Keeps Phase.follow (In type) (p.emitDelta delta) k := by
  have accepted : k.follow (.contentBlockDelta p.blockIndex delta) = some k := by
    rw [now.inBlock typed]
    simp [Phase.follow, takes]
  exact .one accepted now

theorem endBlock_keeps (now : p.Running k) : Keeps Phase.follow (In .none) p.endBlock k := by
  unfold endBlock
  split
  · rename_i closed
    exact .silent ⟨now, closed⟩
  · rename_i isOpen
    obtain ⟨content, typed⟩ : ∃ content, p.blockType.content = some content := by
      cases type : p.blockType with
      | none => exact absurd type isOpen
      | text => exact ⟨_, rfl⟩
      | thinking => exact ⟨_, rfl⟩
      | function => exact ⟨_, rfl⟩
    have inside : k = .inBlock p.blockIndex content := In.inBlock ⟨now, rfl⟩ typed
    have signed : Follows Phase.follow (fun k' => k' = k)
        (if p.blockType = .thinking ∧ p.pendingSignature ≠ "" then
          [.contentBlockDelta p.blockIndex (.signature p.pendingSignature)] else []) k := by
      split
      · rename_i pending
        rw [pending.1] at typed
        cases typed
        have accepted : k.follow (.contentBlockDelta p.blockIndex (.signature p.pendingSignature)) =
            some k := by
          rw [inside]
          simp [Phase.follow, ContentType.takes]
        exact .one accepted rfl
      · exact .nil rfl
    apply Follows.append signed
    intro k' same
    have accepted : k'.follow (.contentBlockStop p.blockIndex) =
        some (.between (p.blockIndex + 1)) := by
      rw [same, inside]
      simp [Phase.follow]
    exact .one accepted ⟨⟨now.started, now.running, rfl⟩, rfl⟩

theorem startBlock_keeps (now : p.Running k) {type : BlockType} {block : ClaudeContentItem}
    (typed : type.content = some block.type) :
    Keeps Phase.follow (In type) (p.startBlock type block) k := by
  apply (endBlock_keeps now).andThen
  intro k' closed
  have between : k' = .between p.endBlock.1.blockIndex := by
    rw [closed.1.phase, StreamingProcessor.phase, closed.2]
    rfl
  have accepted : k'.follow (.contentBlockStart p.endBlock.1.blockIndex block) =
      some (.inBlock p.endBlock.1.blockIndex block.type) := by
    rw [between]
    simp [Phase.follow]
  apply Follows.one accepted
  refine ⟨⟨closed.1.started, closed.1.running, ?_⟩, rfl⟩
  simp [StreamingProcessor.phase, typed]

theorem continueBlock_keeps (now : p.Running k) {type : BlockType} {block : ClaudeContentItem}
    (typed : type.content = some block.type) :
    Keeps Phase.follow (In type) (p.continueBlock type block) k := by
  unfold continueBlock
  split
  · exact startBlock_keeps now typed
  · rename_i same
    exact .silent ⟨now, not_not.mp same⟩

theorem emitEmptyThinkingWithSignature_keeps (now : p.Running k) (signature : String) :
    Keeps Phase.follow (In .none) (p.emitEmptyThinkingWithSignature signature) k := by
  apply (startBlock_keeps now rfl).andThen
  intro k₁ opened
  apply (opened.delta rfl rfl).andThen
  intro k₂ opened
  apply (opened.delta rfl rfl).andThen
  intro k₃ opened
  exact endBlock_keeps opened.1

/-- What of a state does not matter to the phase. -/
theorem Running.same {p' : StreamingProcessor} (now : p.Running k)
    (started : p'.messageStartSent = p.messageStartSent)
    (stopped : p'.messageStopSent = p.messageStopSent) (type : p'.blockType = p.blockType)
    (index : p'.blockIndex = p.blockIndex) : p'.Running k where
  started := started.trans now.started
  running := stopped.trans now.running
  phase := by
    rw [now.phase, StreamingProcessor.phase, StreamingProcessor.phase, type, index]

theorem emitTrailing_keeps (now : p.Running k) : Keeps Phase.follow Running p.emitTrailing k := by
  unfold emitTrailing
  split
  · apply (endBlock_keeps now).andThen
    intro k₁ closed
    apply (emitEmptyThinkingWithSignature_keeps closed.1 _).andThen
    intro k₂ closed
    exact .silent (closed.1.same rfl rfl rfl rfl)
  · exact .silent now

/-! ### Parts -/

theorem processThinking_keeps (now : p.Running k) (text signature : String) :
    Keeps Phase.follow Running (p.processThinking text signature) k := by
  apply (emitTrailing_keeps now).andThen
  intro k₁ running
  apply (continueBlock_keeps running rfl).andThen
  intro k₂ opened
  generalize (p.emitTrailing.1.continueBlock .thinking { type := .thinking }).1 = p' at opened ⊢
  have thought : Keeps Phase.follow Running (if text ≠ "" then
      ({ p' with hasContent := true } : StreamingProcessor).emitDelta (.thinking text)
      else (p', [])) k₂ := by
    split
    · have talking : In .thinking { p' with hasContent := true } k₂ :=
        ⟨opened.1.same rfl rfl rfl rfl, opened.2⟩
      exact (talking.delta rfl rfl).mono fun _ inside => inside.1
    · exact .silent opened.1
  apply thought.andThen
  intro k₃ running
  apply Keeps.silent
  split
  · exact running.same rfl rfl rfl rfl
  · exact running

theorem processText_keeps (now : p.Running k) (text signature : String) :
    Keeps Phase.follow Running (p.processText text signature) k := by
  unfold processText
  split
  · apply Keeps.silent
    split
    · exact now.same rfl rfl rfl rfl
    · exact now
  · apply (emitTrailing_keeps now).andThen
    intro k₁ running
    split
    · apply (startBlock_keeps running rfl).andThen
      intro k₂ opened
      apply (opened.delta rfl rfl).andThen
      intro k₃ opened
      apply (endBlock_keeps opened.1).andThen
      intro k₄ closed
      exact (emitEmptyThinkingWithSignature_keeps closed.1 signature).mono fun _ closed => closed.1
    · apply (continueBlock_keeps running rfl).andThen
      intro k₂ opened
      have talking : In .text { (p.emitTrailing.1.continueBlock .text
          { type := .text }).1 with hasContent := true } k₂ :=
        ⟨opened.1.same rfl rfl rfl rfl, opened.2⟩
      exact (talking.delta rfl rfl).mono fun _ inside => inside.1

theorem emitArgs_keeps (now : In .function p k) (args : Option String) :
    Keeps Phase.follow (In .function) (p.emitArgs args) k := by
  unfold emitArgs
  split
  · exact now.delta rfl rfl
  · exact .silent now

theorem processFunctionCall_keeps (now : p.Running k) (fc : GeminiFunctionCall)
    (signature : String) :
    Keeps Phase.follow Running (p.processFunctionCall ids fc signature) k := by
  have called : Running { p with
      usedTool := true, hasContent := true, generated := fc.generated p.generated } k :=
    now.same rfl rfl rfl rfl
  apply (startBlock_keeps called rfl).andThen
  intro k₁ opened
  apply (emitArgs_keeps opened fc.args).andThen
  intro k₂ opened
  exact (endBlock_keeps opened.1).mono fun _ closed => closed.1

theorem processPart_keeps (now : p.Running k) (part : GeminiPart) :
    Keeps Phase.follow Running (p.processPart ids part) k := by
  unfold processPart
  split
  · apply (emitTrailing_keeps now).andThen
    intro k₁ running
    exact processFunctionCall_keeps running _ _
  · have spoken : Keeps Phase.follow Running
        (if part.text ≠ "" ∨ part.thought then
          if part.thought then p.processThinking part.text part.thoughtSignature
          else p.processText part.text part.thoughtSignature
        else (p, [])) k := by
      split
      · split
        · exact processThinking_keeps now _ _
        · exact processText_keeps now _ _
      · exact .silent now
    apply spoken.andThen
    intro k₁ running
    split
    · exact processText_keeps running _ _
    · exact .silent running

theorem processParts_keeps (parts : List GeminiPart) (now : p.Running k) :
    Keeps Phase.follow Running (processParts ids parts p) k := by
  induction parts generalizing p k with
  | nil => exact .silent now
  | cons part rest ih =>
    apply (processPart_keeps now part).andThen
    intro k₁ running
    exact ih running

/-! ### The end -/

/-- The stream has ended. -/
structure Done (p : StreamingProcessor) (k : Phase) : Prop where
  started : p.messageStartSent = true
  stopped : p.messageStopSent = true
  closed : p.blockType = .none
  phase : k = .ended

theorem emitGrounding_keeps (now : In .none p k) :
    Keeps Phase.follow (In .none) p.emitGrounding k := by
  unfold emitGrounding
  split
  · dsimp only
    split
    · apply (startBlock_keeps now.1 rfl).andThen
      intro k₁ opened
      apply (opened.delta rfl rfl).andThen
      intro k₂ opened
      exact endBlock_keeps opened.1
    · exact .silent now
  · exact .silent now

/-- Between blocks the signature of an empty text leaves no block open. -/
theorem emitTrailing_closed (now : In .none p k) :
    Keeps Phase.follow (In .none) p.emitTrailing k := by
  unfold emitTrailing
  split
  · apply (endBlock_keeps now.1).andThen
    intro k₁ closed
    apply (emitEmptyThinkingWithSignature_keeps closed.1 _).andThen
    intro k₂ closed
    exact .silent ⟨closed.1.same rfl rfl rfl rfl, closed.2⟩
  · exact .silent now

theorem emitFinish_keeps (now : p.Running k) (finishReason : String) :
    Keeps Phase.follow Done (p.emitFinish finishReason) k := by
  apply (endBlock_keeps now).andThen
  intro k₁ closed
  apply (emitTrailing_closed closed).andThen
  intro k₂ closed
  apply (emitGrounding_keeps closed).andThen
  intro k₃ closed
  generalize (p.endBlock.1.emitTrailing.1.emitGrounding).1 = p' at closed ⊢
  have between : k₃ = .between p'.blockIndex := by
    rw [closed.1.phase, StreamingProcessor.phase, closed.2]
    rfl
  rw [closed.1.running, between]
  exact ⟨.ended, rfl, closed.1.started, rfl, closed.2, rfl⟩

/-! ### Chunks -/

/-- Nothing has been sent. -/
structure Fresh (p : StreamingProcessor) (k : Phase) : Prop where
  unstarted : p.messageStartSent = false
  running : p.messageStopSent = false
  closed : p.blockType = .none
  first : p.blockIndex = 0
  phase : k = .notStarted

theorem emitMessageStart_keeps (now : p.Fresh k ∨ p.Running k) (resp : V1InternalResponse) :
    Keeps Phase.follow Running (p.emitMessageStart ids resp) k := by
  unfold emitMessageStart
  rcases now with fresh | running
  · rw [fresh.unstarted, fresh.phase]
    refine .one rfl ⟨rfl, fresh.running, ?_⟩
    rw [StreamingProcessor.phase, fresh.closed, fresh.first]
    rfl
  · rw [running.started]
    exact .silent running

/-- A chunk of a stream that has not ended. -/
theorem processChunk_keeps (now : p.Fresh k ∨ p.Running k) (resp : V1InternalResponse) :
    Keeps Phase.follow (if resp.response.finishReason = "" then Running else Done)
      (p.processChunk ids resp) k := by
  apply (emitMessageStart_keeps now resp).andThen
  intro k₁ running
  refine (processParts_keeps resp.response.parts ?_).andThen ?_
  · split
    · exact running.same rfl rfl rfl rfl
    · exact running
  intro k₂ running
  generalize (processParts ids resp.response.parts _).1 = p' at running ⊢
  have captured : Running (p'.captureGrounding resp.response.groundingMetadata) k₂ := by
    unfold captureGrounding
    split
    · exact running
    · exact running.same rfl rfl rfl rfl
  by_cases goesOn : resp.response.finishReason = ""
  · simp only [goesOn, ne_eq, not_true_eq_false, if_false, if_true]
    exact .silent captured
  · simp only [goesOn, ne_eq, not_false_eq_true, if_false, if_true]
    exact emitFinish_keeps captured _

/-! ### After the end -/

theorem processPart_silent {part : GeminiPart} (silent : part.Silent) :
    p.processPart ids part = (p, []) := by
  obtain ⟨call, text, thought, image⟩ := silent
  simp [processPart, call, text, thought, image, andThen]

theorem startBlock_speaks (type : BlockType) (block : ClaudeContentItem) :
    (p.startBlock type block).2 ≠ [] := by
  simp [startBlock, andThen]

theorem andThen_speaks {first : Emitted} {next : StreamingProcessor → Emitted}
    (speaks : first.2 ≠ [] ∨ (next first.1).2 ≠ []) : (andThen first next).2 ≠ [] := by
  unfold andThen
  simp only [ne_eq, List.append_eq_nil_iff, not_and_or]
  exact speaks

theorem processText_speaks {text : String} (nonempty : text ≠ "") (signature : String) :
    (p.processText text signature).2 ≠ [] := by
  unfold processText
  rw [if_neg nonempty]
  apply andThen_speaks
  right
  split
  · exact andThen_speaks (Or.inl (startBlock_speaks _ _))
  · apply andThen_speaks
    right
    simp [emitDelta]

/-- A part that is not silent is seen, where no thought goes on. -/
theorem processPart_speaks {part : GeminiPart} (speaks : ¬part.Silent)
    (closed : p.blockType = .none) : (p.processPart ids part).2 ≠ [] := by
  unfold processPart
  split
  · rename_i fc call
    apply andThen_speaks
    right
    exact andThen_speaks (Or.inl (startBlock_speaks _ _))
  · rename_i call
    apply andThen_speaks
    by_cases said : part.text ≠ "" ∨ part.thought
    · left
      rw [if_pos said]
      split
      · apply andThen_speaks
        by_cases trailing : p.trailingSignature ≠ ""
        · left
          unfold emitTrailing
          rw [if_pos trailing]
          apply andThen_speaks
          right
          apply andThen_speaks
          left
          exact andThen_speaks (Or.inl (startBlock_speaks _ _))
        · right
          apply andThen_speaks
          left
          unfold emitTrailing continueBlock
          rw [if_neg trailing, if_pos (by rw [closed]; decide)]
          exact startBlock_speaks _ _
      · rename_i spoken
        exact processText_speaks (said.resolve_right spoken) _
    · right
      rw [if_neg said]
      push Not at said
      split
      · rename_i image shown
        exact processText_speaks (part.image_nonempty shown) _
      · rename_i hidden
        have quiet : part.thought = false := by simpa using said.2
        exact absurd ⟨call, said.1, quiet, hidden⟩ speaks

theorem processParts_silent {parts : List GeminiPart} (silent : ∀ part ∈ parts, part.Silent) :
    processParts ids parts p = (p, []) := by
  induction parts with
  | nil => rfl
  | cons part rest ih =>
    rw [processParts, processPart_silent (silent part (List.mem_cons_self ..)), andThen_silent]
    exact ih fun later listed => silent later (List.mem_cons_of_mem _ listed)

theorem processParts_speaks {parts : List GeminiPart} (speaks : ¬∀ part ∈ parts, part.Silent)
    (closed : p.blockType = .none) : (processParts ids parts p).2 ≠ [] := by
  induction parts with
  | nil => exact absurd (fun _ impossible => absurd impossible (List.not_mem_nil)) speaks
  | cons part rest ih =>
    rw [processParts]
    by_cases silent : part.Silent
    · rw [processPart_silent silent, andThen_silent]
      apply ih
      intro all
      apply speaks
      intro later listed
      rcases List.mem_cons.mp listed with rfl | listed
      · exact silent
      · exact all later listed
    · exact andThen_speaks (Or.inl (processPart_speaks silent closed))

theorem emitFinish_speaks (finishReason : String) : (p.emitFinish finishReason).2 ≠ [] := by
  apply andThen_speaks
  right
  apply andThen_speaks
  right
  apply andThen_speaks
  right
  exact List.cons_ne_nil _ _

theorem observe_ended {events : List ClaudeEvent} (speaks : events ≠ []) :
    observe Phase.follow .ended events = none := by
  cases events with
  | nil => exact absurd rfl speaks
  | cons event rest =>
    rw [observe_cons]
    cases event <;> rfl

theorem captureGrounding_done (now : p.Done k) (grounding : Option GeminiGroundingMetadata) :
    (p.captureGrounding grounding).Done k := by
  unfold captureGrounding
  split
  · exact now
  · exact ⟨now.started, now.stopped, now.closed, now.phase⟩

/-- The state in which the parts of a chunk are read, after the end. -/
theorem counted_done (now : p.Done k) (resp : V1InternalResponse) :
    p.emitMessageStart ids resp = (p, []) ∧
      Done (match resp.response.usageMetadata with
        | some usage => { p with usage := usage.claudeUsage }
        | none => p) k := by
  constructor
  · unfold emitMessageStart
    rw [now.started]
    rfl
  · split
    · exact ⟨now.started, now.stopped, now.closed, now.phase⟩
    · exact now

theorem processChunk_silent (now : p.Done k) {resp : V1InternalResponse} (silent : resp.Silent) :
    Keeps Phase.follow Done (p.processChunk ids resp) k := by
  obtain ⟨unstarted, counted⟩ := counted_done now resp
  unfold processChunk
  rw [unstarted, andThen_silent]
  dsimp only
  rw [processParts_silent silent.1, andThen_silent, silent.2]
  exact .silent (captureGrounding_done counted _)

theorem processChunk_breaks (now : p.Done k) {resp : V1InternalResponse}
    (speaks : ¬resp.Silent) : observe Phase.follow k (p.processChunk ids resp).2 = none := by
  rw [now.phase]
  apply observe_ended
  obtain ⟨unstarted, counted⟩ := counted_done now resp
  unfold processChunk
  rw [unstarted, andThen_silent]
  apply andThen_speaks
  by_cases said : ∀ part ∈ resp.response.parts, part.Silent
  · right
    dsimp only
    rw [if_pos fun same => speaks ⟨said, same⟩]
    exact emitFinish_speaks _
  · exact Or.inl (processParts_speaks said counted.closed)

/-! ### Runs -/

variable {chunks : List V1InternalResponse}

theorem run_silent (now : p.Done k) (silent : ∀ resp ∈ chunks, resp.Silent) :
    Keeps Phase.follow Done (run (processChunk ids) p chunks) k := by
  induction chunks generalizing p k with
  | nil => exact .silent now
  | cons resp rest ih =>
    apply (processChunk_silent now (silent resp (List.mem_cons_self ..))).run
    intro k' done
    exact ih done fun later listed => silent later (List.mem_cons_of_mem _ listed)

theorem run_speaks (now : p.Done k) (speaks : ¬∀ resp ∈ chunks, resp.Silent) :
    observe Phase.follow k (run (processChunk ids) p chunks).2 = none := by
  induction chunks generalizing p k with
  | nil => exact absurd (fun _ impossible => absurd impossible (List.not_mem_nil)) speaks
  | cons resp rest ih =>
    rw [run_cons, observe_append]
    by_cases silent : resp.Silent
    · obtain ⟨k', observed, done⟩ := @processChunk_silent p k ids now resp silent
      rw [observed, Option.bind_some]
      apply ih done
      intro all
      apply speaks
      intro later listed
      rcases List.mem_cons.mp listed with rfl | listed
      · exact silent
      · exact all later listed
    · rw [processChunk_breaks now silent, Option.bind_none]

/-- The chunks after the first. -/
theorem run_keeps (now : p.Running k) (once : EndsOnce chunks) :
    Keeps Phase.follow (fun p k => p.Running k ∨ p.Done k) (run (processChunk ids) p chunks) k := by
  induction chunks generalizing p k with
  | nil => exact .silent (Or.inl now)
  | cons resp rest ih =>
    have kept := @processChunk_keeps p k ids (Or.inr now) resp
    rw [EndsOnce] at once
    split at once
    · rename_i goesOn
      rw [if_pos goesOn] at kept
      apply kept.run
      intro k' running
      exact ih running once
    · rename_i ends
      rw [if_neg ends] at kept
      apply kept.run
      intro k' done
      exact (run_silent done once).mono fun _ done => Or.inr done

theorem run_breaks (now : p.Fresh k ∨ p.Running k) (more : ¬EndsOnce chunks) :
    observe Phase.follow k (run (processChunk ids) p chunks).2 = none := by
  induction chunks generalizing p k with
  | nil => exact absurd trivial more
  | cons resp rest ih =>
    obtain ⟨k', observed, kept⟩ := @processChunk_keeps p k ids now resp
    rw [run_cons, observe_append, observed, Option.bind_some]
    rw [EndsOnce] at more
    split at more
    · rename_i goesOn
      rw [if_pos goesOn] at kept
      exact ih (Or.inr kept) more
    · rename_i ends
      rw [if_neg ends] at kept
      exact run_speaks kept more

theorem finish_keeps (now : p.Running k ∨ p.Done k) : Keeps Phase.follow Done p.finish k := by
  unfold finish
  rcases now with running | done
  · rw [if_pos running.started, running.running]
    exact emitFinish_keeps running ""
  · rw [if_pos done.started, if_pos done.stopped]
    exact .silent done

end StreamingProcessor

/-- The stream is well-formed exactly when only silent chunks come after a finish reason. -/
theorem stream_wellFormed_iff (ids : Ids) (unmarshal : Unmarshal) (lines : List String)
    (model : String) (parsable : lines.filterMap (StreamingProcessor.parseLine unmarshal) ≠ []) :
    WellFormed (StreamingProcessor.convert ids unmarshal lines model).2 ↔
      EndsOnce (lines.filterMap (StreamingProcessor.parseLine unmarshal)) := by
  unfold WellFormed StreamingProcessor.convert andThen
  rw [StreamingProcessor.run_lines, observe_append]
  have fresh : StreamingProcessor.Fresh { originalModel := model } .notStarted :=
    ⟨rfl, rfl, rfl, rfl, rfl⟩
  constructor
  · intro wellFormed
    by_contra more
    rw [StreamingProcessor.run_breaks (Or.inl fresh) more] at wellFormed
    cases wellFormed
  · intro once
    cases chunks : lines.filterMap (StreamingProcessor.parseLine unmarshal) with
    | nil => exact absurd chunks parsable
    | cons resp rest =>
      rw [chunks, EndsOnce] at once
      have kept := @StreamingProcessor.processChunk_keeps _ _ ids (Or.inl fresh) resp
      have followed : Keeps Phase.follow (fun p k => p.Running k ∨ p.Done k)
          (run (StreamingProcessor.processChunk ids) { originalModel := model } (resp :: rest))
          .notStarted := by
        split at once
        · rename_i goesOn
          rw [if_pos goesOn] at kept
          exact kept.run fun k' running => StreamingProcessor.run_keeps running once
        · rename_i ends
          rw [if_neg ends] at kept
          exact kept.run fun k' done =>
            (StreamingProcessor.run_silent done once).mono fun _ done => Or.inr done
      obtain ⟨k', observed, reached⟩ := followed
      obtain ⟨k'', observed', done⟩ := StreamingProcessor.finish_keeps reached
      rw [observed, Option.bind_some, observed', done.phase]

/-! ### A finish reason in two chunks -/

namespace Sample

open Go

def ids : Ids where
  generateRandomID _ := "x"
  generateAnthropicMsgID := "msg_01"

def finished : V1InternalResponse where
  response := { candidates := [{ finishReason := "STOP" }], responseID := "r" }

def speaking : V1InternalResponse where
  response := { candidates := [{ content := some { parts := [{ text := "hi" }] } }] }

/-- Their JSON. -/
def finishedData : String :=
  "\x7b\"response\":" ++ ("\x7b\"candidates\":[" ++ ("\x7b\"finishReason\":" ++ ("\"STOP\"\x7d]," ++
    ("\"responseId\":" ++ "\"r\"\x7d\x7d"))))

def speakingData : String :=
  "\x7b\"response\":" ++ ("\x7b\"candidates\":[" ++ ("\x7b\"content\":" ++ ("\x7b\"parts\":[" ++
    ("\x7b\"text\":" ++ "\"hi\"\x7d]\x7d\x7d]\x7d\x7d"))))

/-- Reads the lines below. -/
def unmarshal : Unmarshal where
  v1 data :=
    if data = finishedData then some finished
    else if data = speakingData then some speaking else none
  direct _ := none

def line : String := "data:" ++ finishedData

def speakingLine : String := "data:" ++ speakingData

theorem parsed : StreamingProcessor.parseLine unmarshal line = some finished := by
  have read : unmarshal.v1 finishedData = some finished := by
    simp only [unmarshal, if_true]
  apply StreamingProcessor.parseLine_data _ (by decide +kernel) (by decide +kernel) read
  refine .append ?_ (.append ?_ (.append ?_ (.append ?_ (.append ?_ ?_))))
  all_goals decide +kernel

theorem parsed_speaking : StreamingProcessor.parseLine unmarshal speakingLine = some speaking := by
  have different : speakingData ≠ finishedData := by decide +kernel
  have read : unmarshal.v1 speakingData = some speaking := by
    simp only [unmarshal, if_neg different, if_true]
  apply StreamingProcessor.parseLine_data _ (by decide +kernel) (by decide +kernel) read
  refine .append ?_ (.append ?_ (.append ?_ (.append ?_ (.append ?_ ?_))))
  all_goals decide +kernel

end Sample

/-- The second one sends another message delta, after the message stop. -/
theorem repeated_finishReason_not_wellFormed :
    ¬WellFormed (StreamingProcessor.convert Sample.ids Sample.unmarshal
      [Sample.line, Sample.line] "m").2 := by
  unfold StreamingProcessor.convert
  rw [StreamingProcessor.run_lines, List.filterMap_cons_some Sample.parsed,
    List.filterMap_cons_some Sample.parsed, List.filterMap_nil]
  decide +kernel

/-- Text in one chunk, and the finish reason in the next. -/
theorem stream_wellFormed_sample : WellFormed (StreamingProcessor.convert Sample.ids
    Sample.unmarshal [Sample.speakingLine, Sample.line] "m").2 := by
  have parsed : [Sample.speakingLine, Sample.line].filterMap
      (StreamingProcessor.parseLine Sample.unmarshal) = [Sample.speaking, Sample.finished] := by
    rw [List.filterMap_cons_some Sample.parsed_speaking,
      List.filterMap_cons_some Sample.parsed, List.filterMap_nil]
  apply (stream_wellFormed_iff Sample.ids Sample.unmarshal _ "m" _).mpr
  · rw [parsed]
    simp [EndsOnce, Sample.speaking, Sample.finished, GeminiResponse.finishReason]
  · rw [parsed]
    exact List.cons_ne_nil _ _

end Sub2api.Antigravity
