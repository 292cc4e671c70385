import Sub2api.ApiCompat.ChatArguments

/-!
# The direct stream delivers the arguments of all calls

Each fragment that is in place keeps the stream followed and all calls tracked; one that is not is
a delta for a block that is closed. The finalizer announces the calls that never got a name.
-/

namespace Sub2api.ApiCompat

open Go Transducer ChatToAnthropic
open ToAnthropic (blockStart blockDelta blockStop messageEnd)
open ChatToResponses (ChatInput fragments)

variable {setting : ChatSetting} {s s' : ChatCompletionsToAnthropicStreamState}
  {blocks : List Builder} {current : Option Builder} {b : Builder} {p : Phase × Assembly}
  {calls : Calls} {idx : ℤ} {arguments : String}

/-- The stream is followed, and the converter has what came of all calls. -/
def Delivering (calls : Calls) (s : ChatCompletionsToAnthropicStreamState)
    (p : Phase × Assembly) : Prop :=
  ∃ blocks current, At s blocks p current ∧ Tracked s blocks current calls

/-- Arguments are nowhere out of place: there are none, they are buffered, or the block of the call
is the open one. -/
def Ready (arguments : String) (idx : ℤ) (s : ChatCompletionsToAnthropicStreamState) : Prop :=
  arguments = "" ∨ s.toolAnnounced idx ≠ some true ∨
    (s.contentBlockOpen = true ∧ s.toolBlockIndex idx = s.contentBlockIndex)

/-- The arguments of a fragment are in place. -/
def ArgumentsInPlace (s : ChatCompletionsToAnthropicStreamState) : ChatInput → Prop
  | .toolCall call => Ready call.function.arguments (callIndex call) s
  | _ => True

/-! ### States that differ elsewhere -/

theorem At.same (now : At s blocks p current) (started : s'.messageStartSent = s.messageStartSent)
    (stopped : s'.messageStopSent = s.messageStopSent)
    (opened : s'.contentBlockOpen = s.contentBlockOpen)
    (typed : s'.currentBlockType = s.currentBlockType)
    (index : s'.contentBlockIndex = s.contentBlockIndex)
    (had : s'.currentToolHadDelta = s.currentToolHadDelta) : At s' blocks p current := by
  cases current with
  | none =>
    have idling : Idling s blocks p := now
    refine ⟨started.trans idling.started, stopped.trans idling.running,
      opened.trans idling.closed, ?_, idling.reads, ?_⟩
    · rw [index]
      exact idling.phase
    · rw [index]
      exact idling.below
  | some b =>
    have within : Within s blocks b p := now
    refine ⟨started.trans within.started, stopped.trans within.running,
      opened.trans within.opened, typed.trans within.typed, ?_, within.reads,
      within.index.trans index.symm, ?_, ?_⟩
    · rw [index]
      exact within.phase
    · rw [index]
      exact within.below
    · rw [had]
      exact within.delta

theorem Named.tools (named : Named s calls) (same : SameTools s s') : Named s' calls := by
  unfold Named
  rw [same.announced]
  exact named

/-! ### Reasoning and text -/

theorem writePiece_delivers {type : BlockType} {text : String}
    (kind : type = .thinking ∨ type = .text) (now : Delivering calls s p) (named : Named s calls) :
    Keeps readPhase (fun s' p' => Delivering calls s' p' ∧ Named s' calls)
      (writePiece type text s) p := by
  obtain ⟨blocks, current, there, tracked⟩ := now
  by_cases opened : OpenIs type s
  · obtain ⟨b, last, typed⟩ := (openIs_iff there).mp opened
    rw [last] at there tracked
    have other : ∀ b', some b = some b' → b'.block.type ≠ .toolUse := by
      intro b' same
      cases same
      rw [typed]
      rcases kind with rfl | rfl
      · simp
      · simp
    refine (writePiece_continues there kind typed).mono fun p' after => ?_
    obtain ⟨same, within⟩ := after
    exact ⟨⟨blocks, some _, within, (tracked.unopened other).reopened.tools same⟩,
      named.tools same⟩
  · refine (writePiece_begins there kind opened).mono fun p' after => ?_
    obtain ⟨same, within⟩ := after
    exact ⟨⟨_, some _, within, (tracked.close same).reopened⟩, named.tools same⟩

/-! ### Calls -/

/-- The open block that is a call's. -/
theorem Tracked.openBlock (tracked : Tracked s blocks current calls) (there : At s blocks p current)
    (announced : s.toolAnnounced idx = some true)
    (here : s.toolBlockIndex idx = s.contentBlockIndex) :
    ∃ b, current = some b ∧ b.block.type = .toolUse ∧ s.toolBlockIndex idx = b.index := by
  have below : ∀ b ∈ blocks, b.index < s.contentBlockIndex := by
    cases current with
    | none => exact there.below
    | some b => exact there.below
  have known := tracked.has idx
  generalize calls idx = known' at known
  cases known with
  | unseen fresh _ =>
    rw [fresh] at announced
    cases announced
  | waiting call postponed _ _ =>
    rw [postponed] at announced
    cases announced
  | told call _ _ shown =>
    cases shown with
    | finished b member block _ =>
      have before := below b member
      rw [block.index, here] at before
      exact absurd before (lt_irrefl _)
    | opened b last block _ => exact ⟨b, last, block.type, block.index.symm⟩

theorem closeThinking_delivers (now : Delivering calls s p) (named : Named s calls) :
    Keeps readPhase
      (fun s' p' => (Delivering calls s' p' ∧ Named s' calls) ∧
        s'.toolAnnounced = s.toolAnnounced ∧
        ∀ arguments idx, Ready arguments idx s' ↔ Ready arguments idx s)
      (closeCCAnthropicBlockIfOpen s .thinking) p := by
  obtain ⟨blocks, current, there, tracked⟩ := now
  unfold closeCCAnthropicBlockIfOpen
  by_cases other : s.contentBlockOpen = false ∨ s.currentBlockType ≠ some .thinking
  · rw [if_pos other]
    exact .silent ⟨⟨⟨blocks, current, there, tracked⟩, named⟩, rfl, fun _ _ => Iff.rfl⟩
  · rw [if_neg other]
    have same := @closeCCAnthropicBlock_tools s
    refine (closeCCAnthropicBlock_keeps there).mono fun p' idling => ?_
    refine ⟨⟨⟨_, none, idling, tracked.close same⟩, named.tools same⟩, same.announced, ?_⟩
    intro arguments idx
    unfold Ready
    rw [same.announced, closeCCAnthropicBlock_closed]
    constructor
    · rintro (nothing | unannounced | ⟨contra, _⟩)
      · exact Or.inl nothing
      · exact Or.inr (Or.inl unannounced)
      · cases contra
    · rintro (nothing | unannounced | ⟨_, here⟩)
      · exact Or.inl nothing
      · exact Or.inr (Or.inl unannounced)
      · right
        left
        intro announced
        obtain ⟨b, last, type, _⟩ := tracked.openBlock there announced here
        rw [last] at there
        have within : Within s blocks b p := there
        obtain ⟨_, thinking⟩ := not_or.mp other
        have typed := not_not.mp thinking
        rw [within.typed, type] at typed
        cases typed

/-- A call that is not announced has no name. -/
theorem Has.unnamed {known : Option ToolSoFar} {name : String}
    (now : Has s blocks current idx known) (unannounced : s.toolAnnounced idx ≠ some true) :
    (known.getD {}).called name = { name := name, arguments := (known.getD {}).arguments } := by
  cases now with
  | unseen _ _ => rfl
  | waiting call _ unnamed _ =>
    show ({ call with name := if call.name = "" then name else call.name } : ToolSoFar) = _
    rw [if_pos unnamed]
    rfl
  | told _ announced _ _ => exact absurd announced unannounced

theorem announce_delivers {callID name : String} (now : Idling s blocks p)
    (tracked : Tracked s blocks none calls) (unannounced : s.toolAnnounced idx ≠ some true) :
    Keeps readPhase (fun s' p' => Delivering (calls.called idx name) s' p')
      (announceCCAnthropicToolBlock idx callID name s) p := by
  refine (announceCCAnthropicToolBlock_keeps now).mono fun p' within => ?_
  refine ⟨blocks, some _, within, ?_⟩
  unfold Calls.called
  rw [(tracked.has idx).unnamed unannounced]
  exact tracked.announce now.below unannounced

theorem announce_named {callID name : String} (named : Named s calls) (fresh : name ≠ "")
    (tracked : Tracked s blocks current calls) (unannounced : s.toolAnnounced idx ≠ some true) :
    Named (announceCCAnthropicToolBlock idx callID name s).1 (calls.called idx name) := by
  have announced : (announceCCAnthropicToolBlock idx callID name s).1.toolAnnounced =
      Function.update s.toolAnnounced idx (some true) := by
    rw [announceCCAnthropicToolBlock_state]
    rfl
  intro i call announcedI known
  unfold Calls.called at known
  by_cases same : i = idx
  · rw [same, Function.update_self, (tracked.has idx).unnamed unannounced] at known
    cases known
    exact fresh
  · rw [Function.update_of_ne same] at known
    rw [announced, Function.update_of_ne same] at announcedI
    exact named i call announcedI known

theorem announce_ready {callID name : String} :
    (announceCCAnthropicToolBlock idx callID name s).1.toolAnnounced idx = some true ∧
      Ready arguments idx (announceCCAnthropicToolBlock idx callID name s).1 := by
  unfold Ready
  rw [announceCCAnthropicToolBlock_state]
  constructor
  · exact Function.update_self ..
  · right
    right
    exact ⟨rfl, Function.update_self ..⟩

/-- What is so once the fragment's call is announced, now, later or already. -/
def Announced (arguments : String) (idx : ℤ) (calls : Calls)
    (s : ChatCompletionsToAnthropicStreamState) (p : Phase × Assembly) : Prop :=
  (Delivering calls s p ∧ Named s calls) ∧ s.toolAnnounced idx ≠ none ∧ Ready arguments idx s

theorem announceNow_delivers {callID name : String} (now : Idling s blocks p)
    (tracked : Tracked s blocks none calls) (named : Named s calls) (fresh : name ≠ "")
    (unannounced : s.toolAnnounced idx ≠ some true) :
    Keeps readPhase (Announced arguments idx (calls.called idx name))
      (announceCCAnthropicToolBlock idx callID name s) p := by
  refine (announce_delivers now tracked unannounced).mono fun p' delivering => ?_
  obtain ⟨announced, ready⟩ := @announce_ready s idx arguments callID name
  refine ⟨⟨delivering, announce_named named fresh tracked unannounced⟩, ?_, ready⟩
  rw [announced]
  simp

theorem startTool_delivers {call : ChatToolCall} (now : Delivering calls s p)
    (named : Named s calls) (unseen : s.toolAnnounced idx = none) :
    Keeps readPhase (Announced arguments idx (calls.called idx call.function.name))
      (startTool setting idx call s) p := by
  obtain ⟨blocks, current, there, tracked⟩ := now
  have same := @closeCCAnthropicBlock_tools s
  unfold startTool
  refine (closeCCAnthropicBlock_keeps there).andThen fun p' idling => ?_
  have tracked' := tracked.close same
  have named' := named.tools same
  have unseen' : (closeCCAnthropicBlock s).1.toolAnnounced idx = none := by
    rw [same.announced, unseen]
  generalize (closeCCAnthropicBlock s).1 = t at idling tracked' named' unseen'
  dsimp only
  split
  · rename_i fresh
    have moved := @At.same t { t with
        hasToolCall := true
        generated := if call.id = "" then t.generated + 1 else t.generated }
      (closedBlocks blocks current) none p' idling rfl rfl rfl rfl rfl rfl
    refine announceNow_delivers moved ?_ named' fresh ?_
    · exact tracked'.move rfl rfl rfl rfl fun _ _ shown => shown
    · show t.toolAnnounced idx ≠ some true
      rw [unseen']
      simp
  · rename_i unnamed
    have empty := not_not.mp unnamed
    have known : calls.called idx call.function.name = Function.update calls idx (some {}) := by
      have here := tracked'.has idx
      unfold Calls.called
      rw [empty]
      generalize calls idx = known at here ⊢
      cases here with
      | unseen _ _ => rfl
      | waiting _ postponed _ _ =>
        rw [unseen'] at postponed
        cases postponed
      | told _ announced _ _ =>
        rw [unseen'] at announced
        cases announced
    rw [known]
    refine .silent ⟨⟨⟨closedBlocks blocks current, none, ?_, ?_⟩, ?_⟩, ?_, ?_⟩
    · exact At.same idling rfl rfl rfl rfl rfl rfl
    · exact tracked'.postpone unseen' rfl rfl rfl rfl
    · intro i told announced known'
      by_cases this : i = idx
      · rw [this] at announced
        cases (Function.update_self ..).symm.trans announced
      · rw [Function.update_of_ne this] at known'
        exact named' i told ((Function.update_of_ne this ..).symm.trans announced) known'
    · show Function.update t.toolAnnounced idx (some false) idx ≠ none
      rw [Function.update_self]
      simp
    · right
      left
      show Function.update t.toolAnnounced idx (some false) idx ≠ some true
      rw [Function.update_self]
      simp

theorem announceTool_delivers {call : ChatToolCall} (now : Delivering calls s p)
    (named : Named s calls) (ready : Ready arguments idx s) :
    Keeps readPhase (Announced arguments idx (calls.called idx call.function.name))
      (announceTool setting idx call s) p := by
  have now' := now
  obtain ⟨blocks, current, there, tracked⟩ := now
  have here := tracked.has idx
  unfold announceTool
  cases status : s.toolAnnounced idx with
  | none => exact startTool_delivers now' named status
  | some announced =>
    cases announced with
    | true =>
      have known : calls.called idx call.function.name = calls := by
        have named' := named idx
        unfold Calls.called
        rw [Function.update_eq_self_iff]
        generalize calls idx = known at here named' ⊢
        cases here with
        | unseen fresh _ =>
          rw [fresh] at status
          cases status
        | waiting _ postponed _ _ =>
          rw [postponed] at status
          cases status
        | told told _ _ _ =>
          show some { told with
            name := if told.name = "" then call.function.name else told.name } = some told
          rw [if_neg (named' told status rfl)]
      rw [known]
      refine .silent ⟨⟨now', named⟩, ?_, ready⟩
      rw [status]
      simp
    | false =>
      have unannounced : s.toolAnnounced idx ≠ some true := by
        rw [status]
        simp
      dsimp only
      split
      · rename_i empty
        have known : calls.called idx call.function.name = calls := by
          unfold Calls.called
          rw [Function.update_eq_self_iff, empty, here.unnamed unannounced]
          generalize calls idx = known at here
          cases here with
          | unseen fresh _ =>
            rw [fresh] at status
            cases status
          | waiting told _ unnamed _ => rw [Option.getD_some, ← unnamed]
          | told _ announced _ _ => exact absurd announced unannounced
        rw [known]
        refine .silent ⟨⟨now', named⟩, ?_, ready⟩
        rw [status]
        simp
      · rename_i fresh
        have same := @closeCCAnthropicBlock_tools s
        refine (closeCCAnthropicBlock_keeps there).andThen fun p' idling => ?_
        refine announceNow_delivers idling (tracked.close same) (named.tools same) fresh ?_
        rw [same.announced]
        exact unannounced

theorem addToolArgs_delivers (now : Delivering calls s p) (named : Named s calls)
    (seen : s.toolAnnounced idx ≠ none) (ready : Ready arguments idx s) :
    Keeps readPhase (fun s' p' => Delivering (calls.argued idx arguments) s' p' ∧
        Named s' (calls.argued idx arguments))
      (addToolArgs idx arguments s) p := by
  have keepsNames : ∀ t : ChatCompletionsToAnthropicStreamState,
      t.toolAnnounced = s.toolAnnounced → Named t (calls.argued idx arguments) := by
    intro t same i told announced known
    rw [same] at announced
    unfold Calls.argued at known
    by_cases this : i = idx
    · rw [this] at announced
      rw [this, Function.update_self] at known
      cases found : calls idx with
      | none =>
        obtain ⟨blocks, current, there, tracked⟩ := now
        have here := tracked.has idx
        rw [found] at here
        cases here with
        | unseen fresh _ =>
          rw [fresh] at announced
          cases announced
      | some before =>
        rw [found] at known
        cases known
        exact named idx before announced found
    · rw [Function.update_of_ne this] at known
      exact named i told announced known
  obtain ⟨blocks, current, there, tracked⟩ := now
  cases status : s.toolAnnounced idx with
  | none => exact absurd status seen
  | some announced =>
    cases announced with
    | false =>
      have unannounced : s.toolAnnounced idx ≠ some true := by
        rw [status]
        simp
      rw [addToolArgs_waits unannounced]
      refine .silent ⟨⟨blocks, current, ?_, tracked.buffered status⟩, keepsNames _ rfl⟩
      exact there.same rfl rfl rfl rfl rfl rfl
    | true =>
      by_cases nothing : arguments = ""
      · have known : calls.argued idx arguments = calls := by
          have here := tracked.has idx
          unfold Calls.argued
          rw [Function.update_eq_self_iff, nothing]
          generalize calls idx = known at here ⊢
          cases here with
          | unseen fresh _ =>
            rw [fresh] at status
            cases status
          | waiting told _ _ _ => exact congrArg some (by simp [ToolSoFar.argued])
          | told told _ _ _ => exact congrArg some (by simp [ToolSoFar.argued])
        unfold addToolArgs
        rw [if_pos nothing, known]
        exact .silent ⟨⟨blocks, current, there, tracked⟩, named⟩
      · rcases ready with empty | unannounced | ⟨_, here⟩
        · exact absurd empty nothing
        · exact absurd status unannounced
        · obtain ⟨b, last, type, place⟩ := tracked.openBlock there status here
          rw [last] at there tracked
          have within : Within s blocks b p := there
          refine (addToolArgs_keeps within status place type).mono fun p' after => ?_
          obtain ⟨same, within'⟩ := after
          have below : ∀ b' ∈ blocks, b'.index < b.index := by
            rw [within.index]
            exact within.below
          exact ⟨⟨blocks, some _, within', tracked.argued same status place below⟩,
            keepsNames _ same.announced⟩

theorem handleToolCall_delivers {call : ChatToolCall} (now : Delivering calls s p)
    (named : Named s calls) (fine : Ready call.function.arguments (callIndex call) s) :
    Keeps readPhase (fun s' p' =>
        Delivering ((calls.called (callIndex call) call.function.name).argued (callIndex call)
          call.function.arguments) s' p' ∧
        Named s' ((calls.called (callIndex call) call.function.name).argued (callIndex call)
          call.function.arguments))
      (handleToolCall setting call s) p := by
  unfold handleToolCall
  refine (closeThinking_delivers now named).andThen fun p' after => ?_
  obtain ⟨⟨now', named'⟩, _, ready⟩ := after
  unfold handleCCAnthropicToolCall
  refine (announceTool_delivers now' named' ((ready _ _).mpr fine)).andThen fun p'' announced => ?_
  obtain ⟨⟨now'', named''⟩, seen, ready'⟩ := announced
  exact addToolArgs_delivers now'' named'' seen ready'

/-- Arguments for a block that is closed. -/
theorem handleToolCall_rejected {call : ChatToolCall} (now : Delivering calls s p)
    (named : Named s calls) (wrong : ¬Ready call.function.arguments (callIndex call) s) :
    observe readPhase p (handleToolCall setting call s).2 = none := by
  obtain ⟨p', observed, ⟨⟨now', named'⟩, announced, ready⟩⟩ := closeThinking_delivers now named
  have wrong' := mt (ready _ _).mp wrong
  unfold handleToolCall andThen
  dsimp only
  rw [observe_append, observed, Option.bind_some]
  generalize (closeCCAnthropicBlockIfOpen s .thinking).1 = t at now' wrong'
  obtain ⟨some', rest⟩ := not_or.mp wrong'
  obtain ⟨told, elsewhere⟩ := not_or.mp rest
  have told' := not_not.mp told
  unfold handleCCAnthropicToolCall announceTool
  dsimp only
  rw [← callIndex, told']
  unfold addToolArgs andThen
  dsimp only
  rw [if_neg some', if_pos told', List.nil_append, observe_cons]
  have rejected : readPhase p' (blockDelta (t.toolBlockIndex (callIndex call))
      { type := .inputJSON, partialJSON := call.function.arguments }) = none := by
    obtain ⟨blocks, current, there, tracked⟩ := now'
    unfold readPhase
    cases current with
    | none =>
      have idling : Idling t blocks p' := there
      rw [idling.phase]
      rfl
    | some b =>
      have within : Within t blocks b p' := there
      have other : t.toolBlockIndex (callIndex call) ≠ t.contentBlockIndex :=
        fun here => elsewhere ⟨within.opened, here⟩
      rw [within.phase]
      simp [Phase.follow, blockDelta, other]
  rw [rejected]
  rfl

/-! ### Runs -/

/-- The calls of some pieces are delivered as far as they came. -/
def Underway (pieces : ChatPieces) (s : ChatCompletionsToAnthropicStreamState)
    (p : Phase × Assembly) : Prop :=
  Delivering (callsOf pieces.calls) s p ∧ Named s (callsOf pieces.calls)

theorem handleInput_underway {input : ChatInput} {pieces : ChatPieces} (now : Underway pieces s p)
    (fine : ArgumentsInPlace s input) :
    Keeps readPhase (Underway (pieces.add input)) (handleInput setting s input) p := by
  obtain ⟨now, named⟩ := now
  cases input with
  | head chunk =>
    obtain ⟨blocks, current, there, tracked⟩ := now
    have started : s.messageStartSent = true := by
      cases current with
      | none => exact there.started
      | some b => exact there.started
    unfold handleInput handleHead ensureCCAnthropicMessageStart
    dsimp only
    rw [if_pos started]
    refine .silent ⟨⟨blocks, current, ?_, ?_⟩, named⟩
    · exact there.same rfl rfl rfl rfl rfl rfl
    · exact tracked.move rfl rfl rfl rfl fun _ _ shown => shown
  | reasoning text =>
    by_cases fresh : text = ""
    · unfold handleInput handleReasoning
      dsimp only
      rw [if_pos fresh]
      exact .silent ⟨now, named⟩
    · show Keeps readPhase _ (handleReasoning text s) p
      rw [handleReasoning_eq fresh]
      exact writePiece_delivers (Or.inl rfl) now named
  | content text =>
    by_cases fresh : text = ""
    · unfold handleInput handleContent
      dsimp only
      rw [if_pos fresh]
      exact .silent ⟨now, named⟩
    · show Keeps readPhase _ (handleContent text s) p
      rw [handleContent_eq fresh]
      exact writePiece_delivers (Or.inr rfl) now named
  | toolCall call =>
    show Keeps readPhase (fun s' p' => Delivering (callsOf (pieces.calls ++ [call])) s' p' ∧
      Named s' (callsOf (pieces.calls ++ [call]))) (handleToolCall setting call s) p
    rw [callsOf_concat]
    exact handleToolCall_delivers now named fine
  | finishReason reason =>
    obtain ⟨blocks, current, there, tracked⟩ := now
    unfold handleInput
    dsimp only
    split
    · refine .silent ⟨⟨blocks, current, ?_, ?_⟩, named⟩
      · exact there.same rfl rfl rfl rfl rfl rfl
      · exact tracked.move rfl rfl rfl rfl fun _ _ shown => shown
    · exact .silent ⟨⟨blocks, current, there, tracked⟩, named⟩
  | closeMessage => exact .silent ⟨now, named⟩
  | degenerated => exact .silent ⟨now, named⟩

/-- While all arguments are in place, the calls are tracked. -/
theorem run_underway {inputs : List ChatInput} {pieces : ChatPieces} (now : Underway pieces s p)
    (fine : Throughout (handleInput setting) ArgumentsInPlace s inputs) :
    Keeps readPhase (Underway (inputs.foldl ChatPieces.add pieces))
      (run (handleInput setting) s inputs) p := by
  let Rel : List ChatInput → ChatCompletionsToAnthropicStreamState → Phase × Assembly → Prop :=
    fun seen => Underway (seen.foldl ChatPieces.add pieces)
  have keeps : ∀ seen s p input, Rel seen s p → ArgumentsInPlace s input →
      Keeps readPhase (Rel (seen ++ [input])) (handleInput setting s input) p := by
    intro seen s p input now fine
    show Keeps readPhase (Underway ((seen ++ [input]).foldl ChatPieces.add pieces)) _ p
    rw [List.foldl_append]
    exact handleInput_underway now fine
  have start : Rel [] s p := now
  exact Keeps.runSeen keeps start fine

/-- The stream is followed exactly while all arguments are in place. -/
theorem handleInput_tracks :
    Tracks (handleInput setting) readPhase (fun s p => ∃ pieces, Underway pieces s p)
      (fun _ _ => True) ArgumentsInPlace := by
  constructor
  · rintro s p input ⟨pieces, now⟩ _ fine
    have kept := @handleInput_underway setting s p input pieces now fine
    exact Follows.mono kept fun p' after => ⟨pieces.add input, after⟩
  · rintro s p input ⟨pieces, now, named⟩ _ wrong
    cases input with
    | toolCall call => exact handleToolCall_rejected now named wrong
    | head _ => exact absurd trivial wrong
    | reasoning _ => exact absurd trivial wrong
    | content _ => exact absurd trivial wrong
    | finishReason _ => exact absurd trivial wrong
    | closeMessage => exact absurd trivial wrong
    | degenerated => exact absurd trivial wrong

/-! ### The end -/

/-- A call whose name never came has the empty one already. -/
theorem called_unnamed (tracked : Tracked s blocks current calls)
    (postponed : s.toolAnnounced idx = some false) : calls.called idx "" = calls := by
  have here := tracked.has idx
  have unannounced : s.toolAnnounced idx ≠ some true := by
    rw [postponed]
    simp
  unfold Calls.called
  rw [Function.update_eq_self_iff, here.unnamed unannounced]
  generalize calls idx = known at here
  cases here with
  | unseen fresh _ =>
    rw [fresh] at postponed
    cases postponed
  | waiting told _ unnamed _ => rw [Option.getD_some, ← unnamed]
  | told _ announced _ _ => exact absurd announced unannounced

theorem announcePending_delivers {pending : ℤ × String} (now : Delivering calls s p)
    (postponed : s.toolAnnounced pending.1 = some false) :
    Keeps readPhase (fun s' p' => Delivering calls s' p' ∧
        s'.toolAnnounced = Function.update s.toolAnnounced pending.1 (some true))
      (announcePending s pending) p := by
  obtain ⟨blocks, current, there, tracked⟩ := now
  have same := @closeCCAnthropicBlock_tools s
  unfold announcePending
  refine (closeCCAnthropicBlock_keeps there).andThen fun p' idling => ?_
  have tracked' := tracked.close same
  have postponed' : (closeCCAnthropicBlock s).1.toolAnnounced pending.1 = some false := by
    rw [same.announced, postponed]
  have unannounced : (closeCCAnthropicBlock s).1.toolAnnounced pending.1 ≠ some true := by
    rw [postponed']
    simp
  have announced : Keeps readPhase
      (fun s' p' => Delivering (calls.called pending.1 "") s' p')
      (announceCCAnthropicToolBlock pending.1 pending.2 "" (closeCCAnthropicBlock s).1) p' :=
    announce_delivers idling tracked' unannounced
  rw [called_unnamed tracked' postponed'] at announced
  refine announced.mono fun q delivering => ⟨delivering, ?_⟩
  rw [announceCCAnthropicToolBlock_state, ← same.announced]
  rfl

/-- In the end every call is announced. -/
theorem announcePending_run {entries : List (ℤ × String)} (now : Delivering calls s p)
    (all : ∀ i, i ∈ entries.map Prod.fst ↔ s.toolAnnounced i = some false)
    (distinct : (entries.map Prod.fst).Nodup) :
    Keeps readPhase (fun s' p' => Delivering calls s' p' ∧ ∀ i, s'.toolAnnounced i ≠ some false)
      (run announcePending s entries) p := by
  induction entries generalizing s p with
  | nil =>
    refine .silent ⟨now, fun i postponed => ?_⟩
    cases (all i).mpr postponed
  | cons entry rest ih =>
    have first := (all entry.1).mp List.mem_cons_self
    obtain ⟨absent, distinct'⟩ := List.nodup_cons.mp distinct
    refine (announcePending_delivers now first).run fun p' after => ?_
    obtain ⟨delivering, announced⟩ := after
    refine ih delivering ?_ distinct'
    intro i
    rw [announced]
    by_cases same : i = entry.1
    · rw [same, Function.update_self]
      refine iff_of_false absent ?_
      simp
    · rw [Function.update_of_ne same, ← all i]
      simp [same]

/-- A finished stream has a block for every call. -/
structure Delivered (calls : Calls) (s : ChatCompletionsToAnthropicStreamState)
    (p : Phase × Assembly) : Prop where
  phase : p.1 = .ended
  shown : ∀ idx call, calls idx = some call → Shown s p.2.blocks none idx call
  apart : ∀ i j, calls i ≠ none → calls j ≠ none → s.toolBlockIndex i = s.toolBlockIndex j → i = j

theorem completeMessage_delivers (now : Idling s blocks p) (tracked : Tracked s blocks none calls)
    (announced : ∀ i, s.toolAnnounced i ≠ some false) :
    Keeps readPhase (Delivered calls) (completeMessage s) p := by
  have known : ∀ i, calls i ≠ none → s.toolAnnounced i = some true := by
    intro i some'
    have here := tracked.has i
    generalize calls i = known at here some'
    cases here with
    | unseen _ _ => exact absurd rfl some'
    | waiting _ postponed _ _ => exact absurd postponed (announced i)
    | told _ told _ _ => exact told
  have ends : Follows readPhase (fun p' => p'.1 = .ended ∧ p'.2.blocks = blocks)
      (completeMessage s).2 p := by
    obtain ⟨phase, assembly⟩ := p
    have between : phase = .between s.contentBlockIndex := now.phase
    rw [between]
    exact ⟨_, rfl, rfl, now.reads⟩
  refine Follows.mono ends fun p' ended => ⟨ended.1, ?_, ?_⟩
  · intro i call found
    have here := tracked.has i
    rw [found] at here
    rw [ended.2]
    cases here with
    | waiting _ postponed _ _ => exact absurd postponed (announced i)
    | told _ _ _ shown =>
      refine Shown.congr ?_ shown
      rfl
  · intro i j some' some'' place
    exact tracked.apart i j (known i some') (known j some'') place

theorem finalize_delivers (now : Delivering calls s p) :
    Keeps readPhase (Delivered calls) (finalizeChatCompletionsAnthropicStream s) p := by
  have now' := now
  obtain ⟨blocks, current, there, tracked⟩ := now
  have flags : s.messageStartSent = true ∧ s.messageStopSent = false := by
    cases current with
    | none => exact ⟨there.started, there.running⟩
    | some b => exact ⟨there.started, there.running⟩
  have sorted : (pendingCalls s).Perm s.pendingToolCallID := List.perm_insertionSort ..
  have announces : Keeps readPhase
      (fun s' p' => Delivering calls s' p' ∧ ∀ i, s'.toolAnnounced i ≠ some false)
      (run announcePending s (pendingCalls s)) p := by
    refine announcePending_run now' ?_ ?_
    · intro i
      rw [(sorted.map Prod.fst).mem_iff]
      exact tracked.pending i
    · exact (sorted.map Prod.fst).nodup_iff.mpr tracked.distinct
  unfold finalizeChatCompletionsAnthropicStream ensureCCAnthropicMessageStart
  rw [flags.2, if_neg Bool.false_ne_true, if_pos flags.1]
  have begins : Keeps readPhase (fun s' p' => s' = s ∧ p' = p) (s, []) p := .silent ⟨rfl, rfl⟩
  refine begins.andThen fun p' unchanged => ?_
  rw [unchanged.2]
  refine announces.andThen fun p' after => ?_
  obtain ⟨⟨blocks', current', there', tracked'⟩, announced⟩ := after
  refine (closeCCAnthropicBlock_keeps there').andThen fun q idling => ?_
  refine completeMessage_delivers idling (tracked'.close closeCCAnthropicBlock_tools) ?_
  rw [closeCCAnthropicBlock_tools.announced]
  exact announced

/-! ### The whole stream -/

/-- Every call has a block of its own, with its name and the arguments received for it. -/
def ArgumentsKept (blocks : List Builder) (parts : List ChatToolCall) : Prop :=
  ∃ blockOf : ℤ → ℤ, Set.InjOn blockOf {index | index ∈ parts.map callIndex} ∧
    ∀ index ∈ parts.map callIndex, ∃ b ∈ blocks, b.index = blockOf index ∧
      b.block.type = .toolUse ∧ b.block.name = calledName (fragmentsOf parts index) ∧
      b.json = orEmptyObject (receivedArguments (fragmentsOf parts index))

theorem callsOf_some {parts : List ChatToolCall} {index : ℤ}
    (member : index ∈ parts.map callIndex) :
    callsOf parts index = some { name := calledName (fragmentsOf parts index)
                                 arguments := receivedArguments (fragmentsOf parts index) } := by
  obtain ⟨part, member', rfl⟩ := List.mem_map.mp member
  refine if_neg fun nothing => ?_
  have absent := List.filter_eq_nil_iff.mp nothing part member'
  simp at absent

theorem Delivered.argumentsKept {parts : List ChatToolCall} (now : Delivered (callsOf parts) s p) :
    ArgumentsKept p.2.blocks parts := by
  refine ⟨s.toolBlockIndex, ?_, ?_⟩
  · intro i memberI j memberJ place
    refine now.apart i j ?_ ?_ place
    · rw [callsOf_some memberI]
      simp
    · rw [callsOf_some memberJ]
      simp
  · intro index member
    cases now.shown index _ (callsOf_some member) with
    | finished b inside block written =>
      exact ⟨b, inside, block.index, block.type, block.name, written⟩
    | opened b last _ _ => cases last

/-- Chunks are taken fragment by fragment. -/
theorem run_anthropicChunks (chunks : List ChatCompletionsChunk) :
    run (chatCompletionsChunkToAnthropicEvents setting) s chunks =
      run (handleInput setting) s (chunks.flatMap fragments) := by
  induction chunks generalizing s with
  | nil => rfl
  | cons chunk rest ih =>
    rw [run_cons, List.flatMap_cons, run_append, ih]
    rfl

/-! ### The beginning -/

theorem ensureCCAnthropicMessageStart_starts (unsent : s.messageStartSent = false)
    (running : s.messageStopSent = false) (closed : s.contentBlockOpen = false)
    (index : s.contentBlockIndex = 0) (fresh : ∀ i, s.toolAnnounced i = none)
    (callIDs : s.pendingToolCallID = []) (args : ∀ i, s.pendingToolArgs i = "") :
    Keeps readPhase (Underway {}) (ensureCCAnthropicMessageStart s) (.notStarted, {}) := by
  unfold ensureCCAnthropicMessageStart
  rw [unsent, if_neg Bool.false_ne_true]
  refine Follows.one rfl ⟨⟨[], none, ?_, ?_⟩, ?_⟩
  · refine ⟨rfl, running, closed, ?_, rfl, ?_⟩
    · show Phase.between 0 = .between s.contentBlockIndex
      rw [index]
    · intro b member
      cases member
  · constructor
    · intro i
      exact .unseen (fresh i) (args i)
    · intro i j announced
      cases (fresh i).symm.trans announced
    · intro i
      show i ∈ s.pendingToolCallID.map Prod.fst ↔ s.toolAnnounced i = some false
      rw [callIDs, fresh i]
      simp
    · show (s.pendingToolCallID.map Prod.fst).Nodup
      rw [callIDs]
      exact List.nodup_nil
  · intro i call announced
    cases (fresh i).symm.trans announced

theorem handleHead_starts {model : String} {chunk : ChatCompletionsChunk} :
    Keeps readPhase (Underway {}) (handleHead chunk (newState setting model)) (.notStarted, {}) :=
  ensureCCAnthropicMessageStart_starts rfl rfl rfl rfl (fun _ => rfl) rfl fun _ => rfl

/-- Without chunks the finalizer starts the message. -/
theorem finalize_starts {model : String} :
    Keeps readPhase (Delivered (callsOf []))
      (finalizeChatCompletionsAnthropicStream (newState setting model)) (.notStarted, {}) := by
  have starts : Keeps readPhase (Underway {})
      (ensureCCAnthropicMessageStart (newState setting model)) (.notStarted, {}) :=
    ensureCCAnthropicMessageStart_starts rfl rfl rfl rfl (fun _ => rfl) rfl fun _ => rfl
  have later : finalizeChatCompletionsAnthropicStream (newState setting model) =
      andThen (ensureCCAnthropicMessageStart (newState setting model))
        finalizeChatCompletionsAnthropicStream := rfl
  rw [later]
  exact starts.andThen fun p' now => finalize_delivers now.1

/-- The stream is well-formed and every call's block has the arguments received for the call, if and
only if each call's arguments come while its block is open or before it is announced. -/
theorem direct_delivers_iff (setting : ChatSetting) (model : String)
    (chunks : List ChatCompletionsChunk) :
    (WellFormedStream (anthropicStream setting model chunks) ∧
      ArgumentsKept (assemble (anthropicStream setting model chunks)).blocks
        (piecesOf chunks).calls) ↔
      Throughout (handleInput setting) ArgumentsInPlace (newState setting model)
        (chunks.flatMap fragments) := by
  have delivers : Throughout (handleInput setting) ArgumentsInPlace (newState setting model)
      (chunks.flatMap fragments) →
      Follows readPhase (fun p => ∃ s, Delivered (callsOf (piecesOf chunks).calls) s p)
        (anthropicStream setting model chunks) (.notStarted, {}) := by
    intro fine
    unfold anthropicStream piecesOf
    rw [run_anthropicChunks]
    cases chunks with
    | nil => exact Follows.mono finalize_starts fun p delivered => ⟨_, delivered⟩
    | cons chunk rest =>
      have kept : Keeps readPhase
          (Underway (((chunk :: rest).flatMap fragments).foldl ChatPieces.add {}))
          (run (handleInput setting) (newState setting model) ((chunk :: rest).flatMap fragments))
          (.notStarted, {}) := by
        have started : Keeps readPhase (Underway {})
            (handleInput setting (newState setting model) (.head chunk)) (.notStarted, {}) :=
          handleHead_starts
        exact started.run fun p' now => run_underway now fine.2
      have ended := kept.andThen fun p' now => finalize_delivers now.1
      exact Follows.mono ended fun p delivered => ⟨_, delivered⟩
  have rejected : ¬Throughout (handleInput setting) ArgumentsInPlace (newState setting model)
      (chunks.flatMap fragments) →
      observe readPhase (.notStarted, {}) (anthropicStream setting model chunks) = none := by
    intro wrong
    unfold anthropicStream
    rw [run_anthropicChunks]
    cases chunks with
    | nil => exact absurd trivial wrong
    | cons chunk rest =>
      obtain ⟨p', observed, now⟩ := @handleHead_starts setting model chunk
      have legal : Throughout (handleInput setting) (fun _ _ => True)
          (handleHead chunk (newState setting model)).1
          (((chunk :: rest).flatMap fragments).tail) := throughout_iff.mpr fun _ _ _ _ => trivial
      rcases handleInput_tracks.run ⟨{}, now⟩ legal with ⟨fine, _⟩ | ⟨_, none'⟩
      · exact absurd ⟨trivial, fine⟩ wrong
      · unfold andThen
        dsimp only
        rw [observe_append]
        have ran : observe readPhase (.notStarted, {})
            (run (handleInput setting) (newState setting model)
              ((chunk :: rest).flatMap fragments)).2 = none := by
          show observe readPhase _ ((handleHead chunk (newState setting model)).2 ++ _) = none
          rw [observe_append, observed]
          exact none'
        rw [ran]
        rfl
  constructor
  · rintro ⟨wellFormed, _⟩
    by_contra wrong
    have none' := rejected wrong
    rw [observe_readPhase] at none'
    unfold WellFormedStream at wellFormed
    rw [wellFormed] at none'
    cases none'
  · intro fine
    obtain ⟨p, observed, s, delivered⟩ := delivers fine
    rw [observe_readPhase] at observed
    obtain ⟨k, followed, same⟩ := Option.map_eq_some_iff.mp observed
    have kept := delivered.argumentsKept
    have ended := delivered.phase
    rw [← same] at kept ended
    refine ⟨?_, kept⟩
    unfold WellFormedStream
    rw [followed]
    exact congrArg some ended

namespace ChatSample

/-- A client without tools of its own. -/
def plain : ChatSetting := { randomBytes := fun _ => [], sha256 := fun _ => [], tools := {} }

/-- A chunk with one fragment of a call. -/
def callChunk (index : ℤ) (name arguments : String) : ChatCompletionsChunk :=
  { id := "c"
    choices := [{ delta := { toolCalls :=
      [{ index := some index, id := "call_" ++ name
         function := { name := name, arguments := arguments } }] } }] }

/-- Two parallel calls whose fragments alternate. -/
def parallelCalls : List ChatCompletionsChunk :=
  [callChunk 0 "ls" "\x7b", callChunk 1 "cat" "\x7b\x7d", callChunk 0 "" "\x7d"]

end ChatSample

/-- The last fragment of the first call is sent for a block that is closed. -/
theorem direct_parallelCalls_not_wellFormed :
    ¬WellFormedStream (anthropicStream ChatSample.plain "m" ChatSample.parallelCalls) := by
  decide +kernel

end Sub2api.ApiCompat
