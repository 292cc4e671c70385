import Sub2api.ApiCompat.Types
import Sub2api.ApiCompat.CanonicalStream
import Sub2api.ApiCompat.ChatToAnthropic

/-!
# The blocks of a chat stream that is converted directly

A reader follows the phase of the stream and assembles its blocks. While every fragment of
arguments finds the block of its call open, only the last block changes: `At` has the finished
blocks and the open one.
-/

namespace Sub2api.ApiCompat

open Go Transducer ChatToAnthropic
open ToAnthropic (blockStart blockDelta blockStop messageEnd)
open ChatToResponses (ChatInput fragments)

/-! ### Reading a stream that is followed -/

/-- One event of a well-formed stream, and what it adds to the message. -/
def readPhase (p : Phase × Assembly) (evt : AnthropicStreamEvent) : Option (Phase × Assembly) :=
  (p.1.follow evt).map fun k => (k, p.2.read evt)

theorem observe_readPhase (p : Phase × Assembly) (events : List AnthropicStreamEvent) :
    observe readPhase p events =
      (observe Phase.follow p.1 events).map fun k => (k, events.foldl Assembly.read p.2) := by
  induction events generalizing p with
  | nil => rfl
  | cons evt rest ih =>
    rw [observe_cons, observe_cons]
    unfold readPhase
    cases p.1.follow evt with
    | none => rfl
    | some k => exact ih (k, p.2.read evt)

/-! ### Blocks -/

/-- A call's block when it is closed: without arguments it gets the empty object. -/
def closeBuilder (b : Builder) : Builder :=
  if b.block.type = .toolUse ∧ b.json = "" then { b with json := "\x7b\x7d" } else b

/-- The stream runs, these blocks are finished and none is open. -/
structure Idling (s : ChatCompletionsToAnthropicStreamState) (blocks : List Builder)
    (p : Phase × Assembly) : Prop where
  started : s.messageStartSent = true
  running : s.messageStopSent = false
  closed : s.contentBlockOpen = false
  phase : p.1 = .between s.contentBlockIndex
  reads : p.2.blocks = blocks
  below : ∀ b ∈ blocks, b.index < s.contentBlockIndex

/-- The stream runs, these blocks are finished and one more is open. -/
structure Within (s : ChatCompletionsToAnthropicStreamState) (blocks : List Builder) (b : Builder)
    (p : Phase × Assembly) : Prop where
  started : s.messageStartSent = true
  running : s.messageStopSent = false
  opened : s.contentBlockOpen = true
  typed : s.currentBlockType = some b.block.type
  phase : p.1 = .inBlock s.contentBlockIndex b.block.type
  reads : p.2.blocks = blocks ++ [b]
  index : b.index = s.contentBlockIndex
  below : ∀ b ∈ blocks, b.index < s.contentBlockIndex
  delta : b.block.type = .toolUse → (s.currentToolHadDelta = true ↔ b.json ≠ "")

/-- Where the stream is: the finished blocks, and the open one if there is one. -/
def At (s : ChatCompletionsToAnthropicStreamState) (blocks : List Builder) (p : Phase × Assembly) :
    Option Builder → Prop
  | none => Idling s blocks p
  | some b => Within s blocks b p

/-- All blocks once the open one is closed. -/
def closedBlocks (blocks : List Builder) (current : Option Builder) : List Builder :=
  blocks ++ (current.map closeBuilder).toList

variable {s : ChatCompletionsToAnthropicStreamState} {blocks : List Builder}
  {current : Option Builder} {b : Builder} {p : Phase × Assembly}

/-- A delta for the open block changes that block only. -/
theorem read_delta {a : Assembly} {index : ℤ} {delta : AnthropicDelta}
    (reads : a.blocks = blocks ++ [b]) (here : b.index = index)
    (below : ∀ b ∈ blocks, b.index < index) :
    (a.read (blockDelta index delta)).blocks = blocks ++ [b.add delta] := by
  have others : blocks.map (fun b => if b.index = index then b.add delta else b) = blocks := by
    refine (List.map_congr_left fun b member => ?_).trans (List.map_id' blocks)
    exact if_neg (below b member).ne
  show a.blocks.map (fun b => if b.index = index then b.add delta else b) = _
  rw [reads, List.map_append, others, List.map_singleton, if_pos here]

/-- A delta of the open block's kind. -/
theorem delta_keeps {s' : ChatCompletionsToAnthropicStreamState} {delta : AnthropicDelta}
    (now : Within s blocks b p) (takes : b.block.type.takes delta.type = true)
    (started : s'.messageStartSent = s.messageStartSent)
    (stopped : s'.messageStopSent = s.messageStopSent)
    (opened : s'.contentBlockOpen = s.contentBlockOpen)
    (typed : s'.currentBlockType = s.currentBlockType)
    (index : s'.contentBlockIndex = s.contentBlockIndex)
    (had : b.block.type = .toolUse → (s'.currentToolHadDelta = true ↔ (b.add delta).json ≠ "")) :
    Keeps readPhase (fun s' p' => Within s' blocks (b.add delta) p')
      (s', [blockDelta s.contentBlockIndex delta]) p := by
  have same : (b.add delta).block.type = b.block.type := by
    unfold Builder.add
    split <;> rfl
  have place : (b.add delta).index = b.index := by
    unfold Builder.add
    split <;> rfl
  have followed : readPhase p (blockDelta s.contentBlockIndex delta) =
      some (p.1, p.2.read (blockDelta s.contentBlockIndex delta)) := by
    unfold readPhase
    rw [now.phase]
    simp [Phase.follow, blockDelta, takes]
  refine Follows.one followed ⟨?_, ?_, ?_, ?_, ?_, ?_, ?_, ?_, ?_⟩
  · exact started.trans now.started
  · exact stopped.trans now.running
  · exact opened.trans now.opened
  · rw [typed, same]
    exact now.typed
  · rw [index, same]
    exact now.phase
  · exact read_delta now.reads now.index now.below
  · rw [place, index]
    exact now.index
  · rw [index]
    exact now.below
  · rw [same]
    exact had

/-- A block begins. -/
theorem start_keeps {s' : ChatCompletionsToAnthropicStreamState} {block : AnthropicContentBlock}
    (now : Idling s blocks p) (started : s'.messageStartSent = s.messageStartSent)
    (stopped : s'.messageStopSent = s.messageStopSent) (opened : s'.contentBlockOpen = true)
    (typed : s'.currentBlockType = some block.type)
    (index : s'.contentBlockIndex = s.contentBlockIndex)
    (had : block.type = .toolUse → s'.currentToolHadDelta = false) :
    Keeps readPhase
      (fun s' p' => Within s' blocks { index := s.contentBlockIndex, block := block } p')
      (s', [blockStart s.contentBlockIndex block]) p := by
  have followed : readPhase p (blockStart s.contentBlockIndex block) =
      some (.inBlock s.contentBlockIndex block.type,
        p.2.read (blockStart s.contentBlockIndex block)) := by
    unfold readPhase
    rw [now.phase]
    simp [Phase.follow, blockStart]
  refine Follows.one followed ⟨?_, ?_, opened, typed, ?_, ?_, ?_, ?_, ?_⟩
  · exact started.trans now.started
  · exact stopped.trans now.running
  · rw [index]
  · show p.2.blocks ++ [_] = _
    rw [now.reads]
  · exact index.symm
  · rw [index]
    exact now.below
  · intro tool
    rw [had tool]
    simp

/-- What closing leaves alone. -/
structure SameTools (s s' : ChatCompletionsToAnthropicStreamState) : Prop where
  blockIndex : s'.toolBlockIndex = s.toolBlockIndex
  announced : s'.toolAnnounced = s.toolAnnounced
  callIDs : s'.pendingToolCallID = s.pendingToolCallID
  args : s'.pendingToolArgs = s.pendingToolArgs
  hasCall : s'.hasToolCall = s.hasToolCall
  reason : s'.finishReason = s.finishReason
  generated : s'.generated = s.generated

theorem SameTools.refl : SameTools s s := ⟨rfl, rfl, rfl, rfl, rfl, rfl, rfl⟩

theorem SameTools.trans {s' s'' : ChatCompletionsToAnthropicStreamState} (first : SameTools s s')
    (later : SameTools s' s'') : SameTools s s'' :=
  ⟨later.blockIndex.trans first.blockIndex, later.announced.trans first.announced,
    later.callIDs.trans first.callIDs, later.args.trans first.args,
    later.hasCall.trans first.hasCall, later.reason.trans first.reason,
    later.generated.trans first.generated⟩

theorem closeCCAnthropicBlock_tools : SameTools s (closeCCAnthropicBlock s).1 := by
  unfold closeCCAnthropicBlock
  split
  · exact .refl
  · exact ⟨rfl, rfl, rfl, rfl, rfl, rfl, rfl⟩

theorem closeBuilder_index : (closeBuilder b).index = b.index := by
  unfold closeBuilder
  split <;> rfl

/-- The empty object goes to an open call's block that has no arguments. -/
theorem emptyInputDelta_follows (now : Within s blocks b p) :
    Follows readPhase (fun p' => p'.1 = .inBlock s.contentBlockIndex b.block.type ∧
      p'.2.blocks = blocks ++ [closeBuilder b]) (emptyInputDelta s) p := by
  by_cases empty : b.block.type = .toolUse ∧ b.json = ""
  · have had : s.currentToolHadDelta = false := by
      by_contra had
      exact (now.delta empty.1).mp (Bool.eq_true_of_not_eq_false had) empty.2
    have sends : emptyInputDelta s =
        [blockDelta s.contentBlockIndex { type := .inputJSON, partialJSON := "\x7b\x7d" }] := by
      unfold emptyInputDelta
      rw [now.typed, empty.1, if_pos ⟨rfl, had⟩]
    have added : b.add { type := .inputJSON, partialJSON := "\x7b\x7d" } = closeBuilder b := by
      unfold closeBuilder
      rw [if_pos empty]
      simp [Builder.add, empty.2]
    have followed : readPhase p
        (blockDelta s.contentBlockIndex { type := .inputJSON, partialJSON := "\x7b\x7d" }) =
          some (p.1, p.2.read (blockDelta s.contentBlockIndex
            { type := .inputJSON, partialJSON := "\x7b\x7d" })) := by
      unfold readPhase
      rw [now.phase, empty.1]
      simp [Phase.follow, blockDelta, BlockType.takes]
    rw [sends]
    refine .one followed ⟨now.phase, ?_⟩
    rw [← added]
    exact read_delta now.reads now.index now.below
  · have silent : emptyInputDelta s = [] := by
      unfold emptyInputDelta
      rw [now.typed]
      refine if_neg ?_
      rintro ⟨tool, unsent⟩
      have type := Option.some_inj.mp tool
      have written : b.json ≠ "" := fun unwritten => empty ⟨type, unwritten⟩
      rw [(now.delta type).mpr written] at unsent
      cases unsent
    have same : closeBuilder b = b := if_neg empty
    rw [silent, same]
    exact .nil ⟨now.phase, now.reads⟩

theorem closeCCAnthropicBlock_keeps (now : At s blocks p current) :
    Keeps readPhase (fun s' p' => Idling s' (closedBlocks blocks current) p')
      (closeCCAnthropicBlock s) p := by
  unfold closeCCAnthropicBlock
  cases current with
  | none =>
    have idling : Idling s blocks p := now
    rw [if_pos idling.closed]
    refine .silent ?_
    show Idling s (blocks ++ []) p
    rw [List.append_nil]
    exact idling
  | some b =>
    have within : Within s blocks b p := now
    rw [if_neg (by simp [within.opened])]
    refine Follows.append (emptyInputDelta_follows within) fun p' closing => ?_
    have followed : readPhase p' (blockStop s.contentBlockIndex) =
        some (.between (s.contentBlockIndex + 1), p'.2) := by
      unfold readPhase
      rw [closing.1]
      simp [Phase.follow, blockStop, Assembly.read]
    refine Follows.one followed ⟨within.started, within.running, rfl, rfl, closing.2, ?_⟩
    intro other member
    rcases List.mem_append.mp member with earlier | last
    · exact (within.below other earlier).trans (Int.lt_succ _)
    · have same : other = closeBuilder b := by simpa using last
      rw [same, closeBuilder_index, within.index]
      exact Int.lt_succ _

/-! ### Reasoning and text -/

/-- The open block is of this type. -/
def OpenIs (type : BlockType) (s : ChatCompletionsToAnthropicStreamState) : Prop :=
  s.contentBlockOpen = true ∧ s.currentBlockType = some type

instance (type : BlockType) (s : ChatCompletionsToAnthropicStreamState) :
    Decidable (OpenIs type s) :=
  inferInstanceAs (Decidable (_ ∧ _))

variable {type : BlockType}

theorem openIs_iff (now : At s blocks p current) :
    OpenIs type s ↔ ∃ b, current = some b ∧ b.block.type = type := by
  cases current with
  | none =>
    have idling : Idling s blocks p := now
    refine iff_of_false ?_ ?_
    · intro opened
      have contra := idling.closed
      rw [opened.1] at contra
      cases contra
    · rintro ⟨b, contra, _⟩
      cases contra
  | some b =>
    have within : Within s blocks b p := now
    constructor
    · intro opened
      have typed := opened.2
      rw [within.typed] at typed
      exact ⟨b, rfl, Option.some_inj.mp typed⟩
    · rintro ⟨other, same, typed⟩
      cases same
      exact ⟨within.opened, by rw [within.typed, typed]⟩

/-- What a delta of reasoning or text adds. -/
def pieceDelta (type : BlockType) (text : String) : AnthropicDelta :=
  if type = .thinking then { type := .thinking, thinking := text } else { type := .text, text := text }

/-- The block that a piece of reasoning or text begins. -/
def pieceBlock (type : BlockType) (text : String) : AnthropicContentBlock :=
  if type = .thinking then { type := .thinking, thinking := text } else { type := .text, text := text }

variable {text : String}

theorem pieceDelta_add {index : ℤ} (kind : type = .thinking ∨ type = .text) :
    ({ index := index, block := { type := type } } : Builder).add (pieceDelta type text) =
      { index := index, block := pieceBlock type text } := by
  rcases kind with rfl | rfl
  · simp [Builder.add, pieceDelta, pieceBlock]
  · simp [Builder.add, pieceDelta, pieceBlock]

theorem pieceDelta_takes (kind : type = .thinking ∨ type = .text) :
    type.takes (pieceDelta type text).type = true := by
  rcases kind with rfl | rfl <;> rfl

/-- A piece of reasoning or text. -/
def writePiece (type : BlockType) (text : String) (s : ChatCompletionsToAnthropicStreamState) :
    ChatToAnthropic :=
  andThen (ensureBlock type s) (ccAnthropicDelta (pieceDelta type text))

theorem ccAnthropicDelta_keeps (now : Within s blocks b p) (kind : type = .thinking ∨ type = .text)
    (typed : b.block.type = type) :
    Keeps readPhase (fun s' p' => s' = s ∧ Within s' blocks (b.add (pieceDelta type text)) p')
      (ccAnthropicDelta (pieceDelta type text) s) p := by
  unfold ccAnthropicDelta
  rw [if_pos now.opened]
  have written : Keeps readPhase
      (fun s' p' => Within s' blocks (b.add (pieceDelta type text)) p')
      (s, [blockDelta s.contentBlockIndex (pieceDelta type text)]) p := by
    refine delta_keeps now ?_ rfl rfl rfl rfl rfl ?_
    · rw [typed]
      exact pieceDelta_takes kind
    · intro tool
      rw [typed] at tool
      rcases kind with rfl | rfl <;> cases tool
  exact written.mono fun p' within => ⟨rfl, within⟩

/-- The piece goes on an open block of its type. -/
theorem writePiece_continues (now : Within s blocks b p) (kind : type = .thinking ∨ type = .text)
    (typed : b.block.type = type) :
    Keeps readPhase
      (fun s' p' => SameTools s s' ∧ Within s' blocks (b.add (pieceDelta type text)) p')
      (writePiece type text s) p := by
  have already : s.contentBlockOpen ∧ s.currentBlockType = some type :=
    ⟨now.opened, by rw [now.typed, typed]⟩
  unfold writePiece ensureBlock
  rw [if_pos already]
  have start : Keeps readPhase (fun s' p' => Within s' blocks b p') (s, []) p := .silent now
  refine start.andThen fun p' unchanged => ?_
  have written := @ccAnthropicDelta_keeps s blocks b p' type text unchanged kind typed
  exact written.mono fun p'' after => ⟨by rw [after.1]; exact .refl, after.2⟩

/-- The piece begins a block, after the open one is closed. -/
theorem writePiece_begins (now : At s blocks p current) (kind : type = .thinking ∨ type = .text)
    (other : ¬OpenIs type s) :
    Keeps readPhase (fun s' p' => SameTools s s' ∧
        Within s' (closedBlocks blocks current)
          { index := s'.contentBlockIndex, block := pieceBlock type text } p')
      (writePiece type text s) p := by
  have other' : ¬(s.contentBlockOpen = true ∧ s.currentBlockType = some type) := other
  unfold writePiece ensureBlock
  rw [if_neg other']
  have opened : Keeps readPhase (fun s' p' => SameTools s s' ∧
      Within s' (closedBlocks blocks current)
        { index := s'.contentBlockIndex, block := { type := type } } p')
      (andThen (closeCCAnthropicBlock s) fun s =>
        ({ s with contentBlockOpen := true, currentBlockType := some type },
         [blockStart s.contentBlockIndex { type := type }])) p := by
    refine (closeCCAnthropicBlock_keeps now).andThen fun p' idling => ?_
    have began := @start_keeps (closeCCAnthropicBlock s).1 _ p'
      { (closeCCAnthropicBlock s).1 with contentBlockOpen := true, currentBlockType := some type }
      { type := type } idling rfl rfl rfl rfl rfl (by
        intro tool
        rcases kind with rfl | rfl <;> cases tool)
    refine began.mono fun p'' within => ⟨?_, within⟩
    exact closeCCAnthropicBlock_tools.trans ⟨rfl, rfl, rfl, rfl, rfl, rfl, rfl⟩
  refine opened.andThen fun p' within => ?_
  have written := @ccAnthropicDelta_keeps _ _ _ p' type text within.2 kind rfl
  rw [pieceDelta_add kind] at written
  exact written.mono fun p'' after => ⟨within.1, after.2⟩

theorem handleReasoning_eq (fresh : text ≠ "") :
    handleReasoning text s = writePiece .thinking text s := by
  unfold handleReasoning
  rw [if_neg fresh]
  rfl

theorem closeCCAnthropicBlock_idle (closed : s.contentBlockOpen = false) :
    closeCCAnthropicBlock s = (s, []) := if_pos closed

theorem closeCCAnthropicBlock_closed : (closeCCAnthropicBlock s).1.contentBlockOpen = false := by
  unfold closeCCAnthropicBlock
  split
  · assumption
  · rfl

/-- An open thinking block is closed before text anyway. -/
theorem handleContent_eq (fresh : text ≠ "") :
    handleContent text s = writePiece .text text s := by
  unfold handleContent
  rw [if_neg fresh]
  show andThen (closeCCAnthropicBlockIfOpen s .thinking) (writePiece .text text) = _
  unfold closeCCAnthropicBlockIfOpen
  by_cases other : s.contentBlockOpen = false ∨ s.currentBlockType ≠ some .thinking
  · rw [if_pos other]
    simp [andThen]
  · rw [if_neg other]
    obtain ⟨opened, thinking⟩ := not_or.mp other
    have notText : ¬(s.contentBlockOpen = true ∧ s.currentBlockType = some .text) := by
      rintro ⟨_, typed⟩
      rw [not_not.mp thinking] at typed
      cases typed
    have closed := @closeCCAnthropicBlock_closed s
    have notText' : ¬((closeCCAnthropicBlock s).1.contentBlockOpen = true ∧
        (closeCCAnthropicBlock s).1.currentBlockType = some .text) := by
      rw [closed]
      simp
    unfold writePiece ensureBlock
    simp only [andThen, if_neg notText, if_neg notText', closeCCAnthropicBlock_idle closed,
      List.nil_append, List.append_assoc]

/-! ### Calls -/

/-- The block that announces a call. -/
def callBlock (callID name : String) : AnthropicContentBlock :=
  { type := .toolUse, id := fromResponsesCallID callID, name := name, input := "\x7b\x7d" }

theorem announceCCAnthropicToolBlock_state (idx : ℤ) (callID name : String) :
    (announceCCAnthropicToolBlock idx callID name s).1 =
      { openToolBlock idx s with
        pendingToolArgs := Function.update s.pendingToolArgs idx ""
        currentToolHadDelta := decide (s.pendingToolArgs idx ≠ "") } := by
  unfold announceCCAnthropicToolBlock flushToolArgs andThen
  dsimp only
  by_cases nothing : s.pendingToolArgs idx = ""
  · have same : Function.update s.pendingToolArgs idx "" = s.pendingToolArgs := by
      rw [← nothing, Function.update_eq_self]
    have nothing' : (openToolBlock idx s).pendingToolArgs idx = "" := nothing
    rw [if_pos nothing', same]
    simp [nothing, openToolBlock]
  · have some' : ¬(openToolBlock idx s).pendingToolArgs idx = "" := nothing
    rw [if_neg some']
    simp [nothing, openToolBlock]

theorem announceCCAnthropicToolBlock_keeps {idx : ℤ} {callID name : String}
    (now : Idling s blocks p) :
    Keeps readPhase (fun s' p' => Within s' blocks
        { index := s.contentBlockIndex, block := callBlock callID name
          json := s.pendingToolArgs idx } p')
      (announceCCAnthropicToolBlock idx callID name s) p := by
  unfold announceCCAnthropicToolBlock
  have began : Keeps readPhase (fun s' p' => Within s' blocks
        { index := s.contentBlockIndex, block := callBlock callID name } p')
      (openToolBlock idx s, [blockStart s.contentBlockIndex (callBlock callID name)]) p :=
    start_keeps now rfl rfl rfl rfl rfl fun _ => rfl
  refine began.andThen fun p' within => ?_
  unfold flushToolArgs
  dsimp only
  by_cases nothing : s.pendingToolArgs idx = ""
  · have nothing' : (openToolBlock idx s).pendingToolArgs idx = "" := nothing
    rw [if_pos nothing', nothing]
    exact .silent within
  · have some' : ¬(openToolBlock idx s).pendingToolArgs idx = "" := nothing
    rw [if_neg some']
    have added : ({ index := s.contentBlockIndex, block := callBlock callID name } : Builder).add
        { type := .inputJSON, partialJSON := s.pendingToolArgs idx } =
          { index := s.contentBlockIndex, block := callBlock callID name
            json := s.pendingToolArgs idx } := by
      simp [Builder.add]
    rw [← added]
    refine delta_keeps within rfl rfl rfl rfl rfl rfl ?_
    intro _
    rw [added]
    exact iff_of_true rfl nothing

/-- Arguments for the open block. -/
theorem addToolArgs_keeps {idx : ℤ} {arguments : String} (now : Within s blocks b p)
    (announced : s.toolAnnounced idx = some true) (here : s.toolBlockIndex idx = b.index)
    (tool : b.block.type = .toolUse) :
    Keeps readPhase (fun s' p' => SameTools s s' ∧
        Within s' blocks { b with json := b.json ++ arguments } p')
      (addToolArgs idx arguments s) p := by
  unfold addToolArgs
  by_cases nothing : arguments = ""
  · rw [if_pos nothing, nothing, String.append_empty]
    exact .silent ⟨.refl, now⟩
  · rw [if_neg nothing, if_pos announced]
    dsimp only
    have place : s.toolBlockIndex idx = s.contentBlockIndex := here.trans now.index
    have added : b.add { type := .inputJSON, partialJSON := arguments } =
        { b with json := b.json ++ arguments } := rfl
    have written : b.json ++ arguments ≠ "" := by
      intro empty
      exact nothing (String.append_eq_empty_iff.mp empty).2
    rw [place]
    have keeps : Keeps readPhase (fun s' p' => Within s' blocks
          (b.add { type := .inputJSON, partialJSON := arguments }) p')
        ({ s with currentToolHadDelta := s.currentToolHadDelta ||
            (s.contentBlockOpen && s.contentBlockIndex == s.contentBlockIndex) },
          [blockDelta s.contentBlockIndex { type := .inputJSON, partialJSON := arguments }]) p := by
      refine delta_keeps now ?_ rfl rfl rfl rfl rfl ?_
      · rw [tool]
        rfl
      · intro _
        rw [added]
        refine iff_of_true ?_ written
        simp [now.opened]
    exact keeps.mono fun p' within => ⟨⟨rfl, rfl, rfl, rfl, rfl, rfl, rfl⟩, within⟩

/-- Arguments of a call that waits for its name. -/
theorem addToolArgs_waits {idx : ℤ} {arguments : String}
    (waits : s.toolAnnounced idx ≠ some true) :
    addToolArgs idx arguments s =
      ({ s with
         pendingToolArgs := Function.update s.pendingToolArgs idx
           (s.pendingToolArgs idx ++ arguments) }, []) := by
  unfold addToolArgs
  by_cases nothing : arguments = ""
  · rw [if_pos nothing, nothing, String.append_empty, Function.update_eq_self]
  · rw [if_neg nothing, if_neg waits]

end Sub2api.ApiCompat
