import Sub2api.ApiCompat.ChatToResponses

/-!
# The state after each handler of a chat stream

Every handler emits its events and changes few fields besides the sequence number. The equations
here say which, so that nothing later has to look into a handler for its state.
-/

namespace Sub2api.ApiCompat

open Go Transducer ChatToResponses

variable {setting : ChatSetting} {s : ChatCompletionsToResponsesStreamState}

/-! ### Reasoning and text -/

theorem ensureCreated_state (s : ChatCompletionsToResponsesStreamState) :
    ∃ n, (ensureCreated s).1 = { s with createdSent := true, sequenceNumber := n } := by
  unfold ensureCreated
  split
  · rename_i sent
    exact ⟨s.sequenceNumber, by rw [← sent]⟩
  · exact ⟨_, rfl⟩

theorem closeReasoningItem_state (s : ChatCompletionsToResponsesStreamState) :
    ∃ n, (closeReasoningItem s).1 =
      { s with
        reasoningOpen := false
        reasoningDone := s.reasoningOpen || s.reasoningDone
        sequenceNumber := n } := by
  unfold closeReasoningItem
  split
  · rename_i shut
    refine ⟨s.sequenceNumber, ?_⟩
    rw [shut, Bool.false_or, ← shut]
  · rename_i isOpen
    have isOpen' : s.reasoningOpen = true := by simpa using isOpen
    refine ⟨s.sequenceNumber + 1 + 1 + 1, ?_⟩
    rw [isOpen', Bool.true_or]
    rfl

theorem handleReasoning_state {text : String} (fresh : text ≠ "") :
    ∃ n, (handleReasoning setting text s).1 =
      { (if s.reasoningOpen ∨ s.reasoningDone then s else openReasoning setting s) with
        reasoning := s.reasoning ++ text
        sequenceNumber := n } := by
  unfold handleReasoning ensureReasoningItem
  rw [if_neg fresh]
  split
  · exact ⟨_, rfl⟩
  · exact ⟨_, rfl⟩

theorem writeText_state (setting : ChatSetting) (s : ChatCompletionsToResponsesStreamState)
    (text : String) :
    ∃ n, (writeText setting s text).1 =
      { (if s.messageItemID ≠ "" then s else openMessage setting s) with
        textPartOpen := true
        text := s.text ++ text
        sequenceNumber := n } := by
  unfold writeText ensureMessageItem
  split
  · unfold ensureTextPart
    dsimp only [andThen]
    split
    · rename_i isOpen
      exact ⟨_, by rw [← isOpen]; rfl⟩
    · exact ⟨_, rfl⟩
  · unfold ensureTextPart
    dsimp only [andThen]
    split
    · rename_i isOpen
      have isOpen' : s.textPartOpen = true := isOpen
      exact ⟨s.sequenceNumber + 1 + 1, by rw [← isOpen']; rfl⟩
    · exact ⟨_, rfl⟩

theorem endMessage_state (s : ChatCompletionsToResponsesStreamState) :
    ∃ n, (endMessage s).1 = { s with sequenceNumber := n } := by
  unfold endMessage
  dsimp only [andThen]
  split
  · exact ⟨_, rfl⟩
  · exact ⟨_, rfl⟩

theorem closeChatMessageItem_state (isOpen : s.messageItemID ≠ "") :
    ∃ n, (closeChatMessageItem s).1 = { keepMessage s with sequenceNumber := n } := by
  unfold closeChatMessageItem
  rw [if_neg isOpen]
  obtain ⟨n, ended⟩ := endMessage_state s
  refine ⟨n, ?_⟩
  dsimp only [andThen]
  rw [ended]
  rfl

/-! ### Calls -/

/-- A change of a call that keeps its index. -/
def KeepsIndex (change : StreamTool → StreamTool) : Prop :=
  ∀ stored, (change stored).index = stored.index

/-- The call after `announceChatToolItem` has seen it. -/
def announcing (setting : ChatSetting) (force : Bool) (stored : StreamTool) : StreamTool :=
  if stored.announced ∨ (force = false ∧ stored.name = "" ∧ telling setting.tools) then stored
  else decided setting stored

theorem mergeCall_index {call : ChatToolCall} : KeepsIndex (mergeCall call) := fun _ => rfl

theorem announcing_index {force : Bool} : KeepsIndex (announcing setting force) := by
  intro stored
  unfold announcing
  split <;> rfl

theorem appendArguments_nil : appendArguments "" = id := by
  funext stored
  simp [appendArguments]

theorem setTool_none {index : ℤ} {change : StreamTool → StreamTool} (absent : tool s index = none) :
    setTool s index change = s := by
  have other : ∀ stored ∈ s.toolCalls, stored.index ≠ index := by
    intro stored member
    have := List.find?_eq_none.mp absent stored member
    simpa using this
  unfold setTool
  have same : (s.toolCalls.map fun stored =>
      if stored.index = index then change stored else stored) = s.toolCalls := by
    rw [List.map_congr_left fun stored member => if_neg (other stored member), List.map_id']
  rw [same]

@[simp] theorem setTool_id {index : ℤ} : setTool s index id = s := by
  simp [setTool]

theorem setTool_setTool {index : ℤ} {change later : StreamTool → StreamTool}
    (keeps : KeepsIndex change) :
    setTool (setTool s index change) index later = setTool s index (later ∘ change) := by
  have same (stored : StreamTool) :
      (if (if stored.index = index then change stored else stored).index = index then
        later (if stored.index = index then change stored else stored)
      else if stored.index = index then change stored else stored) =
        if stored.index = index then later (change stored) else stored := by
    by_cases found : stored.index = index
    · simp [found, keeps stored]
    · simp [found]
  simp only [setTool, List.map_map, Function.comp_def, same]

theorem tool_setTool {index : ℤ} {change : StreamTool → StreamTool} (keeps : KeepsIndex change) :
    tool (setTool s index change) index = (tool s index).map change := by
  unfold tool setTool
  induction s.toolCalls with
  | nil => rfl
  | cons stored rest ih =>
    by_cases found : stored.index = index
    · simp [found, keeps stored]
    · simp only [List.map_cons, if_neg found]
      simpa [List.find?_cons, found] using ih

/-- The calls around the stored one of an index. -/
theorem tool_split {index : ℤ} {stored : StreamTool} (found : tool s index = some stored) :
    stored.index = index ∧ ∃ before after, s.toolCalls = before ++ stored :: after := by
  unfold tool at found
  have matched := List.find?_some found
  obtain ⟨before, after, split⟩ := List.append_of_mem (List.mem_of_find?_eq_some found)
  exact ⟨by simpa using matched, before, after, split⟩

/-- With distinct indices a change is a change of one call. -/
theorem setTool_toolCalls {before after : List StreamTool} {stored : StreamTool}
    (keys : (s.toolCalls.map (·.index)).Nodup) (split : s.toolCalls = before ++ stored :: after)
    (change : StreamTool → StreamTool) :
    (setTool s stored.index change).toolCalls = before ++ change stored :: after := by
  rw [split, List.map_append, List.map_cons] at keys
  have fresh := (List.nodup_middle.mp keys).notMem
  have other : ∀ old ∈ before ++ after, old.index ≠ stored.index := by
    intro old member same
    refine fresh ?_
    rw [← List.map_append]
    exact List.mem_map.mpr ⟨old, member, same⟩
  have kept : ∀ old ∈ before ++ after,
      (if old.index = stored.index then change old else old) = old :=
    fun old member => if_neg (other old member)
  unfold setTool
  dsimp only
  rw [split, List.map_append, List.map_cons, if_pos rfl,
    List.map_congr_left fun old member => kept old (List.mem_append_left _ member),
    List.map_congr_left fun old member => kept old (List.mem_append_right _ member)]
  simp

theorem announce_state {stored : StreamTool} :
    ∃ n, (announce setting s stored).1 =
      { setTool s stored.index (decided setting) with sequenceNumber := n } := by
  unfold announce
  dsimp only [andThen]
  split
  · exact ⟨_, rfl⟩
  · exact ⟨_, rfl⟩

/-- With distinct indices only the stored call counts. -/
theorem setTool_congr {index : ℤ} {stored : StreamTool} {change change' : StreamTool → StreamTool}
    (keys : (s.toolCalls.map (·.index)).Nodup) (found : tool s index = some stored)
    (same : change stored = change' stored) : setTool s index change = setTool s index change' := by
  obtain ⟨rfl, before, after, split⟩ := tool_split found
  have calls : (setTool s stored.index change).toolCalls =
      (setTool s stored.index change').toolCalls := by
    rw [setTool_toolCalls keys split, setTool_toolCalls keys split, same]
  exact congrArg (fun calls => { s with toolCalls := calls }) calls

theorem announceChatToolItem_state {force : Bool} {index : ℤ}
    (keys : (s.toolCalls.map (·.index)).Nodup) :
    ∃ n, (announceChatToolItem setting force s index).1 =
      { setTool s index (announcing setting force) with sequenceNumber := n } := by
  unfold announceChatToolItem
  cases found : tool s index with
  | none => exact ⟨s.sequenceNumber, by rw [setTool_none found]⟩
  | some stored =>
    have index_eq : stored.index = index := (tool_split found).1
    dsimp only
    split
    · rename_i announced
      have same : announcing setting force stored = id stored := by
        simp [announcing, announced]
      exact ⟨s.sequenceNumber, by rw [setTool_congr keys found same, setTool_id]⟩
    · rename_i fresh
      split
      · rename_i waits
        have same : announcing setting force stored = id stored := by
          unfold announcing
          rw [if_pos (Or.inr waits)]
          rfl
        exact ⟨s.sequenceNumber, by rw [setTool_congr keys found same, setTool_id]⟩
      · rename_i ready
        have same : announcing setting force stored = decided setting stored := by
          unfold announcing
          rw [if_neg (not_or.mpr ⟨fresh, ready⟩)]
        rw [setTool_congr keys found same, ← index_eq]
        exact announce_state

theorem addArguments_state {index : ℤ} {arguments : String} :
    ∃ n, (addArguments s index arguments).1 =
      { setTool s index (appendArguments arguments) with sequenceNumber := n } := by
  unfold addArguments
  cases found : tool s index with
  | none => exact ⟨s.sequenceNumber, by rw [setTool_none found]⟩
  | some stored =>
    dsimp only
    split
    · rename_i nothing
      exact ⟨s.sequenceNumber, by rw [nothing, appendArguments_nil, setTool_id]⟩
    · split
      · exact ⟨_, rfl⟩
      · exact ⟨s.sequenceNumber, rfl⟩

/-- What a fragment makes of a call, from its merging on. -/
def touch (setting : ChatSetting) (call : ChatToolCall) (stored : StreamTool) : StreamTool :=
  appendArguments call.function.arguments (announcing setting false stored)

theorem touch_index {call : ChatToolCall} : KeepsIndex (touch setting call) := by
  intro stored
  exact announcing_index stored

/-- The part of a fragment's handling that follows the storing. -/
theorem touch_state {index : ℤ} {call : ChatToolCall}
    (keys : (s.toolCalls.map (·.index)).Nodup) :
    ∃ n, (andThen (announceChatToolItem setting false s index) fun s =>
        addArguments s index call.function.arguments).1 =
      { setTool s index (touch setting call) with sequenceNumber := n } := by
  obtain ⟨n, announced⟩ := @announceChatToolItem_state setting s false index keys
  dsimp only [andThen]
  rw [announced]
  obtain ⟨m, added⟩ := @addArguments_state
    { setTool s index (announcing setting false) with sequenceNumber := n } index
    call.function.arguments
  refine ⟨m, added.trans ?_⟩
  have both := @setTool_setTool s index (announcing setting false)
    (appendArguments call.function.arguments) announcing_index
  exact congrArg (fun after : ChatCompletionsToResponsesStreamState =>
    { after with sequenceNumber := m }) both

theorem handleToolCall_known {call : ChatToolCall} {stored : StreamTool}
    (keys : (s.toolCalls.map (·.index)).Nodup)
    (found : tool s (call.index.getD 0) = some stored) :
    ∃ n, (handleToolCall setting s call).1 =
      { setTool s (call.index.getD 0) (touch setting call ∘ mergeCall call) with
        sequenceNumber := n } := by
  unfold handleToolCall storeCall
  dsimp only
  rw [found]
  have keys' : ((setTool s (call.index.getD 0) (mergeCall call)).toolCalls.map (·.index)).Nodup := by
    have same : (setTool s (call.index.getD 0) (mergeCall call)).toolCalls.map (·.index) =
        s.toolCalls.map (·.index) := by
      unfold setTool
      rw [List.map_map]
      refine List.map_congr_left fun old _ => ?_
      show (if _ then _ else _ : StreamTool).index = _
      split <;> rfl
    rw [same]
    exact keys
  obtain ⟨n, touched⟩ := @touch_state setting _ (call.index.getD 0) call keys'
  refine ⟨n, touched.trans ?_⟩
  exact congrArg (fun after : ChatCompletionsToResponsesStreamState =>
    { after with sequenceNumber := n }) (setTool_setTool mergeCall_index)

/-- An index that is not stored is no stored call's. -/
theorem absent_index {index : ℤ} (absent : tool s index = none) :
    index ∉ s.toolCalls.map (·.index) := by
  intro member
  obtain ⟨stored, inCalls, same⟩ := List.mem_map.mp member
  have := List.find?_eq_none.mp absent stored inCalls
  simp [same] at this

/-- A new call's index is no earlier call's. -/
theorem newCall_keys {call : ChatToolCall} {index : ℤ} (keys : (s.toolCalls.map (·.index)).Nodup)
    (absent : tool s index = none) :
    ((s.toolCalls ++ [newCall setting s index call]).map (·.index)).Nodup := by
  rw [List.map_append]
  refine List.nodup_append.mpr ⟨keys, List.nodup_singleton _, ?_⟩
  intro a old b new same
  rw [same, List.mem_singleton.mp new] at old
  exact absent_index absent old

theorem tool_takeCall {call : ChatToolCall} {index : ℤ} (absent : tool s index = none) :
    tool (takeCall setting s index call) index = some (newCall setting s index call) := by
  unfold tool at absent ⊢
  unfold takeCall
  dsimp only
  rw [List.find?_append, absent, Option.none_or, List.find?_singleton]
  simp [newCall]

theorem handleToolCall_new {call : ChatToolCall} (keys : (s.toolCalls.map (·.index)).Nodup)
    (absent : tool s (call.index.getD 0) = none) :
    ∃ n, (handleToolCall setting s call).1 =
      { takeCall setting s (call.index.getD 0) call with
        toolCalls := s.toolCalls ++ [touch setting call (newCall setting s (call.index.getD 0) call)]
        reasoningOpen := false
        reasoningDone := s.reasoningOpen || s.reasoningDone
        sequenceNumber := n } := by
  unfold handleToolCall storeCall
  dsimp only
  rw [absent]
  obtain ⟨m, closed⟩ := closeReasoningItem_state s
  have keys' := @newCall_keys setting s call _ keys absent
  obtain ⟨n, touched⟩ := @touch_state setting
    (takeCall setting { s with
      reasoningOpen := false
      reasoningDone := s.reasoningOpen || s.reasoningDone
      sequenceNumber := m } (call.index.getD 0) call) (call.index.getD 0) call keys'
  refine ⟨n, ?_⟩
  dsimp only [andThen] at touched ⊢
  rw [closed]
  refine touched.trans ?_
  have split : s.toolCalls ++ [newCall setting s (call.index.getD 0) call] =
      s.toolCalls ++ newCall setting s (call.index.getD 0) call :: [] := rfl
  have calls := @setTool_toolCalls
    (takeCall setting { s with
      reasoningOpen := false
      reasoningDone := s.reasoningOpen || s.reasoningDone
      sequenceNumber := m } (call.index.getD 0) call) _ _ _ keys' split (touch setting call)
  exact congrArg (fun calls => { takeCall setting s (call.index.getD 0) call with
    toolCalls := calls
    reasoningOpen := false
    reasoningDone := s.reasoningOpen || s.reasoningDone
    sequenceNumber := n }) calls

theorem tool_setTool_ne {index other : ℤ} {change : StreamTool → StreamTool}
    (keeps : KeepsIndex change) (apart : other ≠ index) :
    tool (setTool s index change) other = tool s other := by
  unfold tool setTool
  induction s.toolCalls with
  | nil => rfl
  | cons stored rest ih =>
    by_cases found : stored.index = index
    · have missed : stored.index ≠ other := by
        intro same
        exact apart (same.symm.trans found)
      have missed' : (change stored).index ≠ other := by
        rw [keeps]
        exact missed
      simp only [List.map_cons, if_pos found]
      rw [List.find?_cons_of_neg (by simpa using missed'),
        List.find?_cons_of_neg (by simpa using missed)]
      exact ih
    · simp only [List.map_cons, if_neg found, List.find?_cons]
      split
      · rfl
      · exact ih

theorem endTool_state (setting : ChatSetting) (s : ChatCompletionsToResponsesStreamState)
    (stored : StreamTool) : ∃ n, (endTool setting s stored).1 = { s with sequenceNumber := n } := by
  unfold endTool
  dsimp only [andThen]
  split
  · split
    · exact ⟨_, rfl⟩
    · exact ⟨_, rfl⟩
  · split
    · exact ⟨_, rfl⟩
    · exact ⟨_, rfl⟩

theorem closeTool_state {index : ℤ} (keys : (s.toolCalls.map (·.index)).Nodup) :
    ∃ n, (closeTool setting s index).1 =
      { setTool s index (announcing setting true) with sequenceNumber := n } := by
  obtain ⟨n, announced⟩ := @announceChatToolItem_state setting s true index keys
  unfold closeTool
  dsimp only [andThen]
  rw [announced]
  split
  · exact ⟨n, rfl⟩
  · rename_i stored _
    exact endTool_state setting _ stored

/-! ### What holds between handlers -/

theorem announcing_outputIndex {force : Bool} {stored : StreamTool} :
    (announcing setting force stored).outputIndex = stored.outputIndex := by
  unfold announcing
  split <;> rfl

theorem touch_outputIndex {call : ChatToolCall} {stored : StreamTool} :
    (touch setting call stored).outputIndex = stored.outputIndex :=
  announcing_outputIndex

/-- A call's item has one type. -/
def OneType (stored : StreamTool) : Prop :=
  stored.isCustom = true → stored.isToolSearch = false

theorem oneType_decided {stored : StreamTool} : OneType (decided setting stored) := by
  intro custom
  simp only [decided] at custom ⊢
  simp [custom]

theorem oneType_announcing {force : Bool} {stored : StreamTool} (one : OneType stored) :
    OneType (announcing setting force stored) := by
  unfold announcing
  split
  · exact one
  · exact oneType_decided

/-- A text part is open in the open message, text is that of the open message, nothing was reasoned
before the reasoning item, and the calls have distinct indices and are in the order of their
items. -/
structure Tidy (s : ChatCompletionsToResponsesStreamState) : Prop where
  part : s.messageItemID ≠ "" ↔ s.textPartOpen = true
  unsaid : s.messageItemID = "" → s.text = ""
  unreasoned : s.reasoningOpen = false → s.reasoningDone = false → s.reasoning = ""
  keys : (s.toolCalls.map (·.index)).Nodup
  below : ∀ stored ∈ s.toolCalls, stored.outputIndex < s.nextOutputIndex
  ordered : s.toolCalls.Pairwise fun a b => a.outputIndex < b.outputIndex
  types : ∀ stored ∈ s.toolCalls, OneType stored

theorem Tidy.start (setting : ChatSetting) (model : String) (created : ℤ) :
    Tidy (newState setting model created) := by
  constructor <;> simp [newState]

theorem Tidy.closeReasoningItem (tidy : Tidy s) : Tidy (closeReasoningItem s).1 := by
  obtain ⟨n, closed⟩ := closeReasoningItem_state s
  obtain ⟨part, unsaid, unreasoned, keys, below, ordered, types⟩ := tidy
  rw [closed]
  refine ⟨part, unsaid, ?_, keys, below, ordered, types⟩
  intro _ notDone
  obtain ⟨shut, notDone⟩ := Bool.or_eq_false_iff.mp notDone
  exact unreasoned shut notDone

theorem Tidy.handleReasoning {text : String} (tidy : Tidy s) :
    Tidy (handleReasoning setting text s).1 := by
  by_cases fresh : text = ""
  · unfold ChatToResponses.handleReasoning
    rw [if_pos fresh]
    exact tidy
  · obtain ⟨n, said⟩ := @handleReasoning_state setting s text fresh
    obtain ⟨part, unsaid, unreasoned, keys, below, ordered, types⟩ := tidy
    rw [said]
    split
    · rename_i begun
      refine ⟨part, unsaid, ?_, keys, below, ordered, types⟩
      intro shut notDone
      rcases begun with isOpen | done
      · rw [shut] at isOpen
        cases isOpen
      · rw [notDone] at done
        cases done
    · refine ⟨part, unsaid, ?_, keys, ?_, ordered, types⟩
      · intro shut
        cases shut
      · intro stored member
        exact (below stored member).trans (Int.lt_succ _)

theorem Tidy.writeText {text : String} (tidy : Tidy s) : Tidy (writeText setting s text).1 := by
  obtain ⟨n, written⟩ := writeText_state setting s text
  obtain ⟨part, unsaid, unreasoned, keys, below, ordered, types⟩ := tidy
  rw [written]
  split
  · rename_i isOpen
    exact ⟨iff_of_true isOpen rfl, fun absent => absurd absent isOpen, unreasoned, keys, below,
      ordered, types⟩
  · refine ⟨iff_of_true generatedItemID_ne rfl, fun absent => absurd absent generatedItemID_ne,
      unreasoned, keys, ?_, ordered, types⟩
    intro stored member
    exact (below stored member).trans (Int.lt_succ _)

theorem Tidy.closeMessage (tidy : Tidy s) : Tidy (closeChatMessageItem s).1 := by
  by_cases isOpen : s.messageItemID = ""
  · unfold closeChatMessageItem
    rw [if_pos isOpen]
    exact tidy
  · obtain ⟨n, closed⟩ := closeChatMessageItem_state isOpen
    obtain ⟨part, unsaid, unreasoned, keys, below, ordered, types⟩ := tidy
    rw [closed]
    exact ⟨by simp [keepMessage], fun _ => rfl, unreasoned, keys, below, ordered, types⟩

/-- Changing a call where it stands keeps the calls in order. -/
theorem Tidy.setTool {index : ℤ} {change : StreamTool → StreamTool} (tidy : Tidy s)
    (keeps : KeepsIndex change)
    (places : ∀ stored, (change stored).outputIndex = stored.outputIndex)
    (types : ∀ stored, OneType stored → OneType (change stored)) :
    Tidy (setTool s index change) := by
  have place (stored : StreamTool) :
      (if stored.index = index then change stored else stored).outputIndex =
        stored.outputIndex := by
    split
    · exact places stored
    · rfl
  have key (stored : StreamTool) :
      (if stored.index = index then change stored else stored).index = stored.index := by
    split
    · exact keeps stored
    · rfl
  refine ⟨tidy.part, tidy.unsaid, tidy.unreasoned, ?_, ?_, ?_, ?_⟩
  · simp only [ChatToResponses.setTool, List.map_map, Function.comp_def, key]
    exact tidy.keys
  · intro stored member
    obtain ⟨old, inCalls, rfl⟩ := List.mem_map.mp member
    rw [place]
    exact tidy.below old inCalls
  · refine List.pairwise_map.mpr (tidy.ordered.imp ?_)
    intro a b before
    rw [place, place]
    exact before
  · intro stored member
    obtain ⟨old, inCalls, rfl⟩ := List.mem_map.mp member
    split
    · exact types old (tidy.types old inCalls)
    · exact tidy.types old inCalls

theorem Tidy.handleToolCall {call : ChatToolCall} (tidy : Tidy s) :
    Tidy (handleToolCall setting s call).1 := by
  have types (stored : StreamTool) (one : OneType stored) : OneType (touch setting call stored) :=
    @oneType_announcing setting false stored one
  cases found : tool s (call.index.getD 0) with
  | some stored =>
    obtain ⟨n, touched⟩ := @handleToolCall_known setting s call stored tidy.keys found
    rw [touched]
    have changed : Tidy (ChatToResponses.setTool s (call.index.getD 0)
        (touch setting call ∘ mergeCall call)) := by
      refine tidy.setTool ?_ ?_ ?_
      · intro old
        exact touch_index _
      · intro old
        exact touch_outputIndex
      · intro old one
        exact types _ one
    obtain ⟨part, unsaid, unreasoned, keys, below, ordered, types⟩ := changed
    exact ⟨part, unsaid, unreasoned, keys, below, ordered, types⟩
  | none =>
    obtain ⟨n, touched⟩ := @handleToolCall_new setting s call tidy.keys found
    rw [touched]
    obtain ⟨part, unsaid, unreasoned, keys, below, ordered, types'⟩ := tidy
    refine ⟨part, unsaid, ?_, ?_, ?_, ?_, ?_⟩
    · intro _ notDone
      obtain ⟨shut, notDone⟩ := Bool.or_eq_false_iff.mp notDone
      exact unreasoned shut notDone
    · dsimp only
      rw [List.map_append, List.map_singleton, touch_index]
      refine List.nodup_append.mpr ⟨keys, List.nodup_singleton _, ?_⟩
      intro a old b new same
      rw [same, List.mem_singleton.mp new] at old
      exact absent_index found old
    · intro stored member
      rcases List.mem_append.mp member with old | new
      · exact (below stored old).trans (Int.lt_succ _)
      · rw [List.mem_singleton.mp new, touch_outputIndex]
        exact Int.lt_succ _
    · refine List.pairwise_append.mpr ⟨ordered, List.pairwise_singleton _ _, ?_⟩
      intro a old b new
      rw [List.mem_singleton.mp new, touch_outputIndex]
      exact below a old
    · intro stored member
      rcases List.mem_append.mp member with old | new
      · exact types' stored old
      · rw [List.mem_singleton.mp new]
        refine types _ ?_
        intro custom
        cases custom

theorem Tidy.handleInput (tidy : Tidy s) (input : ChatInput) :
    Tidy (handleInput setting s input).1 := by
  cases input with
  | head chunk =>
    obtain ⟨n, created⟩ := ensureCreated_state { s with
      responseID := if chunk.id ≠ "" ∧ s.createdSent = false then chunk.id else s.responseID
      model := if s.model = "" ∧ chunk.model ≠ "" then chunk.model else s.model
      serviceTier := if chunk.serviceTier ≠ "" then chunk.serviceTier else s.serviceTier
      usage :=
        if chunk.usage.isSome then chunk.usage.map chatUsageToResponsesUsage else s.usage }
    obtain ⟨part, unsaid, unreasoned, keys, below, ordered, types⟩ := tidy
    show Tidy (ensureCreated _).1
    rw [created]
    exact ⟨part, unsaid, unreasoned, keys, below, ordered, types⟩
  | reasoning text => exact tidy.handleReasoning
  | content text =>
    show Tidy (handleContent setting text s).1
    unfold handleContent
    split
    · exact tidy
    · exact tidy.closeReasoningItem.writeText
  | toolCall call => exact tidy.handleToolCall
  | finishReason reason =>
    obtain ⟨part, unsaid, unreasoned, keys, below, ordered, types⟩ := tidy
    unfold ChatToResponses.handleInput
    dsimp only
    split <;> exact ⟨part, unsaid, unreasoned, keys, below, ordered, types⟩
  | closeMessage => exact tidy.closeMessage
  | degenerated =>
    obtain ⟨part, unsaid, unreasoned, keys, below, ordered, types⟩ := tidy
    exact ⟨part, unsaid, unreasoned, keys, below, ordered, types⟩

theorem Tidy.closeTool {index : ℤ} (tidy : Tidy s) : Tidy (closeTool setting s index).1 := by
  obtain ⟨n, state⟩ := @closeTool_state setting s index tidy.keys
  obtain ⟨part, unsaid, unreasoned, keys, below, ordered, types⟩ :=
    @Tidy.setTool s index (announcing setting true) tidy announcing_index
      (fun _ => announcing_outputIndex) fun _ one => oneType_announcing one
  rw [state]
  exact ⟨part, unsaid, unreasoned, keys, below, ordered, types⟩

/-! ### The end is not reached before the finalization -/

theorem completedSent_handleReasoning {text : String} :
    (handleReasoning setting text s).1.completedSent = s.completedSent := by
  by_cases fresh : text = ""
  · unfold handleReasoning
    rw [if_pos fresh]
  · obtain ⟨n, state⟩ := @handleReasoning_state setting s text fresh
    rw [state]
    split <;> rfl

theorem completedSent_handleContent {text : String} :
    (handleContent setting text s).1.completedSent = s.completedSent := by
  unfold handleContent
  split
  · rfl
  · obtain ⟨n, closed⟩ := closeReasoningItem_state s
    obtain ⟨m, written⟩ := writeText_state setting (closeReasoningItem s).1 text
    dsimp only [andThen]
    rw [written, closed]
    dsimp only
    split <;> rfl

theorem completedSent_handleToolCall {call : ChatToolCall} (tidy : Tidy s) :
    (handleToolCall setting s call).1.completedSent = s.completedSent := by
  cases found : tool s (call.index.getD 0) with
  | some stored =>
    obtain ⟨n, state⟩ := @handleToolCall_known setting s call stored tidy.keys found
    rw [state]
    rfl
  | none =>
    obtain ⟨n, state⟩ := @handleToolCall_new setting s call tidy.keys found
    rw [state]
    rfl

theorem completedSent_handleInput {input : ChatInput} (tidy : Tidy s) :
    (handleInput setting s input).1.completedSent = s.completedSent := by
  cases input with
  | head chunk =>
    obtain ⟨n, created⟩ := ensureCreated_state { s with
      responseID := if chunk.id ≠ "" ∧ s.createdSent = false then chunk.id else s.responseID
      model := if s.model = "" ∧ chunk.model ≠ "" then chunk.model else s.model
      serviceTier := if chunk.serviceTier ≠ "" then chunk.serviceTier else s.serviceTier
      usage :=
        if chunk.usage.isSome then chunk.usage.map chatUsageToResponsesUsage else s.usage }
    show (ensureCreated _).1.completedSent = _
    rw [created]
  | reasoning text => exact completedSent_handleReasoning
  | content text => exact completedSent_handleContent
  | toolCall call => exact completedSent_handleToolCall tidy
  | finishReason reason =>
    show (if reason ≠ "" then { s with finishReason := reason } else s).completedSent = _
    split <;> rfl
  | closeMessage =>
    by_cases isOpen : s.messageItemID = ""
    · show (closeChatMessageItem s).1.completedSent = _
      unfold closeChatMessageItem
      rw [if_pos isOpen]
    · obtain ⟨n, state⟩ := closeChatMessageItem_state isOpen
      show (closeChatMessageItem s).1.completedSent = _
      rw [state]
      rfl
  | degenerated => rfl

end Sub2api.ApiCompat
